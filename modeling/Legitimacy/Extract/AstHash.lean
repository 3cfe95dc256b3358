import Legitimacy.Sacrifice

namespace Legitimacy.AstHash

open Sacrifice (containsText toAsciiLowercase)

/-- A node of the tree that the parser returns, with its range of bytes. -/
inductive SyntaxNode where
  | mk (kind : String) (start stop : Nat) (children : List SyntaxNode)

def SyntaxNode.kind : SyntaxNode → String
  | .mk kind _ _ _ => kind

inductive ExtractionSourceLanguage where
  | python | rust | typeScript
deriving DecidableEq

def languageLabel : ExtractionSourceLanguage → String
  | .python => "python"
  | .rust => "rust"
  | .typeScript => "typescript"

structure AstHashFile where
  path : String
  language : ExtractionSourceLanguage
  astHash : String
deriving DecidableEq

structure ParsedAstFile where
  path : String
  language : ExtractionSourceLanguage
  canonicalSexp : String
  canonicalTokens : String

def isCommentNode (kind : String) : Bool := containsText (toAsciiLowercase kind) "comment"

def shouldBindLeafToken (kind : String) : Bool := !isCommentNode kind

/-- What may follow a leading byte in UTF-8: the bounds of each further byte. -/
def continuationBounds (lead : UInt8) : List (UInt8 × UInt8) :=
  if 0xC2 ≤ lead ∧ lead ≤ 0xDF then [(0x80, 0xBF)]
  else if lead = 0xE0 then [(0xA0, 0xBF), (0x80, 0xBF)]
  else if lead = 0xED then [(0x80, 0x9F), (0x80, 0xBF)]
  else if 0xE1 ≤ lead ∧ lead ≤ 0xEF then [(0x80, 0xBF), (0x80, 0xBF)]
  else if lead = 0xF0 then [(0x90, 0xBF), (0x80, 0xBF), (0x80, 0xBF)]
  else if 0xF1 ≤ lead ∧ lead ≤ 0xF3 then [(0x80, 0xBF), (0x80, 0xBF), (0x80, 0xBF)]
  else if lead = 0xF4 then [(0x80, 0x8F), (0x80, 0xBF), (0x80, 0xBF)]
  else []

def continuations : List (UInt8 × UInt8) → List UInt8 → List UInt8
  | (low, high) :: bounds, byte :: bytes => if low ≤ byte ∧ byte ≤ high then byte :: continuations bounds bytes else []
  | _, _ => []

/-- The text of some bytes, with one U+FFFD for each maximal part that is not UTF-8. -/
def fromUtf8Lossy : Nat → List UInt8 → List Char
  | fuel + 1, lead :: bytes =>
    if lead < 0x80 then Char.ofNat lead.toNat :: fromUtf8Lossy fuel bytes
    else
      let bounds := continuationBounds lead
      let following := continuations bounds bytes
      let character :=
        if bounds ≠ [] ∧ following.length = bounds.length then
          Char.ofNat (following.foldl (fun point byte => point * 64 + byte.toNat % 64) (lead.toNat % 2 ^ (6 - bounds.length)))
        else '\uFFFD'
      character :: fromUtf8Lossy fuel (bytes.drop following.length)
  | _, _ => []

def escapeDefault (character : Char) : List Char :=
  if character = '\t' then ['\\', 't']
  else if character = '\r' then ['\\', 'r']
  else if character = '\n' then ['\\', 'n']
  else if character = '\'' ∨ character = '"' ∨ character = '\\' then ['\\', character]
  else if ' ' ≤ character ∧ character ≤ '~' then [character]
  else ['\\', 'u', '\x7b'] ++ Nat.toDigits 16 character.toNat ++ ['\x7d']

def escapeTokenText (text : List Char) : String := .ofList (text.flatMap escapeDefault)

mutual

def canonicalShapeSexpOpt : SyntaxNode → Option String
  | .mk kind _ _ children =>
    if isCommentNode kind then none
    else if children.isEmpty then some kind
    else
      let shapes := canonicalShapes children
      if shapes.isEmpty then some kind else some ("(" ++ kind ++ " " ++ " ".intercalate shapes ++ ")")

def canonicalShapes : List SyntaxNode → List String
  | [] => []
  | child :: children => (canonicalShapeSexpOpt child).toList ++ canonicalShapes children

end

def canonicalShapeSexp (node : SyntaxNode) : String := (canonicalShapeSexpOpt node).getD ""

section
variable (source : List UInt8)

def leafToken (kind : String) (start stop : Nat) : String :=
  let text := (source.take stop).drop start
  kind ++ ":" ++ escapeTokenText (fromUtf8Lossy text.length text)

mutual

def collectLeafTokens : SyntaxNode → List String
  | .mk kind start stop children =>
    if children.isEmpty then if shouldBindLeafToken kind then [leafToken source kind start stop] else []
    else collectChildTokens children

def collectChildTokens : List SyntaxNode → List String
  | [] => []
  | child :: children => collectLeafTokens child ++ collectChildTokens children

end

def canonicalTokenStream (tree : SyntaxNode) : String := "\n".intercalate (collectLeafTokens source tree)

def parsedAstFile (path : String) (language : ExtractionSourceLanguage) (tree : SyntaxNode) : ParsedAstFile :=
  ⟨path, language, canonicalShapeSexp tree, canonicalTokenStream source tree⟩

end

def sha256Label (bytes : List UInt8) : String := "sha256:" ++ Hex.encode bytes

def astHashAlgorithm : String := "tree-sitter-canonical-shape-and-tokens-sha256:v2"

/-- What both hashes take of a file, up to the byte that ends it in the hash of all files. -/
def fileFrame (file : ParsedAstFile) : List UInt8 :=
  Utf8.bytes file.path ++ [0] ++ Utf8.bytes (languageLabel file.language) ++ [0] ++ Utf8.bytes "shape" ++ [0] ++
    Utf8.bytes file.canonicalSexp ++ [0] ++ Utf8.bytes "tokens" ++ [0] ++ Utf8.bytes file.canonicalTokens

def astFileHash (file : ParsedAstFile) : String :=
  sha256Label (Sha256.hash (Utf8.bytes astHashAlgorithm ++ [0] ++ fileFrame file))

def canonicalAstFingerprint (parsed : List ParsedAstFile) : String × List AstHashFile :=
  (sha256Label (Sha256.hash (Utf8.bytes astHashAlgorithm ++ [0] ++ parsed.flatMap fun file => fileFrame file ++ [0])),
    parsed.map fun file => ⟨file.path, file.language, astFileHash file⟩)

mutual

def SyntaxNode.leaves : SyntaxNode → List SyntaxNode
  | .mk kind start stop children => if children.isEmpty then [.mk kind start stop children] else leavesOf children

def leavesOf : List SyntaxNode → List SyntaxNode
  | [] => []
  | child :: children => child.leaves ++ leavesOf children

end

/-- The leaves that no token is made of. -/
def skippedByTokens (tree : SyntaxNode) : List SyntaxNode := tree.leaves.filter fun leaf => isCommentNode leaf.kind

mutual

/-- The leaves that the shape does not reach: those of the comments. -/
def skippedByShape : SyntaxNode → List SyntaxNode
  | .mk kind start stop children =>
    if isCommentNode kind then (SyntaxNode.mk kind start stop children).leaves else skippedIn children

def skippedIn : List SyntaxNode → List SyntaxNode
  | [] => []
  | child :: children => skippedByShape child ++ skippedIn children

end

/-- One tree is another without one subtree, which is not the only child of its parent. -/
inductive Removed (comment : SyntaxNode) : SyntaxNode → SyntaxNode → Prop
  | here {kind : String} {start stop : Nat} {front back : List SyntaxNode} (others : front ++ back ≠ []) :
      Removed comment (.mk kind start stop (front ++ comment :: back)) (.mk kind start stop (front ++ back))
  | inside {kind : String} {start stop : Nat} {front back : List SyntaxNode} {child child' : SyntaxNode}
      (removed : Removed comment child child') :
      Removed comment (.mk kind start stop (front ++ child :: back)) (.mk kind start stop (front ++ child' :: back))

/-- A comment can go without a trace: shape, tokens and every fingerprint that the file has a part in stay. -/
def LeavesNoTrace (source : List UInt8) (tree tree' : SyntaxNode) : Prop :=
  canonicalShapeSexp tree' = canonicalShapeSexp tree ∧ canonicalTokenStream source tree' = canonicalTokenStream source tree ∧
    ∀ path language before after,
      canonicalAstFingerprint (before ++ parsedAstFile source path language tree' :: after) =
        canonicalAstFingerprint (before ++ parsedAstFile source path language tree :: after)

theorem canonicalShapes_append (front back : List SyntaxNode) :
    canonicalShapes (front ++ back) = canonicalShapes front ++ canonicalShapes back := by
  induction front with
  | nil => rfl
  | cons child front ih => simp [canonicalShapes, ih]

theorem collectChildTokens_append (source : List UInt8) (front back : List SyntaxNode) :
    collectChildTokens source (front ++ back) = collectChildTokens source front ++ collectChildTokens source back := by
  induction front with
  | nil => rfl
  | cons child front ih => simp [collectChildTokens, ih]

theorem Removed.shape {comment tree tree' : SyntaxNode} (isComment : isCommentNode comment.kind = true)
    (removed : Removed comment tree tree') : canonicalShapeSexpOpt tree' = canonicalShapeSexpOpt tree := by
  induction removed with
  | here others =>
    have skipped : canonicalShapeSexpOpt comment = none := by
      obtain ⟨kind, start, stop, children⟩ := comment
      simp only [canonicalShapeSexpOpt, show isCommentNode kind = true from isComment, if_true]
    simp [canonicalShapeSexpOpt, canonicalShapes_append, canonicalShapes, skipped, others]
  | inside removed ih => simp [canonicalShapeSexpOpt, canonicalShapes_append, canonicalShapes, ih]

theorem Removed.tokens {comment tree tree' : SyntaxNode} (source : List UInt8) (removed : Removed comment tree tree') :
    ∃ front back, collectLeafTokens source tree = front ++ collectLeafTokens source comment ++ back ∧
      collectLeafTokens source tree' = front ++ back := by
  induction removed with
  | @here kind start stop front back others =>
    refine ⟨collectChildTokens source front, collectChildTokens source back, ?_, ?_⟩
    · simp [collectLeafTokens, collectChildTokens_append, collectChildTokens]
    · simp [collectLeafTokens, collectChildTokens_append, others]
  | @inside kind start stop front back child child' removed ih =>
    obtain ⟨before, after, whole, rest⟩ := ih
    refine ⟨collectChildTokens source front ++ before, after ++ collectChildTokens source back, ?_, ?_⟩
    · simp [collectLeafTokens, collectChildTokens_append, collectChildTokens, whole]
    · simp [collectLeafTokens, collectChildTokens_append, collectChildTokens, rest]

mutual

theorem collectLeafTokens_eq_nil (source : List UInt8) : ∀ node : SyntaxNode,
    collectLeafTokens source node = [] ↔ ∀ leaf ∈ node.leaves, isCommentNode leaf.kind = true
  | .mk kind start stop children => by
    by_cases leaf : children.isEmpty
    · simp [collectLeafTokens, SyntaxNode.leaves, leaf, shouldBindLeafToken, SyntaxNode.kind]
    · simpa [collectLeafTokens, SyntaxNode.leaves, leaf] using collectChildTokens_eq_nil source children

theorem collectChildTokens_eq_nil (source : List UInt8) : ∀ children : List SyntaxNode,
    collectChildTokens source children = [] ↔ ∀ leaf ∈ leavesOf children, isCommentNode leaf.kind = true
  | [] => by simp [collectChildTokens, leavesOf]
  | child :: children => by
    rw [collectChildTokens, List.append_eq_nil_iff, collectLeafTokens_eq_nil source child, collectChildTokens_eq_nil source children,
      leavesOf, List.forall_mem_append]

end

theorem length_intercalate_newline (tokens : List (List Char)) :
    (List.intercalate ['\n'] tokens).length = (tokens.map fun token => token.length + 1).sum - 1 := by
  induction tokens with
  | nil => rfl
  | cons token tokens ih =>
    cases tokens with
    | nil => simp
    | cons next tokens =>
      rw [List.intercalate_cons_cons, List.length_append, List.length_append, ih]
      simp only [List.map_cons, List.sum_cons, List.length_singleton]
      omega

theorem tokens_eq_of_stream_eq {front middle back : List String} (some : ∀ token ∈ middle, token.toList ≠ [])
    (same : "\n".intercalate (front ++ back) = "\n".intercalate (front ++ middle ++ back)) : middle = [] := by
  have lengths := congrArg (fun text : String => text.toList.length) same
  simp only [String.toList_intercalate, show "\n".toList = ['\n'] from rfl, length_intercalate_newline, List.map_append,
    List.map_map, List.sum_append] at lengths
  cases middle with
  | nil => rfl
  | cons token middle =>
    have long : 0 < token.toList.length := List.length_pos_iff.2 (some token List.mem_cons_self)
    simp only [List.map_cons, List.sum_cons, Function.comp_apply] at lengths
    omega

mutual

theorem collectLeafTokens_nonempty (source : List UInt8) : ∀ node : SyntaxNode,
    ∀ token ∈ collectLeafTokens source node, token.toList ≠ []
  | .mk kind start stop children => by
    by_cases leaf : children.isEmpty
    · by_cases bound : shouldBindLeafToken kind <;> simp [collectLeafTokens, leaf, bound, leafToken]
    · simpa [collectLeafTokens, leaf] using collectChildTokens_nonempty source children

theorem collectChildTokens_nonempty (source : List UInt8) : ∀ children : List SyntaxNode,
    ∀ token ∈ collectChildTokens source children, token.toList ≠ []
  | [] => by simp [collectChildTokens]
  | child :: children => by
    rw [collectChildTokens, List.forall_mem_append]
    exact ⟨collectLeafTokens_nonempty source child, collectChildTokens_nonempty source children⟩

end

mutual

theorem skippedByShape_eq_of_comments : ∀ tree : SyntaxNode, (∀ leaf ∈ skippedByShape tree, isCommentNode leaf.kind = true) →
    skippedByShape tree = skippedByTokens tree
  | .mk kind start stop children => by
    intro comments
    by_cases isComment : isCommentNode kind
    · simp only [skippedByShape, isComment, if_true] at comments ⊢
      exact (List.filter_eq_self.2 comments).symm
    · simp only [skippedByShape, isComment, Bool.false_eq_true, if_false] at comments ⊢
      rw [skippedIn_eq_of_comments children comments, skippedByTokens, SyntaxNode.leaves]
      cases children with
      | nil => simp [leavesOf, isComment, SyntaxNode.kind]
      | cons child children => simp

theorem skippedIn_eq_of_comments : ∀ children : List SyntaxNode, (∀ leaf ∈ skippedIn children, isCommentNode leaf.kind = true) →
    skippedIn children = (leavesOf children).filter fun leaf => isCommentNode leaf.kind
  | [] => fun _ => rfl
  | child :: children => by
    intro comments
    rw [skippedIn, List.forall_mem_append] at comments
    rw [skippedIn, leavesOf, List.filter_append, skippedByShape_eq_of_comments child comments.1,
      skippedIn_eq_of_comments children comments.2]
    rfl

end

theorem skippedByShape_eq_iff (tree : SyntaxNode) :
    skippedByShape tree = skippedByTokens tree ↔ ∀ leaf ∈ skippedByShape tree, isCommentNode leaf.kind = true := by
  constructor
  · intro same leaf member
    rw [same] at member
    simpa using (List.mem_filter.1 member).2
  · exact skippedByShape_eq_of_comments tree

/-- A comment goes without a trace exactly when all its leaves are comments, and the same decides whether shape and tokens
skip the same leaves of a tree. -/
theorem leavesNoTrace_iff (source : List UInt8) {comment tree tree' : SyntaxNode} (isComment : isCommentNode comment.kind = true)
    (removed : Removed comment tree tree') :
    (LeavesNoTrace source tree tree' ↔ ∀ leaf ∈ comment.leaves, isCommentNode leaf.kind = true) ∧
      ∀ other : SyntaxNode, skippedByShape other = skippedByTokens other ↔
        ∀ leaf ∈ skippedByShape other, isCommentNode leaf.kind = true := by
  obtain ⟨front, back, whole, rest⟩ := removed.tokens source
  refine ⟨⟨fun noTrace => ?_, fun comments => ?_⟩, skippedByShape_eq_iff⟩
  · rw [← collectLeafTokens_eq_nil source]
    have stream := noTrace.2.1
    rw [canonicalTokenStream, canonicalTokenStream, whole, rest] at stream
    exact tokens_eq_of_stream_eq (collectLeafTokens_nonempty source comment) stream
  · have shape : canonicalShapeSexp tree' = canonicalShapeSexp tree := by
      rw [canonicalShapeSexp, canonicalShapeSexp, removed.shape isComment]
    have stream : canonicalTokenStream source tree' = canonicalTokenStream source tree := by
      rw [canonicalTokenStream, canonicalTokenStream, whole, rest, (collectLeafTokens_eq_nil source comment).2 comments,
        List.append_nil]
    refine ⟨shape, stream, fun path language before after => ?_⟩
    rw [parsedAstFile, parsedAstFile, shape, stream]

/-- The line `// note`, whose slashes are a leaf of their own in the Rust grammar. -/
def lineComment : SyntaxNode := .mk "line_comment" 0 7 [.mk "//" 0 2 []]

def emptyStatement : SyntaxNode := .mk "empty_statement" 8 9 [.mk ";" 8 9 []]

def rustFile (items : List SyntaxNode) : SyntaxNode := .mk "source_file" 0 10 (items ++ [emptyStatement])

theorem lineComment_removed : Removed lineComment (rustFile [lineComment]) (rustFile []) :=
  @Removed.here lineComment "source_file" 0 10 [] [emptyStatement] (by simp)

theorem leavesNoTrace_iff_lineComment :
    (LeavesNoTrace (Utf8.bytes "// note\n;\n") (rustFile [lineComment]) (rustFile []) ↔
      ∀ leaf ∈ lineComment.leaves, isCommentNode leaf.kind = true) ∧
      ∀ other : SyntaxNode, skippedByShape other = skippedByTokens other ↔
        ∀ leaf ∈ skippedByShape other, isCommentNode leaf.kind = true :=
  leavesNoTrace_iff _ (by decide +kernel) lineComment_removed

theorem lineComment_leaves_trace :
    isCommentNode lineComment.kind = true ∧ Removed lineComment (rustFile [lineComment]) (rustFile []) ∧
      ¬ LeavesNoTrace (Utf8.bytes "// note\n;\n") (rustFile [lineComment]) (rustFile []) ∧
      skippedByShape (rustFile [lineComment]) ≠ skippedByTokens (rustFile [lineComment]) := by
  refine ⟨by decide +kernel, lineComment_removed, fun noTrace => absurd noTrace.2.1 (by decide +kernel), fun same => ?_⟩
  have lengths := congrArg List.length same
  exact absurd lengths (by decide +kernel)

end Legitimacy.AstHash
