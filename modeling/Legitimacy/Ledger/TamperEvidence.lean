import Legitimacy.JsonScalar
import Legitimacy.Ledger.ChainInvariant

namespace Legitimacy.Ledger

open Transaction HashChain Json

def Entry.noInfinity : Entry → Prop
  | ⟨.certificates, content⟩ => content.outcome.isInf = false
  | ⟨.declaredSacrifices, content⟩ => content.impactBound.isInf = false
  | _ => True

def Entry.finite : Entry → Prop
  | ⟨.certificates, content⟩ => content.outcome.isFinite = true
  | ⟨.declaredSacrifices, content⟩ => content.impactBound.isFinite = true
  | _ => True

/-- Its numbers read as they were recorded, and their texts say which they are. -/
def Entry.plain (entry : Entry) : Prop := entry.positiveZeros ∧ entry.noInfinity

theorem isFinite_of {value : Float} (number : value.isNaN = false) (bounded : value.isInf = false) : value.isFinite = true := by
  change value.toModel.unpack.isNaN = false at number
  change value.toModel.unpack.isInf = false at bounded
  show value.toModel.unpack.isFinite = true
  cases form : value.toModel.unpack with
  | notANumber =>
    rw [form] at number
    cases number
  | infinity sign =>
    rw [form] at bounded
    cases bounded
  | zero sign => rfl
  | finite sign mantissa exponent positive => rfl

section

@[simp] theorem isScalar_jsonReal (value : Float) : IsScalar (jsonReal value) := by
  unfold jsonReal
  split
  · assumption
  · trivial

theorem jsonReal_injective {first second : Float} (finite : first.isFinite = true) (same : jsonReal first = jsonReal second) :
    first = second := by
  unfold jsonReal at same
  rw [if_pos finite] at same
  split at same
  · exact Json.float.inj same
  · cases same

theorem contentJson_scalars (table : Table) (content : Content table) :
    ∃ fields, (schemaOf table).contentJson content = .obj fields ∧ fields ≠ [] ∧ ∀ field ∈ fields, IsScalar field.2 := by
  cases table with
  | compiledRules => exact ⟨_, rfl, by simp, by simp⟩
  | certificates => exact ⟨_, rfl, by simp, by simp⟩
  | declaredSacrifices => exact ⟨_, rfl, by simp, by simp⟩
  | paradoxResults => exact ⟨_, rfl, by simp, by simp⟩

theorem legacyContentJson_scalars {table : Table} {content content' : Content table} {legacy : Json}
    (spelling : (schemaOf table).legacyContentJson content = some legacy) :
    ∃ fields, legacy = .obj fields ∧ fields ≠ [] ∧ (∀ field ∈ fields, IsScalar field.2) ∧
      (schemaOf table).contentJson content' ≠ .obj fields := by
  cases table with
  | compiledRules =>
    change (if _ then some (legacyCompiledRuleContentJson content) else none) = some legacy at spelling
    split at spelling
    · cases spelling
      refine ⟨_, rfl, by simp, by simp, fun same => ?_⟩
      have keys := congrArg List.length (Json.obj.inj same)
      simp at keys
    · cases spelling
  | certificates =>
    change (if _ then some (legacyCertificateContentJson content) else none) = some legacy at spelling
    split at spelling
    · cases spelling
      refine ⟨_, rfl, by simp, by simp, fun same => ?_⟩
      have keys := congrArg List.length (Json.obj.inj same)
      simp at keys
    · cases spelling
  | declaredSacrifices => cases spelling
  | paradoxResults => cases spelling

theorem Entry.finite_of {table : Table} {content : Content table}
    (full : nullColumn (schemaOf table) ((schemaOf table).params content) = none) (bounded : Entry.noInfinity ⟨table, content⟩) :
    Entry.finite ⟨table, content⟩ := by
  cases table with
  | compiledRules => trivial
  | certificates => exact isFinite_of (certificates_number full) bounded
  | declaredSacrifices => exact isFinite_of (declaredSacrifices_number full) bounded
  | paradoxResults => trivial

theorem contentJson_injective {table : Table} {content content' : Content table} (finite : Entry.finite ⟨table, content⟩)
    (same : (schemaOf table).contentJson content = (schemaOf table).contentJson content') : content = content' := by
  cases table with
  | compiledRules =>
    change compiledRuleContentJson content = compiledRuleContentJson content' at same
    cases content
    cases content'
    simp_all [compiledRuleContentJson]
  | certificates =>
    change certificateContentJson content = certificateContentJson content' at same
    have number : content.outcome = content'.outcome := by
      simp only [certificateContentJson, Json.obj.injEq, List.cons.injEq, Prod.mk.injEq, true_and] at same
      exact jsonReal_injective finite same.2.2.2.2.1
    cases content
    cases content'
    simp_all [certificateContentJson]
  | declaredSacrifices =>
    change declaredSacrificeContentJson content = declaredSacrificeContentJson content' at same
    have number : content.impactBound = content'.impactBound := by
      simp only [declaredSacrificeContentJson, Json.obj.injEq, List.cons.injEq, Prod.mk.injEq, true_and] at same
      exact jsonReal_injective finite same.2.2.1
    cases content
    cases content'
    simp_all [declaredSacrificeContentJson]
  | paradoxResults =>
    change paradoxResultContentJson content = paradoxResultContentJson content' at same
    cases content
    cases content'
    simp_all [paradoxResultContentJson]

/-- The column that the older spelling leaves out has the one value for which this spelling is used. -/
theorem legacyContentJson_injective {table : Table} {content content' : Content table} (finite : Entry.finite ⟨table, content⟩) {legacy : Json}
    (spelling : (schemaOf table).legacyContentJson content = some legacy)
    (spelling' : (schemaOf table).legacyContentJson content' = some legacy) : content = content' := by
  cases table with
  | compiledRules =>
    change (if _ then some (legacyCompiledRuleContentJson content) else none) = some legacy at spelling
    change (if _ then some (legacyCompiledRuleContentJson content') else none) = some legacy at spelling'
    split at spelling <;> split at spelling'
    · cases content
      cases content'
      cases spelling
      simp_all [legacyCompiledRuleContentJson]
    all_goals simp_all
  | certificates =>
    change (if _ then some (legacyCertificateContentJson content) else none) = some legacy at spelling
    change (if _ then some (legacyCertificateContentJson content') else none) = some legacy at spelling'
    split at spelling <;> split at spelling'
    · cases spelling
      have number : content.outcome = content'.outcome := by
        simp only [legacyCertificateContentJson, Option.some.injEq, Json.obj.injEq, List.cons.injEq, Prod.mk.injEq, true_and] at spelling'
        exact jsonReal_injective finite spelling'.2.2.2.1.symm
      cases content
      cases content'
      simp_all [legacyCertificateContentJson]
    all_goals simp_all
  | declaredSacrifices => cases spelling
  | paradoxResults => cases spelling

variable {host : Host}

/-- The texts a row hash of a content may be taken of. -/
def Spells (host : Host) (table : Table) (content : Content table) (text : String) : Prop :=
  text = (schemaOf table).contentText host content ∨ (schemaOf table).legacyContentText host content = some text

/-- A text spells one content of a table, if the numbers of this content are finite. -/
theorem Spells.unique (writes : WritesNumbers host.floatText) {table : Table} {content content' : Content table} {text : String}
    (finite : Entry.finite ⟨table, content⟩) (spells : Spells host table content text) (spells' : Spells host table content' text) :
    content = content' := by
  obtain ⟨fields, shape, some, scalars⟩ := contentJson_scalars table content
  obtain ⟨fields', shape', some', scalars'⟩ := contentJson_scalars table content'
  rcases spells with rfl | legacy
  · rcases spells' with modern | legacy
    · rw [Schema.contentText, Schema.contentText, shape, shape'] at modern
      have same := obj_unique writes some some' scalars scalars' modern
      exact contentJson_injective finite (by rw [shape, shape', same])
    · obtain ⟨spelling, found, written⟩ := Option.map_eq_some_iff.1 legacy
      obtain ⟨others, rfl, nonempty, all, differs⟩ := @legacyContentJson_scalars table content' content spelling found
      rw [Schema.contentText, shape] at written
      have same := obj_unique writes nonempty some all scalars written
      exact absurd (shape.trans (congrArg Json.obj same.symm)) differs
  · obtain ⟨spelling, found, written⟩ := Option.map_eq_some_iff.1 legacy
    obtain ⟨others, rfl, nonempty, all, differs⟩ := @legacyContentJson_scalars table content content' spelling found
    rcases spells' with modern | legacy'
    · rw [modern, Schema.contentText, shape'] at written
      have same := obj_unique writes nonempty some' all scalars' written
      exact absurd (shape'.trans (congrArg Json.obj same.symm)) differs
    · obtain ⟨spelling', found', written'⟩ := Option.map_eq_some_iff.1 legacy'
      obtain ⟨others', rfl, nonempty', all', -⟩ := @legacyContentJson_scalars table content' content spelling' found'
      have same := obj_unique writes nonempty nonempty' all all' (written.trans written'.symm)
      exact legacyContentJson_injective finite found (same ▸ found')

theorem Spells.brace {table : Table} {content : Content table} {text : String} (spells : Spells host table content text) :
    ∃ more, text.toList = '{' :: more := by
  have object : ∀ fields : List (String × Json), ∃ more, (compact host.floatText (.obj fields)).toList = '{' :: more := by
    intro fields
    rw [compact, String.toList_ofList]
    cases fields with
    | nil => exact ⟨_, rfl⟩
    | cons field rest => exact ⟨_, rfl⟩
  rcases spells with rfl | legacy
  · obtain ⟨fields, shape, -, -⟩ := contentJson_scalars table content
    rw [Schema.contentText, shape]
    exact object fields
  · obtain ⟨spelling, found, rfl⟩ := Option.map_eq_some_iff.1 legacy
    obtain ⟨fields, rfl, -, -, -⟩ := @legacyContentJson_scalars table content content spelling found
    exact object fields

end

section

def isIntChar (character : Char) : Bool := character.isDigit || character == '-'

theorem toList_ofNat (number : Nat) : (toString (Int.ofNat number)).toList = Nat.toDigits 10 number := by
  show (Nat.repr number).toList = _
  simp [Nat.repr]

theorem toList_negSucc (number : Nat) : (toString (Int.negSucc number)).toList = '-' :: Nat.toDigits 10 (number + 1) := by
  show (Int.repr (Int.negSucc number)).toList = _
  simp [Int.repr]

theorem isDigit_of_toDigits {number : Nat} {character : Char} (member : character ∈ Nat.toDigits 10 number) : character.isDigit = true :=
  Nat.isDigit_of_mem_toDigits (by decide) (by decide) member

theorem isIntChar_toString (value : Int) : ∀ character ∈ (toString value).toList, isIntChar character = true := by
  intro character member
  cases value with
  | ofNat number =>
    rw [toList_ofNat] at member
    simp [isIntChar, isDigit_of_toDigits member]
  | negSucc number =>
    rw [toList_negSucc] at member
    rcases List.mem_cons.1 member with rfl | inside
    · decide
    · simp [isIntChar, isDigit_of_toDigits inside]

theorem toDigits_injective {first second : Nat} (same : Nat.toDigits 10 first = Nat.toDigits 10 second) : first = second := by
  rw [← Nat.ofDigitChars_ten_toDigits (n := first), ← Nat.ofDigitChars_ten_toDigits (n := second), same]

theorem toString_injective {first second : Int} (same : (toString first).toList = (toString second).toList) : first = second := by
  have unsigned : ∀ {number other : Nat}, Nat.toDigits 10 number ≠ '-' :: Nat.toDigits 10 other := by
    intro number other signed
    have digit : '-'.isDigit = true := @isDigit_of_toDigits number '-' (by rw [signed]; exact List.mem_cons_self)
    exact absurd digit (by decide)
  cases first with
  | ofNat number =>
    cases second with
    | ofNat other =>
      rw [toList_ofNat, toList_ofNat] at same
      rw [toDigits_injective same]
    | negSucc other =>
      rw [toList_ofNat, toList_negSucc] at same
      exact absurd same unsigned
  | negSucc number =>
    cases second with
    | ofNat other =>
      rw [toList_ofNat, toList_negSucc] at same
      exact absurd same.symm unsigned
    | negSucc other =>
      rw [toList_negSucc, toList_negSucc, List.cons.injEq] at same
      have equal := toDigits_injective same.2
      rw [Nat.succ.inj equal]

theorem preimage_unique {prevHash prevHash' text text' : String} {rowid rowid' : Int}
    (length : prevHash.toList.length = prevHash'.toList.length) (brace : ∃ more, text.toList = '{' :: more)
    (brace' : ∃ more, text'.toList = '{' :: more) (same : preimage prevHash rowid text = preimage prevHash' rowid' text') :
    prevHash = prevHash' ∧ rowid = rowid' ∧ text = text' := by
  have lists := congrArg String.toList same
  simp only [preimage, String.toList_append, List.append_assoc] at lists
  obtain ⟨hashes, behind⟩ := List.append_inj lists length
  have stops : ∀ {other : String}, (∃ more, other.toList = '{' :: more) → ∀ first ∈ other.toList.head?, isIntChar first = false := by
    rintro other ⟨more, shape⟩ first member
    rw [shape] at member
    rw [← Option.some.inj member]
    decide
  obtain ⟨numbers, texts⟩ := word_unique (isIntChar_toString rowid) (isIntChar_toString rowid') (stops brace) (stops brace') behind
  exact ⟨String.toList_inj.1 hashes, toString_injective numbers, String.toList_inj.1 texts⟩

/-- None, or the 64 digits of a row hash. -/
def IsPrevHash (prevHash : String) : Prop := prevHash = "" ∨ prevHash.toList.length = 64 ∧ ∀ character ∈ prevHash.toList, character ≠ '{'

def IsRowid (rowid : Int) : Prop := -2 ^ 63 ≤ rowid ∧ rowid < 2 ^ 63

theorem length_toString {rowid : Int} (bounded : IsRowid rowid) : (toString rowid).toList.length ≤ 20 := by
  have digits : ∀ number ≤ 2 ^ 63, (Nat.toDigits 10 number).length ≤ 19 := fun number small =>
    (Nat.length_toDigits_le_iff (by decide) (by decide)).2 (by omega)
  unfold IsRowid at bounded
  cases rowid with
  | ofNat number =>
    rw [toList_ofNat]
    exact (digits number (Int.ofNat_le.1 bounded.2.le)).trans (by decide)
  | negSucc number =>
    rw [toList_negSucc, List.length_cons]
    exact Nat.succ_le_succ (digits (number + 1) (by omega))

/-- Behind a rowid that follows no hash the content opens too early for a hash to stand there. -/
theorem preimage_empty_ne {prevHash text text' : String} {rowid rowid' : Int} (hash : prevHash.toList.length = 64 ∧
    ∀ character ∈ prevHash.toList, character ≠ '{') (bounded : IsRowid rowid) (brace : ∃ more, text.toList = '{' :: more) :
    preimage "" rowid text ≠ preimage prevHash rowid' text' := by
  intro same
  obtain ⟨more, shape⟩ := brace
  have short := length_toString bounded
  have lists := congrArg (fun word : String => word.toList[(toString rowid).toList.length]?) same
  simp only [preimage, String.toList_append, List.append_assoc, shape, String.toList_empty, List.nil_append] at lists
  rw [List.getElem?_append_right (Nat.le_refl _), Nat.sub_self, List.getElem?_append_left (by omega)] at lists
  exact hash.2 _ (List.mem_of_getElem? lists.symm) rfl

variable {host : Host}

/-- A content with finite numbers, and no other, is told by its text. -/
theorem spelled_once_iff (writes : WritesNumbers host.floatText) {table : Table} (content : Content table) :
    (∀ content' text, Spells host table content text → Spells host table content' text → content = content') ↔ Entry.finite ⟨table, content⟩ := by
  constructor
  · intro once
    have other : ∀ value : Float, value.isFinite ≠ true → ∃ value' : Float, value ≠ value' ∧ jsonReal value' = jsonReal value := by
      intro value infinite
      by_cases same : value = .ofModel (.pack (.infinity .positive))
      · exact ⟨.ofModel (.pack (.infinity .negative)), by rw [same]; decide, by rw [same]; rfl⟩
      · refine ⟨_, same, ?_⟩
        rw [jsonReal, jsonReal, if_neg infinite]
        rfl
    cases table with
    | compiledRules => trivial
    | certificates =>
      by_contra infinite
      obtain ⟨value, differs, written⟩ := other content.outcome infinite
      refine differs (congrArg CertificateContent.outcome (once { content with outcome := value } _ (.inl rfl) (.inl ?_)))
      show Json.compact _ (certificateContentJson content) = Json.compact _ (certificateContentJson _)
      simp only [certificateContentJson, written]
    | declaredSacrifices =>
      by_contra infinite
      obtain ⟨value, differs, written⟩ := other content.impactBound infinite
      refine differs (congrArg DeclaredSacrificeChainContent.impactBound (once { content with impactBound := value } _ (.inl rfl) (.inl ?_)))
      show Json.compact _ (declaredSacrificeContentJson content) = Json.compact _ (declaredSacrificeContentJson _)
      simp only [declaredSacrificeContentJson, written]
    | paradoxResults => trivial
  · exact fun finite content' text => Spells.unique writes finite

theorem length_chainHash (prevHash : String) (rowid : Int) (text : String) : (chainHash prevHash rowid text).toList.length = 64 := by
  rw [chainHash, Hex.toList_encode, Hex.length_digits, Sha256.length_hash]

theorem Seals.spelling {table : Table} {prevHash rowHash : String} {entry : Int × Content table}
    (sealed : Seals host (schemaOf table) prevHash entry rowHash) :
    ∃ text, Spells host table entry.2 text ∧ rowHash = chainHash prevHash entry.1 text := by
  unfold Seals sealedBy at sealed
  rw [Bool.or_eq_true] at sealed
  rcases sealed with modern | legacy
  · exact ⟨_, .inl rfl, beq_iff_eq.1 modern⟩
  · cases spelling : (schemaOf table).legacyContentText host entry.2 with
    | none =>
      rw [spelling] at legacy
      cases legacy
    | some text =>
      rw [spelling] at legacy
      exact ⟨text, .inr spelling, beq_iff_eq.1 legacy⟩

theorem length_previous {η : Type} {links : List (Link String η)} {place : Nat} {previous : String} (inside : place < links.length)
    (digests : ∀ link ∈ links, link.hash.toList.length = 64) (tied : previous = lastHash "" (links.take place)) :
    previous.toList.length = if place = 0 then 0 else 64 := by
  rcases lastHash_mem "" (links.take place) with ⟨empty, last⟩ | ⟨some, link, member, last⟩
  · have zero : place = 0 := by
      rw [List.take_eq_nil_iff] at empty
      rcases empty with zero | none
      · exact zero
      · rw [none] at inside
        exact absurd inside (Nat.not_lt_zero place)
    rw [tied, last, if_pos zero]
    rfl
  · have positive : place ≠ 0 := by
      rintro rfl
      exact some rfl
    rw [tied, last, if_neg positive]
    exact digests link (List.mem_of_mem_take member)

end

section

variable (host : Host) (table : Table)

/-- SHA-256 does not collide between the preimages of the written rows and those that verification builds of some rows. -/
def CollisionFree (links : List (RowLink (Content table))) (rows : List Row) : Prop :=
  ∀ link ∈ links, ∀ row ∈ rows, ∀ content prevHash rowHash text, readRow (schemaOf table) row = .ok (content, prevHash, rowHash) →
    Spells host table content text →
    Sha256.hash (Utf8.bytes (preimage link.previous link.entry.1 ((schemaOf table).contentText host link.entry.2))) =
      Sha256.hash (Utf8.bytes (preimage prevHash row.rowid text)) →
    preimage link.previous link.entry.1 ((schemaOf table).contentText host link.entry.2) = preimage prevHash row.rowid text

/-- Rows that read alike in every field, the rowid included. -/
def SameRows (rows rows' : List Row) : Prop :=
  List.Forall₂ (fun row row' => row'.rowid = row.rowid ∧ readRow (schemaOf table) row' = readRow (schemaOf table) row) rows rows'

variable {host table}

theorem Judged.chain {database : Database} {status : TableChainStatus} (judged : Judged host (schemaOf table) database status)
    (valid : status.valid = true) : ∃ links, RowsChain host (schemaOf table) "" (database.rows table).list links ∧
      anchoredHead database table = .ok (some (links.length, lastHash "" links)) := by
  unfold Judged at judged
  rw [schemaOf_table] at judged
  obtain ⟨outcome, scanned, ⟨broken, rfl, rfl⟩ | ⟨checkedRows, previous, expected, rfl, anchored, rfl⟩⟩ := judged
  · rw [(verifyRows_inl_invalid scanned).1] at valid
    cases valid
  · obtain ⟨counted, links, chain, rfl⟩ := verifyRows_eq_inr.1 scanned
    have length : checkedRows = links.length := by rw [counted, Nat.zero_add, chain.1.length_eq]
    refine ⟨links, chain, ?_⟩
    unfold statusOf compareHead at valid
    cases expected with
    | none => cases valid
    | some head =>
      obtain ⟨rowCount, headHash⟩ := head
      simp only at valid
      split at valid
      · cases valid
      · rename_i sameCount
        split at valid
        · cases valid
        · rename_i sameHash
          rw [anchored, ← length, not_not.1 sameCount, not_not.1 sameHash]

/-- Rows that chain up to an honest head are the honest rows. -/
theorem TableWritten.same_rows (writes : WritesNumbers host.floatText) {database : Database} {links links' : List (RowLink (Content table))}
    (written : TableWritten host Entry.plain database table links) {rows : List Row}
    (chain : RowsChain host (schemaOf table) "" rows links') (length : links.length = links'.length)
    (head : lastHash "" links = lastHash "" links') (collisionFree : CollisionFree host table links rows) :
    SameRows table (database.rows table).list rows := by
  have digests : ∀ link ∈ links, link.hash.toList.length = 64 := fun link member => by
    rw [written.chain.seals_mem link member]
    exact length_chainHash ..
  have digests' : ∀ link ∈ links', link.hash.toList.length = 64 := fun link member => by
    obtain ⟨text, -, hashed⟩ := (chain.2.seals_mem link member).spelling
    rw [hashed]
    exact length_chainHash ..
  have equal : links = links' := by
    refine written.chain.eq_of_lastHash chain.2 length (fun place link link' atLink atLink' tied tied' hashes => ?_) head
    obtain ⟨inside, found⟩ := List.getElem?_eq_some_iff.1 atLink
    obtain ⟨inside', found'⟩ := List.getElem?_eq_some_iff.1 atLink'
    have member : link ∈ links := found ▸ List.getElem_mem inside
    have member' : link' ∈ links' := found' ▸ List.getElem_mem inside'
    obtain ⟨row, atRow, read, sameRowid⟩ : ∃ row ∈ rows, readRow (schemaOf table) row = .ok (link'.entry.2, link'.previous, link'.hash) ∧
        link'.entry.1 = row.rowid := by
      have reads := List.forall₂_iff_get.1 chain.1
      have shorter : place < rows.length := by rw [reads.1]; exact inside'
      have read := reads.2 place shorter inside'
      simp only [List.get_eq_getElem, found'] at read
      exact ⟨rows[place], List.getElem_mem shorter, read.1, read.2⟩
    obtain ⟨text, spells, hashed'⟩ := (chain.2.seals_mem link' member').spelling
    have hashed := written.chain.seals_mem link member
    rw [hashed, hashed', sameRowid] at hashes
    have preimages := collisionFree link member row atRow _ _ _ text read spells (Hex.encode_injective hashes)
    have lengths : link.previous.toList.length = link'.previous.toList.length := by
      rw [length_previous inside digests tied, length_previous inside' digests' tied']
    have brace : ∃ more, ((schemaOf table).contentText host link.entry.2).toList = '{' :: more := Spells.brace (.inl rfl)
    obtain ⟨previous, rowid, texts⟩ := preimage_unique lengths brace spells.brace preimages
    refine ⟨previous, Prod.ext (rowid.trans sameRowid.symm) ?_⟩
    exact Spells.unique writes (Entry.finite_of (written.full link member) (written.entries link member).2) (.inl rfl) (texts ▸ spells)
  subst equal
  rw [SameRows, written.rows, List.forall₂_map_left_iff]
  have reads := chain.1.flip
  refine List.forall₂_iff_get.2 ⟨reads.length_eq, fun place inside inside' => ?_⟩
  have read := (List.forall₂_iff_get.1 reads).2 place inside inside'
  have member : links.get ⟨place, inside⟩ ∈ links := List.getElem_mem inside
  have back := Entry.read_params (written.entries _ member).1 (written.full _ member)
  refine ⟨read.2.symm, read.1.trans ?_⟩
  unfold readRow
  rw [show (sealedRow host (schemaOf table) (links.get ⟨place, inside⟩).entry.2 (links.get ⟨place, inside⟩).previous
      (links.get ⟨place, inside⟩).entry.1).columns = (schemaOf table).params (links.get ⟨place, inside⟩).entry.2 from rfl, back,
    written.chain.seals_mem _ member]
  rfl

end

def Recording.plain (host : Host) (recording : Recording) : Prop := ∀ entry ∈ recording.entries host, entry.plain

section

/-- A host that writes every number as its bits. -/
def bitsHost : Host := ⟨fun value => Nat.repr value.toModel.toBits.toNat, fun _ => none⟩

def infinity (sign : Float.Model.UnpackedFloat.Sign) : Float := .ofModel (.pack (.infinity sign))

def oneCertificate (outcome : Float) : Certificate := ⟨"r", "1", "h", "c", outcome, ∅, "t"⟩

def oneContent (outcome : Float) : CertificateContent := certificateContent bitsHost (oneCertificate outcome)

def oneLedger (outcome : Float) : Database := emptyLedger.append bitsHost certificates (oneContent outcome) "" 1

variable (sign : Float.Model.UnpackedFloat.Sign)

end

end Legitimacy.Ledger
