import Legitimacy.JsonReader

namespace Json

/-- The characters of a number with a fraction or an exponent. -/
def isNumberChar (character : Char) : Bool := character.isDigit || character == '-' || character == '.' || character == 'e'

/-- What a writer of finite numbers owes its readers: different numbers have different texts, of the characters of numbers only. -/
structure WritesNumbers (floatText : Float → String) : Prop where
  injective : ∀ first second : Float, first.isFinite = true → second.isFinite = true → floatText first = floatText second → first = second
  nonempty : ∀ value : Float, value.isFinite = true → (floatText value).toList ≠ []
  characters : ∀ value : Float, value.isFinite = true → ∀ character ∈ (floatText value).toList, isNumberChar character = true

def IsScalar : Json → Prop
  | .null => True
  | .bool _ => True
  | .float value => value.isFinite = true
  | .str _ => True
  | _ => False

@[simp] theorem isScalar_bool (truth : Bool) : IsScalar (.bool truth) := trivial

@[simp] theorem isScalar_str (text : String) : IsScalar (.str text) := trivial

/-- Behind a value stands the comma of the next one or the end of the object. -/
def Closes (rest : List Char) : Prop := ∃ first more, rest = first :: more ∧ (first = ',' ∨ first = '}')

theorem quoted_unique {text text' : String} {rest rest' : List Char} (same : quoted text ++ rest = quoted text' ++ rest') :
    text = text' ∧ rest = rest' := by
  simp only [quoted, List.cons_append, List.append_assoc, List.nil_append, List.cons.injEq, true_and] at same
  have read := readString_quoted text rest
  have read' := readString_quoted text' rest'
  rw [same, read'] at read
  simp only [Option.some.injEq, Prod.mk.injEq, String.toList_inj] at read
  exact ⟨read.1.symm, read.2.symm⟩

theorem word_unique {inside : Char → Bool} {word word' rest rest' : List Char} (within : ∀ character ∈ word, inside character = true)
    (within' : ∀ character ∈ word', inside character = true) (ends : ∀ first ∈ rest.head?, inside first = false)
    (ends' : ∀ first ∈ rest'.head?, inside first = false) (same : word ++ rest = word' ++ rest') : word = word' ∧ rest = rest' := by
  induction word generalizing word' with
  | nil =>
    cases word' with
    | nil => exact ⟨rfl, same⟩
    | cons first others =>
      have outside := ends first (by rw [List.nil_append] at same; rw [same]; rfl)
      rw [within' first List.mem_cons_self] at outside
      cases outside
  | cons first others ih =>
    cases word' with
    | nil =>
      have outside := ends' first (by rw [List.nil_append] at same; rw [← same]; rfl)
      rw [within first List.mem_cons_self] at outside
      cases outside
    | cons first' others' =>
      rw [List.cons_append, List.cons_append, List.cons.injEq] at same
      obtain ⟨rfl, remaining⟩ := same
      obtain ⟨rfl, rests⟩ := ih (fun character member => within character (List.mem_cons_of_mem first member))
        (fun character member => within' character (List.mem_cons_of_mem first member)) remaining
      exact ⟨rfl, rests⟩

theorem Closes.outside {rest : List Char} (closes : Closes rest) : ∀ first ∈ rest.head?, isNumberChar first = false := by
  obtain ⟨first, more, rfl, rfl | rfl⟩ := closes
  · intro character same
    rw [← Option.some.inj same]
    decide
  · intro character same
    rw [← Option.some.inj same]
    decide

section

variable {floatText : Float → String}

def charClass (character : Char) : Nat :=
  if isNumberChar character then 4
  else if character = 'n' then 0
  else if character = 't' then 1
  else if character = 'f' then 2
  else if character = '"' then 3
  else 5

def scalarClass : Json → Nat
  | .null => 0
  | .bool true => 1
  | .bool false => 2
  | .str _ => 3
  | .float _ => 4
  | _ => 5

theorem scalar_start (writes : WritesNumbers floatText) {value : Json} (scalar : IsScalar value) :
    ∃ first more, compactChars floatText value = first :: more ∧ charClass first = scalarClass value := by
  cases value with
  | null => exact ⟨'n', _, rfl, by decide⟩
  | bool truth =>
    cases truth
    · exact ⟨'f', _, rfl, by decide⟩
    · exact ⟨'t', _, rfl, by decide⟩
  | float number =>
    obtain ⟨first, more, shape⟩ := List.exists_cons_of_ne_nil (writes.nonempty number scalar)
    have numeric := writes.characters number scalar first (by rw [shape]; exact List.mem_cons_self)
    exact ⟨first, more, shape, by rw [charClass, if_pos numeric]; rfl⟩
  | str text => exact ⟨'"', _, rfl, by show charClass '"' = 3; decide⟩
  | int number => cases scalar
  | arr values => cases scalar
  | obj fields => cases scalar

theorem scalar_unique (writes : WritesNumbers floatText) {value value' : Json} (scalar : IsScalar value) (scalar' : IsScalar value')
    {rest rest' : List Char} (closes : Closes rest) (closes' : Closes rest')
    (same : compactChars floatText value ++ rest = compactChars floatText value' ++ rest') : value = value' ∧ rest = rest' := by
  have sameClass : scalarClass value = scalarClass value' := by
    obtain ⟨first, more, shape, kind⟩ := scalar_start writes scalar
    obtain ⟨first', more', shape', kind'⟩ := scalar_start writes scalar'
    rw [shape, shape', List.cons_append, List.cons_append, List.cons.injEq] at same
    rw [← kind, ← kind', same.1]
  cases value with
  | null =>
    cases value' with
    | null => exact ⟨rfl, List.append_cancel_left same⟩
    | bool truth => cases truth <;> simp [scalarClass] at sameClass
    | _ => simp [scalarClass] at sameClass
  | bool truth =>
    cases value' with
    | bool truth' =>
      have equal : truth = truth' := by cases truth <;> cases truth' <;> first | rfl | simp [scalarClass] at sameClass
      subst equal
      exact ⟨rfl, List.append_cancel_left same⟩
    | _ => cases truth <;> simp [scalarClass] at sameClass
  | float number =>
    cases value' with
    | float number' =>
      obtain ⟨word, rests⟩ := word_unique (writes.characters number scalar) (writes.characters number' scalar') closes.outside
        closes'.outside same
      exact ⟨congrArg Json.float (writes.injective number number' scalar scalar' (String.toList_inj.1 word)), rests⟩
    | bool truth => cases truth <;> simp [scalarClass] at sameClass
    | _ => simp [scalarClass] at sameClass
  | str text =>
    cases value' with
    | str text' =>
      obtain ⟨rfl, rests⟩ := quoted_unique same
      exact ⟨rfl, rests⟩
    | bool truth => cases truth <;> simp [scalarClass] at sameClass
    | _ => simp [scalarClass] at sameClass
  | int number => cases scalar
  | arr values => cases scalar
  | obj fields => cases scalar

theorem closes_moreFields (fields : List (String × Json)) (rest : List Char) : Closes (moreFields floatText fields ++ '}' :: rest) := by
  cases fields with
  | nil => exact ⟨'}', rest, rfl, .inr rfl⟩
  | cons field others => exact ⟨',', _, rfl, .inl rfl⟩

theorem moreFields_unique (writes : WritesNumbers floatText) {fields fields' : List (String × Json)}
    (scalars : ∀ field ∈ fields, IsScalar field.2) (scalars' : ∀ field ∈ fields', IsScalar field.2) {rest rest' : List Char}
    (same : moreFields floatText fields ++ '}' :: rest = moreFields floatText fields' ++ '}' :: rest') : fields = fields' ∧ rest = rest' := by
  induction fields generalizing fields' with
  | nil =>
    cases fields' with
    | nil => exact ⟨rfl, List.tail_eq_of_cons_eq same⟩
    | cons field others => cases (List.head_eq_of_cons_eq same)
  | cons field others ih =>
    cases fields' with
    | nil => cases (List.head_eq_of_cons_eq same)
    | cons field' others' =>
      obtain ⟨key, value⟩ := field
      obtain ⟨key', value'⟩ := field'
      simp only [moreFields, List.cons_append, List.append_assoc, List.cons.injEq, true_and] at same
      obtain ⟨rfl, values⟩ := quoted_unique same
      have valueTexts := List.tail_eq_of_cons_eq values
      obtain ⟨rfl, more⟩ := scalar_unique writes (scalars _ List.mem_cons_self) (scalars' _ List.mem_cons_self)
        (closes_moreFields others rest) (closes_moreFields others' rest') valueTexts
      obtain ⟨rfl, rests⟩ := ih (fun field member => scalars field (List.mem_cons_of_mem _ member))
        (fun field member => scalars' field (List.mem_cons_of_mem _ member)) more
      exact ⟨rfl, rests⟩

theorem obj_unique (writes : WritesNumbers floatText) {fields fields' : List (String × Json)} (some : fields ≠ []) (some' : fields' ≠ [])
    (scalars : ∀ field ∈ fields, IsScalar field.2) (scalars' : ∀ field ∈ fields', IsScalar field.2)
    (same : compact floatText (.obj fields) = compact floatText (.obj fields')) : fields = fields' := by
  obtain ⟨field, others, rfl⟩ := List.exists_cons_of_ne_nil some
  obtain ⟨field', others', rfl⟩ := List.exists_cons_of_ne_nil some'
  have texts := congrArg String.toList same
  simp only [compact, String.toList_ofList] at texts
  -- an object's text is that of its fields behind a comma, with the brace in place of the first comma
  have commas : ∀ (field : String × Json) (rest : List (String × Json)),
      ',' :: (compactChars floatText (.obj (field :: rest))).tail = moreFields floatText (field :: rest) ++ '}' :: [] := by
    rintro ⟨key, value⟩ rest
    simp only [compactChars, moreFields, List.tail_cons, List.cons_append, List.append_assoc]
  have both : moreFields floatText (field :: others) ++ '}' :: [] = moreFields floatText (field' :: others') ++ '}' :: [] := by
    rw [← commas, ← commas, texts]
  exact (moreFields_unique writes scalars scalars' both).1

end

end Json
