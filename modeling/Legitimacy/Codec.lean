import Legitimacy.Json
import Std.Data.ExtTreeMap

namespace Json

mutual

/-- The trees that a text can hold: floats are finite and integers fit 64 bits. -/
def Writable : Json → Prop
  | .null => True
  | .bool _ => True
  | .int value => -2 ^ 63 ≤ value ∧ value < 2 ^ 64
  | .float value => value.isFinite = true
  | .str _ => True
  | .arr values => WritableValues values
  | .obj fields => WritableFields fields

def WritableValues : List Json → Prop
  | [] => True
  | value :: rest => Writable value ∧ WritableValues rest

def WritableFields : List (String × Json) → Prop
  | [] => True
  | (_, value) :: rest => Writable value ∧ WritableFields rest

end

theorem writable_arr {values : List Json} : Writable (.arr values) ↔ ∀ value ∈ values, Writable value := by
  rw [Writable]
  induction values with
  | nil => simp [WritableValues]
  | cons value rest ih => rw [WritableValues, ih, List.forall_mem_cons]

theorem writable_obj {fields : List (String × Json)} : Writable (.obj fields) ↔ ∀ field ∈ fields, Writable field.2 := by
  rw [Writable]
  induction fields with
  | nil => simp [WritableFields]
  | cons field rest ih => rw [WritableFields, ih, List.forall_mem_cons]

theorem nesting_arr {values : List Json} {bound : Nat} (within : ∀ value ∈ values, value.nesting ≤ bound) :
    (Json.arr values).nesting ≤ bound + 1 := by
  rw [nesting]
  exact Nat.succ_le_succ (nestingValues_le.2 within)

theorem nesting_obj {fields : List (String × Json)} {bound : Nat} (within : ∀ field ∈ fields, field.2.nesting ≤ bound) :
    (Json.obj fields).nesting ≤ bound + 1 := by
  rw [nesting]
  exact Nat.succ_le_succ (nestingFields_le.2 within)

end Json

namespace Serde

/-- How the values of a type are written as JSON trees and read back. Reading undoes writing for the values that fit: those whose
numbers a text can hold. -/
structure Codec (α : Type) where
  encode : α → Json
  decode : Json → Option α
  Fits : α → Prop
  depth : Nat
  decode_encode : ∀ value, Fits value → decode (encode value) = some value
  writable : ∀ value, Fits value → (encode value).Writable
  shallow : ∀ value, (encode value).nesting ≤ depth

namespace Codec

def string : Codec String where
  encode := .str
  decode := decodeString
  Fits _ := True
  depth := 0
  decode_encode _ _ := rfl
  writable _ _ := trivial
  shallow _ := Nat.le_refl 0

def bool : Codec Bool where
  encode := .bool
  decode := decodeBool
  Fits _ := True
  depth := 0
  decode_encode _ _ := rfl
  writable _ _ := trivial
  shallow _ := Nat.le_refl 0

def decodeNatural : Json → Option Nat
  | .int (.ofNat value) => if value < 2 ^ 64 then some value else none
  | _ => none

def natural : Codec Nat where
  encode value := .int (.ofNat value)
  decode := decodeNatural
  Fits value := value < 2 ^ 64
  depth := 0
  decode_encode _ fits := if_pos fits
  writable value fits := by
    show (-2 ^ 63 : Int) ≤ Int.ofNat value ∧ Int.ofNat value < 2 ^ 64
    rw [Int.ofNat_eq_natCast]
    omega
  shallow _ := Nat.le_refl 0

def decodeReal : Json → Option Float
  | .float value => some value
  | .int value => some (Float.ofInt value)
  | _ => none

/-- The floats. A text has no word for an infinity or for what is no number: `null` stands in its place. -/
def real : Codec Float where
  encode value := if value.isFinite then .float value else .null
  decode := decodeReal
  Fits value := value.isFinite = true
  depth := 0
  decode_encode _ fits := by rw [if_pos fits, decodeReal]
  writable _ fits := by
    rw [if_pos fits]
    exact fits
  shallow _ := by split <;> exact Nat.le_refl 0

section

variable {α β : Type}

def option (codec : Codec α) (visible : ∀ value, codec.encode value ≠ .null) : Codec (Option α) where
  encode := Serde.option codec.encode
  decode := decodeOption codec.decode
  Fits value := ∀ inner ∈ value, codec.Fits inner
  depth := codec.depth
  decode_encode value fits := by
    cases value with
    | none => rfl
    | some inner =>
      rw [Serde.option, decodeOption, codec.decode_encode inner (fits inner rfl)]
      · rfl
      · exact visible inner
  writable value fits := by
    cases value with
    | none => trivial
    | some inner => exact codec.writable inner (fits inner rfl)
  shallow value := by
    cases value with
    | none => exact Nat.zero_le _
    | some inner => exact codec.shallow inner

def vec (codec : Codec α) : Codec (List α) where
  encode values := .arr (values.map codec.encode)
  decode := decodeVec codec.decode
  Fits values := ∀ value ∈ values, codec.Fits value
  depth := codec.depth + 1
  decode_encode _ fits := mapM_map fun value member => codec.decode_encode value (fits value member)
  writable values fits := by
    rw [Json.writable_arr]
    rintro _ member
    obtain ⟨value, listed, rfl⟩ := List.mem_map.1 member
    exact codec.writable value (fits value listed)
  shallow values := by
    refine Json.nesting_arr fun _ member => ?_
    obtain ⟨value, -, rfl⟩ := List.mem_map.1 member
    exact codec.shallow value

def words (all : List α) (name : α → String) (found : ∀ value, (all.find? fun other => name other == name value) = some value) :
    Codec α where
  encode value := .str (name value)
  decode := decodeVariant fun label => all.find? fun other => name other == label
  Fits _ := True
  depth := 0
  decode_encode value _ := found value
  writable _ _ := trivial
  shallow _ := Nat.le_refl 0

/-- Another view of a type: reading may refuse what writing never gives. -/
def through (codec : Codec β) (view : α → β) (make : β → Option α) (inverse : ∀ value, make (view value) = some value) : Codec α where
  encode value := codec.encode (view value)
  decode json := (codec.decode json).bind make
  Fits value := codec.Fits (view value)
  depth := codec.depth
  decode_encode value fits := by rw [codec.decode_encode _ fits, Option.bind_some, inverse]
  writable value fits := codec.writable _ fits
  shallow value := codec.shallow _

end

end Codec

/-- What stands as a key in an object. -/
structure Key (κ : Type) where
  text : κ → String
  parse : String → Option κ
  parse_text : ∀ key, parse (text key) = some key

def Key.string : Key String := ⟨id, some, fun _ => rfl⟩

section

variable {κ α : Type} [Ord κ] [Std.TransOrd κ] [Std.LawfulEqOrd κ]

theorem ofList_toList (entries : Std.ExtTreeMap κ α compare) : Std.ExtTreeMap.ofList entries.toList compare = entries := by
  classical
  refine Std.ExtTreeMap.ext_getElem? fun key => ?_
  cases found : entries[key]? with
  | none =>
    refine Std.ExtTreeMap.getElem?_ofList_of_contains_eq_false ?_
    rw [Std.ExtTreeMap.map_fst_toList_eq_keys]
    refine Bool.eq_false_iff.2 fun contained => ?_
    have member := Std.ExtTreeMap.mem_keys.1 (List.contains_iff_mem.1 contained)
    rw [Std.ExtTreeMap.mem_iff_isSome_getElem?, found] at member
    cases member
  | some value =>
    exact Std.ExtTreeMap.getElem?_ofList_of_mem Std.ReflCmp.compare_self Std.ExtTreeMap.distinct_keys_toList
      (Std.ExtTreeMap.mem_toList_iff_getElem?_eq_some.2 found)

def decodeEntry (key : Key κ) (codec : Codec α) (field : String × Json) : Option (κ × α) := do
  let name ← key.parse field.1
  let value ← codec.decode field.2
  some (name, value)

def decodeMap (key : Key κ) (codec : Codec α) : Json → Option (Std.ExtTreeMap κ α compare)
  | .obj fields => (fields.mapM (decodeEntry key codec)).map fun entries => Std.ExtTreeMap.ofList entries compare
  | _ => none

/-- A map as an object in the order of its keys; of a key that stands twice the later value counts. -/
def Codec.map (key : Key κ) (codec : Codec α) : Codec (Std.ExtTreeMap κ α compare) where
  encode entries := .obj (entries.toList.map fun entry => (key.text entry.1, codec.encode entry.2))
  decode := decodeMap key codec
  Fits entries := ∀ name value, entries[name]? = some value → codec.Fits value
  depth := codec.depth + 1
  decode_encode entries fits := by
    have each : ∀ entry ∈ entries.toList, decodeEntry key codec (key.text entry.1, codec.encode entry.2) = some entry := by
      rintro ⟨name, value⟩ listed
      have fitting := fits name value (Std.ExtTreeMap.mem_toList_iff_getElem?_eq_some.1 listed)
      simp [decodeEntry, key.parse_text, codec.decode_encode value fitting]
    rw [decodeMap, mapM_map each, Option.map_some, ofList_toList]
  writable entries fits := by
    rw [Json.writable_obj]
    rintro _ member
    obtain ⟨⟨name, value⟩, listed, rfl⟩ := List.mem_map.1 member
    exact codec.writable value (fits name value (Std.ExtTreeMap.mem_toList_iff_getElem?_eq_some.1 listed))
  shallow entries := by
    refine Json.nesting_obj fun _ member => ?_
    obtain ⟨⟨name, value⟩, -, rfl⟩ := List.mem_map.1 member
    exact codec.shallow value

end

/-- The fields of a struct by their names. Reading gets the value that stands at each name, and whether they stood in an array. -/
structure Fields (α : Type) where
  names : List String
  distinct : names.Nodup
  encode : α → List (String × Json)
  decode : Bool → (String → Option Json) → Option α
  Fits : α → Prop
  depth : Nat
  listed : ∀ value, ((encode value).map Prod.fst).Sublist names
  decode_congr : ∀ inArray found other, (∀ name ∈ names, found name = other name) → decode inArray found = decode inArray other
  decode_encode : ∀ value, Fits value → decode false (fun name => (encode value).lookup name) = some value
  writable : ∀ value, Fits value → ∀ field ∈ encode value, field.2.Writable
  shallow : ∀ value, ∀ field ∈ encode value, field.2.nesting ≤ depth

namespace Fields

variable {α β : Type}

def nil : Fields Unit where
  names := []
  distinct := List.nodup_nil
  encode _ := []
  decode _ _ := some ()
  Fits _ := True
  depth := 0
  listed _ := List.Sublist.refl []
  decode_congr _ _ _ _ := rfl
  decode_encode _ _ := rfl
  writable _ _ _ member := by cases member
  shallow _ _ member := by cases member

def value (codec : Codec α) (absent : Option α) : Option Json → Option α
  | some json => codec.decode json
  | none => absent

/-- One more field in front. A value that is not written is what reading takes for an absent one. -/
def cons (name : String) (codec : Codec α) (absent : Bool → Option α) (written : α → Bool)
    (restored : ∀ value, written value = false → absent false = some value) (rest : Fields β) (fresh : name ∉ rest.names) :
    Fields (α × β) where
  names := name :: rest.names
  distinct := List.nodup_cons.2 ⟨fresh, rest.distinct⟩
  encode pair := (if written pair.1 then [(name, codec.encode pair.1)] else []) ++ rest.encode pair.2
  decode inArray found := do
    let first ← value codec (absent inArray) (found name)
    let others ← rest.decode inArray found
    some (first, others)
  Fits pair := codec.Fits pair.1 ∧ rest.Fits pair.2
  depth := max codec.depth rest.depth
  listed pair := by
    have later := rest.listed pair.2
    cases written pair.1 with
    | true => exact List.Sublist.cons_cons name later
    | false => exact List.Sublist.cons name later
  decode_congr inArray found other same := by
    have here := same name List.mem_cons_self
    have later := rest.decode_congr inArray found other fun key member => same key (List.mem_cons_of_mem name member)
    rw [here, later]
  decode_encode pair fits := by
    obtain ⟨first, others⟩ := pair
    have unlisted : (rest.encode others).lookup name = none := by
      rw [List.lookup_eq_none_iff]
      intro field member
      refine bne_iff_ne.2 fun same => fresh ?_
      exact same ▸ (rest.listed others).subset (List.mem_map_of_mem member)
    cases shown : written first with
    | true =>
      have elsewhere : ∀ key ∈ rest.names, ((name, codec.encode first) :: rest.encode others).lookup key = (rest.encode others).lookup key := by
        intro key member
        have different : (key == name) = false := beq_false_of_ne fun same => fresh (same ▸ member)
        rw [List.lookup_cons, different]
      have later := rest.decode_congr false _ _ elsewhere
      simp only [if_true, List.singleton_append, List.lookup_cons_self, value, later, rest.decode_encode others fits.2,
        codec.decode_encode first fits.1, Option.bind_eq_bind, Option.bind_some]
    | false =>
      simp only [Bool.false_eq_true, if_false, List.nil_append, unlisted, value, restored first shown,
        rest.decode_encode others fits.2, Option.bind_eq_bind, Option.bind_some]
  writable pair fits field member := by
    rcases List.mem_append.1 member with first | later
    · split at first
      · obtain rfl := List.mem_singleton.1 first
        exact codec.writable pair.1 fits.1
      · cases first
    · exact rest.writable pair.2 fits.2 field later
  shallow pair field member := by
    rcases List.mem_append.1 member with first | later
    · split at first
      · obtain rfl := List.mem_singleton.1 first
        exact (codec.shallow pair.1).trans (Nat.le_max_left ..)
      · cases first
    · exact (rest.shallow pair.2 field later).trans (Nat.le_max_right ..)

def required (name : String) (codec : Codec α) (rest : Fields β) (fresh : name ∉ rest.names := by decide) : Fields (α × β) :=
  cons name codec (fun _ => none) (fun _ => true) (fun _ hidden => nomatch hidden) rest fresh

def defaulted (name : String) (codec : Codec α) (initial : α) (rest : Fields β) (fresh : name ∉ rest.names := by decide) : Fields (α × β) :=
  cons name codec (fun _ => some initial) (fun _ => true) (fun _ hidden => nomatch hidden) rest fresh

def optional (name : String) (codec : Codec (Option α)) (rest : Fields β) (fresh : name ∉ rest.names := by decide) :
    Fields (Option α × β) :=
  cons name codec (fun inArray => if inArray then none else some none) (fun _ => true) (fun _ hidden => nomatch hidden) rest fresh

def skipped (name : String) (codec : Codec (Option α)) (rest : Fields β) (fresh : name ∉ rest.names := by decide) :
    Fields (Option α × β) :=
  cons name codec (fun inArray => if inArray then none else some none) Option.isSome
    (fun _ hidden => by rw [Option.isSome_eq_false_iff, Option.isNone_iff_eq_none] at hidden; rw [hidden]; rfl) rest fresh

end Fields

section

variable {α β : Type}

/-- A struct stands as an object, in which no field may stand twice, or as an array of its fields in their order. -/
def decodeRecord (fields : Fields β) : Json → Option β
  | .obj entries =>
    if ∀ name ∈ fields.names, (entries.map Prod.fst).count name ≤ 1 then fields.decode false (fun name => entries.lookup name)
    else none
  | .arr values => if values.length ≤ fields.names.length then fields.decode true (fun name => (fields.names.zip values).lookup name)
    else none
  | _ => none

def Codec.record (fields : Fields β) (view : α → β) (make : β → α) (inverse : ∀ value, make (view value) = value) : Codec α where
  encode value := .obj (fields.encode (view value))
  decode json := (decodeRecord fields json).map make
  Fits value := fields.Fits (view value)
  depth := fields.depth + 1
  decode_encode value fits := by
    have single : ∀ name ∈ fields.names, ((fields.encode (view value)).map Prod.fst).count name ≤ 1 := fun name _ =>
      List.nodup_iff_count_le_one.1 ((fields.listed (view value)).nodup fields.distinct) name
    rw [decodeRecord, if_pos single, fields.decode_encode _ fits, Option.map_some, inverse]
  writable value fits := Json.writable_obj.2 (fields.writable _ fits)
  shallow value := Json.nesting_obj (fields.shallow _)

end

/-- The variants of an enum: a value has a label and, unless it is a unit variant, a payload. -/
structure Variants (α : Type) where
  labels : List String
  encode : α → String × Option Json
  decode : String → Option Json → Option α
  Fits : α → Prop
  depth : Nat
  labelled : ∀ value, (encode value).1 ∈ labels
  decode_encode : ∀ value, Fits value → decode (encode value).1 (encode value).2 = some value
  writable : ∀ value, Fits value → ∀ json ∈ (encode value).2, json.Writable
  shallow : ∀ value, ∀ json ∈ (encode value).2, json.nesting ≤ depth

namespace Variants

variable {α β : Type}

def decodeUnit (label name : String) : Option Json → Option Unit
  | none | some .null => if name = label then some () else none
  | some _ => none

def unit (label : String) : Variants Unit where
  labels := [label]
  encode _ := (label, none)
  decode := decodeUnit label
  Fits _ := True
  depth := 0
  labelled _ := List.mem_singleton_self label
  decode_encode _ _ := if_pos rfl
  writable _ _ _ member := by cases member
  shallow _ _ member := by cases member

def payload (label : String) (codec : Codec α) : Variants α where
  labels := [label]
  encode value := (label, some (codec.encode value))
  decode name json := if name = label then json.bind codec.decode else none
  Fits := codec.Fits
  depth := codec.depth
  labelled _ := List.mem_singleton_self label
  decode_encode value fits := by rw [if_pos rfl, Option.bind_some, codec.decode_encode value fits]
  writable value fits json member := by
    obtain rfl := Option.some.inj member
    exact codec.writable value fits
  shallow value json member := by
    obtain rfl := Option.some.inj member
    exact codec.shallow value

def struct (label : String) (fields : Fields α) : Variants α := payload label (Codec.record fields id id fun _ => rfl)

def or (left : Variants α) (right : Variants β) (apart : ∀ label ∈ right.labels, label ∉ left.labels := by decide) : Variants (α ⊕ β) where
  labels := left.labels ++ right.labels
  encode
    | .inl value => left.encode value
    | .inr value => right.encode value
  decode label json := if label ∈ left.labels then (left.decode label json).map .inl else (right.decode label json).map .inr
  Fits
    | .inl value => left.Fits value
    | .inr value => right.Fits value
  depth := max left.depth right.depth
  labelled value := by
    cases value with
    | inl value => exact List.mem_append_left _ (left.labelled value)
    | inr value => exact List.mem_append_right _ (right.labelled value)
  decode_encode value fits := by
    cases value with
    | inl value =>
      dsimp only
      rw [if_pos (left.labelled value), left.decode_encode value fits, Option.map_some]
    | inr value =>
      dsimp only
      rw [if_neg (apart _ (right.labelled value)), right.decode_encode value fits, Option.map_some]
  writable value fits json member := by
    cases value with
    | inl value => exact left.writable value fits json member
    | inr value => exact right.writable value fits json member
  shallow value json member := by
    cases value with
    | inl value => exact (left.shallow value json member).trans (Nat.le_max_left ..)
    | inr value => exact (right.shallow value json member).trans (Nat.le_max_right ..)

/-- Every variant has fields, none of them of that name. -/
def Without (tag : String) (variants : Variants α) : Prop :=
  ∀ value, ∃ fields, (variants.encode value).2 = some (.obj fields) ∧ tag ∉ fields.map Prod.fst

theorem without_struct {tag label : String} {fields : Fields β} (other : tag ∉ fields.names := by decide) :
    (struct label fields).Without tag :=
  fun value => ⟨_, rfl, fun member => other ((fields.listed value).subset member)⟩

theorem Without.or {tag : String} {left : Variants α} {right : Variants β} {apart : ∀ label ∈ right.labels, label ∉ left.labels}
    (inLeft : left.Without tag) (inRight : right.Without tag) : (left.or right apart).Without tag
  | .inl value => inLeft value
  | .inr value => inRight value

end Variants

section

variable {α β : Type}

def encodeVariant : String × Option Json → Json
  | (label, none) => .str label
  | (label, some json) => .obj [(label, json)]

def decodeEnum (variants : Variants β) : Json → Option β
  | .str label => variants.decode label none
  | .obj [(label, json)] => variants.decode label (some json)
  | _ => none

/-- An enum whose label is the only key over its payload. -/
def Codec.enum (variants : Variants β) (view : α → β) (make : β → α) (inverse : ∀ value, make (view value) = value) : Codec α where
  encode value := encodeVariant (variants.encode (view value))
  decode json := (decodeEnum variants json).map make
  Fits value := variants.Fits (view value)
  depth := variants.depth + 1
  decode_encode value fits := by
    have read := variants.decode_encode _ fits
    cases form : variants.encode (view value) with
    | mk label json =>
      rw [form] at read
      cases json <;> simp only [encodeVariant, decodeEnum, read, Option.map_some, inverse]
  writable value fits := by
    have writable := variants.writable _ fits
    cases form : variants.encode (view value) with
    | mk label json =>
      rw [form] at writable
      cases json with
      | none => trivial
      | some json => exact ⟨writable json rfl, trivial⟩
  shallow value := by
    have shallow := variants.shallow (view value)
    cases form : variants.encode (view value) with
    | mk label json =>
      rw [form] at shallow
      cases json with
      | none => exact Nat.zero_le _
      | some json => exact Json.nesting_obj fun field member => List.mem_singleton.1 member ▸ shallow json rfl

def encodeTagged (tag : String) : String × Option Json → Json
  | (label, some (.obj fields)) => .obj ((tag, .str label) :: fields)
  | (label, _) => .obj [(tag, .str label)]

theorem partition_cons {tag : String} {value : Json} {fields : List (String × Json)} (other : tag ∉ fields.map Prod.fst) :
    ((tag, value) :: fields).partition (fun field => field.1 == tag) = ([(tag, value)], fields) := by
  have none : ∀ field ∈ fields, (field.1 == tag) = false := fun field member =>
    beq_false_of_ne fun same => other (same ▸ List.mem_map_of_mem member)
  rw [List.partition_eq_filter_filter, List.filter_cons, List.filter_cons]
  simp only [beq_self_eq_true, if_true, Function.comp_apply, Bool.not_true, Bool.false_eq_true, if_false]
  rw [List.filter_eq_nil_iff.2 (by simpa using none), List.filter_eq_self.2 (by simpa using none)]

theorem tagged_cons {tag label : String} {fields : List (String × Json)} (other : tag ∉ fields.map Prod.fst) :
    tagged tag (.obj ((tag, .str label) :: fields)) = some (label, .obj fields) := by
  rw [tagged, partition_cons other]

theorem tagged_zip {tag label : String} {names : List String} {values : List Json} (length : names.length = values.length)
    (other : tag ∉ names) : tagged tag (.obj ((tag, .str label) :: names.zip values)) = some (label, .obj (names.zip values)) := by
  rw [tagged_cons]
  rwa [List.map_fst_zip (Nat.le_of_eq length)]

def decodeTagged (tag : String) (variants : Variants β) (json : Json) : Option β := do
  let (label, rest) ← tagged tag json
  variants.decode label (some rest)

/-- An enum whose label stands among the fields of its payload. -/
def Codec.tagged (tag : String) (variants : Variants β) (without : variants.Without tag) (view : α → β) (make : β → α)
    (inverse : ∀ value, make (view value) = value) : Codec α where
  encode value := encodeTagged tag (variants.encode (view value))
  decode json := (decodeTagged tag variants json).map make
  Fits value := variants.Fits (view value)
  depth := max 1 variants.depth
  decode_encode value fits := by
    have read := variants.decode_encode _ fits
    obtain ⟨fields, object, other⟩ := without (view value)
    cases form : variants.encode (view value) with
    | mk label json =>
      rw [form] at read object
      obtain rfl : json = some (.obj fields) := object
      simp only [encodeTagged, decodeTagged, tagged_cons other, Option.bind_eq_bind, Option.bind_some, read, Option.map_some, inverse]
  writable value fits := by
    have writable := variants.writable _ fits
    obtain ⟨fields, object, -⟩ := without (view value)
    cases form : variants.encode (view value) with
    | mk label json =>
      rw [form] at writable object
      obtain rfl : json = some (.obj fields) := object
      exact ⟨trivial, writable _ rfl⟩
  shallow value := by
    have shallow := variants.shallow (view value)
    obtain ⟨fields, object, -⟩ := without (view value)
    cases form : variants.encode (view value) with
    | mk label json =>
      rw [form] at shallow object
      obtain rfl : json = some (.obj fields) := object
      have inner := shallow _ rfl
      rw [Json.nesting] at inner
      rw [encodeTagged, Json.nesting, Json.nestingFields, Json.nesting]
      omega

end

end Serde
