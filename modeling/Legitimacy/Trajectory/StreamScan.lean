import Legitimacy.Metering
import Legitimacy.Trajectory.JsonScan
import Mathlib.Data.List.Induction

namespace Legitimacy.Trajectory

open ExceptRun Metering

/-- What has been read of a value when the reader fails: all members of the containers it is in, up to the last. -/
inductive Unread
  | malformed
  | arr (values : List Json)
  | arrAt (values : List Json) (last : Unread)
  | obj (fields : List (String × Json))
  | objKey (fields : List (String × Json)) (key : String)
  | objAt (fields : List (String × Json)) (key : String) (last : Unread)

/-- A value, with whether the text ends behind it; or what was read of one. -/
inductive Reading
  | whole (value : Json) (ended : Bool)
  | broken (unread : Unread)

def ObjectKeys.add (seen : ObjectKeys) (key : String) : ObjectKeys := ⟨key :: seen.keys, seen.keyBytes + key.utf8ByteSize⟩

def seenKeys (fields : List (String × Json)) : ObjectKeys := fields.foldl (fun seen field => seen.add field.1) ⟨[], 0⟩

section

variable (limits : JsonScanLimits)

/-- The visitor over what has been read; where this ends, the error of the reader follows. -/
def scanUnread (depth : Nat) (state : ScanState) : Unread → Except JsonScanError ScanState
  | .malformed => do
    let _ ← enterNode limits depth state
    .error .invalid
  | .arr values => do
    let state ← enterNode limits depth state
    let _ ← scanValues limits (depth + 1) state values
    .error .invalid
  | .arrAt values last => do
    let state ← enterNode limits depth state
    let state ← scanValues limits (depth + 1) state values
    scanUnread (depth + 1) state last
  | .obj fields => do
    let state ← enterNode limits depth state
    let _ ← scanFields limits (depth + 1) ⟨[], 0⟩ state fields
    .error .invalid
  | .objKey fields key => do
    let state ← enterNode limits depth state
    let state ← scanFields limits (depth + 1) ⟨[], 0⟩ state fields
    let _ ← visitKey limits key (seenKeys fields) state
    .error .invalid
  | .objAt fields key last => do
    let state ← enterNode limits depth state
    let state ← scanFields limits (depth + 1) ⟨[], 0⟩ state fields
    let (_, state) ← visitKey limits key (seenKeys fields) state
    scanUnread (depth + 1) state last

def scanReading : Reading → Except JsonScanError JsonRootKind
  | .whole value ended => do
    let _ ← scanValue limits 1 ⟨0, 0, 0⟩ value
    if ended then .ok (rootKind value) else .error .invalid
  | .broken unread => do
    let _ ← scanUnread limits 1 ⟨0, 0, 0⟩ unread
    .error .invalid

end

/-- The reader that answers for a whole text at once. -/
def wholeReader (read : List UInt8 → Reading) : JsonReader where
  parse input := match read input with
    | .whole value true => some value
    | _ => none
  malformed limits input := match scanReading limits (read input) with
    | .error failure => failure
    | .ok _ => .invalid

section

inductive ScanCharge
  | node
  | key (bytes : Nat)
  | string (bytes : Nat)

def ScanState.spend (state : ScanState) : ScanCharge → ScanState
  | .node => { state with nodes := state.nodes + 1 }
  | .key bytes => { state with totalKeys := state.totalKeys + 1, decodedStringBytes := state.decodedStringBytes + bytes }
  | .string bytes => { state with decodedStringBytes := state.decodedStringBytes + bytes }

structure ScanState.Within (limits : JsonScanLimits) (state : ScanState) : Prop where
  nodes : state.nodes ≤ limits.maxNodes
  totalKeys : state.totalKeys ≤ limits.maxTotalKeys
  decodedStringBytes : state.decodedStringBytes ≤ limits.maxDecodedStringBytes

def scanMeter (limits : JsonScanLimits) : Meter ScanState ScanCharge where
  spend := ScanState.spend
  Within := ScanState.Within limits
  within_of_spend := by
    rintro state charge ⟨nodes, keys, strings⟩
    cases charge with
    | node => exact ⟨Nat.le_of_succ_le nodes, keys, strings⟩
    | key bytes => exact ⟨nodes, Nat.le_of_succ_le keys, Nat.le_trans (Nat.le_add_right _ bytes) strings⟩
    | string bytes => exact ⟨nodes, keys, Nat.le_trans (Nat.le_add_right _ bytes) strings⟩

mutual

def valueCharges : Json → List ScanCharge
  | .null => [.node]
  | .bool _ => [.node]
  | .int _ => [.node]
  | .float _ => [.node]
  | .str value => [.node, .string value.utf8ByteSize]
  | .arr values => .node :: valuesCharges values
  | .obj fields => .node :: membersCharges fields

def valuesCharges : List Json → List ScanCharge
  | [] => []
  | value :: rest => valueCharges value ++ valuesCharges rest

def membersCharges : List (String × Json) → List ScanCharge
  | [] => []
  | (key, value) :: rest => .key key.utf8ByteSize :: (valueCharges value ++ membersCharges rest)

end

def unreadCharges : Unread → List ScanCharge
  | .malformed => [.node]
  | .arr values => .node :: valuesCharges values
  | .arrAt values last => .node :: (valuesCharges values ++ unreadCharges last)
  | .obj fields => .node :: membersCharges fields
  | .objKey fields key => .node :: (membersCharges fields ++ [.key key.utf8ByteSize])
  | .objAt fields key last => .node :: (membersCharges fields ++ .key key.utf8ByteSize :: unreadCharges last)

end

section

mutual

/-- No object has two equal keys, and the numbers are finite. -/
def KeysDistinct : Json → Prop
  | .null => True
  | .bool _ => True
  | .int _ => True
  | .float value => value.isFinite = true
  | .str _ => True
  | .arr values => AllKeysDistinct values
  | .obj fields => (fields.map Prod.fst).Nodup ∧ MembersKeysDistinct fields

def AllKeysDistinct : List Json → Prop
  | [] => True
  | value :: rest => KeysDistinct value ∧ AllKeysDistinct rest

def MembersKeysDistinct : List (String × Json) → Prop
  | [] => True
  | (_, value) :: rest => KeysDistinct value ∧ MembersKeysDistinct rest

end

/-- The limits on the keys of one object. -/
def KeysBounded (keys : List String) : Prop := keys.length ≤ maxJsonKeysPerObject ∧ keysSize keys ≤ maxJsonKeyBytesPerObject

variable (limits : JsonScanLimits)

mutual

def Bounded (depth : Nat) : Json → Prop
  | .null => depth ≤ limits.maxDepth
  | .bool _ => depth ≤ limits.maxDepth
  | .int _ => depth ≤ limits.maxDepth
  | .float _ => depth ≤ limits.maxDepth
  | .str _ => depth ≤ limits.maxDepth
  | .arr values => depth ≤ limits.maxDepth ∧ AllBounded (depth + 1) values
  | .obj fields => depth ≤ limits.maxDepth ∧ KeysBounded (fields.map Prod.fst) ∧ MembersBounded (depth + 1) fields

def AllBounded (depth : Nat) : List Json → Prop
  | [] => True
  | value :: rest => Bounded depth value ∧ AllBounded depth rest

def MembersBounded (depth : Nat) : List (String × Json) → Prop
  | [] => True
  | (_, value) :: rest => Bounded depth value ∧ MembersBounded depth rest

end

def UnreadBounded (depth : Nat) : Unread → Prop
  | .malformed => depth ≤ limits.maxDepth
  | .arr values => depth ≤ limits.maxDepth ∧ AllBounded limits (depth + 1) values
  | .arrAt values last => depth ≤ limits.maxDepth ∧ AllBounded limits (depth + 1) values ∧ UnreadBounded (depth + 1) last
  | .obj fields => depth ≤ limits.maxDepth ∧ KeysBounded (fields.map Prod.fst) ∧ MembersBounded limits (depth + 1) fields
  | .objKey fields key => depth ≤ limits.maxDepth ∧ KeysBounded (fields.map Prod.fst ++ [key]) ∧ MembersBounded limits (depth + 1) fields
  | .objAt fields key last => depth ≤ limits.maxDepth ∧ KeysBounded (fields.map Prod.fst ++ [key]) ∧ MembersBounded limits (depth + 1) fields ∧
      UnreadBounded (depth + 1) last

/-- What the charges of a whole text come to. -/
def scanTotal (charges : List ScanCharge) : ScanState := (scanMeter limits).total ⟨0, 0, 0⟩ charges

def Reading.Within : Reading → Prop
  | .whole value _ => Bounded limits 1 value ∧ (scanTotal limits (valueCharges value)).Within limits
  | .broken unread => UnreadBounded limits 1 unread ∧ (scanTotal limits (unreadCharges unread)).Within limits

end

section

variable {limits : JsonScanLimits}

theorem invalid_metered : (scanMeter limits).Metered (fun _ => .error JsonScanError.invalid) .budget False True [] :=
  Meter.metered_error (by decide)

theorem enterNode_metered {depth : Nat} :
    (scanMeter limits).Metered (enterNode limits depth) .budget True (depth ≤ limits.maxDepth) [.node] := by
  have count : (scanMeter limits).Metered (fun state => if limits.maxNodes < state.nodes + 1 then .error JsonScanError.budget
      else .ok { state with nodes := state.nodes + 1 }) .budget True True [.node] := by
    constructor
    · intro state within next
      rw [guard_eq_ok, Nat.not_lt, Except.ok.injEq]
      constructor
      · rintro ⟨room, rfl⟩
        exact ⟨⟨trivial, trivial⟩, rfl, room, within.totalKeys, within.decodedStringBytes⟩
      · rintro ⟨-, rfl, final⟩
        exact ⟨final.nodes, rfl⟩
    · rintro state within failed ⟨-, inside⟩
      have room : state.nodes + 1 ≤ limits.maxNodes := inside.nodes
      rw [if_neg (Nat.not_lt.2 room)] at failed
      cases failed
  exact count.within.congr Iff.rfl (by rw [Nat.not_lt, and_true]) rfl

theorem addString_metered {bytes : Nat} : (scanMeter limits).Metered (addString limits bytes) .budget True True [.string bytes] := by
  constructor
  · intro state within next
    rw [addString, guard_eq_ok, Nat.not_lt, Except.ok.injEq]
    constructor
    · rintro ⟨room, rfl⟩
      exact ⟨⟨trivial, trivial⟩, rfl, within.nodes, within.totalKeys, room⟩
    · rintro ⟨-, rfl, final⟩
      exact ⟨final.decodedStringBytes, rfl⟩
  · rintro state within failed ⟨-, inside⟩
    have room : state.decodedStringBytes + bytes ≤ limits.maxDecodedStringBytes := inside.decodedStringBytes
    rw [addString, if_neg (Nat.not_lt.2 room)] at failed
    cases failed

theorem addKey_metered {bytes : Nat} : (scanMeter limits).Metered (addKey limits bytes) .budget True True [.key bytes] := by
  constructor
  · intro state within next
    rw [addKey, guard_eq_ok, addString, guard_eq_ok, Nat.not_lt, Nat.not_lt, Except.ok.injEq]
    constructor
    · rintro ⟨roomKeys, roomBytes, rfl⟩
      exact ⟨⟨trivial, trivial⟩, rfl, within.nodes, roomKeys, roomBytes⟩
    · rintro ⟨-, rfl, final⟩
      exact ⟨final.totalKeys, final.decodedStringBytes, rfl⟩
  · rintro state within failed ⟨-, inside⟩
    have roomKeys : state.totalKeys + 1 ≤ limits.maxTotalKeys := inside.totalKeys
    have roomBytes : state.decodedStringBytes + bytes ≤ limits.maxDecodedStringBytes := inside.decodedStringBytes
    rw [addKey, if_neg (Nat.not_lt.2 roomKeys), addString, if_neg (Nat.not_lt.2 roomBytes)] at failed
    cases failed

/-- A key after those seen is fresh, and leaves their number and bytes within the limits for an object. -/
def enterKey (limits : JsonScanLimits) (key : String) (seen : ObjectKeys) (state : ScanState) : Except JsonScanError ScanState :=
  if key ∈ seen.keys then .error .invalid
  else if maxJsonKeysPerObject < seen.keys.length + 1 then .error .budget
  else if maxJsonKeyBytesPerObject < seen.keyBytes + key.utf8ByteSize then .error .budget
  else addKey limits key.utf8ByteSize state

theorem visitKey_eq (key : String) (seen : ObjectKeys) (state : ScanState) :
    visitKey limits key seen state = (enterKey limits key seen state).map fun state => (seen.add key, state) := by
  unfold visitKey enterKey
  split
  · rfl
  split
  · rfl
  split
  · rfl
  cases addKey limits key.utf8ByteSize state with
  | error failure => rfl
  | ok next => rfl

theorem visitKey_bind {α : Type} (key : String) (seen : ObjectKeys) (state : ScanState) (next : ObjectKeys × ScanState → Except JsonScanError α) :
    visitKey limits key seen state >>= next = enterKey limits key seen state >>= fun state => next (seen.add key, state) := by
  rw [visitKey_eq]
  cases enterKey limits key seen state with
  | error failure => rfl
  | ok next => rfl

theorem enterKey_metered {key : String} {seen : ObjectKeys} : (scanMeter limits).Metered (enterKey limits key seen) .budget (key ∉ seen.keys)
    (seen.keys.length + 1 ≤ maxJsonKeysPerObject ∧ seen.keyBytes + key.utf8ByteSize ≤ maxJsonKeyBytesPerObject) [.key key.utf8ByteSize] := by
  refine (addKey_metered.within.within.unless (by decide)).congr (by rw [and_true]) ?_ rfl
  rw [Nat.not_lt, Nat.not_lt, and_true]

/-- Keys that come after those seen: different from them and from each other, and together with them within the limits for an object. -/
structure KeysAfter (seen : ObjectKeys) (keys : List String) : Prop where
  distinct : keys.Nodup
  fresh : ∀ key ∈ keys, key ∉ seen.keys

def BoundedAfter (seen : ObjectKeys) (keys : List String) : Prop :=
  keys = [] ∨ seen.keys.length + keys.length ≤ maxJsonKeysPerObject ∧ seen.keyBytes + keysSize keys ≤ maxJsonKeyBytesPerObject

theorem keysAfter_cons {seen : ObjectKeys} {key : String} {keys : List String} :
    KeysAfter seen (key :: keys) ↔ key ∉ seen.keys ∧ KeysAfter (seen.add key) keys := by
  constructor
  · rintro ⟨distinct, fresh⟩
    obtain ⟨single, distinct⟩ := List.nodup_cons.1 distinct
    obtain ⟨new, fresh⟩ := List.forall_mem_cons.1 fresh
    refine ⟨new, distinct, fun other member seen => ?_⟩
    rcases List.mem_cons.1 seen with rfl | earlier
    · exact single member
    · exact fresh other member earlier
  · rintro ⟨new, distinct, fresh⟩
    refine ⟨List.nodup_cons.2 ⟨fun member => fresh key member List.mem_cons_self, distinct⟩, List.forall_mem_cons.2 ⟨new, fun other member seen => ?_⟩⟩
    exact fresh other member (List.mem_cons_of_mem key seen)

theorem boundedAfter_cons {seen : ObjectKeys} {key : String} {keys : List String} : BoundedAfter seen (key :: keys) ↔
    (seen.keys.length + 1 ≤ maxJsonKeysPerObject ∧ seen.keyBytes + key.utf8ByteSize ≤ maxJsonKeyBytesPerObject) ∧
      BoundedAfter (seen.add key) keys := by
  have count : (seen.add key).keys.length = seen.keys.length + 1 := rfl
  have bytes : (seen.add key).keyBytes = seen.keyBytes + key.utf8ByteSize := rfl
  have size : keysSize (key :: keys) = key.utf8ByteSize + keysSize keys := by rw [keysSize, List.map_cons, List.sum_cons, keysSize]
  simp only [BoundedAfter, List.cons_ne_nil, false_or, count, bytes, size, List.length_cons]
  cases keys with
  | nil =>
    have none : keysSize [] = 0 := rfl
    simp [none]
  | cons other rest =>
    simp only [List.cons_ne_nil, false_or]
    omega

theorem keysAfter_start {keys : List String} : KeysAfter ⟨[], 0⟩ keys ↔ keys.Nodup :=
  ⟨KeysAfter.distinct, fun distinct => ⟨distinct, fun _ _ => List.not_mem_nil⟩⟩

theorem boundedAfter_start {keys : List String} : BoundedAfter ⟨[], 0⟩ keys ↔ KeysBounded keys := by
  simp only [BoundedAfter, KeysBounded, List.length_nil, Nat.zero_add]
  refine or_iff_right_of_imp ?_
  rintro rfl
  exact ⟨by decide, by decide⟩

mutual

theorem scanValue_metered : (value : Json) → ∀ {depth : Nat}, (scanMeter limits).Metered (fun state => scanValue limits depth state value) .budget
    (KeysDistinct value) (Bounded limits depth value) (valueCharges value)
  | .null, _ => enterNode_metered
  | .bool _, _ => enterNode_metered
  | .int _, _ => enterNode_metered
  | .float value, depth => by
    have finite : (scanMeter limits).Metered (fun state => if value.isFinite then .ok state else .error JsonScanError.invalid) .budget
        (value.isFinite = true) True [] := by
      by_cases isFinite : value.isFinite = true
      · simp only [isFinite, if_true]
        exact Meter.metered_ok
      · simp only [isFinite, Bool.false_eq_true, if_false]
        exact invalid_metered
    exact ((@enterNode_metered limits depth).bind finite).congr (by rw [true_and]; rfl) (by rw [and_true]; rfl) rfl
  | .str value, depth => (enterNode_metered.bind addString_metered).congr (by rw [and_true]; rfl) (by rw [and_true]; rfl) rfl
  | .arr values, depth => (enterNode_metered.bind (scanValues_metered values)).congr (by rw [true_and]; rfl) Iff.rfl rfl
  | .obj fields, depth => by
    refine (enterNode_metered.bind (scanFields_metered fields)).congr ?_ ?_ rfl
    · rw [true_and, keysAfter_start]
      rfl
    · rw [boundedAfter_start]
      rfl

theorem scanValues_metered : (values : List Json) → ∀ {depth : Nat}, (scanMeter limits).Metered
    (fun state => scanValues limits depth state values) .budget (AllKeysDistinct values) (AllBounded limits depth values) (valuesCharges values)
  | [], _ => Meter.metered_ok
  | value :: rest, _ => (scanValue_metered value).bind (scanValues_metered rest)

theorem scanFields_metered : (fields : List (String × Json)) → ∀ {depth : Nat} {seen : ObjectKeys}, (scanMeter limits).Metered
    (fun state => scanFields limits depth seen state fields) .budget (KeysAfter seen (fields.map Prod.fst) ∧ MembersKeysDistinct fields)
    (BoundedAfter seen (fields.map Prod.fst) ∧ MembersBounded limits depth fields) (membersCharges fields)
  | [], depth, seen => by
    refine Meter.metered_ok.congr ?_ ?_ rfl
    · exact iff_of_true trivial ⟨⟨List.nodup_nil, fun _ absent => nomatch absent⟩, trivial⟩
    · exact iff_of_true trivial ⟨.inl rfl, trivial⟩
  | (key, value) :: rest, depth, seen => by
    have visited := (@enterKey_metered limits key seen).bind
      ((@scanValue_metered value depth).bind (@scanFields_metered rest depth (seen.add key)))
    have same : (fun state => scanFields limits depth seen state ((key, value) :: rest)) = fun state => enterKey limits key seen state >>=
        fun state => scanValue limits depth state value >>= fun state => scanFields limits depth (seen.add key) state rest := by
      funext state
      rw [scanFields, visitKey_bind]
    rw [same]
    refine visited.congr ?_ ?_ rfl
    · rw [List.map_cons, keysAfter_cons, MembersKeysDistinct]
      tauto
    · rw [List.map_cons, boundedAfter_cons, MembersBounded]
      tauto

end

theorem seenKeys_eq (fields : List (String × Json)) :
    (∀ key, key ∈ (seenKeys fields).keys ↔ key ∈ fields.map Prod.fst) ∧ (seenKeys fields).keys.length = fields.length ∧
      (seenKeys fields).keyBytes = keysSize (fields.map Prod.fst) := by
  induction fields using List.reverseRecOn with
  | nil => exact ⟨fun _ => Iff.rfl, rfl, rfl⟩
  | append_singleton fields field ih =>
    obtain ⟨members, count, bytes⟩ := ih
    have last : seenKeys (fields ++ [field]) = (seenKeys fields).add field.1 := List.foldl_append
    rw [last]
    refine ⟨fun key => ?_, ?_, ?_⟩
    · show key ∈ field.1 :: (seenKeys fields).keys ↔ _
      rw [List.mem_cons, members, List.map_append, List.mem_append, List.map_singleton, List.mem_singleton, or_comm]
    · show (seenKeys fields).keys.length + 1 = _
      rw [count, List.length_append, List.length_singleton]
    · show (seenKeys fields).keyBytes + field.1.utf8ByteSize = _
      rw [bytes, keysSize, keysSize, List.map_append, List.map_append, List.sum_append]
      simp

theorem lastKey_metered {fields : List (String × Json)} {key : String} {depth : Nat} {later : ScanState → Except JsonScanError ScanState}
    {fits : Prop} {charges : List ScanCharge} (rest : (scanMeter limits).Metered later .budget False fits charges) :
    (scanMeter limits).Metered (fun state => enterNode limits depth state >>= fun state => scanFields limits (depth + 1) ⟨[], 0⟩ state fields >>=
        fun state => visitKey limits key (seenKeys fields) state >>= fun visited => later visited.2) .budget False
      (depth ≤ limits.maxDepth ∧ KeysBounded (fields.map Prod.fst ++ [key]) ∧ MembersBounded limits (depth + 1) fields ∧ fits)
      (.node :: (membersCharges fields ++ .key key.utf8ByteSize :: charges)) := by
  obtain ⟨-, count, bytes⟩ := seenKeys_eq fields
  have size : keysSize (fields.map Prod.fst ++ [key]) = keysSize (fields.map Prod.fst) + key.utf8ByteSize := by
    rw [keysSize, keysSize, List.map_append, List.sum_append]
    simp
  have visited := (@enterNode_metered limits depth).bind ((@scanFields_metered limits fields (depth + 1) ⟨[], 0⟩).bind
    ((@enterKey_metered limits key (seenKeys fields)).bind rest))
  simp only [visitKey_bind]
  refine visited.congr (by simp) ?_ rfl
  rw [boundedAfter_start, count, bytes]
  simp only [KeysBounded, size, List.length_append, List.length_map, List.length_singleton]
  constructor
  · rintro ⟨shallow, ⟨-, members⟩, ⟨few, small⟩, later⟩
    exact ⟨shallow, ⟨few, small⟩, members, later⟩
  · rintro ⟨shallow, ⟨few, small⟩, members, later⟩
    exact ⟨shallow, ⟨⟨by omega, by omega⟩, members⟩, ⟨few, small⟩, later⟩

theorem scanUnread_metered : (unread : Unread) → ∀ {depth : Nat}, (scanMeter limits).Metered (fun state => scanUnread limits depth state unread) .budget
    False (UnreadBounded limits depth unread) (unreadCharges unread)
  | .malformed, depth => ((@enterNode_metered limits depth).bind invalid_metered).congr (by simp) (by rw [and_true]; rfl) rfl
  | .arr values, depth =>
    ((@enterNode_metered limits depth).bind ((@scanValues_metered limits values (depth + 1)).bind invalid_metered)).congr (by simp)
      (by rw [and_true]; rfl) (by rw [List.append_nil]; rfl)
  | .arrAt values last, depth =>
    ((@enterNode_metered limits depth).bind ((@scanValues_metered limits values (depth + 1)).bind (@scanUnread_metered last (depth + 1)))).congr
      (by simp) Iff.rfl rfl
  | .obj fields, depth =>
    ((@enterNode_metered limits depth).bind ((@scanFields_metered limits fields (depth + 1) ⟨[], 0⟩).bind invalid_metered)).congr (by simp)
      (by rw [and_true, boundedAfter_start]; rfl) (by rw [List.append_nil]; rfl)
  | .objKey fields key, depth => (lastKey_metered invalid_metered).congr Iff.rfl (by rw [and_true]; rfl) rfl
  | .objAt fields key last, depth => (lastKey_metered (@scanUnread_metered last (depth + 1))).congr Iff.rfl Iff.rfl rfl

end

section

variable {limits : JsonScanLimits}

mutual

theorem total_value : (value : Json) → ∀ {state : ScanState}, (scanMeter limits).total state (valueCharges value) =
    ⟨state.nodes + nodeCount value, state.totalKeys + keyCount value, state.decodedStringBytes + stringBytes value⟩
  | .null, _ => rfl
  | .bool _, _ => rfl
  | .int _, _ => rfl
  | .float _, _ => rfl
  | .str value, _ => rfl
  | .arr values, state => by
    refine (@total_values values (state.spend .node)).trans ?_
    simp only [ScanState.spend, nodeCount, keyCount, stringBytes]
    rw [Nat.add_assoc, Nat.add_comm 1]
  | .obj fields, state => by
    refine (@total_members fields (state.spend .node)).trans ?_
    simp only [ScanState.spend, nodeCount, keyCount, stringBytes]
    rw [Nat.add_assoc, Nat.add_comm 1]

theorem total_values : (values : List Json) → ∀ {state : ScanState}, (scanMeter limits).total state (valuesCharges values) =
    ⟨state.nodes + nodeCounts values, state.totalKeys + keyCounts values, state.decodedStringBytes + stringsBytes values⟩
  | [], _ => rfl
  | value :: rest, state => by
    rw [valuesCharges, Meter.total_append, total_value value, total_values rest]
    simp only [nodeCounts, keyCounts, stringsBytes, Nat.add_assoc]

theorem total_members : (fields : List (String × Json)) → ∀ {state : ScanState}, (scanMeter limits).total state (membersCharges fields) =
    ⟨state.nodes + fieldNodes fields, state.totalKeys + fieldKeys fields, state.decodedStringBytes + fieldsBytes fields⟩
  | [], _ => rfl
  | (key, value) :: rest, state => by
    show (scanMeter limits).total (state.spend (.key key.utf8ByteSize)) (valueCharges value ++ membersCharges rest) = _
    rw [Meter.total_append, total_value value, total_members rest]
    simp only [ScanState.spend, fieldNodes, fieldKeys, fieldsBytes, ScanState.mk.injEq]
    omega

end

theorem within_whole {value : Json} {ended : Bool} : (Reading.whole value ended).Within limits ↔ Bounded limits 1 value ∧
    nodeCount value ≤ limits.maxNodes ∧ keyCount value ≤ limits.maxTotalKeys ∧ stringBytes value ≤ limits.maxDecodedStringBytes := by
  have total : scanTotal limits (valueCharges value) = ⟨nodeCount value, keyCount value, stringBytes value⟩ := by
    rw [scanTotal, total_value]
    simp
  rw [Reading.Within, total]
  exact and_congr_right fun _ => ⟨fun ⟨nodes, keys, strings⟩ => ⟨nodes, keys, strings⟩, fun ⟨nodes, keys, strings⟩ => ⟨nodes, keys, strings⟩⟩

end

section

variable {limits : JsonScanLimits}

theorem initial_within : (scanMeter limits).Within ⟨0, 0, 0⟩ := ⟨Nat.zero_le _, Nat.zero_le _, Nat.zero_le _⟩

theorem scanReading_whole {value : Json} {ended : Bool} {kind : JsonRootKind} : scanReading limits (.whole value ended) = .ok kind ↔
    ended = true ∧ KeysDistinct value ∧ (Reading.whole value ended).Within limits ∧ kind = rootKind value := by
  have spends := (@scanValue_metered limits value 1).spends _ initial_within
  rw [scanReading, bind_eq_ok]
  constructor
  · rintro ⟨final, run, rest⟩
    obtain ⟨⟨distinct, bounded⟩, rfl, within⟩ := (spends final).1 run
    cases ended with
    | false => cases rest
    | true => exact ⟨rfl, distinct, ⟨bounded, within⟩, (Except.ok.inj rest).symm⟩
  · rintro ⟨rfl, distinct, ⟨bounded, within⟩, rfl⟩
    exact ⟨_, (spends _).2 ⟨⟨distinct, bounded⟩, rfl, within⟩, rfl⟩

theorem scanReading_broken {unread : Unread} {kind : JsonRootKind} : scanReading limits (.broken unread) ≠ .ok kind := by
  intro run
  obtain ⟨final, -, rest⟩ := bind_eq_ok.1 run
  cases rest

theorem scanReading_budget {reading : Reading} (failed : scanReading limits reading = .error .budget) : ¬reading.Within limits := by
  cases reading with
  | whole value ended =>
    intro within
    refine (@scanValue_metered limits value 1).blames _ initial_within ?_ within
    cases run : scanValue limits 1 ⟨0, 0, 0⟩ value with
    | error failure =>
      rw [scanReading, run] at failed
      obtain rfl : failure = .budget := Except.error.inj failed
      rfl
    | ok final =>
      simp only [scanReading, run, bind, Except.bind] at failed
      split at failed <;> cases failed
  | broken unread =>
    intro within
    refine (@scanUnread_metered limits unread 1).blames _ initial_within ?_ within
    cases run : scanUnread limits 1 ⟨0, 0, 0⟩ unread with
    | error failure =>
      rw [scanReading, run] at failed
      obtain rfl : failure = .budget := Except.error.inj failed
      rfl
    | ok final =>
      simp only [scanReading, run, bind, Except.bind] at failed
      cases failed

theorem scanJsonWithLimits_whole (read : List UInt8 → Reading) (input : List UInt8) :
    scanJsonWithLimits (wholeReader read) limits input = scanReading limits (read input) := by
  have failing : ∀ reading, (∀ kind, scanReading limits reading ≠ .ok kind) → (.error (match scanReading limits reading with
      | .error failure => failure
      | .ok _ => .invalid) : Except JsonScanError JsonRootKind) = scanReading limits reading := by
    intro reading never
    cases outcome : scanReading limits reading with
    | error failure => rfl
    | ok kind => exact absurd outcome (never kind)
  unfold scanJsonWithLimits wholeReader
  dsimp only
  cases read input with
  | whole value ended =>
    cases ended with
    | true => rfl
    | false => exact failing _ fun kind run => Bool.false_ne_true (scanReading_whole.1 run).1
  | broken unread => exact failing _ fun kind => scanReading_broken

/-- The scanner accepts the complete texts without equal keys in one object and within all limits, and reports the budget only of texts of which
it has read more than the limits allow. -/
theorem scanJson_exact (read : List UInt8 → Reading) (limits : JsonScanLimits) (input : List UInt8) :
    (∀ kind, scanJsonWithLimits (wholeReader read) limits input = .ok kind ↔ ∃ value, read input = .whole value true ∧ kind = rootKind value ∧
      KeysDistinct value ∧ Bounded limits 1 value ∧ nodeCount value ≤ limits.maxNodes ∧ keyCount value ≤ limits.maxTotalKeys ∧
      stringBytes value ≤ limits.maxDecodedStringBytes) ∧
    (scanJsonWithLimits (wholeReader read) limits input = .error .budget → ¬(read input).Within limits) := by
  rw [scanJsonWithLimits_whole]
  refine ⟨fun kind => ?_, scanReading_budget⟩
  constructor
  · intro run
    cases reading : read input with
    | broken unread =>
      rw [reading] at run
      exact absurd run scanReading_broken
    | whole value ended =>
      rw [reading, scanReading_whole] at run
      obtain ⟨rfl, distinct, within, same⟩ := run
      exact ⟨value, rfl, same, distinct, within_whole.1 within⟩
  · rintro ⟨value, reading, same, distinct, within⟩
    rw [reading, scanReading_whole]
    exact ⟨rfl, distinct, within_whole.2 within, same⟩

/-- One object that passes, and a second node where one is allowed. -/
theorem scanJson_exact_small :
    scanJsonWithLimits (wholeReader fun _ => .whole (.obj [("a", .null)]) true) .unbounded [] = .ok .object ∧
      ¬(Reading.broken (.arr [.null])).Within ⟨128, 1, 16, 16⟩ := by
  constructor
  · refine ((scanJson_exact (fun _ => .whole (.obj [("a", .null)]) true) .unbounded []).1 .object).2 ⟨_, rfl, rfl, ?_, ?_, ?_⟩
    · exact ⟨by decide, trivial, trivial⟩
    · exact ⟨by decide, ⟨by decide, by decide⟩, (by decide : 2 ≤ JsonScanLimits.unbounded.maxDepth), trivial⟩
    · decide
  · exact (scanJson_exact (fun _ => .broken (.arr [.null])) ⟨128, 1, 16, 16⟩ []).2 rfl

end

end Legitimacy.Trajectory
