import Legitimacy.ExceptRun
import Legitimacy.Json
import Legitimacy.Trajectory.Trace

namespace Legitimacy.Trajectory

open ExceptRun

structure JsonScanLimits where
  maxDepth : Nat
  maxNodes : Nat
  maxTotalKeys : Nat
  maxDecodedStringBytes : Nat

/-- All limits at `usize::MAX`. -/
def JsonScanLimits.unbounded : JsonScanLimits := ⟨2 ^ 64 - 1, 2 ^ 64 - 1, 2 ^ 64 - 1, 2 ^ 64 - 1⟩

inductive JsonRootKind
  | object | nonObject
  deriving DecidableEq

inductive JsonScanError
  | invalid | budget
  deriving DecidableEq

structure ScanState where
  nodes : Nat
  totalKeys : Nat
  decodedStringBytes : Nat

section

variable (limits : JsonScanLimits)

/-- No limit exceeds `usize::MAX`, so that an overflow of the counter is over the limit as well. -/
def enterNode (depth : Nat) (state : ScanState) : Except JsonScanError ScanState :=
  if limits.maxDepth < depth then .error .budget
  else if limits.maxNodes < state.nodes + 1 then .error .budget
  else .ok { state with nodes := state.nodes + 1 }

def addString (bytes : Nat) (state : ScanState) : Except JsonScanError ScanState :=
  if limits.maxDecodedStringBytes < state.decodedStringBytes + bytes then .error .budget
  else .ok { state with decodedStringBytes := state.decodedStringBytes + bytes }

def addKey (bytes : Nat) (state : ScanState) : Except JsonScanError ScanState :=
  if limits.maxTotalKeys < state.totalKeys + 1 then .error .budget
  else addString limits bytes { state with totalKeys := state.totalKeys + 1 }

structure ObjectKeys where
  keys : List String
  keyBytes : Nat

def visitKey (key : String) (seen : ObjectKeys) (state : ScanState) : Except JsonScanError (ObjectKeys × ScanState) := do
  if key ∈ seen.keys then .error .invalid
  else if maxJsonKeysPerObject < seen.keys.length + 1 then .error .budget
  else if maxJsonKeyBytesPerObject < seen.keyBytes + key.utf8ByteSize then .error .budget
  else
    let state ← addKey limits key.utf8ByteSize state
    .ok (⟨key :: seen.keys, seen.keyBytes + key.utf8ByteSize⟩, state)

mutual

def scanValue (depth : Nat) (state : ScanState) : Json → Except JsonScanError ScanState
  | .null => enterNode limits depth state
  | .bool _ => enterNode limits depth state
  | .int _ => enterNode limits depth state
  | .float value => do
    let state ← enterNode limits depth state
    if value.isFinite then .ok state else .error .invalid
  | .str value => do
    let state ← enterNode limits depth state
    addString limits value.utf8ByteSize state
  | .arr values => do
    let state ← enterNode limits depth state
    scanValues (depth + 1) state values
  | .obj fields => do
    let state ← enterNode limits depth state
    scanFields (depth + 1) ⟨[], 0⟩ state fields

def scanValues (depth : Nat) (state : ScanState) : List Json → Except JsonScanError ScanState
  | [] => .ok state
  | value :: rest => do
    let state ← scanValue depth state value
    scanValues depth state rest

def scanFields (depth : Nat) (seen : ObjectKeys) (state : ScanState) : List (String × Json) → Except JsonScanError ScanState
  | [] => .ok state
  | (key, value) :: rest => do
    let (seen, state) ← visitKey limits key seen state
    let state ← scanValue depth state value
    scanFields depth seen state rest

end

end

def rootKind : Json → JsonRootKind
  | .obj _ => .object
  | _ => .nonObject

structure JsonReader where
  parse : List UInt8 → Option Json
  malformed : JsonScanLimits → List UInt8 → JsonScanError

def scanJsonWithLimits (reader : JsonReader) (limits : JsonScanLimits) (input : List UInt8) : Except JsonScanError JsonRootKind := do
  let value ← (reader.parse input).elim (.error (reader.malformed limits input)) .ok
  let _ ← scanValue limits 1 ⟨0, 0, 0⟩ value
  .ok (rootKind value)

/-- The scan without limits of its own; which of the two errors occurred is not told apart. -/
def rejectDuplicateJsonKeys (reader : JsonReader) (input : List UInt8) : Except JsonScanError JsonRootKind :=
  scanJsonWithLimits reader .unbounded input

section

mutual

def nodeCount : Json → Nat
  | .null => 1
  | .bool _ => 1
  | .int _ => 1
  | .float _ => 1
  | .str _ => 1
  | .arr values => nodeCounts values + 1
  | .obj fields => fieldNodes fields + 1

def nodeCounts : List Json → Nat
  | [] => 0
  | value :: rest => nodeCount value + nodeCounts rest

def fieldNodes : List (String × Json) → Nat
  | [] => 0
  | (_, value) :: rest => nodeCount value + fieldNodes rest

end

mutual

def keyCount : Json → Nat
  | .null => 0
  | .bool _ => 0
  | .int _ => 0
  | .float _ => 0
  | .str _ => 0
  | .arr values => keyCounts values
  | .obj fields => fieldKeys fields

def keyCounts : List Json → Nat
  | [] => 0
  | value :: rest => keyCount value + keyCounts rest

def fieldKeys : List (String × Json) → Nat
  | [] => 0
  | (_, value) :: rest => keyCount value + fieldKeys rest + 1

end

mutual

def stringBytes : Json → Nat
  | .null => 0
  | .bool _ => 0
  | .int _ => 0
  | .float _ => 0
  | .str value => value.utf8ByteSize
  | .arr values => stringsBytes values
  | .obj fields => fieldsBytes fields

def stringsBytes : List Json → Nat
  | [] => 0
  | value :: rest => stringBytes value + stringsBytes rest

def fieldsBytes : List (String × Json) → Nat
  | [] => 0
  | (key, value) :: rest => key.utf8ByteSize + stringBytes value + fieldsBytes rest

end

def keysSize (keys : List String) : Nat := (keys.map String.utf8ByteSize).sum

mutual

/-- Every object keeps to the limits that hold for one object. -/
def ObjectsFit : Json → Prop
  | .null => True
  | .bool _ => True
  | .int _ => True
  | .float _ => False
  | .str _ => True
  | .arr values => AllObjectsFit values
  | .obj fields => (fields.map Prod.fst).Nodup ∧ fields.length ≤ maxJsonKeysPerObject ∧
      keysSize (fields.map Prod.fst) ≤ maxJsonKeyBytesPerObject ∧ FieldObjectsFit fields

def AllObjectsFit : List Json → Prop
  | [] => True
  | value :: rest => ObjectsFit value ∧ AllObjectsFit rest

def FieldObjectsFit : List (String × Json) → Prop
  | [] => True
  | (_, value) :: rest => ObjectsFit value ∧ FieldObjectsFit rest

end

theorem allObjectsFit_iff {values : List Json} : AllObjectsFit values ↔ ∀ value ∈ values, ObjectsFit value := by
  induction values with
  | nil => simp [AllObjectsFit]
  | cons value rest ih => rw [AllObjectsFit, ih, List.forall_mem_cons]

theorem fieldObjectsFit_iff {fields : List (String × Json)} : FieldObjectsFit fields ↔ ∀ field ∈ fields, ObjectsFit field.2 := by
  induction fields with
  | nil => simp [FieldObjectsFit]
  | cons field rest ih => rw [FieldObjectsFit, ih, List.forall_mem_cons]

end

structure WithinLimits (limits : JsonScanLimits) (value : Json) : Prop where
  depth : value.nesting + 1 ≤ limits.maxDepth
  nodes : nodeCount value ≤ limits.maxNodes
  keys : keyCount value ≤ limits.maxTotalKeys
  strings : stringBytes value ≤ limits.maxDecodedStringBytes
  objects : ObjectsFit value

mutual

/-- How far the values of a document lie below its root. -/
def height : Json → Nat
  | .null => 0
  | .bool _ => 0
  | .int _ => 0
  | .float _ => 0
  | .str _ => 0
  | .arr values => heights values
  | .obj fields => fieldHeights fields

def heights : List Json → Nat
  | [] => 0
  | value :: rest => max (height value + 1) (heights rest)

def fieldHeights : List (String × Json) → Nat
  | [] => 0
  | (_, value) :: rest => max (height value + 1) (fieldHeights rest)

end

mutual

def Scannable : Json → Prop
  | .null => True
  | .bool _ => True
  | .int _ => True
  | .float value => value.isFinite
  | .str _ => True
  | .arr values => AllScannable values
  | .obj fields => (fields.map Prod.fst).Nodup ∧ fields.length ≤ maxJsonKeysPerObject ∧
      keysSize (fields.map Prod.fst) ≤ maxJsonKeyBytesPerObject ∧ FieldsScannable fields

def AllScannable : List Json → Prop
  | [] => True
  | value :: rest => Scannable value ∧ AllScannable rest

def FieldsScannable : List (String × Json) → Prop
  | [] => True
  | (_, value) :: rest => Scannable value ∧ FieldsScannable rest

end

/-- What the limits ask of a document. -/
structure KeepsLimits (limits : JsonScanLimits) (value : Json) : Prop where
  depth : height value + 1 ≤ limits.maxDepth
  nodes : nodeCount value ≤ limits.maxNodes
  keys : keyCount value ≤ limits.maxTotalKeys
  strings : stringBytes value ≤ limits.maxDecodedStringBytes
  scannable : Scannable value

section

variable {limits : JsonScanLimits}

theorem enterNode_eq_ok {depth : Nat} {state final : ScanState} : enterNode limits depth state = .ok final ↔
    depth ≤ limits.maxDepth ∧ state.nodes + 1 ≤ limits.maxNodes ∧
      final = ⟨state.nodes + 1, state.totalKeys, state.decodedStringBytes⟩ := by
  rw [enterNode, guard_eq_ok, guard_eq_ok, Nat.not_lt, Nat.not_lt, Except.ok.injEq, eq_comm (b := final)]

theorem addString_eq_ok {bytes : Nat} {state final : ScanState} : addString limits bytes state = .ok final ↔
    state.decodedStringBytes + bytes ≤ limits.maxDecodedStringBytes ∧
      final = ⟨state.nodes, state.totalKeys, state.decodedStringBytes + bytes⟩ := by
  rw [addString, guard_eq_ok, Nat.not_lt, Except.ok.injEq, eq_comm (b := final)]

theorem visitKey_eq_ok {key : String} {seen : ObjectKeys} {state : ScanState} {result : ObjectKeys × ScanState} :
    visitKey limits key seen state = .ok result ↔ key ∉ seen.keys ∧ seen.keys.length + 1 ≤ maxJsonKeysPerObject ∧
      seen.keyBytes + key.utf8ByteSize ≤ maxJsonKeyBytesPerObject ∧ state.totalKeys + 1 ≤ limits.maxTotalKeys ∧
      state.decodedStringBytes + key.utf8ByteSize ≤ limits.maxDecodedStringBytes ∧
      result = (⟨key :: seen.keys, seen.keyBytes + key.utf8ByteSize⟩,
        ⟨state.nodes, state.totalKeys + 1, state.decodedStringBytes + key.utf8ByteSize⟩) := by
  rw [visitKey, guard_eq_ok, guard_eq_ok, guard_eq_ok, bind_eq_ok, Nat.not_lt, Nat.not_lt]
  simp only [addKey, guard_eq_ok, Nat.not_lt, addString_eq_ok, Except.ok.injEq]
  constructor
  · rintro ⟨fresh, count, size, final, ⟨keys, strings, rfl⟩, rfl⟩
    exact ⟨fresh, count, size, keys, strings, rfl⟩
  · rintro ⟨fresh, count, size, keys, strings, rfl⟩
    exact ⟨fresh, count, size, _, ⟨keys, strings, rfl⟩, rfl⟩

/-- The counters have not passed their limits. -/
structure Counting (limits : JsonScanLimits) (state : ScanState) : Prop where
  nodes : state.nodes ≤ limits.maxNodes
  keys : state.totalKeys ≤ limits.maxTotalKeys
  strings : state.decodedStringBytes ≤ limits.maxDecodedStringBytes

theorem scalar_eq_ok {value : Json} {depth : Nat} {state final : ScanState} (counting : Counting limits state)
    (scannable : Scannable value) (flat : height value = 0) (single : nodeCount value = 1) (keyless : keyCount value = 0)
    (textless : stringBytes value = 0) : enterNode limits depth state = .ok final ↔
      Scannable value ∧ depth + height value ≤ limits.maxDepth ∧ Counting limits final ∧
      final = ⟨state.nodes + nodeCount value, state.totalKeys + keyCount value, state.decodedStringBytes + stringBytes value⟩ := by
  rw [enterNode_eq_ok, flat, single, keyless, textless]
  constructor
  · rintro ⟨shallow, room, rfl⟩
    exact ⟨scannable, shallow, ⟨room, counting.keys, counting.strings⟩, rfl⟩
  · rintro ⟨-, shallow, counted, rfl⟩
    exact ⟨shallow, counted.nodes, rfl⟩

mutual

/-- From counters within the limits, the scan passes exactly the documents that keep to what is left of them. -/
theorem scanValue_eq_ok : (value : Json) → ∀ {depth : Nat} {state final : ScanState}, Counting limits state →
    (scanValue limits depth state value = .ok final ↔ Scannable value ∧ depth + height value ≤ limits.maxDepth ∧
      Counting limits final ∧
      final = ⟨state.nodes + nodeCount value, state.totalKeys + keyCount value, state.decodedStringBytes + stringBytes value⟩)
  | .null, depth, state, final, counting => scalar_eq_ok counting trivial rfl rfl rfl rfl
  | .bool _, depth, state, final, counting => scalar_eq_ok counting trivial rfl rfl rfl rfl
  | .int _, depth, state, final, counting => scalar_eq_ok counting trivial rfl rfl rfl rfl
  | .float value, depth, state, final, counting => by
    rw [scanValue, bind_eq_ok]
    constructor
    · rintro ⟨entered, atEnter, checked⟩
      split at checked
      · rename_i finite
        obtain rfl := Except.ok.inj checked
        exact (scalar_eq_ok counting (show Scannable (.float value) from finite) rfl rfl rfl rfl).1 atEnter
      · cases checked
    · rintro ⟨finite, shallow, counted, rfl⟩
      exact ⟨_, (scalar_eq_ok counting finite rfl rfl rfl rfl).2 ⟨finite, shallow, counted, rfl⟩, if_pos finite⟩
  | .str value, depth, state, final, counting => by
    rw [scanValue, bind_eq_ok]
    simp only [enterNode_eq_ok, addString_eq_ok, Scannable, height, nodeCount, keyCount, stringBytes, true_and, Nat.add_zero]
    constructor
    · rintro ⟨entered, ⟨shallow, room, rfl⟩, strings, rfl⟩
      exact ⟨shallow, ⟨room, counting.keys, strings⟩, rfl⟩
    · rintro ⟨shallow, counted, rfl⟩
      exact ⟨_, ⟨shallow, counted.nodes, rfl⟩, counted.strings, rfl⟩
  | .arr values, depth, state, final, counting => by
    rw [scanValue, bind_eq_ok]
    simp only [enterNode_eq_ok, Scannable, height, nodeCount, keyCount, stringBytes]
    constructor
    · rintro ⟨entered, ⟨shallow, room, rfl⟩, scanned⟩
      have entered : Counting limits ⟨state.nodes + 1, state.totalKeys, state.decodedStringBytes⟩ := ⟨room, counting.keys, counting.strings⟩
      obtain ⟨inner, deep, counted, rfl⟩ := (scanValues_eq_ok values shallow entered).1 scanned
      exact ⟨inner, deep, counted, by rw [Nat.add_assoc, Nat.add_comm 1]⟩
    · rintro ⟨inner, deep, counted, rfl⟩
      have room : state.nodes + (nodeCounts values + 1) ≤ limits.maxNodes := counted.nodes
      have entered : Counting limits ⟨state.nodes + 1, state.totalKeys, state.decodedStringBytes⟩ :=
        ⟨by simp only; omega, counting.keys, counting.strings⟩
      refine ⟨_, ⟨by omega, entered.nodes, rfl⟩, ?_⟩
      refine (scanValues_eq_ok values (by omega) entered).2 ⟨inner, deep, counted, ?_⟩
      rw [Nat.add_assoc, Nat.add_comm 1]
  | .obj fields, depth, state, final, counting => by
    rw [scanValue, bind_eq_ok]
    simp only [enterNode_eq_ok, Scannable, height, nodeCount, keyCount, stringBytes]
    constructor
    · rintro ⟨entered, ⟨shallow, room, rfl⟩, scanned⟩
      have entered : Counting limits ⟨state.nodes + 1, state.totalKeys, state.decodedStringBytes⟩ := ⟨room, counting.keys, counting.strings⟩
      obtain ⟨inner, distinct, -, count, size, deep, counted, rfl⟩ :=
        (scanFields_eq_ok fields shallow entered ⟨Nat.zero_le _, Nat.zero_le _⟩).1 scanned
      simp only [List.length_nil, Nat.zero_add] at count size
      exact ⟨⟨distinct, count, size, inner⟩, deep, counted, by rw [Nat.add_assoc, Nat.add_comm 1]⟩
    · rintro ⟨⟨distinct, count, size, inner⟩, deep, counted, rfl⟩
      have room : state.nodes + (fieldNodes fields + 1) ≤ limits.maxNodes := counted.nodes
      have entered : Counting limits ⟨state.nodes + 1, state.totalKeys, state.decodedStringBytes⟩ :=
        ⟨by simp only; omega, counting.keys, counting.strings⟩
      refine ⟨_, ⟨by omega, entered.nodes, rfl⟩, ?_⟩
      refine (scanFields_eq_ok fields (by omega) entered ⟨Nat.zero_le _, Nat.zero_le _⟩).2
        ⟨inner, distinct, fun _ _ => List.not_mem_nil, by simpa using count, by simpa using size, deep, counted, ?_⟩
      rw [Nat.add_assoc, Nat.add_comm 1]

theorem scanValues_eq_ok : (values : List Json) → ∀ {depth : Nat} {state final : ScanState}, depth ≤ limits.maxDepth →
    Counting limits state → (scanValues limits (depth + 1) state values = .ok final ↔ AllScannable values ∧
      depth + heights values ≤ limits.maxDepth ∧ Counting limits final ∧
      final = ⟨state.nodes + nodeCounts values, state.totalKeys + keyCounts values, state.decodedStringBytes + stringsBytes values⟩)
  | [], depth, state, final, shallow, counting => by
    rw [scanValues, Except.ok.injEq]
    constructor
    · rintro rfl
      exact ⟨trivial, shallow, counting, rfl⟩
    · rintro ⟨-, -, -, rfl⟩
      rfl
  | value :: rest, depth, state, final, shallow, counting => by
    rw [scanValues, bind_eq_ok]
    simp only [AllScannable, heights, nodeCounts, keyCounts, stringsBytes]
    constructor
    · rintro ⟨middle, first, later⟩
      obtain ⟨inner, deep, counted, rfl⟩ := (scanValue_eq_ok value counting).1 first
      obtain ⟨others, deeper, counted, rfl⟩ := (scanValues_eq_ok rest shallow counted).1 later
      exact ⟨⟨inner, others⟩, by omega, counted, by simp only [Nat.add_assoc]⟩
    · rintro ⟨⟨inner, others⟩, deep, counted, rfl⟩
      obtain ⟨nodes, keys, strings⟩ := counted
      simp only at nodes keys strings
      have between : Counting limits ⟨state.nodes + nodeCount value, state.totalKeys + keyCount value,
          state.decodedStringBytes + stringBytes value⟩ := ⟨by simp only; omega, by simp only; omega, by simp only; omega⟩
      refine ⟨_, (scanValue_eq_ok value counting).2 ⟨inner, by omega, between, rfl⟩, ?_⟩
      exact (scanValues_eq_ok rest shallow between).2 ⟨others, by omega, ⟨nodes, keys, strings⟩, by simp only [Nat.add_assoc]⟩

theorem scanFields_eq_ok : (fields : List (String × Json)) → ∀ {depth : Nat} {seen : ObjectKeys} {state final : ScanState},
    depth ≤ limits.maxDepth → Counting limits state →
    seen.keys.length ≤ maxJsonKeysPerObject ∧ seen.keyBytes ≤ maxJsonKeyBytesPerObject →
    (scanFields limits (depth + 1) seen state fields = .ok final ↔ FieldsScannable fields ∧ (fields.map Prod.fst).Nodup ∧
      (∀ key ∈ fields.map Prod.fst, key ∉ seen.keys) ∧ seen.keys.length + fields.length ≤ maxJsonKeysPerObject ∧
      seen.keyBytes + keysSize (fields.map Prod.fst) ≤ maxJsonKeyBytesPerObject ∧ depth + fieldHeights fields ≤ limits.maxDepth ∧
      Counting limits final ∧
      final = ⟨state.nodes + fieldNodes fields, state.totalKeys + fieldKeys fields, state.decodedStringBytes + fieldsBytes fields⟩)
  | [], depth, seen, state, final, shallow, counting, room => by
    rw [scanFields, Except.ok.injEq]
    constructor
    · rintro rfl
      exact ⟨trivial, List.nodup_nil, nofun, room.1, room.2, shallow, counting, rfl⟩
    · rintro ⟨-, -, -, -, -, -, -, rfl⟩
      rfl
  | (key, value) :: rest, depth, seen, state, final, shallow, counting, room => by
    rw [scanFields, bind_eq_ok]
    simp only [FieldsScannable, fieldHeights, fieldNodes, fieldKeys, fieldsBytes, List.map_cons, List.length_cons, keysSize, List.sum_cons,
      List.nodup_cons, List.forall_mem_cons]
    constructor
    · rintro ⟨visited, atKey, scanned⟩
      obtain ⟨fresh, count, size, keys, strings, rfl⟩ := visitKey_eq_ok.1 atKey
      obtain ⟨middle, first, later⟩ := bind_eq_ok.1 scanned
      have keyed : Counting limits ⟨state.nodes, state.totalKeys + 1, state.decodedStringBytes + key.utf8ByteSize⟩ :=
        ⟨counting.nodes, keys, strings⟩
      obtain ⟨inner, deep, counted, rfl⟩ := (scanValue_eq_ok value keyed).1 first
      have roomy : (ObjectKeys.mk (key :: seen.keys) (seen.keyBytes + key.utf8ByteSize)).keys.length ≤ maxJsonKeysPerObject ∧
          seen.keyBytes + key.utf8ByteSize ≤ maxJsonKeyBytesPerObject := ⟨count, size⟩
      obtain ⟨others, distinct, apart, count, size, deeper, counted, rfl⟩ := (scanFields_eq_ok rest shallow counted roomy).1 later
      simp only [List.length_cons, keysSize] at count size
      refine ⟨⟨inner, others⟩, ⟨fun again => apart key again List.mem_cons_self, distinct⟩,
        ⟨fresh, fun other member seen => apart other member (List.mem_cons_of_mem key seen)⟩, by omega, by omega, by omega, counted, ?_⟩
      simp only [ScanState.mk.injEq]
      omega
    · rintro ⟨⟨inner, others⟩, ⟨single, distinct⟩, ⟨fresh, apart⟩, count, size, deep, counted, rfl⟩
      obtain ⟨nodes, keys, strings⟩ := counted
      simp only at nodes keys strings
      have visited : visitKey limits key seen state = .ok (⟨key :: seen.keys, seen.keyBytes + key.utf8ByteSize⟩,
          ⟨state.nodes, state.totalKeys + 1, state.decodedStringBytes + key.utf8ByteSize⟩) :=
        visitKey_eq_ok.2 ⟨fresh, by omega, by omega, by omega, by omega, rfl⟩
      have between : Counting limits ⟨state.nodes + nodeCount value, state.totalKeys + 1 + keyCount value,
          state.decodedStringBytes + key.utf8ByteSize + stringBytes value⟩ :=
        ⟨by simp only; omega, by simp only; omega, by simp only; omega⟩
      have keyed : Counting limits ⟨state.nodes, state.totalKeys + 1, state.decodedStringBytes + key.utf8ByteSize⟩ :=
        ⟨counting.nodes, by simp only; omega, by simp only; omega⟩
      have below : depth + 1 + height value ≤ limits.maxDepth := by omega
      have first := (scanValue_eq_ok value keyed).2 ⟨inner, below, between, rfl⟩
      have unseen : ∀ other ∈ rest.map Prod.fst, other ∉ key :: seen.keys := by
        intro other member listed
        rcases List.mem_cons.1 listed with rfl | earlier
        · exact single member
        · exact apart other member earlier
      refine ⟨_, visited, bind_eq_ok.2 ⟨_, first, ?_⟩⟩
      refine (scanFields_eq_ok rest shallow between ⟨by simp only [List.length_cons]; omega, by simp only; omega⟩).2
        ⟨others, distinct, unseen, by simp only [List.length_cons]; omega, by simp only [keysSize]; omega, by omega,
          ⟨nodes, keys, strings⟩, ?_⟩
      simp only [ScanState.mk.injEq]
      omega

end

theorem scanJsonWithLimits_eq_ok {reader : JsonReader} {input : List UInt8} {kind : JsonRootKind} :
    scanJsonWithLimits reader limits input = .ok kind ↔
      ∃ value, reader.parse input = some value ∧ KeepsLimits limits value ∧ rootKind value = kind := by
  have counting : Counting limits ⟨0, 0, 0⟩ := ⟨Nat.zero_le _, Nat.zero_le _, Nat.zero_le _⟩
  rw [scanJsonWithLimits, bind_eq_ok]
  constructor
  · rintro ⟨value, read, scanned⟩
    obtain ⟨final, passed, kinds⟩ := bind_eq_ok.1 scanned
    obtain ⟨scannable, deep, counted, rfl⟩ := (scanValue_eq_ok value counting).1 passed
    obtain ⟨nodes, keys, strings⟩ := counted
    simp only [Nat.zero_add] at nodes keys strings
    exact ⟨value, elim_eq_ok.1 read, ⟨by omega, nodes, keys, strings, scannable⟩, Except.ok.inj kinds⟩
  · rintro ⟨value, read, keeps, rfl⟩
    have counted : Counting limits ⟨0 + nodeCount value, 0 + keyCount value, 0 + stringBytes value⟩ :=
      ⟨by simpa using keeps.nodes, by simpa using keeps.keys, by simpa using keeps.strings⟩
    have shallow := keeps.depth
    exact ⟨value, elim_eq_ok.2 read,
      bind_eq_ok.2 ⟨_, (scanValue_eq_ok value counting).2 ⟨keeps.scannable, by omega, counted, rfl⟩, rfl⟩⟩

mutual

theorem height_le_nesting : (value : Json) → height value ≤ value.nesting
  | .null => Nat.le_refl _
  | .bool _ => Nat.le_refl _
  | .int _ => Nat.le_refl _
  | .float _ => Nat.le_refl _
  | .str _ => Nat.le_refl _
  | .arr values => heights_le_nesting values
  | .obj fields => fieldHeights_le_nesting fields

theorem heights_le_nesting : (values : List Json) → heights values ≤ Json.nestingValues values + 1
  | [] => Nat.zero_le _
  | value :: rest => by
    have first := height_le_nesting value
    have others := heights_le_nesting rest
    rw [heights, Json.nestingValues]
    omega

theorem fieldHeights_le_nesting : (fields : List (String × Json)) → fieldHeights fields ≤ Json.nestingFields fields + 1
  | [] => Nat.zero_le _
  | (_, value) :: rest => by
    have first := height_le_nesting value
    have others := fieldHeights_le_nesting rest
    rw [fieldHeights, Json.nestingFields]
    omega

end

mutual

theorem ObjectsFit.scannable : (value : Json) → ObjectsFit value → Scannable value
  | .null, _ => trivial
  | .bool _, _ => trivial
  | .int _, _ => trivial
  | .float _, fit => fit.elim
  | .str _, _ => trivial
  | .arr values, fit => AllObjectsFit.scannable values fit
  | .obj fields, fit => ⟨fit.1, fit.2.1, fit.2.2.1, FieldObjectsFit.scannable fields fit.2.2.2⟩

theorem AllObjectsFit.scannable : (values : List Json) → AllObjectsFit values → AllScannable values
  | [], _ => trivial
  | value :: rest, fit => ⟨ObjectsFit.scannable value fit.1, AllObjectsFit.scannable rest fit.2⟩

theorem FieldObjectsFit.scannable : (fields : List (String × Json)) → FieldObjectsFit fields → FieldsScannable fields
  | [], _ => trivial
  | (_, value) :: rest, fit => ⟨ObjectsFit.scannable value fit.1, FieldObjectsFit.scannable rest fit.2⟩

end

theorem WithinLimits.keeps {value : Json} (within : WithinLimits limits value) : KeepsLimits limits value where
  depth := Nat.le_trans (Nat.succ_le_succ (height_le_nesting value)) within.depth
  nodes := within.nodes
  keys := within.keys
  strings := within.strings
  scannable := ObjectsFit.scannable value within.objects

theorem scanJsonWithLimits_ok {reader : JsonReader} {input : List UInt8} {value : Json} (read : reader.parse input = some value)
    (within : WithinLimits limits value) : scanJsonWithLimits reader limits input = .ok (rootKind value) :=
  scanJsonWithLimits_eq_ok.2 ⟨value, read, within.keeps, rfl⟩

end

end Legitimacy.Trajectory
