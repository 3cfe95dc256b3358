import Legitimacy.CodexExec.StreamValidation
import Legitimacy.JsonReader
import Legitimacy.LineFile
import Legitimacy.Trajectory.JsonScan
import Legitimacy.Windows

namespace Legitimacy.CodexExec

open Trajectory ExceptRun LineFile Windows

def maxCodexJsonlBytes : Nat := 8 * 1024 * 1024

def maxCodexRecordBytes : Nat := 512 * 1024

def maxCodexRecords : Nat := 4096

def codexRecordLimits : JsonScanLimits := ⟨16, 32768, 8192, 384 * 1024⟩

def frameScanChunkBytes : Nat := 8 * 1024

def carriageReturn : UInt8 := 0x0D

structure ByteRange where
  start : Nat
  stop : Nat
  deriving DecidableEq

def ByteRange.slice (range : ByteRange) (bytes : List UInt8) : List UInt8 := (bytes.drop range.start).take (range.stop - range.start)

structure FramedCapture where
  bytes : List UInt8
  records : List ByteRange
  deriving DecidableEq

def FramedCapture.recordSlices (framed : FramedCapture) : List (List UInt8) := framed.records.map (·.slice framed.bytes)

def fullJsonlDigest (sha256 : List UInt8 → Digest) (bytes : List UInt8) : String :=
  framedSha256 sha256 "legitimacy.codex-exec-v0.full-jsonl.v0" [bytes]

def framingError : AdapterError := .new .jsonFraming

/-- Arithmetic on offsets, which fit a machine word. -/
def checkedOffset (value : Nat) : Except AdapterError Nat := if value < 2 ^ 64 then .ok value else .error framingError

structure Framing where
  start : Nat
  records : List ByteRange

section

variable (reader : JsonReader)

def scanRecord (index : Nat) (record : List UInt8) : Except AdapterError Unit :=
  match scanJsonWithLimits reader codexRecordLimits record with
  | .ok .object => .ok ()
  | .ok .nonObject => .error (.record .jsonShape index "$")
  | .error failure => .error (.record (if failure = .budget then .jsonBudget else .jsonSyntax) index "$")

def frameRecord (bytes : List UInt8) (framing : Framing) (stop : Nat) : Except AdapterError Framing :=
  if stop < framing.start then .error framingError
  else
    let length := stop - framing.start
    if length = 0 ∨ maxCodexRecordBytes < length then .error (.new (if length = 0 then .jsonFraming else .inputTooLarge))
    else if framing.records.length = maxCodexRecords then .error (.new .inputTooLarge)
    else do
      scanRecord reader framing.records.length (ByteRange.slice ⟨framing.start, stop⟩ bytes)
      let start ← checkedOffset (stop + 1)
      .ok ⟨start, framing.records ++ [⟨framing.start, stop⟩]⟩

def frameFeed (bytes : List UInt8) (chunkStart : Nat) (framing : Framing) (relativeEnd : Nat) : Except AdapterError Framing := do
  let stop ← checkedOffset (chunkStart + relativeEnd)
  frameRecord reader bytes framing stop

def frameChunk (chunkSize : Nat) (bytes : List UInt8) (framing : Framing) (entry : List UInt8 × Nat) : Except AdapterError Framing := do
  let chunkStart ← checkedOffset (entry.2 * chunkSize)
  (feeds entry.1).foldlM (frameFeed reader bytes chunkStart) framing

def parseOwnedIn (chunkSize : Nat) (bytes : List UInt8) : Except AdapterError FramedCapture :=
  if maxCodexJsonlBytes < bytes.length then .error (.new .inputTooLarge)
  else if bytes = [] ∨ bytes.getLast? ≠ some lineFeed ∨ carriageReturn ∈ bytes then .error framingError
  else do
    let _ ← (String.fromUTF8? bytes.toByteArray).elim (.error (.new .jsonSyntax)) .ok
    let framing ← (chunks chunkSize bytes).zipIdx.foldlM (frameChunk reader chunkSize bytes) ⟨0, []⟩
    if framing.start ≠ bytes.length ∨ framing.records = [] then .error framingError
    else .ok ⟨bytes, framing.records⟩

def parseOwned (bytes : List UInt8) : Except AdapterError FramedCapture := parseOwnedIn reader frameScanChunkBytes bytes

end

section

def IsRecord (reader : JsonReader) (record : List UInt8) : Prop :=
  0 < record.length ∧ record.length ≤ maxCodexRecordBytes ∧
    ∃ fields, reader.parse record = some (.obj fields) ∧ KeepsLimits codexRecordLimits (.obj fields)

/-- The records of a capture: the plain split at its line feeds, without the empty text behind the last of them. -/
def plainRecords (bytes : List UInt8) : List (List UInt8) := (bytes.splitOn lineFeed).dropLast

/-- The framing that an attachment must have. -/
structure WellFramed (reader : JsonReader) (bytes : List UInt8) : Prop where
  size : bytes.length ≤ maxCodexJsonlBytes
  ended : bytes.getLast? = some lineFeed
  noReturn : carriageReturn ∉ bytes
  utf8 : bytes.toByteArray.IsValidUTF8
  count : (plainRecords bytes).length ≤ maxCodexRecords
  records : ∀ record ∈ plainRecords bytes, IsRecord reader record

/-- The ranges of records that follow one another from an offset on. -/
def rangesFrom : Nat → List (List UInt8) → List ByteRange
  | _, [] => []
  | start, record :: rest => ⟨start, start + record.length⟩ :: rangesFrom (start + record.length + 1) rest

variable {reader : JsonReader}

theorem scanRecord_eq_ok {index : Nat} {record : List UInt8} : scanRecord reader index record = .ok () ↔
    ∃ fields, reader.parse record = some (.obj fields) ∧ KeepsLimits codexRecordLimits (.obj fields) := by
  have passed : scanRecord reader index record = .ok () ↔ scanJsonWithLimits reader codexRecordLimits record = .ok .object := by
    unfold scanRecord
    split <;> simp_all
  rw [passed, scanJsonWithLimits_eq_ok]
  constructor
  · rintro ⟨value, read, keeps, kind⟩
    cases value with
    | obj fields => exact ⟨fields, read, keeps⟩
    | _ => cases kind
  · rintro ⟨fields, read, keeps⟩
    exact ⟨_, read, keeps, rfl⟩

theorem checkedOffset_eq_ok {value result : Nat} : checkedOffset value = .ok result ↔ value < 2 ^ 64 ∧ result = value := by
  unfold checkedOffset
  split <;> simp_all [eq_comm]

theorem frameRecord_eq_ok {before record rest : List UInt8} {seen : List ByteRange} {framing : Framing}
    (fits : before.length + record.length + 1 < 2 ^ 64) :
    frameRecord reader (before ++ (record ++ rest)) ⟨before.length, seen⟩ (before.length + record.length) = .ok framing ↔
      IsRecord reader record ∧ seen.length ≠ maxCodexRecords ∧
        framing = ⟨before.length + record.length + 1, seen ++ [⟨before.length, before.length + record.length⟩]⟩ := by
  have slice : ByteRange.slice ⟨before.length, before.length + record.length⟩ (before ++ (record ++ rest)) = record := by
    rw [ByteRange.slice, List.drop_left, Nat.add_sub_cancel_left, List.take_left]
  rw [frameRecord, guard_eq_ok]
  simp only [Nat.add_sub_cancel_left, slice]
  rw [guard_eq_ok, guard_eq_ok, bind_eq_ok]
  simp only [bind_eq_ok, checkedOffset_eq_ok, Except.ok.injEq, not_or, Nat.not_lt, IsRecord]
  constructor
  · rintro ⟨-, ⟨some, short⟩, room, ⟨⟩, object, start, ⟨-, rfl⟩, rfl⟩
    exact ⟨⟨Nat.pos_of_ne_zero some, short, scanRecord_eq_ok.1 object⟩, room, rfl⟩
  · rintro ⟨⟨some, short, object⟩, room, rfl⟩
    exact ⟨Nat.le_add_right _ _, ⟨Nat.ne_of_gt some, short⟩, room, ⟨⟩, scanRecord_eq_ok.2 object, _, ⟨fits, rfl⟩, rfl⟩

variable {records : List (List UInt8)}

theorem frameRecords_eq_ok {before : List UInt8} {seen : List ByteRange} {framing : Framing}
    (fits : before.length + (joined records).length < 2 ^ 64) (room : seen.length ≤ maxCodexRecords) :
    ((rangesFrom before.length records).map ByteRange.stop).foldlM (frameRecord reader (before ++ joined records)) ⟨before.length, seen⟩ =
        .ok framing ↔
      (∀ record ∈ records, IsRecord reader record) ∧ seen.length + records.length ≤ maxCodexRecords ∧
        framing = ⟨before.length + (joined records).length, seen ++ rangesFrom before.length records⟩ := by
  induction records generalizing before seen with
  | nil =>
    rw [rangesFrom, List.map_nil, List.foldlM_nil]
    constructor
    · intro same
      obtain rfl := Except.ok.inj same
      exact ⟨nofun, room, by rw [List.append_nil]; rfl⟩
    · rintro ⟨-, -, rfl⟩
      rw [List.append_nil]
      rfl
  | cons record rest ih =>
    rw [joined_cons, List.length_append, List.length_cons] at fits
    have behind : (before ++ (record ++ [lineFeed])).length = before.length + record.length + 1 := by
      rw [List.length_append, List.length_append, List.length_singleton, Nat.add_assoc]
    have whole : before ++ (record ++ lineFeed :: joined rest) = before ++ (record ++ [lineFeed]) ++ joined rest := by
      rw [List.append_assoc, List.append_assoc, List.singleton_append]
    have later (seen : List ByteRange) (room : seen.length ≤ maxCodexRecords) :=
      @ih (before ++ (record ++ [lineFeed])) seen (by rw [behind]; omega) room
    simp only [behind, ← whole] at later
    rw [joined_cons, rangesFrom, List.map_cons, List.foldlM_cons, bind_eq_ok]
    simp only [frameRecord_eq_ok (show before.length + record.length + 1 < 2 ^ 64 by omega)]
    have total : before.length + record.length + 1 + (joined rest).length = before.length + (record ++ lineFeed :: joined rest).length := by
      rw [List.length_append, List.length_cons]
      omega
    constructor
    · rintro ⟨middle, ⟨isRecord, notFull, rfl⟩, remaining⟩
      have size : (seen ++ [ByteRange.mk before.length (before.length + record.length)]).length = seen.length + 1 := by simp
      obtain ⟨others, count, rfl⟩ := (later _ (by omega)).1 remaining
      refine ⟨List.forall_mem_cons.2 ⟨isRecord, others⟩, by rw [List.length_cons]; omega, ?_⟩
      rw [total, List.append_assoc, List.singleton_append]
    · rintro ⟨each, count, rfl⟩
      obtain ⟨isRecord, others⟩ := List.forall_mem_cons.1 each
      rw [List.length_cons] at count
      have size : (seen ++ [ByteRange.mk before.length (before.length + record.length)]).length = seen.length + 1 := by simp
      refine ⟨_, ⟨isRecord, by omega, rfl⟩, (later _ (by omega)).2 ⟨others, by omega, ?_⟩⟩
      rw [total, List.append_assoc, List.singleton_append]

theorem feeds_joined (single : ∀ record ∈ records, lineFeed ∉ record) (start : Nat) :
    (feeds (joined records)).map (start + ·) = (rangesFrom start records).map ByteRange.stop := by
  induction records generalizing start with
  | nil => rfl
  | cons record rest ih =>
    obtain ⟨here, later⟩ := List.forall_mem_cons.1 single
    have front : feeds (record ++ [lineFeed]) = [record.length] := by
      rw [feeds_append, feeds_of_notMem here]
      rfl
    have split : joined (record :: rest) = (record ++ [lineFeed]) ++ joined rest := by
      rw [joined_cons, List.append_assoc, List.singleton_append]
    rw [split, feeds_append, front, List.map_append, List.map_map, rangesFrom, List.map_cons (l := rangesFrom _ rest), ← ih later,
      List.length_append, List.length_singleton]
    simp only [List.map_cons, List.map_nil, List.singleton_append, Function.comp_def, Nat.add_assoc]

variable {bytes : List UInt8}

theorem frameChunk_eq {chunkSize index : Nat} (fits : bytes.length < 2 ^ 64) (inside : index * chunkSize < bytes.length)
    (framing : Framing) : frameChunk reader chunkSize bytes framing ((bytes.drop (index * chunkSize)).take chunkSize, index) =
      ((feeds ((bytes.drop (index * chunkSize)).take chunkSize)).map (index * chunkSize + ·)).foldlM (frameRecord reader bytes) framing := by
  have start : checkedOffset (index * chunkSize) = .ok (index * chunkSize) := checkedOffset_eq_ok.2 ⟨by omega, rfl⟩
  have places : ∀ place ∈ feeds ((bytes.drop (index * chunkSize)).take chunkSize), index * chunkSize + place < 2 ^ 64 := by
    intro place member
    have below := feeds_lt member
    rw [List.length_take, List.length_drop] at below
    omega
  rw [frameChunk, start, List.foldlM_map]
  show List.foldlM (frameFeed reader bytes (index * chunkSize)) framing _ = _
  generalize feeds ((bytes.drop (index * chunkSize)).take chunkSize) = ends at places
  induction ends generalizing framing with
  | nil => rfl
  | cons place rest ih =>
    obtain ⟨here, later⟩ := List.forall_mem_cons.1 places
    have step : frameFeed reader bytes (index * chunkSize) framing place = frameRecord reader bytes framing (index * chunkSize + place) := by
      rw [frameFeed, checkedOffset_eq_ok.2 ⟨here, rfl⟩]
      rfl
    rw [List.foldlM_cons, List.foldlM_cons, step]
    congr 1
    funext next
    exact ih next later

theorem foldChunks_eq {chunkSize : Nat} (positive : 0 < chunkSize) (fits : bytes.length < 2 ^ 64) (framing : Framing) :
    (chunks chunkSize bytes).zipIdx.foldlM (frameChunk reader chunkSize bytes) framing =
      (feeds bytes).foldlM (frameRecord reader bytes) framing := by
  have initial : ∀ count ≤ (bytes.length + chunkSize - 1) / chunkSize,
      (((List.range count).map fun index => (bytes.drop (index * chunkSize)).take chunkSize).zipIdx).foldlM
        (frameChunk reader chunkSize bytes) framing = (feeds (bytes.take (count * chunkSize))).foldlM (frameRecord reader bytes) framing := by
    intro count
    induction count with
    | zero =>
      intro _
      rw [Nat.zero_mul]
      rfl
    | succ count ih =>
      intro bound
      have inside : count * chunkSize < bytes.length := by
        have product := (Nat.le_div_iff_mul_le positive).1 bound
        rw [Nat.succ_mul] at product
        omega
      have length : (bytes.take (count * chunkSize)).length = count * chunkSize := by
        rw [List.length_take]
        omega
      have last : ((List.range count).map fun index => (bytes.drop (index * chunkSize)).take chunkSize).length = count := by simp
      rw [List.range_succ, List.map_append, List.zipIdx_append, List.foldlM_append, ih (by omega), last, Nat.zero_add, List.map_singleton,
        List.zipIdx_singleton, Nat.succ_mul, List.take_add, feeds_append, length, List.foldlM_append]
      congr 1
      funext next
      rw [List.foldlM_cons, frameChunk_eq fits inside]
      simp
  have all := initial _ (Nat.le_refl _)
  rwa [List.take_of_length_le (length_le_chunks positive bytes)] at all

theorem plainRecords_joined (single : ∀ record ∈ records, lineFeed ∉ record) :
    plainRecords (joined records) = records := by
  rw [plainRecords, splitOn_joined single, List.dropLast_concat]

theorem fromUTF8_eq_some : (∃ text, String.fromUTF8? bytes.toByteArray = some text) ↔ bytes.toByteArray.IsValidUTF8 := by
  unfold String.fromUTF8?
  split <;> simp_all

theorem frameFeeds_eq_ok (single : ∀ record ∈ records, lineFeed ∉ record)
    (fits : (joined records).length < 2 ^ 64) {framing : Framing} :
    (feeds (joined records)).foldlM (frameRecord reader (joined records)) ⟨0, []⟩ = .ok framing ↔
      (∀ record ∈ records, IsRecord reader record) ∧ records.length ≤ maxCodexRecords ∧
        framing = ⟨(joined records).length, rangesFrom 0 records⟩ := by
  have places := feeds_joined single 0
  simp only [Nat.zero_add, List.map_id'] at places
  have loop := @frameRecords_eq_ok reader records [] [] framing (by simpa using fits) (Nat.zero_le _)
  simp only [List.nil_append, List.length_nil, Nat.zero_add] at loop
  rw [places, loop]

/-- The parser accepts the well-framed captures, with the ranges of the plain split. -/
theorem parseOwnedIn_eq_ok {chunkSize : Nat} (positive : 0 < chunkSize) {framed : FramedCapture} :
    parseOwnedIn reader chunkSize bytes = .ok framed ↔
      WellFramed reader bytes ∧ framed = ⟨bytes, rangesFrom 0 (plainRecords bytes)⟩ := by
  have limit : maxCodexJsonlBytes < 2 ^ 64 := by decide
  rw [parseOwnedIn, guard_eq_ok, guard_eq_ok, bind_eq_ok, Nat.not_lt]
  simp only [not_or, not_not, elim_eq_ok, bind_eq_ok, guard_eq_ok, Except.ok.injEq]
  constructor
  · rintro ⟨size, ⟨-, ended, noReturn⟩, text, decoded, framing, loop, ⟨-, -⟩, rfl⟩
    obtain ⟨records, rfl, single⟩ := exists_joined_of_ended ended
    rw [foldChunks_eq positive (by omega), frameFeeds_eq_ok single (by omega)] at loop
    obtain ⟨each, count, rfl⟩ := loop
    have plain := plainRecords_joined single
    refine ⟨⟨size, ended, noReturn, fromUTF8_eq_some.1 ⟨text, decoded⟩, ?_, ?_⟩, by rw [plain]⟩
    · rwa [plain]
    · rwa [plain]
  · rintro ⟨framed, rfl⟩
    obtain ⟨records, rfl, single⟩ := exists_joined_of_ended framed.ended
    have plain := plainRecords_joined single
    have size := framed.size
    have some : records ≠ [] := by
      rintro rfl
      exact absurd framed.ended nofun
    have loop : (chunks chunkSize (joined records)).zipIdx.foldlM (frameChunk reader chunkSize (joined records)) ⟨0, []⟩ = .ok
        ⟨(joined records).length, rangesFrom 0 records⟩ := by
      rw [foldChunks_eq positive (by omega), frameFeeds_eq_ok single (by omega)]
      exact ⟨plain ▸ framed.records, plain ▸ framed.count, rfl⟩
    have nonempty : joined records ≠ [] := by
      intro empty
      have ended := framed.ended
      rw [empty] at ended
      cases ended
    have ranged : rangesFrom 0 records ≠ [] := by
      cases records with
      | nil => exact absurd rfl some
      | cons record rest => exact List.cons_ne_nil _ _
    obtain ⟨text, decoded⟩ := fromUTF8_eq_some.2 framed.utf8
    exact ⟨framed.size, ⟨nonempty, framed.ended, framed.noReturn⟩, text, decoded, _, loop, ⟨rfl, ranged⟩, by rw [plain]⟩

theorem parseOwnedIn_chunks {chunkSize other : Nat} (positive : 0 < chunkSize) (otherPositive : 0 < other) (bytes : List UInt8) :
    parseOwnedIn reader chunkSize bytes = parseOwnedIn reader other bytes := by
  have limit : maxCodexJsonlBytes < 2 ^ 64 := by decide
  by_cases size : maxCodexJsonlBytes < bytes.length
  · rw [parseOwnedIn, parseOwnedIn, if_pos size, if_pos size]
  · rw [parseOwnedIn, parseOwnedIn, foldChunks_eq positive (by omega), foldChunks_eq otherPositive (by omega)]

theorem slices_rangesFrom (before : List UInt8) (records : List (List UInt8)) :
    (rangesFrom before.length records).map (·.slice (before ++ joined records)) = records := by
  induction records generalizing before with
  | nil => rfl
  | cons record rest ih =>
    have behind : (before ++ (record ++ [lineFeed])).length = before.length + record.length + 1 := by
      rw [List.length_append, List.length_append, List.length_singleton, Nat.add_assoc]
    have later := ih (before ++ (record ++ [lineFeed]))
    rw [behind, List.append_assoc, List.append_assoc, List.singleton_append] at later
    rw [rangesFrom, List.map_cons, joined_cons, later, ByteRange.slice, List.drop_left, Nat.add_sub_cancel_left, List.take_left]

theorem start_le_of_mem {start : Nat} {range : ByteRange} (member : range ∈ rangesFrom start records) :
    start ≤ range.start := by
  induction records generalizing start with
  | nil => cases member
  | cons record rest ih =>
    rcases List.mem_cons.1 member with rfl | later
    · exact Nat.le_refl start
    · have bound := ih later
      omega

theorem rangesFrom_ascending (start : Nat) (records : List (List UInt8)) :
    (rangesFrom start records).Pairwise fun earlier later => earlier.stop < later.start := by
  induction records generalizing start with
  | nil => exact List.Pairwise.nil
  | cons record rest ih =>
    refine List.pairwise_cons.2 ⟨fun range member => ?_, ih _⟩
    have bound := start_le_of_mem member
    show start + record.length < range.start
    omega

theorem exists_record_of_mem {start : Nat} {range : ByteRange} (member : range ∈ rangesFrom start records) :
    ∃ record ∈ records, range.stop = range.start + record.length ∧ range.stop < start + (joined records).length := by
  induction records generalizing start with
  | nil => cases member
  | cons record rest ih =>
    rw [joined_cons, List.length_append, List.length_cons]
    rcases List.mem_cons.1 member with rfl | later
    · exact ⟨record, List.mem_cons_self, rfl, by show start + record.length < _; omega⟩
    · obtain ⟨other, listed, size, below⟩ := ih later
      exact ⟨other, List.mem_cons_of_mem record listed, size, by omega⟩

/-- The ranges leave out the line feeds and nothing else. -/
theorem covered_iff (single : ∀ record ∈ records, lineFeed ∉ record) {start place : Nat}
    (inside : place < (joined records).length) :
    (∃ range ∈ rangesFrom start records, range.start ≤ start + place ∧ start + place < range.stop) ↔
      (joined records)[place]? ≠ some lineFeed := by
  induction records generalizing start place with
  | nil => cases inside
  | cons record rest ih =>
    obtain ⟨here, later⟩ := List.forall_mem_cons.1 single
    rw [joined_cons, List.length_append, List.length_cons] at inside
    rw [rangesFrom, joined_cons]
    rcases Nat.lt_trichotomy place record.length with within | atFeed | behind
    · have byte : (record ++ lineFeed :: joined rest)[place]? ≠ some lineFeed := by
        rw [List.getElem?_append_left within]
        exact fun same => here (List.mem_of_getElem? same)
      exact iff_of_true ⟨_, List.mem_cons_self, Nat.le_add_right _ _, Nat.add_lt_add_left within start⟩ byte
    · have byte : (record ++ lineFeed :: joined rest)[place]? = some lineFeed := by
        rw [atFeed, List.getElem?_append_right (Nat.le_refl _), Nat.sub_self]
        rfl
      refine iff_of_false ?_ (not_not.2 byte)
      rintro ⟨range, member, low, high⟩
      rcases List.mem_cons.1 member with rfl | other
      · simp only at high
        omega
      · have bound := start_le_of_mem other
        omega
    · obtain ⟨beyond, rfl⟩ := Nat.exists_eq_add_of_lt behind
      have shift : (record ++ lineFeed :: joined rest)[record.length + beyond + 1]? = (joined rest)[beyond]? := by
        rw [List.getElem?_append_right (by omega), show record.length + beyond + 1 - record.length = beyond + 1 by omega,
          List.getElem?_cons_succ]
      have same : start + (record.length + beyond + 1) = start + record.length + 1 + beyond := by omega
      rw [shift, same, ← @ih later (start + record.length + 1) beyond (by omega)]
      constructor
      · rintro ⟨range, member, low, high⟩
        rcases List.mem_cons.1 member with rfl | other
        · simp only at high
          omega
        · exact ⟨range, other, low, high⟩
      · rintro ⟨range, member, between⟩
        exact ⟨range, List.mem_cons_of_mem _ member, between⟩

theorem parseOwned_eq_ok {framed : FramedCapture} : parseOwned reader bytes = .ok framed ↔
    WellFramed reader bytes ∧ framed = ⟨bytes, rangesFrom 0 (plainRecords bytes)⟩ := parseOwnedIn_eq_ok (by decide)

theorem parseOwned_bytes {framed : FramedCapture} (parsed : parseOwned reader bytes = .ok framed) :
    framed.bytes = bytes := by
  obtain ⟨-, rfl⟩ := parseOwned_eq_ok.1 parsed
  rfl

theorem parseOwned_slices {framed : FramedCapture} (parsed : parseOwned reader bytes = .ok framed) :
    framed.recordSlices = plainRecords bytes := by
  obtain ⟨wellFramed, rfl⟩ := parseOwned_eq_ok.1 parsed
  obtain ⟨records, rfl, single⟩ := exists_joined_of_ended wellFramed.ended
  rw [FramedCapture.recordSlices, plainRecords_joined single]
  exact slices_rangesFrom [] records

/-- Framing does not depend on how the bytes are cut into chunks, accepts exactly the well-framed captures, and finds the plain split:
ranges in order and apart, which leave out the line feeds alone and keep to the limit of a record. -/
theorem parseOwned_exact (reader : JsonReader) {chunkSize : Nat} (positive : 0 < chunkSize) (bytes : List UInt8) :
    parseOwnedIn reader chunkSize bytes = parseOwned reader bytes ∧
      ((∃ framed, parseOwned reader bytes = .ok framed) ↔ WellFramed reader bytes) ∧
      ∀ framed, parseOwned reader bytes = .ok framed → framed.bytes = bytes ∧ framed.recordSlices = plainRecords bytes ∧
        (framed.records.Pairwise fun earlier later => earlier.stop < later.start) ∧
        (∀ place < bytes.length,
          (∃ range ∈ framed.records, range.start ≤ place ∧ place < range.stop) ↔ bytes[place]? ≠ some lineFeed) ∧
        ∀ range ∈ framed.records, range.start < range.stop ∧ range.stop < bytes.length ∧
          range.stop - range.start ≤ maxCodexRecordBytes := by
  refine ⟨parseOwnedIn_chunks positive (by decide) bytes, ?_, ?_⟩
  · constructor
    · rintro ⟨framed, parsed⟩
      exact (parseOwned_eq_ok.1 parsed).1
    · intro wellFramed
      exact ⟨_, parseOwned_eq_ok.2 ⟨wellFramed, rfl⟩⟩
  · intro framed parsed
    have slices := parseOwned_slices parsed
    obtain ⟨wellFramed, rfl⟩ := parseOwned_eq_ok.1 parsed
    obtain ⟨records, rfl, single⟩ := exists_joined_of_ended wellFramed.ended
    have plain := plainRecords_joined single
    have covered := @covered_iff records single 0
    simp only [Nat.zero_add] at covered
    refine ⟨rfl, slices, rangesFrom_ascending 0 _, fun place inside => ?_, fun range member => ?_⟩
    · rw [plain]
      exact covered inside
    · obtain ⟨record, listed, size, below⟩ := exists_record_of_mem member
      obtain ⟨some, short, -⟩ := wellFramed.records record listed
      rw [plain] at below
      exact ⟨by omega, by omega, by omega⟩

theorem parseOwned_exact_pair : plainRecords (Utf8.bytes "\x7b\x7d\n\x7b\x7d\n") = [Utf8.bytes "\x7b\x7d", Utf8.bytes "\x7b\x7d"] ∧
    parseOwnedIn ⟨Json.readText, fun _ _ => .invalid⟩ 2 (Utf8.bytes "\x7b\x7d\n\x7b\x7d\n") =
      parseOwned ⟨Json.readText, fun _ _ => .invalid⟩ (Utf8.bytes "\x7b\x7d\n\x7b\x7d\n") :=
  ⟨by decide, (parseOwned_exact _ (by decide) _).1⟩

end

end Legitimacy.CodexExec
