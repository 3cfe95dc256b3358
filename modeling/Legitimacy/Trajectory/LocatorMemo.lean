import Legitimacy.Trajectory.Names

namespace Legitimacy.Trajectory

open ExceptRun

def ValidationState.fresh : ValidationState := ⟨[], 0⟩

section

variable (sha256 : List UInt8 → Digest) (rawRecords : List (List UInt8))

/-- A locator that cites some bytes of a record, with the digest of exactly these. -/
structure LocatorValid (locator : SourceLocator) : Prop where
  nonempty : locator.byteLength ≠ 0
  cites : ∃ record, rawRecords[locator.recordIndex.toNat]? = some record ∧
    locator.byteOffset.toNat + locator.byteLength.toNat ≤ record.length ∧
    locator.digest = sourceLocatorDigest sha256 ((record.drop locator.byteOffset.toNat).take locator.byteLength.toNat)

/-- Every remembered digest is the one of its range, and every range has been hashed once. -/
structure MemoSound (state : ValidationState) : Prop where
  digests : ∀ locator digest, state.locatorDigests.lookup locator.range = some digest →
    ∃ bytes, locate rawRecords locator = .ok bytes ∧ digest = sourceLocatorDigest sha256 bytes
  once : (state.locatorDigests.map Prod.fst).Nodup
  hashes : state.locatorHashes = state.locatorDigests.length

variable {sha256} {rawRecords} {locator : SourceLocator} {state next : ValidationState}

theorem memoSound_fresh : MemoSound sha256 rawRecords .fresh := ⟨nofun, List.nodup_nil, rfl⟩

theorem locate_congr {other : SourceLocator} (same : locator.range = other.range) : locate rawRecords locator = locate rawRecords other := by
  simp only [SourceLocator.range, Prod.mk.injEq] at same
  obtain ⟨record, offset, length⟩ := same
  unfold locate
  rw [record, offset, length]

theorem locate_eq_ok (short : ∀ record ∈ rawRecords, record.length < 2 ^ 64) {bytes : List UInt8} : locate rawRecords locator = .ok bytes ↔
    ∃ record, rawRecords[locator.recordIndex.toNat]? = some record ∧ locator.byteOffset.toNat + locator.byteLength.toNat ≤ record.length ∧
      bytes = (record.drop locator.byteOffset.toNat).take locator.byteLength.toNat := by
  unfold locate
  rw [bind_eq_ok]
  constructor
  · rintro ⟨record, found, run⟩
    obtain ⟨-, run⟩ := guard_eq_ok.1 run
    obtain ⟨inside, made⟩ := guard_eq_ok.1 run
    exact ⟨record, elim_eq_ok.1 found, Nat.not_lt.1 inside, (Except.ok.inj made).symm⟩
  · rintro ⟨record, found, inside, rfl⟩
    have small := short record (List.mem_of_getElem? found)
    exact ⟨record, elim_eq_ok.2 found, guard_eq_ok.2 ⟨Nat.not_le.2 (Nat.lt_of_le_of_lt inside small), guard_eq_ok.2 ⟨Nat.not_lt.2 inside, rfl⟩⟩⟩

theorem locatorDigest_eq (sound : MemoSound sha256 rawRecords state) :
    (locatorDigest sha256 rawRecords state locator).map Prod.fst = (locate rawRecords locator).map (sourceLocatorDigest sha256) := by
  unfold locatorDigest
  split
  case h_1 digest remembered =>
    obtain ⟨bytes, located, rfl⟩ := sound.digests locator digest remembered
    rw [located]
    rfl
  case h_2 =>
    cases locate rawRecords locator with
    | error failure => rfl
    | ok bytes => rfl

theorem locatorDigest_sound (sound : MemoSound sha256 rawRecords state) {digest : String}
    (run : locatorDigest sha256 rawRecords state locator = .ok (digest, next)) : MemoSound sha256 rawRecords next := by
  unfold locatorDigest at run
  split at run
  case h_1 =>
    cases run
    exact sound
  case h_2 absent =>
    obtain ⟨bytes, located, made⟩ := bind_eq_ok.1 run
    cases made
    refine ⟨fun other digest found => ?_, ?_, congrArg (· + 1) sound.hashes⟩
    · rw [List.lookup_cons] at found
      split at found
      case h_1 same =>
        obtain rfl := Option.some.inj found
        exact ⟨bytes, (locate_congr (eq_of_beq same)).trans located, rfl⟩
      case h_2 => exact sound.digests other digest found
    · refine List.nodup_cons.2 ⟨fun member => ?_, sound.once⟩
      obtain ⟨entry, remembered, same⟩ := List.mem_map.1 member
      exact absurd absent (List.lookup_eq_none_iff.not.2 fun all => (bne_iff_ne.1 (all entry remembered)) same.symm)

/-- What a check of one locator answers, whatever has been remembered. -/
theorem validateLocator_answer (sound : MemoSound sha256 rawRecords state) :
    (validateLocator sha256 rawRecords state locator).map (fun _ => ()) = (do
      validateDigest "source-locator digest" locator.digest
      if locator.byteLength = 0 then invalid "source locator byte_length must be nonzero"
      else
        let located ← locate rawRecords locator
        if locator.digest ≠ sourceLocatorDigest sha256 located then invalid "source locator digest does not match the sealed bytes" else .ok ()) := by
  have digest := @locatorDigest_eq sha256 rawRecords locator state sound
  unfold validateLocator
  cases validateDigest "source-locator digest" locator.digest with
  | error failure => rfl
  | ok shape =>
    dsimp only [bind, Except.bind]
    split
    · rfl
    cases located : locate rawRecords locator with
    | error failure =>
      rw [located] at digest
      cases found : locatorDigest sha256 rawRecords state locator with
      | error other =>
        rw [found] at digest
        obtain rfl : other = failure := Except.error.inj digest
        rfl
      | ok result =>
        rw [found] at digest
        cases digest
    | ok bytes =>
      rw [located] at digest
      cases found : locatorDigest sha256 rawRecords state locator with
      | error other =>
        rw [found] at digest
        cases digest
      | ok result =>
        obtain ⟨actual, next⟩ := result
        rw [found] at digest
        obtain rfl : actual = _ := Except.ok.inj digest
        dsimp only
        split <;> rfl

theorem validateLocator_sound (sound : MemoSound sha256 rawRecords state) (run : validateLocator sha256 rawRecords state locator = .ok next) :
    MemoSound sha256 rawRecords next := by
  obtain ⟨⟨⟩, -, run⟩ := bind_eq_ok.1 run
  obtain ⟨-, run⟩ := guard_eq_ok.1 run
  obtain ⟨⟨actual, between⟩, found, run⟩ := bind_eq_ok.1 run
  obtain ⟨-, made⟩ := guard_eq_ok.1 run
  exact Except.ok.inj made ▸ locatorDigest_sound sound found

theorem validateLocators_memo (sound : MemoSound sha256 rawRecords state) (locators : List SourceLocator) :
    (locators.foldlM (validateLocator sha256 rawRecords) state).map (fun _ => ()) =
      locators.forM fun locator => (validateLocator sha256 rawRecords .fresh locator).map fun _ => () := by
  induction locators generalizing state with
  | nil => rfl
  | cons locator rest ih =>
    have same := (validateLocator_answer sound).trans (@validateLocator_answer sha256 rawRecords locator .fresh memoSound_fresh).symm
    rw [List.forM_eq_forM]
    rw [List.foldlM_cons, List.forM_cons, ← same]
    cases run : validateLocator sha256 rawRecords state locator with
    | error failure => rfl
    | ok next =>
      have later := ih (validateLocator_sound sound run)
      rw [List.forM_eq_forM] at later
      exact later

end

end Legitimacy.Trajectory
