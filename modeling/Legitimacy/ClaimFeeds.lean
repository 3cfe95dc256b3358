import Mathlib.Data.List.Induction
import Legitimacy.FloatOrder
import Legitimacy.Traverse

namespace Legitimacy

open ExceptRun

/-- A feed that lists each claim of a set once. -/
structure FeedOf (feed : List GovernanceClaim) (arrived : Set GovernanceClaim) : Prop where
  distinct : (feed.map (·.claimantId)).Nodup
  mem_iff : ∀ claim, claim ∈ feed ↔ claim ∈ arrived

theorem FeedOf.perm {first second : List GovernanceClaim} {arrived : Set GovernanceClaim} (isFirst : FeedOf first arrived)
    (isSecond : FeedOf second arrived) : first.Perm second :=
  (List.perm_ext_iff_of_nodup isFirst.distinct.of_map isSecond.distinct.of_map).2 fun claim =>
    (isFirst.mem_iff claim).trans (isSecond.mem_iff claim).symm

/-- The claims of a batch that validation accepted. -/
structure ValidBatch (claims : List GovernanceClaim) : Prop where
  valid : ∀ claim ∈ claims, validateGovernanceClaim claim = .ok ()
  distinct : (claims.map (·.claimantId)).Nodup

variable {claims : List GovernanceClaim}

theorem validBatch_of_validated (validated : validateGovernanceClaims claims = .ok ()) :
    ValidBatch claims := ⟨(validateGovernanceClaims_eq_ok.1 validated).1, (validateGovernanceClaims_eq_ok.1 validated).2⟩

theorem ValidBatch.eq_of_id (batch : ValidBatch claims) {first second : GovernanceClaim}
    (inFirst : first ∈ claims) (inSecond : second ∈ claims) (same : first.claimantId = second.claimantId) : first = second :=
  List.inj_on_of_nodup_map batch.distinct inFirst inSecond same

theorem sameAs_self {claim : GovernanceClaim} (valid : validateGovernanceClaim claim = .ok ()) : claim.sameAs claim = true := by
  unfold validateGovernanceClaim at valid
  rw [guard_eq_ok, guard_eq_ok, guard_eq_ok, forM_eq_ok] at valid
  obtain ⟨-, strong, -, metrics⟩ := valid
  have strength : (claim.strength == claim.strength) = true := FloatOrder.beq_self (by
    by_contra infinite
    exact strong (Or.inl infinite))
  have values : ∀ pairs : List (String × Float), (∀ pair ∈ pairs, validateMetric claim pair.1 pair.2 = .ok ()) →
      ((pairs.zip pairs).all fun pair => pair.1.1 == pair.2.1 && pair.1.2 == pair.2.2) = true := by
    intro pairs
    induction pairs with
    | nil => simp
    | cons pair rest ih =>
      intro finite
      have here : pair.2.isFinite = true := by
        by_contra infinite
        have checked := finite pair List.mem_cons_self
        simp [validateMetric, infinite] at checked
      rw [List.zip_cons_cons, List.all_cons, ih fun other member => finite other (List.mem_cons_of_mem pair member)]
      simp [FloatOrder.beq_self here]
  simp only [GovernanceClaim.sameAs, beq_self_eq_true, strength, Bool.and_self, Bool.true_and]
  exact values _ metrics

def isEscalation : Except LegitimacyError Decision → Bool
  | .ok .escalate => true
  | _ => false

theorem forwardedClaims_eq {decide : GovernanceClaim → Except LegitimacyError Decision}
    {decisions : List ClaimDecision}
    (decided : List.Forall₂ (fun claim decision => decide claim = .ok decision.decision ∧ decision.claimantId = claim.claimantId)
      claims decisions) : forwardedClaims claims decisions = claims.filter fun claim => isEscalation (decide claim) := by
  unfold forwardedClaims
  induction decided with
  | nil => rfl
  | @cons claim decision rest others here after ih =>
    rw [List.zip_cons_cons, List.filter_cons, List.filter_cons, here.1]
    cases made : decision.decision with
    | permit => simpa [isEscalation, made] using ih
    | deny => simpa [isEscalation, made] using ih
    | escalate =>
      simp only [here.2, made, and_self, decide_true, if_true, isEscalation, List.map_cons]
      exact congrArg _ ih

theorem mapM_zip_left {α β : Type} {next : α × β → Except LegitimacyError α} (values : List α) (others : List β)
    (long : values.length ≤ others.length) (kept : ∀ value ∈ values, ∀ other ∈ others, next (value, other) = .ok value) :
    (values.zip others).mapM next = .ok values := by
  induction values generalizing others with
  | nil => rfl
  | cons value rest ih =>
    cases others with
    | nil => simp at long
    | cons other more =>
      rw [List.zip_cons_cons, List.mapM_cons, kept value List.mem_cons_self other List.mem_cons_self]
      have again := ih more (by simpa using long) fun first inFirst second inSecond =>
        kept first (List.mem_cons_of_mem value inFirst) second (List.mem_cons_of_mem other inSecond)
      exact bind_eq_ok.2 ⟨value, rfl, bind_eq_ok.2 ⟨rest, again, rfl⟩⟩

/-- A modification applies to permitted claims, and only escalated claims travel: no edge changes what it carries. -/
theorem applyTransform_forwarded {decide : GovernanceClaim → Except LegitimacyError Decision}
    {decisions : List ClaimDecision} (distinct : (claims.map (·.claimantId)).Nodup)
    (decided : List.Forall₂ (fun claim decision => decide claim = .ok decision.decision ∧ decision.claimantId = claim.claimantId)
      claims decisions) (transform : EdgeTransform) :
    applyTransform transform (forwardedClaims claims decisions) decisions = .ok (forwardedClaims claims decisions) := by
  cases transform with
  | passThrough => rfl
  | claimModification delta =>
    rw [forwardedClaims_eq decided]
    refine mapM_zip_left _ _ ?_ ?_
    · rw [← decided.length_eq]
      exact List.length_filter_le _ _
    · intro claim member decision listed
      obtain ⟨inClaims, escalated⟩ := List.mem_filter.1 member
      refine if_neg ?_
      rintro ⟨sameId, permitted⟩
      obtain ⟨other, inOther, atOther, otherId⟩ : ∃ other ∈ claims, decide other = .ok decision.decision ∧
          decision.claimantId = other.claimantId := by
        obtain ⟨index, bound, atIndex⟩ := List.getElem_of_mem listed
        have inside : index < claims.length := by
          rw [decided.length_eq]
          exact bound
        have made := (List.forall₂_iff_get.1 decided).2 index inside bound
        exact ⟨claims.get ⟨index, inside⟩, List.get_mem claims ⟨index, inside⟩, by simpa [← atIndex] using made⟩
      have same : claim = other := List.inj_on_of_nodup_map distinct inClaims inOther (sameId.symm.trans otherId)
      rw [same, atOther, permitted] at escalated
      simp [isEscalation] at escalated

def Unites (claims : List GovernanceClaim) (merge : FeedMerger) : Prop :=
  ∀ node incoming additional, incoming ⊆ claims → additional ⊆ claims → (incoming.map (·.claimantId)).Nodup →
    ∃ merged, merge node incoming additional = .ok merged ∧ (merged.map (·.claimantId)).Nodup ∧
      ∀ claim, claim ∈ merged ↔ claim ∈ incoming ∨ claim ∈ additional

def Keyed (merged : BTreeMap ClaimantId GovernanceClaim) (listed : List GovernanceClaim) : Prop :=
  ∀ claimant claim, merged[claimant]? = some claim ↔ claim ∈ listed ∧ claim.claimantId = claimant

theorem Keyed.insertClaim {listed : List GovernanceClaim} (batch : ValidBatch claims) {merged : BTreeMap ClaimantId GovernanceClaim}
    (keyed : Keyed merged listed) {claim : GovernanceClaim} (subset : listed ++ [claim] ⊆ claims) (node : NodeId) :
    ∃ next, Legitimacy.insertClaim node merged claim = .ok next ∧ Keyed next (listed ++ [claim]) := by
  have inClaims : claim ∈ claims := subset (by simp)
  unfold Legitimacy.insertClaim
  cases found : merged[claim.claimantId]? with
  | some existing =>
    obtain ⟨earlier, sameId⟩ := (keyed claim.claimantId existing).1 found
    have same : existing = claim := batch.eq_of_id (subset (by simp [earlier])) inClaims sameId
    subst same
    refine ⟨merged, by simp [sameAs_self (batch.valid existing inClaims)], fun claimant other => ?_⟩
    rw [keyed claimant other, List.mem_append, List.mem_singleton]
    exact and_congr_left fun _ => ⟨Or.inl, fun listed => listed.elim id (· ▸ earlier)⟩
  | none =>
    refine ⟨merged.insert claim.claimantId claim, rfl, fun claimant other => ?_⟩
    rw [lookup_insert, List.mem_append, List.mem_singleton]
    by_cases sameId : claimant = claim.claimantId
    · subst sameId
      rw [if_pos rfl, Option.some.injEq]
      constructor
      · rintro rfl
        exact ⟨Or.inr rfl, rfl⟩
      · rintro ⟨earlier | rfl, otherId⟩
        · have there := (keyed claim.claimantId other).2 ⟨earlier, otherId⟩
          rw [found] at there
          cases there
        · rfl
    · rw [if_neg sameId, keyed claimant other]
      constructor
      · rintro ⟨earlier, otherId⟩
        exact ⟨Or.inl earlier, otherId⟩
      · rintro ⟨earlier | rfl, otherId⟩
        · exact ⟨earlier, otherId⟩
        · exact absurd otherId.symm sameId

theorem mergeClaimBatches_unites (batch : ValidBatch claims) : Unites claims mergeClaimBatches := by
  intro node incoming additional fromIncoming fromAdditional _
  have drawn : incoming ++ additional ⊆ claims := List.append_subset.2 ⟨fromIncoming, fromAdditional⟩
  obtain ⟨merged, run, keyed⟩ : ∃ merged, (incoming ++ additional).foldlM (insertClaim node) ∅ = .ok merged ∧
      Keyed merged (incoming ++ additional) :=
    foldlM_progress (fun done merged => Keyed merged done) (by simp [Keyed]) fun done claim rest merged split keyed =>
      keyed.insertClaim batch (fun other member => drawn (by rw [split]; simp at member ⊢; tauto)) node
  refine ⟨merged.toList.map (·.2), bind_eq_ok.2 ⟨merged, run, rfl⟩, ?_, fun claim => ?_⟩
  · have keys : (merged.toList.map (·.2)).map (·.claimantId) = merged.keys := by
      rw [← Std.ExtTreeMap.map_fst_toList_eq_keys, List.map_map]
      refine List.map_congr_left fun pair member => ?_
      exact ((keyed pair.1 pair.2).1 (Std.ExtTreeMap.mem_toList_iff_getElem?_eq_some.1 member)).2
    rw [keys]
    exact Std.ExtTreeMap.nodup_keys
  · rw [← List.mem_append]
    constructor
    · intro member
      obtain ⟨pair, listed, rfl⟩ := List.mem_map.1 member
      exact ((keyed pair.1 pair.2).1 (Std.ExtTreeMap.mem_toList_iff_getElem?_eq_some.1 listed)).1
    · intro member
      have found := (keyed claim.claimantId claim).2 ⟨member, rfl⟩
      exact List.mem_map.2 ⟨(claim.claimantId, claim), Std.ExtTreeMap.mem_toList_iff_getElem?_eq_some.2 found, rfl⟩

def Indexed (merged : BTreeMap ClaimantId Nat) (feed : List GovernanceClaim) : Prop :=
  ∀ claimant index, merged[claimant]? = some index ↔
    ∃ claim : GovernanceClaim, feed[index]? = some claim ∧ claim.claimantId = claimant

theorem Indexed.append {merged : BTreeMap ClaimantId Nat} {feed : List GovernanceClaim} (indexed : Indexed merged feed)
    {claim : GovernanceClaim} (fresh : claim.claimantId ∉ feed.map (·.claimantId)) :
    Indexed (merged.insert claim.claimantId feed.length) (feed ++ [claim]) := by
  intro claimant index
  rw [lookup_insert]
  by_cases sameId : claimant = claim.claimantId
  · subst sameId
    rw [if_pos rfl, Option.some.injEq]
    constructor
    · rintro rfl
      exact ⟨claim, by simp, rfl⟩
    · rintro ⟨other, atIndex, otherId⟩
      by_cases inside : index < feed.length
      · rw [List.getElem?_append_left inside] at atIndex
        exact absurd (List.mem_map.2 ⟨other, List.mem_of_getElem? atIndex, otherId⟩) fresh
      · have bound := (List.getElem?_eq_some_iff.1 atIndex).1
        simp only [List.length_append, List.length_singleton] at bound
        omega
  · rw [if_neg sameId, indexed claimant index]
    refine exists_congr fun other => and_congr_left fun otherId => ?_
    by_cases inside : index < feed.length
    · rw [List.getElem?_append_left inside]
    · rw [List.getElem?_append_right (by omega), List.getElem?_eq_none (by omega)]
      constructor
      · intro absurdity
        cases absurdity
      · intro last
        obtain ⟨bound, made⟩ := List.getElem?_eq_some_iff.1 last
        have same : claim = other := by simpa using made
        exact absurd (same ▸ otherId.symm) sameId

theorem claimIndices_indexed (feed : List GovernanceClaim) (distinct : (feed.map (·.claimantId)).Nodup) :
    Indexed (claimIndices feed) feed := by
  induction feed using List.reverseRecOn with
  | nil => simp [claimIndices, Indexed]
  | append_singleton feed claim ih =>
    rw [List.map_append, List.nodup_append] at distinct
    have extended : claimIndices (feed ++ [claim]) = (claimIndices feed).insert claim.claimantId feed.length := by
      simp [claimIndices, List.zipIdx_append]
    rw [extended]
    refine (ih distinct.1).append fun member => ?_
    exact distinct.2.2 claim.claimantId member claim.claimantId (by simp) rfl

theorem mergeSharedClaimBatches_unites (batch : ValidBatch claims) :
    Unites claims mergeSharedClaimBatches := by
  intro node incoming additional fromIncoming fromAdditional distinct
  obtain ⟨feed, run, indexed, listed, kept⟩ : ∃ feed, additional.foldlM (appendClaim node) (incoming, claimIndices incoming) = .ok feed ∧
      Indexed feed.2 feed.1 ∧ (feed.1.map (·.claimantId)).Nodup ∧ ∀ claim, claim ∈ feed.1 ↔ claim ∈ incoming ∨ claim ∈ additional := by
    refine foldlM_progress (fun done (feed : List GovernanceClaim × BTreeMap ClaimantId Nat) => Indexed feed.2 feed.1 ∧
      (feed.1.map (·.claimantId)).Nodup ∧ ∀ claim, claim ∈ feed.1 ↔ claim ∈ incoming ∨ claim ∈ done) ?_ ?_
    · exact ⟨claimIndices_indexed incoming distinct, distinct, by simp⟩
    · rintro done claim rest ⟨feed, merged⟩ split ⟨indexed, nodup, held⟩
      have inClaims : claim ∈ claims := fromAdditional (by simp [split])
      have feedIn : ∀ other ∈ feed, other ∈ claims := fun other member =>
        ((held other).1 member).elim (fromIncoming ·) fun inDone => fromAdditional (by simp [split, inDone])
      unfold appendClaim
      cases found : merged[claim.claimantId]? with
      | some index =>
        obtain ⟨other, atIndex, otherId⟩ := (indexed claim.claimantId index).1 found
        have otherIn := List.mem_of_getElem? atIndex
        have same : other = claim := batch.eq_of_id (feedIn other otherIn) inClaims otherId
        subst same
        refine ⟨(feed, merged), by simp [atIndex, sameAs_self (batch.valid other inClaims)], indexed, nodup, fun item => ?_⟩
        rw [held item, List.mem_append, List.mem_singleton]
        constructor
        · exact fun member => member.imp_right Or.inl
        · rintro (member | member | rfl)
          · exact Or.inl member
          · exact Or.inr member
          · exact (held item).1 otherIn
      | none =>
        have fresh : claim.claimantId ∉ feed.map (·.claimantId) := by
          intro member
          obtain ⟨other, otherIn, otherId⟩ := List.mem_map.1 member
          obtain ⟨index, bound, atIndex⟩ := List.getElem_of_mem otherIn
          have there := (indexed claim.claimantId index).2 ⟨other, by rw [List.getElem?_eq_getElem bound, atIndex], otherId⟩
          rw [found] at there
          cases there
        refine ⟨(feed ++ [claim], merged.insert claim.claimantId feed.length), by simp, indexed.append fresh, ?_, fun item => ?_⟩
        · rw [List.map_append, List.nodup_append]
          refine ⟨nodup, List.nodup_singleton _, ?_⟩
          rintro claimant member _ last rfl
          obtain rfl : claimant = claim.claimantId := by simpa using last
          exact fresh member
        · rw [List.mem_append, held item, List.mem_append, or_assoc]
  exact ⟨feed.1, bind_eq_ok.2 ⟨feed, run, rfl⟩, listed, kept⟩

end Legitimacy
