import Legitimacy.CodexExec.StreamInvariant

namespace Legitimacy.CodexExec

open ExceptRun

/-- When an item record may follow the records before it. -/
def ItemFollows (done : List ParsedRecord) (lifecycle : Lifecycle) (item : Item) : Prop :=
  if item.id ∈ itemIds done then
    ∃ reached moved, stage item.id done = some reached ∧ advance reached (lifecycle, item) = some moved
  else
    item.id = itemName (itemCount done) ∧ itemCount done + 1 < 2 ^ 64 ∧ (∃ moved, advance .fresh (lifecycle, item) = some moved) ∧
      (item.itemClass = .todoList → ∀ lifecycle' id items, .item lifecycle' (.todoList id items) ∉ done)

def TurnMayEnd (done : List ParsedRecord) : Prop := .turnStarted ∈ done ∧ ∀ id ∈ itemIds done, stage id done = some .closed

def RecordFollows (done : List ParsedRecord) : ParsedRecord → Prop
  | .threadStarted _ => done = []
  | .turnStarted => .turnStarted ∉ done ∧ done ≠ []
  | .error _ => True
  | .item lifecycle item => (.turnStarted ∈ done ∨ isItemDiagnostic lifecycle item = true) ∧ ItemFollows done lifecycle item
  | .turnCompleted _ => TurnMayEnd done
  | .turnFailed _ => TurnMayEnd done

/-- When a record may follow the records before it. -/
structure Follows (done : List ParsedRecord) (record : ParsedRecord) : Prop where
  running : ∀ earlier ∈ done, terminalOf earlier = none
  reconciling : (∃ id items, .item .completed (.todoList id items) ∈ done) → isReconciliationOrTerminal record = true
  record : RecordFollows done record

section

variable {done : List ParsedRecord} {state next : StreamState} {record : ParsedRecord} {lifecycle : Lifecycle} {item : Item}

theorem Tracks.running (tracks : Tracks done state) : state.terminal.isSome = false ↔ ∀ earlier ∈ done, terminalOf earlier = none := by
  rw [tracks.terminal, Option.isSome_eq_false_iff, Option.isNone_iff_eq_none, List.findSome?_eq_none_iff]

theorem stageIn_eq_closed {id : String} : stageIn state id = .closed ↔ state.active[id]? = none ∧ (state.seenItems[id]?).isSome = true := by
  unfold stageIn
  cases state.active[id]? with
  | none => simp
  | some started => cases started <;> simp

theorem Tracks.all_closed (tracks : Tracks done state) : state.active.isEmpty = true ↔ ∀ id ∈ itemIds done, stage id done = some .closed := by
  constructor
  · intro empty id member
    rw [tracks.stages id, stageIn_eq_closed.2 ⟨by simp [Std.ExtTreeMap.isEmpty_iff.1 empty], (tracks.seen id).2 member⟩]
  · intro closed
    rw [Std.ExtTreeMap.isEmpty_iff]
    ext id started
    simp only [Std.ExtTreeMap.getElem?_empty, reduceCtorEq, iff_false]
    intro found
    have seen : id ∈ itemIds done := (tracks.seen id).1 (by rw [tracks.classes id started found]; rfl)
    have stage := closed id seen
    rw [tracks.stages id, Option.some.injEq, stageIn_eq_closed, found] at stage
    cases stage.1

theorem Tracks.next_of_advance (tracks : Tracks done state) (seen : item.id ∈ itemIds done) {moved : Stage}
    (advanced : advance (stageIn state item.id) (lifecycle, item) = some moved) :
    ∃ started, NextRecord state started item ∧
      (lifecycle = .completed ∧ (item.itemClass = .command ∨ item.itemClass = .fileChange) ∨
        ∃ id items latest, item = .todoList id items ∧ state.todo = some ⟨id, latest, false⟩ ∧
          (lifecycle = .updated ∨ lifecycle = .completed ∧ latest = items)) := by
  have listedSeen := (tracks.seen item.id).2 seen
  cases found : state.active[item.id]? with
  | none =>
    rw [stageIn_eq_closed.2 ⟨found, listedSeen⟩, advance_closed] at advanced
    cases advanced
  | some started =>
    have classed := tracks.classes item.id started found
    refine ⟨started, ?_⟩
    cases started with
    | todoList other first =>
      obtain ⟨latest, listed⟩ := tracks.listed item.id other first found
      rw [stageIn, found] at advanced
      simp only [listed, Option.map_some, Option.getD_some] at advanced
      cases item with
      | todoList id items =>
        refine ⟨⟨classed, found, rfl⟩, .inr ⟨id, items, latest, rfl, listed, ?_⟩⟩
        cases lifecycle with
        | started => cases advanced
        | updated => exact .inl rfl
        | completed =>
          simp only [advance, Option.ite_none_right_eq_some] at advanced
          exact .inr ⟨rfl, advanced.1⟩
      | _ => cases lifecycle <;> cases advanced
    | command other first firstOutput firstCode firstStatus =>
      rw [stageIn, found] at advanced
      cases firstStatus <;> cases lifecycle <;> cases item <;> simp only [advance, reduceCtorEq, Option.ite_none_right_eq_some] at advanced
      obtain ⟨⟨ended, rfl⟩, -⟩ := advanced
      exact ⟨⟨classed, found, by simp [sameActiveItem, ended]⟩, .inl ⟨rfl, .inl rfl⟩⟩
    | fileChange other first firstStatus =>
      rw [stageIn, found] at advanced
      cases firstStatus <;> cases lifecycle <;> cases item <;> simp only [advance, reduceCtorEq, Option.ite_none_right_eq_some] at advanced
      obtain ⟨⟨ended, rfl⟩, -⟩ := advanced
      exact ⟨⟨classed, found, by simp [sameActiveItem, ended]⟩, .inl ⟨rfl, .inr rfl⟩⟩
    | _ =>
      rw [stageIn, found] at advanced
      cases lifecycle <;> cases item <;> cases advanced

theorem firstIsLegal_iff : firstIsLegal lifecycle item = true ↔ ∃ moved, advance .fresh (lifecycle, item) = some moved := by
  cases lifecycle <;> cases item <;> simp [firstIsLegal, advance]

theorem ItemStep.unseen_or_next (step : ItemStep state lifecycle item next) :
    FirstRecord state lifecycle item ∧ (item.itemClass = .todoList → state.todo = none) ∨ ∃ started, NextRecord state started item := by
  cases step with
  | note first kind => exact .inl ⟨first, fun todo => by simp [todo] at kind⟩
  | start first kind => exact .inl ⟨first, fun todo => by simp [todo] at kind⟩
  | startTodo first alone => exact .inl ⟨first, fun _ => alone⟩
  | complete again kind => exact .inr ⟨_, again⟩
  | updateTodo again listed => exact .inr ⟨_, again⟩
  | completeTodo again listed => exact .inr ⟨_, again⟩

section

variable (tracks : Tracks done state)

include tracks

theorem Tracks.item_follows (index : Nat) :
    (∃ next, validateItemId index lifecycle item state = .ok next) ↔ ItemFollows done lifecycle item := by
  have seenIff := tracks.seen item.id
  constructor
  · rintro ⟨next, run⟩
    have step := validateItemId_eq_ok run
    rcases step.unseen_or_next with ⟨first, alone⟩ | ⟨started, again⟩
    · have unseen : item.id ∉ itemIds done := by
        rw [← seenIff, first.unseen]
        simp
      rw [ItemFollows, if_neg unseen, ← tracks.count]
      exact ⟨first.canonical, first.bounded, firstIsLegal_iff.1 first.legal, fun todo => tracks.todo.1 (alone todo)⟩
    · have seen : item.id ∈ itemIds done := seenIff.1 (by rw [again.seen]; rfl)
      rw [ItemFollows, if_pos seen]
      exact ⟨_, _, tracks.stages item.id, tracks.own_stage step⟩
  · intro follows
    by_cases seen : item.id ∈ itemIds done
    · rw [ItemFollows, if_pos seen] at follows
      obtain ⟨reached, moved, atStage, advanced⟩ := follows
      obtain rfl := Option.some.inj ((tracks.stages item.id).symm.trans atStage)
      obtain ⟨started, again, kind⟩ := tracks.next_of_advance seen advanced
      exact validateItemId_of_next (tracks.short item.id seen) again kind
    · rw [ItemFollows, if_neg seen, ← tracks.count] at follows
      obtain ⟨canonical, bounded, legal, alone⟩ := follows
      have unseen : state.seenItems[item.id]? = none := by
        rw [← Option.not_isSome_iff_eq_none, seenIff]
        exact seen
      have short : item.id.utf8ByteSize ≤ 128 := by
        rw [canonical]
        exact itemName_short (by omega)
      obtain ⟨next, run⟩ := @validateFirst_of_step _ _ index _ ⟨unseen, canonical, bounded, firstIsLegal_iff.2 legal⟩
        fun todo => tracks.todo.2 (alone todo)
      refine ⟨next, ?_⟩
      rw [validateItemId, if_neg (Nat.not_lt.2 short), unseen]
      exact run

theorem Tracks.finish_follows {index : Nat} {terminal : Terminal} :
    (∃ next, finishTurn index terminal state = .ok next) ↔ TurnMayEnd done := by
  have open_iff : (!state.turnStarted || !state.active.isEmpty) = true ↔ ¬TurnMayEnd done := by
    rw [TurnMayEnd, ← tracks.turn, ← tracks.all_closed]
    cases state.turnStarted <;> simp
  unfold finishTurn
  by_cases ends : TurnMayEnd done
  · rw [if_neg fun blocked => open_iff.1 blocked ends]
    exact iff_of_true ⟨_, rfl⟩ ends
  · rw [if_pos (open_iff.2 ends)]
    exact iff_of_false (fun ⟨next, run⟩ => by cases run) ends

theorem Tracks.record_follows :
    (∃ next, validateRecord state (record, done.length) = .ok next) ↔ Follows done record := by
  have running := tracks.running
  have reconciling := tracks.reconciling
  have started := tracks.turn
  by_cases ended : state.terminal.isSome = true
  · have stopped : ¬Follows done record := fun follows => by
      rw [running.2 follows.running] at ended
      cases ended
    refine iff_of_false ?_ stopped
    rintro ⟨next, run⟩
    rw [validateRecord, if_pos ended] at run
    cases run
  have alive : ∀ earlier ∈ done, terminalOf earlier = none := running.1 (by simpa using ended)
  by_cases blocked : (state.reconcilingAfterTodo && !isReconciliationOrTerminal record) = true
  · rw [Bool.and_eq_true, Bool.not_eq_true'] at blocked
    have stopped : ¬Follows done record := fun follows => by
      have allowed := follows.reconciling (reconciling.1 blocked.1)
      rw [blocked.2] at allowed
      cases allowed
    refine iff_of_false ?_ stopped
    rintro ⟨next, run⟩
    rw [validateRecord, if_neg ended, if_pos (by simp [blocked])] at run
    cases run
  have reconciled : (∃ id items, .item .completed (.todoList id items) ∈ done) → isReconciliationOrTerminal record = true := by
    intro present
    rw [reconciling.2 present] at blocked
    simpa using blocked
  have rest : Follows done record ↔ RecordFollows done record := ⟨Follows.record, fun follows => ⟨alive, reconciled, follows⟩⟩
  rw [validateRecord, if_neg ended, if_neg blocked, rest]
  cases record with
  | threadStarted threadId =>
    show (∃ next, (if done.length = 0 then _ else _) = _) ↔ done = []
    cases done <;> simp
  | turnStarted =>
    show (∃ next, (if (!state.turnStarted && decide (0 < done.length)) = true then _ else _) = _) ↔ .turnStarted ∉ done ∧ done ≠ []
    rw [← started]
    cases state.turnStarted <;> cases done <;> simp
  | error message => exact iff_of_true ⟨_, rfl⟩ trivial
  | item lifecycle item =>
    show (∃ next, (if (!state.turnStarted && !isItemDiagnostic lifecycle item) = true then _ else _) = _) ↔ _ ∧ _
    rw [← started, ← tracks.item_follows done.length]
    by_cases early : (!state.turnStarted && !isItemDiagnostic lifecycle item) = true
    · rw [if_pos early]
      simp only [Bool.and_eq_true, Bool.not_eq_true'] at early
      simp [early]
    · rw [if_neg early, and_iff_right (by cases turned : state.turnStarted <;> simp_all)]
  | turnCompleted usage => exact tracks.finish_follows
  | turnFailed message => exact tracks.finish_follows

theorem Tracks.finish_step {index : Nat} {terminal : Terminal}
    (alive : ∀ earlier ∈ done, terminalOf earlier = none) (ends : terminalOf record = some terminal)
    (run : finishTurn index terminal state = .ok next) : Tracks (done ++ [record]) next := by
  obtain ⟨-, made⟩ := guard_eq_ok.1 run
  obtain rfl := Except.ok.inj made
  have other : itemRecord record = none := by cases record <;> first | rfl | cases ends
  have notTurn : record ≠ .turnStarted := by rintro rfl; cases ends
  have notItem : ∀ lifecycle item, ParsedRecord.item lifecycle item ≠ record := by rintro _ _ rfl; cases ends
  refine ⟨?_, ?_, ?_, ?_, ?_, ?_, tracks.classes, ?_, tracks.listed, ?_⟩
  · rw [tracks.turn, List.mem_append, List.mem_singleton]
    exact ⟨.inl, fun either => either.elim (fun before => before) fun same => absurd same.symm notTurn⟩
  · rw [List.findSome?_append, List.findSome?_eq_none_iff.2 alive]
    simp [ends]
  · rw [itemCount_concat_other other, tracks.count]
  · rw [itemIds_concat_other other]
    exact tracks.seen
  · rw [itemIds_concat_other other]
    exact tracks.short
  · intro id
    rw [stage_concat_other other]
    exact tracks.stages id
  · simp [tracks.todo, notItem]
  · simp [tracks.reconciling, notItem]

theorem Tracks.quiet_step {turnStarted : Bool} (other : itemRecord record = none)
    (runs : terminalOf record = none) (turn : turnStarted = true ↔ .turnStarted ∈ done ++ [record]) :
    Tracks (done ++ [record]) { state with turnStarted := turnStarted } := by
  have notItem : ∀ lifecycle item, ParsedRecord.item lifecycle item ≠ record := by rintro _ _ rfl; cases other
  refine ⟨turn, ?_, ?_, ?_, ?_, ?_, tracks.classes, ?_, tracks.listed, ?_⟩
  · rw [List.findSome?_append, tracks.terminal]
    simp [runs]
  · rw [itemCount_concat_other other, tracks.count]
  · rw [itemIds_concat_other other]
    exact tracks.seen
  · rw [itemIds_concat_other other]
    exact tracks.short
  · intro id
    rw [stage_concat_other other]
    exact tracks.stages id
  · simp [tracks.todo, notItem]
  · simp [tracks.reconciling, notItem]

theorem Tracks.record_step (run : validateRecord state (record, done.length) = .ok next) :
    Tracks (done ++ [record]) next := by
  have follows := tracks.record_follows.1 ⟨next, run⟩
  obtain ⟨-, run⟩ := guard_eq_ok.1 run
  obtain ⟨-, run⟩ := guard_eq_ok.1 run
  cases record with
  | threadStarted threadId =>
    dsimp only [acceptRecord] at run
    split at run
    · obtain rfl := Except.ok.inj run
      exact tracks.quiet_step rfl rfl (by simp [tracks.turn])
    · cases run
  | turnStarted =>
    dsimp only [acceptRecord] at run
    split at run
    · obtain rfl := Except.ok.inj run
      exact tracks.quiet_step rfl rfl (by simp)
    · cases run
  | error message =>
    obtain rfl := Except.ok.inj run
    exact tracks.quiet_step rfl rfl (by simp [tracks.turn])
  | item lifecycle item =>
    obtain ⟨-, run⟩ := guard_eq_ok.1 run
    exact tracks.item_step (validateItemId_eq_ok run)
  | turnCompleted usage => exact tracks.finish_step follows.running rfl run
  | turnFailed message => exact tracks.finish_step follows.running rfl run

end

end

def Admissible (records : List ParsedRecord) : Prop := ∀ before record after, records = before ++ record :: after → Follows before record

theorem admissible_concat {done : List ParsedRecord} {record : ParsedRecord} :
    Admissible (done ++ [record]) ↔ Admissible done ∧ Follows done record := by
  constructor
  · intro admissible
    refine ⟨fun before other after split => ?_, admissible done record [] rfl⟩
    exact admissible before other (after ++ [record]) (by simp [split])
  · rintro ⟨admissible, follows⟩ before other after split
    rcases List.eq_nil_or_concat after with rfl | ⟨middle, last, rfl⟩
    · obtain ⟨rfl, same⟩ := List.append_inj' split rfl
      exact List.singleton_inj.1 same ▸ follows
    · rw [List.concat_eq_append, ← List.cons_append, ← List.append_assoc] at split
      obtain ⟨split, -⟩ := List.append_inj' split rfl
      exact admissible before other middle split

theorem loop_concat (done : List ParsedRecord) (record : ParsedRecord) :
    (done ++ [record]).zipIdx.foldlM validateRecord StreamState.initial =
      done.zipIdx.foldlM validateRecord StreamState.initial >>= fun state => validateRecord state (record, done.length) := by
  rw [List.zipIdx_append, List.foldlM_append]
  simp

theorem loop_tracks {records : List ParsedRecord} {state : StreamState}
    (run : records.zipIdx.foldlM validateRecord .initial = .ok state) : Tracks records state := by
  induction records using List.reverseRecOn generalizing state with
  | nil =>
    obtain rfl := Except.ok.inj run
    exact tracks_initial
  | append_singleton done record ih =>
    rw [loop_concat] at run
    obtain ⟨before, earlier, step⟩ := bind_eq_ok.1 run
    exact (ih earlier).record_step step

theorem loop_admissible {records : List ParsedRecord} :
    (∃ state, records.zipIdx.foldlM validateRecord .initial = .ok state) ↔ Admissible records := by
  induction records using List.reverseRecOn with
  | nil => exact iff_of_true ⟨_, rfl⟩ fun before record after split => by simp at split
  | append_singleton done record ih =>
    rw [admissible_concat, ← ih, loop_concat]
    constructor
    · rintro ⟨next, run⟩
      obtain ⟨state, earlier, step⟩ := bind_eq_ok.1 run
      exact ⟨⟨state, earlier⟩, (loop_tracks earlier).record_follows.1 ⟨next, step⟩⟩
    · rintro ⟨⟨state, earlier⟩, follows⟩
      obtain ⟨next, step⟩ := (loop_tracks earlier).record_follows.2 follows
      exact ⟨next, bind_eq_ok.2 ⟨state, earlier, step⟩⟩

end Legitimacy.CodexExec
