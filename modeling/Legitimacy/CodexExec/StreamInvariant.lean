import Legitimacy.CodexExec.FreshTurn
import Legitimacy.Utf8

namespace Legitimacy.CodexExec

open ExceptRun

def countItem (item : Item) (state : StreamState) : StreamState :=
  { state with nextItem := state.nextItem + 1, seenItems := state.seenItems.insert item.id item.itemClass }

/-- The first record of `item` is canonical and legal. -/
structure FirstRecord (state : StreamState) (lifecycle : Lifecycle) (item : Item) : Prop where
  unseen : state.seenItems[item.id]? = none
  canonical : item.id = itemName state.nextItem
  bounded : state.nextItem + 1 < 2 ^ 64
  legal : firstIsLegal lifecycle item = true

/-- A further record of the active item `started`. -/
structure NextRecord (state : StreamState) (started item : Item) : Prop where
  seen : state.seenItems[item.id]? = some item.itemClass
  active : state.active[item.id]? = some started
  same : sameActiveItem started item = true

/-- What an accepted item record does to the variables of the loop. -/
inductive ItemStep (state : StreamState) : Lifecycle → Item → StreamState → Prop
  | note {lifecycle item} (first : FirstRecord state lifecycle item)
      (kind : item.itemClass = .agentMessage ∨ item.itemClass = .reasoning ∨ item.itemClass = .error) :
      ItemStep state lifecycle item (countItem item state)
  | start {lifecycle item} (first : FirstRecord state lifecycle item)
      (kind : item.itemClass = .command ∨ item.itemClass = .fileChange) :
      ItemStep state lifecycle item { countItem item state with active := state.active.insert item.id item }
  | startTodo {lifecycle id items} (first : FirstRecord state lifecycle (.todoList id items)) (alone : state.todo = none) :
      ItemStep state lifecycle (.todoList id items)
        { countItem (.todoList id items) state with
          todo := some ⟨id, items, false⟩
          active := state.active.insert id (.todoList id items) }
  | complete {started item} (again : NextRecord state started item)
      (kind : item.itemClass = .command ∨ item.itemClass = .fileChange) :
      ItemStep state .completed item { state with active := state.active.erase item.id }
  | updateTodo {started id items latest} (again : NextRecord state started (.todoList id items))
      (listed : state.todo = some ⟨id, latest, false⟩) :
      ItemStep state .updated (.todoList id items) { state with todo := some ⟨id, items, false⟩ }
  | completeTodo {started id items} (again : NextRecord state started (.todoList id items))
      (listed : state.todo = some ⟨id, items, false⟩) :
      ItemStep state .completed (.todoList id items)
        { state with
          todo := some ⟨id, items, true⟩
          active := state.active.erase id
          reconcilingAfterTodo := true }

theorem openTodo_eq_some {id : String} {todo : Option TodoLifecycle} {found : TodoLifecycle} :
    openTodo id todo = some found ↔ todo = some found ∧ found.id = id ∧ found.completed = false := by
  rw [openTodo, Option.filter_eq_some_iff, Bool.and_eq_true, beq_iff_eq, Bool.not_eq_true']

variable {lifecycle : Lifecycle} {state : StreamState}

theorem validateFirst_eq_ok {index : Nat} {item : Item} {next : StreamState}
    (unseen : state.seenItems[item.id]? = none) (run : validateFirst index lifecycle item state = .ok next) :
    ItemStep state lifecycle item next := by
  unfold validateFirst at run
  obtain ⟨canonical, run⟩ := guard_eq_ok.1 run
  obtain ⟨bounded, run⟩ := guard_eq_ok.1 run
  obtain ⟨legal, run⟩ := guard_eq_ok.1 run
  have first : FirstRecord state lifecycle item :=
    ⟨unseen, not_not.1 canonical, Nat.lt_of_not_le bounded, by simpa using legal⟩
  cases item with
  | agentMessage id text =>
    obtain rfl := Except.ok.inj run
    exact .note first (.inl rfl)
  | reasoning id text =>
    obtain rfl := Except.ok.inj run
    exact .note first (.inr (.inl rfl))
  | error id message =>
    obtain rfl := Except.ok.inj run
    exact .note first (.inr (.inr rfl))
  | command id command output exitCode status =>
    obtain rfl := Except.ok.inj run
    exact .start first (.inl rfl)
  | fileChange id changes status =>
    obtain rfl := Except.ok.inj run
    exact .start first (.inr rfl)
  | todoList id items =>
    obtain ⟨alone, run⟩ := guard_eq_ok.1 run
    obtain rfl := Except.ok.inj run
    exact .startTodo first (by simpa using alone)

theorem validateRecurrence_eq_ok {index : Nat} {item : Item} {previous : ItemClass} {next : StreamState}
    (seen : state.seenItems[item.id]? = some previous) (run : validateRecurrence index lifecycle item previous state = .ok next) :
    ItemStep state lifecycle item next := by
  unfold validateRecurrence at run
  obtain ⟨sameClass, run⟩ := guard_eq_ok.1 run
  obtain ⟨started, found, run⟩ := bind_eq_ok.1 run
  obtain ⟨same, run⟩ := guard_eq_ok.1 run
  have again : NextRecord state started item := ⟨by rw [seen, not_not.1 sameClass], elim_eq_ok.1 found, by simpa using same⟩
  cases item with
  | command id command output exitCode status =>
    cases lifecycle with
    | completed =>
      obtain rfl := Except.ok.inj run
      exact .complete again (.inl rfl)
    | _ => cases run
  | fileChange id changes status =>
    cases lifecycle with
    | completed =>
      obtain rfl := Except.ok.inj run
      exact .complete again (.inr rfl)
    | _ => cases run
  | todoList id items =>
    cases lifecycle with
    | started => cases run
    | updated =>
      obtain ⟨⟨other, latest, finished⟩, opened, run⟩ := bind_eq_ok.1 run
      obtain ⟨listed, sameId, unfinished⟩ := openTodo_eq_some.1 (elim_eq_ok.1 opened)
      obtain rfl : other = id := sameId
      obtain rfl : finished = false := unfinished
      obtain rfl := Except.ok.inj run
      exact .updateTodo again listed
    | completed =>
      obtain ⟨⟨other, latest, finished⟩, opened, run⟩ := bind_eq_ok.1 run
      obtain ⟨listed, sameId, unfinished⟩ := openTodo_eq_some.1 (elim_eq_ok.1 opened)
      obtain rfl : other = id := sameId
      obtain rfl : finished = false := unfinished
      obtain ⟨repeated, run⟩ := guard_eq_ok.1 run
      obtain rfl := Except.ok.inj run
      obtain rfl := not_not.1 repeated
      exact .completeTodo again listed
  | _ => cases lifecycle <;> cases run

theorem validateItemId_eq_ok {index : Nat} {item : Item} {next : StreamState}
    (run : validateItemId index lifecycle item state = .ok next) : ItemStep state lifecycle item next := by
  obtain ⟨-, run⟩ := guard_eq_ok.1 run
  cases seen : state.seenItems[item.id]? with
  | none =>
    rw [seen] at run
    exact validateFirst_eq_ok seen run
  | some previous =>
    rw [seen] at run
    exact validateRecurrence_eq_ok seen run

theorem validateFirst_of_step {index : Nat} {item : Item}
    (first : FirstRecord state lifecycle item) (alone : item.itemClass = .todoList → state.todo = none) :
    ∃ next, validateFirst index lifecycle item state = .ok next := by
  have bounded : ¬2 ^ 64 ≤ state.nextItem + 1 := Nat.not_le.2 first.bounded
  unfold validateFirst
  rw [if_neg (not_not.2 first.canonical), if_neg bounded, first.legal]
  cases item with
  | todoList id items => simp [alone rfl]
  | _ => exact ⟨_, rfl⟩

theorem validateItemId_of_next {index : Nat} {item started : Item}
    (short : item.id.utf8ByteSize ≤ 128) (again : NextRecord state started item)
    (kind : lifecycle = .completed ∧ (item.itemClass = .command ∨ item.itemClass = .fileChange) ∨
      ∃ id items latest, item = .todoList id items ∧ state.todo = some ⟨id, latest, false⟩ ∧
        (lifecycle = .updated ∨ lifecycle = .completed ∧ latest = items)) :
    ∃ next, validateItemId index lifecycle item state = .ok next := by
  have recurs : validateItemId index lifecycle item state = validateRecurrence index lifecycle item item.itemClass state := by
    rw [validateItemId, if_neg (Nat.not_lt.2 short), again.seen]
  have notDifferent : ¬(!sameActiveItem started item) = true := by simp [again.same]
  rw [recurs]
  unfold validateRecurrence
  simp only [guard_eq_ok, bind_eq_ok, elim_eq_ok]
  rcases kind with ⟨rfl, command⟩ | ⟨id, items, latest, rfl, listed, rfl | ⟨rfl, rfl⟩⟩
  · cases item with
    | command => exact ⟨_, not_not.2 rfl, started, again.active, notDifferent, rfl⟩
    | fileChange => exact ⟨_, not_not.2 rfl, started, again.active, notDifferent, rfl⟩
    | _ => simp [Item.itemClass] at command
  · refine ⟨{ state with todo := some ⟨id, items, false⟩ }, not_not.2 rfl, started, again.active, notDifferent, ?_⟩
    exact bind_eq_ok.2 ⟨_, elim_eq_ok.2 (openTodo_eq_some.2 ⟨listed, rfl, rfl⟩), rfl⟩
  · refine ⟨{ state with todo := some ⟨id, latest, true⟩, active := state.active.erase id, reconcilingAfterTodo := true },
      not_not.2 rfl, started, again.active, notDifferent, ?_⟩
    exact bind_eq_ok.2 ⟨_, elim_eq_ok.2 (openTodo_eq_some.2 ⟨listed, rfl, rfl⟩), if_neg (not_not.2 rfl)⟩

section

variable {done : List ParsedRecord} {record : ParsedRecord} {lifecycle : Lifecycle} {item : Item} {id : String}

theorem mem_itemIds : id ∈ itemIds done ↔ ∃ lifecycle item, .item lifecycle item ∈ done ∧ item.id = id := by
  simp only [itemIds, itemRecords, List.mem_map, List.mem_filterMap]
  constructor
  · rintro ⟨entry, ⟨record, member, made⟩, rfl⟩
    cases record <;> simp only [itemRecord, reduceCtorEq, Option.some.injEq] at made
    subst made
    exact ⟨_, _, member, rfl⟩
  · rintro ⟨lifecycle, item, member, rfl⟩
    exact ⟨(lifecycle, item), ⟨_, member, rfl⟩, rfl⟩

theorem itemRecords_concat : itemRecords (done ++ [record]) = itemRecords done ++ (itemRecord record).toList := by
  rw [itemRecords, List.filterMap_append]
  cases made : itemRecord record <;> simp [itemRecords, made]

theorem itemIds_concat_item : itemIds (done ++ [.item lifecycle item]) = itemIds done ++ [item.id] := by
  rw [itemIds, itemRecords_concat, List.map_append]
  rfl

theorem itemIds_concat_other (other : itemRecord record = none) : itemIds (done ++ [record]) = itemIds done := by
  rw [itemIds, itemRecords_concat, other]
  simp [itemIds]

theorem stage_concat_other (other : itemRecord record = none) : stage id (done ++ [record]) = stage id done := by
  rw [stage, occurrences, itemRecords_concat, other]
  simp [stage, occurrences]

theorem stage_concat_item : stage id (done ++ [.item lifecycle item]) =
    if item.id = id then (stage id done).bind fun reached => advance reached (lifecycle, item) else stage id done := by
  rw [stage, occurrences, itemRecords_concat, List.filter_append]
  by_cases same : item.id = id
  · rw [if_pos same, stage, ← stageAfter_concat]
    simp [itemRecord, same, occurrences]
  · simp [itemRecord, same, occurrences, stage]

theorem itemCount_concat_item : itemCount (done ++ [.item lifecycle item]) =
    if item.id ∈ itemIds done then itemCount done else itemCount done + 1 := by
  rw [itemCount, itemIds_concat_item, List.eraseDups_append]
  by_cases seen : item.id ∈ itemIds done
  · simp [seen, itemCount, List.removeAll]
  · simp [seen, itemCount, List.removeAll, List.eraseDups_cons]

theorem itemCount_concat_other (other : itemRecord record = none) : itemCount (done ++ [record]) = itemCount done := by
  rw [itemCount, itemIds_concat_other other, itemCount]

theorem stage_unseen (unseen : id ∉ itemIds done) : stage id done = some .fresh := by
  have none : occurrences id done = [] := by
    refine List.filter_eq_nil_iff.2 fun entry member same => ?_
    exact unseen (List.mem_map.2 ⟨entry, member, by simpa using same⟩)
  rw [stage, none]
  rfl

end

/-- The stage of an item as the variables of the loop hold it. -/
def stageIn (state : StreamState) (id : String) : Stage :=
  match state.active[id]? with
  | some (.todoList _ _) => .listing ((state.todo.map (·.latestItems)).getD [])
  | some started => .executing started
  | none => if (state.seenItems[id]?).isSome then .closed else .fresh

/-- The variables of the loop describe the records read so far. -/
structure Tracks (done : List ParsedRecord) (state : StreamState) : Prop where
  turn : state.turnStarted = true ↔ .turnStarted ∈ done
  terminal : state.terminal = done.findSome? terminalOf
  count : state.nextItem = itemCount done
  seen : ∀ id : String, (state.seenItems[id]?).isSome ↔ id ∈ itemIds done
  short : ∀ id ∈ itemIds done, id.utf8ByteSize ≤ 128
  stages : ∀ id, stage id done = some (stageIn state id)
  classes : ∀ (id : String) (started : Item), state.active[id]? = some started → state.seenItems[id]? = some started.itemClass
  todo : state.todo = none ↔ ∀ lifecycle id items, .item lifecycle (.todoList id items) ∉ done
  listed : ∀ (id other : String) items, state.active[id]? = some (.todoList other items) → ∃ latest, state.todo = some ⟨id, latest, false⟩
  reconciling : state.reconcilingAfterTodo = true ↔ ∃ id items, .item .completed (.todoList id items) ∈ done

theorem tracks_initial : Tracks [] .initial where
  turn := by simp [StreamState.initial]
  terminal := rfl
  count := rfl
  seen id := by simp [StreamState.initial, itemIds, itemRecords]
  short id member := by simp [itemIds, itemRecords] at member
  stages id := by simp [StreamState.initial, stage, stageAfter, stageIn, occurrences, itemRecords]
  classes id started found := by simp [StreamState.initial] at found
  todo := by simp [StreamState.initial]
  listed id other items found := by simp [StreamState.initial] at found
  reconciling := by simp [StreamState.initial]

theorem stageIn_congr {next : StreamState} {id : String} (active : next.active[id]? = state.active[id]?)
    (seen : (next.seenItems[id]?).isSome = (state.seenItems[id]?).isSome)
    (todo : ∀ other items, state.active[id]? = some (.todoList other items) → next.todo = state.todo) :
    stageIn next id = stageIn state id := by
  unfold stageIn
  rw [active, seen]
  cases found : state.active[id]? with
  | none => rfl
  | some started =>
    cases started with
    | todoList other items => rw [todo other items found]
    | _ => rfl

theorem Tracks.inactive {done : List ParsedRecord} {id : String} (tracks : Tracks done state)
    (unseen : state.seenItems[id]? = none) : state.active[id]? = none := by
  cases found : state.active[id]? with
  | none => rfl
  | some started =>
    have classed := tracks.classes id started found
    rw [unseen] at classed
    cases classed

theorem Tracks.noListing {done : List ParsedRecord} {id other : String} {items : List Todo}
    (tracks : Tracks done state) (alone : state.todo = none) : state.active[id]? ≠ some (.todoList other items) := by
  intro found
  obtain ⟨latest, listed⟩ := tracks.listed id other items found
  rw [alone] at listed
  cases listed

section

variable {done : List ParsedRecord} {state next : StreamState} {lifecycle : Lifecycle} {item : Item}

theorem ItemStep.frame (step : ItemStep state lifecycle item next) :
    next.turnStarted = state.turnStarted ∧ next.terminal = state.terminal := by
  cases step <;> exact ⟨rfl, rfl⟩

theorem Tracks.count_step (tracks : Tracks done state) (step : ItemStep state lifecycle item next) :
    next.nextItem = itemCount (done ++ [.item lifecycle item]) := by
  have seenIff := tracks.seen item.id
  rw [itemCount_concat_item, ← tracks.count]
  cases step with
  | note first kind => rw [if_neg (by rw [← seenIff, first.unseen]; simp)]; rfl
  | start first kind => rw [if_neg (by rw [← seenIff, first.unseen]; simp)]; rfl
  | startTodo first alone => rw [if_neg (by rw [← seenIff, first.unseen]; simp)]; rfl
  | complete again kind => rw [if_pos (by rw [← seenIff, again.seen]; rfl)]
  | updateTodo again listed => rw [if_pos (by rw [← seenIff, again.seen]; rfl)]
  | completeTodo again listed => rw [if_pos (by rw [← seenIff, again.seen]; rfl)]

theorem Tracks.seen_step (tracks : Tracks done state) (step : ItemStep state lifecycle item next) (id : String) :
    (next.seenItems[id]?).isSome ↔ id ∈ itemIds (done ++ [.item lifecycle item]) := by
  have seenIff := tracks.seen id
  have inserted : ((state.seenItems.insert item.id item.itemClass)[id]?).isSome ↔ id ∈ itemIds (done ++ [.item lifecycle item]) := by
    rw [lookup_insert, itemIds_concat_item, List.mem_append, ← seenIff, List.mem_singleton]
    by_cases same : id = item.id <;> simp [same]
  have kept : (state.seenItems[item.id]?).isSome →
      ((state.seenItems[id]?).isSome ↔ id ∈ itemIds (done ++ [.item lifecycle item])) := by
    intro seen
    rw [itemIds_concat_item, List.mem_append, ← seenIff, List.mem_singleton]
    exact ⟨Or.inl, fun either => either.elim (fun before => before) fun same => same ▸ seen⟩
  cases step with
  | note first kind => exact inserted
  | start first kind => exact inserted
  | startTodo first alone => exact inserted
  | complete again kind => exact kept (by rw [again.seen]; rfl)
  | updateTodo again listed => exact kept (by rw [again.seen]; rfl)
  | completeTodo again listed => exact kept (by rw [again.seen]; rfl)

theorem itemName_short {index : Nat} (bounded : index < 2 ^ 64) : (itemName index).utf8ByteSize ≤ 128 := by
  have digits := Utf8.utf8ByteSize_repr_le (by decide : 0 < 20) (lt_trans bounded (by decide : 2 ^ 64 < 10 ^ 20))
  have label : "item_".utf8ByteSize = 5 := rfl
  rw [itemName, String.utf8ByteSize_append]
  omega

theorem Tracks.short_step (tracks : Tracks done state) (step : ItemStep state lifecycle item next) (id : String)
    (member : id ∈ itemIds (done ++ [.item lifecycle item])) : id.utf8ByteSize ≤ 128 := by
  rw [itemIds_concat_item, List.mem_append, List.mem_singleton] at member
  rcases member with before | rfl
  · exact tracks.short id before
  · have first : FirstRecord state lifecycle item → item.id.utf8ByteSize ≤ 128 := by
      intro first
      have bounded := first.bounded
      rw [first.canonical]
      exact itemName_short (by omega)
    have again : ∀ started, NextRecord state started item → item.id.utf8ByteSize ≤ 128 :=
      fun started again => tracks.short item.id ((tracks.seen item.id).1 (by rw [again.seen]; rfl))
    cases step with
    | note record kind => exact first record
    | start record kind => exact first record
    | startTodo record alone => exact first record
    | complete record kind => exact again _ record
    | updateTodo record listed => exact again _ record
    | completeTodo record listed => exact again _ record

theorem NextRecord.todoList {started : Item} {id : String} {items : List Todo} (again : NextRecord state started (.todoList id items)) :
    ∃ other first, started = .todoList other first := by
  have same := again.same
  cases started with
  | todoList other first => exact ⟨other, first, rfl⟩
  | command other command output exitCode status => cases status <;> cases same
  | fileChange other changes status => cases status <;> cases same
  | _ => cases same

/-- The record moves its own item as the stage machine does. -/
theorem Tracks.own_stage (tracks : Tracks done state) (step : ItemStep state lifecycle item next) :
    advance (stageIn state item.id) (lifecycle, item) = some (stageIn next item.id) := by
  have fresh : state.seenItems[item.id]? = none → stageIn state item.id = .fresh := by
    intro unseen
    rw [stageIn, tracks.inactive unseen, unseen]
    rfl
  cases step with
  | note first kind =>
    have legal := first.legal
    rw [fresh first.unseen, stageIn]
    simp only [countItem, tracks.inactive first.unseen, lookup_insert, if_true]
    cases lifecycle <;> cases item <;> simp [Item.itemClass] at kind <;> first | rfl | cases legal
  | start first kind =>
    have legal := first.legal
    rw [fresh first.unseen, stageIn]
    simp only [countItem, lookup_insert, if_true]
    cases lifecycle <;> cases item <;> simp [Item.itemClass] at kind <;> first | rfl | cases legal
  | startTodo first alone =>
    have legal := first.legal
    rw [fresh first.unseen, stageIn]
    simp only [Item.id, lookup_insert, if_true]
    cases lifecycle <;> first | rfl | cases legal
  | complete again kind =>
    rename_i started
    have same := again.same
    have ended : stageIn { state with active := state.active.erase item.id } item.id = .closed := by
      rw [stageIn]
      simp [again.seen]
    rw [ended, stageIn, again.active]
    cases item with
    | command id command output exitCode status =>
      cases started with
      | command other first firstOutput firstCode firstStatus =>
        cases firstStatus <;> simp [sameActiveItem] at same
        simp [advance, same]
      | fileChange other changes firstStatus => cases firstStatus <;> cases same
      | _ => cases same
    | fileChange id changes status =>
      cases started with
      | fileChange other first firstStatus =>
        cases firstStatus <;> simp [sameActiveItem] at same
        simp [advance, same]
      | command other first firstOutput firstCode firstStatus => cases firstStatus <;> cases same
      | _ => cases same
    | _ => simp [Item.itemClass] at kind
  | updateTodo again listed =>
    obtain ⟨other, first, rfl⟩ := again.todoList
    rw [stageIn, stageIn, again.active]
    rfl
  | completeTodo again listed =>
    obtain ⟨other, first, rfl⟩ := again.todoList
    have seen := again.seen
    rw [stageIn, stageIn, again.active, listed]
    simp only [Item.id] at seen ⊢
    simp [seen, advance]

theorem Tracks.other_stage (tracks : Tracks done state) (step : ItemStep state lifecycle item next) {id : String}
    (apart : item.id ≠ id) : stageIn next id = stageIn state id := by
  have apart' : id ≠ item.id := apart.symm
  have inserted : ((state.seenItems.insert item.id item.itemClass)[id]?).isSome = (state.seenItems[id]?).isSome := by
    rw [lookup_insert, if_neg apart']
  cases step with
  | note first kind => exact stageIn_congr rfl inserted fun _ _ _ => rfl
  | start first kind => exact stageIn_congr (by rw [lookup_insert, if_neg apart']) inserted fun _ _ _ => rfl
  | startTodo first alone =>
    exact stageIn_congr (by simp only [Item.id] at apart'; rw [lookup_insert, if_neg apart']) inserted
      fun other items found => absurd found (tracks.noListing alone)
  | complete again kind => exact stageIn_congr (by rw [lookup_erase, if_neg apart']) rfl fun _ _ _ => rfl
  | updateTodo again listed =>
    refine stageIn_congr rfl rfl fun other items found => ?_
    obtain ⟨latest, listedThere⟩ := tracks.listed id other items found
    rw [listed] at listedThere
    cases listedThere
    exact absurd rfl apart
  | completeTodo again listed =>
    simp only [Item.id] at apart'
    refine stageIn_congr (by rw [lookup_erase, if_neg apart']) rfl fun other items found => ?_
    obtain ⟨latest, listedThere⟩ := tracks.listed id other items found
    rw [listed] at listedThere
    cases listedThere
    exact absurd rfl apart'

theorem Tracks.stages_step (tracks : Tracks done state) (step : ItemStep state lifecycle item next) (id : String) :
    stage id (done ++ [.item lifecycle item]) = some (stageIn next id) := by
  rw [stage_concat_item, tracks.stages id]
  by_cases own : item.id = id
  · subst own
    rw [if_pos rfl]
    exact tracks.own_stage step
  · rw [if_neg own, tracks.other_stage step own]

theorem Tracks.classes_step (tracks : Tracks done state) (step : ItemStep state lifecycle item next) (id : String) (started : Item)
    (found : next.active[id]? = some started) : next.seenItems[id]? = some started.itemClass := by
  have inserted : ∀ other : String, state.seenItems[item.id]? = none → state.active[other]? = some started →
      (state.seenItems.insert item.id item.itemClass)[other]? = some started.itemClass := by
    intro other unseen active
    have classed := tracks.classes other started active
    rw [lookup_insert, if_neg, classed]
    rintro rfl
    rw [unseen] at classed
    cases classed
  cases step with
  | note first kind => exact inserted id first.unseen found
  | start first kind =>
    rw [lookup_insert] at found
    split at found
    · subst id
      obtain rfl := Option.some.inj found
      simp [countItem]
    · exact inserted id first.unseen found
  | startTodo first alone =>
    rw [lookup_insert] at found
    split at found
    · subst id
      obtain rfl := Option.some.inj found
      simp [countItem, Item.id]
    · exact inserted id first.unseen found
  | complete again kind =>
    rw [lookup_erase] at found
    split at found
    · cases found
    · exact tracks.classes id started found
  | updateTodo again listed => exact tracks.classes id started found
  | completeTodo again listed =>
    rw [lookup_erase] at found
    split at found
    · cases found
    · exact tracks.classes id started found

theorem noTodo_concat (notTodo : item.itemClass ≠ .todoList) :
    (∀ lifecycle' id items, .item lifecycle' (.todoList id items) ∉ done ++ [ParsedRecord.item lifecycle item]) ↔
      ∀ lifecycle' id items, .item lifecycle' (.todoList id items) ∉ done := by
  have differs : ∀ lifecycle' id items, (ParsedRecord.item lifecycle' (.todoList id items)) ≠ .item lifecycle item := by
    intro lifecycle' id items same
    injection same with _ same
    exact notTodo (by rw [← same]; rfl)
  simp [List.mem_append, differs]

theorem Tracks.todo_step (tracks : Tracks done state) (step : ItemStep state lifecycle item next) :
    next.todo = none ↔ ∀ lifecycle' id items, .item lifecycle' (.todoList id items) ∉ done ++ [ParsedRecord.item lifecycle item] := by
  have present : ∀ lifecycle' id items, ¬∀ lifecycle'' id' items', .item lifecycle'' (.todoList id' items') ∉
      done ++ [ParsedRecord.item lifecycle' (.todoList id items)] :=
    fun lifecycle' id items absent => absent lifecycle' id items (by simp)
  cases step with
  | note first kind =>
    rw [noTodo_concat (by rcases kind with kind | kind | kind <;> rw [kind] <;> decide)]
    exact tracks.todo
  | start first kind =>
    rw [noTodo_concat (by rcases kind with kind | kind <;> rw [kind] <;> decide)]
    exact tracks.todo
  | complete again kind =>
    rw [noTodo_concat (by rcases kind with kind | kind <;> rw [kind] <;> decide)]
    exact tracks.todo
  | startTodo first alone => exact iff_of_false (Option.some_ne_none _) (present _ _ _)
  | updateTodo again listed => exact iff_of_false (Option.some_ne_none _) (present _ _ _)
  | completeTodo again listed => exact iff_of_false (Option.some_ne_none _) (present _ _ _)

theorem Tracks.listed_step (tracks : Tracks done state) (step : ItemStep state lifecycle item next) (id other : String)
    (items : List Todo) (found : next.active[id]? = some (.todoList other items)) : ∃ latest, next.todo = some ⟨id, latest, false⟩ := by
  cases step with
  | note first kind => exact tracks.listed id other items found
  | start first kind =>
    rw [lookup_insert] at found
    split at found
    · obtain rfl := Option.some.inj found
      simp [Item.itemClass] at kind
    · exact tracks.listed id other items found
  | startTodo first alone =>
    rw [lookup_insert] at found
    split at found
    · subst id
      exact ⟨_, rfl⟩
    · exact absurd found (tracks.noListing alone)
  | complete again kind =>
    rw [lookup_erase] at found
    split at found
    · cases found
    · exact tracks.listed id other items found
  | updateTodo again listed =>
    obtain ⟨latest, listedThere⟩ := tracks.listed id other items found
    rw [listed] at listedThere
    cases listedThere
    exact ⟨_, rfl⟩
  | completeTodo again listed =>
    rw [lookup_erase] at found
    split at found
    · cases found
    · rename_i apart
      obtain ⟨latest, listedThere⟩ := tracks.listed id other items found
      rw [listed] at listedThere
      cases listedThere
      exact absurd rfl apart

theorem Tracks.reconciling_step (tracks : Tracks done state) (step : ItemStep state lifecycle item next) :
    next.reconcilingAfterTodo = true ↔ ∃ id items, .item .completed (.todoList id items) ∈ done ++ [ParsedRecord.item lifecycle item] := by
  have kept : (∀ id items, ParsedRecord.item .completed (.todoList id items) ≠ .item lifecycle item) →
      (state.reconcilingAfterTodo = true ↔
        ∃ id items, .item .completed (.todoList id items) ∈ done ++ [ParsedRecord.item lifecycle item]) := by
    intro differs
    rw [tracks.reconciling]
    simp [List.mem_append, differs]
  cases step with
  | note first kind =>
    refine kept fun id items same => ?_
    injection same with _ same
    simp [← same, Item.itemClass] at kind
  | start first kind =>
    refine kept fun id items same => ?_
    injection same with _ same
    simp [← same, Item.itemClass] at kind
  | complete again kind =>
    refine kept fun id items same => ?_
    injection same with _ same
    simp [← same, Item.itemClass] at kind
  | startTodo first alone =>
    refine kept fun id items same => ?_
    injection same with early _
    have legal := first.legal
    rw [← early] at legal
    cases legal
  | updateTodo again listed => exact kept fun id items same => by cases same
  | completeTodo again listed =>
    rename_i started id items
    exact iff_of_true rfl ⟨id, items, by simp⟩

theorem Tracks.item_step (tracks : Tracks done state) (step : ItemStep state lifecycle item next) :
    Tracks (done ++ [.item lifecycle item]) next where
  turn := by
    rw [step.frame.1, tracks.turn]
    simp
  terminal := by
    rw [step.frame.2, tracks.terminal, List.findSome?_append]
    simp [terminalOf]
  count := tracks.count_step step
  seen := tracks.seen_step step
  short := tracks.short_step step
  stages := tracks.stages_step step
  classes := tracks.classes_step step
  todo := tracks.todo_step step
  listed := tracks.listed_step step
  reconciling := tracks.reconciling_step step

end

end Legitimacy.CodexExec
