import Legitimacy.CodexExec.StreamLanguage
import Std.Data.String.ToNat

namespace Legitimacy.CodexExec

open ExceptRun

section

variable {id : String} {done : List ParsedRecord}

theorem occurrences_same : ∀ entry ∈ occurrences id done, entry.2.id = id := by
  intro entry member
  simpa using (List.mem_filter.1 member).2

theorem mem_occurrences {entry : Lifecycle × Item} :
    entry ∈ occurrences id done ↔ .item entry.1 entry.2 ∈ done ∧ entry.2.id = id := by
  simp only [occurrences, itemRecords, List.mem_filter, List.mem_filterMap, beq_iff_eq]
  constructor
  · rintro ⟨⟨record, member, made⟩, same⟩
    cases record <;> simp only [itemRecord, reduceCtorEq, Option.some.injEq] at made
    subst made
    exact ⟨member, same⟩
  · rintro ⟨member, same⟩
    exact ⟨⟨_, member, rfl⟩, same⟩

theorem occurrences_append (before after : List ParsedRecord) :
    occurrences id (before ++ after) = occurrences id before ++ occurrences id after := by
  rw [occurrences, itemRecords, List.filterMap_append, List.filter_append]
  rfl

theorem todo_of_listing {latest : List Todo} (atStage : stage id done = some (.listing latest)) :
    ∃ lifecycle items, .item lifecycle (.todoList id items) ∈ done := by
  have reached := reached_of_stageAfter occurrences_same atStage
  have member : ∀ {entries : List (Lifecycle × Item)} {reached : Stage}, Reached id entries reached → reached = .listing latest →
      ∃ lifecycle items, (lifecycle, Item.todoList id items) ∈ entries := by
    intro entries reached history listing
    cases history with
    | @listing first updates => exact ⟨_, first, List.mem_cons_self⟩
    | _ => cases listing
  obtain ⟨lifecycle, items, present⟩ := member reached rfl
  exact ⟨lifecycle, items, (mem_occurrences.1 present).1⟩

theorem not_fresh_of_seen (seen : id ∈ itemIds done) : stage id done ≠ some .fresh := by
  intro atStage
  have history := reached_of_stageAfter occurrences_same atStage
  obtain ⟨lifecycle, item, member, same⟩ := mem_itemIds.1 seen
  have present : (lifecycle, item) ∈ occurrences id done := mem_occurrences.2 ⟨member, same⟩
  generalize occurrences id done = entries at history present
  cases history
  cases present

end

section

variable {records : List ParsedRecord}

theorem Admissible.numbered (admissible : Admissible records) :
    (itemIds records).eraseDups = (List.range (itemCount records)).map itemName ∧ itemCount records < 2 ^ 64 := by
  induction records using List.reverseRecOn with
  | nil => exact ⟨rfl, by decide⟩
  | append_singleton done record ih =>
    obtain ⟨earlier, follows⟩ := admissible_concat.1 admissible
    obtain ⟨names, bound⟩ := ih earlier
    cases record with
    | item lifecycle item =>
      have itemFollows := follows.record.2
      rw [itemCount_concat_item, itemIds_concat_item, List.eraseDups_append]
      by_cases seen : item.id ∈ itemIds done
      · simp [seen, List.removeAll, names]
        exact bound
      · rw [ItemFollows, if_neg seen] at itemFollows
        have fresh : ([item.id].removeAll (itemIds done)).eraseDups = [item.id] := by
          simp [seen, List.removeAll, List.eraseDups_cons]
        rw [if_neg seen, fresh, names, List.range_succ, List.map_append, itemFollows.1]
        exact ⟨rfl, itemFollows.2.1⟩
    | _ =>
      rw [itemIds_concat_other rfl, itemCount_concat_other rfl]
      exact ⟨names, bound⟩

theorem Admissible.oneTodo (admissible : Admissible records) : ∃ listed, ∀ lifecycle id items,
    .item lifecycle (.todoList id items) ∈ records → id = listed := by
  induction records using List.reverseRecOn with
  | nil => exact ⟨"", fun lifecycle id items member => by cases member⟩
  | append_singleton done record ih =>
    obtain ⟨earlier, follows⟩ := admissible_concat.1 admissible
    obtain ⟨listed, all⟩ := ih earlier
    by_cases todo : ∃ lifecycle id items, record = .item lifecycle (.todoList id items)
    · obtain ⟨lifecycle, id, items, rfl⟩ := todo
      have itemFollows := follows.record.2
      refine ⟨id, fun lifecycle' id' items' member => ?_⟩
      rcases List.mem_append.1 member with before | last
      · by_cases seen : id ∈ itemIds done
        · rw [ItemFollows, Item.id, if_pos seen] at itemFollows
          obtain ⟨reached, moved, atStage, advanced⟩ := itemFollows
          cases reached with
          | fresh => exact absurd atStage (not_fresh_of_seen seen)
          | listing latest =>
            obtain ⟨first, firstItems, present⟩ := todo_of_listing atStage
            exact (all _ _ _ before).trans (all _ _ _ present).symm
          | closed =>
            rw [advance_closed] at advanced
            cases advanced
          | executing started => cases started <;> cases lifecycle <;> simp [advance] at advanced
        · rw [ItemFollows, Item.id, if_neg seen] at itemFollows
          exact absurd before (itemFollows.2.2.2 rfl lifecycle' id' items')
      · have same := List.mem_singleton.1 last
        injection same with _ same
        injection same
    · refine ⟨listed, fun lifecycle id items member => ?_⟩
      rcases List.mem_append.1 member with before | last
      · exact all lifecycle id items before
      · exact absurd ⟨lifecycle, id, items, (List.mem_singleton.1 last).symm⟩ todo

theorem Admissible.ends (admissible : Admissible records) {before after : List ParsedRecord} {record : ParsedRecord}
    (split : records = before ++ record :: after) (terminal : (terminalOf record).isSome) : after = [] := by
  cases after with
  | nil => rfl
  | cons next rest =>
    have follows := admissible (before ++ [record]) next rest (by simp [split])
    have runs := follows.running record (by simp)
    rw [runs] at terminal
    cases terminal

theorem turnMayEnd_of_follows {done : List ParsedRecord} {record : ParsedRecord} (follows : RecordFollows done record)
    (terminal : (terminalOf record).isSome) : TurnMayEnd done := by
  cases record <;> first | exact follows | cases terminal

end

/-- An admissible stream with a terminal record follows the documented rules. -/
theorem Admissible.freshTurn {records : List ParsedRecord} (admissible : Admissible records) (starts : startsThread records = true)
    {before after : List ParsedRecord} {last : ParsedRecord} (split : records = before ++ last :: after)
    (terminal : (terminalOf last).isSome) : FreshTurn records := by
  have follows := admissible before last after split
  have ends := turnMayEnd_of_follows follows.record terminal
  obtain rfl := admissible.ends split terminal
  have notItem : itemRecord last = none := by cases last <;> first | rfl | cases terminal
  have notTurn : last ≠ .turnStarted := by rintro rfl; cases terminal
  refine ⟨?_, ?_, ?_, ⟨_, admissible.numbered.1⟩, ?_, ?_, ?_, before, last, split, terminal, follows.running⟩
  · cases records with
    | nil => cases starts
    | cons first rest =>
      cases first with
      | threadStarted threadId =>
        refine ⟨threadId, rest, rfl, fun other member => ?_⟩
        obtain ⟨front, back, rfl⟩ := List.append_of_mem member
        have again := (admissible (.threadStarted threadId :: front) (.threadStarted other) back rfl).record
        cases again
      | _ => cases starts
  · obtain ⟨front, back, rfl⟩ := List.append_of_mem ends.1
    have first := (admissible front .turnStarted (back ++ [last]) (by simp [split])).record.1
    have noMore : .turnStarted ∉ back := by
      intro member
      obtain ⟨middle, rest, rfl⟩ := List.append_of_mem member
      have again := (admissible (front ++ .turnStarted :: middle) .turnStarted (rest ++ [last]) (by simp [split])).record.1
      exact again (by simp)
    rw [split]
    simp [List.count_eq_zero.2 first, List.count_eq_zero.2 noMore, notTurn]
  · intro front back turn record member
    obtain ⟨first, others, rfl⟩ := List.exists_cons_of_ne_nil (List.ne_nil_of_mem (List.mem_of_mem_tail member))
    obtain ⟨middle, rest, rfl⟩ := List.append_of_mem member
    have atTurn := admissible _ _ _ turn
    have atRecord := admissible (first :: middle) record (rest ++ .turnStarted :: back) (by simp [turn])
    have runs := atTurn.running record (by simp)
    have notYet := atTurn.record.1
    cases record with
    | threadStarted threadId => exact absurd atRecord.record (List.cons_ne_nil _ _)
    | turnStarted => exact absurd (by simp) notYet
    | error message => rfl
    | item lifecycle item =>
      refine atRecord.record.1.resolve_left fun early => notYet ?_
      rw [List.cons_append.symm]
      exact List.mem_append_left _ early
    | turnCompleted usage => cases runs
    | turnFailed message => cases runs
  · intro id member
    rw [split, itemIds_concat_other notItem] at member
    rw [← stageAfter_eq_closed occurrences_same, split]
    exact (stage_concat_other notItem).trans (ends.2 id member)
  · intro lifecycle id items lifecycle' id' items' member member'
    obtain ⟨listed, all⟩ := admissible.oneTodo
    exact (all _ _ _ member).trans (all _ _ _ member').symm
  · intro front id items back completed record member
    obtain ⟨middle, rest, rfl⟩ := List.append_of_mem member
    have atRecord := admissible (front ++ .item .completed (.todoList id items) :: middle) record rest (by simp [completed])
    exact atRecord.reconciling ⟨id, items, by simp⟩

section

variable {records before after : List ParsedRecord} {record : ParsedRecord}

section

variable (fresh : FreshTurn records)

include fresh

theorem FreshTurn.running (split : records = before ++ record :: after) :
    ∀ earlier ∈ before, terminalOf earlier = none := by
  obtain ⟨front, last, atEnd, -, running⟩ := fresh.terminalLast
  intro earlier member
  rcases List.eq_nil_or_concat after with rfl | ⟨middle, other, rfl⟩
  · obtain ⟨rfl, -⟩ := List.append_inj' (split.symm.trans atEnd) rfl
    exact running earlier member
  · rw [List.concat_eq_append, ← List.cons_append, ← List.append_assoc] at split
    obtain ⟨rfl, -⟩ := List.append_inj' (split.symm.trans atEnd) rfl
    exact running earlier (List.mem_append_left _ member)

theorem FreshTurn.nothing_after (split : records = before ++ record :: after) (terminal : (terminalOf record).isSome) : after = [] := by
  cases after with
  | nil => rfl
  | cons next rest =>
    have runs := fresh.running (by rw [split, List.append_cons] : records = (before ++ [record]) ++ next :: rest) record (by simp)
    rw [runs] at terminal
    cases terminal

theorem FreshTurn.stage_defined {lifecycle : Lifecycle} {item : Item} (split : records = before ++ .item lifecycle item :: after) :
    ∃ reached moved, stage item.id before = some reached ∧ advance reached (lifecycle, item) = some moved := by
  have member : item.id ∈ itemIds records := mem_itemIds.2 ⟨lifecycle, item, by simp [split], rfl⟩
  have complete := (stageAfter_eq_closed occurrences_same).2 (fresh.lifeCycles item.id member)
  have own : occurrences item.id (.item lifecycle item :: after) = (lifecycle, item) :: occurrences item.id after := by
    simp [occurrences, itemRecords, itemRecord]
  rw [split, occurrences_append, own, stageAfter, List.foldlM_append] at complete
  obtain ⟨reached, atStage, rest⟩ := Option.bind_eq_some_iff.1 complete
  rw [List.foldlM_cons] at rest
  obtain ⟨moved, advanced, -⟩ := Option.bind_eq_some_iff.1 rest
  exact ⟨reached, moved, atStage, advanced⟩

theorem FreshTurn.turnMayEnd (split : records = before ++ record :: after) (terminal : (terminalOf record).isSome) : TurnMayEnd before := by
  obtain rfl := fresh.nothing_after split terminal
  have notItem : itemRecord record = none := by cases record <;> first | rfl | cases terminal
  have notTurn : record ≠ .turnStarted := by rintro rfl; cases terminal
  constructor
  · have turn : .turnStarted ∈ records := by
      rw [← List.count_pos_iff, fresh.oneTurn]
      exact Nat.one_pos
    rw [split, List.mem_append, List.mem_singleton] at turn
    exact turn.resolve_right notTurn.symm
  · intro id member
    have complete := fresh.lifeCycles id (by rw [split, itemIds_concat_other notItem]; exact member)
    rw [← stageAfter_eq_closed occurrences_same, split] at complete
    exact (stage_concat_other notItem).symm.trans complete

theorem FreshTurn.itemFollows (bounded : itemCount records < 2 ^ 64) {lifecycle : Lifecycle} {item : Item}
    (split : records = before ++ .item lifecycle item :: after) : ItemFollows before lifecycle item := by
  have defined := fresh.stage_defined split
  by_cases seen : item.id ∈ itemIds before
  · rw [ItemFollows, if_pos seen]
    exact defined
  · obtain ⟨reached, moved, atStage, advanced⟩ := defined
    obtain rfl := Option.some.inj ((stage_unseen seen).symm.trans atStage)
    obtain ⟨count, names⟩ := fresh.canonicalIds
    have parts : (itemIds records).eraseDups = (itemIds before).eraseDups ++ item.id :: ((itemIds after).removeAll
        (itemIds before ++ [item.id])).eraseDups := by
      have ids : itemIds records = (itemIds before ++ [item.id]) ++ itemIds after := by
        rw [split, List.append_cons, itemIds, itemRecords, List.filterMap_append, List.map_append]
        rw [← itemIds_concat_item]
        rfl
      rw [ids, List.eraseDups_append, List.eraseDups_append]
      simp [seen, List.removeAll, List.eraseDups_cons]
    have counted : itemCount before < itemCount records := by
      rw [itemCount, itemCount, parts, List.length_append, List.length_cons]
      omega
    have atIndex : (itemIds records).eraseDups[itemCount before]? = some item.id := by
      rw [parts, itemCount, List.getElem?_append_right (le_refl _), Nat.sub_self]
      rfl
    rw [ItemFollows, if_neg seen]
    refine ⟨?_, by omega, ⟨moved, advanced⟩, fun todo lifecycle' id items member => ?_⟩
    · rw [names, List.getElem?_map] at atIndex
      obtain ⟨position, ranged, named⟩ := Option.map_eq_some_iff.1 atIndex
      obtain ⟨inRange, value⟩ := List.getElem?_eq_some_iff.1 ranged
      rw [List.getElem_range] at value
      rw [← named, value]
    · cases item with
      | todoList own ownItems =>
        have same := fresh.oneTodo lifecycle' id items lifecycle own ownItems (by simp [split, member]) (by simp [split])
        exact seen (mem_itemIds.2 ⟨lifecycle', .todoList id items, member, same⟩)
      | _ => cases todo

/-- The documented rules make every record follow the records before it. -/
theorem FreshTurn.admissible (bounded : itemCount records < 2 ^ 64) : Admissible records := by
  intro before record after split
  have one := fresh.oneTurn
  obtain ⟨threadId, others, start, noMore⟩ := fresh.threadFirst
  have notFirst : (∀ other, record ≠ .threadStarted other) → before ≠ [] := by
    rintro apart rfl
    rw [split, List.nil_append, List.cons.injEq] at start
    exact apart threadId start.1
  have turned : .turnStarted ∈ before ∨ record = .turnStarted ∨ .turnStarted ∈ after := by
    have turn : .turnStarted ∈ records := by
      rw [← List.count_pos_iff, one]
      exact Nat.one_pos
    rw [split, List.mem_append, List.mem_cons] at turn
    exact turn.imp_right (.imp_left Eq.symm)
  refine ⟨fresh.running split, ?_, ?_⟩
  · rintro ⟨id, items, member⟩
    obtain ⟨front, middle, rfl⟩ := List.append_of_mem member
    exact fresh.reconciliation front id items (middle ++ record :: after) (by simp [split]) record (by simp)
  · cases record with
    | threadStarted other =>
      cases before with
      | nil => rfl
      | cons first rest =>
        rw [split, List.cons_append, List.cons.injEq] at start
        exact absurd (by simp [← start.2]) (noMore other)
    | turnStarted =>
      refine ⟨fun member => ?_, notFirst fun other => nofun⟩
      have positive := List.count_pos_iff.2 member
      rw [split, List.count_append, List.count_cons_self] at one
      omega
    | error message => trivial
    | item lifecycle item =>
      refine ⟨?_, fresh.itemFollows bounded split⟩
      rcases turned with early | same | late
      · exact .inl early
      · cases same
      · right
        obtain ⟨middle, rest, rfl⟩ := List.append_of_mem late
        obtain ⟨first, front, rfl⟩ := List.exists_cons_of_ne_nil (notFirst fun other => nofun)
        exact fresh.beforeTurn (first :: front ++ .item lifecycle item :: middle) rest (by simp [split]) (.item lifecycle item) (by simp)
    | turnCompleted usage => exact fresh.turnMayEnd split rfl
    | turnFailed message => exact fresh.turnMayEnd split rfl

end

end

theorem validateTermination_eq_ok {terminal : Terminal} {termination : Option ProcessTermination} :
    validateTermination terminal termination = .ok ⟨⟩ ↔ Terminates terminal termination := by
  cases termination with
  | none => cases terminal <;> exact iff_of_true rfl trivial
  | some ended =>
    cases ended with
    | exited code =>
      cases terminal <;> simp only [validateTermination, Terminates] <;> split <;> simp_all [or_comm]
    | signaled signal coreDumped => cases terminal <;> exact iff_of_false nofun id

theorem startsThread_of_freshTurn {records : List ParsedRecord} (fresh : FreshTurn records) : startsThread records = true := by
  obtain ⟨threadId, rest, rfl, -⟩ := fresh.threadFirst
  rfl

theorem validateStream_eq_ok {records : List ParsedRecord} {termination : Option ProcessTermination} {terminal : Terminal} :
    validateStream records termination = .ok terminal ↔
      FreshTurn records ∧ itemCount records < 2 ^ 64 ∧ records.findSome? terminalOf = some terminal ∧ Terminates terminal termination := by
  rw [← validateTermination_eq_ok, validateStream, guard_eq_ok, bind_eq_ok]
  constructor
  · rintro ⟨starts, state, run, after⟩
    obtain ⟨found, ended, finish⟩ := bind_eq_ok.1 after
    obtain ⟨⟨⟩, exited, made⟩ := bind_eq_ok.1 finish
    obtain rfl := Except.ok.inj made
    have admissible := loop_admissible.1 ⟨state, run⟩
    have atEnd : records.findSome? terminalOf = some found := by
      rw [← (loop_tracks run).terminal]
      exact elim_eq_ok.1 ended
    obtain ⟨before, last, after, split, value, -⟩ := List.findSome?_eq_some_iff.1 atEnd
    have fresh := admissible.freshTurn (by simpa using starts) split (by rw [value]; rfl)
    exact ⟨fresh, admissible.numbered.2, atEnd, exited⟩
  · rintro ⟨fresh, bounded, atEnd, exited⟩
    obtain ⟨state, run⟩ := loop_admissible.2 (fresh.admissible bounded)
    have ended : state.terminal = some terminal := (loop_tracks run).terminal.trans atEnd
    refine ⟨by simp [startsThread_of_freshTurn fresh], state, run, bind_eq_ok.2 ⟨terminal, elim_eq_ok.2 ended, ?_⟩⟩
    exact bind_eq_ok.2 ⟨⟨⟩, exited, rfl⟩

/-- The stream validator accepts exactly the fresh turns whose items a `u64` can number. -/
theorem validateStream_accepts (records : List ParsedRecord) (termination : Option ProcessTermination) :
    (∃ terminal, validateStream records termination = .ok terminal) ↔ FreshTurn records ∧ itemCount records < 2 ^ 64 ∧
      ∃ terminal, records.findSome? terminalOf = some terminal ∧ Terminates terminal termination := by
  simp only [validateStream_eq_ok]
  exact ⟨fun ⟨terminal, fresh, bounded, ended⟩ => ⟨fresh, bounded, terminal, ended⟩,
    fun ⟨fresh, bounded, terminal, ended⟩ => ⟨terminal, fresh, bounded, ended⟩⟩

section

def messages (count : Nat) : List ParsedRecord :=
  [.threadStarted "thread", .turnStarted] ++ (List.range count).map fun index => .item .completed (.agentMessage (itemName index) "")

variable (count : Nat)

theorem messages_succ : messages (count + 1) = messages count ++ [.item .completed (.agentMessage (itemName count) "")] := by
  rw [messages, messages, List.range_succ, List.map_append, ← List.append_assoc]
  rfl

theorem itemIds_messages : itemIds (messages count) = (List.range count).map itemName := by
  induction count with
  | zero => rfl
  | succ count ih => rw [messages_succ, itemIds_concat_item, ih, List.range_succ, List.map_append]; rfl

theorem itemName_injective : Function.Injective itemName := by
  intro first second same
  exact Nat.repr_injective ((String.append_right_inj _).1 same)

theorem messages_unseen : itemName count ∉ itemIds (messages count) := by
  rw [itemIds_messages, List.mem_map]
  rintro ⟨index, member, same⟩
  have below := List.mem_range.1 member
  have equal := itemName_injective same
  omega

theorem itemCount_messages : itemCount (messages count) = count := by
  induction count with
  | zero => rfl
  | succ count ih => rw [messages_succ, itemCount_concat_item, Item.id, if_neg (messages_unseen count), ih]

theorem messages_running : ∀ record ∈ messages count, terminalOf record = none := by
  intro record member
  simp only [messages, List.mem_append, List.mem_cons, List.not_mem_nil, or_false, List.mem_map] at member
  rcases member with (rfl | rfl) | ⟨index, -, rfl⟩ <;> rfl

theorem messages_noTodo {lifecycle : Lifecycle} {id : String} {items : List Todo} :
    .item lifecycle (.todoList id items) ∉ messages count := by
  simp [messages]

theorem messages_follow {count : Nat} {record : ParsedRecord} (follows : RecordFollows (messages count) record) :
    Follows (messages count) record :=
  ⟨messages_running count, fun ⟨_, _, member⟩ => absurd member (messages_noTodo count), follows⟩

theorem messages_admissible (bounded : count < 2 ^ 64) : Admissible (messages count) := by
  induction count with
  | zero =>
    have nothing : Admissible [] := fun before record after split => by simp at split
    have first : Admissible [.threadStarted "thread"] := (@admissible_concat [] _).2 ⟨nothing, by simp, by simp, rfl⟩
    exact (@admissible_concat [.threadStarted "thread"] _).2 ⟨first, by simp [terminalOf], by simp, by simp [RecordFollows]⟩
  | succ count ih =>
    rw [messages_succ, admissible_concat]
    refine ⟨ih (by omega), messages_follow ⟨.inl (by simp [messages]), ?_⟩⟩
    rw [ItemFollows, Item.id, if_neg (messages_unseen count), itemCount_messages]
    exact ⟨rfl, bounded, ⟨.closed, rfl⟩, fun same => by cases same⟩

theorem messages_closed (id : String) (member : id ∈ itemIds (messages count)) :
    stage id (messages count) = some .closed := by
  induction count with
  | zero => cases member
  | succ count ih =>
    rw [messages_succ, itemIds_concat_item, List.mem_append, List.mem_singleton] at member
    rw [messages_succ, stage_concat_item]
    by_cases own : id = itemName count
    · subst own
      simp [Item.id, stage_unseen (messages_unseen count), advance]
    · simp [Item.id, Ne.symm own, ih (member.resolve_right own)]

theorem itemCount_finished (usage : Usage) : itemCount (messages count ++ [.turnCompleted usage]) = count :=
  (itemCount_concat_other rfl).trans (itemCount_messages count)

theorem validateStream_messages (bounded : count < 2 ^ 64) (usage : Usage) :
    validateStream (messages count ++ [.turnCompleted usage]) none = .ok .completed := by
  have ends : RecordFollows (messages count) (.turnCompleted usage) := ⟨by simp [messages], messages_closed count⟩
  have admissible := admissible_concat.2 ⟨messages_admissible count bounded, messages_follow ends⟩
  have counted := itemCount_finished count usage
  have atEnd : (messages count ++ [ParsedRecord.turnCompleted usage]).findSome? terminalOf = some .completed := by
    rw [List.findSome?_append, List.findSome?_eq_none_iff.2 (messages_running count)]
    rfl
  exact validateStream_eq_ok.2 ⟨admissible.freshTurn rfl rfl rfl, by omega, atEnd, trivial⟩

theorem validateStream_above_documented : ∃ records terminal,
    validateStream records none = .ok terminal ∧ ¬(FreshTurn records ∧ itemCount records ≤ 4096) := by
  have accepted := validateStream_messages 4097 (by omega) ⟨0, 0, 0, 0⟩
  have counted := itemCount_finished 4097 ⟨0, 0, 0, 0⟩
  exact ⟨_, _, accepted, fun rules => by omega⟩

end

end Legitimacy.CodexExec
