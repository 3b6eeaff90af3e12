import LinkedSlots.Proofs.HandingOver
import LinkedSlots.Proofs.Recycling

namespace LinkedSlots

variable {α : Type}

namespace Roster

variable {q : Roster α} {front back : List (Handle × α)} {handle : Handle} {value : α}

theorem Proper.front_nil (proper : q.Proper) (entries : q.entries = front ++ (handle, value) :: back)
    (first : q.handles.head? = some handle) : front = [] := by
  have outside := proper.distinct entries
  cases front with
  | nil => rfl
  | cons entry rest =>
    rw [handles, entries] at first
    cases first
    exact (outside List.mem_cons_self).elim

theorem Proper.back_nil (proper : q.Proper) (entries : q.entries = front ++ (handle, value) :: back)
    (last : q.handles.getLast? = some handle) : back = [] := by
  have nodup := proper.handles_nodup
  rw [handles, entries, List.map_append] at nodup
  have outside : handle ∉ back.map Prod.fst :=
    (List.nodup_cons.mp (List.nodup_append.mp nodup).2.1).1
  cases back with
  | nil => rfl
  | cons entry rest =>
    have ends : q.handles = (front.map Prod.fst ++ [handle]) ++ entry.1 :: rest.map Prod.fst := by
      simp [handles, entries]
    rw [ends, List.getLast?_append_of_ne_nil _ (List.cons_ne_nil _ _)] at last
    exact (outside (List.mem_of_getLast? last)).elim

/-- A vacant slot is all the room that one value needs. -/
theorem reserveSlot_takeOut [Stored α] (q : Roster α) (front : List (Handle × α)) (handle : Handle)
    (back : List (Handle × α)) (memory : Memory) :
    (q.takeOut front handle back).reserveSlot memory = .ok (q.takeOut front handle back) := by
  simp [reserveSlot, takeOut]

theorem putBetween_takeOut (entries : q.entries = front ++ (handle, value) :: back) :
    (q.takeOut front handle back).putBetween front back value = q := by
  rcases q with ⟨_, vacant, made, capacity⟩
  cases entries
  simp [putBetween, takeOut, fresh]

theorem capacity_of_reserveSlot [Stored α] {memory : Memory} {grown : Roster α} (full : q.vacant = [])
    (granted : q.reserveSlot memory = .ok grown) :
    grown.capacity = if q.made < q.capacity then q.capacity else q.grownCapacity 1 := by
  rw [reserveSlot, if_pos full, grow] at granted
  by_cases spare : q.made + 1 ≤ q.capacity
  · rw [if_pos spare] at granted
    cases granted
    exact (if_pos spare).symm
  · rw [if_neg spare] at granted
    split at granted
    · cases granted
    · split at granted
      · cases granted
      · cases granted
        exact (if_neg spare).symm

def widened (q : Roster α) (capacity : Nat) : Roster α :=
  { q with vacant := [q.made], made := q.made + 1, capacity := capacity }

theorem takeOut_putBetween (entries : q.entries = front ++ back) (value : α)
    (vacant : q.vacant ≠ []) : (q.putBetween front back value).takeOut front q.fresh back = q := by
  rcases q with ⟨_, _ | ⟨top, rest⟩, made, capacity⟩
  · exact (vacant rfl).elim
  · cases entries
    simp [putBetween, takeOut, fresh]

theorem takeOut_putBetween_new (entries : q.entries = front ++ back) (value : α)
    (full : q.vacant = []) :
    (q.putBetween front back value).takeOut front q.fresh back = q.widened q.capacity := by
  rcases q with ⟨_, _, made, capacity⟩
  cases entries
  cases full
  simp [putBetween, takeOut, fresh, widened]

end Roster

namespace Chain

variable {c : Chain α} {q : Roster α} {front back : List (Handle × α)} {handle : Handle} {value : α}

/-- The node lies at this place: a value that goes there when the node is gone takes its seat. -/
inductive Seats (c : Chain α) (handle : Handle) : Place → Prop
  | head (first : c.head = some handle) : c.Seats handle .head
  | tail (last : c.tail = some handle) : c.Seats handle .tail
  | after {prev : Handle} (behind : c.prev? handle = some prev) : c.Seats handle (.after prev)
  | before {next : Handle} (ahead : c.next? handle = some next) : c.Seats handle (.before next)

def widened (c : Chain α) : Chain α :=
  { c with
    slots := c.slots.push (.vacant none)
    vacancy := some c.slots.size
    capacity := if c.slots.size < c.capacity then c.capacity else c.grownCapacity 1 }

theorem Represents.gap_seats (rep : c.Represents q)
    (entries : q.entries = front ++ (handle, value) :: back) {place : Place}
    (seats : c.Seats handle place) :
    (q.takeOut front handle back).gap place = .ok (front, back) := by
  have here := locate_middle (rep.proper.distinct entries) value back
  have left := rep.proper.takeOut entries
  cases seats with
  | head first =>
    rw [rep.head_eq] at first
    rw [rep.proper.front_nil entries first]
    rfl
  | tail last =>
    rw [rep.tail_eq] at last
    rw [rep.proper.back_nil entries last]
    simp [Roster.gap, Roster.takeOut]
  | after behind =>
    rw [rep.prev?_eq, Roster.prev?, entries, here] at behind
    rcases Option.map_eq_some_iff.mp behind with ⟨⟨prev, kept⟩, last, rfl⟩
    rcases List.getLast?_eq_some_iff.mp last with ⟨before, rfl⟩
    exact left.gap_after (List.append_assoc ..)
  | before ahead =>
    rw [rep.next?_eq, Roster.next?, entries, here] at ahead
    rcases Option.map_eq_some_iff.mp ahead with ⟨⟨next, kept⟩, first, rfl⟩
    rcases List.head?_eq_some_iff.mp first with ⟨behind, rfl⟩
    exact left.gap_before rfl

theorem Represents.widened [Stored α] (rep : c.Represents q) {memory : Memory} {grown : Roster α}
    (full : q.vacant = []) (granted : q.reserveSlot memory = .ok grown) :
    c.widened.Represents (q.widened grown.capacity) := by
  have kept : ∀ handle ∈ q.handles, c.widened.slots[handle]? = c.slots[handle]? := by
    intro handle live
    have bound := (rep.proper.made_iff handle).mpr (.inl live)
    rw [← rep.size] at bound
    rw [Chain.widened, Array.getElem?_push_lt bound, Array.getElem?_eq_getElem bound]
  have more := Roster.roomier_of_reserveSlot granted
  have room := Roster.room_of_reserveSlot granted (more.vacant.trans full)
  rw [more.made] at room
  constructor
  case nodes => exact rep.nodes.congr kept
  case vacancies =>
    refine ⟨?_, True.intro⟩
    rw [← rep.size]
    exact Array.getElem?_push_size
  case head => exact rep.head
  case tail => exact rep.tail
  case vacancy => exact congrArg some rep.size
  case length => exact rep.length
  case size => exact (Array.size_push _).trans (congrArg (· + 1) rep.size)
  case capacity =>
    rw [Roster.capacity_of_reserveSlot full granted, ← rep.size, ← rep.capacity]
    unfold Roster.grownCapacity
    rw [← rep.size, ← rep.capacity]
    rfl
  case proper =>
    refine ⟨?_, room⟩
    have once := rep.proper.once
    rw [full, List.append_nil] at once
    show (q.handles ++ [q.made]).Perm (List.range (q.made + 1))
    rw [List.range_succ]
    exact once.append_right _

end Chain

namespace Store

variable {s : Store α} {p : PlainStore α} {name : String} {list : HookedList α} {plain : PlainList α}
  {front back : List (Handle × α)} {handle : Handle} {value : α} [BEq α] [Outlined α] [Stored α]

/-- Taken out in whichever way, the node gives its value and leaves this chain and these lists. -/
structure Unlinks (s : Store α) (name : String) (list : HookedList α) (handle : Handle) (value : α)
    (left : Chain α) (lists : Registry String (HookedList α)) : Prop where
  live : handle ∈ s.order name
  unlinked : Chain.unlink handle list.chain = .ok value left
  removed : ∀ op, s.Removes name handle (.on name op) →
    s.step (.on name op) = conclude lists (list.hooks.handOut value op s.session)

theorem Mirrors.removal_ends (mirrors : s.Mirrors p) (there : p.lists.find? name = some plain)
    (proper : plain.roster.Proper) (entries : plain.roster.entries = front ++ (handle, value) :: back)
    {op : ListOp α} (removes : s.Removes name handle (.on name op)) :
    p.step (.on name op) =
      PlainStore.conclude (p.lists.put name ⟨plain.roster.takeOut front handle back, plain.hooks⟩)
        (plain.hooks.handOut value op p.session) := by
  have order := mirrors.order_eq there
  cases removes with
  | delete live => exact PlainStore.delete_hands_out there proper entries
  | popFront first =>
    rw [order] at first
    have none := proper.front_nil entries first
    subst none
    exact PlainStore.popFront_ends there entries
  | popBack last =>
    rw [order] at last
    have none := proper.back_nil entries last
    subst none
    exact PlainStore.popBack_ends there entries

theorem Mirrors.unlinks (mirrors : s.Mirrors p) (there : p.lists.find? name = some plain)
    (same : list.Mirrors plain) (entries : plain.roster.entries = front ++ (handle, value) :: back)
    {left : Chain α} (rep' : left.Represents (plain.roster.takeOut front handle back))
    {lists : Registry String (HookedList α)} (paired : lists.Paired HookedList.Mirrors
      (p.lists.put name ⟨plain.roster.takeOut front handle back, plain.hooks⟩)) :
    s.Unlinks name list handle value left lists := by
  have rep := same.represents
  constructor
  case live =>
    rw [mirrors.order_eq there, Roster.handles, entries]
    exact List.mem_map_of_mem (List.mem_append_right front List.mem_cons_self)
  case unlinked =>
    rcases rep.unlink entries with ⟨after, run, rep''⟩
    rw [run, rep''.determines rep']
  case removed =>
    intro op removes
    have agree := step_agrees mirrors (.on name op)
    rw [mirrors.removal_ends there rep.proper entries removes, ← same.hooks, ← mirrors.session] at agree
    rw [← same.hooks] at paired
    exact agree.unique (conclude_agrees paired _)

/-- Back at its place, the value has its handle again, and only the ledger can tell. -/
theorem Mirrors.reinserts (mirrors : s.Mirrors p) (sorted : p.lists.Sorted)
    (there : p.lists.find? name = some plain) (same : list.Mirrors plain)
    (entries : plain.roster.entries = front ++ (handle, value) :: back) {op : ListOp α}
    (removes : s.Removes name handle (.on name op)) (memory : Memory) {place : Place}
    (seats : list.chain.Seats handle place) :
    (s.step (.on name op)).2.step (.on name (.insert memory place value)) =
      (⟨.returned (.handle (some handle)), [], []⟩,
        { s with ledger := (s.step (.on name op)).2.ledger }) := by
  have rep := same.represents
  have removed := step_agrees mirrors (.on name op)
  have stored : (p.step (.on name op)).2.lists =
      p.lists.put name ⟨plain.roster.takeOut front handle back, plain.hooks⟩ := by
    rw [mirrors.removal_ends there rep.proper entries removes, PlainStore.conclude_lists]
  have there' : (p.step (.on name op)).2.lists.find? name =
      some ⟨plain.roster.takeOut front handle back, plain.hooks⟩ := by
    rw [stored, Registry.find?_put_self]
  have step := PlainStore.insert_ends there' (rep.gap_seats entries seats)
    (plain.roster.reserveSlot_takeOut front handle back memory) value
  rw [stored, Registry.put_put, Roster.putBetween_takeOut entries, sorted.put_same there] at step
  have agree := step_agrees removed.stores (.on name (.insert memory place value))
  rw [step] at agree
  exact agree.unique ⟨rfl, mirrors.lists, removed.stores.ledger⟩

/-- Taken out again, a value leaves things as they were before it came, but for a slot that was
    made for it. -/
theorem Mirrors.unlinks_inserted (mirrors : s.Mirrors p) (sorted : p.lists.Sorted)
    (there : p.lists.find? name = some plain) (same : list.Mirrors plain) {memory : Memory}
    {place : Place} (gap : plain.roster.gap place = .ok (front, back)) {grown : Roster α}
    (granted : plain.roster.reserveSlot memory = .ok grown) (value : α) :
    let inserted := (s.step (.on name (.insert memory place value))).2
    ∃ after, inserted.lists.find? name = some ⟨after, list.hooks⟩ ∧ inserted.ledger = s.ledger ∧
      (list.chain.vacancy.isSome → inserted.Unlinks name ⟨after, list.hooks⟩ grown.fresh value
        list.chain s.lists) ∧
      (list.chain.vacancy = none → inserted.Unlinks name ⟨after, list.hooks⟩ grown.fresh value
        list.chain.widened (s.lists.put name ⟨list.chain.widened, list.hooks⟩)) := by
  intro inserted
  have rep := same.represents
  have entries := Roster.entries_gap gap
  have more := Roster.roomier_of_reserveSlot granted
  have entries' : grown.entries = front ++ back := more.entries.trans entries
  have agree := step_agrees mirrors (.on name (.insert memory place value))
  rw [PlainStore.insert_ends there gap granted value] at agree
  have placed : (p.lists.put name ⟨grown.putBetween front back value, plain.hooks⟩).find? name =
      some ⟨grown.putBetween front back value, plain.hooks⟩ := Registry.find?_put_self ..
  rcases agree.stores.mirrored placed with ⟨⟨after, hooks⟩, found, same'⟩
  have kept : hooks = list.hooks := same'.hooks.trans same.hooks.symm
  subst kept
  refine ⟨after, found, agree.stores.ledger.trans mirrors.ledger.symm, ?_, ?_⟩
  · intro vacancy
    have vacant : plain.roster.vacant ≠ [] := by
      rw [rep.vacancy] at vacancy
      intro none
      simp [none] at vacancy
    rw [Roster.reserveSlot, if_neg vacant] at granted
    cases granted
    have back' := Roster.takeOut_putBetween entries value vacant
    apply agree.stores.unlinks placed same' rfl
    · rw [back']
      exact rep
    · show s.lists.Paired HookedList.Mirrors ((p.lists.put name _).put name _)
      rw [back', Registry.put_put, sorted.put_same there]
      exact mirrors.lists
  · intro vacancy
    have full : plain.roster.vacant = [] := by
      rw [rep.vacancy] at vacancy
      exact List.head?_eq_none_iff.mp vacancy
    have wider := rep.widened full granted
    have left : (grown.putBetween front back value).takeOut front grown.fresh back =
        plain.roster.widened grown.capacity := by
      rw [Roster.takeOut_putBetween_new entries' value (more.vacant.trans full)]
      unfold Roster.widened
      rw [more.entries, more.made]
    apply agree.stores.unlinks placed same' rfl
    · rw [left]
      exact wider
    · show (s.lists.put name _).Paired HookedList.Mirrors ((p.lists.put name _).put name _)
      rw [left, Registry.put_put]
      exact mirrors.lists.put name ⟨wider, same.hooks⟩

/-- An insertion and a removal of the same node at the same place make each other undone. Only a new
    slot stays, which is vacant then. -/
theorem run_undoes (ops : List (Op α)) {name : String} {list : HookedList α}
    (found : (Store.empty.run ops).2.lists.find? name = some list) :
    let reached := (Store.empty.run ops).2
    (∀ handle value, list.chain.get? handle = some value →
      ∃ left, reached.Unlinks name list handle value left
          (reached.lists.put name ⟨left, list.hooks⟩) ∧
        ∀ op memory place, reached.Removes name handle (.on name op) →
          list.chain.Seats handle place →
            let removed := (reached.step (.on name op)).2
            removed.step (.on name (.insert memory place value)) =
              (⟨.returned (.handle (some handle)), [], []⟩,
                { reached with ledger := removed.ledger })) ∧
    ∀ memory place value handle,
      let inserted := reached.step (.on name (.insert memory place value))
      inserted.1.outcome = .returned (.handle (some handle)) →
        ∃ after, inserted.2.lists.find? name = some ⟨after, list.hooks⟩ ∧
          inserted.2.ledger = reached.ledger ∧
          (list.chain.vacancy.isSome → inserted.2.Unlinks name ⟨after, list.hooks⟩ handle value
            list.chain reached.lists) ∧
          (list.chain.vacancy = none → inserted.2.Unlinks name ⟨after, list.hooks⟩ handle value
            list.chain.widened (reached.lists.put name ⟨list.chain.widened, list.hooks⟩)) := by
  intro reached
  rcases run_found ops found with ⟨p, plain, mirrors, sorted, there, same⟩
  have rep := same.represents
  constructor
  · intro handle value stored
    rw [rep.get?_eq] at stored
    rcases Option.map_eq_some_iff.mp stored with ⟨⟨front, _, back⟩, place, rfl⟩
    have entries := locate_eq_some place
    rcases rep.unlink entries with ⟨left, -, rep'⟩
    refine ⟨left, ?_, ?_⟩
    · exact mirrors.unlinks there same entries rep' (mirrors.lists.put name ⟨rep', same.hooks⟩)
    · intro op memory place removes seats
      exact mirrors.reinserts sorted there same entries removes memory seats
  · intro memory place value handle inserted placed
    rw [(step_agrees mirrors (.on name (.insert memory place value))).report] at placed
    rcases PlainStore.insert_inverts placed with ⟨_, front, back, grown, there', gap, granted, rfl, -⟩
    rw [there] at there'
    cases there'
    exact mirrors.unlinks_inserted sorted there same gap granted value

/-- The hook panics at the value of node 1, which goes back between its neighbours all the same. The
    value that takes the vacant slot goes again without a trace. -/
theorem run_undoes_after_panic :
    let ops : List (Op Value) := [
      .create "a" { free := some (Value.Freeing.policy "free" (.panicIf (.int 2))) },
      .on "a" (.insert .available .tail (.int 1)),
      .on "a" (.insert .available .tail (.int 2)),
      .on "a" (.insert .available .tail (.int 3)),
      .on "a" (.insert .available .head (.int 4)),
      .on "a" .popFront]
    ∃ reached list removed inserted after, reached = (Store.empty.run ops).2 ∧
      reached.lists.find? "a" = some list ∧
      removed = reached.step (.on "a" (.delete 1)) ∧ ¬ removed.1.outcome.Calm ∧
      removed.2.step (.on "a" (.insert .exhausted (.before 2) (.int 2))) =
        (⟨.returned (.handle (some 1)), [], []⟩, { reached with ledger := removed.2.ledger }) ∧
      inserted = reached.step (.on "a" (.insert .exhausted (.after 0) (.int 5))) ∧
      inserted.1.outcome = .returned (.handle (some 3)) ∧
      inserted.2.Unlinks "a" ⟨after, list.hooks⟩ 3 (.int 5) list.chain reached.lists := by
  intro ops
  have present : ((Store.empty.run ops).2.lists.find? "a").map (fun list =>
      (list.chain.get? 1, list.chain.next? 1, list.chain.vacancy.isSome)) =
        some (some (.int 2), some 2, true) := by
    rfl
  rcases Option.map_eq_some_iff.mp present with ⟨list, found, facts⟩
  simp only [Prod.mk.injEq] at facts
  rcases facts with ⟨stored, ahead, vacancy⟩
  have live : (Store.empty.run ops).2.Removes "a" 1 (.on "a" (.delete 1)) :=
    .delete (by decide +kernel)
  have placed : ((Store.empty.run ops).2.step
      (.on "a" (.insert .exhausted (.after 0) (.int 5)))).1.outcome =
        .returned (.handle (some 3)) := by
    rfl
  rcases run_undoes ops found with ⟨removals, insertions⟩
  rcases removals 1 (.int 2) stored with ⟨left, -, reinserts⟩
  rcases insertions .exhausted (.after 0) (.int 5) 3 placed with ⟨after, -, -, unlinks, -⟩
  exact ⟨_, list, _, _, after, rfl, found, rfl, by decide +kernel,
    reinserts (.delete 1) .exhausted (.before 2) live (.before ahead), rfl, placed,
    unlinks vacancy⟩

end Store

end LinkedSlots
