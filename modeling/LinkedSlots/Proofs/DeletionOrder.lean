import LinkedSlots.Proofs.Emptying
import LinkedSlots.Proofs.Stability
import Mathlib

namespace LinkedSlots

variable {α : Type}

namespace Roster

variable {q : Roster α}

def without (q : Roster α) (gone : List Handle) : Roster α :=
  { q with
    entries := q.entries.filter (·.1 ∉ gone)
    vacant := gone.reverse ++ q.vacant }

theorem without_handles (q : Roster α) (gone : List Handle) :
    (q.without gone).handles = q.handles.filter (· ∉ gone) := by
  unfold handles without
  rw [List.filter_map]
  rfl

theorem without_nil (q : Roster α) : q.without [] = q := by
  have all : q.entries.filter (fun entry => entry.1 ∉ ([] : List Handle)) = q.entries :=
    List.filter_eq_self.mpr fun _ _ => by simp
  unfold without
  rw [all]
  rfl

theorem without_cons (q : Roster α) (handle : Handle) (rest : List Handle) :
    q.without (handle :: rest) = (q.without [handle]).without rest := by
  have entries : (q.entries.filter (·.1 ∉ [handle])).filter (·.1 ∉ rest) =
      q.entries.filter (·.1 ∉ handle :: rest) := by
    rw [List.filter_filter]
    apply List.filter_congr
    intro entry _
    simp [Bool.and_comm]
  unfold without
  dsimp only
  rw [entries, List.reverse_cons, List.append_assoc]
  rfl

theorem Proper.takeOut_eq (proper : q.Proper) {front back : List (Handle × α)} {handle : Handle}
    {value : α} (entries : q.entries = front ++ (handle, value) :: back) :
    q.takeOut front handle back = q.without [handle] := by
  have nodup := proper.handles_nodup
  rw [handles, entries, List.map_append, List.map_cons, List.nodup_middle, List.nodup_cons,
    ← List.map_append] at nodup
  have others : (front ++ back).filter (·.1 ∉ [handle]) = front ++ back := by
    apply List.filter_eq_self.mpr
    intro entry member
    have live : entry.1 ∈ (front ++ back).map Prod.fst := List.mem_map_of_mem member
    have ne : entry.1 ≠ handle := fun same => nodup.1 (same ▸ live)
    simpa using ne
  have left : q.entries.filter (·.1 ∉ [handle]) = front ++ back := by
    rw [entries, List.filter_append, List.filter_cons_of_neg (by simp), ← List.filter_append, others]
  unfold Roster.takeOut without
  rw [left]
  rfl

/-- The order in which nodes go shows in the vacant handles only. -/
theorem without_perm (q : Roster α) {gone other : List Handle} (perm : other.Perm gone) :
    (q.without other).entries = (q.without gone).entries ∧
      (q.without other).vacant.Perm (q.without gone).vacant := by
  constructor
  · apply List.filter_congr
    intro entry _
    rw [decide_eq_decide, perm.mem_iff]
  · have reversed : other.reverse.Perm gone.reverse :=
      other.reverse_perm.trans (perm.trans gone.reverse_perm.symm)
    exact reversed.append_right q.vacant

end Roster

namespace Chain

variable {c d : Chain α} {q r : Roster α} {handle : Handle}

/-- Two chains with the same nodes, whose vacant slots may lie in different orders. -/
structure Restacked (c d : Chain α) : Prop where
  node : ∀ handle, c.node? handle = d.node? handle
  vacant : ∀ handle : Handle, (∃ below, c.slots[handle]? = some (.vacant below)) ↔
    ∃ below, d.slots[handle]? = some (.vacant below)
  head : c.head = d.head
  tail : c.tail = d.tail
  length : c.length = d.length
  slots : c.slots.size = d.slots.size
  capacity : c.capacity = d.capacity

theorem Represents.vacant_iff (rep : c.Represents q) :
    (∃ below, c.slots[handle]? = some (.vacant below)) ↔ handle ∈ q.vacant := by
  constructor
  · rintro ⟨below, found⟩
    have bound : handle < q.made := by
      rw [← rep.size]
      exact (Array.getElem?_eq_some_iff.mp found).1
    refine ((rep.proper.made_iff handle).mp bound).resolve_left fun live => ?_
    rcases rep.linked.occupied handle live with ⟨held, there⟩
    rw [found] at there
    cases there
  · exact rep.vacancies.lookup

theorem Represents.restacked (rep : c.Represents q) (other : d.Represents r)
    (entries : q.entries = r.entries) (vacant : q.vacant.Perm r.vacant) (made : q.made = r.made)
    (capacity : q.capacity = r.capacity) : c.Restacked d := by
  constructor
  case node =>
    intro handle
    rw [rep.node?_eq, other.node?_eq, entries]
  case vacant =>
    intro handle
    rw [rep.vacant_iff, other.vacant_iff, vacant.mem_iff]
  case head => rw [rep.head, other.head, entries]
  case tail => rw [rep.tail, other.tail, entries]
  case length => rw [rep.length, other.length, entries]
  case slots => rw [rep.size, other.size, made]
  case capacity => rw [rep.capacity, other.capacity, capacity]

end Chain

def HookSet.handedOut (hooks : HookSet α) (value : α) : Report α :=
  match hooks.free with
  | none => ⟨.returned (.value (some value)), [], []⟩
  | some hook => ⟨.returned (.value none), [.free hook.id hook.label value], []⟩

structure HandsOver (hooks : HookSet α) (before : Ledger α) (values : List α)
    (reports : List (Report α)) (after : Ledger α) : Prop where
  handed : (∀ hook, hooks.free = some hook →
    hook.Accepts (before.frees.earlier hook.id) values) → reports = values.map hooks.handedOut
  passed : reports.flatMap Report.calls = freeCalls hooks.free values
  ledger : after = before.freed hooks.free values

theorem HandsOver.nil (hooks : HookSet α) (ledger : Ledger α) :
    HandsOver hooks ledger [] [] ledger := by
  refine ⟨fun _ => rfl, (freeCalls_nil _).symm, ?_⟩
  cases hooks.free <;> rfl

theorem HandsOver.cons {hooks : HookSet α} {before between after : Ledger α} {value : α}
    {values : List α} {report : Report α} {reports : List (Report α)}
    (first : HandsOver hooks before [value] [report] between)
    (later : HandsOver hooks between values reports after) :
    HandsOver hooks before (value :: values) (report :: reports) after := by
  constructor
  case handed =>
    intro accepts
    have now : [report] = [hooks.handedOut value] :=
      first.handed fun hook installed => ⟨(accepts hook installed).1, trivial⟩
    have rest : reports = values.map hooks.handedOut := by
      apply later.handed
      intro hook installed
      have known : between.frees.earlier hook.id = before.frees.earlier hook.id ++ [value] := by
        rw [first.ledger, installed]
        exact CallBook.earlier_recordAll _ _ _
      rw [known]
      exact (accepts hook installed).2
    rw [List.map_cons, rest, List.head_eq_of_cons_eq now]
  case passed =>
    have now : report.calls = freeCalls hooks.free [value] := by
      rw [← first.passed, List.flatMap_singleton]
    rw [List.flatMap_cons, now, later.passed, ← freeCalls_cons]
  case ledger => rw [later.ledger, first.ledger, ← Ledger.freed_cons]

def deletions (name : String) (gone : List (Handle × α)) : List (Op α) :=
  gone.map fun entry => .on name (.delete entry.1)

namespace PlainStore

variable {p : PlainStore α} {name : String} {list : PlainList α} [BEq α] [Outlined α] [Stored α]

theorem delete_hands_over (found : p.lists.find? name = some list) (proper : list.roster.Proper)
    {entry : Handle × α} (member : entry ∈ list.roster.entries) :
    (p.step (.on name (.delete entry.1))).2.lists =
        p.lists.put name ⟨list.roster.without [entry.1], list.hooks⟩ ∧
      HandsOver list.hooks p.ledger [entry.2] [(p.step (.on name (.delete entry.1))).1]
        (p.step (.on name (.delete entry.1))).2.ledger := by
  rcases entry with ⟨handle, value⟩
  rcases List.append_of_mem member with ⟨front, back, entries⟩
  have left := proper.takeOut_eq entries
  cases free : list.hooks.free with
  | none =>
    have step := delete_hands_out found proper entries
    rw [left, HookSet.handOut, free] at step
    rw [step]
    refine ⟨rfl, fun _ => ?_, ?_, ?_⟩
    · simp [HookSet.handedOut, free, conclude, session]
    · simp [conclude, session, free]
    · rw [free]
      rfl
  | some hook =>
    have step := delete_ends found proper free entries
    rw [left] at step
    rw [step]
    refine ⟨by rw [conclude_lists], fun accepts => ?_, ?_, ?_⟩
    · rw [(accepts hook free).1]
      simp [HookSet.handedOut, free, conclude, session, Session.called]
    · cases hook.reply (p.ledger.frees.earlier hook.id) value <;>
        simp [conclude, session, Session.called, free]
    · rw [free]
      cases hook.reply (p.ledger.frees.earlier hook.id) value <;> rfl

theorem deletes_end (sorted : p.lists.Sorted) (found : p.lists.find? name = some list)
    (proper : list.roster.Proper) {gone : List (Handle × α)} (nodup : (gone.map Prod.fst).Nodup)
    (among : ∀ entry ∈ gone, entry ∈ list.roster.entries) :
    (p.run (deletions name gone)).2.lists =
        p.lists.put name ⟨list.roster.without (gone.map Prod.fst), list.hooks⟩ ∧
      HandsOver list.hooks p.ledger (gone.map Prod.snd) (p.run (deletions name gone)).1
        (p.run (deletions name gone)).2.ledger := by
  induction gone generalizing p list with
  | nil =>
    refine ⟨?_, .nil _ _⟩
    rw [List.map_nil, Roster.without_nil, sorted.put_same found]
    rfl
  | cons entry rest ih =>
    rw [List.map_cons, List.nodup_cons] at nodup
    have member := among entry List.mem_cons_self
    rcases delete_hands_over found proper member with ⟨lists, first⟩
    rcases List.append_of_mem member with ⟨front, back, entries⟩
    have proper' := proper.takeOut entries
    rw [proper.takeOut_eq entries] at proper'
    -- The entries that are still to go are not the one that has gone.
    have among' : ∀ other ∈ rest, other ∈ (list.roster.without [entry.1]).entries := by
      intro other later
      have live : other.1 ∈ rest.map Prod.fst := List.mem_map_of_mem later
      have ne : other.1 ≠ entry.1 := fun same => nodup.1 (same ▸ live)
      exact List.mem_filter.mpr ⟨among other (List.mem_cons_of_mem entry later), by simpa using ne⟩
    have found' : (p.step (.on name (.delete entry.1))).2.lists.find? name =
        some ⟨list.roster.without [entry.1], list.hooks⟩ := by
      rw [lists]
      exact p.lists.find?_put_self name _
    have sorted' : (p.step (.on name (.delete entry.1))).2.lists.Sorted := by
      rw [lists]
      exact sorted.put name _
    rcases ih sorted' found' proper' nodup.2 among' with ⟨lists', later⟩
    constructor
    · show ((p.step (.on name (.delete entry.1))).2.run (deletions name rest)).2.lists = _
      rw [lists', lists, Registry.put_put, List.map_cons, ← Roster.without_cons]
    · exact first.cons later

end PlainStore

namespace Store

variable {s : Store α} {p : PlainStore α} {name : String} {list : HookedList α} {plain : PlainList α}
  {entries gone : List (Handle × α)} {vacant : List Handle} {after : Chain α}
  [BEq α] [Outlined α] [Stored α]

structure DeletesAll (s : Store α) (name : String) (list : HookedList α)
    (entries : List (Handle × α)) (vacant : List Handle) (gone : List (Handle × α))
    (after : Chain α) : Prop where
  hands : HandsOver list.hooks s.ledger (gone.map Prod.snd) (s.run (deletions name gone)).1
    (s.run (deletions name gone)).2.ledger
  lists : (s.run (deletions name gone)).2.lists = s.lists.put name ⟨after, list.hooks⟩
  left : after.entries = .ok (entries.filter (·.1 ∉ gone.map Prod.fst))
  linked : after.Linked ((entries.map Prod.fst).filter (· ∉ gone.map Prod.fst))
    ((gone.map Prod.fst).reverse ++ vacant)
  slots : after.slots.size = list.chain.slots.size
  capacity : after.capacity = list.chain.capacity

theorem Mirrors.deletesAll (mirrors : s.Mirrors p) (sorted : p.lists.Sorted)
    (there : p.lists.find? name = some plain) (same : list.Mirrors plain)
    (within : gone.Subperm plain.roster.entries) :
    ∃ after, s.DeletesAll name list plain.roster.entries plain.roster.vacant gone after ∧
      after.Represents (plain.roster.without (gone.map Prod.fst)) := by
  rcases list with ⟨c, hooks⟩
  rcases same with ⟨rep, rfl⟩
  have nodup : (gone.map Prod.fst).Nodup := by
    rcases within with ⟨part, perm, sublist⟩
    rw [← (perm.map Prod.fst).nodup_iff]
    exact rep.proper.handles_nodup.sublist (sublist.map Prod.fst)
  rcases PlainStore.deletes_end sorted there rep.proper nodup within.subset with ⟨lists, hands⟩
  rcases run_agrees mirrors (deletions name gone) with ⟨reports, stores⟩
  have stored : (p.run (deletions name gone)).2.lists.find? name =
      some ⟨plain.roster.without (gone.map Prod.fst), plain.hooks⟩ := by
    rw [lists]
    exact p.lists.find?_put_self name _
  rcases stores.mirrored stored with ⟨⟨after, _⟩, found, ⟨rep', rfl⟩⟩
  refine ⟨after, ?_, rep'⟩
  constructor
  case hands =>
    rw [reports, stores.ledger, mirrors.ledger]
    exact hands
  case lists =>
    have paired := stores.lists
    rw [lists] at paired
    refine paired.left_unique (fun _ _ _ one two => one.determines two) ?_
    exact mirrors.lists.put name ⟨rep', rfl⟩
  case left => exact rep'.entries
  case linked =>
    have linked := rep'.linked
    rw [Roster.without_handles] at linked
    exact linked
  case slots => exact rep'.size.trans rep.size.symm
  case capacity => exact rep'.capacity.trans rep.capacity.symm

/-- In whatever order nodes are deleted, the same nodes are left, and only the stack of vacant slots
    remembers the order. -/
theorem run_deletes_in_any_order (ops : List (Op α)) {name : String} {list : HookedList α}
    (found : (Store.empty.run ops).2.lists.find? name = some list) :
    let reached := (Store.empty.run ops).2
    ∃ entries vacant, list.chain.entries = .ok entries ∧
      list.chain.Linked (entries.map Prod.fst) vacant ∧
      ∀ gone : List (Handle × α), gone.Subperm entries →
        ∃ after, reached.DeletesAll name list entries vacant gone after ∧
          ∀ other, other.Perm gone →
            ∃ after', reached.DeletesAll name list entries vacant other after' ∧
              after'.Restacked after := by
  intro reached
  rcases run_found ops found with ⟨p, plain, mirrors, sorted, there, same⟩
  have rep := same.represents
  refine ⟨plain.roster.entries, plain.roster.vacant, rep.entries, rep.linked, ?_⟩
  intro gone within
  rcases mirrors.deletesAll sorted there same within with ⟨after, deletes, rep'⟩
  refine ⟨after, deletes, fun other perm => ?_⟩
  rcases mirrors.deletesAll sorted there same (perm.subperm.trans within) with
    ⟨after', deletes', other'⟩
  rcases plain.roster.without_perm (perm.map Prod.fst) with ⟨entries, vacant⟩
  exact ⟨after', deletes', other'.restacked rep' entries vacant rfl rfl⟩

/-- The head and the node behind it go in either order, past a hook that takes their values. -/
theorem run_deletes_in_any_order_of_neighbours :
    let ops : List (Op Value) := [
      .create "a" { free := some (Value.Freeing.policy "free" .accept) },
      .on "a" (.insert .available .tail (.int 1)),
      .on "a" (.insert .available .head (.int 2)),
      .on "a" (.insert .available .tail (.int 3)),
      .on "a" (.insert .available .head (.int 4)),
      .on "a" (.delete 0)]
    let gone : List (Handle × Value) := [(3, .int 4), (1, .int 2)]
    let other : List (Handle × Value) := [(1, .int 2), (3, .int 4)]
    ∃ list after after', (Store.empty.run ops).2.lists.find? "a" = some list ∧
      list.chain.entries = .ok [(3, .int 4), (1, .int 2), (2, .int 3)] ∧
      ((Store.empty.run ops).2.run (deletions "a" gone)).1 = gone.map (list.hooks.handedOut ·.2) ∧
      ((Store.empty.run ops).2.run (deletions "a" gone)).2.lists.find? "a" =
        some ⟨after, list.hooks⟩ ∧
      ((Store.empty.run ops).2.run (deletions "a" other)).2.lists.find? "a" =
        some ⟨after', list.hooks⟩ ∧
      (∃ vacant, after.Linked [2] ([1, 3] ++ vacant) ∧ after'.Linked [2] ([3, 1] ++ vacant)) ∧
      after'.Restacked after := by
  intro ops gone other
  have present : ((Store.empty.run ops).2.lists.find? "a").map (fun list =>
      (list.chain.entries.toOption, list.hooks.free)) =
      some (some [(3, .int 4), (1, .int 2), (2, .int 3)],
        some ⟨Value.Freeing.policy "free" .accept, 0⟩) := by
    cbv
  rcases Option.map_eq_some_iff.mp present with ⟨list, found, facts⟩
  simp only [Prod.mk.injEq] at facts
  rcases facts with ⟨held, installed⟩
  rcases run_deletes_in_any_order ops found with ⟨entries, vacant, shown, -, orders⟩
  rw [shown] at held
  cases held
  have within : gone.Subperm (gone ++ [(2, .int 3)]) :=
    (List.prefix_append gone _).sublist.subperm
  rcases orders gone within with ⟨after, deletes, others⟩
  rcases others other (.swap _ _ _) with ⟨after', deletes', restacked⟩
  have accepts : ∀ hook, list.hooks.free = some hook → hook.Accepts
      ((Store.empty.run ops).2.ledger.frees.earlier hook.id) (gone.map Prod.snd) := by
    intro hook same
    rw [installed] at same
    cases same
    exact ⟨rfl, rfl, trivial⟩
  refine ⟨list, after, after', found, shown, ?_, ?_, ?_, ⟨vacant, ?_, ?_⟩, restacked⟩
  · rw [deletes.hands.handed accepts, List.map_map]
    rfl
  · rw [deletes.lists, Registry.find?_put_self]
  · rw [deletes'.lists, Registry.find?_put_self]
  · exact deletes.linked
  · exact deletes'.linked

end Store

end LinkedSlots
