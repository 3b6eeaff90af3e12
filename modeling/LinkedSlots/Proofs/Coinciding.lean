import LinkedSlots.Proofs.Reinserting

namespace LinkedSlots

variable {α : Type}

inductive Tip where
  | head
  | tail
deriving DecidableEq

namespace Tip

def handle? : Tip → Chain α → Option Handle
  | .head, c => c.head
  | .tail, c => c.tail

def place : Tip → Place
  | .head => .head
  | .tail => .tail

def beyond (handle : Handle) : Tip → Place
  | .head => .before handle
  | .tail => .after handle

def pop : Tip → ListOp α
  | .head => .popFront
  | .tail => .popBack

def Outermost {β : Type} (front back : List β) : Tip → Prop
  | .head => front = []
  | .tail => back = []

end Tip

theorem HookSet.handOut_pop (hooks : HookSet α) (value : α) (tip : Tip) :
    hooks.handOut value tip.pop = (return .value (some value)) := by
  cases tip <;> rfl

namespace Roster

variable {q : Roster α} {handle next : Handle}

theorem Proper.gap_between (proper : q.Proper) (follows : q.next? handle = some next) :
    q.gap (.after handle) = q.gap (.before next) := by
  rcases proper.next?_iff.mp follows with ⟨front, value, kept, back, entries⟩
  have split : q.entries = (front ++ [(handle, value)]) ++ (next, kept) :: back := by
    rw [entries, List.append_assoc]
    rfl
  rw [proper.gap_after entries, proper.gap_before split]

theorem gap_empty (none : q.entries = []) : q.gap .head = q.gap .tail := by
  unfold gap
  rw [none]

end Roster

namespace Chain

variable {c : Chain α} {q : Roster α} {handle : Handle} {tip : Tip}

theorem Represents.tip_of_length (rep : c.Represents q) (positive : 0 < c.length) (tip : Tip) :
    ∃ handle, tip.handle? c = some handle := by
  have some : q.handles ≠ [] := by
    intro none
    rw [rep.length, List.map_eq_nil_iff.mp none] at positive
    cases positive
  cases tip with
  | head => exact ⟨_, rep.head_eq.trans (List.head?_eq_some_head some)⟩
  | tail => exact ⟨_, rep.tail_eq.trans (List.getLast?_eq_some_getLast some)⟩

theorem Represents.live_tip (rep : c.Represents q) (ends : tip.handle? c = some handle) :
    handle ∈ q.handles := by
  cases tip with
  | head => exact List.mem_of_mem_head? (rep.head_eq.symm.trans ends)
  | tail => exact List.mem_of_getLast? (rep.tail_eq.symm.trans ends)

theorem Represents.tip_split (rep : c.Represents q) (ends : tip.handle? c = some handle) :
    ∃ front value back, q.entries = front ++ (handle, value) :: back ∧
      tip.Outermost front back := by
  rcases locate_of_mem (rep.live_tip ends) with ⟨front, value, back, here⟩
  have entries := locate_eq_some here
  refine ⟨front, value, back, entries, ?_⟩
  cases tip with
  | head => exact rep.proper.front_nil entries (rep.head_eq.symm.trans ends)
  | tail => exact rep.proper.back_nil entries (rep.tail_eq.symm.trans ends)

theorem Represents.gap_tip (rep : c.Represents q) (ends : tip.handle? c = some handle) :
    q.gap (tip.beyond handle) = q.gap tip.place := by
  rcases rep.tip_split ends with ⟨front, value, back, entries, outermost⟩
  cases tip with
  | head =>
    subst outermost
    show q.gap (.before handle) = .ok ([], q.entries)
    rw [rep.proper.gap_before entries, entries]
    rfl
  | tail =>
    subst outermost
    show q.gap (.after handle) = .ok (q.entries, [])
    rw [rep.proper.gap_after entries, entries]

end Chain

namespace Store

variable {s : Store α} {p : PlainStore α} {name : String} {list : HookedList α} {plain : PlainList α}
  {handle : Handle} {tip : Tip} [BEq α] [Outlined α] [Stored α]

/-- Where a value goes is all that matters of a place. -/
theorem Mirrors.insert_congr (mirrors : s.Mirrors p) (there : p.lists.find? name = some plain)
    {place other : Place} (same : plain.roster.gap place = plain.roster.gap other) (memory : Memory)
    (value : α) :
    s.step (.on name (.insert memory place value)) =
      s.step (.on name (.insert memory other value)) := by
  apply mirrors.step_congr
  rw [PlainStore.step_on there, PlainStore.step_on there]
  simp only [PlainBench.perform, bind_apply, PlainBench.insert_apply, same]

omit [BEq α] [Outlined α] [Stored α] in
theorem Mirrors.removes_tip (mirrors : s.Mirrors p) (there : p.lists.find? name = some plain)
    (rep : list.chain.Represents plain.roster) (ends : tip.handle? list.chain = some handle) :
    s.Removes name handle (.on name tip.pop) := by
  have order := mirrors.order_eq there
  cases tip with
  | head => exact .popFront ((congrArg List.head? order).trans (rep.head_eq.symm.trans ends))
  | tail => exact .popBack ((congrArg List.getLast? order).trans (rep.tail_eq.symm.trans ends))

/-- Without a free hook the value of a deleted node is given back as that of a popped one is. -/
theorem Mirrors.delete_tip (mirrors : s.Mirrors p) (there : p.lists.find? name = some plain)
    (same : list.Mirrors plain) (ends : tip.handle? list.chain = some handle)
    (unhooked : list.hooks.free = none) :
    s.step (.on name (.delete handle)) = s.step (.on name tip.pop) := by
  have rep := same.represents
  rcases rep.tip_split ends with ⟨front, value, back, entries, -⟩
  have live : handle ∈ s.order name := by
    rw [mirrors.order_eq there]
    exact rep.live_tip ends
  have given : plain.hooks.handOut value (.delete handle) = plain.hooks.handOut value tip.pop := by
    rw [HookSet.handOut_pop, HookSet.handOut, ← same.hooks, unhooked]
  apply mirrors.step_congr
  rw [mirrors.removal_ends there rep.proper entries (.delete live),
    mirrors.removal_ends there rep.proper entries (mirrors.removes_tip there rep ends), given]

/-- Different operations that do the same to a list. -/
structure Coincides (s : Store α) (name : String) (list : HookedList α) : Prop where
  between : ∀ handle next, list.chain.next? handle = some next → ∀ memory value,
    s.step (.on name (.insert memory (.after handle) value)) =
      s.step (.on name (.insert memory (.before next) value))
  tips : 0 < list.chain.length → ∀ tip : Tip, ∃ handle, tip.handle? list.chain = some handle ∧
    (∀ memory value, s.step (.on name (.insert memory (tip.beyond handle) value)) =
      s.step (.on name (.insert memory tip.place value))) ∧
    (list.hooks.free = none → s.step (.on name (.delete handle)) = s.step (.on name tip.pop))
  empty : list.chain.length = 0 → ∀ memory value,
    s.step (.on name (.insert memory .head value)) =
      s.step (.on name (.insert memory .tail value))

/-- It does not matter by which of its neighbours or by which end a place is named, nor a node at an
    end by its handle: reports and lists are the same. -/
theorem run_coincides (ops : List (Op α)) {name : String} {list : HookedList α}
    (found : (Store.empty.run ops).2.lists.find? name = some list) :
    (Store.empty.run ops).2.Coincides name list := by
  rcases run_found ops found with ⟨p, plain, mirrors, -, there, same⟩
  have rep := same.represents
  constructor
  case between =>
    intro handle next follows memory value
    rw [rep.next?_eq] at follows
    exact mirrors.insert_congr there (rep.proper.gap_between follows) memory value
  case tips =>
    intro positive tip
    rcases rep.tip_of_length positive tip with ⟨handle, ends⟩
    refine ⟨handle, ends, ?_, mirrors.delete_tip there same ends⟩
    exact mirrors.insert_congr there (rep.gap_tip ends)
  case empty =>
    intro none memory value
    rw [rep.length] at none
    exact mirrors.insert_congr there (Roster.gap_empty (List.length_eq_zero_iff.mp none)) memory value

/-- Node 1 has gone from between the other two, and its slot is vacant. -/
theorem run_coincides_around_gap :
    let ops : List (Op Value) := [
      .create "a" {},
      .on "a" (.insert .available .tail (.int 1)),
      .on "a" (.insert .available .tail (.int 2)),
      .on "a" (.insert .available .tail (.int 3)),
      .on "a" (.delete 1)]
    ∃ reached list, reached = (Store.empty.run ops).2 ∧ reached.lists.find? "a" = some list ∧
      list.chain.next? 0 = some 2 ∧ list.chain.length = 2 ∧ list.hooks.free = none ∧
      (∀ memory value, reached.step (.on "a" (.insert memory (.after 0) value)) =
        reached.step (.on "a" (.insert memory (.before 2) value))) ∧
      ∃ last, list.chain.tail = some last ∧
        reached.step (.on "a" (.delete last)) = reached.step (.on "a" .popBack) := by
  intro ops
  have present : ((Store.empty.run ops).2.lists.find? "a").map (fun list =>
      (list.chain.next? 0, list.chain.length, list.hooks.free)) = some (some 2, 2, none) := by
    rfl
  rcases Option.map_eq_some_iff.mp present with ⟨list, found, facts⟩
  simp only [Prod.mk.injEq] at facts
  rcases facts with ⟨follows, length, unhooked⟩
  have coincides := run_coincides ops found
  rcases coincides.tips (by omega) .tail with ⟨last, ends, -, deletes⟩
  exact ⟨_, list, rfl, found, follows, length, unhooked, coincides.between 0 2 follows, last, ends,
    deletes unhooked⟩

end Store

end LinkedSlots
