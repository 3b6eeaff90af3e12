import LinkedSlots.Proofs.Coinciding
import Mathlib.Data.List.Rotate

namespace LinkedSlots

variable {α : Type}

namespace Roster

variable {q : Roster α}

/-- A handle keeps its value wherever its entry goes. -/
theorem Proper.get?_withEntries (proper : q.Proper) {entries : List (Handle × α)}
    (same : entries.Perm q.entries) (handle : Handle) :
    (q.withEntries entries).get? handle = q.get? handle := by
  have proper' := proper.reorder (same.map Prod.fst)
  apply Option.ext
  intro value
  rw [proper'.get?_eq_some_iff, proper.get?_eq_some_iff]
  exact same.mem_iff

def shifted (q : Roster α) (count : Nat) : Roster α := q.withEntries (q.entries.rotate count)

theorem shifted_length (q : Roster α) (count : Nat) :
    (q.shifted count).entries.length = q.entries.length :=
  List.length_rotate q.entries count

theorem shifted_shifted (q : Roster α) (count more : Nat) :
    (q.shifted count).shifted more = q.shifted (count + more) :=
  congrArg q.withEntries (List.rotate_rotate q.entries count more)

theorem shifted_around (q : Roster α) (rounds : Nat) :
    q.shifted (q.entries.length * rounds) = q :=
  congrArg q.withEntries (List.rotate_length_mul q.entries rounds)

theorem shifted_empty (none : q.entries = []) (count : Nat) : q.shifted count = q := by
  have same : q.entries.rotate count = q.entries := by
    rw [none, List.rotate_nil]
  exact congrArg q.withEntries same

end Roster

namespace Tip

def opposite : Tip → Tip
  | .head => .tail
  | .tail => .head

def rotation : Tip → ListOp α
  | .head => .rotateHeadToTail
  | .tail => .rotateTailToHead

def rotate : Tip → Roster α → Roster α
  | .head => Roster.rotateHeadToTail
  | .tail => Roster.rotateTailToHead

def shift (count : Nat) : Tip → Nat
  | .head => 1
  | .tail => count - 1

theorem rotate_eq (tip : Tip) (q : Roster α) :
    tip.rotate q = q.shifted (tip.shift q.entries.length) := by
  rcases q with ⟨entries, vacant, made, capacity⟩
  cases tip with
  | head =>
    cases entries with
    | nil => rfl
    | cons first rest =>
      simp only [rotate, Roster.rotateHeadToTail, Roster.shifted, shift, List.rotate_cons_succ,
        List.rotate_zero]
  | tail =>
    rcases List.eq_nil_or_concat' entries with none | ⟨front, last, split⟩
    · subst none
      rfl
    · subst split
      have behind : (front ++ [last]).length - 1 = front.length := by simp
      simp only [rotate, Roster.rotateTailToHead, Roster.shifted, shift, behind,
        List.rotate_append_length_eq, List.getLast?_concat, List.dropLast_concat]
      rfl

theorem rotate_opposite (tip : Tip) (q : Roster α) : tip.opposite.rotate (tip.rotate q) = q := by
  rw [rotate_eq, rotate_eq, Roster.shifted_length, Roster.shifted_shifted]
  rcases Nat.eq_zero_or_pos q.entries.length with none | positive
  · exact Roster.shifted_empty (List.length_eq_zero_iff.mp none) _
  · have whole : tip.shift q.entries.length + tip.opposite.shift q.entries.length =
        q.entries.length * 1 := by
      cases tip <;> simp only [shift, opposite] <;> omega
    rw [whole]
    exact q.shifted_around 1

theorem rotate_iterate (tip : Tip) (q : Roster α) (count : Nat) :
    tip.rotate^[count] q = q.shifted (tip.shift q.entries.length * count) := by
  induction count with
  | zero => exact (congrArg q.withEntries (List.rotate_zero q.entries)).symm
  | succ count ih =>
    rw [Function.iterate_succ_apply', ih, rotate_eq, Roster.shifted_length, Roster.shifted_shifted,
      Nat.mul_succ]

theorem rotate_around (tip : Tip) (q : Roster α) : tip.rotate^[q.entries.length] q = q := by
  rw [rotate_iterate, Nat.mul_comm]
  exact q.shifted_around _

end Tip

namespace Chain

variable {c : Chain α} {q : Roster α} {handle : Handle} {tip : Tip}

/-- The value of the node at an end, put at the other end when the node has gone, makes a rotation. -/
theorem Represents.rotate_tip (rep : c.Represents q) (ends : tip.handle? c = some handle) :
    ∃ front value back before behind, q.entries = front ++ (handle, value) :: back ∧
      (q.takeOut front handle back).gap tip.opposite.place = .ok (before, behind) ∧
      (q.takeOut front handle back).putBetween before behind value = tip.rotate q := by
  rcases rep.tip_split ends with ⟨front, value, back, entries, outermost⟩
  refine ⟨front, value, back, ?_⟩
  cases tip with
  | head =>
    subst outermost
    refine ⟨back, [], entries, rfl, ?_⟩
    simp only [Tip.rotate, Roster.rotateHeadToTail, entries]
    rfl
  | tail =>
    subst outermost
    refine ⟨[], front, entries, congrArg (fun left => Except.ok ([], left)) (List.append_nil front),
      ?_⟩
    simp only [Tip.rotate, Roster.rotateTailToHead, entries, List.getLast?_concat, List.dropLast_concat]
    rfl

end Chain

namespace PlainStore

variable {p : PlainStore α} {name : String} {list : PlainList α} [BEq α] [Outlined α] [Stored α]

theorem rotation_ends (found : p.lists.find? name = some list) (tip : Tip) :
    p.step (.on name tip.rotation) =
      conclude (p.lists.put name ⟨tip.rotate list.roster, list.hooks⟩) (.ok .done p.session) := by
  rw [step_on found]
  cases tip <;> rfl

/-- So many rotations in a row, whatever the list. -/
theorem rotations_end (sorted : p.lists.Sorted) (found : p.lists.find? name = some list) (tip : Tip)
    (count : Nat) :
    p.run (List.replicate count (.on name tip.rotation)) =
      (List.replicate count ⟨.returned .done, [], []⟩,
        ⟨p.lists.put name ⟨tip.rotate^[count] list.roster, list.hooks⟩, p.ledger⟩) := by
  induction count generalizing p list with
  | zero =>
    show ([], p) = ([], PlainStore.mk (p.lists.put name list) p.ledger)
    rw [sorted.put_same found]
  | succ count ih =>
    have found' := p.lists.find?_put_self name ⟨tip.rotate list.roster, list.hooks⟩
    rw [List.replicate_succ, run_quietly (rotation_ends found tip), ih (sorted.put name _) found',
      Registry.put_put]
    rfl

theorem rotation_undone (sorted : p.lists.Sorted) (found : p.lists.find? name = some list)
    (tip : Tip) :
    p.run [.on name tip.rotation, .on name tip.opposite.rotation] =
      ([⟨.returned .done, [], []⟩, ⟨.returned .done, [], []⟩], p) := by
  have found' := p.lists.find?_put_self name ⟨tip.rotate list.roster, list.hooks⟩
  have second := rotation_ends (p := ⟨p.lists.put name ⟨tip.rotate list.roster, list.hooks⟩, p.ledger⟩)
    found' tip.opposite
  rw [Tip.rotate_opposite, Registry.put_put, sorted.put_same found] at second
  rw [run_quietly (rotation_ends found tip), run_quietly second]
  rfl

theorem pop_idles (sorted : p.lists.Sorted) (found : p.lists.find? name = some list)
    (empty : list.roster.entries = []) (tip : Tip) :
    p.step (.on name tip.pop) = (⟨.returned (.value none), [], []⟩, p) := by
  apply step_looks sorted found
  cases tip with
  | head =>
    rw [Tip.pop, PlainBench.perform, bind_apply, PlainBench.edit_apply]
    unfold Roster.popFront
    rw [empty]
    rfl
  | tail =>
    rw [Tip.pop, PlainBench.perform, bind_apply, PlainBench.edit_apply]
    unfold Roster.popBack
    rw [empty]
    rfl

end PlainStore

namespace Store

variable {s : Store α} {p : PlainStore α} {name : String} {list : HookedList α} {plain : PlainList α}
  {tip : Tip} [BEq α] [Outlined α] [Stored α]

theorem Mirrors.pop_insert (mirrors : s.Mirrors p) (there : p.lists.find? name = some plain)
    (same : list.Mirrors plain) {handle : Handle} (ends : tip.handle? list.chain = some handle) :
    ∃ value, list.chain.get? handle = some value ∧ ∀ memory,
      p.run [.on name tip.pop, .on name (.insert memory tip.opposite.place value)] =
        ([⟨.returned (.value (some value)), [], []⟩, ⟨.returned (.handle (some handle)), [], []⟩],
          ⟨p.lists.put name ⟨tip.rotate plain.roster, plain.hooks⟩, p.ledger⟩) := by
  have rep := same.represents
  rcases rep.rotate_tip ends with ⟨front, value, back, before, behind, entries, gap, rotated⟩
  have stored : list.chain.get? handle = some value := by
    rw [rep.get?_eq, rep.proper.get?_eq_some_iff, entries]
    exact List.mem_append_right front List.mem_cons_self
  refine ⟨value, stored, fun memory => ?_⟩
  have popped := mirrors.removal_ends there rep.proper entries (mirrors.removes_tip there rep ends)
  have there' := p.lists.find?_put_self name ⟨plain.roster.takeOut front handle back, plain.hooks⟩
  have put := PlainStore.insert_ends
    (p := ⟨p.lists.put name ⟨plain.roster.takeOut front handle back, plain.hooks⟩, p.ledger⟩)
    there' gap (plain.roster.reserveSlot_takeOut front handle back memory) value
  rw [rotated, Registry.put_put] at put
  rw [HookSet.handOut_pop, pure_apply] at popped
  rw [PlainStore.run_quietly popped, PlainStore.run_quietly put]
  rfl

/-- A rotation does to a list what popping the node at one end does, together with putting its value
    in at the other end. -/
structure Rotates (s : Store α) (name : String) (list : HookedList α) (tip : Tip) : Prop where
  moves : 0 < list.chain.length → ∃ handle value, tip.handle? list.chain = some handle ∧
    list.chain.get? handle = some value ∧
    ∀ memory, s.run [.on name tip.pop, .on name (.insert memory tip.opposite.place value)] =
      ([⟨.returned (.value (some value)), [], []⟩, ⟨.returned (.handle (some handle)), [], []⟩],
        (s.step (.on name tip.rotation)).2)
  idles : list.chain.length = 0 →
    s.step (.on name tip.rotation) = (⟨.returned .done, [], []⟩, s) ∧
      s.step (.on name tip.pop) = (⟨.returned (.value none), [], []⟩, s)
  returns : s.run [.on name tip.rotation, .on name tip.opposite.rotation] =
    ([⟨.returned .done, [], []⟩, ⟨.returned .done, [], []⟩], s)
  cycles : s.run (List.replicate list.chain.length (.on name tip.rotation)) =
    (List.replicate list.chain.length ⟨.returned .done, [], []⟩, s)
  keeps : ∃ after, (s.step (.on name tip.rotation)).2.lists.find? name = some ⟨after, list.hooks⟩ ∧
    ∀ handle, after.get? handle = list.chain.get? handle

theorem Mirrors.rotates (mirrors : s.Mirrors p) (sorted : p.lists.Sorted)
    (there : p.lists.find? name = some plain) (same : list.Mirrors plain) (tip : Tip) :
    s.Rotates name list tip := by
  have rep := same.represents
  have turned := PlainStore.rotation_ends there tip
  have agree := step_agrees mirrors (.on name tip.rotation)
  constructor
  case moves =>
    intro positive
    rcases rep.tip_of_length positive tip with ⟨handle, ends⟩
    rcases mirrors.pop_insert there same ends with ⟨value, stored, ended⟩
    rw [turned] at agree
    exact ⟨handle, value, ends, stored, fun memory => mirrors.run_ends (ended memory) agree.stores⟩
  case idles =>
    intro none
    rw [rep.length, List.length_eq_zero_iff] at none
    rw [tip.rotate_eq, Roster.shifted_empty none, sorted.put_same there] at turned
    exact ⟨mirrors.step_back turned, mirrors.step_back (PlainStore.pop_idles sorted there none tip)⟩
  case returns => exact mirrors.run_ends (PlainStore.rotation_undone sorted there tip) mirrors
  case cycles =>
    have ended := PlainStore.rotations_end sorted there tip plain.roster.entries.length
    rw [tip.rotate_around, sorted.put_same there, ← rep.length] at ended
    exact mirrors.run_ends ended mirrors
  case keeps =>
    have there' : (p.step (.on name tip.rotation)).2.lists.find? name =
        some ⟨tip.rotate plain.roster, plain.hooks⟩ := by
      rw [turned]
      exact p.lists.find?_put_self name _
    rcases agree.stores.mirrored there' with ⟨⟨after, hooks⟩, found, same'⟩
    have kept : hooks = list.hooks := same'.hooks.trans same.hooks.symm
    subst kept
    refine ⟨after, found, fun handle => ?_⟩
    rw [same'.represents.get?_eq, rep.get?_eq, tip.rotate_eq]
    exact rep.proper.get?_withEntries (List.rotate_perm _ _) handle

/-- Whatever a list is like, rotating it either way is popping and inserting again. The two ways undo
    each other, and as many rotations as there are nodes do nothing. -/
theorem run_rotates (ops : List (Op α)) {name : String} {list : HookedList α}
    (found : (Store.empty.run ops).2.lists.find? name = some list) (tip : Tip) :
    (Store.empty.run ops).2.Rotates name list tip := by
  rcases run_found ops found with ⟨p, plain, mirrors, sorted, there, same⟩
  exact mirrors.rotates sorted there same tip

/-- The two nodes of the list lie around a vacant slot. -/
theorem run_rotates_two_nodes :
    let ops : List (Op Value) := [
      .create "a" {},
      .on "a" (.insert .available .tail (.int 1)),
      .on "a" (.insert .available .tail (.int 2)),
      .on "a" (.insert .available .tail (.int 3)),
      .on "a" (.delete 1)]
    ∃ reached list, reached = (Store.empty.run ops).2 ∧ reached.lists.find? "a" = some list ∧
      list.chain.length = 2 ∧
      (∀ tip : Tip, reached.run [.on "a" tip.rotation, .on "a" tip.rotation] =
        ([⟨.returned .done, [], []⟩, ⟨.returned .done, [], []⟩], reached)) ∧
      ∃ last value, list.chain.tail = some last ∧
        reached.run [.on "a" .popBack, .on "a" (.insert .exhausted .head value)] =
          ([⟨.returned (.value (some value)), [], []⟩, ⟨.returned (.handle (some last)), [], []⟩],
            (reached.step (.on "a" .rotateTailToHead)).2) := by
  intro ops
  have present : ((Store.empty.run ops).2.lists.find? "a").map (·.chain.length) = some 2 := by
    rfl
  rcases Option.map_eq_some_iff.mp present with ⟨list, found, length⟩
  refine ⟨_, list, rfl, found, length, ?_, ?_⟩
  · intro tip
    have cycles := (run_rotates ops found tip).cycles
    rw [length] at cycles
    exact cycles
  · rcases (run_rotates ops found .tail).moves (by omega) with ⟨last, value, ends, -, moves⟩
    exact ⟨last, value, ends, moves .exhausted⟩

end Store

end LinkedSlots
