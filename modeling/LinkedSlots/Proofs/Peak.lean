import LinkedSlots.Proofs.Growth
import Mathlib.Order.Bounds.Basic

namespace LinkedSlots

variable {α : Type}

def Chain.filling [Stored α] (memory : Memory) (c other : Chain α) : List (Chain α) :=
  match reserve memory other.length c with
  | .ok (.ok ()) roomy => (List.range (other.length + 1)).map fun count =>
    (ending (moveFront memory count (roomy, other))).1
  | _ => []

def HookedList.emptying (list : HookedList α) (session : Session α) : List (Chain α) :=
  (List.range (list.chain.length + 1)).map fun count =>
    (ending (freeFront count ⟨list, session.noted (.emptying list.chain.length)⟩)).list.chain

structure Between (chains : List (Chain α)) (q after : Roster α) : Prop where
  lengths : ∀ chain ∈ chains, chain.length ≤ max q.entries.length after.entries.length
  fits : ∀ chain ∈ chains, chain.slots.size ≤ chain.capacity
  room : ∃ room, q.capacity ≤ room ∧ room ≤ after.capacity ∧ ∀ chain ∈ chains, chain.capacity = room

variable {q after p grown : Roster α} {c d : Chain α} {name : String}

theorem Chain.Represents.fits (rep : c.Represents q) : c.slots.size ≤ c.capacity := by
  rw [rep.size, rep.capacity]
  exact rep.proper.fits

theorem Between.nil (more : q.capacity ≤ after.capacity) : Between [] q after :=
  ⟨nofun, nofun, q.capacity, Nat.le_refl _, more, nofun⟩

/-- The capacity goes up if anything, and there is no slot beyond it. -/
theorem Between.widens {chains : List (Chain α)} (between : Between chains q after)
    (rep : c.Represents q) (rep' : d.Represents after) :
    ((c :: chains ++ [d]).map Chain.capacity).Pairwise (· ≤ ·) ∧
      ∀ chain ∈ c :: chains ++ [d], chain.slots.size ≤ chain.capacity := by
  rcases between.room with ⟨room, more, enough, level⟩
  rw [← rep.capacity] at more
  rw [← rep'.capacity] at enough
  constructor
  · rw [List.pairwise_map, List.pairwise_append, List.pairwise_cons]
    refine ⟨⟨?_, ?_⟩, List.pairwise_singleton _ _, ?_⟩
    · intro chain moment
      exact more.trans_eq (level chain moment).symm
    · apply List.pairwise_of_forall_mem_list
      intro chain moment other moment'
      rw [level chain moment, level other moment']
    · intro chain member last behind
      rw [List.mem_singleton.mp behind]
      rcases List.mem_cons.mp member with rfl | moment
      · exact more.trans enough
      · rw [level chain moment]
        exact enough
  · intro chain member
    rcases List.mem_append.mp member with member | last
    · rcases List.mem_cons.mp member with rfl | moment
      · exact rep.fits
      · exact between.fits chain moment
    · rw [List.mem_singleton.mp last]
      exact rep'.fits

theorem Chain.Represents.filling_refused [Stored α] {memory : Memory} {shortage : Shortage}
    (rep : c.Represents q) (other : d.Represents p) (refused : q.reserve memory p.entries.length = .error shortage) :
    filling memory c d = [] := by
  have asked := rep.reserve memory p.entries.length
  rw [refused] at asked
  unfold filling
  rw [other.length, asked]

/-- A join fills its receiver value by value, in room that was made before the first of them. -/
theorem Chain.Represents.filling_between [Stored α] {memory : Memory} (rep : c.Represents q)
    (other : d.Represents p) (granted : q.reserve memory p.entries.length = .ok grown) :
    Between (filling memory c d) q (grown.pushAll p.values) := by
  have asked := rep.reserve memory p.entries.length
  rw [granted] at asked
  rcases asked with ⟨run, rep'⟩
  have more := Roster.roomier_of_grow granted
  have room := (rep.proper.room_of_reserve granted).2
  have moment : ∀ chain ∈ filling memory c d,
      ∃ count, count ≤ p.entries.length ∧ chain.Represents (grown.pushAll (p.values.take count)) := by
    unfold filling
    rw [other.length, run]
    intro chain member
    rcases List.mem_map.mp member with ⟨count, within, rfl⟩
    have enough : count ≤ p.entries.length := Nat.le_of_lt_succ (List.mem_range.mp within)
    rcases rep'.moveFront memory count other enough (by omega) with ⟨c', d', moved, rep'', -⟩
    rw [moved]
    exact ⟨count, enough, rep''⟩
  refine ⟨?_, ?_, grown.capacity, more.capacity, ?_, ?_⟩
  · intro chain member
    rcases moment chain member with ⟨count, enough, rep''⟩
    have whole := grown.pushAll_length p.values
    rw [rep''.length, grown.pushAll_length, whole, List.length_take]
    omega
  · intro chain member
    rcases moment chain member with ⟨count, -, rep''⟩
    exact rep''.fits
  · exact (Roster.pushAll_capacity _).ge
  · intro chain member
    rcases moment chain member with ⟨count, -, rep''⟩
    exact rep''.capacity.trans (Roster.pushAll_capacity _)

/-- While a list is emptied it only becomes shorter. -/
theorem HookedList.emptying_between (rep : c.Represents q) (hooks : HookSet α) (session : Session α)
    (more : q.capacity ≤ after.capacity) : Between (emptying ⟨c, hooks⟩ session) q after := by
  have moment : ∀ chain ∈ emptying ⟨c, hooks⟩ session,
      ∃ count, chain.Represents (q.dropFront count) := by
    intro chain member
    rcases List.mem_map.mp member with ⟨count, -, rfl⟩
    rcases freeFront_ends rep hooks (session.noted (.emptying c.length)) count with
      ⟨c', t, -, run, rep'⟩ | ⟨panic, c', t, -, run, rep'⟩
    · rw [run]
      exact ⟨count, rep'⟩
    · rw [run]
      exact ⟨_, rep'⟩
  refine ⟨?_, ?_, q.capacity, Nat.le_refl _, more, ?_⟩
  · intro chain member
    rcases moment chain member with ⟨count, rep'⟩
    rw [rep'.length]
    simp only [Roster.dropFront, List.length_drop]
    omega
  · intro chain member
    rcases moment chain member with ⟨count, rep'⟩
    exact rep'.fits
  · intro chain member
    rcases moment chain member with ⟨count, rep'⟩
    exact rep'.capacity

/-- Where lengths are added to those so far, the last one is at most the greatest or replaces it. -/
theorem greatest_later {earlier between : List Nat} {greatest before last : Nat}
    (peak : IsGreatest {length | length ∈ earlier} greatest) (held : before ≤ greatest)
    (within : ∀ length ∈ between, length ≤ max before last) :
    IsGreatest {length | length ∈ earlier ++ between ++ [last]} (max greatest last) := by
  constructor
  · show max greatest last ∈ earlier ++ between ++ [last]
    rcases le_total greatest last with less | more
    · rw [max_eq_right less]
      exact List.mem_append_right _ (List.mem_singleton_self _)
    · rw [max_eq_left more]
      exact List.mem_append_left _ (List.mem_append_left _ peak.1)
  · intro length member
    rcases List.mem_append.mp member with member | member
    · rcases List.mem_append.mp member with member | member
      · exact (peak.2 member).trans (le_max_left _ _)
      · exact (within length member).trans (max_le_max_right _ held)
    · rw [List.mem_singleton.mp member]
      exact le_max_right _ _

def PlainStore.Peak (p : PlainStore α) (name : String) (lengths : List Nat) : Prop :=
  ∀ plain, p.lists.find? name = some plain → IsGreatest {length | length ∈ lengths} plain.roster.made

namespace Store

variable {s : Store α} {p : PlainStore α} [Stored α]

def underway (s : Store α) (name : String) : Op α → List (Chain α)
  | .on target .empty =>
    if target = name then
      match s.lists.find? target with
      | some list => list.emptying s.session
      | none => []
    else []
  | .join target source memory =>
    if target = name ∧ target ≠ source then
      match s.lists.find? target, s.lists.find? source with
      | some list, some other => Chain.filling memory list.chain other.chain
      | _, _ => []
    else []
  | _ => []

variable [BEq α] [Outlined α]

/-- The lengths that a list has had since it was made or has last forgotten its slots. -/
def lengthsAfter (s : Store α) (name : String) (op : Op α) (earlier : List Nat) : List Nat :=
  let (report, after) := s.step op
  match after.lists.find? name with
  | none => []
  | some list =>
    if s.Ends name op ∨ op.Forgets name report then [list.chain.length]
    else earlier ++ (s.underway name op).map Chain.length ++ [list.chain.length]

def lengths (s : Store α) (name : String) (earlier : List Nat) : List (Op α) → List Nat
  | [] => earlier
  | op :: ops => (s.step op).2.lengths name (s.lengthsAfter name op earlier) ops

theorem Mirrors.underway_between (mirrors : s.Mirrors p) {plain after : PlainList α}
    (there : p.lists.find? name = some plain) {op : Op α} (lasts : ¬ s.Ends name op)
    (left : (p.step op).2.lists.find? name = some after) :
    Between (s.underway name op) plain.roster after.roster := by
  rcases mirrors.mirrored there with ⟨⟨c, hooks⟩, found, same⟩
  rcases mirrors.lasts there lasts with ⟨also, left', turn⟩
  cases left.symm.trans left'
  have more := turn.capacity_le
  cases op with
  | on target listOp =>
    cases listOp with
    | empty =>
      by_cases here : target = name
      · subst here
        rw [underway, if_pos rfl, found]
        exact HookedList.emptying_between same.represents hooks s.session more
      · rw [underway, if_neg here]
        exact .nil more
    | _ => exact .nil more
  | join target source memory =>
    by_cases here : target = name ∧ target ≠ source
    · rw [underway, if_pos here]
      rcases here with ⟨rfl, ne⟩
      rw [found]
      cases found' : s.lists.find? source with
      | none => exact .nil more
      | some other =>
        rcases mirrors.found found' with ⟨plain', there', same'⟩
        have step := PlainStore.join_ends ne there there' memory
        cases granted : plain.roster.reserve memory plain'.roster.entries.length with
        | error shortage =>
          dsimp only
          rw [same.represents.filling_refused same'.represents granted]
          exact .nil more
        | ok grown =>
          rw [granted] at step
          rw [step, PlainStore.conclude_lists, Registry.find?_put_of_ne _ _ ne,
            Registry.find?_put_self] at left
          cases left
          exact same.represents.filling_between same'.represents granted
    · rw [underway, if_neg here]
      exact .nil more
  | _ => exact .nil more

theorem Mirrors.step_peak (mirrors : s.Mirrors p) {earlier : List Nat} (peak : p.Peak name earlier)
    (op : Op α) : (p.step op).2.Peak name (s.lengthsAfter name op earlier) := by
  intro after there'
  have agree := step_agrees mirrors op
  rcases agree.stores.mirrored there' with ⟨list, found', same'⟩
  have length := same'.represents.length
  have counted' := same'.represents.proper.count
  unfold lengthsAfter
  dsimp only
  rw [found']
  dsimp only
  by_cases starts : s.Ends name op ∨ op.Forgets name (s.step op).1
  · -- The list starts without vacant slots.
    have full : after.roster.vacant = [] := by
      rcases starts with ends | forgets
      · exact PlainStore.step_made Roster.innate_vacant ((mirrors.ends_iff name op).mp ends) there'
      · rw [agree.report] at forgets
        exact PlainStore.step_forgotten forgets there'
    rw [full, List.length_nil, Nat.add_zero] at counted'
    rw [if_pos starts, length, counted']
    simp [IsGreatest, upperBounds]
  · rw [if_neg starts]
    rcases not_or.mp starts with ⟨lasts, remembers⟩
    cases there : p.lists.find? name with
    | none =>
      rw [mirrors.ends_iff] at lasts
      rw [PlainStore.step_absent there lasts] at there'
      cases there'
    | some plain =>
      rcases mirrors.mirrored there with ⟨held, -, same⟩
      rcases mirrors.lasts there lasts with ⟨also, left, turn⟩
      cases there'.symm.trans left
      have proper := same.represents.proper
      have held : plain.roster.entries.length ≤ plain.roster.made := proper.count ▸ Nat.le_add_right _ _
      have between := mirrors.underway_between there lasts left
      rw [length, turn.made_eq proper remembers]
      apply greatest_later (peak plain there) held
      intro other member
      rcases List.mem_map.mp member with ⟨chain, moment, rfl⟩
      exact between.lengths chain moment

theorem Mirrors.run_peak (mirrors : s.Mirrors p) {earlier : List Nat} (peak : p.Peak name earlier)
    (ops : List (Op α)) : (p.run ops).2.Peak name (s.lengths name earlier ops) := by
  induction ops generalizing s p earlier with
  | nil => exact peak
  | cons op ops ih => exact ih (step_agrees mirrors op).stores (mirrors.step_peak peak op)

/-- A list has as many slots as it has had values at once since it was made or has last forgotten
    its slots, however many came and went. Its capacity bounds them and never goes down. -/
theorem run_slots (ops : List (Op α)) {name : String} {list : HookedList α}
    (found : (Store.empty.run ops).2.lists.find? name = some list) :
    let reached := (Store.empty.run ops).2
    IsGreatest {length | length ∈ Store.empty.lengths name [] ops} list.chain.slots.size ∧
      list.chain.slots.size ≤ list.chain.capacity ∧
      ∀ op, ¬ reached.Ends name op → ∃ after, (reached.step op).2.lists.find? name = some after ∧
        let moments := list.chain :: reached.underway name op ++ [after.chain]
        (moments.map Chain.capacity).Pairwise (· ≤ ·) ∧
          ∀ chain ∈ moments, chain.slots.size ≤ chain.capacity := by
  intro reached
  have mirrors : reached.Mirrors _ := (run_agrees empty_mirrors ops).2
  rcases mirrors.found found with ⟨plain, there, same⟩
  refine ⟨?_, same.represents.fits, ?_⟩
  · have peak : (PlainStore.empty.run ops).2.Peak name (Store.empty.lengths name [] ops) :=
      empty_mirrors.run_peak nofun ops
    rw [same.represents.size]
    exact peak plain there
  · intro op lasts
    rcases mirrors.lasts there lasts with ⟨plain', there', -⟩
    rcases (step_agrees mirrors op).stores.mirrored there' with ⟨after, found', same'⟩
    have between := mirrors.underway_between there lasts there'
    exact ⟨after, found', between.widens same.represents same'.represents⟩

/-- Emptied once, the list takes three values. Two more are joined to it where one slot is vacant,
    and a panic cuts its second emptying short. -/
theorem run_slots_amid_reuse :
    let ops : List (Op Value) := [
      .create "a" { free := some (Value.Freeing.policy "free" (.panicIf (.int 2))) },
      .on "a" (.insert .available .tail (.int 1)),
      .on "a" .empty,
      .on "a" (.insert .available .tail (.int 2)),
      .on "a" (.insert .available .tail (.int 3)),
      .on "a" (.insert .available .tail (.int 4)),
      .on "a" (.delete 1),
      .create "b" {},
      .on "b" (.insert .available .tail (.int 5)),
      .on "b" (.insert .available .tail (.int 6)),
      .join "a" "b" .available,
      .on "a" .empty,
      .on "a" (.insert .available .head (.int 7))]
    ∃ list, (Store.empty.run ops).2.lists.find? "a" = some list ∧
      Store.empty.lengths "a" [] ops =
        [0, 1, 2, 3, 2, 2, 2, 2, 2, 3, 4, 4, 4, 3, 3, 3, 3, 3, 4] ∧
      IsGreatest {length | length ∈ Store.empty.lengths "a" [] ops} list.chain.slots.size := by
  intro ops
  have present : ((Store.empty.run ops).2.lists.find? "a").isSome := by decide +kernel
  rcases Option.isSome_iff_exists.mp present with ⟨list, found⟩
  exact ⟨list, found, by decide +kernel, (run_slots ops found).1⟩

end Store

end LinkedSlots
