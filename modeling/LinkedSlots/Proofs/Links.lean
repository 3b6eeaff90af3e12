import LinkedSlots.Proofs.Refinement
import LinkedSlots.Value.Policy
import Mathlib.Data.List.Induction

namespace LinkedSlots

variable {α : Type}

def Follows (link : Handle → Option Handle) : Option Handle → List Handle → Prop
  | start, [] => start = none
  | start, handle :: rest => start = some handle ∧ Follows link (link handle) rest

namespace Roster

variable {q : Roster α} {handle other : Handle}

theorem Proper.distinct {front back : List (Handle × α)} {value : α} (proper : q.Proper)
    (entries : q.entries = front ++ (handle, value) :: back) : handle ∉ front.map Prod.fst := by
  have nodup := proper.handles_nodup
  rw [handles, entries] at nodup
  exact outside_front nodup

theorem Proper.gap_after {front back : List (Handle × α)} {value : α} (proper : q.Proper)
    (entries : q.entries = front ++ (handle, value) :: back) :
    q.gap (.after handle) = .ok (front ++ [(handle, value)], back) := by
  have here := locate_middle (proper.distinct entries) value back
  rw [← entries] at here
  simp only [gap, here]

theorem Proper.gap_before {front back : List (Handle × α)} {value : α} (proper : q.Proper)
    (entries : q.entries = front ++ (handle, value) :: back) :
    q.gap (.before handle) = .ok (front, (handle, value) :: back) := by
  have here := locate_middle (proper.distinct entries) value back
  rw [← entries] at here
  simp only [gap, here]

theorem Proper.next?_iff (proper : q.Proper) : q.next? handle = some other ↔
    ∃ front value next back, q.entries = front ++ (handle, value) :: (other, next) :: back := by
  unfold Roster.next?
  constructor
  · intro found
    rcases Option.bind_eq_some_iff.mp found with ⟨⟨front, value, back⟩, place, first⟩
    rcases Option.map_eq_some_iff.mp first with ⟨⟨_, next⟩, head, rfl⟩
    rcases List.head?_eq_some_iff.mp head with ⟨behind, rfl⟩
    exact ⟨front, value, next, behind, locate_eq_some place⟩
  · rintro ⟨front, value, next, back, entries⟩
    have outside := proper.distinct entries
    rw [entries, locate_middle outside]
    rfl

theorem Proper.prev?_iff (proper : q.Proper) : q.prev? other = some handle ↔
    ∃ front value next back, q.entries = front ++ (handle, value) :: (other, next) :: back := by
  unfold Roster.prev?
  constructor
  · intro found
    rcases Option.bind_eq_some_iff.mp found with ⟨⟨front, next, back⟩, place, last⟩
    rcases Option.map_eq_some_iff.mp last with ⟨⟨_, value⟩, tail, rfl⟩
    rcases List.getLast?_eq_some_iff.mp tail with ⟨before, rfl⟩
    refine ⟨before, value, next, back, ?_⟩
    rw [locate_eq_some place, List.append_assoc]
    rfl
  · rintro ⟨front, value, next, back, entries⟩
    have split : q.entries = (front ++ [(handle, value)]) ++ (other, next) :: back := by
      rw [entries, List.append_assoc]
      rfl
    have outside := proper.distinct split
    rw [split, locate_middle outside]
    simp

end Roster

namespace Chain

def below? (c : Chain α) (handle : Handle) : Option Handle :=
  match c.slots[handle]? with
  | some (.vacant below) => below
  | _ => none

/-- The slots make up one chain of nodes, linked both ways, and one stack of vacant slots. -/
structure Linked (c : Chain α) (nodes vacant : List Handle) : Prop where
  forward : Follows c.next? c.head nodes
  backward : Follows c.prev? c.tail nodes.reverse
  stack : Follows c.below? c.vacancy vacant
  occupied : ∀ handle ∈ nodes, ∃ node, c.slots[handle]? = some (.occupied node)
  unoccupied : ∀ handle ∈ vacant, ∃ below, c.slots[handle]? = some (.vacant below)
  once : (nodes ++ vacant).Perm (List.range c.slots.size)
  headFirst : ∀ handle, c.head = some handle → c.prev? handle = none
  tailLast : ∀ handle, c.tail = some handle → c.next? handle = none
  counted : c.length = nodes.length
  headless : c.length = 0 ↔ c.head = none
  tailless : c.length = 0 ↔ c.tail = none
  reciprocal : ∀ handle other, c.next? handle = some other ↔ c.prev? other = some handle
  walk : c.handles = .ok nodes
  walkBack : c.handlesBack = .ok nodes.reverse

variable {c : Chain α} {q : Roster α}

theorem follows_next {entries : List (Handle × α)} {prev : Option Handle}
    (nodes : Segment c.slots prev entries none) :
    Follows c.next? (firstOf entries none) (entries.map Prod.fst) := by
  induction entries generalizing prev with
  | nil => rfl
  | cons entry rest ih =>
    have next : c.next? entry.1 = firstOf rest none := by
      unfold Chain.next?
      rw [node?_of_lookup nodes.1]
      rfl
    have later := ih nodes.2
    rw [← next] at later
    exact ⟨rfl, later⟩

theorem follows_prev {entries : List (Handle × α)} {next : Option Handle}
    (nodes : Segment c.slots none entries next) :
    Follows c.prev? (lastOf none entries) (entries.map Prod.fst).reverse := by
  -- Going back, the last entry is the one to start from.
  induction entries using List.reverseRecOn generalizing next with
  | nil => rfl
  | append_singleton front entry ih =>
    rcases entry with ⟨handle, value⟩
    have before := ((segment_append front [(handle, value)]).mp nodes).1
    have prev : c.prev? handle = lastOf none front := by
      unfold Chain.prev?
      rw [node?_of_lookup nodes.lookup]
      rfl
    have earlier := ih before
    rw [← prev] at earlier
    rw [List.map_append, List.reverse_append, lastOf_append]
    exact ⟨rfl, earlier⟩

theorem follows_below {vacant : List Handle} (stack : Stack c.slots vacant) :
    Follows c.below? vacant.head? vacant := by
  induction vacant with
  | nil => rfl
  | cons top rest ih =>
    have below : c.below? top = rest.head? := by
      unfold below?
      rw [stack.1]
    have later := ih stack.2
    rw [← below] at later
    exact ⟨rfl, later⟩

theorem Represents.prev?_head (rep : c.Represents q) {handle : Handle}
    (head : c.head = some handle) : c.prev? handle = none := by
  rw [rep.head] at head
  cases entries : q.entries with
  | nil =>
    rw [entries] at head
    cases head
  | cons entry back =>
    rcases entry with ⟨first, value⟩
    rw [entries] at head
    cases head
    have split : q.entries = [] ++ (handle, value) :: back := entries
    have live := rep.node?_live split
    unfold Chain.prev?
    rw [live]
    rfl

theorem Represents.next?_tail (rep : c.Represents q) {handle : Handle}
    (tail : c.tail = some handle) : c.next? handle = none := by
  rw [rep.tail] at tail
  rcases List.eq_nil_or_concat' q.entries with entries | ⟨front, ⟨last, value⟩, entries⟩
  · rw [entries] at tail
    cases tail
  · rw [entries, lastOf_append] at tail
    cases tail
    have live := rep.node?_live entries
    unfold Chain.next?
    rw [live]
    rfl

theorem Represents.linked (rep : c.Represents q) : c.Linked q.handles q.vacant := by
  have headless : c.length = 0 ↔ c.head = none := by
    rw [rep.length, rep.head_eq, List.length_eq_zero_iff, List.head?_eq_none_iff]
    exact List.map_eq_nil_iff.symm
  have tailless : c.length = 0 ↔ c.tail = none := by
    rw [rep.length, rep.tail_eq, List.length_eq_zero_iff, List.getLast?_eq_none_iff]
    exact List.map_eq_nil_iff.symm
  constructor
  case forward =>
    rw [rep.head]
    exact follows_next rep.nodes
  case backward =>
    rw [rep.tail]
    exact follows_prev rep.nodes
  case stack =>
    rw [rep.vacancy]
    exact follows_below rep.vacancies
  case occupied =>
    intro handle member
    rcases List.mem_map.mp member with ⟨⟨_, value⟩, inside, rfl⟩
    rcases List.append_of_mem inside with ⟨front, back, split⟩
    exact ⟨_, rep.lookup split⟩
  case unoccupied =>
    intro handle member
    exact rep.vacancies.lookup member
  case once =>
    rw [rep.size]
    exact rep.proper.once
  case headFirst => exact fun handle => rep.prev?_head
  case tailLast => exact fun handle => rep.next?_tail
  case counted =>
    rw [rep.length]
    exact (List.length_map _).symm
  case headless => exact headless
  case tailless => exact tailless
  case reciprocal =>
    intro handle other
    rw [rep.next?_eq, rep.prev?_eq, rep.proper.next?_iff, rep.proper.prev?_iff]
  case walk => exact rep.handles
  case walkBack => exact rep.handlesBack

end Chain

namespace Store

variable [BEq α] [Outlined α] [Stored α]

/-- However the lists were used, and whatever cut an operation short, each of them is one chain of
    nodes and one stack of vacant slots. -/
theorem run_linked (ops : List (Op α)) {name : String} {list : HookedList α}
    (found : (Store.empty.run ops).2.lists.find? name = some list) :
    ∃ nodes vacant, list.chain.Linked nodes vacant := by
  rcases (run_agrees empty_mirrors ops).2.found found with ⟨plain, -, same⟩
  exact ⟨plain.roster.handles, plain.roster.vacant, same.represents.linked⟩

/-- A free hook that panics has stopped the list from being emptied. -/
theorem run_linked_after_panic :
    let ops : List (Op Value) := [
      .create "a" { free := some (Value.Freeing.policy "free" (.panicIf (.int 2))) },
      .on "a" (.insert .available .tail (.int 1)),
      .on "a" (.insert .available .head (.int 2)),
      .on "a" (.insert .available .tail (.int 3)),
      .on "a" .rotateHeadToTail,
      .on "a" (.delete 0),
      .on "a" (.insert .available (.after 1) (.int 4)),
      .on "a" .empty]
    ∃ list, (Store.empty.run ops).2.lists.find? "a" = some list ∧ list.chain.length = 1 ∧
      ∃ nodes vacant, list.chain.Linked nodes vacant := by
  intro ops
  have counted : ((Store.empty.run ops).2.lists.find? "a").map (·.chain.length) = some 1 := by
    decide +kernel
  rcases Option.map_eq_some_iff.mp counted with ⟨list, found, counted⟩
  exact ⟨list, found, counted, run_linked ops found⟩

end Store

end LinkedSlots
