import LinkedSlots.Chain.Remove
import LinkedSlots.Proofs.Computation
import LinkedSlots.Proofs.Roster
import LinkedSlots.Proofs.Segment

namespace LinkedSlots.Chain

variable {α : Type}

/-- A chain stands for a roster: every slot holds what the roster says it must hold. -/
structure Represents (c : Chain α) (q : Roster α) : Prop where
  nodes : Segment c.slots none q.entries none
  vacancies : Stack c.slots q.vacant
  head : c.head = firstOf q.entries none
  tail : c.tail = lastOf none q.entries
  vacancy : c.vacancy = q.vacant.head?
  length : c.length = q.entries.length
  size : c.slots.size = q.made
  capacity : c.capacity = q.capacity
  proper : q.Proper

theorem represents_empty : (empty : Chain α).Represents .empty :=
  ⟨True.intro, True.intro, rfl, rfl, rfl, rfl, rfl, rfl, Roster.proper_empty⟩

variable {c : Chain α} {q : Roster α} {front back : List (Handle × α)} {handle : Handle} {value : α}

theorem Represents.reset (rep : c.Represents q) : c.reset.Represents q.reset :=
  ⟨True.intro, True.intro, rfl, rfl, rfl, rfl, rfl, rep.capacity, q.proper_reset⟩

/-- A chain stands for one roster only. -/
theorem Represents.unique {p : Roster α} (rep : c.Represents q) (also : c.Represents p) : q = p := by
  have entries : q.entries = p.entries :=
    rep.nodes.unique also.nodes (rep.head.symm.trans also.head)
  have vacant : q.vacant = p.vacant :=
    rep.vacancies.unique also.vacancies (rep.vacancy.symm.trans also.vacancy)
  have made : q.made = p.made := rep.size.symm.trans also.size
  have capacity : q.capacity = p.capacity := rep.capacity.symm.trans also.capacity
  cases q
  cases p
  simp only [Roster.mk.injEq]
  exact ⟨entries, vacant, made, capacity⟩

theorem node?_of_lookup {held : Node α} (found : c.slots[handle]? = some (.occupied held)) :
    c.node? handle = some held := by
  simp [node?, found]

theorem node_of_lookup {held : Node α} (found : c.slots[handle]? = some (.occupied held)) :
    c.node handle = .ok held := by
  simp [node, found]

theorem Represents.lookup (rep : c.Represents q) (entries : q.entries = front ++ (handle, value) :: back) :
    c.slots[handle]? = some (.occupied ⟨value, lastOf none front, firstOf back none⟩) := by
  have nodes := rep.nodes
  rw [entries] at nodes
  exact nodes.lookup

/-- A handle that names no entry has a vacant slot, or none. -/
theorem Represents.lookup_missing (rep : c.Represents q) (dead : handle ∉ q.handles) :
    (handle < q.made ∧ ∃ below, c.slots[handle]? = some (.vacant below)) ∨
      (¬ handle < q.made ∧ c.slots[handle]? = none) := by
  by_cases bound : handle < q.made
  · left
    have member := ((rep.proper.made_iff handle).mp bound).resolve_left dead
    exact ⟨bound, rep.vacancies.lookup member⟩
  · right
    refine ⟨bound, Array.getElem?_eq_none ?_⟩
    rw [rep.size]
    exact Nat.not_lt.mp bound

theorem Represents.node_live (rep : c.Represents q)
    (entries : q.entries = front ++ (handle, value) :: back) :
    c.node handle = .ok ⟨value, lastOf none front, firstOf back none⟩ :=
  node_of_lookup (rep.lookup entries)

theorem Represents.node?_live (rep : c.Represents q)
    (entries : q.entries = front ++ (handle, value) :: back) :
    c.node? handle = some ⟨value, lastOf none front, firstOf back none⟩ :=
  node?_of_lookup (rep.lookup entries)

theorem Represents.node_missing (rep : c.Represents q) (dead : handle ∉ q.handles) :
    c.node handle = .error (q.missing handle) := by
  rcases rep.lookup_missing dead with ⟨bound, below, found⟩ | ⟨bound, found⟩
  · simp [node, found, Roster.missing, bound]
  · simp [node, Roster.missing, bound, rep.size]

theorem Represents.node?_missing (rep : c.Represents q) (dead : handle ∉ q.handles) :
    c.node? handle = none := by
  rcases rep.lookup_missing dead with ⟨bound, below, found⟩ | ⟨bound, found⟩ <;> simp [node?, found]

theorem Represents.node?_eq (rep : c.Represents q) (handle : Handle) :
    c.node? handle = (locate handle q.entries).map fun (front, value, back) =>
      ⟨value, lastOf none front, firstOf back none⟩ := by
  cases place : locate handle q.entries with
  | none => simpa using rep.node?_missing (locate_eq_none_iff.mp place)
  | some found =>
    obtain ⟨front, value, back⟩ := found
    simpa using rep.node?_live (locate_eq_some place)

/-- A roster stands for one chain only. -/
theorem Represents.determines {d : Chain α} (rep : c.Represents q) (also : d.Represents q) : c = d := by
  have slots : c.slots = d.slots := by
    apply Array.ext_getElem?
    intro handle
    by_cases live : handle ∈ q.handles
    · exact rep.nodes.agree also.nodes live
    · by_cases dead : handle ∈ q.vacant
      · exact rep.vacancies.agree also.vacancies dead
      · have unmade : ¬ handle < q.made := fun bound =>
          ((rep.proper.made_iff handle).mp bound).elim live dead
        have absent := (rep.lookup_missing live).resolve_left fun made => unmade made.1
        have absent' := (also.lookup_missing live).resolve_left fun made => unmade made.1
        exact absent.2.trans absent'.2.symm
  have vacancy := rep.vacancy.trans also.vacancy.symm
  have head := rep.head.trans also.head.symm
  have tail := rep.tail.trans also.tail.symm
  have length := rep.length.trans also.length.symm
  have capacity := rep.capacity.trans also.capacity.symm
  cases c
  cases d
  simp only [Chain.mk.injEq]
  exact ⟨slots, vacancy, head, tail, length, capacity⟩

structure Apart (front back : List (Handle × α)) (vacant : List Handle) : Prop where
  frontNodup : (front.map Prod.fst).Nodup
  backNodup : (back.map Prod.fst).Nodup
  behind : ∀ handle ∈ back.map Prod.fst, handle ∉ front.map Prod.fst
  unused : ∀ handle ∈ vacant, handle ∉ front.map Prod.fst ∧ handle ∉ back.map Prod.fst

theorem Represents.apart (rep : c.Represents q) (entries : q.entries = front ++ back) :
    Apart front back q.vacant := by
  have nodup := rep.proper.handles_nodup
  simp only [Roster.handles, entries, List.map_append] at nodup
  obtain ⟨frontNodup, backNodup, separate⟩ := List.nodup_append.mp nodup
  refine ⟨frontNodup, backNodup, ?_, ?_⟩
  · intro handle behind before
    exact separate handle before handle behind rfl
  · intro handle dead
    have absent : handle ∉ q.handles := fun live => rep.proper.apart live dead
    simpa [Roster.handles, entries] using absent

theorem Represents.outside (rep : c.Represents q)
    (entries : q.entries = front ++ (handle, value) :: back) :
    handle ∉ front.map Prod.fst ∧ handle ∉ back.map Prod.fst ∧ handle ∉ q.vacant := by
  have apart := rep.apart entries
  refine ⟨apart.behind handle (by simp), (List.nodup_cons.mp apart.backNodup).1, fun dead => ?_⟩
  have absent := (apart.unused handle dead).2
  simp at absent

/-- Slots that hold the same nodes in another order stand for the reordered roster. -/
theorem Represents.reordered (rep : c.Represents q) {slots : Array (Slot α)}
    {entries : List (Handle × α)} {head tail : Option Handle} (size : slots.size = c.slots.size)
    (nodes : Segment slots none entries none)
    (same : (entries.map Prod.fst).Perm q.handles)
    (kept : ∀ other, other ∉ q.handles → slots[other]? = c.slots[other]?)
    (headEq : head = firstOf entries none) (tailEq : tail = lastOf none entries) :
    Represents { c with slots := slots, head := head, tail := tail } (q.withEntries entries) := by
  have vacancies : Stack slots q.vacant := rep.vacancies.congr fun other dead =>
    kept other fun live => rep.proper.apart live dead
  have length : c.length = entries.length := by
    rw [rep.length]
    simpa [Roster.handles] using same.length_eq.symm
  exact ⟨nodes, vacancies, headEq, tailEq, rep.vacancy, length, size.trans rep.size, rep.capacity,
    rep.proper.reorder same⟩

theorem modifyNode_eq {held : Node α} (found : c.slots[handle]? = some (.occupied held))
    (change : Node α → Node α) :
    modifyNode handle change c =
      .ok ⟨⟩ { c with slots := c.slots.setIfInBounds handle (.occupied (change held)) } := by
  simp [modifyNode, node_of_lookup found]

theorem modifyNode_mk {slots : Array (Slot α)} {held : Node α}
    (found : slots[handle]? = some (.occupied held)) (change : Node α → Node α)
    (vacancy head tail : Option Handle) (length capacity : Nat) :
    modifyNode handle change ⟨slots, vacancy, head, tail, length, capacity⟩ =
      .ok ⟨⟩ ⟨slots.setIfInBounds handle (.occupied (change held)), vacancy, head, tail, length,
        capacity⟩ :=
  modifyNode_eq found change

end LinkedSlots.Chain
