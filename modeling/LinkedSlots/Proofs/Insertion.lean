import LinkedSlots.Proofs.Relink
import LinkedSlots.Proofs.Room

namespace LinkedSlots.Chain

variable {α : Type} {c : Chain α} {q : Roster α} {front back : List (Handle × α)} {handle : Handle}
  {value : α}

theorem Represents.unmade (rep : c.Represents q) (full : q.vacant = []) : q.fresh = c.slots.size := by
  simp [Roster.fresh, full, rep.size]

theorem Represents.fillSlot (rep : c.Represents q) (held : Node α) :
    ∃ slots, Chain.fillSlot held c =
        .ok q.fresh { c with slots := slots, vacancy := q.vacant.tail.head? } ∧
      slots[q.fresh]? = some (.occupied held) ∧
      (∀ other, other ≠ q.fresh → slots[other]? = c.slots[other]?) ∧
      slots.size = if q.vacant = [] then q.made + 1 else q.made := by
  cases vacant : q.vacant with
  | nil =>
    have fresh := rep.unmade vacant
    have vacancy : c.vacancy = none := by simp [rep.vacancy, vacant]
    refine ⟨c.slots.push (.occupied held), ?_, ?_, ?_, ?_⟩
    · simp [Chain.fillSlot, vacancy, fresh]
    · rw [fresh]
      exact Array.getElem?_push_size
    · intro other ne
      rw [fresh] at ne
      rw [Array.getElem?_push, if_neg ne]
    · simp [rep.size]
  | cons top rest =>
    have fresh : q.fresh = top := by simp [Roster.fresh, vacant]
    have vacancy : c.vacancy = some top := by simp [rep.vacancy, vacant]
    have found : c.slots[top]? = some (.vacant rest.head?) := by
      have stack := rep.vacancies
      rw [vacant] at stack
      exact stack.1
    refine ⟨c.slots.setIfInBounds top (.occupied held), ?_, ?_, ?_, ?_⟩
    · simp [Chain.fillSlot, vacancy, found, fresh]
    · rw [fresh]
      exact lookup_set_self _ found
    · intro other ne
      rw [fresh] at ne
      exact lookup_set_other _ ne
    · simp [rep.size]

theorem fresh_outside (rep : c.Represents q) (entries : q.entries = front ++ back) :
    q.fresh ∉ front.map Prod.fst ∧ q.fresh ∉ back.map Prod.fst ∧ q.fresh ∉ q.vacant.tail := by
  have absent := rep.proper.fresh_outside
  simp only [Roster.handles, entries, List.map_append, List.mem_append, not_or] at absent
  refine ⟨absent.1, absent.2, fun member => ?_⟩
  cases vacant : q.vacant with
  | nil => simp [vacant] at member
  | cons top rest =>
    have nodup := rep.proper.vacant_nodup
    rw [vacant] at nodup
    simp only [Roster.fresh, vacant, List.head?_cons, Option.getD_some, List.tail_cons] at member
    exact (List.nodup_cons.mp nodup).1 member

theorem Stack.tail {slots : Array (Slot α)} {vacant : List Handle} (stack : Stack slots vacant) :
    Stack slots vacant.tail := by
  cases vacant with
  | nil => exact True.intro
  | cons top rest => exact stack.2

/-- A node that has a slot to go to joins the halves before and behind it. -/
theorem Represents.put (rep : c.Represents q) (entries : q.entries = front ++ back)
    (room : q.vacant = [] → q.made + 1 ≤ q.capacity) (value : α) :
    ∃ c₁ c₂ c₃, Chain.fillSlot ⟨value, lastOf none front, firstOf back none⟩ c = .ok q.fresh c₁ ∧
      Chain.linkNext (lastOf none front) (some q.fresh) c₁ = .ok ⟨⟩ c₂ ∧
      Chain.linkPrev (firstOf back none) (some q.fresh) c₂ = .ok ⟨⟩ c₃ ∧
      Represents { c₃ with length := c₃.length + 1 } (q.putBetween front back value) := by
  obtain ⟨before, behind, taken⟩ := fresh_outside rep entries
  have apart := rep.apart entries
  obtain ⟨slots₁, fill, filled, kept, size⟩ :=
    rep.fillSlot ⟨value, lastOf none front, firstOf back none⟩
  let c₁ : Chain α := { c with slots := slots₁, vacancy := q.vacant.tail.head? }
  have front₁ : c₁.Front front (firstOf back none) := by
    have half := rep.front_half entries
    refine ⟨half.nodes.congr fun other member => kept other ?_, half.head⟩
    exact fun same => before (same ▸ member)
  have rear₁ : c₁.Rear (lastOf none front) back := by
    have half := rep.rear_half entries
    refine ⟨half.nodes.congr fun other member => kept other ?_, half.tail⟩
    exact fun same => behind (same ▸ member)
  obtain ⟨c₂, slots₂, head, tail, run₁, run₂, frontNodes, backNodes, headEq, tailEq, outside⟩ :=
    front₁.splice rear₁ apart.frontNodup apart.backNodup apart.behind (some q.fresh) (some q.fresh)
  refine ⟨c₁, c₂, _, fill, run₁, run₂, ?_⟩
  constructor
  · refine (segment_append front _).mpr ⟨frontNodes, ?_, backNodes⟩
    rw [outside.same q.fresh (by simp only [List.mem_append]; tauto)]
    exact filled
  -- The stack has lost its top to the new node and is out of reach of both halves.
  · apply (Stack.tail rep.vacancies).congr
    intro other member
    have absent := apart.unused other (List.mem_of_mem_tail member)
    have ne : other ≠ q.fresh := fun same => taken (same ▸ member)
    rw [outside.same other (by simp only [List.mem_append]; tauto)]
    exact kept other ne
  · simpa [Roster.putBetween] using headEq
  · simpa [Roster.putBetween] using tailEq
  · rfl
  · simp [Roster.putBetween, c₁, rep.length, entries]
    omega
  · exact outside.size.trans size
  · exact rep.capacity
  · exact rep.proper.putBetween entries value room

def Placed (run : EStateM.Result Fault (Chain α) (Except Shortage Handle)) (c : Chain α)
    (front back : List (Handle × α)) (value : α) : Except Shortage (Roster α) → Prop
  | .ok grown => ∃ c', run = .ok (.ok grown.fresh) c' ∧
      c'.Represents (grown.putBetween front back value)
  | .error shortage => run = .ok (.error shortage) c

def Puts (put : Edit (Chain α) Handle) (front back : List (Handle × α)) (value : α) : Prop :=
  ∀ c (q : Roster α), c.Represents q → q.entries = front ++ back →
    (q.vacant = [] → q.made + 1 ≤ q.capacity) →
      ∃ c', put c = .ok q.fresh c' ∧
        Represents { c' with length := c'.length + 1 } (q.putBetween front back value)

theorem puts_head (value : α) :
    Puts (do
      let head := (← get).head
      let added ← Chain.fillSlot ⟨value, none, head⟩
      linkPrev head (some added)
      modify fun c => { c with head := some added }
      return added) [] back value := by
  intro c q rep entries room
  obtain ⟨c₁, c₂, c₃, fill, next, prev, rep'⟩ := rep.put entries room value
  obtain ⟨c₄, prev', next'⟩ := linkNext_linkPrev_swap next prev
  have head : c.head = firstOf back none := by
    rw [rep.head, entries]
    rfl
  cases next'
  simp only [lastOf_nil] at fill
  exact ⟨_, by simp [head, fill, prev'], rep'⟩

theorem puts_tail (value : α) :
    Puts (do
      let tail := (← get).tail
      let added ← Chain.fillSlot ⟨value, tail, none⟩
      linkNext tail (some added)
      modify fun c => { c with tail := some added }
      return added) front [] value := by
  intro c q rep entries room
  obtain ⟨c₁, c₂, c₃, fill, next, prev, rep'⟩ := rep.put entries room value
  have tail : c.tail = lastOf none front := by
    rw [rep.tail, entries, List.append_nil]
  cases prev
  simp only [firstOf_nil] at fill
  exact ⟨_, by simp [tail, fill, next], rep'⟩

theorem puts_after (handle : Handle) (kept value : α) :
    Puts (do
      let added ← Chain.fillSlot ⟨value, some handle, firstOf back none⟩
      modifyNode handle fun node => { node with next := some added }
      linkPrev (firstOf back none) (some added)
      return added) (front ++ [(handle, kept)]) back value := by
  intro c q rep entries room
  obtain ⟨c₁, c₂, c₃, fill, next, prev, rep'⟩ := rep.put entries room value
  simp only [lastOf_append, lastOf_cons, lastOf_nil, linkNext] at fill next
  exact ⟨_, by simp [fill, next, prev], rep'⟩

theorem puts_before (handle : Handle) (kept value : α) :
    Puts (do
      let added ← Chain.fillSlot ⟨value, lastOf none front, some handle⟩
      modifyNode handle fun node => { node with prev := some added }
      linkNext (lastOf none front) (some added)
      return added) front ((handle, kept) :: back) value := by
  intro c q rep entries room
  obtain ⟨c₁, c₂, c₃, fill, next, prev, rep'⟩ := rep.put entries room value
  obtain ⟨c₄, prev', next'⟩ := linkNext_linkPrev_swap next prev
  simp only [firstOf_cons, linkPrev] at fill prev'
  exact ⟨_, by simp [fill, prev', next'], rep'⟩

variable [Stored α]

theorem Represents.insertBy (rep : c.Represents q) (entries : q.entries = front ++ back)
    (memory : Memory) {put : Edit (Chain α) Handle} (puts : Puts put front back value) :
    Placed (Chain.insertBy memory put c) c front back value (q.reserveSlot memory) := by
  have asked := rep.reserveSlot memory
  cases outcome : q.reserveSlot memory with
  | error shortage =>
    rw [outcome] at asked
    simp only [Granted] at asked
    simp [Placed, Chain.insertBy, asked]
  | ok grown =>
    rw [outcome] at asked
    obtain ⟨run, rep₁⟩ := asked
    have more := Roster.roomier_of_reserveSlot outcome
    obtain ⟨c', added, rep'⟩ := puts _ grown rep₁ (more.entries.trans entries)
      fun full => Roster.room_of_reserveSlot outcome full
    exact ⟨_, by simp [Chain.insertBy, run, added], rep'⟩

theorem Represents.insert (rep : c.Represents q) (memory : Memory) (place : Place) (value : α)
    (gap : q.gap place = .ok (front, back)) :
    q.entries = front ++ back ∧
      Placed (Chain.insert memory place value c) c front back value (q.reserveSlot memory) := by
  cases place with
  | head =>
    cases gap
    exact ⟨rfl, rep.insertBy rfl memory (puts_head value)⟩
  | tail =>
    cases gap
    have split : q.entries = q.entries ++ [] := (List.append_nil _).symm
    exact ⟨split, rep.insertBy split memory (puts_tail value)⟩
  | after handle =>
    simp only [Roster.gap] at gap
    split at gap
    · next before found behind place =>
      cases gap
      have entries := locate_eq_some place
      have split : q.entries = (before ++ [(handle, found)]) ++ back := by simp [entries]
      refine ⟨split, ?_⟩
      have placed := rep.insertBy split memory (puts_after handle found value)
      simpa [Chain.insert, insertAfter, rep.node_live entries] using placed
    · cases gap
  | before handle =>
    simp only [Roster.gap] at gap
    split at gap
    · next before found behind place =>
      cases gap
      have entries := locate_eq_some place
      refine ⟨entries, ?_⟩
      have placed := rep.insertBy entries memory (puts_before handle found value)
      simpa [Chain.insert, insertBefore, rep.node_live entries] using placed
    · cases gap

/-- A place beside a handle that names no entry is a fault before any storage is asked for. -/
theorem Represents.insert_missing (rep : c.Represents q) (memory : Memory) (place : Place)
    (value : α) {fault : Fault} (gap : q.gap place = .error fault) :
    Chain.insert memory place value c = .error fault c := by
  cases place with
  | head => cases gap
  | tail => cases gap
  | after handle =>
    simp only [Roster.gap] at gap
    split at gap
    · cases gap
    · next place =>
      cases gap
      have dead := locate_eq_none_iff.mp place
      simp [Chain.insert, insertAfter, rep.node_missing dead]
  | before handle =>
    simp only [Roster.gap] at gap
    split at gap
    · cases gap
    · next place =>
      cases gap
      have dead := locate_eq_none_iff.mp place
      simp [Chain.insert, insertBefore, rep.node_missing dead]

end LinkedSlots.Chain
