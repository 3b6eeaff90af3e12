import LinkedSlots.Chain.Basic

namespace LinkedSlots

variable {α : Type}

def firstOf (entries : List (Handle × α)) (next : Option Handle) : Option Handle :=
  match entries with
  | [] => next
  | (handle, _) :: _ => some handle

def lastOf (prev : Option Handle) : List (Handle × α) → Option Handle
  | [] => prev
  | (handle, _) :: rest => lastOf (some handle) rest

@[simp] theorem firstOf_nil (next : Option Handle) : firstOf ([] : List (Handle × α)) next = next := rfl

@[simp] theorem firstOf_cons (entry : Handle × α) (rest : List (Handle × α)) (next : Option Handle) :
    firstOf (entry :: rest) next = some entry.1 := rfl

@[simp] theorem lastOf_nil (prev : Option Handle) : lastOf prev ([] : List (Handle × α)) = prev := rfl

@[simp] theorem lastOf_cons (prev : Option Handle) (entry : Handle × α) (rest : List (Handle × α)) :
    lastOf prev (entry :: rest) = lastOf (some entry.1) rest := rfl

@[simp] theorem firstOf_append (front back : List (Handle × α)) (next : Option Handle) :
    firstOf (front ++ back) next = firstOf front (firstOf back next) := by
  cases front <;> rfl

@[simp] theorem lastOf_append (prev : Option Handle) (front back : List (Handle × α)) :
    lastOf prev (front ++ back) = lastOf (lastOf prev front) back := by
  induction front generalizing prev with
  | nil => rfl
  | cons entry rest ih => exact ih (some entry.1)

def Segment (slots : Array (Slot α)) (prev : Option Handle) :
    List (Handle × α) → Option Handle → Prop
  | [], _ => True
  | (handle, value) :: rest, next =>
    slots[handle]? = some (.occupied ⟨value, prev, firstOf rest next⟩) ∧
      Segment slots (some handle) rest next

/-- The vacant slots lie on each other in this order, and nothing lies below the last. -/
def Stack (slots : Array (Slot α)) : List Handle → Prop
  | [] => True
  | handle :: rest => slots[handle]? = some (.vacant rest.head?) ∧ Stack slots rest

variable {slots changed : Array (Slot α)} {prev next : Option Handle}

theorem segment_append (front back : List (Handle × α)) :
    Segment slots prev (front ++ back) next ↔
      Segment slots prev front (firstOf back next) ∧ Segment slots (lastOf prev front) back next := by
  induction front generalizing prev with
  | nil => simp [Segment]
  | cons entry rest ih =>
    obtain ⟨handle, value⟩ := entry
    simp [Segment, ih, and_assoc]

theorem Segment.congr {entries : List (Handle × α)} (nodes : Segment slots prev entries next)
    (same : ∀ handle ∈ entries.map Prod.fst, changed[handle]? = slots[handle]?) :
    Segment changed prev entries next := by
  induction entries generalizing prev with
  | nil => exact True.intro
  | cons entry rest ih =>
    obtain ⟨handle, value⟩ := entry
    simp only [List.map_cons, List.mem_cons, forall_eq_or_imp] at same
    exact ⟨same.1.trans nodes.1, ih nodes.2 same.2⟩

theorem Stack.congr {vacant : List Handle} (stack : Stack slots vacant)
    (same : ∀ handle ∈ vacant, changed[handle]? = slots[handle]?) : Stack changed vacant := by
  induction vacant with
  | nil => exact True.intro
  | cons handle rest ih =>
    simp only [List.mem_cons, forall_eq_or_imp] at same
    exact ⟨same.1.trans stack.1, ih stack.2 same.2⟩

theorem Segment.lookup {front back : List (Handle × α)} {handle : Handle} {value : α}
    (nodes : Segment slots prev (front ++ (handle, value) :: back) next) :
    slots[handle]? = some (.occupied ⟨value, lastOf prev front, firstOf back next⟩) :=
  ((segment_append front _).mp nodes).2.1

theorem Stack.lookup {vacant : List Handle} {handle : Handle} (stack : Stack slots vacant)
    (member : handle ∈ vacant) : ∃ below, slots[handle]? = some (.vacant below) := by
  induction vacant with
  | nil => cases member
  | cons top rest ih =>
    rcases List.mem_cons.mp member with rfl | member
    · exact ⟨_, stack.1⟩
    · exact ih stack.2 member

theorem lookup_set_self {handle : Handle} {old : Slot α} (slot : Slot α)
    (found : slots[handle]? = some old) : (slots.setIfInBounds handle slot)[handle]? = some slot := by
  have bound := (Array.getElem?_eq_some_iff.mp found).1
  simp [bound]

theorem lookup_set_other {handle other : Handle} (slot : Slot α) (ne : other ≠ handle) :
    (slots.setIfInBounds handle slot)[other]? = slots[other]? :=
  Array.getElem?_setIfInBounds_ne (Ne.symm ne)

theorem Segment.set_outside {entries : List (Handle × α)} {handle : Handle} (slot : Slot α)
    (nodes : Segment slots prev entries next) (outside : handle ∉ entries.map Prod.fst) :
    Segment (slots.setIfInBounds handle slot) prev entries next := by
  apply nodes.congr
  intro other member
  exact lookup_set_other slot fun same => outside (same ▸ member)

/-- Only the last node of a segment names what comes behind it. -/
theorem Segment.relink_next {front : List (Handle × α)} {handle : Handle} {value : α}
    (nodes : Segment slots prev (front ++ [(handle, value)]) next)
    (outside : handle ∉ front.map Prod.fst) (other : Option Handle) :
    Segment (slots.setIfInBounds handle (.occupied ⟨value, lastOf prev front, other⟩)) prev
      (front ++ [(handle, value)]) other := by
  have parts := (segment_append front _).mp nodes
  refine (segment_append front _).mpr ⟨parts.1.set_outside _ outside, ?_, True.intro⟩
  exact lookup_set_self _ nodes.lookup

/-- Only the first node of a segment names what comes before it. -/
theorem Segment.relink_prev {back : List (Handle × α)} {handle : Handle} {value : α}
    (nodes : Segment slots prev ((handle, value) :: back) next)
    (outside : handle ∉ back.map Prod.fst) (other : Option Handle) :
    Segment (slots.setIfInBounds handle (.occupied ⟨value, other, firstOf back next⟩)) other
      ((handle, value) :: back) next :=
  ⟨lookup_set_self _ nodes.1, nodes.2.set_outside _ outside⟩

theorem Segment.revalue {front back : List (Handle × α)} {handle : Handle} {value : α}
    (nodes : Segment slots prev (front ++ (handle, value) :: back) next)
    (before : handle ∉ front.map Prod.fst) (behind : handle ∉ back.map Prod.fst) (new : α) :
    Segment
      (slots.setIfInBounds handle (.occupied ⟨new, lastOf prev front, firstOf back next⟩)) prev
      (front ++ (handle, new) :: back) next := by
  have parts := (segment_append front _).mp nodes
  refine (segment_append front _).mpr ⟨parts.1.set_outside _ before, ?_, ?_⟩
  · exact lookup_set_self _ nodes.lookup
  · exact parts.2.2.set_outside _ behind

theorem Segment.unique {entries others : List (Handle × α)} (nodes : Segment slots prev entries none)
    (also : Segment slots prev others none) (same : firstOf entries none = firstOf others none) :
    entries = others := by
  induction entries generalizing prev others with
  | nil =>
    cases others with
    | nil => rfl
    | cons other behind => cases same
  | cons entry rest ih =>
    cases others with
    | nil => cases same
    | cons other behind =>
      rcases entry with ⟨handle, value⟩
      rcases other with ⟨_, kept⟩
      cases same
      have slot := nodes.1.symm.trans also.1
      simp only [Option.some.injEq, Slot.occupied.injEq, Node.mk.injEq, true_and] at slot
      rw [slot.1, ih nodes.2 also.2 slot.2]

theorem Stack.unique {vacant others : List Handle} (stack : Stack slots vacant)
    (also : Stack slots others) (same : vacant.head? = others.head?) : vacant = others := by
  induction vacant generalizing others with
  | nil =>
    cases others with
    | nil => rfl
    | cons other behind => cases same
  | cons top rest ih =>
    cases others with
    | nil => cases same
    | cons other behind =>
      cases same
      have slot := stack.1.symm.trans also.1
      simp only [Option.some.injEq, Slot.vacant.injEq] at slot
      rw [ih stack.2 also.2 slot]

theorem Segment.agree {entries : List (Handle × α)} (nodes : Segment slots prev entries next)
    (also : Segment changed prev entries next) {handle : Handle}
    (member : handle ∈ entries.map Prod.fst) : slots[handle]? = changed[handle]? := by
  rcases List.mem_map.mp member with ⟨⟨_, value⟩, inside, rfl⟩
  rcases List.append_of_mem inside with ⟨front, back, rfl⟩
  exact nodes.lookup.trans also.lookup.symm

theorem Stack.agree {vacant : List Handle} (stack : Stack slots vacant)
    (also : Stack changed vacant) {handle : Handle} (member : handle ∈ vacant) :
    slots[handle]? = changed[handle]? := by
  induction vacant with
  | nil => cases member
  | cons top rest ih =>
    rcases List.mem_cons.mp member with rfl | member
    · exact stack.1.trans also.1.symm
    · exact ih stack.2 also.2 member

end LinkedSlots
