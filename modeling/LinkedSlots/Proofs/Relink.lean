import LinkedSlots.Proofs.Represents

namespace LinkedSlots.Chain

variable {α : Type}

structure Front (c : Chain α) (entries : List (Handle × α)) (next : Option Handle) : Prop where
  nodes : Segment c.slots none entries next
  head : c.head = firstOf entries next

structure Rear (c : Chain α) (prev : Option Handle) (entries : List (Handle × α)) : Prop where
  nodes : Segment c.slots prev entries none
  tail : c.tail = lastOf prev entries

variable {c : Chain α} {q : Roster α} {front back : List (Handle × α)}

theorem Represents.front_half (rep : c.Represents q) (entries : q.entries = front ++ back) :
    c.Front front (firstOf back none) := by
  have nodes := rep.nodes
  have head := rep.head
  rw [entries] at nodes head
  exact ⟨((segment_append front back).mp nodes).1, by simpa using head⟩

theorem Represents.rear_half (rep : c.Represents q) (entries : q.entries = front ++ back) :
    c.Rear (lastOf none front) back := by
  have nodes := rep.nodes
  have tail := rep.tail
  rw [entries] at nodes tail
  exact ⟨((segment_append front back).mp nodes).2, by simpa using tail⟩

/-- What a step on one half of a chain leaves alone: every slot outside the half, and the number of
    slots. -/
structure Outside (handles : List Handle) (old new : Array (Slot α)) : Prop where
  same : ∀ handle, handle ∉ handles → new[handle]? = old[handle]?
  size : new.size = old.size

theorem Outside.refl (handles : List Handle) (slots : Array (Slot α)) : Outside handles slots slots :=
  ⟨fun _ _ => rfl, rfl⟩

theorem Outside.set {handles : List Handle} {old new : Array (Slot α)} {handle : Handle}
    (outside : Outside handles old new) (slot : Slot α) (member : handle ∈ handles) :
    Outside handles old (new.setIfInBounds handle slot) := by
  refine ⟨?_, by simpa using outside.size⟩
  intro other absent
  have ne : other ≠ handle := fun same => absent (same ▸ member)
  exact (lookup_set_other slot ne).trans (outside.same other absent)

/-- Making a node follow the first half changes the last node of that half, or the head. -/
theorem Front.linkNext {old : Option Handle} (half : c.Front front old)
    (nodup : (front.map Prod.fst).Nodup) (next : Option Handle) :
    ∃ slots head, Chain.linkNext (lastOf none front) next c =
        .ok ⟨⟩ { c with slots := slots, head := head } ∧
      Segment slots none front next ∧ head = firstOf front next ∧
      Outside (front.map Prod.fst) c.slots slots := by
  rcases List.eq_nil_or_concat' front with rfl | ⟨before, ⟨handle, value⟩, rfl⟩
  · exact ⟨c.slots, next, rfl, True.intro, rfl, Outside.refl [] c.slots⟩
  · have touched : Outside ((before ++ [(handle, value)]).map Prod.fst) c.slots
        (c.slots.setIfInBounds handle (.occupied ⟨value, lastOf none before, next⟩)) :=
      (Outside.refl _ _).set _ (by simp)
    refine ⟨_, c.head, ?_, half.nodes.relink_next (outside_front nodup) next, ?_, touched⟩
    · simp [Chain.linkNext, modifyNode_eq half.nodes.lookup]
    · have head := half.head
      cases before <;> simpa using head

/-- Making a node precede the second half changes the first node of that half, or the tail. -/
theorem Rear.linkPrev {old : Option Handle} (half : c.Rear old back)
    (nodup : (back.map Prod.fst).Nodup) (prev : Option Handle) :
    ∃ slots tail, Chain.linkPrev (firstOf back none) prev c =
        .ok ⟨⟩ { c with slots := slots, tail := tail } ∧
      Segment slots prev back none ∧ tail = lastOf prev back ∧
      Outside (back.map Prod.fst) c.slots slots := by
  cases back with
  | nil => exact ⟨c.slots, prev, rfl, True.intro, rfl, Outside.refl [] c.slots⟩
  | cons entry rest =>
    obtain ⟨handle, value⟩ := entry
    have outside : handle ∉ rest.map Prod.fst := (List.nodup_cons.mp nodup).1
    have touched : Outside (((handle, value) :: rest).map Prod.fst) c.slots
        (c.slots.setIfInBounds handle (.occupied ⟨value, prev, firstOf rest none⟩)) :=
      (Outside.refl _ _).set _ (by simp)
    refine ⟨_, c.tail, ?_, half.nodes.relink_prev outside prev, half.tail, touched⟩
    simp [Chain.linkPrev, modifyNode_eq half.nodes.1]

theorem modifyNode_inverts {handle : Handle} {change : Node α → Node α} {after : Chain α}
    (run : modifyNode handle change c = .ok ⟨⟩ after) :
    ∃ held, c.slots[handle]? = some (.occupied held) ∧
      after = { c with slots := c.slots.setIfInBounds handle (.occupied (change held)) } := by
  cases found : c.slots[handle]? with
  | none => simp [modifyNode, node, found] at run
  | some slot =>
    cases slot with
    | vacant below => simp [modifyNode, node, found] at run
    | occupied held =>
      rw [modifyNode_eq found] at run
      cases run
      exact ⟨held, rfl, rfl⟩

/-- The link ahead and the link back are different fields, of one node or of two, so it does not
    matter which is written first. -/
theorem linkNext_linkPrev_swap {at? before? next prev : Option Handle} {c₁ c₂ : Chain α}
    (run₁ : linkNext at? next c = .ok ⟨⟩ c₁) (run₂ : linkPrev before? prev c₁ = .ok ⟨⟩ c₂) :
    ∃ c₃, linkPrev before? prev c = .ok ⟨⟩ c₃ ∧ linkNext at? next c₃ = .ok ⟨⟩ c₂ := by
  cases at? with
  | none =>
    cases run₁
    cases before? with
    | none =>
      cases run₂
      exact ⟨{ c with tail := prev }, rfl, rfl⟩
    | some behind =>
      obtain ⟨held, found, rfl⟩ := modifyNode_inverts run₂
      have kept : c.slots[behind]? = some (.occupied held) := found
      exact ⟨_, modifyNode_eq kept _, rfl⟩
  | some ahead =>
    obtain ⟨held, found, rfl⟩ := modifyNode_inverts run₁
    cases before? with
    | none =>
      cases run₂
      exact ⟨{ c with tail := prev }, rfl, modifyNode_mk found _ ..⟩
    | some behind =>
      obtain ⟨held', found', rfl⟩ := modifyNode_inverts run₂
      by_cases same : behind = ahead
      · subst same
        have once : held' = { held with next := next } := by
          have now := lookup_set_self (.occupied { held with next := next }) found
          rw [now] at found'
          cases found'
          rfl
        refine ⟨_, modifyNode_eq found _, ?_⟩
        have written := lookup_set_self (.occupied { held with prev := prev }) found
        simp only [linkNext, modifyNode_mk written, once, Array.setIfInBounds_setIfInBounds]
      · have kept : c.slots[behind]? = some (.occupied held') :=
          (lookup_set_other _ same).symm.trans found'
        refine ⟨_, modifyNode_eq kept _, ?_⟩
        have written := (lookup_set_other (.occupied { held' with prev := prev })
          (Ne.symm same)).trans found
        simp only [linkNext, modifyNode_mk written, Array.setIfInBounds_comm _ _ same]

/-- Both halves get new neighbours, and every slot outside them stays. -/
theorem Front.splice {oldNext oldPrev : Option Handle} (half : c.Front front oldNext)
    (rear : c.Rear oldPrev back) (frontNodup : (front.map Prod.fst).Nodup)
    (backNodup : (back.map Prod.fst).Nodup)
    (separate : ∀ handle ∈ back.map Prod.fst, handle ∉ front.map Prod.fst)
    (next prev : Option Handle) :
    ∃ c₁ slots head tail, Chain.linkNext (lastOf none front) next c = .ok ⟨⟩ c₁ ∧
      Chain.linkPrev (firstOf back none) prev c₁ =
        .ok ⟨⟩ { c with slots := slots, head := head, tail := tail } ∧
      Segment slots none front next ∧ Segment slots prev back none ∧
      head = firstOf front next ∧ tail = lastOf prev back ∧
      Outside (front.map Prod.fst ++ back.map Prod.fst) c.slots slots := by
  obtain ⟨slots₁, head, run₁, nodes₁, headEq, outside₁⟩ := half.linkNext frontNodup next
  let c₁ : Chain α := { c with slots := slots₁, head := head }
  have rear₁ : c₁.Rear oldPrev back :=
    ⟨rear.nodes.congr fun handle member => outside₁.same handle (separate handle member), rear.tail⟩
  obtain ⟨slots₂, tail, run₂, nodes₂, tailEq, outside₂⟩ := rear₁.linkPrev backNodup prev
  refine ⟨c₁, slots₂, head, tail, run₁, run₂, ?_, nodes₂, headEq, tailEq, ?_, ?_⟩
  · apply nodes₁.congr
    intro handle member
    exact outside₂.same handle fun behind => separate handle behind member
  · intro handle absent
    simp only [List.mem_append, not_or] at absent
    exact (outside₂.same handle absent.2).trans (outside₁.same handle absent.1)
  · exact outside₂.size.trans outside₁.size

end LinkedSlots.Chain
