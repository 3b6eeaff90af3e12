import LinkedSlots.Proofs.Relink

namespace LinkedSlots.Chain

variable {α : Type} {c : Chain α} {q : Roster α} {front back : List (Handle × α)} {handle : Handle}
  {value : α}

theorem vacate_eq {held : Node α} (found : c.slots[handle]? = some (.occupied held)) :
    vacate handle c =
      .ok held { c with
        slots := c.slots.setIfInBounds handle (.vacant c.vacancy), vacancy := some handle } := by
  simp [vacate, found]

/-- Where no node is found, the link that was written over is put back. -/
theorem Represents.vacate_missing (rep : c.Represents q) (dead : handle ∉ q.handles) :
    vacate handle c = .error (q.missing handle) c := by
  rcases rep.lookup_missing dead with ⟨bound, below, found⟩ | ⟨bound, found⟩
  · have restored :
        (c.slots.setIfInBounds handle (.vacant c.vacancy)).setIfInBounds handle (.vacant below) =
          c.slots := by
      apply Array.ext_getElem?
      intro other
      by_cases same : other = handle
      · rw [same, found]
        exact lookup_set_self _ (lookup_set_self _ found)
      · rw [lookup_set_other _ same, lookup_set_other _ same]
    simp [vacate, found, restored, Roster.missing, bound]
  · simp [vacate, Roster.missing, bound, rep.size]

/-- Unlinking a node joins the halves around it and puts its slot on top of the vacant ones. -/
theorem Represents.unlink (rep : c.Represents q)
    (entries : q.entries = front ++ (handle, value) :: back) :
    ∃ c', Chain.unlink handle c = .ok value c' ∧ c'.Represents (q.takeOut front handle back) := by
  have found := rep.lookup entries
  obtain ⟨before, behind, occupied⟩ := rep.outside entries
  have split : q.entries = (front ++ [(handle, value)]) ++ back := by simp [entries]
  have apart := rep.apart split
  have separate : ∀ other ∈ back.map Prod.fst, other ∉ front.map Prod.fst := by
    intro other member inFront
    exact apart.behind other member (by simp [inFront])
  let slots₁ := c.slots.setIfInBounds handle (.vacant c.vacancy)
  let c₁ : Chain α := { c with slots := slots₁, vacancy := some handle }
  have front₁ : c₁.Front front (some handle) := by
    have half := rep.front_half entries
    exact ⟨half.nodes.set_outside _ before, half.head⟩
  have rear₁ : c₁.Rear (some handle) back := by
    have half := rep.rear_half split
    rw [lastOf_append] at half
    exact ⟨half.nodes.set_outside _ behind, half.tail⟩
  obtain ⟨c₂, slots₂, head, tail, run₁, run₂, frontNodes, backNodes, headEq, tailEq, outside⟩ :=
    front₁.splice rear₁ (rep.apart entries).frontNodup apart.backNodup separate
      (firstOf back none) (lastOf none front)
  have positive : c.length ≠ 0 := by
    rw [rep.length, entries]
    simp
  refine ⟨{ c₁ with slots := slots₂, head := head, tail := tail, length := c.length - 1 }, ?_, ?_⟩
  · simp [Chain.unlink, vacate_eq found, slots₁, c₁, run₁, run₂, positive]
  · constructor
    · exact (segment_append front back).mpr ⟨frontNodes, backNodes⟩
    · constructor
      · rw [outside.same handle (by simp only [List.mem_append]; tauto), ← rep.vacancy]
        exact lookup_set_self _ found
      · apply rep.vacancies.congr
        intro other member
        have absent := apart.unused other member
        have ne : other ≠ handle := fun same => occupied (same ▸ member)
        simp only [List.map_append, List.mem_append, not_or] at absent
        rw [outside.same other (by simp only [List.mem_append]; tauto)]
        exact lookup_set_other _ ne
    · simpa [Roster.takeOut] using headEq
    · simpa [Roster.takeOut] using tailEq
    · rfl
    · simp [Roster.takeOut, rep.length, entries]
    · have size : slots₁.size = c.slots.size := by simp [slots₁]
      exact outside.size.trans (size.trans rep.size)
    · exact rep.capacity
    · exact rep.proper.takeOut entries

theorem Represents.unlink_missing (rep : c.Represents q) (dead : handle ∉ q.handles) :
    Chain.unlink handle c = .error (q.missing handle) c := by
  simp [Chain.unlink, rep.vacate_missing dead]

theorem Represents.popFront_cons (rep : c.Represents q) (entries : q.entries = (handle, value) :: back) :
    ∃ c', Chain.popFront c = .ok (some value) c' ∧ c'.Represents (q.takeOut [] handle back) := by
  have split : q.entries = [] ++ (handle, value) :: back := entries
  obtain ⟨c', run, rep'⟩ := rep.unlink split
  exact ⟨c', by simp [popFront, rep.head, entries, run], rep'⟩

theorem Represents.popFront_nil (rep : c.Represents q) (entries : q.entries = []) :
    Chain.popFront c = .ok none c := by
  simp [popFront, rep.head, entries]

theorem Represents.popBack_concat (rep : c.Represents q)
    (entries : q.entries = front ++ [(handle, value)]) :
    ∃ c', Chain.popBack c = .ok (some value) c' ∧ c'.Represents (q.takeOut front handle []) := by
  obtain ⟨c', run, rep'⟩ := rep.unlink entries
  exact ⟨c', by simp [popBack, rep.tail, entries, run], rep'⟩

theorem Represents.popBack_nil (rep : c.Represents q) (entries : q.entries = []) :
    Chain.popBack c = .ok none c := by
  simp [popBack, rep.tail, entries]

end LinkedSlots.Chain
