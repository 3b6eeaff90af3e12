import LinkedSlots.Proofs.Represents

namespace LinkedSlots.Chain

variable {α : Type} {c : Chain α} {q : Roster α} {front back : List (Handle × α)} {handle : Handle}
  {value : α}

theorem Represents.revalued (rep : c.Represents q)
    (entries : q.entries = front ++ (handle, value) :: back) (new : α) :
    Represents
      { c with
        slots := c.slots.setIfInBounds handle
          (.occupied ⟨new, lastOf none front, firstOf back none⟩) }
      (q.withEntries (front ++ (handle, new) :: back)) := by
  obtain ⟨before, behind, -⟩ := rep.outside entries
  have nodes := rep.nodes
  rw [entries] at nodes
  have live : handle ∈ q.handles := by simp [Roster.handles, entries]
  apply rep.reordered (by simp) (nodes.revalue before behind new)
  · simp [Roster.handles, entries]
  · intro other absent
    exact lookup_set_other _ fun same => absent (same ▸ live)
  · simp [rep.head, entries]
  · simp [rep.tail, entries]

theorem Represents.updateAt (rep : c.Represents q)
    (entries : q.entries = front ++ (handle, value) :: back) (change : α → α) :
    ∃ c', Chain.updateAt (some handle) change c = .ok (some value) c' ∧
      c'.Represents (q.withEntries (front ++ (handle, change value) :: back)) := by
  refine ⟨_, ?_, rep.revalued entries (change value)⟩
  simp [Chain.updateAt, rep.node_live entries, modifyNode_eq (rep.lookup entries)]

theorem Represents.update (rep : c.Represents q) (handle : Handle) (change : α → α) :
    ∃ c', Chain.update handle change c = .ok (q.update handle change).1 c' ∧
      c'.Represents (q.update handle change).2 := by
  cases place : locate handle q.entries with
  | none =>
    have dead := locate_eq_none_iff.mp place
    refine ⟨c, ?_, ?_⟩
    · simp [Chain.update, Roster.update, place, rep.node?_missing dead]
    · simpa [Roster.update, place] using rep
  | some found =>
    obtain ⟨front, value, back⟩ := found
    have entries := locate_eq_some place
    have rep' := rep.revalued entries (change value)
    refine ⟨_, ?_, by simpa [Roster.update, place] using rep'⟩
    simp [Chain.update, Roster.update, place, rep.node?_live entries,
      modifyNode_eq (rep.lookup entries)]

theorem Represents.updateFront (rep : c.Represents q) (change : α → α) :
    ∃ c', Chain.updateFront change c = .ok (q.updateFront change).1 c' ∧
      c'.Represents (q.updateFront change).2 := by
  cases entries : q.entries with
  | nil =>
    refine ⟨c, ?_, ?_⟩
    · simp [Chain.updateFront, Roster.updateFront, Chain.updateAt, rep.head, entries]
    · simpa [Roster.updateFront, entries] using rep
  | cons entry back =>
    obtain ⟨handle, value⟩ := entry
    have split : q.entries = [] ++ (handle, value) :: back := entries
    obtain ⟨c', run, rep'⟩ := rep.updateAt split change
    refine ⟨c', ?_, by simpa [Roster.updateFront, entries] using rep'⟩
    simpa [Chain.updateFront, Roster.updateFront, rep.head, entries] using run

theorem Represents.updateBack (rep : c.Represents q) (change : α → α) :
    ∃ c', Chain.updateBack change c = .ok (q.updateBack change).1 c' ∧
      c'.Represents (q.updateBack change).2 := by
  rcases List.eq_nil_or_concat' q.entries with entries | ⟨front, ⟨handle, value⟩, entries⟩
  · refine ⟨c, ?_, ?_⟩
    · simp [Chain.updateBack, Roster.updateBack, Chain.updateAt, rep.tail, entries]
    · simpa [Roster.updateBack, entries] using rep
  · obtain ⟨c', run, rep'⟩ := rep.updateAt entries change
    refine ⟨c', ?_, by simpa [Roster.updateBack, entries] using rep'⟩
    simpa [Chain.updateBack, Roster.updateBack, rep.tail, entries] using run

end LinkedSlots.Chain
