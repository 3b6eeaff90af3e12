import LinkedSlots.Chain.Rotate
import LinkedSlots.Proofs.Relink

namespace LinkedSlots.Chain

variable {α : Type} {c : Chain α} {q : Roster α} {handle : Handle} {value : α}

theorem Represents.rotate_last {front : List (Handle × α)} (rep : c.Represents q)
    (entries : q.entries = front ++ [(handle, value)]) (more : front ≠ []) :
    ∃ c', Chain.rotateTailToHead c = .ok ⟨⟩ c' ∧
      c'.Represents (q.withEntries ((handle, value) :: front)) := by
  obtain ⟨before, ⟨last, lastValue⟩, rfl⟩ := (List.eq_nil_or_concat' front).resolve_left more
  have found := rep.lookup entries
  obtain ⟨outside, -, -⟩ := rep.outside entries
  have nodup := (rep.apart entries).frontNodup
  have ne : handle ≠ last := fun same => outside (by simp [same])
  have nodes := ((segment_append _ _).mp (entries ▸ rep.nodes)).1
  let slots₁ := c.slots.setIfInBounds last (.occupied ⟨lastValue, lastOf none before, none⟩)
  have nodes₁ : Segment slots₁ none (before ++ [(last, lastValue)]) none :=
    nodes.relink_next (outside_front nodup) none
  obtain ⟨⟨first, firstValue⟩, rest, split⟩ := List.exists_cons_of_ne_nil more
  have notFirst : handle ≠ first := fun same => outside (by simp [split, same])
  let slots₂ := slots₁.setIfInBounds handle (.occupied ⟨value, none, some first⟩)
  have found₁ : slots₁[handle]? = c.slots[handle]? := lookup_set_other _ ne
  have nodes₂ : Segment slots₂ none ((first, firstValue) :: rest) none := by
    rw [← split]
    exact nodes₁.set_outside _ outside
  let slots₃ := slots₂.setIfInBounds first (.occupied ⟨firstValue, some handle, firstOf rest none⟩)
  have nodes₃ : Segment slots₃ (some handle) ((first, firstValue) :: rest) none := by
    rw [split] at nodup
    exact nodes₂.relink_prev (List.nodup_cons.mp nodup).1 (some handle)
  have found₃ : slots₃[handle]? = some (.occupied ⟨value, none, some first⟩) := by
    rw [lookup_set_other _ notFirst]
    exact lookup_set_self _ (found₁.trans found)
  have touched : Outside q.handles c.slots slots₃ := by
    have firstLive : first ∈ q.handles := by simp [Roster.handles, entries, split]
    exact (((Outside.refl _ _).set _ (by simp [Roster.handles, entries])).set _
      (by simp [Roster.handles, entries])).set _ firstLive
  refine ⟨{ c with slots := slots₃, head := some handle, tail := some last }, ?_, ?_⟩
  · have long : ¬ c.length ≤ 1 := by
      rw [rep.length, entries]
      simp
    have head : c.head = some first := by simp [rep.head, entries, split]
    have tail : c.tail = some handle := by simp [rep.tail, entries]
    have run₁ := modifyNode_eq (c := c) nodes.lookup fun node => { node with next := none }
    have run₂ := modifyNode_mk (found₁.trans found) fun node =>
      { node with prev := none, next := some first }
    have run₃ := modifyNode_mk nodes₂.1 fun node => { node with prev := some handle }
    simp [Chain.rotateTailToHead, long, head, tail, rep.node_live entries, run₁, run₂, run₃,
      slots₁, slots₂, slots₃]
  · apply rep.reordered touched.size
    · refine ⟨?_, split ▸ nodes₃⟩
      rw [found₃, split]
      rfl
    · have handles : q.handles = (before ++ [(last, lastValue)]).map Prod.fst ++ [handle] := by
        simp [Roster.handles, entries]
      rw [handles]
      exact (List.perm_append_singleton _ _).symm
    · intro other absent
      simp only [Roster.handles, entries, split, List.map_append, List.map_cons, List.mem_append,
        List.mem_cons, not_or, List.map_nil, List.not_mem_nil, not_false_eq_true, and_true] at absent
      have notLast : other ≠ last := by
        have member : last ∈ ((first, firstValue) :: rest).map Prod.fst := by
          rw [← split]
          simp
        rintro rfl
        simp only [List.map_cons, List.mem_cons] at member
        exact member.elim absent.1.1 absent.1.2
      rw [lookup_set_other _ absent.1.1, lookup_set_other _ absent.2, lookup_set_other _ notLast]
    · rfl
    · simp

theorem Represents.rotate_first {back : List (Handle × α)} (rep : c.Represents q)
    (entries : q.entries = (handle, value) :: back) (more : back ≠ []) :
    ∃ c', Chain.rotateHeadToTail c = .ok ⟨⟩ c' ∧
      c'.Represents (q.withEntries (back ++ [(handle, value)])) := by
  obtain ⟨⟨first, firstValue⟩, rest, rfl⟩ := List.exists_cons_of_ne_nil more
  have split₁ : q.entries = [] ++ (handle, value) :: (first, firstValue) :: rest := entries
  have split₂ : q.entries = [(handle, value)] ++ (first, firstValue) :: rest := entries
  have found := rep.lookup split₁
  obtain ⟨-, outside, -⟩ := rep.outside split₁
  have nodup := (rep.apart split₂).backNodup
  have firstOutside : first ∉ rest.map Prod.fst := (List.nodup_cons.mp nodup).1
  have ne : handle ≠ first := fun same => outside (by simp [same])
  have nodes : Segment c.slots (some handle) ((first, firstValue) :: rest) none := by
    have all := rep.nodes
    rw [entries] at all
    exact all.2
  let slots₁ := c.slots.setIfInBounds first (.occupied ⟨firstValue, none, firstOf rest none⟩)
  have nodes₁ : Segment slots₁ none ((first, firstValue) :: rest) none :=
    nodes.relink_prev firstOutside none
  obtain ⟨before, ⟨last, lastValue⟩, split⟩ := (List.eq_nil_or_concat' _).resolve_left more
  have notLast : handle ≠ last := fun same => outside (by simp [split, same])
  let slots₂ := slots₁.setIfInBounds handle (.occupied ⟨value, some last, none⟩)
  have found₁ : slots₁[handle]? = c.slots[handle]? := lookup_set_other _ ne
  have nodes₂ : Segment slots₂ none (before ++ [(last, lastValue)]) none := by
    rw [← split]
    exact nodes₁.set_outside _ outside
  let slots₃ := slots₂.setIfInBounds last (.occupied ⟨lastValue, lastOf none before, some handle⟩)
  have nodes₃ : Segment slots₃ none (before ++ [(last, lastValue)]) (some handle) := by
    rw [split] at nodup
    exact nodes₂.relink_next (outside_front nodup) (some handle)
  have found₃ : slots₃[handle]? = some (.occupied ⟨value, some last, none⟩) := by
    rw [lookup_set_other _ notLast]
    exact lookup_set_self _ (found₁.trans found)
  have touched : Outside q.handles c.slots slots₃ := by
    have lastLive : last ∈ q.handles := by simp [Roster.handles, entries, split]
    exact (((Outside.refl _ _).set _ (by simp [Roster.handles, entries])).set _
      (by simp [Roster.handles, entries])).set _ lastLive
  refine ⟨{ c with slots := slots₃, head := some first, tail := some handle }, ?_, ?_⟩
  · have long : ¬ c.length ≤ 1 := by
      rw [rep.length, entries]
      simp
    have head : c.head = some handle := by simp [rep.head, entries]
    have tail : c.tail = some last := by simp [rep.tail, entries, split]
    have run₁ := modifyNode_eq (c := c) nodes.1 fun node => { node with prev := none }
    have run₂ := modifyNode_mk (found₁.trans found) fun node =>
      { node with prev := some last, next := none }
    have run₃ := modifyNode_mk nodes₂.lookup fun node => { node with next := some handle }
    have live := rep.node_live split₁
    simp [Chain.rotateHeadToTail, long, head, tail, live, run₁, run₂, run₃, slots₁, slots₂, slots₃]
  · apply rep.reordered touched.size
    · refine (segment_append _ _).mpr ⟨split ▸ nodes₃, ?_, True.intro⟩
      rw [found₃, split]
      simp
    · simp only [Roster.handles, entries, List.map_append, List.map_cons, List.map_nil]
      exact List.perm_append_singleton _ _
    · intro other absent
      have member : last ∈ ((first, firstValue) :: rest).map Prod.fst := by
        rw [split]
        simp
      simp only [Roster.handles, entries, List.map_cons, List.mem_cons, not_or] at absent member
      have notLast : other ≠ last := by
        rintro rfl
        exact member.elim absent.2.1 absent.2.2
      rw [lookup_set_other _ notLast, lookup_set_other _ absent.1, lookup_set_other _ absent.2.1]
    · rfl
    · simp

theorem Represents.rotateTailToHead (rep : c.Represents q) :
    ∃ c', Chain.rotateTailToHead c = .ok ⟨⟩ c' ∧ c'.Represents q.rotateTailToHead := by
  rcases List.eq_nil_or_concat' q.entries with entries | ⟨front, ⟨handle, value⟩, entries⟩
  · have short : c.length ≤ 1 := by simp [rep.length, entries]
    exact ⟨c, by simp [Chain.rotateTailToHead, short], by simpa [Roster.rotateTailToHead, entries]⟩
  · have rotated : q.rotateTailToHead = q.withEntries ((handle, value) :: front) := by
      simp [Roster.rotateTailToHead, entries]
    rw [rotated]
    by_cases more : front = []
    · have short : c.length ≤ 1 := by simp [rep.length, entries, more]
      refine ⟨c, by simp [Chain.rotateTailToHead, short], ?_⟩
      have same : q.withEntries ((handle, value) :: front) = q := by
        have alone : q.entries = [(handle, value)] := by simpa [more] using entries
        rw [more, ← alone]
        rfl
      rwa [same]
    · exact rep.rotate_last entries more

theorem Represents.rotateHeadToTail (rep : c.Represents q) :
    ∃ c', Chain.rotateHeadToTail c = .ok ⟨⟩ c' ∧ c'.Represents q.rotateHeadToTail := by
  cases entries : q.entries with
  | nil =>
    have short : c.length ≤ 1 := by simp [rep.length, entries]
    exact ⟨c, by simp [Chain.rotateHeadToTail, short], by simpa [Roster.rotateHeadToTail, entries]⟩
  | cons first back =>
    obtain ⟨handle, value⟩ := first
    have rotated : q.rotateHeadToTail = q.withEntries (back ++ [(handle, value)]) := by
      simp [Roster.rotateHeadToTail, entries]
    rw [rotated]
    by_cases more : back = []
    · have short : c.length ≤ 1 := by simp [rep.length, entries, more]
      refine ⟨c, by simp [Chain.rotateHeadToTail, short], ?_⟩
      have same : q.withEntries (back ++ [(handle, value)]) = q := by
        have alone : q.entries = [(handle, value)] := by simpa [more] using entries
        rw [more, List.nil_append, ← alone]
        rfl
      rwa [same]
    · exact rep.rotate_first entries more

end LinkedSlots.Chain
