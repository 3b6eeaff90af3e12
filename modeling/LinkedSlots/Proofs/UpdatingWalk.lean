import LinkedSlots.Proofs.Walking

namespace LinkedSlots

variable {α : Type} {changes : Changes α}

namespace Changes

variable {given : List Handle} {handle other : Handle} {value : α}

def make (changes : Changes α) (given : List Handle) (handle : Handle) (value : α) : α :=
  match given.idxOf? handle with
  | some number => changes.nth number value
  | none => value

def tail (changes : Changes α) : Changes α := ⟨fun number => changes.nth (number + 1)⟩

theorem make_of_not_mem (absent : handle ∉ given) : changes.make given handle value = value := by
  unfold make
  rw [List.idxOf?_eq_none_iff.mpr absent]

theorem make_concat_self (absent : handle ∉ given) :
    changes.make (given ++ [handle]) handle value = changes.nth given.length value := by
  have before : List.findIdx? (· == handle) given = none := List.idxOf?_eq_none_iff.mpr absent
  have last : (given ++ [handle]).idxOf? handle = some given.length := by
    unfold List.idxOf?
    rw [List.findIdx?_append, before]
    simp
  unfold make
  rw [last]

theorem make_concat_of_ne (ne : handle ≠ other) :
    changes.make (given ++ [other]) handle value = changes.make given handle value := by
  have same : (given ++ [other]).idxOf? handle = given.idxOf? handle := by
    unfold List.idxOf?
    rw [List.findIdx?_append]
    simp [ne.symm]
  unfold make
  rw [same]

theorem map_of_mapIdx {change : α → α} {values : List α}
    (kept : values.mapIdx (change : Changes α).nth = values) : values.map change = values := by
  refine Eq.trans ?_ kept
  apply List.ext_getElem <;> simp

/-- Changes at different nodes are made one after the other. -/
theorem make_cons (absent : other ∉ given) (handle : Handle) (value : α) :
    changes.make (other :: given) handle value =
      changes.tail.make given handle (changes.make [other] handle value) := by
  by_cases same : other = handle
  · subst same
    rw [make_of_not_mem absent]
    simp [make, List.idxOf?_cons]
  · have unchanged : changes.make [other] handle value = value :=
      make_of_not_mem fun member => same (List.mem_singleton.mp member).symm
    rw [unchanged]
    unfold make
    rw [List.idxOf?_cons]
    cases given.idxOf? handle <;> simp [same, tail]

end Changes

section Touch

variable {seen entries : List (Handle × α)} {entry : Handle × α}

def touch (changes : Changes α) (seen : List (Handle × α)) (entry : Handle × α) : Handle × α :=
  (entry.1, changes.make (seen.map Prod.fst) entry.1 entry.2)

theorem touch_nil (entries : List (Handle × α)) : entries.map (touch changes []) = entries :=
  List.map_id entries

theorem firstOf_touch (entries : List (Handle × α)) (next : Option Handle) :
    firstOf (entries.map (touch changes seen)) next = firstOf entries next := by
  cases entries <;> rfl

theorem lastOf_touch (entries : List (Handle × α)) (prev : Option Handle) :
    lastOf prev (entries.map (touch changes seen)) = lastOf prev entries := by
  induction entries generalizing prev with
  | nil => rfl
  | cons other rest ih => exact ih (some other.1)

theorem touch_other (absent : entry.1 ∉ entries.map Prod.fst) :
    entries.map (touch changes (seen ++ [entry])) = entries.map (touch changes seen) := by
  apply List.map_congr_left
  intro other member
  have ne : other.1 ≠ entry.1 := by
    intro same
    apply absent
    rw [← same]
    exact List.mem_map_of_mem member
  unfold touch
  rw [List.map_append]
  exact congrArg _ (Changes.make_concat_of_ne ne)

/-- Where one more entry is seen, it alone changes. -/
theorem touch_seen {front back : List (Handle × α)}
    (nodup : ((front ++ entry :: back).map Prod.fst).Nodup)
    (unseen : entry.1 ∉ seen.map Prod.fst) :
    (front ++ entry :: back).map (touch changes (seen ++ [entry])) =
      front.map (touch changes seen) ++
        (entry.1, changes.nth seen.length entry.2) :: back.map (touch changes seen) := by
  simp only [List.map_append, List.map_cons] at nodup
  obtain ⟨-, backNodup, apart⟩ := List.nodup_append.mp nodup
  have before : entry.1 ∉ front.map Prod.fst := fun inside =>
    apart entry.1 inside entry.1 (by simp) rfl
  have behind : entry.1 ∉ back.map Prod.fst := (List.nodup_cons.mp backNodup).1
  have last : touch changes (seen ++ [entry]) entry =
      (entry.1, changes.nth seen.length entry.2) := by
    unfold touch
    rw [List.map_append, ← List.length_map Prod.fst]
    exact congrArg _ (Changes.make_concat_self unseen)
  rw [← touch_other before, ← touch_other behind, List.map_append, List.map_cons, last]

theorem touch_cons (absent : entry.1 ∉ seen.map Prod.fst) (other : Handle × α) :
    touch changes (entry :: seen) other = touch changes.tail seen (touch changes [entry] other) :=
  congrArg _ (Changes.make_cons absent other.1 other.2)

/-- Where the changes keep the values that were seen, nothing is touched. -/
theorem touch_fixed (nodup : (entries.map Prod.fst).Nodup) (among : ∀ other ∈ seen, other ∈ entries)
    (fixed : (seen.map Prod.snd).mapIdx changes.nth = seen.map Prod.snd) :
    entries.map (touch changes seen) = entries := by
  have same : ∀ other ∈ entries, touch changes seen other = id other := by
    intro other member
    unfold touch Changes.make
    cases visited : (seen.map Prod.fst).idxOf? other.1 with
    | none => rfl
    | some number =>
      obtain ⟨bound, eq, -⟩ := List.idxOf?_eq_some_iff.mp visited
      rw [List.getElem_map] at eq
      rw [List.length_map] at bound
      have equal : seen[number] = other :=
        List.inj_on_of_nodup_map nodup (among _ (List.getElem_mem bound)) member eq
      have kept := congrArg (·[number]?) fixed
      simp only [List.getElem?_mapIdx, List.getElem?_map, List.getElem?_eq_getElem bound, equal,
        Option.map_some, Option.some.injEq] at kept
      exact congrArg (other.1, ·) kept
  simpa using List.map_congr_left same

end Touch

namespace Chain

variable {c d : Chain α} {q : Roster α} {cursor : Cursor} {number : Nat}
  {seen entries : List (Handle × α)} {entry : Handle × α}

structure Touching (q : Roster α) (changes : Changes α) (d : Chain α) (cursor : Cursor)
    (number : Nat) (entries seen : List (Handle × α)) : Prop where
  around : Cursor.Around q cursor entries
  counted : number = seen.length
  rep : d.Represents (q.withEntries (q.entries.map (touch changes seen)))
  unseen : ∀ handle ∈ entries.map Prod.fst, handle ∉ seen.map Prod.fst
  among : ∀ other ∈ seen, other ∈ q.entries

theorem entries_touched {front back : List (Handle × α)} (split : q.entries = front ++ entry :: back) :
    (q.withEntries (q.entries.map (touch changes seen))).entries =
      front.map (touch changes seen) ++
        (entry.1, (touch changes seen entry).2) :: back.map (touch changes seen) := by
  simp [Roster.withEntries, split, touch]

theorem Represents.node?_touched
    (rep : d.Represents (q.withEntries (q.entries.map (touch changes seen))))
    {front back : List (Handle × α)} (split : q.entries = front ++ entry :: back) :
    d.node? entry.1 =
      some ⟨(touch changes seen entry).2, lastOf none front, firstOf back none⟩ := by
  have live := rep.node?_live (entries_touched split)
  rwa [lastOf_touch, firstOf_touch] at live

theorem Represents.reads_reached
    (rep : d.Represents (q.withEntries (q.entries.map (touch changes seen)))) :
    Cursor.Reads d.reached q := by
  intro front entry back split
  refine ⟨(touch changes seen entry).2, ?_⟩
  simp only [reached, rep.node?_touched split]

/-- A node that the cursor has passed can be visited once. -/
theorem Touching.visit (proper : q.Proper)
    (touching : Touching q changes d cursor number entries seen)
    (member : entry ∈ q.entries) (ahead : entry.1 ∉ entries.map Prod.fst)
    (unseen : entry.1 ∉ seen.map Prod.fst) :
    ∃ d', updateVisit changes entry.1 (d, cursor, number) =
        .ok entry.2 (d', cursor, number + 1) ∧
      Touching q changes d' cursor (number + 1) entries (seen ++ [entry]) := by
  obtain ⟨front, back, split⟩ := List.append_of_mem member
  have untouched : (touch changes seen entry).2 = entry.2 := Changes.make_of_not_mem unseen
  have live := touching.rep.node?_touched split
  rw [untouched] at live
  have revalued := touching.rep.revalued (entries_touched split) (changes.nth number entry.2)
  rw [lastOf_touch, firstOf_touch] at revalued
  refine ⟨{ d with
    slots := d.slots.setIfInBounds entry.1
      (.occupied ⟨changes.nth number entry.2, lastOf none front, firstOf back none⟩) }, ?_, ?_⟩
  · simp [updateVisit, reached, live]
  · constructor
    · exact touching.around
    · rw [touching.counted, List.length_append]
      rfl
    · have nodup := proper.handles_nodup
      rw [Roster.handles, split] at nodup
      rw [split, touch_seen nodup unseen, ← touching.counted]
      exact revalued
    · intro handle inside
      simp only [List.map_append, List.map_cons, List.map_nil, List.mem_append, List.mem_singleton,
        not_or]
      exact ⟨touching.unseen handle inside, fun same => ahead (same ▸ inside)⟩
    · intro other inside
      rcases List.mem_append.mp inside with inside | inside
      · exact touching.among other inside
      · rw [List.mem_singleton.mp inside]
        exact member

theorem Touching.advance {moved : Cursor} {rest : List (Handle × α)}
    (touching : Touching q changes d cursor number entries seen)
    (around : Cursor.Around q moved rest)
    (inside : ∀ handle ∈ rest.map Prod.fst, handle ∈ entries.map Prod.fst) :
    Touching q changes d moved number rest seen :=
  ⟨around, touching.counted, touching.rep,
    fun handle member => touching.unseen handle (inside handle member), touching.among⟩

theorem Touching.nodup (proper : q.Proper)
    (touching : Touching q changes d cursor number entries seen) :
    (entries.map Prod.fst).Nodup := by
  obtain ⟨front, back, split, -⟩ := touching.around
  have nodup := proper.handles_nodup
  simp only [Roster.handles, split, List.map_append] at nodup
  exact (List.nodup_append.mp (List.nodup_append.mp nodup).1).2.1

theorem Touching.subset (touching : Touching q changes d cursor number entries seen) :
    ∀ other ∈ entries, other ∈ q.entries := by
  obtain ⟨front, back, split, -⟩ := touching.around
  intro other inside
  simp [split, inside]

/-- An updating walk hands out what a queue of the entries hands out, and changes just that. -/
theorem updateWalk_visits (proper : q.Proper) :
    updateWalk.Visits (updateVisit changes) Prod.fst Prod.snd fun state entries seen =>
      Touching q changes state.1 state.2.1 state.2.2 entries seen := by
  constructor
  · constructor
    · intro (d, cursor, number) seen touching
      refine ⟨(d, cursor, number), ?_, touching⟩
      simp [updateWalk, Edit.first, Edit.second, touching.around.takeFront_nil]
    · intro (d, cursor, number) entry rest seen touching
      obtain ⟨moved, run, around⟩ := touching.rep.reads_reached.takeFront touching.around
      have advanced := touching.advance around fun handle inside => List.mem_cons_of_mem _ inside
      have ahead := (List.nodup_cons.mp (touching.nodup proper)).1
      obtain ⟨d', visited, after⟩ := advanced.visit proper (touching.subset entry (by simp)) ahead
        (touching.unseen entry.1 (by simp))
      have taken : updateWalk.next (d, cursor, number) = .ok (some entry.1) (d, moved, number) := by
        simp [updateWalk, Edit.first, Edit.second, run]
      exact ⟨(d, moved, number), (d', moved, number + 1), taken, advanced, visited, after⟩
  · constructor
    · intro (d, cursor, number) seen touching
      refine ⟨(d, cursor, number), ?_, touching⟩
      simp [updateWalk, Edit.first, Edit.second, touching.around.takeBack_nil]
    · intro (d, cursor, number) entry rest seen touching
      rw [List.reverse_cons] at touching
      obtain ⟨moved, run, around⟩ := touching.rep.reads_reached.takeBack touching.around
      have advanced := touching.advance around fun handle inside => by
        rw [List.map_append]
        exact List.mem_append_left _ inside
      have ahead : entry.1 ∉ rest.reverse.map Prod.fst := outside_front (touching.nodup proper)
      obtain ⟨d', visited, after⟩ := advanced.visit proper (touching.subset entry (by simp)) ahead
        (touching.unseen entry.1 (by simp))
      have taken : updateWalk.nextBack (d, cursor, number) =
          .ok (some entry.1) (d, moved, number) := by
        simp [updateWalk, Edit.first, Edit.second, run]
      exact ⟨(d, moved, number), (d', moved, number + 1), taken, advanced, visited, after⟩
  · intro (d, cursor, number) entries seen touching
    exact touching.around.remaining

theorem Represents.walkUpdating (rep : c.Represents q) (changes : Changes α)
    (steps : List WalkStep) :
    ∃ c', Chain.walkUpdating changes steps c = .ok (WalkStep.answers steps q.values) c' ∧
      c'.Represents (q.withEntries (q.entries.map
        (touch changes ((WalkStep.answers steps q.entries).flatMap WalkAnswer.given)))) := by
  have start : Touching q changes c c.cursor 0 q.entries [] := by
    refine ⟨rep.cursor_around, rfl, ?_, by simp, by simp⟩
    rw [touch_nil]
    exact rep
  obtain ⟨⟨c', cursor, number⟩, run, touching⟩ :=
    (updateWalk_visits rep.proper).run (s := (c, c.cursor, 0)) steps [] start
  refine ⟨c', ?_, by simpa using touching.rep⟩
  simp [Chain.walkUpdating, run, Roster.values, WalkStep.answers_map]

end Chain

end LinkedSlots
