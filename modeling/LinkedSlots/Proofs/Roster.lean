import LinkedSlots.Chain.Insert
import Mathlib.Data.List.Perm.Basic
import Mathlib.Data.List.Nodup

namespace LinkedSlots

/-- What a chain stands for: the handles and values from head to tail, the vacant handles from the
    top of their stack down, how many slots were made and how many fit. -/
structure Roster (α : Type) where
  entries : List (Handle × α)
  vacant : List Handle
  made : Nat
  capacity : Nat

variable {α : Type}

def locate (handle : Handle) :
    List (Handle × α) → Option (List (Handle × α) × α × List (Handle × α))
  | [] => none
  | (other, value) :: rest =>
    if other = handle then some ([], value, rest)
    else (locate handle rest).map fun (front, found, back) => ((other, value) :: front, found, back)

theorem locate_eq_none_iff {handle : Handle} {entries : List (Handle × α)} :
    locate handle entries = none ↔ handle ∉ entries.map Prod.fst := by
  induction entries with
  | nil => simp [locate]
  | cons entry rest ih =>
    obtain ⟨other, value⟩ := entry
    by_cases same : other = handle
    · simp [locate, same]
    · have ne : handle ≠ other := fun eq => same eq.symm
      simp only [locate, same, if_false, Option.map_eq_none_iff, ih, List.map_cons, List.mem_cons,
        ne, false_or]

theorem locate_eq_some {handle : Handle} {entries front back : List (Handle × α)} {value : α}
    (found : locate handle entries = some (front, value, back)) :
    entries = front ++ (handle, value) :: back := by
  induction entries generalizing front with
  | nil => cases found
  | cons entry rest ih =>
    obtain ⟨other, kept⟩ := entry
    by_cases same : other = handle
    · simp only [locate, same, if_true, Option.some.injEq, Prod.mk.injEq] at found
      obtain ⟨rfl, rfl, rfl⟩ := found
      simp [same]
    · simp only [locate, same, if_false, Option.map_eq_some_iff] at found
      obtain ⟨⟨before, middle, behind⟩, inside, eq⟩ := found
      obtain ⟨rfl, rfl, rfl⟩ := eq
      simp [ih inside]

theorem locate_middle {handle : Handle} {front : List (Handle × α)}
    (outside : handle ∉ front.map Prod.fst) (value : α) (back : List (Handle × α)) :
    locate handle (front ++ (handle, value) :: back) = some (front, value, back) := by
  induction front with
  | nil => simp [locate]
  | cons entry rest ih =>
    obtain ⟨other, kept⟩ := entry
    simp only [List.map_cons, List.mem_cons, not_or] at outside
    have ne : other ≠ handle := fun eq => outside.1 eq.symm
    simp [locate, ne, ih outside.2]

theorem outside_front {handle : Handle} {value : α} {front back : List (Handle × α)}
    (nodup : ((front ++ (handle, value) :: back).map Prod.fst).Nodup) :
    handle ∉ front.map Prod.fst := by
  rw [List.map_append] at nodup
  intro member
  exact (List.nodup_append.mp nodup).2.2 handle member handle (by simp) rfl

theorem locate_of_mem {handle : Handle} {entries : List (Handle × α)}
    (member : handle ∈ entries.map Prod.fst) :
    ∃ front value back, locate handle entries = some (front, value, back) := by
  cases place : locate handle entries with
  | none => exact (locate_eq_none_iff.mp place member).elim
  | some split => exact ⟨split.1, split.2.1, split.2.2, rfl⟩

def Place.beside? : Place → Option Handle
  | .head | .tail => none
  | .after handle | .before handle => some handle

namespace Roster

def empty : Roster α := ⟨[], [], 0, 0⟩

def handles (q : Roster α) : List Handle := q.entries.map Prod.fst

def values (q : Roster α) : List α := q.entries.map Prod.snd

/-- Every slot made is either named by one entry or vacant, once, and all of them fit. -/
structure Proper (q : Roster α) : Prop where
  once : (q.handles ++ q.vacant).Perm (List.range q.made)
  fits : q.made ≤ q.capacity

def missing (q : Roster α) (handle : Handle) : Fault :=
  if handle < q.made then .vacantSlot handle else .outOfBounds handle q.made

def gap (q : Roster α) : Place → Except Fault (List (Handle × α) × List (Handle × α))
  | .head => .ok ([], q.entries)
  | .tail => .ok (q.entries, [])
  | .after handle =>
    match locate handle q.entries with
    | some (front, value, back) => .ok (front ++ [(handle, value)], back)
    | none => .error (q.missing handle)
  | .before handle =>
    match locate handle q.entries with
    | some (front, value, back) => .ok (front, (handle, value) :: back)
    | none => .error (q.missing handle)

theorem gap_missing {q : Roster α} {place : Place} {handle : Handle}
    (beside : place.beside? = some handle) (dead : handle ∉ q.handles) :
    q.gap place = .error (q.missing handle) := by
  have absent := locate_eq_none_iff.mpr dead
  cases place with
  | head => cases beside
  | tail => cases beside
  | after other =>
    cases beside
    simp only [gap, absent]
  | before other =>
    cases beside
    simp only [gap, absent]

theorem gap_found {q : Roster α} {place : Place}
    (live : ∀ handle, place.beside? = some handle → handle ∈ q.handles) :
    ∃ front back, q.gap place = .ok (front, back) := by
  cases place with
  | head => exact ⟨[], q.entries, rfl⟩
  | tail => exact ⟨q.entries, [], rfl⟩
  | after handle =>
    rcases locate_of_mem (live handle rfl) with ⟨front, value, back, split⟩
    exact ⟨front ++ [(handle, value)], back, by simp only [gap, split]⟩
  | before handle =>
    rcases locate_of_mem (live handle rfl) with ⟨front, value, back, split⟩
    exact ⟨front, (handle, value) :: back, by simp only [gap, split]⟩

def grownCapacity (q : Roster α) (count : Nat) : Nat :=
  max (max (2 * q.capacity) (q.made + count)) 4

section Stored

variable [Stored α]

def grow (memory : Memory) (count : Nat) (q : Roster α) : Except Shortage (Roster α) :=
  if q.made + count ≤ q.capacity then .ok q
  else if Stored.roomLimit α ≤ q.grownCapacity count then .error .tooLarge
  else if memory = .exhausted then .error .exhausted
  else .ok { q with capacity := q.grownCapacity count }

def reserve (memory : Memory) (count : Nat) (q : Roster α) : Except Shortage (Roster α) :=
  q.grow memory (count - q.vacant.length)

def reserveSlot (memory : Memory) (q : Roster α) : Except Shortage (Roster α) :=
  if q.vacant = [] then q.grow memory 1 else .ok q

end Stored

def fresh (q : Roster α) : Handle := q.vacant.head?.getD q.made

def putBetween (q : Roster α) (front back : List (Handle × α)) (value : α) : Roster α :=
  { q with
    entries := front ++ (q.fresh, value) :: back
    vacant := q.vacant.tail
    made := if q.vacant = [] then q.made + 1 else q.made }

def takeOut (q : Roster α) (front : List (Handle × α)) (handle : Handle)
    (back : List (Handle × α)) : Roster α :=
  { q with entries := front ++ back, vacant := handle :: q.vacant }

def push (q : Roster α) (value : α) : Roster α := q.putBetween q.entries [] value

def withEntries (q : Roster α) (entries : List (Handle × α)) : Roster α := { q with entries := entries }

def rotateTailToHead (q : Roster α) : Roster α :=
  match q.entries.getLast? with
  | none => q
  | some last => q.withEntries (last :: q.entries.dropLast)

def rotateHeadToTail (q : Roster α) : Roster α :=
  match q.entries with
  | [] => q
  | first :: rest => q.withEntries (rest ++ [first])

def update (handle : Handle) (change : α → α) (q : Roster α) : Option α × Roster α :=
  match locate handle q.entries with
  | none => (none, q)
  | some (front, value, back) =>
    (some value, q.withEntries (front ++ (handle, change value) :: back))

def updateFront (change : α → α) (q : Roster α) : Option α × Roster α :=
  match q.entries with
  | [] => (none, q)
  | (handle, value) :: back => (some value, q.withEntries ((handle, change value) :: back))

def updateBack (change : α → α) (q : Roster α) : Option α × Roster α :=
  match q.entries.getLast? with
  | none => (none, q)
  | some (handle, value) =>
    (some value, q.withEntries (q.entries.dropLast ++ [(handle, change value)]))

def reset (q : Roster α) : Roster α := { empty with capacity := q.capacity }

theorem Proper.nodup {q : Roster α} (proper : q.Proper) : (q.handles ++ q.vacant).Nodup :=
  proper.once.nodup_iff.mpr List.nodup_range

theorem Proper.made_iff {q : Roster α} (proper : q.Proper) (handle : Handle) :
    handle < q.made ↔ handle ∈ q.handles ∨ handle ∈ q.vacant := by
  rw [← List.mem_append, proper.once.mem_iff, List.mem_range]

theorem Proper.count {q : Roster α} (proper : q.Proper) :
    q.entries.length + q.vacant.length = q.made := by
  have lengths := proper.once.length_eq
  simpa [handles] using lengths

theorem Proper.handles_nodup {q : Roster α} (proper : q.Proper) : q.handles.Nodup :=
  (List.nodup_append.mp proper.nodup).1

theorem Proper.vacant_nodup {q : Roster α} (proper : q.Proper) : q.vacant.Nodup :=
  (List.nodup_append.mp proper.nodup).2.1

theorem Proper.apart {q : Roster α} (proper : q.Proper) {handle : Handle}
    (live : handle ∈ q.handles) : handle ∉ q.vacant :=
  fun dead => (List.nodup_append.mp proper.nodup).2.2 handle live handle dead rfl

theorem proper_empty : (empty : Roster α).Proper := ⟨.refl _, Nat.le_refl 0⟩

theorem proper_reset (q : Roster α) : q.reset.Proper := ⟨.refl _, Nat.zero_le _⟩

/-- Where the entries change, it is enough that their handles are the same in some order. -/
theorem Proper.reorder {q : Roster α} (proper : q.Proper) {entries : List (Handle × α)}
    (same : (entries.map Prod.fst).Perm q.handles) : (q.withEntries entries).Proper :=
  ⟨(same.append_right q.vacant).trans proper.once, proper.fits⟩

theorem Proper.takeOut {q : Roster α} (proper : q.Proper) {front back : List (Handle × α)}
    {handle : Handle} {value : α} (entries : q.entries = front ++ (handle, value) :: back) :
    (q.takeOut front handle back).Proper := by
  refine ⟨?_, proper.fits⟩
  have once := proper.once
  simp only [handles, entries, List.map_append, List.map_cons, List.append_assoc,
    List.cons_append] at once
  simp only [handles, Roster.takeOut, List.map_append, List.append_assoc]
  refine List.Perm.trans ?_ once
  exact List.Perm.append_left _ List.perm_middle

theorem Proper.putBetween {q : Roster α} (proper : q.Proper) {front back : List (Handle × α)}
    (entries : q.entries = front ++ back) (value : α)
    (room : q.vacant = [] → q.made + 1 ≤ q.capacity) : (q.putBetween front back value).Proper := by
  have once := proper.once
  cases vacant : q.vacant with
  | nil =>
    refine ⟨?_, by simpa [Roster.putBetween, vacant] using room vacant⟩
    simp only [handles, entries, vacant, List.append_nil, List.map_append] at once
    simp only [handles, Roster.putBetween, fresh, vacant, List.head?_nil, Option.getD_none,
      List.tail_nil, List.append_nil, List.map_append, List.map_cons, if_true, List.range_succ]
    exact List.perm_middle.trans ((once.cons _).trans (List.perm_append_singleton _ _).symm)
  | cons top rest =>
    refine ⟨?_, by simpa [Roster.putBetween, vacant] using proper.fits⟩
    simp only [handles, entries, vacant, List.map_append, List.append_assoc] at once
    simp only [handles, Roster.putBetween, fresh, vacant, List.head?_cons, Option.getD_some,
      List.tail_cons, List.map_append, List.map_cons, List.append_assoc, List.cons_append,
      reduceCtorEq, if_false]
    refine List.Perm.trans ?_ once
    exact List.Perm.append_left _ List.perm_middle.symm

theorem Proper.fresh_outside {q : Roster α} (proper : q.Proper) : q.fresh ∉ q.handles := by
  intro live
  cases vacant : q.vacant with
  | nil =>
    have bound := (proper.made_iff q.fresh).mpr (.inl live)
    simp [fresh, vacant] at bound
  | cons top rest =>
    apply proper.apart live
    simp [fresh, vacant]

end Roster

end LinkedSlots
