import LinkedSlots.Proofs.HandingOver
import LinkedSlots.Proofs.Stability

namespace LinkedSlots

variable {α : Type}

def Slot.revalued (change : α → α) : Slot α → Slot α
  | .occupied node => .occupied { node with value := change node.value }
  | .vacant below => .vacant below

theorem WalkStep.given_nodup {β : Type} {items : List β} (nodup : items.Nodup)
    (steps : List WalkStep) : ((answers steps items).flatMap WalkAnswer.given).Nodup := by
  have balance := balance_all steps items
  have within : ((answers steps items).flatMap WalkAnswer.given : Multiset β) ≤ items := by
    rw [← balance, add_assoc]
    exact Multiset.le_add_right _ _
  exact Multiset.coe_nodup.mp (Multiset.nodup_of_le within (Multiset.coe_nodup.mpr nodup))

namespace Chain

variable {c : Chain α} {q : Roster α} {changes : Changes α} {seen : List (Handle × α)}

def changedAt (c : Chain α) (handles : List Handle) (changes : Changes α) : Chain α :=
  { c with
    slots := c.slots.mapIdx fun handle slot => slot.revalued (changes.make handles handle) }

theorem segment_touch {slots : Array (Slot α)} {prev next : Option Handle}
    {entries : List (Handle × α)} (nodes : Segment slots prev entries next) :
    Segment (slots.mapIdx fun handle slot =>
        slot.revalued (changes.make (seen.map Prod.fst) handle))
      prev (entries.map (touch changes seen)) next := by
  induction entries generalizing prev with
  | nil => exact True.intro
  | cons entry rest ih =>
    rcases entry with ⟨handle, value⟩
    rcases nodes with ⟨here, later⟩
    refine ⟨?_, ih later⟩
    rw [Array.getElem?_mapIdx, here, firstOf_touch]
    rfl

theorem Represents.changedAt (rep : c.Represents q) (seen : List (Handle × α))
    (changes : Changes α) :
    (c.changedAt (seen.map Prod.fst) changes).Represents
      (q.withEntries (q.entries.map (touch changes seen))) := by
  apply rep.reordered (Array.size_mapIdx ..) (segment_touch rep.nodes)
  · rw [List.map_map]
    exact .refl _
  · intro other absent
    rw [Array.getElem?_mapIdx]
    rcases rep.lookup_missing absent with ⟨-, below, found⟩ | ⟨-, none⟩
    · rw [found]
      rfl
    · rw [none]
      rfl
  · rw [firstOf_touch]
    exact rep.head
  · rw [lastOf_touch]
    exact rep.tail

end Chain

namespace Roster

variable {q : Roster α} {entry : Handle × α}

theorem update_value (q : Roster α) (handle : Handle) (change : α → α) :
    (q.update handle change).1 = q.get? handle := by
  unfold update get?
  cases locate handle q.entries <;> rfl

theorem Proper.update_entry (proper : q.Proper) (member : entry ∈ q.entries)
    (changes : Changes α) :
    q.update entry.1 (changes.nth 0) =
      (some entry.2, q.withEntries (q.entries.map (touch changes [entry]))) := by
  apply Prod.ext
  · rw [update_value]
    exact proper.get?_of_mem member
  · rw [update_changes proper]
    apply congrArg q.withEntries
    apply List.map_congr_left
    intro other _
    by_cases same : entry.1 = other.1
    · simp [touch, Changes.make, List.idxOf?_cons, same]
    · simp [touch, Changes.make, List.idxOf?_cons, same]

theorem Proper.touched (proper : q.Proper) (seen : List (Handle × α)) (changes : Changes α) :
    (q.withEntries (q.entries.map (touch changes seen))).Proper := by
  apply proper.reorder
  rw [List.map_map]
  exact .refl _

end Roster

namespace PlainStore

variable {p : PlainStore α} {name : String} {list : PlainList α} [BEq α] [Outlined α] [Stored α]

theorem update_ends (found : p.lists.find? name = some list) (proper : list.roster.Proper)
    {entry : Handle × α} (member : entry ∈ list.roster.entries) (changes : Changes α) :
    p.step (.on name (.update entry.1 (changes.nth 0))) =
      conclude (p.lists.put name
        ⟨list.roster.withEntries (list.roster.entries.map (touch changes [entry])), list.hooks⟩)
        (.ok (.value (some entry.2)) p.session) := by
  have updated := proper.update_entry member changes
  rw [step_on found]
  show conclude (p.lists.put name ⟨(list.roster.update entry.1 (changes.nth 0)).2, list.hooks⟩)
    (.ok (.value (list.roster.update entry.1 (changes.nth 0)).1) p.session) = _
  rw [updated]

/-- Checked updates of different nodes, one after the other. -/
theorem updates_end (sorted : p.lists.Sorted) (found : p.lists.find? name = some list)
    (proper : list.roster.Proper) {seen : List (Handle × α)} (nodup : (seen.map Prod.fst).Nodup)
    (among : ∀ entry ∈ seen, entry ∈ list.roster.entries) (changes : Changes α) :
    p.run ((seen.map Prod.fst).mapIdx fun number handle =>
        .on name (.update handle (changes.nth number))) =
      (seen.map fun entry => ⟨.returned (.value (some entry.2)), [], []⟩,
        ⟨p.lists.put name
          ⟨list.roster.withEntries (list.roster.entries.map (touch changes seen)), list.hooks⟩,
          p.ledger⟩) := by
  induction seen generalizing p list changes with
  | nil =>
    rw [touch_nil]
    show ([], p) = ([], PlainStore.mk (p.lists.put name list) p.ledger)
    rw [sorted.put_same found]
  | cons entry rest ih =>
    rw [List.map_cons, List.nodup_cons] at nodup
    have first := update_ends found proper (among entry List.mem_cons_self) changes
    have found' := p.lists.find?_put_self name
      ⟨list.roster.withEntries (list.roster.entries.map (touch changes [entry])), list.hooks⟩
    -- The first update leaves the entries alone that are still to come.
    have among' : ∀ other ∈ rest, other ∈ list.roster.entries.map (touch changes [entry]) := by
      intro other member
      have ne : other.1 ≠ entry.1 := fun same => nodup.1 (same ▸ List.mem_map_of_mem member)
      have kept : touch changes [entry] other = other :=
        congrArg (other.1, ·) (Changes.make_of_not_mem fun same => ne (List.mem_singleton.mp same))
      rw [← kept]
      exact List.mem_map_of_mem (among other (List.mem_cons_of_mem _ member))
    have later := ih (p := ⟨p.lists.put name
      ⟨list.roster.withEntries (list.roster.entries.map (touch changes [entry])), list.hooks⟩,
      p.ledger⟩) (sorted.put name _) found' (proper.touched [entry] changes) nodup.2 among'
      changes.tail
    have all : (list.roster.entries.map (touch changes [entry])).map (touch changes.tail rest) =
        list.roster.entries.map (touch changes (entry :: rest)) := by
      rw [List.map_map]
      exact List.map_congr_left fun other _ => (touch_cons nodup.1 other).symm
    have turns : (((entry :: rest).map Prod.fst).mapIdx fun number handle =>
          Op.on name (.update handle (changes.nth number))) =
        .on name (.update entry.1 (changes.nth 0)) ::
          (rest.map Prod.fst).mapIdx fun number handle =>
            .on name (.update handle (changes.tail.nth number)) := List.mapIdx_cons
    rw [turns, run_quietly first, later, Registry.put_put]
    unfold Roster.withEntries
    dsimp only
    rw [all]
    rfl

theorem walkUpdating_ends (found : p.lists.find? name = some list) (changes : Changes α)
    (steps : List WalkStep) :
    p.step (.on name (.walkUpdating changes steps)) =
      conclude (p.lists.put name ⟨list.roster.withEntries (list.roster.entries.map (touch changes
        ((WalkStep.answers steps list.roster.entries).flatMap WalkAnswer.given))), list.hooks⟩)
        (.ok (.walkedValues (WalkStep.answers steps list.roster.values)) p.session) := by
  rw [step_on found]
  rfl

end PlainStore

namespace Store

variable {s : Store α} {p : PlainStore α} {name : String} {list : HookedList α} {plain : PlainList α}
  [BEq α] [Outlined α] [Stored α]

/-- An updating walk hands out the nodes that a walk over the handles with the same steps hands out,
    and makes its changes to them in this order, as checked updates do. -/
structure Revises (s : Store α) (name : String) (list : HookedList α) (changes : Changes α)
    (steps : List WalkStep) (answers : List (WalkAnswer Handle)) (valued : List (WalkAnswer α)) :
    Prop where
  handles : list.chain.walkHandles steps = .ok answers
  looks : s.step (.on name (.walkHandles steps)) =
    (⟨.returned (.walkedHandles answers), [], []⟩, s)
  once : (answers.flatMap WalkAnswer.given).Nodup
  walk : s.step (.on name (.walkUpdating changes steps)) =
    (⟨.returned (.walkedValues valued), [], []⟩,
      ⟨s.lists.put name
        ⟨list.chain.changedAt (answers.flatMap WalkAnswer.given) changes, list.hooks⟩, s.ledger⟩)
  old : valued.map (WalkAnswer.map some) = answers.map (WalkAnswer.map list.chain.get?)
  updates : s.run ((answers.flatMap WalkAnswer.given).mapIdx fun number handle =>
      .on name (.update handle (changes.nth number))) =
    ((valued.flatMap WalkAnswer.given).map fun value => ⟨.returned (.value (some value)), [], []⟩,
      (s.step (.on name (.walkUpdating changes steps))).2)

theorem Mirrors.revises (mirrors : s.Mirrors p) (sorted : p.lists.Sorted)
    (there : p.lists.find? name = some plain) (same : list.Mirrors plain) (changes : Changes α)
    (steps : List WalkStep) :
    s.Revises name list changes steps (WalkStep.answers steps plain.roster.handles)
      (WalkStep.answers steps plain.roster.values) := by
  have rep := same.represents
  have proper := rep.proper
  have given : (WalkStep.answers steps plain.roster.handles).flatMap WalkAnswer.given =
      ((WalkStep.answers steps plain.roster.entries).flatMap WalkAnswer.given).map Prod.fst :=
    WalkStep.given_map Prod.fst steps plain.roster.entries
  have given' : (WalkStep.answers steps plain.roster.values).flatMap WalkAnswer.given =
      ((WalkStep.answers steps plain.roster.entries).flatMap WalkAnswer.given).map Prod.snd :=
    WalkStep.given_map Prod.snd steps plain.roster.entries
  have once := WalkStep.given_nodup proper.handles_nodup steps
  have agree := step_agrees mirrors (.on name (.walkUpdating changes steps))
  rw [PlainStore.walkUpdating_ends there] at agree
  constructor
  case handles => exact rep.walkHandles steps
  case looks => exact mirrors.step_back (PlainStore.step_looks sorted there rfl)
  case once => exact once
  case walk =>
    rw [given]
    apply agree.unique
    refine ⟨rfl, mirrors.lists.put name ⟨?_, same.hooks⟩, mirrors.ledger⟩
    exact rep.changedAt _ changes
  case old =>
    have looked : plain.roster.values.map some = plain.roster.handles.map list.chain.get? := by
      rw [Roster.values, Roster.handles, List.map_map, List.map_map]
      apply List.map_congr_left
      intro entry member
      exact ((rep.get?_eq entry.1).trans (proper.get?_of_mem member)).symm
    rw [← WalkStep.answers_map, ← WalkStep.answers_map, looked]
  case updates =>
    rw [given] at once ⊢
    have updates := PlainStore.updates_end sorted there proper once
      (fun _ => WalkStep.given_among) changes
    rw [given', List.map_map]
    exact mirrors.run_ends updates agree.stores

/-- Whatever its steps, an updating walk is a walk over the handles and a checked update of each node
    that it hands out. Nothing but the values of these nodes changes. -/
theorem run_revises (ops : List (Op α)) {name : String} {list : HookedList α}
    (found : (Store.empty.run ops).2.lists.find? name = some list) (changes : Changes α)
    (steps : List WalkStep) :
    ∃ answers valued, (Store.empty.run ops).2.Revises name list changes steps answers valued := by
  rcases run_found ops found with ⟨p, plain, mirrors, sorted, there, same⟩
  exact ⟨_, _, mirrors.revises sorted there same changes steps⟩

/-- Node 2 is passed over, and the last two steps find nothing more. Node 0 gets 5 added, and node 3
    gets 6. -/
theorem run_revises_from_both_ends :
    let ops : List (Op Value) := [
      .create "a" {},
      .on "a" (.insert .available .tail (.int 1)),
      .on "a" (.insert .available .tail (.int 2)),
      .on "a" (.insert .available .tail (.int 3)),
      .on "a" (.insert .available .head (.int 4)),
      .on "a" (.delete 1),
      .on "a" .rotateHeadToTail]
    let steps : List WalkStep := [.next, .length, .nthBack 0, .nth 1, .rest]
    let changes : Changes Value := ⟨fun number => Value.add (.ofNat (5 + number))⟩
    ∃ list answers valued, (Store.empty.run ops).2.lists.find? "a" = some list ∧
      list.chain.handles.toOption = some [0, 2, 3] ∧
      answers.flatMap WalkAnswer.given = [0, 3] ∧
      (Store.empty.run ops).2.Revises "a" list changes steps answers valued := by
  intro ops steps changes
  have present : ((Store.empty.run ops).2.lists.find? "a").map (fun list =>
      (list.chain.handles.toOption, (list.chain.walkHandles steps).toOption.map
        fun answers => answers.flatMap WalkAnswer.given)) = some (some [0, 2, 3], some [0, 3]) := by
    decide +kernel
  rcases Option.map_eq_some_iff.mp present with ⟨list, found, facts⟩
  simp only [Prod.mk.injEq] at facts
  rcases facts with ⟨handles, given⟩
  rcases run_revises ops found changes steps with ⟨answers, valued, revises⟩
  rw [revises.handles] at given
  exact ⟨list, answers, valued, found, handles, Option.some.inj given, revises⟩

end Store

end LinkedSlots
