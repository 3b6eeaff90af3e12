import LinkedSlots.Proofs.PlainList
import LinkedSlots.Proofs.Simulation

namespace LinkedSlots

variable {α β γ ε : Type}

def Level (handles others : List Handle) (handle other : Handle) : Prop :=
  ∃ position : Nat, handles[position]? = some handle ∧ others[position]? = some other

structure Twin (α : Type) where
  left : Handle
  right : Handle
  value : α

namespace Twin

def entry (side : Twin α → Handle) (twin : Twin α) : Handle × α := (side twin, twin.value)

def Names (twins : List (Twin α)) (handle other : Handle) : Prop :=
  ∃ value, ⟨handle, other, value⟩ ∈ twins

theorem names_of_mem {twins : List (Twin α)} {twin : Twin α} (member : twin ∈ twins) :
    Names twins twin.left twin.right :=
  ⟨twin.value, member⟩

theorem level_option {twins : List (Twin α)} {twin? : Option (Twin α)}
    (among : ∀ twin, twin? = some twin → twin ∈ twins) :
    Option.Rel (Names twins) (twin?.map left) (twin?.map right) := by
  cases twin? with
  | none => exact .none
  | some twin => exact .some (names_of_mem (among twin rfl))

theorem level_list {twins rest : List (Twin α)} (among : ∀ twin ∈ rest, twin ∈ twins) :
    List.Forall₂ (Names twins) (rest.map left) (rest.map right) := by
  rw [List.forall₂_map_left_iff, List.forall₂_map_right_iff, List.forall₂_same]
  intro twin member
  exact names_of_mem (among twin member)

section Side

variable {side : Twin α → Handle} {twins seen front back : List (Twin α)} {twin : Twin α}

@[simp] theorem entry_fst (side : Twin α → Handle) (twins : List (Twin α)) :
    (twins.map (entry side)).map Prod.fst = twins.map side := by
  rw [List.map_map]
  rfl

@[simp] theorem entry_snd (side : Twin α → Handle) (twins : List (Twin α)) :
    (twins.map (entry side)).map Prod.snd = twins.map value := by
  rw [List.map_map]
  rfl

theorem locate_entry (nodup : ((front ++ twin :: back).map side).Nodup) :
    locate (side twin) ((front ++ twin :: back).map (entry side)) =
      some (front.map (entry side), twin.value, back.map (entry side)) := by
  rw [← entry_fst, List.map_append, List.map_cons] at nodup
  rw [List.map_append, List.map_cons]
  exact locate_middle (outside_front nodup) twin.value _

def touched (changes : Changes α) (seen : List (Twin α)) (twin : Twin α) : Twin α :=
  { twin with value := changes.make (seen.map left) twin.left twin.value }

/-- A handle was seen on one side when its twin was seen on the other. -/
theorem idxOf?_side (lefts : (twins.map left).Nodup) (nodup : (twins.map side).Nodup)
    (among : ∀ other ∈ seen, other ∈ twins) (member : twin ∈ twins) :
    (seen.map side).idxOf? (side twin) = (seen.map left).idxOf? twin.left := by
  induction seen with
  | nil => rfl
  | cons other rest ih =>
    have inside := among other List.mem_cons_self
    have together : side other = side twin ↔ other.left = twin.left := by
      constructor
      · exact fun same => congrArg left (List.inj_on_of_nodup_map nodup inside member same)
      · exact fun same => congrArg side (List.inj_on_of_nodup_map lefts inside member same)
    rw [List.map_cons, List.map_cons, List.idxOf?_cons, List.idxOf?_cons,
      ih fun other later => among other (List.mem_cons_of_mem _ later)]
    simp only [beq_iff_eq, together]

theorem touched_side (changes : Changes α) (kept : ∀ handle other value changed,
    side ⟨handle, other, changed⟩ = side ⟨handle, other, value⟩)
    (lefts : (twins.map left).Nodup) (nodup : (twins.map side).Nodup)
    (among : ∀ other ∈ seen, other ∈ twins) :
    (twins.map (entry side)).map (touch changes (seen.map (entry side))) =
      (twins.map (touched changes seen)).map (entry side) := by
  rw [List.map_map, List.map_map]
  apply List.map_congr_left
  intro twin member
  have made : changes.make (seen.map side) (side twin) = changes.make (seen.map left) twin.left := by
    funext value
    unfold Changes.make
    rw [idxOf?_side lefts nodup among member]
  simp only [Function.comp_apply, touch, touched, entry_fst, entry, made]
  exact congrArg (·, _) (kept _ _ _ _).symm

end Side

end Twin

inductive Place.Matches (same : Handle → Handle → Prop) : Place → Place → Prop
  | head : Matches same .head .head
  | tail : Matches same .tail .tail
  | after {handle other : Handle} (level : same handle other) : Matches same (.after handle) (.after other)
  | before {handle other : Handle} (level : same handle other) :
    Matches same (.before handle) (.before other)

def Likewise (same : β → γ → Prop) : Except ε β → Except ε γ → Prop
  | .ok result, .ok other => same result other
  | .error e, .error d => e = d
  | _, _ => False

theorem Likewise.cases {same : β → γ → Prop} {ended : Except ε β} {other : Except ε γ}
    (likewise : Likewise same ended other) :
    (∃ b c, ended = .ok b ∧ other = .ok c ∧ same b c) ∨ ∃ e, ended = .error e ∧ other = .error e := by
  cases ended with
  | ok b =>
    cases other with
    | ok c => exact .inl ⟨b, c, rfl, rfl, likewise⟩
    | error d => exact likewise.elim
  | error e =>
    cases other with
    | ok c => exact likewise.elim
    | error d =>
      rcases likewise with rfl
      exact .inr ⟨e, rfl, rfl⟩

inductive WalkAnswer.Matches (same : β → γ → Prop) : WalkAnswer β → WalkAnswer γ → Prop
  | item {item? : Option β} {other? : Option γ} (level : Option.Rel same item? other?) :
    Matches same (.item item?) (.item other?)
  | length (count : Nat) : Matches same (.length count) (.length count)
  | bounds (lower upper : Nat) : Matches same (.bounds lower upper) (.bounds lower upper)
  | items {items : List β} {others : List γ} (level : List.Forall₂ same items others) :
    Matches same (.items items) (.items others)

namespace Roster

open Twin

/-- Two rosters that differ at most in slots: in the handles of the entries, and in how many slots
    were made and which of them are vacant. -/
structure Twins (twins : List (Twin α)) (q r : Roster α) : Prop where
  left : q.entries = twins.map (entry Twin.left)
  right : r.entries = twins.map (entry Twin.right)
  capacity : q.capacity = r.capacity

section Looks

variable {twins : List (Twin α)} {q r : Roster α}

theorem twins_of_values (values : q.values = r.values) (capacity : q.capacity = r.capacity) :
    ∃ twins, Twins twins q r := by
  suffices paired : ∀ entries others : List (Handle × α),
      entries.map Prod.snd = others.map Prod.snd →
      ∃ twins : List (Twin α), entries = twins.map (entry Twin.left) ∧
        others = twins.map (entry Twin.right) by
    rcases paired q.entries r.entries values with ⟨twins, left, right⟩
    exact ⟨twins, left, right, capacity⟩
  intro entries
  induction entries with
  | nil =>
    intro others same
    exact ⟨[], rfl, List.map_eq_nil_iff.mp same.symm⟩
  | cons first rest ih =>
    intro others same
    rcases others with _ | ⟨other, others⟩
    · cases same
    · rcases List.cons.inj same with ⟨value, behind⟩
      rcases ih others behind with ⟨twins, rfl, rfl⟩
      exact ⟨⟨first.1, other.1, first.2⟩ :: twins, rfl, congrArg (· :: _) (Prod.ext rfl value.symm)⟩

theorem Twins.values (same : Twins twins q r) : q.values = r.values := by
  unfold Roster.values
  rw [same.left, same.right, entry_snd, entry_snd]

theorem Twins.length (same : Twins twins q r) : q.entries.length = r.entries.length := by
  rw [same.left, same.right, List.length_map, List.length_map]

theorem Twins.lefts (same : Twins twins q r) : q.handles = twins.map Twin.left := by
  unfold handles
  rw [same.left, entry_fst]

theorem Twins.rights (same : Twins twins q r) : r.handles = twins.map Twin.right := by
  unfold handles
  rw [same.right, entry_fst]

theorem Twins.lefts_nodup (same : Twins twins q r) (proper : q.Proper) :
    (twins.map Twin.left).Nodup := by
  rw [← same.lefts]
  exact proper.handles_nodup

theorem Twins.rights_nodup (same : Twins twins q r) (proper : r.Proper) :
    (twins.map Twin.right).Nodup := by
  rw [← same.rights]
  exact proper.handles_nodup

/-- Level handles are found between level halves. -/
theorem Twins.locate (same : Twins twins q r) (proper : q.Proper) (proper' : r.Proper)
    {handle other : Handle} (level : Names twins handle other) :
    ∃ front value back, twins = front ++ ⟨handle, other, value⟩ :: back ∧
      LinkedSlots.locate handle q.entries =
        some (front.map (entry Twin.left), value, back.map (entry Twin.left)) ∧
      LinkedSlots.locate other r.entries =
        some (front.map (entry Twin.right), value, back.map (entry Twin.right)) := by
  rcases level with ⟨value, member⟩
  rcases List.append_of_mem member with ⟨front, back, rfl⟩
  refine ⟨front, value, back, rfl, ?_, ?_⟩
  · rw [same.left]
    exact locate_entry (same.lefts_nodup proper)
  · rw [same.right]
    exact locate_entry (same.rights_nodup proper')

theorem Twins.gap (same : Twins twins q r) (proper : q.Proper) (proper' : r.Proper)
    {place other : Place} (level : place.Matches (Names twins) other) :
    ∃ front back, twins = front ++ back ∧
      q.gap place = .ok (front.map (entry Twin.left), back.map (entry Twin.left)) ∧
      r.gap other = .ok (front.map (entry Twin.right), back.map (entry Twin.right)) := by
  cases level with
  | head => exact ⟨[], twins, rfl, by rw [← same.left]; rfl, by rw [← same.right]; rfl⟩
  | tail =>
    exact ⟨twins, [], (List.append_nil twins).symm, by rw [← same.left]; rfl,
      by rw [← same.right]; rfl⟩
  | @after handle other level =>
    rcases same.locate proper proper' level with ⟨front, value, back, rfl, left, right⟩
    refine ⟨front ++ [⟨handle, other, value⟩], back, by simp, ?_, ?_⟩
    · simp only [Roster.gap, left, List.map_append]
      rfl
    · simp only [Roster.gap, right, List.map_append]
      rfl
  | @before handle other level =>
    rcases same.locate proper proper' level with ⟨front, value, back, rfl, left, right⟩
    refine ⟨front, ⟨handle, other, value⟩ :: back, rfl, ?_, ?_⟩
    · simp only [Roster.gap, left]
      rfl
    · simp only [Roster.gap, right]
      rfl

theorem Twins.head (same : Twins twins q r) :
    Option.Rel (Names twins) q.handles.head? r.handles.head? := by
  rw [same.lefts, same.rights, List.head?_map, List.head?_map]
  exact level_option fun _ found => List.mem_of_head? found

theorem Twins.last (same : Twins twins q r) :
    Option.Rel (Names twins) q.handles.getLast? r.handles.getLast? := by
  rw [same.lefts, same.rights, List.getLast?_map, List.getLast?_map]
  exact level_option fun _ found => List.mem_of_getLast? found

theorem Twins.index (same : Twins twins q r) (position : Int) :
    Option.Rel (Names twins) (q.index position) (r.index position) := by
  unfold Roster.index
  rw [same.lefts, same.rights]
  cases position with
  | ofNat position =>
    simp only [List.getElem?_map]
    exact level_option fun _ found => List.mem_of_getElem? found
  | negSucc position =>
    simp only [← List.map_reverse, List.getElem?_map]
    exact level_option fun _ found => List.mem_reverse.mp (List.mem_of_getElem? found)

theorem Twins.get (same : Twins twins q r) (proper : q.Proper) (proper' : r.Proper)
    {handle other : Handle} (level : Names twins handle other) : q.get? handle = r.get? other := by
  rcases same.locate proper proper' level with ⟨front, value, back, -, left, right⟩
  unfold Roster.get?
  rw [left, right]
  rfl

theorem Twins.next (same : Twins twins q r) (proper : q.Proper) (proper' : r.Proper)
    {handle other : Handle} (level : Names twins handle other) :
    Option.Rel (Names twins) (q.next? handle) (r.next? other) := by
  rcases same.locate proper proper' level with ⟨front, value, back, split, left, right⟩
  unfold Roster.next?
  rw [left, right]
  simp only [Option.bind_some, ← List.head?_map, entry_fst]
  simp only [List.head?_map]
  apply level_option
  intro twin found
  rw [split]
  exact List.mem_append_right _ (List.mem_cons_of_mem _ (List.mem_of_head? found))

theorem Twins.prev (same : Twins twins q r) (proper : q.Proper) (proper' : r.Proper)
    {handle other : Handle} (level : Names twins handle other) :
    Option.Rel (Names twins) (q.prev? handle) (r.prev? other) := by
  rcases same.locate proper proper' level with ⟨front, value, back, split, left, right⟩
  unfold Roster.prev?
  rw [left, right]
  simp only [Option.bind_some, ← List.getLast?_map, entry_fst]
  simp only [List.getLast?_map]
  apply level_option
  intro twin found
  rw [split]
  exact List.mem_append_left _ (List.mem_of_getLast? found)

theorem Twins.answers (same : Twins twins q r) (steps : List WalkStep) :
    List.Forall₂ (WalkAnswer.Matches (Names twins)) (WalkStep.answers steps q.handles)
      (WalkStep.answers steps r.handles) := by
  have one : ∀ answer ∈ WalkStep.answers steps twins,
      (answer.map Twin.left).Matches (Names twins) (answer.map Twin.right) := by
    intro answer inside
    have among : ∀ twin ∈ answer.given, twin ∈ twins := fun twin given =>
      WalkStep.given_among (List.mem_flatMap.mpr ⟨answer, inside, given⟩)
    cases answer with
    | item twin? =>
      exact .item (level_option fun twin found => among twin (by simp [WalkAnswer.given, found]))
    | length count => exact .length count
    | bounds lower upper => exact .bounds lower upper
    | items all => exact .items (level_list among)
  rw [same.lefts, same.rights, WalkStep.answers_map, WalkStep.answers_map, List.forall₂_map_left_iff,
    List.forall₂_map_right_iff, List.forall₂_same]
  exact one

end Looks

section Edits

variable {twins : List (Twin α)} {q r : Roster α}

theorem Twins.withEntries (same : Twins twins q r) (left : List (Twin α)) :
    Twins left (q.withEntries (left.map (entry Twin.left)))
      (r.withEntries (left.map (entry Twin.right))) :=
  ⟨rfl, rfl, same.capacity⟩

theorem Twins.reset (same : Twins twins q r) : Twins [] q.reset r.reset := ⟨rfl, rfl, same.capacity⟩

theorem Twins.dropFront (same : Twins twins q r) (count : Nat) :
    Twins (twins.drop count) (q.dropFront count) (r.dropFront count) := by
  refine ⟨?_, ?_, same.capacity⟩
  · show q.entries.drop count = _
    rw [same.left, List.map_drop]
  · show r.entries.drop count = _
    rw [same.right, List.map_drop]

theorem Twins.takeOut (same : Twins twins q r) (front back : List (Twin α)) (handle other : Handle) :
    Twins (front ++ back)
      (q.takeOut (front.map (entry Twin.left)) handle (back.map (entry Twin.left)))
      (r.takeOut (front.map (entry Twin.right)) other (back.map (entry Twin.right))) :=
  ⟨List.map_append.symm, List.map_append.symm, same.capacity⟩

theorem Twins.putBetween (same : Twins twins q r) (front back : List (Twin α)) (value : α) :
    Twins (front ++ ⟨q.fresh, r.fresh, value⟩ :: back)
      (q.putBetween (front.map (entry Twin.left)) (back.map (entry Twin.left)) value)
      (r.putBetween (front.map (entry Twin.right)) (back.map (entry Twin.right)) value) := by
  constructor
  · rw [List.map_append]
    rfl
  · rw [List.map_append]
    rfl
  · exact same.capacity

theorem Twins.pushAll (same : Twins twins q r) (values : List α) :
    ∃ more, Twins more (q.pushAll values) (r.pushAll values) := by
  induction values generalizing q r twins with
  | nil => exact ⟨twins, same⟩
  | cons value rest ih =>
    have pushed := same.putBetween twins [] value
    rw [← same.left, ← same.right] at pushed
    exact ih pushed

/-- Room is made in both or refused in both. -/
theorem Twins.reserve [Stored α] (same : Twins twins q r) (proper : q.Proper) (proper' : r.Proper)
    (memory : Memory) (count : Nat) :
    (∃ grown more, q.reserve memory count = .ok grown ∧ r.reserve memory count = .ok more ∧
        Twins twins grown more) ∨
      ∃ shortage, q.reserve memory count = .error shortage ∧
        r.reserve memory count = .error shortage := by
  rw [proper.reserve_eq, proper'.reserve_eq, ← same.length, ← same.capacity]
  dsimp only
  split
  · exact .inl ⟨q, r, rfl, rfl, same⟩
  · split
    · exact .inr ⟨.tooLarge, rfl, rfl⟩
    · split
      · exact .inr ⟨.exhausted, rfl, rfl⟩
      · exact .inl ⟨_, _, rfl, rfl, same.left, same.right, rfl⟩

theorem Twins.makeRoom [Stored α] (same : Twins twins q r) (proper : q.Proper) (proper' : r.Proper)
    (memory : Memory) (count : Nat) :
    Alike Eq (Twins twins) (Roster.makeRoom memory count q) (Roster.makeRoom memory count r) := by
  unfold Roster.makeRoom
  rcases same.reserve proper proper' memory count with
    ⟨grown, more, left, right, after⟩ | ⟨shortage, left, right⟩
  · rw [left, right]
    exact ⟨rfl, after⟩
  · rw [left, right]
    exact ⟨rfl, same⟩

theorem Twins.insert [Stored α] (same : Twins twins q r) (proper : q.Proper) (proper' : r.Proper)
    {place other : Place} (level : place.Matches (Names twins) other) (memory : Memory) (value : α) :
    ∃ left, Alike (Likewise (Names left)) (Twins left) (Roster.insert memory place value q)
      (Roster.insert memory other value r) := by
  rcases same.gap proper proper' level with ⟨front, back, rfl, gap, gap'⟩
  unfold Roster.insert
  rw [gap, gap', proper.reserveSlot_eq, proper'.reserveSlot_eq]
  dsimp only
  rcases same.reserve proper proper' memory 1 with
    ⟨grown, more, left, right, after⟩ | ⟨shortage, left, right⟩
  · rw [left, right]
    exact ⟨front ++ ⟨grown.fresh, more.fresh, value⟩ :: back, ⟨value, by simp⟩, after.putBetween front back value⟩
  · rw [left, right]
    exact ⟨front ++ back, rfl, same⟩

theorem Twins.unlink (same : Twins twins q r) (proper : q.Proper) (proper' : r.Proper)
    {handle other : Handle} (level : Names twins handle other) :
    ∃ left, Alike Eq (Twins left) (Roster.unlink handle q) (Roster.unlink other r) := by
  rcases same.locate proper proper' level with ⟨front, value, back, -, left, right⟩
  unfold Roster.unlink
  rw [left, right]
  exact ⟨front ++ back, rfl, same.takeOut front back handle other⟩

theorem Twins.popFront (same : Twins twins q r) :
    ∃ left, Alike Eq (Twins left) (Roster.popFront q) (Roster.popFront r) := by
  unfold Roster.popFront
  rw [same.left, same.right]
  cases twins with
  | nil => exact ⟨[], rfl, same⟩
  | cons twin rest => exact ⟨rest, rfl, rfl, rfl, same.capacity⟩

theorem Twins.popBack (same : Twins twins q r) :
    ∃ left, Alike Eq (Twins left) (Roster.popBack q) (Roster.popBack r) := by
  unfold Roster.popBack
  rw [same.left, same.right]
  rcases List.eq_nil_or_concat' twins with rfl | ⟨front, twin, rfl⟩
  · exact ⟨[], rfl, same⟩
  · simp only [List.map_append, List.map_cons, List.map_nil, List.getLast?_concat,
      List.dropLast_concat]
    exact ⟨front ++ [], rfl, same.takeOut front [] twin.left twin.right⟩

theorem Twins.update (same : Twins twins q r) (proper : q.Proper) (proper' : r.Proper)
    {handle other : Handle} (level : Names twins handle other) (change : α → α) :
    ∃ left, (q.update handle change).1 = (r.update other change).1 ∧
      Twins left (q.update handle change).2 (r.update other change).2 := by
  rcases same.locate proper proper' level with ⟨front, value, back, -, left, right⟩
  unfold Roster.update
  rw [left, right]
  have after := same.withEntries (front ++ ⟨handle, other, change value⟩ :: back)
  rw [List.map_append, List.map_append] at after
  exact ⟨_, rfl, after⟩

theorem Twins.updateFront (same : Twins twins q r) (change : α → α) :
    ∃ left, (q.updateFront change).1 = (r.updateFront change).1 ∧
      Twins left (q.updateFront change).2 (r.updateFront change).2 := by
  unfold Roster.updateFront
  rw [same.left, same.right]
  cases twins with
  | nil => exact ⟨[], rfl, same⟩
  | cons twin rest =>
    exact ⟨_, rfl, same.withEntries ({ twin with value := change twin.value } :: rest)⟩

theorem Twins.updateBack (same : Twins twins q r) (change : α → α) :
    ∃ left, (q.updateBack change).1 = (r.updateBack change).1 ∧
      Twins left (q.updateBack change).2 (r.updateBack change).2 := by
  unfold Roster.updateBack
  rw [same.left, same.right]
  rcases List.eq_nil_or_concat' twins with rfl | ⟨front, twin, rfl⟩
  · exact ⟨[], rfl, same⟩
  · have after := same.withEntries (front ++ [{ twin with value := change twin.value }])
    simp only [List.map_append, List.map_cons, List.map_nil, entry] at after
    simp only [List.map_append, List.map_cons, List.map_nil, List.getLast?_concat,
      List.dropLast_concat, entry]
    exact ⟨_, trivial, after⟩

theorem Twins.walkUpdating (same : Twins twins q r) (proper : q.Proper) (proper' : r.Proper)
    (changes : Changes α) (steps : List WalkStep) :
    ∃ left, Alike Eq (Twins left) (Roster.walkUpdating changes steps q)
      (Roster.walkUpdating changes steps r) := by
  have lefts := same.lefts_nodup proper
  have rights := same.rights_nodup proper'
  have among : ∀ twin ∈ (WalkStep.answers steps twins).flatMap WalkAnswer.given, twin ∈ twins :=
    fun _ given => WalkStep.given_among given
  unfold Roster.walkUpdating
  rw [same.values, same.left, same.right, WalkStep.given_map, WalkStep.given_map,
    touched_side changes (fun _ _ _ _ => rfl) lefts lefts among,
    touched_side changes (fun _ _ _ _ => rfl) lefts rights among]
  exact ⟨_, rfl, same.withEntries _⟩

theorem Twins.rotateTailToHead (same : Twins twins q r) :
    ∃ left, Twins left q.rotateTailToHead r.rotateTailToHead := by
  unfold Roster.rotateTailToHead
  rw [same.left, same.right]
  rcases List.eq_nil_or_concat' twins with rfl | ⟨front, twin, rfl⟩
  · exact ⟨[], same⟩
  · simp only [List.map_append, List.map_cons, List.map_nil, List.getLast?_concat,
      List.dropLast_concat]
    exact ⟨twin :: front, same.withEntries (twin :: front)⟩

theorem Twins.rotateHeadToTail (same : Twins twins q r) :
    ∃ left, Twins left q.rotateHeadToTail r.rotateHeadToTail := by
  unfold Roster.rotateHeadToTail
  rw [same.left, same.right]
  cases twins with
  | nil => exact ⟨[], same⟩
  | cons twin rest =>
    have after := same.withEntries (rest ++ [twin])
    rw [List.map_append, List.map_append] at after
    exact ⟨_, after⟩

end Edits

end Roster

end LinkedSlots
