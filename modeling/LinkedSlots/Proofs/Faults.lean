import LinkedSlots.Proofs.Raising
import LinkedSlots.Proofs.Refinement
import LinkedSlots.Proofs.Totals
import LinkedSlots.Value.Policy

namespace LinkedSlots

variable {α : Type}

namespace PlainStore

variable {p : PlainStore α} {lists : Registry String (PlainList α)} {cause : Fault}

/-- The operation has to find a node of a list, and the list has no such node. -/
def Misled (p : PlainStore α) (op : Op α) (cause : Fault) : Prop :=
  ∃ name listOp list handle, op = .on name listOp ∧ listOp.needs? = some handle ∧
    p.lists.find? name = some list ∧ handle ∉ list.roster.handles ∧
    cause = list.roster.missing handle

theorem conclude_sound {ended : EStateM.Result Panic (Session α) (Answer α)}
    (sound : ∀ panic t, ended = .error panic t → panic.Sound) :
    (conclude lists ended).1.outcome ≠ .panicked (.fault cause) := by
  cases ended with
  | ok answer t => nofun
  | error panic t =>
    intro same
    have fault : panic = .fault cause := by
      injection same
    rw [fault] at sound
    exact sound _ t rfl

theorem replace_sound (name : String) (list : PlainList α) (session : Session α) :
    (p.replace name list session).1.outcome ≠ .panicked (.fault cause) := by
  unfold replace
  cases p.lists.find? name with
  | none => nofun
  | some old =>
    apply conclude_sound
    exact Raises.bind (PlainList.drop_raises) (fun _ => .pure _) session

theorem keep_sound (name : String)
    {made : EStateM.Result Panic (Session α) (Except ListError (PlainList α))}
    (sound : ∀ panic t, made = .error panic t → panic.Sound) :
    (p.keep name made).1.outcome ≠ .panicked (.fault cause) := by
  rcases made with ⟨_ | list, session⟩ | ⟨panic, session⟩
  · nofun
  · exact replace_sound name list session
  · apply conclude_sound
    rintro _ _ ⟨⟩
    exact sound panic session rfl

theorem duplicate_sound (source name : String)
    {copy : PlainList α → Act (Session α) (Except ListError (PlainList α))}
    (sound : ∀ list, Raises Panic.Sound (copy list)) :
    (p.duplicate source name copy).1.outcome ≠ .panicked (.fault cause) := by
  unfold duplicate
  cases p.lists.find? source with
  | none => nofun
  | some list => exact keep_sound name (sound list p.session)

theorem retire_sound (name : String) {act : PlainList α → Act (Session α) (Answer α)}
    (sound : ∀ list, Raises Panic.Sound (act list)) :
    (p.retire name act).1.outcome ≠ .panicked (.fault cause) := by
  unfold retire
  cases p.lists.find? name with
  | none => nofun
  | some list => exact conclude_sound (sound list p.session)

theorem pair_sound (name source : String)
    {act : PlainList α → PlainList α → Report α × PlainStore α}
    (sound : ∀ list other, (act list other).1.outcome ≠ .panicked (.fault cause)) :
    (p.pair name source act).1.outcome ≠ .panicked (.fault cause) := by
  unfold pair
  by_cases same : name = source
  · rw [if_pos same]
    nofun
  · rw [if_neg same]
    cases p.lists.find? name with
    | none => nofun
    | some list =>
      cases p.lists.find? source with
      | none => nofun
      | some other => exact sound list other

variable [BEq α] [Outlined α] [Stored α] {op : Op α}

theorem step_misled (sorted : p.lists.Sorted) (misled : p.Misled op cause) :
    p.step op = (⟨.panicked (.fault cause), [], []⟩, p) := by
  rcases misled with ⟨name, listOp, list, handle, rfl, needs, found, dead, rfl⟩
  rw [step_on found, PlainBench.perform_missing needs dead]
  unfold conclude
  dsimp only
  rw [sorted.put_same found]
  rfl

theorem misled_of_step (ended : (p.step op).1.outcome = .panicked (.fault cause)) :
    p.Misled op cause := by
  cases op with
  | create name policies => exact (replace_sound name _ _ ended).elim
  | createWithRoom name memory count =>
    exact (keep_sound name (PlainList.withRoom_raises memory count p.session) ended).elim
  | on name listOp =>
    cases found : p.lists.find? name with
    | none =>
      rw [step_on_absent found] at ended
      cases ended
    | some list =>
      rw [step_on found] at ended
      by_cases live : ∀ handle, listOp.needs? = some handle → handle ∈ list.roster.handles
      · cases run : PlainBench.perform listOp ⟨list, p.session⟩ with
        | ok answer b =>
          rw [run] at ended
          cases ended
        | error panic b =>
          rw [run] at ended
          have sound : panic.Sound := PlainBench.perform_found (fun _ => trivial) live run
          refine (conclude_sound ?_ ended).elim
          rintro _ _ ⟨⟩
          exact sound
      · simp only [not_forall] at live
        rcases live with ⟨handle, needs, dead⟩
        rw [PlainBench.perform_missing needs dead] at ended
        cases ended
        exact ⟨name, listOp, list, handle, rfl, needs, found, dead, rfl⟩
  | shareHooks name source => exact (pair_sound name source (fun _ _ same => by cases same) ended).elim
  | join name source memory =>
    refine (pair_sound name source (fun list other => ?_) ended).elim
    unfold PlainBench.join
    dsimp only
    cases list.roster.reserve memory other.roster.entries.length <;> nofun
  | duplicate source name memory =>
    exact (duplicate_sound source name (fun _ => PlainList.duplicateBy_raises memory _) ended).elim
  | duplicateWithHook source name memory =>
    exact (duplicate_sound source name (fun _ => PlainList.duplicateWithHook_raises memory) ended).elim
  | walkTaking name steps =>
    refine (retire_sound name (fun list => ?_) ended).elim
    refine .bind (.bind ?_ fun _ => .pure _) fun _ => .pure _
    exact Session.freeAll_raises (fun _ => trivial) _ _
  | release name =>
    exact (retire_sound name (fun _ => .bind PlainList.release_raises fun _ => .pure _) ended).elim
  | drop name =>
    exact (retire_sound name (fun _ => .bind PlainList.drop_raises fun _ => .pure _) ended).elim

end PlainStore

def Chain.Misses (c : Chain α) (handle : Handle) (cause : Fault) : Prop :=
  (∃ below, c.slots[handle]? = some (.vacant below)) ∧ cause = .vacantSlot handle ∨
    c.slots.size ≤ handle ∧ cause = .outOfBounds handle c.slots.size

theorem Chain.Represents.misses_iff {c : Chain α} {q : Roster α} (rep : c.Represents q)
    (handle : Handle) (cause : Fault) :
    c.Misses handle cause ↔ handle ∉ q.handles ∧ cause = q.missing handle := by
  unfold Roster.missing
  constructor
  · rintro (⟨⟨below, found⟩, rfl⟩ | ⟨beyond, rfl⟩)
    · have dead : handle ∉ q.handles := fun live => by
        rcases locate_of_mem live with ⟨front, value, back, split⟩
        rw [rep.lookup (locate_eq_some split)] at found
        cases found
      have bound : handle < q.made := by
        rw [← rep.size]
        exact (Array.getElem?_eq_some_iff.mp found).1
      rw [if_pos bound]
      exact ⟨dead, rfl⟩
    · rw [rep.size] at beyond ⊢
      have dead : handle ∉ q.handles := fun live =>
        beyond.not_gt ((rep.proper.made_iff handle).mpr (.inl live))
      rw [if_neg beyond.not_gt]
      exact ⟨dead, rfl⟩
  · rintro ⟨dead, rfl⟩
    rcases rep.lookup_missing dead with ⟨bound, vacant⟩ | ⟨bound, -⟩
    · rw [if_pos bound]
      exact .inl ⟨vacant, rfl⟩
    · rw [if_neg bound, ← rep.size]
      exact .inr ⟨by rw [rep.size]; exact Nat.not_lt.mp bound, rfl⟩

namespace Store

/-- The operation has to find a node of a list, and the list has no such node. -/
def Misled (s : Store α) (op : Op α) (cause : Fault) : Prop :=
  ∃ name listOp list handle, op = .on name listOp ∧ listOp.needs? = some handle ∧
    s.lists.find? name = some list ∧ list.chain.Misses handle cause

theorem Mirrors.misled_iff {s : Store α} {p : PlainStore α} (mirrors : s.Mirrors p) (op : Op α)
    (cause : Fault) : s.Misled op cause ↔ p.Misled op cause := by
  constructor
  · rintro ⟨name, listOp, list, handle, rfl, needs, found, misses⟩
    rcases mirrors.found found with ⟨plain, there, same⟩
    rcases (same.represents.misses_iff handle cause).mp misses with ⟨dead, rfl⟩
    exact ⟨name, listOp, plain, handle, rfl, needs, there, dead, rfl⟩
  · rintro ⟨name, listOp, plain, handle, rfl, needs, there, dead, rfl⟩
    rcases mirrors.mirrored there with ⟨list, found, same⟩
    have misses := (same.represents.misses_iff handle _).mpr ⟨dead, rfl⟩
    exact ⟨name, listOp, list, handle, rfl, needs, found, misses⟩

end Store

namespace HookedList

variable {list : HookedList α} {plain : PlainList α}

def Clears (list : HookedList α) : Prop :=
  ∀ session panic after, clear ⟨list, session⟩ = .error panic after → panic.Hooked

theorem Mirrors.clear_stopped (mirrors : list.Mirrors plain) {session : Session α} {panic : Panic}
    {after : Workbench α} (ended : clear ⟨list, session⟩ = .error panic after) :
    panic.Hooked ∧ ∃ left, after.list.Mirrors left := by
  have alike := clear_simulates ⟨list, session⟩ ⟨plain, session⟩ ⟨mirrors, rfl⟩
  rcases alike.cases with ⟨_, _, b, _, run, -⟩ | ⟨raised, b, left, run, run', same⟩
  · rw [run] at ended
    cases ended
  · rw [run] at ended
    cases ended
    have hooked : panic.Hooked := PlainBench.clear_raises (fun text => ⟨text, rfl⟩) _ _ _ run'
    exact ⟨hooked, left.list, same.list⟩

theorem Mirrors.clears (mirrors : list.Mirrors plain) : list.Clears :=
  fun _ _ _ ended => (mirrors.clear_stopped ended).1

/-- A copy that a hook's panic leaves unfinished can be cleared like any list. -/
theorem fillCopy_stopped [Stored α] {memory : Memory} {hook? : Option (DupHook α)} {values : List α}
    {hooks : HookSet α} {session : Session α} {panic : Panic} {after : Workbench α}
    (ended : fillCopy memory hook? values ⟨.ofHooks hooks, session⟩ = .error panic after) :
    panic.Hooked ∧ after.list.Clears := by
  unfold fillCopy ofHooks at ended
  rw [bind_apply] at ended
  rcases reserve_ends (Chain.represents_empty (α := α)) memory values.length hooks session with
    ⟨grown, c, room, rep, run⟩ | ⟨shortage, room, run⟩
  · rw [run] at ended
    dsimp only at ended
    have enough := (Roster.proper_empty.room_of_reserve room).2
    have alike := appendCopies_alike memory hook? values rep enough hooks session
    rcases alike.cases with ⟨_, _, b, _, copied, -⟩ | ⟨raised, b, left, copied, copied', same⟩
    · rw [copied] at ended
      cases ended
    · rw [copied] at ended
      cases ended
      have hooked : panic.Hooked :=
        PlainBench.appendCopies_raises (fun text => ⟨text, rfl⟩) hook? values _ _ _ copied'
      exact ⟨hooked, same.list.clears⟩
  · rw [run] at ended
    cases ended

end HookedList

namespace Store

variable [BEq α] [Outlined α] [Stored α]

/-- A fault comes of a handle that names no node, and of nothing else; it changes nothing. Nor does
    a fault hide behind the second panic that ends everything: lists that are left behind by a panic,
    unfinished copies among them, are cleared until a hook panics. -/
theorem run_faults (ops : List (Op α)) :
    let reached := (Store.empty.run ops).2
    (∀ op cause,
      (reached.step op).1.outcome = .panicked (.fault cause) ↔ reached.Misled op cause) ∧
    (∀ op cause, reached.Misled op cause →
      reached.step op = (⟨.panicked (.fault cause), [], []⟩, reached)) ∧
    (∀ name list, reached.lists.find? name = some list → list.Clears ∧
      ∀ session panic after, HookedList.clear ⟨list, session⟩ = .error panic after →
        after.list.Clears) ∧
    ∀ memory hook? values (hooks : HookSet α) session panic after,
      HookedList.fillCopy memory hook? values ⟨.ofHooks hooks, session⟩ = .error panic after →
        panic.Hooked ∧ after.list.Clears := by
  intro reached
  have mirrors : reached.Mirrors _ := (run_agrees empty_mirrors ops).2
  have sorted := PlainStore.run_sorted (p := PlainStore.empty) .nil ops
  refine ⟨?_, ?_, ?_, ?_⟩
  · intro op cause
    rw [(step_agrees mirrors op).report, mirrors.misled_iff]
    constructor
    · exact PlainStore.misled_of_step
    · intro misled
      rw [PlainStore.step_misled sorted misled]
  · intro op cause misled
    have plain := PlainStore.step_misled sorted ((mirrors.misled_iff op cause).mp misled)
    rcases step_agrees mirrors op with ⟨report, stores⟩
    rw [plain] at report stores
    exact Prod.ext report (stores.determines mirrors)
  · intro name list found
    rcases mirrors.found found with ⟨plain, -, same⟩
    refine ⟨same.clears, ?_⟩
    intro session panic after ended
    rcases (same.clear_stopped ended).2 with ⟨left, same'⟩
    exact same'.clears
  · intro memory hook? values hooks session panic after
    exact HookedList.fillCopy_stopped

/-- Slot 0 is vacant and there is no slot 3. Which of the two is asked for decides the fault, and
    whether there is memory does not. -/
theorem run_faults_when_misled :
    let ops : List (Op Value) := [
      .create "a" { free := some (Value.Freeing.policy "free" .accept) },
      .on "a" (.insert .available .tail (.int 1)),
      .on "a" (.insert .available .head (.int 2)),
      .on "a" (.insert .available .tail (.int 3)),
      .on "a" (.delete 0)]
    let reached := (Store.empty.run ops).2
    reached.step (.on "a" (.delete 0)) =
        (⟨.panicked (.fault (.vacantSlot 0)), [], []⟩, reached) ∧
      reached.step (.on "a" (.insert .exhausted (.before 3) (.int 4))) =
        (⟨.panicked (.fault (.outOfBounds 3 3)), [], []⟩, reached) ∧
      (Panic.fault (.vacantSlot 0)).message = "invalid node handle 0" := by
  intro ops reached
  have checked : (reached.lists.find? "a").map
      (fun list => ((list.chain.node? 0).isNone, list.chain.slots.size)) = some (true, 3) := by
    decide +kernel
  rcases Option.map_eq_some_iff.mp checked with ⟨list, found, facts⟩
  simp only [Prod.mk.injEq] at facts
  rcases facts with ⟨dead, size⟩
  have vacant : ∃ below, list.chain.slots[0]? = some (.vacant below) := by
    rw [Option.isNone_iff_eq_none, Chain.node?] at dead
    have made : 0 < list.chain.slots.size := by
      rw [size]
      decide
    rw [Array.getElem?_eq_getElem made] at dead ⊢
    cases held : list.chain.slots[0] with
    | vacant below => exact ⟨below, rfl⟩
    | occupied node =>
      rw [held] at dead
      cases dead
  have unchanged := (run_faults ops).2.1
  refine ⟨?_, ?_, rfl⟩
  · exact unchanged _ _ ⟨"a", .delete 0, list, 0, rfl, rfl, found, .inl ⟨vacant, rfl⟩⟩
  · apply unchanged
    refine ⟨"a", .insert .exhausted (.before 3) (.int 4), list, 3, rfl, rfl, found, .inr ⟨?_, ?_⟩⟩
    · rw [size]
    · rw [size]

end Store

end LinkedSlots
