import LinkedSlots.Proofs.Bystanders
import LinkedSlots.Proofs.Discarding
import LinkedSlots.Proofs.Growth
import LinkedSlots.Proofs.HandingOver
import Mathlib

namespace LinkedSlots

variable {α : Type}

inductive Hook.Copies (hook : DupHook α) : List α → List α → List α → Prop
  | nil {earlier} : hook.Copies earlier [] []
  | cons {earlier value copied rest copies}
      (reply : hook.reply earlier value = .ok (some copied))
      (later : hook.Copies (earlier ++ [value]) rest copies) :
    hook.Copies earlier (value :: rest) (copied :: copies)

theorem Hook.Copies.length {hook : DupHook α} {earlier values copies : List α}
    (copied : hook.Copies earlier values copies) : copies.length = values.length := by
  induction copied with
  | nil => rfl
  | cons reply later ih => exact congrArg (· + 1) ih

namespace Session

def askingAll (hook : DupHook α) (s : Session α) (values : List α) : Session α :=
  values.foldl (fun s value => s.asking hook value) s

variable (hook : DupHook α) (s : Session α) (values : List α)

theorem asking_earlier (value : α) : (s.asking hook value).ledger.dups.earlier hook.id =
    s.ledger.dups.earlier hook.id ++ [value] :=
  CallBook.earlier_record _ _ _

theorem askingAll_append (last : α) :
    s.askingAll hook (values ++ [last]) = (s.askingAll hook values).asking hook last := by
  simp only [askingAll, List.foldl_append, List.foldl_cons, List.foldl_nil]

theorem askingAll_earlier : (s.askingAll hook values).ledger.dups.earlier hook.id =
    s.ledger.dups.earlier hook.id ++ values := by
  have book : s.ledger.dups.recordAll hook.id values = (s.askingAll hook values).ledger.dups :=
    List.foldl_hom (fun s : Session α => s.ledger.dups) fun _ _ => rfl
  rw [← book, CallBook.earlier_recordAll]

theorem askingAll_calls : (s.askingAll hook values).calls =
    s.calls ++ values.map (Call.dup hook.id hook.label) := by
  induction values generalizing s with
  | nil => exact (List.append_nil _).symm
  | cons value rest ih =>
    have later : (s.askingAll hook (value :: rest)).calls = _ := ih (s.asking hook value)
    rw [later, asking, List.append_assoc]
    rfl

theorem askingAll_log : (s.askingAll hook values).log = s.log := by
  induction values generalizing s with
  | nil => rfl
  | cons value rest ih => exact ih (s.asking hook value)

theorem askingAll_frees : (s.askingAll hook values).ledger.frees = s.ledger.frees := by
  induction values generalizing s with
  | nil => rfl
  | cons value rest ih => exact ih (s.asking hook value)

/-- An operation that only asks the hook reports just that. -/
theorem askingAll_report (p : PlainStore α) (outcome : Outcome α) :
    (p.session.askingAll hook values).report outcome =
      ⟨outcome, values.map (Call.dup hook.id hook.label), []⟩ := by
  rw [report, askingAll_calls, askingAll_log]
  rfl

theorem askingAll_noted (p : PlainStore α) (entry : LogEntry) (outcome : Outcome α) :
    ((p.session.askingAll hook values).noted entry).report outcome =
      ⟨outcome, values.map (Call.dup hook.id hook.label), [entry]⟩ := by
  rw [report, noted, askingAll_calls, askingAll_log]
  rfl

end Session

theorem Alike.made {run : EStateM.Result Panic (Session α) (Except ListError (HookedList α))}
    {plain : PlainList α} {t : Session α} (alike : Alike HookedList.Made Eq run (.ok (.ok plain) t)) :
    ∃ list, run = .ok (.ok list) t ∧ list.Mirrors plain := by
  rcases alike.cases with ⟨made, _, u, _, ended, ⟨⟩, same, rfl⟩ | ⟨_, _, _, _, ⟨⟩, _⟩
  rcases made with e | list
  · exact same.elim
  · exact ⟨list, ended, same⟩

/-- Each of the first values has a copy by the time the hook is asked for the next one. -/
theorem PlainBench.appendCopies_copied {hook : DupHook α} {s : Session α} {done copies : List α}
    (copied : hook.Copies (s.ledger.dups.earlier hook.id) done copies) (list : PlainList α)
    (rest : List α) :
    appendCopies (some hook) (done ++ rest) ⟨list, s⟩ = appendCopies (some hook) rest
      ⟨⟨list.roster.pushAll copies, list.hooks⟩, s.askingAll hook done⟩ := by
  generalize start : s.ledger.dups.earlier hook.id = earlier at copied
  induction copied generalizing list s with
  | nil => rfl
  | cons reply later ih =>
    subst start
    rw [List.cons_append, appendCopies_cons, reply]
    exact ih _ (Session.asking_earlier ..)

variable [Stored α]

theorem Roster.copied_values {room : Roster α} {memory : Memory} {count : Nat}
    (granted : (Roster.empty : Roster α).reserve memory count = .ok room) (copies : List α) :
    (room.pushAll copies).values = copies := by
  rw [pushAll_values, values_of_reserve granted]
  rfl

namespace PlainList

variable {list : PlainList α} {memory : Memory} {room : Roster α} {hook : DupHook α} {s : Session α}
  {done rest copies : List α} {value : α}
  (granted : (Roster.empty : Roster α).reserve memory list.roster.entries.length = .ok room)

include granted

theorem duplicateBy_copied
    (copied : hook.Copies (s.ledger.dups.earlier hook.id) list.roster.values copies) :
    list.duplicateBy memory (some hook) s =
      .ok (.ok ⟨room.pushAll copies, list.hooks⟩) (s.askingAll hook list.roster.values) := by
  have run := PlainBench.appendCopies_copied copied ⟨room, list.hooks⟩ []
  rw [List.append_nil] at run
  unfold duplicateBy
  simp only [granted, run]
  rfl

variable (values : list.roster.values = done ++ value :: rest)
  (copied : hook.Copies (s.ledger.dups.earlier hook.id) done copies)

include values copied

theorem duplicateBy_refused
    (refuses : hook.reply (s.ledger.dups.earlier hook.id ++ done) value = .ok none) :
    list.duplicateBy memory (some hook) s =
      match Session.freeAll list.hooks.free copies
          ((s.askingAll hook (done ++ [value])).noted (.dupFailed done.length)) with
      | .ok _ t => .ok (.error .duplicateFailed) t
      | .error panic t => .error panic t := by
  have made := Roster.copied_values granted copies
  have counted : (room.pushAll copies).entries.length = done.length := by
    rw [← Roster.values_length, made, copied.length]
  have run := PlainBench.appendCopies_copied copied ⟨room, list.hooks⟩ (value :: rest)
  rw [← values, PlainBench.appendCopies_cons, Session.askingAll_earlier, refuses,
    ← Session.askingAll_append] at run
  unfold duplicateBy
  simp only [granted, run, drop, made, counted, bind_apply, pure_apply]
  cases Session.freeAll list.hooks.free copies
    ((s.askingAll hook (done ++ [value])).noted (.dupFailed done.length)) <;> rfl

theorem duplicateBy_panicked {text : String}
    (panics : hook.reply (s.ledger.dups.earlier hook.id ++ done) value = .error text) :
    list.duplicateBy memory (some hook) s =
      match Session.freeAll list.hooks.free copies (s.askingAll hook (done ++ [value])) with
      | .ok _ t => .error (.hook text) t
      | .error _ t => .error .abort t := by
  have made := Roster.copied_values granted copies
  have run := PlainBench.appendCopies_copied copied ⟨room, list.hooks⟩ (value :: rest)
  rw [← values, PlainBench.appendCopies_cons, Session.askingAll_earlier, panics,
    ← Session.askingAll_append] at run
  unfold duplicateBy
  simp only [granted, run, dropUnwinding, drop, made, bind_apply, tryCatch_apply, throw_apply]
  cases Session.freeAll list.hooks.free copies (s.askingAll hook (done ++ [value])) <;> rfl

end PlainList

namespace Chain

structure Compact (c : Chain α) (values : List α) : Prop where
  shown : c.entries = .ok ((List.range values.length).zip values)
  linked : c.Linked (List.range values.length) []
  slots : c.slots.size = values.length

theorem Represents.compact {c : Chain α} {room : Roster α} {memory : Memory} {count : Nat}
    {values : List α} (granted : (Roster.empty : Roster α).reserve memory count = .ok room)
    (rep : c.Represents (room.pushAll values)) : c.Compact values := by
  have extended := represents_empty.extended (Roster.roomier_of_grow granted) rep
  have handles : nextHandles [] (empty : Chain α).slots.size values.length =
      List.range values.length := by
    simp [nextHandles, empty, List.range_eq_range']
  have shown := extended.shown
  have linked := extended.linked
  simp only [Roster.empty, handles, List.map_nil, List.nil_append, List.drop_nil] at shown linked
  refine ⟨shown, linked, ?_⟩
  have once := linked.once.length_eq
  rw [List.append_nil, List.length_range, List.length_range] at once
  exact once.symm

end Chain

namespace PlainStore

variable {p : PlainStore α} {list : PlainList α} {room : Roster α} {hook : DupHook α}
  {done rest copies : List α} {value : α} {memory : Memory}
  (granted : (Roster.empty : Roster α).reserve memory list.roster.entries.length = .ok room)
  (values : list.roster.values = done ++ value :: rest)
  (copied : hook.Copies (p.ledger.dups.earlier hook.id) done copies)

include granted values copied

theorem keep_refused (refuses : hook.reply (p.ledger.dups.earlier hook.id ++ done) value = .ok none)
    (target : String) :
    Discards p.ledger list.hooks.free copies .hook
      ⟨.returned (.failed .duplicateFailed), (done ++ [value]).map (Call.dup hook.id hook.label),
        [.dupFailed done.length]⟩
      (p.keep target (list.duplicateBy memory (some hook) p.session)).1 := by
  have asked := Session.askingAll_noted hook (done ++ [value]) p (.dupFailed done.length)
    (.returned (.failed .duplicateFailed))
  have frees : ((p.session.askingAll hook (done ++ [value])).noted
      (.dupFailed done.length)).ledger.frees = p.ledger.frees := Session.askingAll_frees ..
  rw [PlainList.duplicateBy_refused (s := p.session) granted values copied refuses, ← asked]
  exact Session.freeAll_discards frees copies (fun freed => (p.keep target (match freed with
    | .ok _ t => .ok (.error .duplicateFailed) t
    | .error panic t => .error panic t)).1) (fun _ => rfl) (fun _ _ => rfl)

theorem keep_panicked {text : String}
    (panics : hook.reply (p.ledger.dups.earlier hook.id ++ done) value = .error text)
    (target : String) :
    Discards p.ledger list.hooks.free copies (fun _ => .abort)
      ⟨.panicked (.hook text), (done ++ [value]).map (Call.dup hook.id hook.label), []⟩
      (p.keep target (list.duplicateBy memory (some hook) p.session)).1 := by
  have asked := Session.askingAll_report hook (done ++ [value]) p (.panicked (.hook text))
  have frees : (p.session.askingAll hook (done ++ [value])).ledger.frees = p.ledger.frees :=
    Session.askingAll_frees ..
  rw [PlainList.duplicateBy_panicked (s := p.session) granted values copied panics, ← asked]
  exact Session.freeAll_discards frees copies (fun freed => (p.keep target (match freed with
    | .ok _ t => .error (.hook text) t
    | .error _ t => .error .abort t)).1) (fun _ => rfl) (fun _ _ => rfl)

end PlainStore

def Op.CopiesFreely (source target : String) (op : Op α) : Prop :=
  op = .duplicate source target .available ∨ op = .duplicateWithHook source target .available

namespace Store

variable {s : Store α} {p : PlainStore α} {source : String} {list : HookedList α}
  {plain : PlainList α} [BEq α] [Outlined α]

/-- A list is copied into a compact one, with these hook calls and no others. From then on neither
    list is changed by what is done to the other one. -/
structure Duplicates (s : Store α) (source : String) (list : HookedList α) (copies : List α)
    (calls : List (Call α)) (copy : HookedList α) (t : Session α) : Prop where
  made : HookedList.duplicate .available list s.session = .ok (.ok copy) t
  compact : copy.chain.Compact copies
  hooks : copy.hooks = list.hooks
  asked : t.calls = calls
  unlogged : t.log = []
  replaces : ∀ target, s.step (.duplicate source target .available) = s.replace target copy t
  stored : ∀ target, s.lists.find? target = none →
    s.step (.duplicate source target .available) =
      (⟨.returned .done, calls, []⟩, ⟨s.lists.put target copy, t.ledger⟩)
  sourceKept : ∀ target, target ≠ source → ∀ later, (∀ op ∈ later, source ∉ op.changes) →
    ((s.step (.duplicate source target .available)).2.run later).2.lists.find? source = some list
  copyKept : ∀ target later, (∀ op ∈ later, target ∉ op.changes) →
    ((s.step (.duplicate source target .available)).2.run later).2.lists.find? target = some copy

/-- How copying a list ends at the first value that the dup hook refuses to copy, or panics at. The
    copies that there are already are dropped. -/
structure FailsToDuplicate (s : Store α) (source : String) (list : HookedList α)
    (values : List α) : Prop where
  refused : ∀ hook done value rest copies, list.hooks.dup = some hook →
    values = done ++ value :: rest → hook.Copies (s.ledger.dups.earlier hook.id) done copies →
    hook.reply (s.ledger.dups.earlier hook.id ++ done) value = .ok none →
    ∀ target op, Op.CopiesFreely source target op →
      Discards s.ledger list.hooks.free copies .hook
        ⟨.returned (.failed .duplicateFailed), (done ++ [value]).map (Call.dup hook.id hook.label),
          [.dupFailed done.length]⟩ (s.step op).1 ∧
      (s.step op).2.lists = s.lists
  panicked : ∀ hook done value rest copies text, list.hooks.dup = some hook →
    values = done ++ value :: rest → hook.Copies (s.ledger.dups.earlier hook.id) done copies →
    hook.reply (s.ledger.dups.earlier hook.id ++ done) value = .error text →
    ∀ target op, Op.CopiesFreely source target op →
      Discards s.ledger list.hooks.free copies (fun _ => .abort)
        ⟨.panicked (.hook text), (done ++ [value]).map (Call.dup hook.id hook.label), []⟩
        (s.step op).1 ∧
      (s.step op).2.lists = s.lists
  unhooked : list.hooks.dup = none → ∀ target memory,
    s.step (.duplicateWithHook source target memory) =
      (⟨.returned (.failed .duplicateFailed), [], [.noDupHook]⟩, s)

theorem Mirrors.duplicates (mirrors : s.Mirrors p) (found : s.lists.find? source = some list)
    (same : list.Mirrors plain) {room : Roster α}
    (granted : (Roster.empty : Roster α).reserve .available plain.roster.entries.length = .ok room)
    {copies : List α} {t : Session α}
    (made : plain.duplicateBy .available plain.hooks.dup p.session =
      .ok (.ok ⟨room.pushAll copies, plain.hooks⟩) t) {calls : List (Call α)} (asked : t.calls = calls)
    (unlogged : t.log = []) : ∃ copy t, s.Duplicates source list copies calls copy t := by
  have alike := HookedList.duplicate_alike same .available p.session
  unfold PlainList.duplicate at alike
  rw [made] at alike
  rcases alike.made with ⟨⟨c, _⟩, run, ⟨rep, rfl⟩⟩
  rw [← mirrors.session] at run
  have replaces (target : String) : s.step (.duplicate source target .available) =
      s.replace target ⟨c, plain.hooks⟩ t := by
    show s.duplicate source target _ = _
    unfold Store.duplicate
    rw [found]
    dsimp only
    rw [run]
    rfl
  refine ⟨⟨c, plain.hooks⟩, t, ?_⟩
  constructor
  case made => exact run
  case compact => exact rep.compact granted
  case hooks => exact same.hooks.symm
  case asked => exact asked
  case unlogged => exact unlogged
  case replaces => exact replaces
  case stored =>
    intro target absent
    rw [replaces]
    unfold Store.replace
    rw [absent, ← asked, ← unlogged]
    rfl
  case sourceKept =>
    intro target ne later apart
    rw [run_spares later apart, replaces, replace_spares (Ne.symm ne), found]
  case copyKept =>
    intro target later apart
    rw [run_spares later apart, replaces]
    unfold Store.replace
    rw [conclude_lists]
    exact s.lists.find?_put_self target _

omit [BEq α] [Outlined α] [Stored α] in
theorem duplicate_unmade (found : s.lists.find? source = some list) {target : String}
    {copy : HookedList α → Act (Session α) (Except ListError (HookedList α))}
    (fails : ¬ Makes (copy list s.session)) : (s.duplicate source target copy).2.lists = s.lists := by
  unfold Store.duplicate
  rw [found]
  dsimp only
  rcases run : copy list s.session with ⟨e | made, t⟩ | ⟨panic, t⟩
  · rfl
  · exact (fails ⟨made, t, run⟩).elim
  · rfl

/-- The two ways of copying are one where there is a dup hook. -/
theorem Mirrors.copies_ends (mirrors : s.Mirrors p) (found : s.lists.find? source = some list)
    (there : p.lists.find? source = some plain) (same : list.Mirrors plain) {hook : DupHook α}
    (installed : list.hooks.dup = some hook) {target : String} {op : Op α}
    (copies : op.CopiesFreely source target) :
    p.step op = p.keep target (plain.duplicateBy .available (some hook) p.session) ∧
      (¬ Makes (plain.duplicateBy .available (some hook) p.session) →
        (s.step op).2.lists = s.lists) := by
  rw [same.hooks] at installed
  rcases copies with rfl | rfl
  · constructor
    · rw [← installed]
      exact PlainStore.duplicate_ends there .available
    · intro fails
      apply duplicate_unmade found
      rw [(HookedList.duplicate_alike same .available s.session).makes_iff, mirrors.session]
      unfold PlainList.duplicate
      rw [installed]
      exact fails
  · constructor
    · exact PlainStore.duplicateWithHook_ends there installed .available
    · intro fails
      apply duplicate_unmade found
      rw [(HookedList.duplicateWithHook_alike same .available s.session).makes_iff, mirrors.session]
      unfold PlainList.duplicateWithHook
      rw [installed]
      exact fails

theorem Mirrors.failsToDuplicate (mirrors : s.Mirrors p) (found : s.lists.find? source = some list)
    (there : p.lists.find? source = some plain) (same : list.Mirrors plain) {room : Roster α}
    (granted : (Roster.empty : Roster α).reserve .available plain.roster.entries.length = .ok room) :
    s.FailsToDuplicate source list plain.roster.values := by
  have free : list.hooks.free = plain.hooks.free := congrArg HookSet.free same.hooks
  constructor
  case refused =>
    intro hook done value rest copies installed split copied refuses target op freely
    rcases mirrors.copies_ends found there same installed freely with ⟨step, kept⟩
    rw [mirrors.ledger] at copied refuses ⊢
    constructor
    · rw [(step_agrees mirrors op).report, step, free]
      exact PlainStore.keep_refused granted split copied refuses target
    · apply kept
      rw [PlainList.duplicateBy_refused (s := p.session) granted split copied refuses]
      cases Session.freeAll plain.hooks.free copies _ <;> nofun
  case panicked =>
    intro hook done value rest copies text installed split copied panics target op freely
    rcases mirrors.copies_ends found there same installed freely with ⟨step, kept⟩
    rw [mirrors.ledger] at copied panics ⊢
    constructor
    · rw [(step_agrees mirrors op).report, step, free]
      exact PlainStore.keep_panicked granted split copied panics target
    · apply kept
      rw [PlainList.duplicateBy_panicked (s := p.session) granted split copied panics]
      cases Session.freeAll plain.hooks.free copies _ <;> nofun
  case unhooked =>
    intro unhooked target memory
    show s.duplicate source target _ = _
    unfold Store.duplicate HookedList.duplicateWithHook
    rw [found]
    dsimp only
    rw [unhooked]
    rfl

/-- Whether a dup hook is asked for or only used where there is one makes no difference to a list
    that has one. -/
theorem duplicate_either (found : s.lists.find? source = some list) {hook : DupHook α}
    (installed : list.hooks.dup = some hook) (memory : Memory) :
    HookedList.duplicateWithHook memory list = HookedList.duplicate memory list ∧
      ∀ target, s.step (.duplicateWithHook source target memory) =
        s.step (.duplicate source target memory) := by
  have same : HookedList.duplicateWithHook memory list = HookedList.duplicate memory list := by
    unfold HookedList.duplicateWithHook HookedList.duplicate
    rw [installed]
  refine ⟨same, ?_⟩
  intro target
  show s.duplicate source target _ = s.duplicate source target _
  unfold Store.duplicate
  rw [found]
  dsimp only
  rw [same]

/-- In a run no list grows so long that its copy gets no room. -/
theorem run_copyable (ops : List (Op α))
    (found : (Store.empty.run ops).2.lists.find? source = some list) :
    ∃ plain room, (PlainStore.empty.run ops).2.lists.find? source = some plain ∧
      list.Mirrors plain ∧
      (Roster.empty : Roster α).reserve .available plain.roster.entries.length = .ok room := by
  rcases (run_agrees empty_mirrors ops).2.found found with ⟨plain, there, same⟩
  have small := empty_mirrors.run_limited nofun ops source plain there
  rcases same.represents.proper.copy_room small with ⟨room, granted⟩
  exact ⟨plain, room, there, same, granted⟩

/-- Where each value gets its copy, the copy of a list is compact and shares its hooks, however the
    slots of the list lie. -/
theorem run_duplicates (ops : List (Op α)) {source : String} {list : HookedList α}
    (found : (Store.empty.run ops).2.lists.find? source = some list) :
    let reached := (Store.empty.run ops).2
    ∃ values, list.chain.values = .ok values ∧
      (∀ hook, list.hooks.dup = some hook →
        (∀ memory, HookedList.duplicateWithHook memory list = HookedList.duplicate memory list ∧
          ∀ target, reached.step (.duplicateWithHook source target memory) =
            reached.step (.duplicate source target memory)) ∧
        ∀ copies, hook.Copies (reached.ledger.dups.earlier hook.id) values copies →
          ∃ copy t, reached.Duplicates source list copies
            (values.map (Call.dup hook.id hook.label)) copy t) ∧
      (list.hooks.dup = none → ∃ copy t, reached.Duplicates source list values [] copy t) := by
  intro reached
  have mirrors : reached.Mirrors _ := (run_agrees empty_mirrors ops).2
  rcases run_copyable ops found with ⟨plain, room, there, same, granted⟩
  refine ⟨plain.roster.values, same.represents.values, ?_, ?_⟩
  · intro hook installed
    refine ⟨duplicate_either found installed, ?_⟩
    intro copies copied
    rw [mirrors.ledger] at copied
    have made := PlainList.duplicateBy_copied (s := (PlainStore.empty.run ops).2.session) granted copied
    rw [same.hooks] at installed
    rw [← installed] at made
    exact mirrors.duplicates found same granted made (Session.askingAll_calls ..)
      (Session.askingAll_log ..)
  · intro unhooked
    rw [same.hooks] at unhooked
    have made := PlainList.duplicateBy_none .available plain (PlainStore.empty.run ops).2.session
    rw [granted, ← unhooked] at made
    exact mirrors.duplicates found same granted made rfl rfl

/-- The list has a vacant slot and does not start in the first one. Its dup hook would refuse a
    fourth value. -/
theorem run_duplicates_with_gap :
    let ops : List (Op Value) := [
      .create "a" { dup := some (Value.Copying.policy "dup" (.limit 3)),
                    free := some (Value.Freeing.policy "free" (.panicIf (.int 4))) },
      .on "a" (.insert .available .tail (.int 1)),
      .on "a" (.insert .available .tail (.int 2)),
      .on "a" (.insert .available .head (.int 3)),
      .on "a" (.insert .available .tail (.int 4)),
      .on "a" (.delete 0)]
    ∃ list copy t, (Store.empty.run ops).2.lists.find? "a" = some list ∧
      list.chain.handles.toOption = some [2, 1, 3] ∧ list.chain.slots.size = 4 ∧
      (Store.empty.run ops).2.Duplicates "a" list [.int 3, .int 2, .int 4]
        [.dup 0 "dup" (.int 3), .dup 0 "dup" (.int 2), .dup 0 "dup" (.int 4)] copy t := by
  intro ops
  have present : ((Store.empty.run ops).2.lists.find? "a").map (fun list =>
      (list.hooks.dup, list.chain.values.toOption, list.chain.handles.toOption,
        list.chain.slots.size)) =
      some (some ⟨Value.Copying.policy "dup" (.limit 3), 0⟩,
        some [.int 3, .int 2, .int 4], some [2, 1, 3], 4) := by
    cbv
  have uncalled : (Store.empty.run ops).2.ledger.dups.earlier 0 = [] := by
    cbv
  rcases Option.map_eq_some_iff.mp present with ⟨list, found, facts⟩
  simp only [Prod.mk.injEq] at facts
  rcases facts with ⟨installed, held, handles, slots⟩
  rcases run_duplicates ops found with ⟨values, shown, hooked, -⟩
  rw [shown] at held
  cases held
  have copied : Hook.Copies ⟨Value.Copying.policy "dup" (.limit 3), 0⟩
      ((Store.empty.run ops).2.ledger.dups.earlier 0) [.int 3, .int 2, .int 4]
      [.int 3, .int 2, .int 4] := by
    rw [uncalled]
    exact .cons rfl (.cons rfl (.cons rfl .nil))
  rcases (hooked _ installed).2 _ copied with ⟨copy, t, duplicates⟩
  exact ⟨list, copy, t, found, handles, slots, duplicates⟩

/-- A copy that cannot be finished gives up what it has, and no list is changed. -/
theorem run_fails_to_duplicate (ops : List (Op α)) {source : String} {list : HookedList α}
    (found : (Store.empty.run ops).2.lists.find? source = some list) :
    let reached := (Store.empty.run ops).2
    ∃ values, list.chain.values = .ok values ∧ reached.FailsToDuplicate source list values := by
  intro reached
  have mirrors : reached.Mirrors _ := (run_agrees empty_mirrors ops).2
  rcases run_copyable ops found with ⟨plain, room, there, same, granted⟩
  exact ⟨plain.roster.values, same.represents.values,
    mirrors.failsToDuplicate found there same granted⟩

/-- The third copy is refused. The free hook panics at the second value that it gets, which is a
    copy. -/
theorem run_fails_to_duplicate_twice :
    let ops : List (Op Value) := [
      .create "a" { dup := some (Value.Copying.policy "dup" (.limit 2)),
                    free := some (Value.Freeing.policy "free" (.panicAt 1)) },
      .on "a" (.insert .available .tail (.int 1)),
      .on "a" (.insert .available .tail (.int 2)),
      .on "a" (.insert .available .tail (.int 3))]
    let ended := (Store.empty.run ops).2.step (.duplicate "a" "b" .available)
    ended.1 = ⟨.panicked (.hook "free hook panicked"),
        [.dup 0 "dup" (.int 1), .dup 0 "dup" (.int 2), .dup 0 "dup" (.int 3),
          .free 1 "free" (.int 1), .free 1 "free" (.int 2)], [.dupFailed 2]⟩ ∧
      ended.2.lists = (Store.empty.run ops).2.lists := by
  intro ops
  have present : ((Store.empty.run ops).2.lists.find? "a").map (fun list =>
      (list.hooks.dup, list.hooks.free, list.chain.values.toOption)) =
      some (some ⟨Value.Copying.policy "dup" (.limit 2), 0⟩,
        some ⟨Value.Freeing.policy "free" (.panicAt 1), 1⟩,
        some [.int 1, .int 2, .int 3]) := by
    cbv
  have uncopied : (Store.empty.run ops).2.ledger.dups.earlier 0 = [] := by
    cbv
  have unfreed : (Store.empty.run ops).2.ledger.frees.earlier 1 = [] := by
    cbv
  rcases Option.map_eq_some_iff.mp present with ⟨list, found, facts⟩
  simp only [Prod.mk.injEq] at facts
  rcases facts with ⟨copying, freeing, held⟩
  rcases run_fails_to_duplicate ops found with ⟨values, shown, fails⟩
  rw [shown] at held
  cases held
  have copied : Hook.Copies ⟨Value.Copying.policy "dup" (.limit 2), 0⟩
      ((Store.empty.run ops).2.ledger.dups.earlier 0) [.int 1, .int 2] [.int 1, .int 2] := by
    rw [uncopied]
    exact .cons rfl (.cons rfl .nil)
  rcases fails.refused _ _ _ [] _ copying rfl copied (by rw [uncopied]; rfl) "b" _ (.inl rfl) with
    ⟨discards, kept⟩
  have stops := discards.stops _ [.int 1] (.int 2) [] "free hook panicked" freeing rfl
    (by rw [unfreed]; exact ⟨rfl, trivial⟩) (by rw [unfreed]; rfl)
  exact ⟨stops, kept⟩

end Store

end LinkedSlots
