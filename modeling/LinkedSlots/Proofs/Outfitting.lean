import LinkedSlots.Proofs.Bystanders
import LinkedSlots.Proofs.Keeping
import LinkedSlots.Proofs.Speaking

namespace LinkedSlots

variable {α β : Type} {known : AnyHook α → Prop}

section Kept

variable {past : List (Call α)} {hooks : HookSet α} {act : Act (Workbench α) β} {s t : Session α}

/-- What talks with its hooks only does not exchange them. -/
theorem Workbench.hooks_kept (talks : Talks known (seat hooks) act) (records : s.ledger.Records past)
    (c : Chain α) : (ending (act ⟨⟨c, hooks⟩, s⟩)).list.hooks = hooks := by
  obtain ⟨d, -, ran⟩ := talks c
  have run : act ⟨⟨c, hooks⟩, s⟩ = _ := ran s past records
  rw [run]
  obtain ⟨calls, ⟨panic | result, c'⟩, log⟩ := d.held past
  · rfl
  · rfl

theorem HookedList.duplicateBy_hooks [Stored α] {memory : Memory} {hook? : Option (DupHook α)}
    {list copy : HookedList α} (records : s.ledger.Records past)
    (made : duplicateBy memory hook? list s = .ok (.ok copy) t) : copy.hooks = list.hooks := by
  unfold duplicateBy at made
  cases shown : list.chain.values with
  | error cause =>
    rw [shown] at made
    cases made
  | ok values =>
    rw [shown] at made
    dsimp only at made
    have talks : Talks (fun _ => True) (Workbench.seat list.hooks) (fillCopy memory hook? values) :=
      fillCopy_talks (fun _ _ => trivial) memory values
    have kept := Workbench.hooks_kept talks records .empty
    rcases run : fillCopy memory hook? values ⟨ofHooks list.hooks, s⟩ with ⟨e | done, b⟩ | ⟨panic, b⟩
    · rw [run] at made
      simp only [bind_apply] at made
      cases dropped : drop b.list b.session <;> rw [dropped] at made <;> cases made
    · have filled : fillCopy memory hook? values ⟨⟨.empty, list.hooks⟩, s⟩ = .ok (.ok done) b := run
      rw [filled] at kept
      rw [run] at made
      cases made
      exact kept
    · rw [run] at made
      simp only [bind_apply] at made
      cases dropped : dropUnwinding b.list b.session <;> rw [dropped] at made <;> cases made

theorem HookedList.withRoom_hooks [Stored α] {memory : Memory} {count : Nat} {made : HookedList α}
    (records : s.ledger.Records past) (run : withRoom memory count s = .ok (.ok made) t) :
    made.hooks = {} := by
  have talks : Talks (fun _ => True) (Workbench.seat {}) (reserve (α := α) memory count) :=
    reserve_talks memory count
  have kept := Workbench.hooks_kept talks records .empty
  unfold withRoom at run
  rcases reserved : reserve memory count ⟨ofHooks {}, s⟩ with ⟨e | done, b⟩ | ⟨panic, b⟩
  · rw [reserved] at run
    cases run
  · have filled : reserve memory count ⟨⟨.empty, {}⟩, s⟩ = .ok (.ok done) b := reserved
    rw [filled] at kept
    rw [reserved] at run
    cases run
    exact kept
  · rw [reserved] at run
    cases run

/-- Both lists of a join keep their hooks, also where it fails. -/
theorem HookedList.join_hooks [Stored α] (memory : Memory) (list other : HookedList α)
    (s : Session α) :
    (ending (join memory (⟨list, s⟩, other))).1.list.hooks = list.hooks ∧
      (ending (join memory (⟨list, s⟩, other))).2.hooks = other.hooks := by
  obtain ⟨c, hooks⟩ := list
  obtain ⟨c', hooks'⟩ := other
  rcases run : Chain.join memory (c, c') with ⟨shortage | done, both⟩ | ⟨cause, both⟩ <;>
    simp only [join, bind_apply, Workbench.editBoth, run] <;>
    exact ⟨rfl, rfl⟩

end Kept

namespace Op

def Retires (name : String) : Op α → Prop
  | .walkTaking target _ => target = name
  | .release target => target = name
  | .drop target => target = name
  | _ => False

def Makes (name : String) : Op α → Prop
  | .create target _ => target = name
  | .createWithRoom target _ _ => target = name
  | .duplicate _ target _ => target = name
  | .duplicateWithHook _ target _ => target = name
  | _ => False

end Op

namespace Store

variable {s : Store α} {name : String} {op : Op α} {ended : Report α × Store α}

def fitted? (s : Store α) (name : String) : Op α → Option (HookSet α)
  | .create target policies =>
    if target = name then some (policies.fit s.ledger.enrolled).1 else none
  | .createWithRoom target _ _ => if target = name then some {} else none
  | .on target op =>
    if target = name then
      (s.hooksOf name).bind fun hooks => (op.outfit? hooks s.ledger.enrolled).map Prod.fst
    else none
  | .shareHooks target source => if target = name then s.hooksOf source else none
  | .duplicate source target _ => if target = name then s.hooksOf source else none
  | .duplicateWithHook source target _ => if target = name then s.hooksOf source else none
  | _ => none

inductive Wears (s : Store α) (op : Op α) (name : String) (ended : Report α × Store α) : Prop
  | same (kept : ended.2.hooksOf name = s.hooksOf name)
      (unfit : s.fitted? name op = none ∨ ended.1.outcome ≠ .returned .done)
  | fitted {hooks : HookSet α} (fits : s.fitted? name op = some hooks)
      (wears : ended.2.hooksOf name = some hooks)
      (worn : ended.1.outcome = .returned .done ∨
        op.Makes name ∧ ∃ panic, ended.1.outcome = .panicked panic)
  | retired (retires : op.Retires name) (gone : ended.2.hooksOf name = none)

theorem hooksOf_put (lists : Registry String (HookedList α)) (ledger : Ledger α) (name : String)
    (list : HookedList α) :
    (⟨lists.put name list, ledger⟩ : Store α).hooksOf name = some list.hooks := by
  unfold hooksOf
  rw [Registry.find?_put_self]
  rfl

/-- Another list in the place of one with the same hooks makes no difference to anyone's hooks. -/
theorem hooksOf_put_same {lists : Registry String (HookedList α)} {target : String}
    {list old : HookedList α} (found : lists.find? target = some old) (same : list.hooks = old.hooks)
    (name : String) : ((lists.put target list).find? name).map HookedList.hooks =
      (lists.find? name).map HookedList.hooks := by
  by_cases own : name = target
  · rw [own, Registry.find?_put_self, found]
    exact congrArg some same
  · rw [Registry.find?_put_of_ne _ _ own]

theorem refuse_wears : s.Wears op name s.refuse := by
  refine .same rfl (.inr ?_)
  rintro ⟨⟩

theorem replace_wears {list : HookedList α} (makes : op.Makes name)
    (fits : s.fitted? name op = some list.hooks) (session : Session α) :
    s.Wears op name (s.replace name list session) := by
  unfold replace
  refine .fitted fits ?_ ?_
  · unfold hooksOf
    rw [conclude_lists, Registry.find?_put_self]
    rfl
  · cases s.lists.find? name with
    | none => exact .inl rfl
    | some old =>
      simp only [bind_apply]
      cases HookedList.drop old session with
      | ok done t => exact .inl rfl
      | error panic t => exact .inr ⟨makes, panic, rfl⟩

theorem keep_wears {made : EStateM.Result Panic (Session α) (Except ListError (HookedList α))}
    (makes : op.Makes name)
    (fits : ∀ list t, made = .ok (.ok list) t → s.fitted? name op = some list.hooks) :
    s.Wears op name (s.keep name made) := by
  rcases made with ⟨error | list, t⟩ | ⟨panic, t⟩
  · refine .same rfl (.inr ?_)
    rintro ⟨⟩
  · exact replace_wears makes (fits list t rfl) t
  · refine .same rfl (.inr ?_)
    rintro ⟨⟩

theorem retire_wears {act : Act (Workbench α) (Answer α)} (retires : op.Retires name) :
    s.Wears op name (s.retire name act) := by
  unfold retire
  cases found : s.lists.find? name with
  | none => exact refuse_wears
  | some list =>
    refine .retired retires ?_
    unfold hooksOf
    rw [conclude_lists, Registry.find?_erase_self]
    rfl

theorem duplicate_wears {source : String}
    {copy : HookedList α → Act (Session α) (Except ListError (HookedList α))} (makes : op.Makes name)
    (fits : s.fitted? name op = s.hooksOf source)
    (copies : ∀ list made t, copy list s.session = .ok (.ok made) t → made.hooks = list.hooks) :
    s.Wears op name (s.duplicate source name copy) := by
  unfold duplicate
  cases found : s.lists.find? source with
  | none => exact refuse_wears
  | some list =>
    refine keep_wears makes fun made t run => ?_
    rw [fits, hooksOf, found, copies list made t run]
    rfl

theorem shareHooks_wears {source : String} :
    s.Wears (.shareHooks name source) name (s.shareHooks name source) := by
  unfold shareHooks pair
  split
  · exact refuse_wears
  split
  · next list other found found' =>
    have fits : s.fitted? name (.shareHooks name source) = some other.hooks := by
      simp only [fitted?, hooksOf, found', if_true]
      rfl
    exact .fitted fits (hooksOf_put _ _ _ _) (.inl rfl)
  · exact refuse_wears

theorem join_wears [Stored α] {first second : String} {memory : Memory} :
    s.Wears (.join first second memory) name (s.join memory first second) := by
  refine .same ?_ (.inl rfl)
  unfold join pair
  split
  · rfl
  next apart =>
  split
  · next list other found found' =>
    have kept := HookedList.join_hooks memory list other s.session
    have put {b : HookedList α} (same : b.hooks = list.hooks) {o : HookedList α}
        (same' : o.hooks = other.hooks) :
        (((s.lists.put first b).put second o).find? name).map HookedList.hooks = s.hooksOf name := by
      have there : (s.lists.put first b).find? second = some other :=
        (Registry.find?_put_of_ne _ _ (Ne.symm apart)).trans found'
      exact (hooksOf_put_same there same' name).trans (hooksOf_put_same found same name)
    dsimp only
    cases run : HookedList.join memory (⟨list, s.session⟩, other) with
    | ok joined both =>
      rw [run] at kept
      exact put kept.1 kept.2
    | error panic both =>
      rw [run] at kept
      exact put kept.1 kept.2
  · rfl

theorem fitted?_changes (elsewhere : name ∉ op.changes) : s.fitted? name op = none := by
  have ne {target : String} {rest : List String} (out : name ∉ target :: rest) : target ≠ name :=
    (List.ne_of_not_mem_cons out).symm
  cases op with
  | create target policies => exact if_neg (ne elsewhere)
  | createWithRoom target memory count => exact if_neg (ne elsewhere)
  | on target op => exact if_neg (ne elsewhere)
  | shareHooks target source => exact if_neg (ne elsewhere)
  | duplicate source target memory => exact if_neg (ne elsewhere)
  | duplicateWithHook source target memory => exact if_neg (ne elsewhere)
  | _ => rfl

theorem fitted?_retires (retires : op.Retires name) : s.fitted? name op = none := by
  cases op with
  | walkTaking target steps => rfl
  | release target => rfl
  | drop target => rfl
  | _ => cases retires

section Step

variable [BEq α] [Outlined α] [Stored α] {past : List (Call α)}

theorem on_wears (records : s.ledger.Records past) (op : ListOp α) :
    s.Wears (.on name op) name (s.step (.on name op)) := by
  cases found : s.lists.find? name with
  | none =>
    have refused : s.step (.on name op) = s.refuse := by simp only [step, work, found]
    rw [refused]
    exact refuse_wears
  | some list =>
    have worn := hooksOf_found found
    cases outfits : op.outfit? list.hooks s.ledger.enrolled with
    | some fit =>
      obtain ⟨fitted, count⟩ := fit
      have fits : s.fitted? name (.on name op) = some fitted := by
        simp only [fitted?, worn, if_true, Option.bind_some, outfits]
        rfl
      rw [step_installs found outfits]
      exact .fitted fits (hooksOf_put _ _ _ _) (.inl rfl)
    | none =>
      have unfit : s.fitted? name (.on name op) = none := by
        simp only [fitted?, worn, if_true, Option.bind_some, outfits]
        rfl
      refine .same ?_ (.inl unfit)
      have talks : Talks (fun _ => True) (Workbench.seat list.hooks) (Workbench.perform op) :=
        Workbench.perform_talks (fun _ _ => trivial) fun _ => ListOp.outfit?_none outfits _ _
      have kept : (ending (Workbench.perform op ⟨list, s.session⟩)).list.hooks = list.hooks :=
        Workbench.hooks_kept talks records list.chain
      simp only [step, work, found]
      cases run : Workbench.perform op ⟨list, s.session⟩ with
      | ok answer b =>
        rw [run] at kept
        exact hooksOf_put_same found kept name
      | error panic b =>
        rw [run] at kept
        exact hooksOf_put_same found kept name

theorem step_wears (records : s.ledger.Records past) (op : Op α) (name : String) :
    s.Wears op name (s.step op) := by
  by_cases changes : name ∈ op.changes
  · cases op with
    | create target policies =>
      cases List.mem_singleton.mp changes
      have fits : s.fitted? name (.create name policies) = some (policies.fit s.ledger.enrolled).1 :=
        if_pos rfl
      have makes : (Op.create name policies).Makes name := rfl
      simp only [step, Ledger.enrollAll_eq]
      exact replace_wears makes fits _
    | createWithRoom target memory count =>
      cases List.mem_singleton.mp changes
      refine keep_wears rfl fun list t made => ?_
      rw [HookedList.withRoom_hooks records made]
      exact if_pos rfl
    | on target op =>
      cases List.mem_singleton.mp changes
      exact on_wears records op
    | shareHooks target source =>
      cases List.mem_singleton.mp changes
      exact shareHooks_wears
    | join first second memory => exact join_wears
    | duplicate source target memory =>
      cases List.mem_singleton.mp changes
      exact duplicate_wears rfl (if_pos rfl) fun list made t run =>
        HookedList.duplicateBy_hooks records run
    | duplicateWithHook source target memory =>
      cases List.mem_singleton.mp changes
      refine duplicate_wears rfl (if_pos rfl) fun list made t run => ?_
      unfold HookedList.duplicateWithHook at run
      cases installed : list.hooks.dup with
      | none =>
        rw [installed] at run
        cases run
      | some hook =>
        rw [installed] at run
        exact HookedList.duplicateBy_hooks records run
    | walkTaking target steps =>
      cases List.mem_singleton.mp changes
      exact retire_wears rfl
    | release target =>
      cases List.mem_singleton.mp changes
      exact retire_wears rfl
    | drop target =>
      cases List.mem_singleton.mp changes
      exact retire_wears rfl
  · refine .same ?_ (.inl (fitted?_changes changes))
    unfold hooksOf
    rw [step_spares op changes]

/-- What an operation does to the hooks of lists. A panic can come as late as the end of a list whose
    name a new one has got. -/
structure Outfits (s : Store α) (op : Op α) : Prop where
  kept : ∀ name, ¬ op.Retires name → s.fitted? name op = none →
    (s.step op).2.hooksOf name = s.hooksOf name
  fitted : ∀ name hooks, s.fitted? name op = some hooks → (s.step op).1.outcome = .returned .done →
    (s.step op).2.hooksOf name = some hooks
  failed : ∀ name, ¬ op.Retires name → (s.step op).1.outcome ≠ .returned .done →
    (∀ panic, (s.step op).1.outcome ≠ .panicked panic) → (s.step op).2.hooksOf name = s.hooksOf name
  cut : ∀ name panic, ¬ op.Retires name → (s.step op).1.outcome = .panicked panic →
    (s.step op).2.hooksOf name = s.hooksOf name ∨
      op.Makes name ∧ (s.step op).2.hooksOf name = s.fitted? name op
  installs : ∀ name change list hooks count, op = .on name change →
    s.lists.find? name = some list → change.outfit? list.hooks s.ledger.enrolled = some (hooks, count) →
    s.step op = (⟨.returned .done, [], []⟩,
      ⟨s.lists.put name ⟨list.chain, hooks⟩, { s.ledger with enrolled := count }⟩)

theorem step_fits_out (records : s.ledger.Records past) (op : Op α) : s.Outfits op where
  kept name stays unfit := by
    cases step_wears records op name with
    | same kept => exact kept
    | fitted fits => cases unfit.symm.trans fits
    | retired retires => exact (stays retires).elim
  fitted name hooks fits ended := by
    cases step_wears records op name with
    | same kept unfit =>
      rcases unfit with unfit | other
      · cases unfit.symm.trans fits
      · exact (other ended).elim
    | fitted fits' wears => exact wears.trans (fits'.symm.trans fits)
    | retired retires => cases (fitted?_retires retires).symm.trans fits
  failed name stays other ended := by
    cases step_wears records op name with
    | same kept => exact kept
    | fitted fits wears worn =>
      rcases worn with done | ⟨-, panic, cut⟩
      · exact (other done).elim
      · exact (ended panic cut).elim
    | retired retires => exact (stays retires).elim
  cut name panic stays ended := by
    cases step_wears records op name with
    | same kept => exact .inl kept
    | fitted fits wears worn =>
      rcases worn with done | ⟨makes, -⟩
      · cases ended.symm.trans done
      · exact .inr ⟨makes, wears.trans fits.symm⟩
    | retired retires => exact (stays retires).elim
  installs name change list hooks count same found outfits := by
    rw [same]
    exact step_installs found outfits

end Step

end Store

end LinkedSlots
