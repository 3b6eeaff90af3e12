import LinkedSlots.Proofs.Conversing

namespace LinkedSlots

variable {α β : Type} {known : AnyHook α → Prop}

namespace Ledger

def told (enrolled : Nat) (past : List (Call α)) : Ledger α :=
  { empty.recordAll past with enrolled := enrolled }

theorem told_records (enrolled : Nat) (past : List (Call α)) : (told enrolled past).Records past := by
  have records := (records_empty.recordAll past).enrolled enrolled
  rwa [List.nil_append] at records

theorem told_recordAll (enrolled : Nat) (past calls : List (Call α)) :
    (told enrolled past).recordAll calls = told enrolled (past ++ calls) := by
  have whole : (empty : Ledger α).recordAll (past ++ calls) = (empty.recordAll past).recordAll calls :=
    List.foldl_append
  unfold told
  rw [whole]
  exact recordAll_enrolled (empty.recordAll past) enrolled calls

end Ledger

def ListOp.policies : ListOp α → PolicySet α
  | .setHooks policies => policies
  | .setDup policy => { dup := some policy }
  | .setFree policy => { free := some policy }
  | .setMatching policy => { matching := some policy }
  | _ => {}

def Op.policies : Op α → PolicySet α
  | .create _ policies => policies
  | .on _ op => op.policies
  | _ => {}

def Op.serves : Op α → List String
  | .create name _ => [name]
  | .createWithRoom name _ _ => [name]
  | .on name _ => [name]
  | .shareHooks _ _ => []
  | .join _ _ _ => []
  | .duplicate source name _ => [source, name]
  | .duplicateWithHook source name _ => [source, name]
  | .walkTaking name _ => [name]
  | .release name => [name]
  | .drop name => [name]

namespace ListOp

variable {hooks fitted : HookSet α} {enrolled count : Nat} {op : ListOp α} {hook : AnyHook α}

theorem count_of_outfit? (outfits : op.outfit? hooks enrolled = some (fitted, count)) :
    (op.policies.fit enrolled).2 = count := by
  cases op with
  | setHooks policies => exact congrArg Prod.snd (Option.some.inj outfits)
  | setDup policy => exact congrArg Prod.snd (Option.some.inj outfits)
  | setFree policy => exact congrArg Prod.snd (Option.some.inj outfits)
  | setMatching policy => exact congrArg Prod.snd (Option.some.inj outfits)
  | _ => cases outfits

/-- Installed hooks are new ones, and those of other kinds stay. -/
theorem outfit?_holds (outfits : op.outfit? hooks enrolled = some (fitted, count))
    (holds : fitted.Holds hook) : hooks.Holds hook ∨ (op.policies.fit enrolled).1.Holds hook := by
  cases op with
  | setHooks policies =>
    have fit : policies.fit enrolled = (fitted, count) := Option.some.inj outfits
    rw [ListOp.policies, fit]
    exact .inr holds
  | setDup policy =>
    cases outfits
    cases hook with
    | dup hook => exact .inr holds
    | _ => exact .inl holds
  | setFree policy =>
    cases outfits
    cases hook with
    | free hook => exact .inr holds
    | _ => exact .inl holds
  | setMatching policy =>
    cases outfits
    cases hook with
    | matching hook => exact .inr holds
    | _ => exact .inl holds
  | _ => cases outfits

/-- Whether an operation installs hooks does not depend on those that are there. -/
theorem outfit?_none (keeps : op.outfit? hooks enrolled = none) (later : HookSet α) (more : Nat) :
    op.outfit? later more = none := by
  cases op with
  | setHooks policies => cases keeps
  | setDup policy => cases keeps
  | setFree policy => cases keeps
  | setMatching policy => cases keeps
  | _ => rfl

theorem fit_of_outfit? (keeps : op.outfit? hooks enrolled = none) :
    op.policies.fit enrolled = ({}, enrolled) := by
  cases op with
  | setHooks policies => cases keeps
  | setDup policy => cases keeps
  | setFree policy => cases keeps
  | setMatching policy => cases keeps
  | _ => rfl

end ListOp

namespace Store

variable {s : Store α} {known : AnyHook α → Prop} {name : String}

def hooksOf (s : Store α) (name : String) : Option (HookSet α) :=
  (s.lists.find? name).map HookedList.hooks

def Installs (s : Store α) (hook : AnyHook α) : Prop :=
  ∃ name hooks, s.hooksOf name = some hooks ∧ hooks.Holds hook

def Serves (s : Store α) (op : Op α) (hook : AnyHook α) : Prop :=
  ∃ name ∈ op.serves, ∃ hooks, s.hooksOf name = some hooks ∧ hooks.Holds hook

theorem hooksOf_found {list : HookedList α} (found : s.lists.find? name = some list) :
    s.hooksOf name = some list.hooks := by
  unfold hooksOf
  rw [found]
  rfl

theorem Serves.of_found {op : Op α} {list : HookedList α} (member : name ∈ op.serves)
    (found : s.lists.find? name = some list) (hook : AnyHook α) (holds : list.hooks.Holds hook) :
    s.Serves op hook :=
  ⟨name, member, list.hooks, hooksOf_found found, holds⟩

def enrolledBy (s : Store α) (op : Op α) : Nat :=
  match op with
  | .on name op =>
    match s.lists.find? name with
    | none => s.ledger.enrolled
    | some _ => (op.policies.fit s.ledger.enrolled).2
  | op => (op.policies.fit s.ledger.enrolled).2

def parted : Outcome α × Registry String (HookedList α) → Session α → Report α × Store α :=
  fun (outcome, lists) t => (⟨outcome, t.calls, t.log⟩, ⟨lists, t.ledger⟩)

theorem conclude_converses (lists : Registry String (HookedList α)) {act : Act (Session α) (Answer α)}
    (talks : Talks known Session.alone act) :
    Converses known parted fun session => conclude lists (act session) := by
  have whole : Converses known parted fun session => conclude lists (act (Session.alone () session)) := by
    apply (talks ()).follow
    rintro ⟨panic | answer, _⟩
    · exact .still (.panicked panic, lists) fun _ => rfl
    · exact .still (.returned answer, lists) fun _ => rfl
  exact whole

section Among

variable (among : ∀ list, s.lists.find? name = some list →
  ∀ hook, list.hooks.Holds hook → known hook)

include among

theorem replace_converses (list : HookedList α) :
    Converses known parted fun session => s.replace name list session := by
  unfold replace
  cases found : s.lists.find? name with
  | none => exact .still (.returned .done, s.lists.put name list) fun _ => rfl
  | some old =>
    have dropped : Talks known Session.alone (do HookedList.drop old; return .done : Act _ (Answer α)) :=
      (HookedList.drop_talks (among old found) old.chain).bind fun _ => .pure _
    exact conclude_converses _ dropped

theorem keep_converses {act : Act (Session α) (Except ListError (HookedList α))}
    (talks : Talks known Session.alone act) :
    Converses known parted fun session => s.keep name (act session) := by
  have whole : Converses known parted fun session => s.keep name (act (Session.alone () session)) := by
    apply (talks ()).follow
    rintro ⟨panic | error | list, _⟩
    · exact .still (.panicked panic, s.lists) fun _ => rfl
    · exact .still (.returned (.failed error), s.lists) fun _ => rfl
    · exact replace_converses among list
  exact whole

end Among

theorem work_converses (s : Store α) (name : String) {list : HookedList α}
    {act : Act (Workbench α) (Answer α)} (talks : Talks known (Workbench.seat list.hooks) act) :
    Converses known parted fun session =>
      match act ⟨list, session⟩ with
      | .ok answer b => conclude (s.lists.put name b.list) (.ok answer b.session)
      | .error panic b => conclude (s.lists.put name b.list) (.error panic b.session) := by
  let go : EStateM.Result Panic (Workbench α) (Answer α) → Report α × Store α
    | .ok answer b => conclude (s.lists.put name b.list) (.ok answer b.session)
    | .error panic b => conclude (s.lists.put name b.list) (.error panic b.session)
  have whole : Converses known parted fun session =>
      go (act (Workbench.seat list.hooks list.chain session)) := by
    apply (talks list.chain).follow
    rintro ⟨panic | answer, c⟩
    · exact .still (.panicked panic, s.lists.put name ⟨c, list.hooks⟩) fun _ => rfl
    · exact .still (.returned answer, s.lists.put name ⟨c, list.hooks⟩) fun _ => rfl
  exact whole

theorem join_converses [Stored α] (list other : HookedList α) (source : String) (memory : Memory) :
    Converses known parted fun session =>
      match HookedList.join memory (⟨list, session⟩, other) with
      | .ok joined (b, other) =>
        conclude ((s.lists.put name b.list).put source other) (.ok (.ofReserve joined) b.session)
      | .error panic (b, other) =>
        conclude ((s.lists.put name b.list).put source other) (.error panic b.session) := by
  obtain ⟨c, hooks⟩ := list
  obtain ⟨c', hooks'⟩ := other
  let lists (c c' : Chain α) := (s.lists.put name ⟨c, hooks⟩).put source ⟨c', hooks'⟩
  cases run : Chain.join memory (c, c') with
  | ok joined both =>
    cases joined with
    | ok done =>
      apply Converses.still (.returned .done, lists both.1 both.2)
      intro session
      simp only [HookedList.join, bind_apply, Workbench.editBoth, run]
      rfl
    | error shortage =>
      apply Converses.silent (.returned (.failed (.ofShortage shortage)), lists both.1 both.2)
        [.allocationFailed shortage]
      intro session
      rw [Session.after_noted]
      simp only [HookedList.join, bind_apply, Workbench.editBoth, run]
      rfl
  | error cause both =>
    apply Converses.still (.panicked (.fault cause), lists both.1 both.2)
    intro session
    simp only [HookedList.join, bind_apply, Workbench.editBoth, run]
    rfl

section Speaks

variable [BEq α] [Outlined α] [Stored α] {op : Op α}

/-- The next operation asks only hooks of the lists that it serves, and a hook replies to what it has
    been asked before, by whichever list. With other calls in the past, the same questions decide
    everything by their replies. -/
def Speaks (s : Store α) (op : Op α) : Prop :=
  ∃ d : Dialogue α ((Outcome α × Registry String (HookedList α)) × List LogEntry),
    d.Asks (s.Serves op) ∧
    ∀ past, (⟨s.lists, .told s.ledger.enrolled past⟩ : Store α).step op =
      let (calls, (outcome, lists), log) := d.held past
      (⟨outcome, calls, log⟩, ⟨lists, .told (s.enrolledBy op) (past ++ calls)⟩)

theorem Speaks.of {whole : Session α → Report α × Store α}
    (converses : Converses (s.Serves op) parted whole)
    (same : ∀ past, (⟨s.lists, .told s.ledger.enrolled past⟩ : Store α).step op =
      whole { ledger := .told (s.enrolledBy op) past }) : s.Speaks op := by
  obtain ⟨d, asks, ran⟩ := converses
  refine ⟨d, asks, fun past => ?_⟩
  rw [same, ran _ past (Ledger.told_records _ past)]
  obtain ⟨calls, ⟨outcome, lists⟩, log⟩ := d.held past
  unfold parted Session.after
  dsimp only
  rw [Ledger.told_recordAll, List.nil_append, List.nil_append]

/-- Nothing is asked where a name has no list. -/
theorem Speaks.refused (enrolled : s.enrolledBy op = s.ledger.enrolled)
    (refuses : ∀ ledger, (⟨s.lists, ledger⟩ : Store α).step op = refuse ⟨s.lists, ledger⟩) :
    s.Speaks op := by
  refine ⟨.ends ((.noList, s.lists), []), trivial, fun past => ?_⟩
  simp only [refuses, refuse, Dialogue.held, List.append_nil, enrolled]

/-- Installing hooks changes no more than what the list will call. -/
theorem step_installs {op : ListOp α} {list : HookedList α} {fitted : HookSet α} {count : Nat}
    (found : s.lists.find? name = some list)
    (outfits : op.outfit? list.hooks s.ledger.enrolled = some (fitted, count)) :
    s.step (.on name op) = (⟨.returned .done, [], []⟩,
      ⟨s.lists.put name ⟨list.chain, fitted⟩, { s.ledger with enrolled := count }⟩) := by
  have performed : Workbench.perform op ⟨list, s.session⟩ =
      .ok .done ⟨⟨list.chain, fitted⟩, { s.session with ledger.enrolled := count }⟩ :=
    Workbench.perform_outfits outfits
  simp only [step, work, found, performed]
  rfl

theorem on_speaks (op : ListOp α) : s.Speaks (.on name op) := by
  cases found : s.lists.find? name with
  | none =>
    have enrolled : s.enrolledBy (.on name op) = s.ledger.enrolled := by
      simp only [enrolledBy, found]
    refine .refused enrolled fun ledger => ?_
    simp only [step, work, found]
  | some list =>
    have made : s.enrolledBy (.on name op) = (op.policies.fit s.ledger.enrolled).2 := by
      simp only [enrolledBy, found]
    have among : ∀ hook, list.hooks.Holds hook → s.Serves (.on name op) hook :=
      .of_found List.mem_cons_self found
    cases outfits : op.outfit? list.hooks s.ledger.enrolled with
    | none =>
      refine .of (work_converses s name (Workbench.perform_talks among fun _ =>
        ListOp.outfit?_none outfits _ _)) fun past => ?_
      rw [made, ListOp.fit_of_outfit? outfits]
      simp only [step, work, found]
      rfl
    | some fit =>
      obtain ⟨fitted, count⟩ := fit
      have installed : Converses (s.Serves (.on name op)) parted fun session =>
          conclude (s.lists.put name ⟨list.chain, fitted⟩) (.ok .done session) :=
        .still (.returned .done, s.lists.put name ⟨list.chain, fitted⟩) fun _ => rfl
      refine .of installed fun past => ?_
      rw [made, ListOp.count_of_outfit? outfits]
      exact step_installs (s := ⟨s.lists, .told s.ledger.enrolled past⟩) found outfits

theorem duplicate_speaks {op : Op α} {source : String}
    {copy : HookedList α → Act (Session α) (Except ListError (HookedList α))}
    (copies : ∀ s : Store α, s.step op = s.duplicate source name copy)
    (enrolled : s.enrolledBy op = s.ledger.enrolled) (serves : op.serves = [source, name])
    (talks : ∀ list, (∀ hook, list.hooks.Holds hook → s.Serves op hook) →
      Talks (s.Serves op) Session.alone (copy list)) : s.Speaks op := by
  cases found : s.lists.find? source with
  | none =>
    refine .refused enrolled fun ledger => ?_
    rw [copies]
    simp only [duplicate, found]
  | some list =>
    have own : source ∈ op.serves := serves ▸ List.mem_cons_self
    have other : name ∈ op.serves := serves ▸ List.mem_cons_of_mem _ List.mem_cons_self
    have copied := talks list (.of_found own found)
    refine .of (keep_converses (fun _ found => .of_found other found) copied) fun past => ?_
    rw [copies, enrolled]
    simp only [duplicate, found]
    rfl

theorem retire_speaks {op : Op α} {act : Act (Workbench α) (Answer α)}
    (retires : ∀ s : Store α, s.step op = s.retire name act)
    (enrolled : s.enrolledBy op = s.ledger.enrolled) (serves : op.serves = [name])
    (talks : ∀ list : HookedList α, (∀ hook, list.hooks.Holds hook → s.Serves op hook) →
      Talks (s.Serves op) (Workbench.seat list.hooks) act) : s.Speaks op := by
  cases found : s.lists.find? name with
  | none =>
    refine .refused enrolled fun ledger => ?_
    rw [retires]
    simp only [retire, found]
  | some list =>
    have own : name ∈ op.serves := serves ▸ List.mem_cons_self
    have consumed := Workbench.consume_talks list.chain (talks list (.of_found own found))
    refine .of (conclude_converses (s.lists.erase name) consumed) fun past => ?_
    rw [retires, enrolled]
    simp only [retire, found]
    rfl

theorem pair_speaks {op : Op α} {source : String}
    {act : Store α → HookedList α → HookedList α → Report α × Store α}
    {whole : HookedList α → HookedList α → Session α → Report α × Store α}
    (pairs : ∀ s : Store α, s.step op = s.pair name source (act s))
    (enrolled : s.enrolledBy op = s.ledger.enrolled)
    (converses : ∀ list other, Converses (s.Serves op) parted (whole list other))
    (same : ∀ ledger list other,
      act ⟨s.lists, ledger⟩ list other = whole list other { ledger := ledger }) : s.Speaks op := by
  by_cases alone : name = source
  · refine .refused enrolled fun ledger => ?_
    rw [pairs, pair, if_pos alone]
  cases found : s.lists.find? name with
  | none =>
    refine .refused enrolled fun ledger => ?_
    simp only [pairs, pair, if_neg alone, found]
  | some list =>
    cases found' : s.lists.find? source with
    | none =>
      refine .refused enrolled fun ledger => ?_
      simp only [pairs, pair, if_neg alone, found, found']
    | some other =>
      refine .of (converses list other) fun past => ?_
      simp only [pairs, pair, if_neg alone, found, found', same, enrolled]

theorem step_speaks (op : Op α) : s.Speaks op := by
  cases op with
  | create name policies =>
    refine .of (replace_converses (fun _ found => .of_found List.mem_cons_self found)
      (.ofHooks (policies.fit s.ledger.enrolled).1)) fun past => ?_
    simp only [step, Ledger.enrollAll_eq]
    rfl
  | createWithRoom name memory count =>
    exact .of (keep_converses (fun _ found => .of_found List.mem_cons_self found)
      (HookedList.withRoom_talks memory count)) fun _ => rfl
  | on name op => exact on_speaks op
  | shareHooks name source =>
    let whole (list other : HookedList α) (session : Session α) : Report α × Store α :=
      conclude (s.lists.put name (list.shareHooks other)) (.ok .done session)
    have converses (list other) :
        Converses (s.Serves (.shareHooks name source)) parted (whole list other) :=
      .still (.returned .done, s.lists.put name (list.shareHooks other)) fun _ => rfl
    exact pair_speaks (fun _ => rfl) rfl converses fun _ _ _ => rfl
  | join name source memory =>
    exact pair_speaks (fun _ => rfl) rfl (join_converses · · source memory) fun _ _ _ => rfl
  | duplicate source name memory =>
    refine duplicate_speaks (fun _ => rfl) rfl rfl fun list among => ?_
    exact HookedList.duplicate_talks among memory list.chain
  | duplicateWithHook source name memory =>
    refine duplicate_speaks (fun _ => rfl) rfl rfl fun list among => ?_
    exact HookedList.duplicateWithHook_talks among memory list.chain
  | walkTaking name steps =>
    refine retire_speaks (fun _ => rfl) rfl rfl fun list among => ?_
    exact Workbench.map_talks (HookedList.walkTaking_talks among steps) _
  | release name =>
    refine retire_speaks (fun _ => rfl) rfl rfl fun list among => ?_
    exact Workbench.done_talks (HookedList.release_talks among) _
  | drop name =>
    refine retire_speaks (fun _ => rfl) rfl rfl fun list among => ?_
    exact Workbench.done_talks (HookedList.clear_talks among) _

end Speaks

end Store

end LinkedSlots
