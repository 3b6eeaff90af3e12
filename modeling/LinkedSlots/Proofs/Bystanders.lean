import LinkedSlots.Store.Step

namespace LinkedSlots

variable {α : Type}

/-- The names whose lists an operation can change. A list that is copied or shares its hooks is only
    looked at. -/
def Op.changes : Op α → List String
  | .create name _ => [name]
  | .createWithRoom name _ _ => [name]
  | .on name _ => [name]
  | .shareHooks name _ => [name]
  | .join name source _ => [name, source]
  | .duplicate _ name _ => [name]
  | .duplicateWithHook _ name _ => [name]
  | .walkTaking name _ => [name]
  | .release name => [name]
  | .drop name => [name]

namespace Store

variable {s : Store α} {name other : String}

theorem conclude_lists (lists : Registry String (HookedList α))
    (ended : EStateM.Result Panic (Session α) (Answer α)) : (conclude lists ended).2.lists = lists := by
  cases ended <;> rfl

section Apart

variable (apart : other ≠ name)

include apart

theorem replace_spares (list : HookedList α) (session : Session α) :
    (s.replace name list session).2.lists.find? other = s.lists.find? other := by
  unfold replace
  rw [conclude_lists]
  exact s.lists.find?_put_of_ne list apart

theorem keep_spares (made : EStateM.Result Panic (Session α) (Except ListError (HookedList α))) :
    (s.keep name made).2.lists.find? other = s.lists.find? other := by
  rcases made with ⟨_ | list, session⟩ | ⟨panic, session⟩
  · rfl
  · exact replace_spares apart list session
  · rfl

theorem duplicate_spares (source : String)
    (copy : HookedList α → Act (Session α) (Except ListError (HookedList α))) :
    (s.duplicate source name copy).2.lists.find? other = s.lists.find? other := by
  unfold duplicate
  cases s.lists.find? source with
  | none => rfl
  | some list => exact keep_spares apart _

theorem work_spares (act : Act (Workbench α) (Answer α)) :
    (s.work name act).2.lists.find? other = s.lists.find? other := by
  unfold work
  cases s.lists.find? name with
  | none => rfl
  | some list =>
    dsimp only
    cases act ⟨list, s.session⟩ with
    | ok answer b => exact s.lists.find?_put_of_ne _ apart
    | error panic b => exact s.lists.find?_put_of_ne _ apart

theorem retire_spares (act : Act (Workbench α) (Answer α)) :
    (s.retire name act).2.lists.find? other = s.lists.find? other := by
  unfold retire
  cases s.lists.find? name with
  | none => rfl
  | some list =>
    dsimp only
    rw [conclude_lists]
    exact s.lists.find?_erase_of_ne apart

end Apart

theorem pair_spares {source : String} {act : HookedList α → HookedList α → Report α × Store α}
    (spares : ∀ list second, (act list second).2.lists.find? other = s.lists.find? other) :
    (s.pair name source act).2.lists.find? other = s.lists.find? other := by
  unfold pair
  split
  · rfl
  · split
    · exact spares _ _
    · rfl

theorem join_spares [Stored α] {source : String} (apart : other ≠ name) (apart' : other ≠ source)
    (memory : Memory) : (s.join memory name source).2.lists.find? other = s.lists.find? other := by
  have put (first second : HookedList α) :
      ((s.lists.put name first).put source second).find? other = s.lists.find? other :=
    (Registry.find?_put_of_ne _ second apart').trans (s.lists.find?_put_of_ne first apart)
  apply pair_spares
  intro list second
  cases HookedList.join memory (⟨list, s.session⟩, second) with
  | ok joined both => exact put _ _
  | error panic both => exact put _ _

variable [BEq α] [Outlined α] [Stored α]

theorem step_spares (op : Op α) (apart : other ∉ op.changes) :
    (s.step op).2.lists.find? other = s.lists.find? other := by
  cases op with
  | create name policies => exact replace_spares (List.ne_of_not_mem_cons apart) _ _
  | createWithRoom name memory count => exact keep_spares (List.ne_of_not_mem_cons apart) _
  | on name op => exact work_spares (List.ne_of_not_mem_cons apart) _
  | shareHooks name source =>
    apply pair_spares
    intro list second
    exact s.lists.find?_put_of_ne _ (List.ne_of_not_mem_cons apart)
  | join name source memory =>
    have second := List.not_mem_of_not_mem_cons apart
    exact join_spares (List.ne_of_not_mem_cons apart) (List.ne_of_not_mem_cons second) memory
  | duplicate source name memory => exact duplicate_spares (List.ne_of_not_mem_cons apart) _ _
  | duplicateWithHook source name memory => exact duplicate_spares (List.ne_of_not_mem_cons apart) _ _
  | walkTaking name steps => exact retire_spares (List.ne_of_not_mem_cons apart) _
  | release name => exact retire_spares (List.ne_of_not_mem_cons apart) _
  | drop name => exact retire_spares (List.ne_of_not_mem_cons apart) _

/-- No list is changed behind its back, not even where others share its hooks. -/
theorem run_spares (ops : List (Op α)) (apart : ∀ op ∈ ops, other ∉ op.changes) :
    (s.run ops).2.lists.find? other = s.lists.find? other := by
  induction ops generalizing s with
  | nil => rfl
  | cons op ops ih =>
    have later := ih (s := (s.step op).2) fun next member => apart next (List.mem_cons_of_mem _ member)
    exact later.trans (step_spares op (apart op List.mem_cons_self))

end Store

end LinkedSlots
