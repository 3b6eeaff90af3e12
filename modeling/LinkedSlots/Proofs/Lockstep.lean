import LinkedSlots.Proofs.HookState

namespace LinkedSlots

variable {α β γ : Type}

def Answer.Matches (same : Handle → Handle → Prop) : Answer α → Answer α → Prop
  | .handle handle?, .handle other? => Option.Rel same handle? other?
  | .walkedHandles answers, .walkedHandles others =>
    List.Forall₂ (WalkAnswer.Matches same) answers others
  | answer, other => answer = other

namespace ListOp

def Impersonal : ListOp α → Prop
  | .insert _ _ _ | .delete _ | .get _ | .next _ | .prev _ | .update _ _ => False
  | .setHooks _ | .setDup _ | .setFree _ | .setMatching _ => False
  | _ => True

inductive Matches (same : Handle → Handle → Prop) : ListOp α → ListOp α → Prop
  | impersonal {op : ListOp α} (impersonal : op.Impersonal) : Matches same op op
  | insert {place other : Place} (memory : Memory) (level : place.Matches same other) (value : α) :
    Matches same (.insert memory place value) (.insert memory other value)
  | delete {handle other : Handle} (level : same handle other) :
    Matches same (.delete handle) (.delete other)
  | get {handle other : Handle} (level : same handle other) : Matches same (.get handle) (.get other)
  | next {handle other : Handle} (level : same handle other) :
    Matches same (.next handle) (.next other)
  | prev {handle other : Handle} (level : same handle other) :
    Matches same (.prev handle) (.prev other)
  | update {handle other : Handle} (level : same handle other) (change : α → α) :
    Matches same (.update handle change) (.update other change)

end ListOp

namespace PlainBench

open Twin

structure Twins (known : HookSet α → Prop) (twins : List (Twin α)) (b c : PlainBench α) : Prop where
  roster : Roster.Twins twins b.list.roster c.list.roster
  hooks : b.list.hooks = c.list.hooks
  inside : known b.list.hooks
  session : Session.Twins known b.session c.session

def Twinned (known : HookSet α → Prop) (b c : PlainBench α) : Prop := ∃ twins, Twins known twins b c

variable {known : HookSet α → Prop} {twins left : List (Twin α)} {b c : PlainBench α}

theorem share_simulates {V : β → γ → Prop} {act : Act (Session α) β} {act' : Act (Session α) γ}
    (sim : Simulates V (Session.Twins known) act act') :
    Simulates V (Twins known twins) (share act) (share act') := by
  rintro ⟨list, s⟩ ⟨other, t⟩ ⟨roster, hooks, inside, session⟩
  rw [share_apply, share_apply]
  rcases (sim s t session).cases with ⟨b, c, s', t', run, run', same, after⟩ |
    ⟨e, s', t', run, run', after⟩
  · rw [run, run']
    exact ⟨same, roster, hooks, inside, after⟩
  · rw [run, run']
    exact ⟨rfl, roster, hooks, inside, after⟩

theorem share_twinned {act : Act (Session α) β} (sim : Simulates Eq (Session.Twins known) act act) :
    Simulates Eq (Twinned known) (share act) (share act) := by
  rintro b c ⟨twins, same⟩
  exact Alike.exists_iff.mpr ⟨twins, share_simulates sim b c same⟩

theorem clear_alike (same : Twins known twins b c) : Alike Eq (Twinned known) (clear b) (clear c) := by
  rcases b with ⟨list, s⟩
  rcases c with ⟨other, t⟩
  have hooks : list.hooks = other.hooks := same.hooks
  have values : list.roster.values = other.roster.values := same.roster.values
  have session : Session.Twins known s t := same.session
  rw [clear_apply, clear_apply, ← hooks, ← values]
  rcases (Session.freeAll_simulates same.inside _ s t session).cases with
    ⟨_, _, u, v, run, run', -, after⟩ | ⟨panic, u, v, run, run', after⟩
  · dsimp only at run run'
    rw [run, run']
    exact ⟨rfl, [], same.roster.reset, rfl, same.inside, after⟩
  · dsimp only at run run'
    rw [run, run']
    dsimp only
    -- The call that panics is the same one, so as many nodes are gone.
    rw [← session.calls, ← after.calls]
    exact ⟨rfl, _, same.roster.dropFront _, rfl, same.inside, after⟩

theorem clear_twinned : Simulates Eq (Twinned known) clear (clear : Act (PlainBench α) Unit) := by
  rintro b c ⟨twins, same⟩
  exact clear_alike same

/-- Both note the same number of values before they go on. -/
theorem note_twinned (entry : Nat → LogEntry) {act : Act (PlainBench α) β}
    (sim : Simulates Eq (Twinned known) act act) :
    Simulates Eq (Twinned known)
      (do share (Session.note (entry (← get).list.roster.entries.length)); act)
      (do share (Session.note (entry (← get).list.roster.entries.length)); act) := by
  apply Simulates.get.bind
  rintro b c ⟨twins, same⟩
  rw [same.roster.length]
  apply (share_twinned (Session.note_simulates _)).bind
  intro _ _ _
  exact sim

theorem release_twinned : Simulates Eq (Twinned known) release (release : Act (PlainBench α) Unit) := by
  apply note_twinned .releasing
  apply clear_twinned.tryCatch
  intro panic
  apply (clear_twinned.tryCatch fun _ => .throw .abort).bind
  intro _ _ _
  exact .throw panic

theorem search_simulates [BEq α] (key : α) :
    Simulates (Option.Rel (Names twins)) (Twins known twins) (search key) (search key) := by
  intro b c same
  unfold search
  simp only [bind_apply, get_apply]
  rw [← same.hooks, same.roster.left, same.roster.right]
  cases installed : b.list.hooks.matching with
  | none =>
    have tests (value : α) : Simulates Eq (Session.Twins known)
        (return value == key : Act (Session α) Bool) (return value == key) := .pure rfl
    exact share_simulates (Session.findEntry_simulates tests fun _ member => member) b c same
  | some hook =>
    have tests (value : α) := Session.callMatch_simulates same.inside installed value key
    exact share_simulates (Session.findEntry_simulates tests fun _ member => member) b c same

theorem searchWithHook_simulates (key : α) :
    Simulates (Option.Rel (Names twins)) (Twins known twins) (searchWithHook key)
      (searchWithHook key) := by
  intro b c same
  unfold searchWithHook
  simp only [bind_apply, get_apply]
  rw [← same.hooks, same.roster.left, same.roster.right]
  cases installed : b.list.hooks.matching with
  | none => exact ⟨.none, same⟩
  | some hook =>
    have tests (value : α) := Session.callMatch_simulates same.inside installed value key
    exact share_simulates (Session.findEntry_simulates tests fun _ member => member) b c same

end PlainBench

end LinkedSlots
