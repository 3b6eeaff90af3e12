import LinkedSlots.HookedList.Duplicate
import LinkedSlots.HookedList.Join
import LinkedSlots.Proofs.Keeping
import LinkedSlots.Store.Perform

namespace LinkedSlots

variable {α β γ σ : Type}

namespace LogEntry

def error? : LogEntry → Option ListError
  | .emptying _ => none
  | .releasing _ => none
  | .allocationFailed _ => some .outOfMemory
  | .noDupHook => some .duplicateFailed
  | .dupFailed _ => some .duplicateFailed

def OfShortage : LogEntry → Prop
  | .allocationFailed _ => True
  | _ => False

def OfCopying : LogEntry → Prop
  | .allocationFailed _ => True
  | .dupFailed _ => True
  | _ => False

def level (entry : LogEntry) : String := if entry.error?.isSome then "DEBUG" else "TRACE"

theorem line_level (entry : LogEntry) : ∃ text, entry.line = entry.level ++ " " ++ text := by
  have join {line level : String} (text rest : String) (start : line = level ++ " " ++ text) :
      line ++ rest = level ++ " " ++ (text ++ rest) := by
    rw [start, String.append_assoc]
  cases entry with
  | emptying count =>
    exact ⟨_, join _ " nodes" (join "emptying list of " (toString count) rfl)⟩
  | releasing count =>
    exact ⟨_, join _ " nodes" (join "releasing list of " (toString count) rfl)⟩
  | allocationFailed shortage => exact ⟨_, join "list allocation failed: " shortage.message rfl⟩
  | noDupHook => exact ⟨"dup_with_hook called without a dup hook", rfl⟩
  | dupFailed copied =>
    exact ⟨_, join _ " nodes" (join "dup hook failed after copying " (toString copied) rfl)⟩

end LogEntry

def errorOf : Except ListError β → Option ListError
  | .ok _ => none
  | .error e => some e

def insertErrorOf (placed : Except (InsertError α) β) : Option ListError :=
  errorOf (placed.mapError InsertError.toListError)

structure Tells (kind : LogEntry → Prop) (error? : Option ListError) (entries : List LogEntry) :
    Prop where
  errors : entries.map LogEntry.error? = error?.toList.map some
  kinds : ∀ entry ∈ entries, kind entry

namespace Tells

variable {kind : LogEntry → Prop} {told : Option ListError} {e : ListError} {entries : List LogEntry}

theorem nothing : Tells kind none [] := ⟨rfl, fun _ member => (List.not_mem_nil member).elim⟩

theorem entry {entry : LogEntry} (error : entry.error? = some e) (allowed : kind entry) :
    Tells kind (some e) [entry] :=
  ⟨congrArg ([·]) error, fun _ member => List.mem_singleton.mp member ▸ allowed⟩

theorem silent (tells : Tells kind none entries) : entries = [] := List.map_eq_nil_iff.mp tells.errors

theorem once (tells : Tells kind (some e) entries) : ∃ entry, entries = [entry] ∧ entry.error? = some e :=
  List.map_eq_singleton_iff.mp tells.errors

theorem error {entry : LogEntry} (tells : Tells kind told [entry]) : told = entry.error? := by
  have errors : [entry.error?] = told.toList.map some := tells.errors
  cases told with
  | none => cases errors
  | some e => exact (List.cons.inj errors).1.symm

theorem debug (tells : Tells kind told entries) : ∀ entry ∈ entries, entry.level = "DEBUG" := by
  intro entry member
  have among : entry.error? ∈ told.toList.map some := tells.errors ▸ List.mem_map_of_mem member
  obtain ⟨e, -, same⟩ := List.mem_map.mp among
  unfold LogEntry.level
  rw [← same]
  rfl

end Tells

section Complains

variable {kind : LogEntry → Prop} {log : σ → List LogEntry} {error? : β → Option ListError}
  {act : Act σ β}

/-- What a computation adds to the log tells the error that it ends with, once. Where a panic cuts it
    short, it may have told an error. -/
def Complains (kind : LogEntry → Prop) (log : σ → List LogEntry) (error? : β → Option ListError)
    (act : Act σ β) : Prop :=
  ∀ s, ∃ entries, log (ending (act s)) = log s ++ entries ∧
    match act s with
    | .ok result _ => Tells kind (error? result) entries
    | .error _ _ => ∃ told, Tells kind told entries

theorem Complains.of_keeps (keeps : Keeps log act) (fine : ∀ result, error? result = none) :
    Complains kind log error? act := by
  intro s
  refine ⟨[], (keeps s).trans (List.append_nil _).symm, ?_⟩
  cases act s with
  | ok result t =>
    show Tells kind (error? result) []
    rw [fine]
    exact .nothing
  | error panic t => exact ⟨none, .nothing⟩

theorem Complains.pure {result : β} (fine : error? result = none) :
    Complains kind log error? (Pure.pure result) := by
  intro s
  refine ⟨[], (List.append_nil _).symm, ?_⟩
  show Tells kind (error? result) []
  rw [fine]
  exact .nothing

/-- A computation may go on after what logs nothing. -/
theorem Complains.after {first : Act σ γ} {next : γ → Act σ β} (keeps : Keeps log first)
    (later : ∀ result, Complains kind log error? (next result)) :
    Complains kind log error? (first >>= next) := by
  intro s
  have before := keeps s
  rw [bind_apply]
  cases run : first s with
  | ok result t =>
    rw [run] at before
    have unchanged : log t = log s := before
    have told := later result t
    rwa [unchanged] at told
  | error panic t =>
    rw [run] at before
    exact ⟨[], before.trans (List.append_nil _).symm, none, .nothing⟩

/-- An error ends a computation with no further word, and otherwise it goes on. -/
theorem Complains.bind {next : β → Act σ γ} {lastError? : γ → Option ListError}
    (first : Complains kind log error? act)
    (fails : ∀ result e, error? result = some e →
      ∃ last, next result = Pure.pure last ∧ lastError? last = some e)
    (later : ∀ result, error? result = none → Complains kind log lastError? (next result)) :
    Complains kind log lastError? (act >>= next) := by
  intro s
  obtain ⟨entries, logged, told⟩ := first s
  rw [bind_apply]
  cases run : act s with
  | error panic t =>
    rw [run] at logged told
    exact ⟨entries, logged, told⟩
  | ok result t =>
    rw [run] at logged told
    dsimp only at told ⊢
    cases failed : error? result with
    | some e =>
      obtain ⟨last, ends, error⟩ := fails result e failed
      rw [ends]
      rw [failed, ← error] at told
      exact ⟨entries, logged, told⟩
    | none =>
      rw [failed] at told
      have unchanged : log t = log s := by
        rw [told.silent, List.append_nil] at logged
        exact logged
      have last := later result failed t
      rwa [unchanged] at last

theorem Complains.map {answer : β → γ} {lastError? : γ → Option ListError}
    (first : Complains kind log error? act)
    (same : ∀ result, lastError? (answer result) = error? result) :
    Complains kind log lastError? (do return answer (← act)) := by
  apply first.bind
  · intro result e failed
    exact ⟨answer result, rfl, (same result).trans failed⟩
  · intro result fine
    exact .pure ((same result).trans fine)

end Complains

namespace Session

theorem callDup_silent (hook : DupHook α) (value : α) : Keeps Session.log (callDup hook value) := by
  intro s
  simp only [callDup, bind_apply, get_apply, set_apply]
  cases hook.reply (s.ledger.dups.earlier hook.id) value <;> rfl

theorem callFree_silent (hook : FreeHook α) (value : α) : Keeps Session.log (callFree hook value) := by
  intro s
  simp only [callFree, bind_apply, get_apply, set_apply]
  cases hook.reply (s.ledger.frees.earlier hook.id) value <;> rfl

theorem callMatch_silent (hook : MatchHook α) (stored key : α) :
    Keeps Session.log (callMatch hook stored key) := by
  intro s
  simp only [callMatch, bind_apply, get_apply, set_apply]
  cases hook.reply (s.ledger.matchings.earlier hook.id) (stored, key) <;> rfl

theorem copyValue_silent (hook? : Option (DupHook α)) (value : α) :
    Keeps Session.log (HookedList.copyValue hook? value) := by
  cases hook? with
  | none => exact .pure _
  | some hook => exact callDup_silent hook value

end Session

namespace Workbench

def log (b : Workbench α) : List LogEntry := b.session.log

theorem edit_silent (change : Edit (Chain α) β) : Keeps log (edit change) := by
  rintro ⟨⟨c, hooks⟩, s⟩
  unfold edit
  dsimp only
  cases change c <;> rfl

theorem inspect_silent (look : Chain α → Except Fault β) : Keeps log (inspect look) := by
  intro b
  unfold inspect
  cases look b.list.chain <;> rfl

theorem share_silent {act : Act (Session α) β} (silent : Keeps Session.log act) :
    Keeps log (share act) := by
  rintro ⟨list, s⟩
  have kept := silent s
  unfold share
  dsimp only
  cases run : act s with
  | ok result t =>
    rw [run] at kept
    exact kept
  | error panic t =>
    rw [run] at kept
    exact kept

theorem consume_silent {act : Act (Workbench α) β} (silent : Keeps log act) (list : HookedList α) :
    Keeps Session.log (consume act list) := by
  intro s
  have kept := silent ⟨list, s⟩
  unfold consume
  cases run : act ⟨list, s⟩ with
  | ok result b =>
    rw [run] at kept
    exact kept
  | error panic b =>
    rw [run] at kept
    exact kept

end Workbench

namespace HookedList

open Workbench

theorem dispose_silent (value : α) : Keeps Workbench.log (dispose value) := by
  apply Keeps.get.bind
  intro b
  cases b.list.hooks.free with
  | none => exact .pure ()
  | some hook => exact share_silent (Session.callFree_silent hook value)

theorem freeFront_silent (count : Nat) : Keeps Workbench.log (freeFront (α := α) count) := by
  induction count with
  | zero => exact .pure ()
  | succ count ih =>
    apply (edit_silent _).bind
    intro popped
    cases popped with
    | none => exact .pure ()
    | some value => exact (dispose_silent value).bind fun _ => ih

theorem clear_silent : Keeps Workbench.log (clear (α := α)) :=
  Keeps.get.bind fun b => (freeFront_silent b.list.chain.length).bind fun _ => edit_silent _

theorem clearUnwinding_silent : Keeps Workbench.log (clearUnwinding (α := α)) :=
  clear_silent.tryCatch fun _ => .throw _

theorem drop_silent (list : HookedList α) : Keeps Session.log list.drop :=
  consume_silent clear_silent list

theorem dropUnwinding_silent (list : HookedList α) : Keeps Session.log list.dropUnwinding :=
  consume_silent clearUnwinding_silent list

theorem walkTaking_silent (steps : List WalkStep) : Keeps Workbench.log (walkTaking (α := α) steps) :=
  (edit_silent _).bind fun _ => clear_silent.bind fun _ => .pure _

theorem delete_silent (handle : Handle) : Keeps Workbench.log (delete (α := α) handle) := by
  apply (edit_silent _).bind
  intro value
  apply Keeps.get.bind
  intro b
  cases b.list.hooks.free with
  | none => exact .pure _
  | some hook => exact (share_silent (Session.callFree_silent hook value)).bind fun _ => .pure _

theorem findMatch_silent (hook : MatchHook α) (key : α) : Keeps Workbench.log (findMatch hook key) :=
  (inspect_silent _).bind fun _ =>
    share_silent (Session.findEntry_keeps (fun stored => Session.callMatch_silent hook stored key) _)

theorem searchWithHook_silent (key : α) : Keeps Workbench.log (searchWithHook key) := by
  apply Keeps.get.bind
  intro b
  cases b.list.hooks.matching with
  | none => exact .pure none
  | some hook => exact findMatch_silent hook key

theorem search_silent [BEq α] (key : α) : Keeps Workbench.log (search key) := by
  apply Keeps.get.bind
  intro b
  cases b.list.hooks.matching with
  | none =>
    exact (inspect_silent _).bind fun _ => share_silent (Session.findEntry_keeps (fun _ => .pure _) _)
  | some hook => exact findMatch_silent hook key

section Allows

variable [Stored α] {kind : LogEntry → Prop} (allows : ∀ shortage, kind (.allocationFailed shortage))

include allows

theorem reserve_complains (memory : Memory) (count : Nat) :
    Complains kind Workbench.log errorOf (reserve (α := α) memory count) := by
  apply Complains.after (edit_silent _)
  intro room b
  cases room with
  | ok done => exact ⟨[], (List.append_nil _).symm, .nothing⟩
  | error shortage => exact ⟨[.allocationFailed shortage], rfl, .entry rfl (allows shortage)⟩

theorem insert_complains (memory : Memory) (place : Place) (value : α) :
    Complains kind Workbench.log insertErrorOf (insert memory place value) := by
  apply Complains.after (edit_silent _)
  intro placed b
  cases placed with
  | ok handle => exact ⟨[], (List.append_nil _).symm, .nothing⟩
  | error shortage => exact ⟨[.allocationFailed shortage], rfl, .entry rfl (allows shortage)⟩

theorem withRoom_complains (memory : Memory) (count : Nat) :
    Complains kind Session.log errorOf (withRoom (α := α) memory count) := by
  intro s
  obtain ⟨entries, logged, told⟩ := reserve_complains allows memory count ⟨ofHooks {}, s⟩
  unfold withRoom
  rcases run : reserve memory count ⟨ofHooks {}, s⟩ with ⟨e | done, b⟩ | ⟨panic, b⟩
  all_goals
    rw [run] at logged told
    exact ⟨entries, logged, told⟩

/-- A join tells the error of the chains' join. -/
theorem join_complains (memory : Memory) :
    Complains kind (fun both : Workbench α × HookedList α => both.1.log) errorOf (join memory) := by
  rintro ⟨⟨⟨c, hooks⟩, s⟩, ⟨c', hooks'⟩⟩
  rcases run : Chain.join memory (c, c') with ⟨shortage | done, both⟩ | ⟨cause, both⟩ <;>
    simp only [join, bind_apply, Workbench.editBoth, run]
  · exact ⟨[.allocationFailed shortage], rfl, .entry rfl (allows shortage)⟩
  · exact ⟨[], (List.append_nil _).symm, .nothing⟩
  · exact ⟨[], (List.append_nil _).symm, none, .nothing⟩

section Copies

variable (allows' : ∀ copied, kind (.dupFailed copied))

include allows'

/-- The error of an insertion becomes that of the whole copy, and only the insertion tells it. -/
theorem appendCopies_complains (memory : Memory) (hook? : Option (DupHook α)) (values : List α) :
    Complains kind Workbench.log errorOf (appendCopies memory hook? values) := by
  induction values with
  | nil => exact .pure rfl
  | cons value rest ih =>
    apply Complains.after (share_silent (Session.copyValue_silent hook? value))
    intro copy?
    cases copy? with
    | none =>
      intro b
      exact ⟨[.dupFailed b.list.chain.length], rfl, .entry rfl (allows' _)⟩
    | some copied =>
      apply (insert_complains allows memory .tail copied).bind
      · rintro (e | handle) told failed
        · exact ⟨.error e.error, rfl, failed⟩
        · cases failed
      · rintro (e | handle) fine
        · cases fine
        · exact ih

theorem fillCopy_complains (memory : Memory) (hook? : Option (DupHook α)) (values : List α) :
    Complains kind Workbench.log errorOf (fillCopy memory hook? values) := by
  apply (reserve_complains allows memory values.length).bind
  · rintro (e | done) told failed
    · exact ⟨.error e, rfl, failed⟩
    · cases failed
  · rintro (e | done) fine
    · cases fine
    · exact appendCopies_complains allows allows' memory hook? values

/-- The end of an unfinished copy adds no word of its own. -/
theorem duplicateBy_complains (memory : Memory) (hook? : Option (DupHook α)) (list : HookedList α) :
    Complains kind Session.log errorOf (duplicateBy memory hook? list) := by
  intro s
  unfold duplicateBy
  cases list.chain.values with
  | error cause => exact ⟨[], (List.append_nil _).symm, none, .nothing⟩
  | ok values =>
    obtain ⟨entries, logged, told⟩ :=
      fillCopy_complains allows allows' memory hook? values ⟨ofHooks list.hooks, s⟩
    dsimp only
    rcases run : fillCopy memory hook? values ⟨ofHooks list.hooks, s⟩ with ⟨e | done, b⟩ | ⟨panic, b⟩
    · rw [run] at logged told
      have kept := drop_silent b.list b.session
      simp only [bind_apply]
      cases dropped : drop b.list b.session with
      | ok done t =>
        rw [dropped] at kept
        exact ⟨entries, kept.trans logged, told⟩
      | error panic t =>
        rw [dropped] at kept
        exact ⟨entries, kept.trans logged, _, told⟩
    · rw [run] at logged told
      exact ⟨entries, logged, told⟩
    · rw [run] at logged told
      have kept := dropUnwinding_silent b.list b.session
      simp only [bind_apply]
      cases dropped : dropUnwinding b.list b.session with
      | ok done t =>
        rw [dropped] at kept
        exact ⟨entries, kept.trans logged, told⟩
      | error panic t =>
        rw [dropped] at kept
        exact ⟨entries, kept.trans logged, told⟩

end Copies

end Allows

end HookedList

end LinkedSlots
