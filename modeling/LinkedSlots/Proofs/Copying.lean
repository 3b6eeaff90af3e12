import LinkedSlots.Proofs.Clearing

namespace LinkedSlots.HookedList

open Workbench

variable {α : Type} {c : Chain α} {q : Roster α} {list : HookedList α} {plain : PlainList α}
  [Stored α]

def Made : Except ListError (HookedList α) → Except ListError (PlainList α) → Prop
  | .ok list, .ok plain => list.Mirrors plain
  | .error e, .error d => e = d
  | _, _ => False

/-- Where there is room, no value is refused. -/
theorem insert_tail (rep : c.Represents q) (room : q.entries.length < q.capacity) (memory : Memory)
    (value : α) (hooks : HookSet α) (s : Session α) :
    ∃ c', insert memory .tail value ⟨⟨c, hooks⟩, s⟩ = .ok (.ok q.fresh) ⟨⟨c', hooks⟩, s⟩ ∧
      c'.Represents (q.push value) := by
  rcases rep.addTail room memory value with ⟨c', run, rep'⟩
  refine ⟨c', ?_, rep'⟩
  unfold insert
  rw [bind_apply, edit_apply]
  unfold Chain.insert
  simp only [run, pure_apply]

theorem appendCopies_alike (memory : Memory) (hook? : Option (DupHook α)) (values : List α)
    (rep : c.Represents q) (room : q.entries.length + values.length ≤ q.capacity)
    (hooks : HookSet α) (s : Session α) :
    Alike Eq Workbench.Mirrors (appendCopies memory hook? values ⟨⟨c, hooks⟩, s⟩)
      (PlainBench.appendCopies hook? values ⟨⟨q, hooks⟩, s⟩) := by
  induction values generalizing c q s with
  | nil => exact ⟨rfl, .mk' rep⟩
  | cons value rest ih =>
    unfold appendCopies PlainBench.appendCopies
    rw [bind_apply, bind_apply, share_apply, PlainBench.share_apply]
    cases copyValue hook? value s with
    | error panic t => exact ⟨rfl, .mk' rep⟩
    | ok copy? t =>
      cases copy? with
      | none => exact note_simulates .dupFailed (.pure rfl) _ _ (.mk' rep)
      | some copied =>
        rw [List.length_cons] at room
        rcases insert_tail rep (by omega) memory copied hooks t with ⟨c', run, rep'⟩
        have later := ih rep' (by rw [Roster.push_length, Roster.push_capacity]; omega) t
        simp only [bind_apply, run]
        exact later

theorem reserve_ends (rep : c.Represents q) (memory : Memory) (count : Nat) (hooks : HookSet α)
    (s : Session α) :
    (∃ grown c', q.reserve memory count = .ok grown ∧ c'.Represents grown ∧
        reserve memory count ⟨⟨c, hooks⟩, s⟩ = .ok (.ok ()) ⟨⟨c', hooks⟩, s⟩) ∨
      ∃ shortage, q.reserve memory count = .error shortage ∧
        reserve memory count ⟨⟨c, hooks⟩, s⟩ = .ok (.error (.ofShortage shortage))
          ⟨⟨c, hooks⟩, s.noted (.allocationFailed shortage)⟩ := by
  have asked := rep.reserve memory count
  unfold reserve
  rw [bind_apply, edit_apply]
  cases room : q.reserve memory count with
  | ok grown =>
    rw [room] at asked
    rcases asked with ⟨run, rep'⟩
    simp only [run]
    exact .inl ⟨grown, _, rfl, rep', rfl⟩
  | error shortage =>
    rw [room] at asked
    unfold Chain.Granted at asked
    simp only [asked]
    exact .inr ⟨shortage, rfl, rfl⟩

theorem withRoom_alike (memory : Memory) (count : Nat) (s : Session α) :
    Alike Made Eq (withRoom memory count s) (PlainList.withRoom memory count s) := by
  unfold withRoom PlainList.withRoom ofHooks
  rcases reserve_ends (Chain.represents_empty (α := α)) memory count {} s with
    ⟨grown, c', room, rep, run⟩ | ⟨shortage, room, run⟩
  · simp only [run, room]
    exact ⟨⟨rep, rfl⟩, rfl⟩
  · simp only [run, room]
    exact ⟨rfl, rfl⟩

theorem duplicateBy_alike (mirrors : list.Mirrors plain) (memory : Memory)
    (hook? : Option (DupHook α)) (s : Session α) :
    Alike Made Eq (duplicateBy memory hook? list s) (plain.duplicateBy memory hook? s) := by
  have values := mirrors.represents.values
  have counted : plain.roster.values.length = plain.roster.entries.length := List.length_map _
  unfold duplicateBy PlainList.duplicateBy fillCopy ofHooks
  rw [← counted]
  simp only [values, bind_apply, ← mirrors.hooks]
  rcases reserve_ends (Chain.represents_empty (α := α)) memory plain.roster.values.length list.hooks s
    with ⟨grown, c', room, rep, run⟩ | ⟨shortage, room, run⟩
  · simp only [run, room]
    have enough := (Roster.proper_empty.room_of_reserve room).2
    rcases (appendCopies_alike memory hook? _ rep enough list.hooks s).cases with
      ⟨ended, _, b, p, run, run', rfl, after⟩ | ⟨panic, b, p, run, run', after⟩
    · simp only [run, run']
      cases ended with
      | ok done => exact ⟨after.list, after.session⟩
      | error e =>
        simp only [drop_eq after.list, after.session]
        cases p.list.drop p.session with
        | ok done t => exact ⟨rfl, rfl⟩
        | error panic t => exact ⟨rfl, rfl⟩
    · simp only [run, run', dropUnwinding_eq after.list, after.session]
      cases p.list.dropUnwinding p.session with
      | ok done t => exact ⟨rfl, rfl⟩
      | error panic t => exact ⟨rfl, rfl⟩
  · simp only [run, room, pure_apply]
    have nothing : drop ⟨Chain.empty, list.hooks⟩ = (⟨.empty, list.hooks⟩ : PlainList α).drop :=
      drop_eq ⟨Chain.represents_empty, rfl⟩
    simp only [nothing]
    exact ⟨rfl, rfl⟩

theorem duplicate_alike (mirrors : list.Mirrors plain) (memory : Memory) (s : Session α) :
    Alike Made Eq (duplicate memory list s) (plain.duplicate memory s) := by
  unfold duplicate PlainList.duplicate
  rw [mirrors.hooks]
  exact duplicateBy_alike mirrors memory _ s

theorem duplicateWithHook_alike (mirrors : list.Mirrors plain) (memory : Memory) (s : Session α) :
    Alike Made Eq (duplicateWithHook memory list s) (plain.duplicateWithHook memory s) := by
  unfold duplicateWithHook PlainList.duplicateWithHook
  rw [mirrors.hooks]
  cases plain.hooks.dup with
  | none => exact ⟨rfl, rfl⟩
  | some hook => exact duplicateBy_alike mirrors memory (some hook) s

end LinkedSlots.HookedList
