import LinkedSlots.Proofs.Computation

namespace LinkedSlots

variable {α : Type}

namespace CallBook

variable {ι : Type}

def recordAll (book : CallBook ι) (id : Nat) (arguments : List ι) : CallBook ι :=
  arguments.foldl (·.record id) book

theorem earlier_recordAll (book : CallBook ι) (id : Nat) (arguments : List ι) :
    (book.recordAll id arguments).earlier id = book.earlier id ++ arguments := by
  induction arguments generalizing book with
  | nil => exact (List.append_nil _).symm
  | cons argument rest ih =>
    have later : (book.recordAll id (argument :: rest)).earlier id = _ := ih (book.record id argument)
    rw [later, earlier_record, List.append_assoc]
    rfl

end CallBook

def Ledger.freed (ledger : Ledger α) (hook? : Option (FreeHook α)) (values : List α) : Ledger α :=
  match hook? with
  | none => ledger
  | some hook => { ledger with frees := ledger.frees.recordAll hook.id values }

theorem Ledger.freed_cons (ledger : Ledger α) (hook? : Option (FreeHook α)) (value : α)
    (rest : List α) :
    ledger.freed hook? (value :: rest) = (ledger.freed hook? [value]).freed hook? rest := by
  cases hook? <;> rfl

def freeCalls (hook? : Option (FreeHook α)) (values : List α) : List (Call α) :=
  match hook? with
  | none => []
  | some hook => values.map (Call.free hook.id hook.label)

section Calls

variable (hook? : Option (FreeHook α))

@[simp] theorem freeCalls_none (values : List α) : freeCalls none values = [] := rfl

@[simp] theorem freeCalls_some (hook : FreeHook α) (values : List α) :
    freeCalls (some hook) values = values.map (Call.free hook.id hook.label) := rfl

@[simp] theorem freeCalls_nil : freeCalls hook? [] = [] := by
  cases hook? <;> rfl

@[simp] theorem freeCalls_append (first later : List α) :
    freeCalls hook? (first ++ later) = freeCalls hook? first ++ freeCalls hook? later := by
  cases hook? with
  | none => rfl
  | some hook => exact List.map_append

theorem freeCalls_cons (value : α) (rest : List α) :
    freeCalls hook? (value :: rest) = freeCalls hook? [value] ++ freeCalls hook? rest :=
  freeCalls_append hook? [value] rest

theorem freeCalls_length (installed : hook?.isSome) (values : List α) :
    (freeCalls hook? values).length = values.length := by
  rcases Option.isSome_iff_exists.mp installed with ⟨hook, rfl⟩
  exact List.length_map _

end Calls

namespace Session

def free (hook? : Option (FreeHook α)) (value : α) : Act (Session α) Unit :=
  match hook? with
  | none => return ()
  | some hook => callFree hook value

def freeAll (hook? : Option (FreeHook α)) : List α → Act (Session α) Unit
  | [] => return ()
  | value :: rest => do
    free hook? value
    freeAll hook? rest

structure Freed (hook? : Option (FreeHook α)) (values : List α) (s t : Session α) : Prop where
  calls : t.calls = s.calls ++ freeCalls hook? values
  log : t.log = s.log
  dups : t.ledger.dups = s.ledger.dups

theorem Freed.refl (hook? : Option (FreeHook α)) (s : Session α) : Freed hook? [] s s :=
  ⟨by simp, rfl, rfl⟩

theorem Freed.cons {hook? : Option (FreeHook α)} {value : α} {values : List α} {s t u : Session α}
    (first : Freed hook? [value] s t) (later : Freed hook? values t u) :
    Freed hook? (value :: values) s u := by
  constructor
  · rw [later.calls, first.calls, List.append_assoc, ← freeCalls_cons]
  · exact later.log.trans first.log
  · exact later.dups.trans first.dups

theorem free_cases (hook? : Option (FreeHook α)) (value : α) (s : Session α) :
    (∃ t, free hook? value s = .ok () t ∧ Freed hook? [value] s t) ∨
      ∃ text t, free hook? value s = .error (.hook text) t ∧ hook?.isSome ∧
        Freed hook? [value] s t := by
  cases hook? with
  | none => exact .inl ⟨s, rfl, by simp, rfl, rfl⟩
  | some hook =>
    let t : Session α := { s with
      ledger.frees := s.ledger.frees.record hook.id value
      calls := s.calls ++ [Call.free hook.id hook.label value] }
    have freed : Freed (some hook) [value] s t := ⟨rfl, rfl, rfl⟩
    cases reply : hook.reply (s.ledger.frees.earlier hook.id) value with
    | ok done => exact .inl ⟨t, by simp [free, callFree, settle, reply, t], freed⟩
    | error text => exact .inr ⟨text, t, by simp [free, callFree, settle, reply, t], rfl, freed⟩

/-- Values are given up to the end, or up to and including the first one whose call panics. -/
theorem freeAll_cases (hook? : Option (FreeHook α)) (values : List α) (s : Session α) :
    (∃ t, freeAll hook? values s = .ok () t ∧ Freed hook? values s t) ∨
      ∃ text t done value rest, freeAll hook? values s = .error (.hook text) t ∧
        values = done ++ value :: rest ∧ hook?.isSome ∧ Freed hook? (done ++ [value]) s t := by
  induction values generalizing s with
  | nil => exact .inl ⟨s, rfl, .refl hook? s⟩
  | cons value rest ih =>
    rcases free_cases hook? value s with ⟨t, called, freed⟩ | ⟨text, t, called, installed, freed⟩
    · rcases ih t with ⟨u, run, later⟩ |
        ⟨text, u, done, refused, behind, run, split, installed, later⟩
      · exact .inl ⟨u, by simp [freeAll, called, run], freed.cons later⟩
      · right
        refine ⟨text, u, value :: done, refused, behind, ?_, by simp [split], installed, ?_⟩
        · simp [freeAll, called, run]
        · exact freed.cons later
    · right
      exact ⟨text, t, [], value, rest, by simp [freeAll, called], rfl, installed, freed⟩

end Session

end LinkedSlots
