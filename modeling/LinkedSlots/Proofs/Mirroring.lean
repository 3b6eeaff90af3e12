import LinkedSlots.HookedList.Join
import LinkedSlots.Proofs.ChainSimulation

namespace LinkedSlots

variable {α β γ : Type}

structure HookedList.Mirrors (list : HookedList α) (plain : PlainList α) : Prop where
  represents : list.chain.Represents plain.roster
  hooks : list.hooks = plain.hooks

theorem HookedList.Mirrors.unique {list : HookedList α} {plain other : PlainList α}
    (mirrors : list.Mirrors plain) (also : list.Mirrors other) : plain = other := by
  have roster := mirrors.represents.unique also.represents
  have hooks := mirrors.hooks.symm.trans also.hooks
  cases plain
  cases other
  cases roster
  cases hooks
  rfl

theorem HookedList.Mirrors.determines {list other : HookedList α} {plain : PlainList α}
    (mirrors : list.Mirrors plain) (also : other.Mirrors plain) : list = other := by
  have chain := mirrors.represents.determines also.represents
  have hooks := mirrors.hooks.trans also.hooks.symm
  cases list
  cases other
  cases chain
  cases hooks
  rfl

structure Workbench.Mirrors (b : Workbench α) (p : PlainBench α) : Prop where
  list : b.list.Mirrors p.list
  session : b.session = p.session

namespace Workbench

variable {c : Chain α} {q : Roster α} {hooks : HookSet α} {s : Session α}

theorem Mirrors.mk' (rep : c.Represents q) :
    Mirrors ⟨⟨c, hooks⟩, s⟩ ⟨⟨q, hooks⟩, s⟩ :=
  ⟨⟨rep, rfl⟩, rfl⟩

theorem simulates_of_represents {V : β → γ → Prop} {act : Act (Workbench α) β}
    {plain : Act (PlainBench α) γ}
    (same : ∀ c q hooks s, c.Represents q →
      Alike V Mirrors (act ⟨⟨c, hooks⟩, s⟩) (plain ⟨⟨q, hooks⟩, s⟩)) :
    Simulates V Mirrors act plain := by
  rintro ⟨⟨c, hooks⟩, s⟩ ⟨⟨q, _⟩, _⟩ ⟨⟨rep, rfl⟩, rfl⟩
  exact same c q hooks s rep

theorem edit_apply (change : Edit (Chain α) β) (list : HookedList α) (s : Session α) :
    edit change ⟨list, s⟩ = match change list.chain with
      | .ok result chain => .ok result ⟨⟨chain, list.hooks⟩, s⟩
      | .error cause chain => .error (.fault cause) ⟨⟨chain, list.hooks⟩, s⟩ := rfl

theorem edit_simulates {change : Edit (Chain α) β} {plain : Edit (Roster α) β}
    (sim : Simulates Eq Chain.Represents change plain) :
    Simulates Eq Mirrors (edit change) (PlainBench.edit plain) := by
  apply simulates_of_represents
  intro c q hooks s rep
  rw [edit_apply, PlainBench.edit_apply]
  rcases (sim c q rep).cases with ⟨b, _, c', q', run, run', rfl, rep'⟩ | ⟨cause, c', q', run, run', rep'⟩
  · simp only [run, run']
    exact ⟨rfl, .mk' rep'⟩
  · simp only [run, run']
    exact ⟨rfl, .mk' rep'⟩

theorem share_apply (act : Act (Session α) β) (list : HookedList α) (s : Session α) :
    share act ⟨list, s⟩ = match act s with
      | .ok result t => .ok result ⟨list, t⟩
      | .error panic t => .error panic ⟨list, t⟩ := rfl

theorem share_simulates (act : Act (Session α) β) :
    Simulates Eq Mirrors (share act) (PlainBench.share act) := by
  rintro ⟨list, s⟩ ⟨plain, _⟩ ⟨same, rfl⟩
  rw [share_apply, PlainBench.share_apply]
  cases act s with
  | ok result t => exact ⟨rfl, same, rfl⟩
  | error panic t => exact ⟨rfl, same, rfl⟩

/-- A look at the chain sees what the roster shows. -/
theorem look_simulates {look : Chain α → Except Fault β} {seen : Roster α → β} (answer : β → γ)
    (same : ∀ c q, c.Represents q → look c = .ok (seen q)) :
    Simulates Eq Mirrors (do return answer (← inspect look))
      (do return answer (seen (← get).list.roster)) := by
  apply simulates_of_represents
  intro c q hooks s rep
  have found : inspect look ⟨⟨c, hooks⟩, s⟩ = .ok (seen q) ⟨⟨c, hooks⟩, s⟩ := by
    unfold inspect
    rw [same c q rep]
  simp only [bind_apply, found, get_apply, pure_apply]
  exact ⟨rfl, .mk' rep⟩

theorem read_simulates {seen : Workbench α → β} {plain : PlainBench α → β}
    (same : ∀ b p, Mirrors b p → seen b = plain p) :
    Simulates Eq Mirrors (do return seen (← get) : Act (Workbench α) β)
      (do return plain (← get) : Act (PlainBench α) β) :=
  Simulates.get.bind fun b p mirrors => .pure (same b p mirrors)

theorem Mirrors.length_eq {b : Workbench α} {p : PlainBench α} (mirrors : Mirrors b p) :
    b.list.chain.length = p.list.roster.entries.length :=
  mirrors.list.represents.length

/-- Both note how many values there are before they go on. -/
theorem note_simulates (entry : Nat → LogEntry) {act : Act (Workbench α) β}
    {plain : Act (PlainBench α) β} (sim : Simulates Eq Mirrors act plain) :
    Simulates Eq Mirrors
      (do share (Session.note (entry (← get).list.chain.length)); act)
      (do PlainBench.share (Session.note (entry (← get).list.roster.entries.length)); plain) := by
  apply Simulates.get.bind
  intro b p mirrors
  rw [mirrors.length_eq]
  apply (share_simulates _).bind
  intro _ _ _
  exact sim

theorem map_simulates {act : Act (Workbench α) β} {plain : Act (PlainBench α) β} (answer : β → γ)
    (sim : Simulates Eq Mirrors act plain) :
    Simulates Eq Mirrors (do return answer (← act)) (do return answer (← plain)) := by
  apply sim.bind
  rintro b _ rfl
  exact .pure rfl

theorem then_simulates {act : Act (Workbench α) β} {plain : Act (PlainBench α) β} (answer : γ)
    (sim : Simulates Eq Mirrors act plain) :
    Simulates Eq Mirrors (do let _ ← act; return answer) (do let _ ← plain; return answer) := by
  apply sim.bind
  intro _ _ _
  exact .pure rfl

theorem install_simulates {β : Type} (change : HookSet α → Ledger α → HookSet α × Ledger α)
    (answer : β) {act : Act (Workbench α) Unit}
    (same : ∀ c hooks s, act ⟨⟨c, hooks⟩, s⟩ =
      .ok () ⟨⟨c, (change hooks s.ledger).1⟩, { s with ledger := (change hooks s.ledger).2 }⟩) :
    Simulates Eq Mirrors (do act; return answer) (do PlainBench.install change; return answer) := by
  apply then_simulates
  apply simulates_of_represents
  intro c q hooks s rep
  rw [same c hooks s]
  exact ⟨rfl, .mk' rep⟩

theorem consume_apply (act : Act (Workbench α) β) (list : HookedList α) (s : Session α) :
    consume act list s = match act ⟨list, s⟩ with
      | .ok result b => .ok result b.session
      | .error panic b => .error panic b.session := rfl

theorem consume_map {act : Act (Workbench α) β} (answer : β → γ) (list : HookedList α) :
    consume (do return answer (← act)) list = (do return answer (← consume act list)) := by
  funext s
  rw [consume_apply, bind_apply, bind_apply, consume_apply]
  cases act ⟨list, s⟩ <;> rfl

theorem editBoth_apply (change : Edit (Chain α × Chain α) β) (list other : HookedList α)
    (s : Session α) :
    editBoth change (⟨list, s⟩, other) = match change (list.chain, other.chain) with
      | .ok result (c, d) => .ok result (⟨⟨c, list.hooks⟩, s⟩, ⟨d, other.hooks⟩)
      | .error cause (c, d) =>
        .error (.fault cause) (⟨⟨c, list.hooks⟩, s⟩, ⟨d, other.hooks⟩) := rfl

end Workbench

namespace HookedList

open Workbench

theorem reserve_simulates [Stored α] (memory : Memory) (count : Nat) :
    Simulates Eq Workbench.Mirrors (reserve memory count : Act (Workbench α) _)
      (PlainBench.reserve memory count) := by
  apply (edit_simulates (Chain.reserve_simulates memory count)).bind
  rintro outcome _ rfl
  cases outcome with
  | ok done => exact .pure rfl
  | error shortage => exact map_simulates _ (share_simulates _)

theorem insert_simulates [Stored α] (memory : Memory) (place : Place) (value : α) :
    Simulates Eq Workbench.Mirrors (insert memory place value)
      (PlainBench.insert memory place value) := by
  apply (edit_simulates (Chain.insert_simulates memory place value)).bind
  rintro outcome _ rfl
  cases outcome with
  | ok handle => exact .pure rfl
  | error shortage => exact map_simulates _ (share_simulates _)

theorem delete_simulates (handle : Handle) :
    Simulates Eq Workbench.Mirrors (delete handle : Act (Workbench α) _)
      (PlainBench.delete handle) := by
  apply (edit_simulates (Chain.unlink_simulates handle)).bind
  rintro value _ rfl
  apply Simulates.get.bind
  intro b p mirrors
  rw [mirrors.list.hooks]
  cases p.list.hooks.free with
  | none => exact .pure rfl
  | some hook => exact then_simulates none (share_simulates _)

theorem findBy_simulates (test : α → Act (Session α) Bool) :
    Simulates Eq Workbench.Mirrors (findBy test)
      (do PlainBench.share (findEntry test (← get).list.roster.entries)) := by
  apply simulates_of_represents
  intro c q hooks s rep
  have found : inspect Chain.entries ⟨⟨c, hooks⟩, s⟩ = .ok q.entries ⟨⟨c, hooks⟩, s⟩ := by
    unfold inspect
    rw [rep.entries]
  unfold findBy
  simp only [bind_apply, found, get_apply]
  exact share_simulates _ _ _ (.mk' rep)

theorem search_simulates [BEq α] (key : α) :
    Simulates Eq Workbench.Mirrors (search key) (PlainBench.search key) := by
  intro b p mirrors
  unfold search PlainBench.search
  simp only [bind_apply, get_apply]
  rw [mirrors.list.hooks]
  cases p.list.hooks.matching with
  | none => exact findBy_simulates _ b p mirrors
  | some hook => exact findBy_simulates _ b p mirrors

theorem searchWithHook_simulates (key : α) :
    Simulates Eq Workbench.Mirrors (searchWithHook key) (PlainBench.searchWithHook key) := by
  intro b p mirrors
  unfold searchWithHook PlainBench.searchWithHook
  simp only [bind_apply, get_apply]
  rw [mirrors.list.hooks]
  cases p.list.hooks.matching with
  | none => exact ⟨rfl, mirrors⟩
  | some hook => exact findBy_simulates _ b p mirrors

theorem join_simulates [Stored α] (memory : Memory) :
    Simulates Eq (fun b p => Workbench.Mirrors b.1 p.1 ∧ HookedList.Mirrors b.2 p.2)
      (join memory : Act (Workbench α × HookedList α) _) (PlainBench.join memory) := by
  rintro ⟨⟨⟨c, hooks⟩, s⟩, ⟨d, otherHooks⟩⟩ ⟨⟨⟨q, _⟩, _⟩, ⟨p, _⟩⟩ ⟨⟨⟨rep, rfl⟩, rfl⟩, ⟨other, rfl⟩⟩
  have joined := rep.join other memory
  dsimp only at joined ⊢
  unfold join PlainBench.join
  rw [bind_apply, editBoth_apply]
  dsimp only
  cases room : q.reserve memory p.entries.length with
  | ok grown =>
    rw [room] at joined
    rcases joined with ⟨c', d', run, rep', other'⟩
    rw [run]
    exact ⟨rfl, .mk' rep', other', rfl⟩
  | error shortage =>
    rw [room] at joined
    dsimp only at joined
    rw [joined]
    exact ⟨rfl, .mk' rep, other, rfl⟩

end HookedList

end LinkedSlots
