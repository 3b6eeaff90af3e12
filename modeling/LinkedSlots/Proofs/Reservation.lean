import LinkedSlots.Proofs.Copies
import LinkedSlots.Proofs.Exhaustion
import LinkedSlots.Proofs.Lasting

namespace LinkedSlots

variable {α : Type}

theorem Roster.capacity_of_reserve [Stored α] {grown : Roster α} {memory : Memory} {count : Nat}
    (granted : (Roster.empty : Roster α).reserve memory count = .ok grown) :
    count ≤ grown.capacity :=
  (Nat.le_add_left _ _).trans (Roster.proper_empty.room_of_reserve granted).2

namespace PlainBench

theorem appendCopies_capacity (hook? : Option (DupHook α)) (values : List α) :
    Keeps (fun b => b.list.roster.capacity) (appendCopies hook? values) := by
  have shared {β : Type} (act : Act (Session α) β) :
      Keeps (fun b => b.list.roster.capacity) (share act) :=
    fun b => congrArg Roster.capacity (share_still act b)
  induction values with
  | nil => exact .pure _
  | cons value rest ih =>
    apply (shared _).bind
    intro copy?
    cases copy? with
    | none => exact Keeps.get.bind fun _ => (shared _).bind fun _ => .pure _
    | some copied =>
      have pushed : Keeps (fun b : PlainBench α => b.list.roster.capacity)
          (edit (modify (Roster.push · copied))) := fun _ => rfl
      exact pushed.bind fun _ => ih

/-- Only the hook refuses a copy. -/
theorem appendCopies_refused (hook? : Option (DupHook α)) (values : List α) (b after : PlainBench α) :
    appendCopies hook? values b ≠ .ok (.error .outOfMemory) after := by
  rcases b with ⟨list, s⟩
  cases hook? with
  | none =>
    rw [appendCopies_none]
    nofun
  | some hook =>
    induction values generalizing list s with
    | nil => nofun
    | cons value rest ih =>
      rw [appendCopies_cons]
      rcases hook.reply (s.ledger.dups.earlier hook.id) value with text | _ | copied
      · nofun
      · nofun
      · exact ih _ _

end PlainBench

/-- The values of the other chain go into room that was asked for before. -/
theorem Chain.Represents.move_reserved [Stored α] {c d roomy : Chain α} {q p : Roster α}
    (rep : c.Represents q) (other : d.Represents p) {memory : Memory}
    (granted : Chain.reserve memory d.length c = .ok (.ok ()) roomy) (scarce : Memory) :
    ∃ joined left, Chain.moveFront scarce d.length (roomy, d) = .ok (.ok ()) (joined, left) ∧
      joined.capacity = roomy.capacity := by
  have asked := rep.reserve memory d.length
  rw [granted] at asked
  cases room : q.reserve memory d.length with
  | error shortage =>
    rw [room] at asked
    cases asked
  | ok grown =>
    rw [room] at asked
    rcases asked with ⟨same, rep'⟩
    cases same
    have enough := (rep.proper.room_of_reserve room).2
    rcases rep'.moveFront scarce d.length other other.length.le enough with
      ⟨joined, left, run, rep'', -⟩
    refine ⟨joined, left, run, ?_⟩
    rw [rep''.capacity]
    exact Roster.pushAll_capacity _

theorem HookedList.copies_reserved [Stored α] {hook? : Option (DupHook α)} {values : List α}
    {hooks : HookSet α} {session : Session α} {memory : Memory} {b : Workbench α}
    (granted : HookedList.reserve memory values.length ⟨.ofHooks hooks, session⟩ = .ok (.ok ()) b)
    (scarce : Memory) :
    (∀ after, HookedList.appendCopies scarce hook? values b ≠ .ok (.error .outOfMemory) after) ∧
      (ending (HookedList.appendCopies scarce hook? values b)).list.chain.capacity =
        b.list.chain.capacity := by
  unfold ofHooks at granted
  rcases reserve_ends (Chain.represents_empty (α := α)) memory values.length hooks session with
    ⟨grown, c, room, rep, run⟩ | ⟨shortage, room, run⟩
  · rw [granted] at run
    cases run
    have enough := (Roster.proper_empty.room_of_reserve room).2
    have kept := PlainBench.appendCopies_capacity hook? values ⟨⟨grown, hooks⟩, session⟩
    rcases (appendCopies_alike scarce hook? values rep enough hooks session).cases with
      ⟨ended, _, after, plain, run, run', rfl, same⟩ | ⟨panic, after, plain, run, run', same⟩
    · rw [run'] at kept
      rw [run]
      refine ⟨?_, ?_⟩
      · rintro _ ⟨⟩
        exact PlainBench.appendCopies_refused hook? values _ _ run'
      · exact same.list.represents.capacity.trans (kept.trans rep.capacity.symm)
    · rw [run'] at kept
      rw [run]
      refine ⟨nofun, ?_⟩
      exact same.list.represents.capacity.trans (kept.trans rep.capacity.symm)
  · rw [granted] at run
    cases run

namespace PlainStore

variable {p : PlainStore α} {name source : String} {list other : PlainList α}
  [BEq α] [Outlined α] [Stored α]

theorem reserve_inverts {memory : Memory} {count : Nat} (found : p.lists.find? name = some list)
    (proper : list.roster.Proper)
    (done : (p.step (.on name (.reserve memory count))).1.outcome = .returned .done) :
    ∃ after, (p.step (.on name (.reserve memory count))).2.lists.find? name = some after ∧
      list.roster.entries.length + count ≤ after.roster.capacity := by
  have step := reserve_ends found memory count
  cases granted : list.roster.reserve memory count with
  | error shortage =>
    rw [granted] at step
    rw [step] at done
    cases done
  | ok grown =>
    rw [granted] at step
    rw [step]
    refine ⟨⟨grown, list.hooks⟩, p.lists.find?_put_self name _, ?_⟩
    rw [← (Roster.roomier_of_grow granted).entries]
    exact (proper.room_of_reserve granted).2

theorem createWithRoom_inverts {memory : Memory} {count : Nat}
    (made : Makes (PlainList.withRoom memory count p.session)) :
    ∃ after, (p.step (.createWithRoom name memory count)).2.lists.find? name = some after ∧
      count ≤ after.roster.capacity := by
  rcases made with ⟨list, t, run⟩
  have step : (p.step (.createWithRoom name memory count)).2.lists = p.lists.put name list := by
    show (p.keep name _).2.lists = _
    rw [run]
    exact replace_lists list t
  refine ⟨list, ?_, ?_⟩
  · rw [step]
    exact p.lists.find?_put_self name list
  · unfold PlainList.withRoom at run
    cases granted : (Roster.empty : Roster α).reserve memory count with
    | error shortage =>
      rw [granted] at run
      cases run
    | ok grown =>
      rw [granted] at run
      cases run
      exact Roster.capacity_of_reserve granted

theorem insert_fits (found : p.lists.find? name = some list) (proper : list.roster.Proper)
    {place : Place} {front back : List (Handle × α)} (gap : list.roster.gap place = .ok (front, back))
    (room : list.roster.entries.length < list.roster.capacity) (memory : Memory) (value : α) :
    let ended := p.step (.on name (.insert memory place value))
    (∃ handle, ended.1.outcome = .returned (.handle (some handle))) ∧
      ∃ after, ended.2.lists.find? name = some after ∧
        after.roster.capacity = list.roster.capacity := by
  have granted := proper.reserveSlot room memory
  rw [insert_ends found gap granted]
  exact ⟨⟨_, rfl⟩, _, p.lists.find?_put_self name _, rfl⟩

theorem join_fits (ne : name ≠ source) (found : p.lists.find? name = some list)
    (found' : p.lists.find? source = some other) (proper : list.roster.Proper)
    (room : list.roster.entries.length + other.roster.entries.length ≤ list.roster.capacity)
    (memory : Memory) :
    let ended := p.step (.join name source memory)
    ended.1.outcome = .returned .done ∧
      ∃ after, ended.2.lists.find? name = some after ∧
        after.roster.capacity = list.roster.capacity := by
  have step := join_ends ne found found' memory
  rw [proper.reserve_enough room memory] at step
  rw [step]
  refine ⟨rfl, ⟨list.roster.pushAll other.roster.values, list.hooks⟩, ?_, ?_⟩
  · exact (Registry.find?_put_of_ne _ _ ne).trans (p.lists.find?_put_self name _)
  · exact Roster.pushAll_capacity _

end PlainStore

namespace Outcome

def succeeded : Outcome α → Bool
  | .returned .done => true
  | _ => false

theorem succeeded_iff {outcome : Outcome α} : outcome.succeeded ↔ outcome = .returned .done := by
  cases outcome with
  | returned answer => cases answer <;> simp [succeeded]
  | panicked panic => simp [succeeded]
  | noList => simp [succeeded]

instance (outcome : Outcome α) : Decidable (outcome = .returned .done) :=
  decidable_of_iff _ succeeded_iff

end Outcome

namespace Store

variable {s : Store α} {p : PlainStore α} {name : String} [BEq α] [Outlined α] [Stored α]

inductive Reserves (s : Store α) (name : String) : Op α → Nat → Prop
  | more {list memory count} (found : s.lists.find? name = some list)
      (granted : (s.step (.on name (.reserve memory count))).1.outcome = .returned .done) :
    s.Reserves name (.on name (.reserve memory count)) (list.chain.length + count)
  | fresh {memory count} (made : Makes (HookedList.withRoom memory count s.session)) :
    s.Reserves name (.createWithRoom name memory count) count

def Fits (s : Store α) (name : String) (op : Op α) (list : HookedList α) : Prop :=
  ∃ after, (s.step op).2.lists.find? name = some after ∧
    after.chain.capacity = list.chain.capacity

/-- Whatever does not bring the list beyond this many values needs no memory. -/
structure Ample (s : Store α) (name : String) (room : Nat) : Prop where
  present : (s.lists.find? name).isSome
  inserts : ∀ list memory place value, s.lists.find? name = some list → list.chain.Live place →
    list.chain.length + 1 ≤ room →
      (∃ handle, (s.step (.on name (.insert memory place value))).1.outcome =
        .returned (.handle (some handle))) ∧
      s.Fits name (.on name (.insert memory place value)) list
  joins : ∀ list source other memory, s.lists.find? name = some list → name ≠ source →
    s.lists.find? source = some other → list.chain.length + other.chain.length ≤ room →
      (s.step (.join name source memory)).1.outcome = .returned .done ∧
      s.Fits name (.join name source memory) list

theorem Mirrors.fits (mirrors : s.Mirrors p) {op : Op α} {list : HookedList α} {plain : PlainList α}
    (same : list.Mirrors plain)
    (fits : ∃ after, (p.step op).2.lists.find? name = some after ∧
      after.roster.capacity = plain.roster.capacity) : s.Fits name op list := by
  rcases fits with ⟨left, there, capacity⟩
  rcases (step_agrees mirrors op).stores.mirrored there with ⟨after, found, same'⟩
  refine ⟨after, found, ?_⟩
  rw [same'.represents.capacity, capacity, same.represents.capacity]

theorem Mirrors.ample (mirrors : s.Mirrors p) {plain : PlainList α}
    (there : p.lists.find? name = some plain) {room : Nat} (enough : room ≤ plain.roster.capacity) :
    s.Ample name room := by
  rcases mirrors.mirrored there with ⟨held, found, same⟩
  have proper := same.represents.proper
  constructor
  case present =>
    rw [found]
    rfl
  case inserts =>
    intro list memory place value found' live short
    rw [found] at found'
    cases found'
    rw [same.represents.length] at short
    rcases same.represents.gap_live live with ⟨front, back, gap⟩
    have fits := PlainStore.insert_fits there proper gap (by omega) memory value
    rw [(step_agrees mirrors _).report]
    exact ⟨fits.1, mirrors.fits same fits.2⟩
  case joins =>
    intro list source other memory found' ne others short
    rw [found] at found'
    cases found'
    rcases mirrors.found others with ⟨plain', there', same'⟩
    rw [same.represents.length, same'.represents.length] at short
    have fits := PlainStore.join_fits ne there there' proper (by omega) memory
    rw [(step_agrees mirrors _).report]
    exact ⟨fits.1, mirrors.fits same fits.2⟩

/-- The capacity of a list never goes down. -/
theorem Mirrors.run_capacity (mirrors : s.Mirrors p) {plain : PlainList α}
    (there : p.lists.find? name = some plain) (ops : List (Op α))
    (lasts : s.Along (fun s op => ¬ s.Ends name op) ops) :
    ∃ after, (p.run ops).2.lists.find? name = some after ∧
      plain.roster.capacity ≤ after.roster.capacity := by
  induction ops generalizing s p plain with
  | nil => exact ⟨plain, there, Nat.le_refl _⟩
  | cons op ops ih =>
    rcases lasts with ⟨lasts, later⟩
    rcases mirrors.lasts there lasts with ⟨next, there', turn⟩
    rcases ih (step_agrees mirrors op).stores there' later with ⟨after, found, more⟩
    exact ⟨after, found, turn.capacity_le.trans more⟩

theorem Mirrors.reserves (mirrors : s.Mirrors p) {op : Op α} {room : Nat}
    (reserves : s.Reserves name op room) :
    ∃ after, (p.step op).2.lists.find? name = some after ∧ room ≤ after.roster.capacity := by
  cases reserves with
  | more found granted =>
    rcases mirrors.found found with ⟨plain, there, same⟩
    rw [(step_agrees mirrors _).report] at granted
    rw [same.represents.length]
    exact PlainStore.reserve_inverts there same.represents.proper granted
  | fresh made =>
    rw [(HookedList.withRoom_alike _ _ _).makes_iff, mirrors.session] at made
    exact PlainStore.createWithRoom_inverts made

/-- Room that was granted once lasts as long as the list, whatever happens to it, and no memory is
    needed to fill it. Joins and copies are among those that rely on it. -/
theorem run_reserved (past : List (Op α)) :
    let reached := (Store.empty.run past).2
    (∀ name op room, reached.Reserves name op room → ∀ ops,
      (reached.step op).2.Along (fun s op => ¬ s.Ends name op) ops →
        ((reached.step op).2.run ops).2.Ample name room) ∧
    (∀ name source list other memory roomy, reached.lists.find? name = some list →
      reached.lists.find? source = some other →
      Chain.reserve memory other.chain.length list.chain = .ok (.ok ()) roomy →
      ∀ scarce, ∃ joined left,
        Chain.moveFront scarce other.chain.length (roomy, other.chain) =
          .ok (.ok ()) (joined, left) ∧
        joined.capacity = roomy.capacity) ∧
    ∀ hook? values (hooks : HookSet α) session memory b,
      HookedList.reserve memory values.length ⟨.ofHooks hooks, session⟩ = .ok (.ok ()) b →
      ∀ scarce,
        (∀ after, HookedList.appendCopies scarce hook? values b ≠ .ok (.error .outOfMemory) after) ∧
        (ending (HookedList.appendCopies scarce hook? values b)).list.chain.capacity =
          b.list.chain.capacity := by
  intro reached
  have mirrors : reached.Mirrors _ := (run_agrees empty_mirrors past).2
  refine ⟨?_, ?_, ?_⟩
  · intro name op room reserves ops lasts
    rcases mirrors.reserves reserves with ⟨plain, there, enough⟩
    have stores := (step_agrees mirrors op).stores
    rcases stores.run_capacity there ops lasts with ⟨after, there', more⟩
    exact (run_agrees stores ops).2.ample there' (enough.trans more)
  · intro name source list other memory roomy found found' granted
    rcases mirrors.found found with ⟨plain, -, same⟩
    rcases mirrors.found found' with ⟨plain', -, same'⟩
    exact same.represents.move_reserved same'.represents granted
  · intro hook? values hooks session memory b granted
    exact HookedList.copies_reserved granted

/-- Room for four more is asked for where two values are held and a slot is vacant. A panic and a
    join later, the sixth value needs no memory. -/
theorem run_reserved_after_panic :
    let past : List (Op Value) := [
      .create "a" { free := some (Value.Freeing.policy "free" (.panicIf (.int 2))) },
      .on "a" (.insert .available .tail (.int 1)),
      .on "a" (.insert .available .tail (.int 2)),
      .on "a" (.insert .available .tail (.int 3)),
      .on "a" (.delete 0),
      .create "b" {},
      .on "b" (.insert .available .tail (.int 4))]
    let ops : List (Op Value) := [
      .on "a" .empty,
      .on "a" (.insert .exhausted .head (.int 5)),
      .on "a" .rotateTailToHead,
      .on "a" (.insert .exhausted (.before 2) (.int 6)),
      .on "a" (.insert .exhausted (.after 2) (.int 7)),
      .join "a" "b" .exhausted]
    ∃ reserved reached list, reserved = (Store.empty.run past).2.step (.on "a" (.reserve .available 4)) ∧
      reserved.1.outcome = .returned .done ∧ reached = (reserved.2.run ops).2 ∧
      reached.lists.find? "a" = some list ∧ (list.chain.length, list.chain.capacity) = (5, 8) ∧
      (∃ handle, (reached.step (.on "a" (.insert .exhausted (.after 2) (.int 8)))).1.outcome =
        .returned (.handle (some handle))) ∧
      reached.Fits "a" (.on "a" (.insert .exhausted (.after 2) (.int 8))) list := by
  intro past ops
  have granted : ((Store.empty.run past).2.step (.on "a" (.reserve .available 4))).1.outcome =
      .returned .done := by
    decide +kernel
  have lasts : ((Store.empty.run past).2.step (.on "a" (.reserve .available 4))).2.Along
      (fun s op => ¬ s.Ends "a" op) ops := ⟨id, id, id, id, id, id, trivial⟩
  have before : ((Store.empty.run past).2.lists.find? "a").map (·.chain.length) = some 2 := by
    decide +kernel
  have now : ((((Store.empty.run past).2.step (.on "a" (.reserve .available 4))).2.run ops).2.lists.find?
      "a").map (fun list => (list.chain.length, list.chain.capacity, (list.chain.node? 2).isSome)) =
        some (5, 8, true) := by
    decide +kernel
  rcases Option.map_eq_some_iff.mp before with ⟨asking, found, two⟩
  rcases Option.map_eq_some_iff.mp now with ⟨list, found', facts⟩
  simp only [Prod.mk.injEq] at facts
  rcases facts with ⟨length, capacity, live⟩
  have ample := (run_reserved past).1 "a" _ _ (.more found granted) ops lasts
  have room : list.chain.length + 1 ≤ asking.chain.length + 4 := by omega
  refine ⟨_, _, list, rfl, granted, rfl, found', by rw [length, capacity], ?_⟩
  exact ample.inserts list .exhausted (.after 2) (.int 8) found' live room

end Store

end LinkedSlots
