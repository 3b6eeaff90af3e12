import LinkedSlots.Proofs.Reservation

namespace LinkedSlots

variable {α : Type}

namespace Op

def resets (name : String) : Op α → Bool
  | .on target .empty => target == name
  | .join _ source _ => source == name
  | _ => false

/-- A list has forgotten its slots: it was emptied, or joined to another. -/
def Forgets (name : String) (report : Report α) (op : Op α) : Prop :=
  op.resets name ∧ report.outcome = .returned .done

instance (name : String) (report : Report α) (op : Op α) : Decidable (op.Forgets name report) :=
  inferInstanceAs (Decidable (_ ∧ _))

theorem not_forgets {name : String} {op : Op α} (stays : op.resets name = false)
    (report : Report α) : ¬ op.Forgets name report := by
  intro forgets
  rw [Forgets, stays] at forgets
  cases forgets.1

end Op

namespace Roster

variable {q : Roster α}

/-- A new slot is made only where all others are occupied. -/
theorem putBetween_made (counted : q.entries.length + q.vacant.length = q.made)
    {front back : List (Handle × α)} (entries : q.entries = front ++ back) (value : α) :
    let after := q.putBetween front back value
    after.entries.length + after.vacant.length = after.made ∧
      after.made = max q.made after.entries.length := by
  have held := congrArg List.length entries
  cases vacant : q.vacant with
  | nil =>
    simp only [vacant, List.length_nil, List.length_append] at counted held
    simp only [putBetween, vacant, List.length_append, List.length_cons, List.tail_nil,
      List.length_nil, if_true]
    omega
  | cons top rest =>
    simp only [vacant, List.length_cons, List.length_append] at counted held
    simp only [putBetween, vacant, List.length_append, List.length_cons, List.tail_cons,
      reduceCtorEq, if_false]
    omega

theorem pushAll_length (q : Roster α) (values : List α) :
    (q.pushAll values).entries.length = q.entries.length + values.length := by
  rw [← values_length, pushAll_values, List.length_append, values_length]

theorem pushAll_made (counted : q.entries.length + q.vacant.length = q.made) (values : List α) :
    (q.pushAll values).made = max q.made (q.pushAll values).entries.length := by
  induction values generalizing q with
  | nil =>
    rw [pushAll_nil]
    omega
  | cons value rest ih =>
    rcases putBetween_made counted (List.append_nil _).symm value with ⟨counted', made⟩
    have first : (q.push value).made = max q.made (q.push value).entries.length := made
    have length := (q.push value).pushAll_length rest
    have later : ((q.push value).pushAll rest).made = _ := ih counted'
    rw [pushAll_cons, later, first]
    omega

/-- Values that go to the back take slots off the stack from the top. -/
theorem pushAll_vacant (q : Roster α) (values : List α) :
    (q.pushAll values).vacant = q.vacant.drop values.length := by
  induction values generalizing q with
  | nil => rfl
  | cons value rest ih =>
    have first : (q.push value).vacant = q.vacant.drop 1 := List.drop_one.symm
    rw [pushAll_cons, ih, first, List.drop_drop, List.length_cons, Nat.add_comm]

end Roster

/-- Copies take new slots, one after another. -/
theorem PlainBench.appendCopies_vacant {hook? : Option (DupHook α)} {values : List α}
    {b c : PlainBench α} (made : appendCopies hook? values b = .ok (.ok ()) c)
    (full : b.list.roster.vacant = []) : c.list.roster.vacant = [] := by
  rcases b with ⟨list, s⟩
  cases hook? with
  | none =>
    rw [appendCopies_none] at made
    cases made
    show (list.roster.pushAll values).vacant = []
    rw [Roster.pushAll_vacant, full, List.drop_nil]
  | some hook =>
    induction values generalizing list s with
    | nil =>
      cases made
      exact full
    | cons value rest ih =>
      rw [appendCopies_cons] at made
      cases reply : hook.reply (s.ledger.dups.earlier hook.id) value with
      | error text =>
        rw [reply] at made
        cases made
      | ok copy? =>
        rw [reply] at made
        cases copy? with
        | none => cases made
        | some copied =>
          have still : (list.roster.push copied).vacant = [] := congrArg List.tail full
          exact ih _ _ still made

section Stored

variable [Stored α]

/-- Of slots there are as many as there were, or just enough for the values. -/
theorem Turn.made_eq {name : String} {op : Op α} {report : Report α} {q after : Roster α}
    (turn : Turn name op report q after) (proper : q.Proper) (remembers : ¬ op.Forgets name report) :
    after.made = max q.made after.entries.length := by
  have counted := proper.count
  cases turn with
  | still quiet => omega
  | widened granted =>
    have more := Roster.roomier_of_grow granted
    rw [more.made, more.entries]
    omega
  | inserted gap granted placed =>
    have more := Roster.roomier_of_reserveSlot granted
    rw [← more.entries, ← more.vacant, ← more.made] at counted
    rw [← more.made]
    exact (Roster.putBetween_made counted (more.entries.trans (Roster.entries_gap gap)) _).2
  | deleted entries =>
    rw [entries] at counted
    simp only [Roster.takeOut, List.length_append, List.length_cons] at counted ⊢
    omega
  | poppedFront entries =>
    rw [entries] at counted
    simp only [Roster.takeOut, List.nil_append, List.length_cons] at counted ⊢
    omega
  | poppedBack entries =>
    rw [entries] at counted
    simp only [Roster.takeOut, List.append_nil, List.length_append, List.length_singleton] at counted ⊢
    omega
  | emptied ended => exact (remembers ⟨beq_self_eq_true name, ended⟩).elim
  | interrupted ended =>
    simp only [Roster.dropFront, List.length_drop]
    omega
  | rewritten unturned =>
    simp only [Roster.withEntries, List.length_map]
    omega
  | rotatedTail =>
    rw [Roster.rotateTailToHead_entries]
    unfold Roster.rotateTailToHead
    rcases List.eq_nil_or_concat' q.entries with entries | ⟨front, last, entries⟩
    · simp [entries]
    · simp [entries, Roster.withEntries] at counted ⊢
      omega
  | rotatedHead =>
    rw [Roster.rotateHeadToTail_entries]
    unfold Roster.rotateHeadToTail
    cases entries : q.entries with
    | nil => simp
    | cons first rest =>
      simp [entries, Roster.withEntries] at counted ⊢
      omega
  | joined granted =>
    have more := Roster.roomier_of_grow granted
    rw [← more.entries, ← more.vacant, ← more.made] at counted
    rw [← more.made]
    exact Roster.pushAll_made counted _
  | forgotten ended => exact (remembers ⟨beq_self_eq_true name, ended⟩).elim

theorem PlainList.duplicateBy_inverts {memory : Memory} {hook? : Option (DupHook α)}
    {list copy : PlainList α} {s t : Session α}
    (made : list.duplicateBy memory hook? s = .ok (.ok copy) t) :
    ∃ room, (Roster.empty : Roster α).reserve memory list.roster.entries.length = .ok room ∧
      PlainBench.appendCopies hook? list.roster.values ⟨⟨room, list.hooks⟩, s⟩ =
        .ok (.ok ()) ⟨copy, t⟩ := by
  unfold duplicateBy at made
  cases granted : (Roster.empty : Roster α).reserve memory list.roster.entries.length with
  | error shortage =>
    rw [granted] at made
    cases made
  | ok room =>
    rw [granted] at made
    dsimp only at made
    refine ⟨room, rfl, ?_⟩
    rcases run : PlainBench.appendCopies hook? list.roster.values ⟨⟨room, list.hooks⟩, s⟩ with
      ⟨e | done, b⟩ | ⟨panic, b⟩
    · rw [run] at made
      simp only [bind_apply] at made
      cases dropped : b.list.drop b.session <;> rw [dropped] at made <;> cases made
    · rw [run] at made
      cases made
      rfl
    · rw [run] at made
      simp only [bind_apply] at made
      cases dropped : b.list.dropUnwinding b.session <;> rw [dropped] at made <;> cases made

structure Roster.Innate (P : Roster α → Prop) : Prop where
  empty : P .empty
  roomy : ∀ memory count grown, (Roster.empty : Roster α).reserve memory count = .ok grown → P grown
  copied : ∀ memory hook? (list : PlainList α) copy s t,
    list.duplicateBy memory hook? s = .ok (.ok copy) t → P copy.roster

/-- A list that was just made has no vacant slot. -/
theorem Roster.innate_vacant : Innate (fun q : Roster α => q.vacant = []) := by
  constructor
  case empty => rfl
  case roomy =>
    intro memory count grown granted
    exact (Roster.roomier_of_grow granted).vacant
  case copied =>
    intro memory hook? list copy s t made
    rcases PlainList.duplicateBy_inverts made with ⟨room, granted, run⟩
    exact PlainBench.appendCopies_vacant run (Roster.roomier_of_grow granted).vacant

theorem Roster.capacity_lt_of_grow {q grown : Roster α} {memory : Memory} {count : Nat}
    (small : q.capacity < Stored.roomLimit α) (granted : q.grow memory count = .ok grown) :
    grown.capacity < Stored.roomLimit α := by
  unfold grow at granted
  split at granted
  · cases granted
    exact small
  · split at granted
    · cases granted
    · next less =>
      split at granted
      · cases granted
      · cases granted
        exact Nat.lt_of_not_le less

/-- A list whose values have room leaves its copy some, where there is memory. -/
theorem Roster.Proper.copy_room {q : Roster α} (proper : q.Proper)
    (small : q.capacity < Stored.roomLimit α) :
    ∃ room, (Roster.empty : Roster α).reserve .available q.entries.length = .ok room := by
  have counted := proper.count
  have fits := proper.fits
  have limit : 4 < Stored.roomLimit α := Stored.four_lt_roomLimit
  rw [proper_empty.reserve_eq]
  dsimp only
  split
  · exact ⟨_, rfl⟩
  · split
    · next large =>
      simp only [Roster.empty, List.length_nil, Nat.zero_add] at large
      omega
    · exact ⟨_, rfl⟩

theorem Roster.innate_limited : Innate (fun q : Roster α => q.capacity < Stored.roomLimit α) := by
  have small : (Roster.empty : Roster α).capacity < Stored.roomLimit α := by
    have limit : 4 < Stored.roomLimit α := Stored.four_lt_roomLimit
    show 0 < Stored.roomLimit α
    omega
  constructor
  case empty => exact small
  case roomy =>
    intro memory count grown granted
    exact capacity_lt_of_grow small granted
  case copied =>
    intro memory hook? list copy s t made
    rcases PlainList.duplicateBy_inverts made with ⟨room, granted, run⟩
    have kept := PlainBench.appendCopies_capacity hook? list.roster.values ⟨⟨room, list.hooks⟩, s⟩
    rw [run] at kept
    have same : copy.roster.capacity = room.capacity := kept
    rw [same]
    exact capacity_lt_of_grow small granted

theorem Turn.capacity_lt {name : String} {op : Op α} {report : Report α} {q after : Roster α}
    (turn : Turn name op report q after) (small : q.capacity < Stored.roomLimit α) :
    after.capacity < Stored.roomLimit α := by
  cases turn with
  | widened granted => exact Roster.capacity_lt_of_grow small granted
  | @inserted _ _ grown _ _ _ _ _ gap granted placed =>
    show grown.capacity < Stored.roomLimit α
    unfold Roster.reserveSlot at granted
    split at granted
    · exact Roster.capacity_lt_of_grow small granted
    · cases granted
      exact small
  | rotatedTail =>
    unfold Roster.rotateTailToHead
    cases q.entries.getLast? <;> exact small
  | rotatedHead =>
    unfold Roster.rotateHeadToTail
    cases q.entries <;> exact small
  | joined granted =>
    rw [Roster.pushAll_capacity]
    exact Roster.capacity_lt_of_grow small granted
  | _ => exact small

def PlainStore.Limited (p : PlainStore α) : Prop :=
  ∀ name list, p.lists.find? name = some list → list.roster.capacity < Stored.roomLimit α

end Stored

namespace PlainStore

variable {p : PlainStore α} {name : String} {after : PlainList α} {P : Roster α → Prop}

theorem keep_makes {made : EStateM.Result Panic (Session α) (Except ListError (PlainList α))}
    (makes : Makes made) (innate : ∀ list t, made = .ok (.ok list) t → P list.roster)
    (there : (p.keep name made).2.lists.find? name = some after) : P after.roster := by
  rcases makes with ⟨list, t, rfl⟩
  have stored : (p.keep name (.ok (.ok list) t)).2.lists = p.lists.put name list := replace_lists list t
  rw [stored, Registry.find?_put_self] at there
  cases there
  exact innate _ t rfl

theorem retire_gone {act : PlainList α → Act (Session α) (Answer α)} :
    (p.retire name act).2.lists.find? name = none := by
  unfold retire
  cases found : p.lists.find? name with
  | none => exact found
  | some list =>
    dsimp only
    rw [conclude_lists]
    exact p.lists.find?_erase_self name

theorem duplicate_makes {source : String}
    {copy : PlainList α → Act (Session α) (Except ListError (PlainList α))}
    (makes : ∃ list, p.lists.find? source = some list ∧ Makes (copy list p.session))
    (innate : ∀ list made t, copy list p.session = .ok (.ok made) t → P made.roster)
    (there : (p.duplicate source name copy).2.lists.find? name = some after) : P after.roster := by
  rcases makes with ⟨list, found, makes⟩
  unfold duplicate at there
  rw [found] at there
  exact keep_makes makes (innate list) there

variable [BEq α] [Outlined α] [Stored α] {op : Op α}

/-- A list comes into being by an operation that makes it. -/
theorem step_absent (absent : p.lists.find? name = none) (unmade : ¬ p.Ends name op) :
    (p.step op).2.lists.find? name = none := by
  cases op with
  | create target policies =>
    show (p.replace target _ _).2.lists.find? name = none
    rw [replace_lists, p.lists.find?_put_of_ne _ (Ne.symm unmade), absent]
  | createWithRoom target memory count => exact (keep_other unmade).trans absent
  | on target listOp =>
    cases found : p.lists.find? target with
    | none =>
      rw [step_on_absent found]
      exact absent
    | some list =>
      rw [step_reported found]
      exact Registry.find?_put_absent absent found _
  | shareHooks target source =>
    rcases p.pair_cases target source with refused | ⟨first, other, -, found, -, act⟩
    · show (p.pair target source _).2.lists.find? name = none
      rw [refused]
      exact absent
    · show (p.pair target source _).2.lists.find? name = none
      rw [act, conclude_lists]
      exact Registry.find?_put_absent absent found _
  | join target source memory =>
    rcases p.pair_cases target source with refused | ⟨list, other, ne, found, found', -⟩
    · show (p.pair target source _).2.lists.find? name = none
      rw [refused]
      exact absent
    · have put (joined : PlainList α) (left : PlainList α) :
          ((p.lists.put target joined).put source left).find? name = none := by
        have second := (p.lists.find?_put_of_ne joined (Ne.symm ne)).trans found'
        exact Registry.find?_put_absent (Registry.find?_put_absent absent found joined) second left
      rw [join_ends ne found found']
      cases list.roster.reserve memory other.roster.entries.length with
      | ok grown =>
        rw [conclude_lists]
        exact put ..
      | error shortage =>
        rw [conclude_lists]
        exact put ..
  | duplicate source target memory => exact (duplicate_other unmade).trans absent
  | duplicateWithHook source target memory => exact (duplicate_other unmade).trans absent
  | walkTaking target steps => exact (retire_other unmade).trans absent
  | release target => exact (retire_other unmade).trans absent
  | drop target => exact (retire_other unmade).trans absent

theorem step_made (innate : Roster.Innate P) (makes : p.Ends name op)
    (there : (p.step op).2.lists.find? name = some after) : P after.roster := by
  cases op with
  | create target policies =>
    cases makes
    have stored : (p.step (.create name policies)).2.lists.find? name =
        some ⟨.empty, (p.ledger.enrollAll policies).1⟩ := by
      show (p.replace name _ _).2.lists.find? name = _
      rw [replace_lists]
      exact p.lists.find?_put_self name _
    rw [stored] at there
    cases there
    exact innate.empty
  | createWithRoom target memory count =>
    rcases makes with ⟨rfl, makes⟩
    refine keep_makes makes ?_ there
    intro list t run
    unfold PlainList.withRoom at run
    cases granted : (Roster.empty : Roster α).reserve memory count with
    | ok grown =>
      rw [granted] at run
      cases run
      exact innate.roomy memory count grown granted
    | error shortage =>
      rw [granted] at run
      cases run
  | duplicate source target memory =>
    rcases makes with ⟨rfl, makes⟩
    exact duplicate_makes makes (fun _ _ _ made => innate.copied _ _ _ _ _ _ made) there
  | duplicateWithHook source target memory =>
    rcases makes with ⟨rfl, makes⟩
    refine duplicate_makes makes ?_ there
    intro list made t run
    unfold PlainList.duplicateWithHook at run
    cases installed : list.hooks.dup with
    | none =>
      rw [installed] at run
      cases run
    | some hook =>
      rw [installed] at run
      exact innate.copied _ _ _ _ _ _ run
  | walkTaking target steps =>
    cases makes
    cases retire_gone.symm.trans there
  | release target =>
    cases makes
    cases retire_gone.symm.trans there
  | drop target =>
    cases makes
    cases retire_gone.symm.trans there
  | on target listOp => exact makes.elim
  | shareHooks target source => exact makes.elim
  | join target source memory => exact makes.elim

/-- A list that has forgotten its slots has no vacant slot. -/
theorem step_forgotten (forgets : op.Forgets name (p.step op).1)
    (there : (p.step op).2.lists.find? name = some after) : after.roster.vacant = [] := by
  rcases forgets with ⟨resets, ended⟩
  cases op with
  | on target listOp =>
    cases listOp with
    | empty =>
      rcases (beq_iff_eq.mp resets : target = name) with rfl
      cases found : p.lists.find? target with
      | none =>
        rw [step_on_absent found] at ended
        cases ended
      | some list =>
        rw [empty_ends found] at ended there
        cases freeing : Session.freeAll list.hooks.free list.roster.values
            (p.session.noted (.emptying list.roster.entries.length)) with
        | ok done t =>
          rw [freeing] at there
          have stored := p.lists.find?_put_self target ⟨list.roster.reset, list.hooks⟩
          cases stored.symm.trans there
          rfl
        | error panic t =>
          rw [freeing] at ended
          cases ended
    | _ => cases resets
  | join target source memory =>
    rcases (beq_iff_eq.mp resets : source = name) with rfl
    rcases p.pair_cases target source with refused | ⟨list, other, ne, found, found', -⟩
    · have step : p.step (.join target source memory) = p.refuse := refused _
      rw [step] at ended
      cases ended
    · have step := join_ends ne found found' memory
      cases granted : list.roster.reserve memory other.roster.entries.length with
      | ok grown =>
        rw [granted] at step
        rw [step, conclude_lists, Registry.find?_put_self] at there
        cases there
        rfl
      | error shortage =>
        rw [granted] at step
        rw [step] at ended
        cases ended
  | _ => cases resets

end PlainStore

namespace Store

variable {s : Store α} {p : PlainStore α} [BEq α] [Outlined α] [Stored α]

theorem Mirrors.step_limited (mirrors : s.Mirrors p) (limited : p.Limited) (op : Op α) :
    (p.step op).2.Limited := by
  intro name after stored
  by_cases ends : s.Ends name op
  · exact PlainStore.step_made Roster.innate_limited ((mirrors.ends_iff name op).mp ends) stored
  · cases there : p.lists.find? name with
    | none =>
      rw [mirrors.ends_iff] at ends
      rw [PlainStore.step_absent there ends] at stored
      cases stored
    | some plain =>
      rcases mirrors.lasts there ends with ⟨next, also, turn⟩
      cases also.symm.trans stored
      exact turn.capacity_lt (limited name plain there)

theorem Mirrors.run_limited (mirrors : s.Mirrors p) (limited : p.Limited) (ops : List (Op α)) :
    (p.run ops).2.Limited := by
  induction ops generalizing s p with
  | nil => exact limited
  | cons op ops ih => exact ih (step_agrees mirrors op).stores (mirrors.step_limited limited op)

end Store

end LinkedSlots
