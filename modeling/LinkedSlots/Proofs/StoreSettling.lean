import LinkedSlots.Proofs.Settling

namespace LinkedSlots

variable {α : Type}

structure Moment.Settles (m : Moment α) (before after : Multiset α) : Prop where
  balance : before + (m.inserted + m.copied) = after + (m.returned + m.skipped + m.givenUp.2)
  calls : m.report.calls.filter Call.isFree = m.disposals
  holds : m.givenUp.2 ≠ [] → m.before.held m.givenUp.1 ≠ []

theorem Moment.Calm.installed {m : Moment α} (calm : m.Calm) {name : String}
    (holds : m.before.held name ≠ []) : (m.before.hooks name).free.isSome := by
  unfold View.held View.hooks View.shown at *
  cases found : m.before.lists.find? name with
  | none =>
    rw [found] at holds
    exact (holds rfl).elim
  | some shown =>
    rw [found] at holds
    have nonempty : shown.entries ≠ [] := fun empty => holds (congrArg (List.map Prod.snd) empty)
    exact calm.guarded (name, shown) (Registry.mem_of_find? found) nonempty

/-- An empty list has nothing to give up. -/
theorem ListOp.givenUp_empty (op : ListOp α) {v : View α} {name : String}
    (empty : v.held name = []) : op.givenUp (v.held name) (v.stored name) = [] := by
  have entries : (v.shown name).entries = [] := List.map_eq_nil_iff.mp empty
  have stored : v.stored name = fun _ => none := by
    funext handle
    unfold View.stored
    rw [entries]
    rfl
  rw [empty, stored]
  cases op <;> rfl

/-- Where nothing moves, nothing may have been freed either. -/
theorem Moment.Settles.unmoved {m : Moment α} (inserted : m.inserted = []) (copied : m.copied = [])
    (returned : m.returned = []) (skipped : m.skipped = []) (givenUp : m.givenUp.2 = [])
    (calls : m.report.calls.filter Call.isFree = []) {before after : Multiset α}
    (same : after = before) : m.Settles before after := by
  constructor
  · rw [inserted, copied, returned, skipped, givenUp, same]
    simp
  · unfold disposals
    rw [givenUp, freeCalls_nil, calls]
  · exact fun holds => (holds givenUp).elim

/-- What a list gains and gives away is what all lists gain and give away. -/
theorem transfer {live after held new gained lost : Multiset α} (put : after + held = live + new)
    (moved : held + gained = new + lost) : live + gained = after + lost := by
  apply add_right_cancel (b := held)
  calc
    live + gained + held = live + (held + gained) := by abel
    _ = live + new + lost := by rw [moved, add_assoc]
    _ = after + held + lost := by rw [put]
    _ = after + lost + held := by abel

def PlainList.goods (list : PlainList α) : Multiset α := list.roster.values

def PlainList.shown (list : PlainList α) : Shown α := ⟨list.hooks, list.roster.entries⟩

namespace PlainStore

variable {p : PlainStore α} {name source : String} {list other : PlainList α}

def view (p : PlainStore α) : View α := ⟨p.lists.map PlainList.shown, p.ledger⟩

def live (p : PlainStore α) : Multiset α := p.lists.total PlainList.goods

theorem view_live (p : PlainStore α) : p.view.live = p.live := Registry.total_map _ _ _

section View

variable (found : p.lists.find? name = some list)

include found

theorem shown_found : p.view.shown name = list.shown := by
  unfold View.shown view
  rw [Registry.find?_map, found]
  rfl

theorem held_found : p.view.held name = list.roster.values := by
  unfold View.held
  rw [shown_found found]
  rfl

theorem hooks_found : p.view.hooks name = list.hooks := by
  unfold View.hooks
  rw [shown_found found]
  rfl

theorem stored_found : p.view.stored name = list.roster.get? := by
  funext handle
  unfold View.stored
  rw [shown_found found]
  rfl

end View

theorem shown_absent (absent : p.lists.find? name = none) : p.view.shown name = ⟨{}, []⟩ := by
  unfold View.shown view
  rw [Registry.find?_map, absent]
  rfl

theorem hooks_absent (absent : p.lists.find? name = none) : p.view.hooks name = {} := by
  unfold View.hooks
  rw [shown_absent absent]

theorem held_absent (absent : p.lists.find? name = none) : p.view.held name = [] := by
  unfold View.held
  rw [shown_absent absent]
  rfl

theorem amountAt_goods (p : PlainStore α) (name : String) :
    p.lists.amountAt PlainList.goods name = p.view.held name := by
  unfold Registry.amountAt
  cases found : p.lists.find? name with
  | none => rw [held_absent found]; rfl
  | some list => rw [held_found found]; rfl

theorem put_live (sorted : p.lists.Sorted) (name : String) (list : PlainList α) :
    (p.lists.put name list).total PlainList.goods + p.view.held name =
      p.live + list.roster.values := by
  rw [← amountAt_goods]
  exact Registry.total_put _ sorted name list

theorem erase_live (sorted : p.lists.Sorted) (name : String) :
    (p.lists.erase name).total PlainList.goods + p.view.held name = p.live := by
  rw [← amountAt_goods]
  exact Registry.total_erase _ sorted name

theorem put_live_same (sorted : p.lists.Sorted) (found : p.lists.find? name = some list)
    (same : other.roster.values = list.roster.values) :
    (p.lists.put name other).total PlainList.goods = p.live := by
  have put := put_live sorted name other
  rw [held_found found, same] at put
  exact add_right_cancel put

/-- A list that was stored under a name, and the one that had the name before and was dropped. -/
theorem replace_ends (name : String) (list : PlainList α) (session : Session α)
    (quiet : (p.replace name list session).1.outcome.Calm) :
    ∃ log ledger, p.replace name list session =
      (⟨.returned .done,
        session.calls ++ freeCalls (p.view.hooks name).free (p.view.held name), log⟩,
        ⟨p.lists.put name list, ledger⟩) := by
  unfold replace at quiet ⊢
  cases found : p.lists.find? name with
  | none =>
    rw [held_absent found, freeCalls_nil, List.append_nil]
    exact ⟨_, _, rfl⟩
  | some old =>
    rw [found] at quiet
    rw [held_found found, hooks_found found]
    simp only [bind_apply, PlainList.drop] at quiet ⊢
    rcases Session.freeAll_cases old.hooks.free old.roster.values session with
      ⟨t, called, freed⟩ | ⟨text, t, _, _, _, called, -⟩
    · rw [called, ← freed.calls]
      exact ⟨_, _, rfl⟩
    · rw [called] at quiet
      exact quiet.elim

theorem settles_replaced {m : Moment α} (sorted : p.lists.Sorted) (before : m.before = p.view)
    (inserted : m.inserted = []) (copied : m.copied = list.roster.values)
    (returned : m.returned = []) (skipped : m.skipped = [])
    (givenUp : m.givenUp = (name, p.view.held name))
    (calls : m.report.calls.filter Call.isFree =
      freeCalls (p.view.hooks name).free (p.view.held name)) :
    m.Settles p.live ((p.lists.put name list).total PlainList.goods) := by
  constructor
  · rw [inserted, copied, returned, skipped, givenUp]
    simpa using (put_live sorted name list).symm
  · unfold Moment.disposals
    rw [givenUp, before, calls]
  · rw [givenUp, before]
    exact id

theorem pair_cases (p : PlainStore α) (name source : String) :
    (∀ act, p.pair name source act = p.refuse) ∨
      ∃ list other, name ≠ source ∧ p.lists.find? name = some list ∧
        p.lists.find? source = some other ∧ ∀ act, p.pair name source act = act list other := by
  unfold pair
  by_cases same : name = source
  · left
    intro act
    rw [if_pos same]
  · cases p.lists.find? name with
    | none =>
      left
      intro act
      rw [if_neg same]
    | some list =>
      cases p.lists.find? source with
      | none =>
        left
        intro act
        rw [if_neg same]
      | some other =>
        right
        refine ⟨list, other, same, rfl, rfl, ?_⟩
        intro act
        rw [if_neg same]

variable [BEq α] [Outlined α] [Stored α]

def moment (p : PlainStore α) (op : Op α) : Moment α := ⟨p.view, op, (p.step op).1⟩

def Settled (p : PlainStore α) (op : Op α) : Prop :=
  (p.moment op).Settles p.live (p.step op).2.live

theorem settled_of {op : Op α} {report : Report α} {q : PlainStore α}
    (step : p.step op = (report, q))
    (settles : (⟨p.view, op, report⟩ : Moment α).Settles p.live q.live) : p.Settled op := by
  unfold Settled moment
  rw [step]
  exact settles

theorem quiet_of {op : Op α} {ended : Report α × PlainStore α} (calm : (p.moment op).Calm)
    (step : p.step op = ended) : ended.1.outcome.Calm := by
  rw [← step]
  exact calm.quiet

theorem on_settled (sorted : p.lists.Sorted)
    (proper : ∀ list, p.lists.find? name = some list → list.roster.Proper) (op : ListOp α)
    (calm : (p.moment (.on name op)).Calm) : p.Settled (.on name op) := by
  cases found : p.lists.find? name with
  | none =>
    apply settled_of (step_on_absent found op)
    refine .unmoved ?_ rfl ?_ rfl ?_ rfl rfl
    · cases op <;> rfl
    · cases op <;> rfl
    · exact op.givenUp_empty (held_absent found)
  | some list =>
    have step : p.step (.on name op) =
        let run := PlainBench.perform op ⟨list, p.session⟩
        (⟨.of run, (ending run).session.calls, (ending run).session.log⟩,
          ⟨p.lists.put name (ending run).list, (ending run).session.ledger⟩) := by
      rw [step_on found]
      cases PlainBench.perform op ⟨list, p.session⟩ <;> rfl
    have guarded : list.roster.entries ≠ [] → list.hooks.free.isSome := by
      intro nonempty
      rw [← hooks_found found]
      apply calm.installed
      show p.view.held name ≠ []
      rw [held_found found]
      exact fun empty => nonempty (List.map_eq_nil_iff.mp empty)
    have quiet := quiet_of calm step
    have kept := calm.kept
    unfold moment at kept
    rw [step] at kept
    have settles := op.settles (s := p.session) rfl (proper list found) guarded quiet kept
    apply settled_of step
    constructor
    -- Only this list is stored anew, so its own balance is the balance of all lists.
    · have put := put_live sorted name (ending (PlainBench.perform op ⟨list, p.session⟩)).list
      rw [held_found found] at put
      have moved := Multiset.coe_eq_coe.mpr settles.balance
      simp only [← Multiset.coe_add, add_assoc] at moved
      have balance := transfer put moved
      show p.live + (op.inserted _ + _) = _ + (op.returned _ + _ + op.givenUp _ _)
      rw [held_found found, stored_found found]
      simpa [Moment.copied, Moment.skipped, live, add_assoc] using balance
    · show _ = freeCalls (p.view.hooks name).free (op.givenUp _ _)
      rw [hooks_found found, held_found found, stored_found found]
      exact settles.calls
    · intro gives empty
      exact gives (op.givenUp_empty empty)

theorem create_settled (sorted : p.lists.Sorted) (name : String) (policies : PolicySet α)
    (calm : (p.moment (.create name policies)).Calm) : p.Settled (.create name policies) := by
  have step : p.step (.create name policies) =
      p.replace name ⟨.empty, (p.ledger.enrollAll policies).1⟩
        { ledger := (p.ledger.enrollAll policies).2 } := rfl
  have quiet := quiet_of calm step
  rcases replace_ends _ _ _ quiet with ⟨log, ledger, ended⟩
  apply settled_of (step.trans ended)
  exact settles_replaced sorted rfl rfl rfl rfl rfl rfl (freeCalls_filter _ _)

theorem createWithRoom_settled (sorted : p.lists.Sorted) (name : String) (memory : Memory)
    (count : Nat) (calm : (p.moment (.createWithRoom name memory count)).Calm) :
    p.Settled (.createWithRoom name memory count) := by
  cases room : (Roster.empty : Roster α).reserve memory count with
  | error shortage =>
    have step : p.step (.createWithRoom name memory count) =
        conclude p.lists (.ok (.failed .outOfMemory) (p.session.noted (.allocationFailed shortage))) := by
      show p.keep name (PlainList.withRoom memory count p.session) = _
      unfold PlainList.withRoom
      rw [room]
      rfl
    apply settled_of step
    exact .unmoved rfl rfl rfl rfl rfl rfl rfl
  | ok grown =>
    have step : p.step (.createWithRoom name memory count) =
        p.replace name ⟨grown, {}⟩ p.session := by
      show p.keep name (PlainList.withRoom memory count p.session) = _
      unfold PlainList.withRoom
      rw [room]
      rfl
    have nothing : grown.values = [] := Roster.values_of_reserve room
    have quiet := quiet_of calm step
    rcases replace_ends _ _ _ quiet with ⟨log, ledger, ended⟩
    apply settled_of (step.trans ended)
    exact settles_replaced sorted rfl rfl nothing.symm rfl rfl rfl (freeCalls_filter _ _)

theorem shareHooks_settled (sorted : p.lists.Sorted) (name source : String) :
    p.Settled (.shareHooks name source) := by
  rcases p.pair_cases name source with refused | ⟨list, other, -, found, -, paired⟩
  · have step : p.step (.shareHooks name source) = p.refuse := refused _
    apply settled_of step
    exact .unmoved rfl rfl rfl rfl rfl rfl rfl
  · have step : p.step (.shareHooks name source) =
        conclude (p.lists.put name { list with hooks := other.hooks }) (.ok .done p.session) :=
      paired _
    apply settled_of step
    exact .unmoved rfl rfl rfl rfl rfl rfl (put_live_same sorted found rfl)

/-- What the source gives, the list gets. -/
theorem join_settled (sorted : p.lists.Sorted) (name source : String) (memory : Memory) :
    p.Settled (.join name source memory) := by
  rcases p.pair_cases name source with refused | ⟨list, other, ne, found, found', -⟩
  · have step : p.step (.join name source memory) = p.refuse := refused _
    apply settled_of step
    exact .unmoved rfl rfl rfl rfl rfl rfl rfl
  have step := join_ends ne found found' memory
  have behind (new : PlainList α) : (p.lists.put name new).find? source = some other := by
    rw [Registry.find?_put_of_ne _ _ (Ne.symm ne), found']
  cases room : list.roster.reserve memory other.roster.entries.length with
  | error shortage =>
    rw [room] at step
    apply settled_of step
    refine .unmoved rfl rfl rfl rfl rfl rfl ?_
    have first := put_live_same sorted found (rfl : list.roster.values = _)
    have second := put_live_same (p := ⟨p.lists.put name list, p.ledger⟩) (sorted.put name list)
      (behind list) (rfl : other.roster.values = _)
    exact second.trans first
  | ok grown =>
    rw [room] at step
    apply settled_of step
    refine .unmoved rfl rfl rfl rfl rfl rfl ?_
    let joined : PlainList α := ⟨grown.pushAll other.roster.values, list.hooks⟩
    have values : joined.roster.values = list.roster.values ++ other.roster.values := by
      rw [Roster.pushAll_values, Roster.values_of_reserve room]
    -- The values are counted twice after the first list is stored, and once after the second.
    have first := put_live sorted name joined
    have second := put_live (p := ⟨p.lists.put name joined, p.ledger⟩) (sorted.put name joined) source
      ⟨other.roster.reset, other.hooks⟩
    rw [held_found found, values, ← Multiset.coe_add, ← add_assoc, add_right_comm] at first
    have moved := add_right_cancel first
    rw [held_found (behind joined)] at second
    have left : ((other.roster.reset.values : List α) : Multiset α) = 0 := rfl
    rw [left, add_zero] at second
    exact add_right_cancel (second.trans moved)

end PlainStore

end LinkedSlots
