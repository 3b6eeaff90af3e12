import LinkedSlots.Proofs.Copies
import LinkedSlots.Proofs.StoreSettling

namespace LinkedSlots

variable {α : Type}

def Op.Copies (source name : String) (op : Op α) : Prop :=
  ∃ memory, op = .duplicate source name memory ∨ op = .duplicateWithHook source name memory

namespace Moment

variable {m : Moment α} {source name : String}

theorem copies_of (copies : m.op.Copies source name) :
    m.inserted = [] ∧ m.copied = m.copies source ∧ m.returned = [] ∧ m.skipped = [] := by
  rcases m with ⟨before, op, report⟩
  rcases copies with ⟨memory, rfl | rfl⟩
  · exact ⟨rfl, rfl, rfl, rfl⟩
  · exact ⟨rfl, rfl, rfl, rfl⟩

theorem givenUp_done (copies : m.op.Copies source name) (done : m.report.outcome = .returned .done) :
    m.givenUp = (name, m.before.held name) := by
  rcases m with ⟨before, op, ⟨outcome, calls, log⟩⟩
  rcases done with rfl
  rcases copies with ⟨memory, rfl | rfl⟩
  · rfl
  · rfl

theorem givenUp_failed (copies : m.op.Copies source name)
    (failed : m.report.outcome ≠ .returned .done) : m.givenUp = (source, m.copies source) := by
  rcases m with ⟨before, op, ⟨outcome, calls, log⟩⟩
  rcases copies with ⟨memory, rfl | rfl⟩
  · cases outcome with
    | returned answer => cases answer <;> first | exact (failed rfl).elim | rfl
    | panicked panic => rfl
    | noList => rfl
  · cases outcome with
    | returned answer => cases answer <;> first | exact (failed rfl).elim | rfl
    | panicked panic => rfl
    | noList => rfl

theorem copies_done (unhooked : (m.before.hooks source).dup = none)
    (done : m.report.outcome = .returned .done) : m.copies source = m.before.held source := by
  unfold copies
  rw [unhooked, done]

theorem copies_failed (unhooked : (m.before.hooks source).dup = none)
    (failed : m.report.outcome ≠ .returned .done) : m.copies source = [] := by
  unfold copies
  rw [unhooked]
  split
  · contradiction
  · contradiction
  · rfl

end Moment

namespace PlainStore

variable {p : PlainStore α} {name source : String} {list : PlainList α} {m : Moment α}

/-- A finished copy replaces the list that had its name. -/
theorem settles_copied (sorted : p.lists.Sorted) (before : m.before = p.view)
    (copies : m.op.Copies source name) (done : m.report.outcome = .returned .done)
    (values : m.copies source = list.roster.values)
    (calls : m.report.calls.filter Call.isFree =
      freeCalls (p.view.hooks name).free (p.view.held name)) :
    m.Settles p.live ((p.lists.put name list).total PlainList.goods) := by
  rcases Moment.copies_of copies with ⟨inserted, copied, returned, skipped⟩
  have givenUp := Moment.givenUp_done copies done
  rw [before] at givenUp
  exact settles_replaced sorted before inserted (copied.trans values) returned skipped givenUp calls

/-- An unfinished copy gives its values up at once. -/
theorem settles_unfinished {values : List α} (before : m.before = p.view)
    (copies : m.op.Copies source name) (failed : m.report.outcome ≠ .returned .done)
    (made : m.copies source = values)
    (calls : m.report.calls.filter Call.isFree = freeCalls (p.view.hooks source).free values)
    (holds : values ≠ [] → p.view.held source ≠ []) : m.Settles p.live p.live := by
  rcases Moment.copies_of copies with ⟨inserted, copied, returned, skipped⟩
  have givenUp := Moment.givenUp_failed copies failed
  constructor
  · rw [inserted, copied, returned, skipped, givenUp]
    simp
  · unfold Moment.disposals
    rw [givenUp, before, made, calls]
  · rw [givenUp, before, made]
    exact holds

theorem copies_asked {op : Op α} {hook : DupHook α} (found : p.lists.find? source = some list)
    (installed : list.hooks.dup = some hook) {report : Report α} {asked freed : List α}
    {free? : Option (FreeHook α)}
    (calls : report.calls = asked.map (Call.dup hook.id hook.label) ++ freeCalls free? freed) :
    (⟨p.view, op, report⟩ : Moment α).copies source =
      hook.copies (p.ledger.dups.earlier hook.id) asked := by
  unfold Moment.copies
  rw [hooks_found found, installed, calls, copyCalls_asked]
  rfl

variable [BEq α] [Outlined α] [Stored α] {op : Op α} {memory : Memory}

theorem hookCopy_settled {hook : DupHook α} (sorted : p.lists.Sorted)
    (copies : op.Copies source name) (found : p.lists.find? source = some list)
    (installed : list.hooks.dup = some hook)
    (step : p.step op = p.keep name (list.duplicateBy memory (some hook) p.session))
    (calm : (p.moment op).Calm) : p.Settled op := by
  have quiet := quiet_of calm step
  rcases list.duplicateBy_some memory p.session hook with
    ⟨copy, asked, t, made, values, calls⟩ | ⟨e, asked, t, made, began, calls⟩ | ⟨panic, t, made, loud⟩
  · rw [made] at step quiet
    rcases replace_ends name copy t quiet with ⟨log, ledger, ended⟩
    replace calls : t.calls = asked.map (Call.dup hook.id hook.label) := calls
    rw [calls] at ended
    apply settled_of (step.trans ended)
    apply settles_copied sorted rfl copies rfl
    · exact (copies_asked found installed rfl).trans values.symm
    · exact copyCalls_free _ hook asked _
  · rw [made] at step
    replace step : p.step op = (⟨.returned (.failed e), t.calls, t.log⟩, ⟨p.lists, t.ledger⟩) := step
    replace calls : t.calls = asked.map (Call.dup hook.id hook.label) ++
      freeCalls list.hooks.free (hook.copies (p.ledger.dups.earlier hook.id) asked) := calls
    rw [calls] at step
    apply settled_of step
    apply settles_unfinished rfl copies (by simp) (copies_asked found installed rfl)
    · rw [hooks_found found]
      exact copyCalls_free _ hook asked _
    · intro made
      rw [held_found found]
      apply began
      intro unasked
      rw [unasked] at made
      exact made rfl
  · rw [made] at quiet
    exact (loud quiet).elim

/-- What fails without a dup hook has copied nothing. -/
theorem failed_settled {outcome : Outcome α} {log : List LogEntry} {ledger : Ledger α}
    (copies : op.Copies source name) (unhooked : (p.view.hooks source).dup = none)
    (failed : outcome ≠ .returned .done)
    (step : p.step op = (⟨outcome, [], log⟩, ⟨p.lists, ledger⟩)) : p.Settled op := by
  apply settled_of step
  apply settles_unfinished rfl copies failed (Moment.copies_failed unhooked failed)
  · exact (freeCalls_nil _).symm
  · exact fun gives => (gives rfl).elim

theorem duplicate_settled (sorted : p.lists.Sorted) (source name : String) (memory : Memory)
    (calm : (p.moment (.duplicate source name memory)).Calm) :
    p.Settled (.duplicate source name memory) := by
  have copies : (Op.duplicate source name memory : Op α).Copies source name := ⟨memory, .inl rfl⟩
  cases found : p.lists.find? source with
  | none =>
    have step : p.step (.duplicate source name memory) = p.refuse := by
      show p.duplicate source name _ = _
      unfold duplicate
      rw [found]
    exact failed_settled copies (by rw [hooks_absent found]) (by simp) step
  | some list =>
    have step : p.step (.duplicate source name memory) = _ := duplicate_ends found memory
    cases dup : list.hooks.dup with
    | some hook =>
      rw [dup] at step
      exact hookCopy_settled sorted copies found dup step calm
    | none =>
      have unhooked : (p.view.hooks source).dup = none := by rw [hooks_found found, dup]
      rw [dup, PlainList.duplicateBy_none] at step
      cases room : (Roster.empty : Roster α).reserve memory list.roster.entries.length with
      | error shortage =>
        rw [room] at step
        exact failed_settled copies unhooked (by simp) step
      | ok grown =>
        rw [room] at step
        have quiet := quiet_of calm step
        rcases replace_ends _ _ _ quiet with ⟨log, ledger, ended⟩
        apply settled_of (step.trans ended)
        apply settles_copied sorted rfl copies rfl
        · rw [Roster.pushAll_values, Roster.values_of_reserve room]
          exact (Moment.copies_done unhooked rfl).trans (held_found found)
        · exact freeCalls_filter _ _

theorem duplicateWithHook_settled (sorted : p.lists.Sorted) (source name : String)
    (memory : Memory) (calm : (p.moment (.duplicateWithHook source name memory)).Calm) :
    p.Settled (.duplicateWithHook source name memory) := by
  have copies : (Op.duplicateWithHook source name memory : Op α).Copies source name :=
    ⟨memory, .inr rfl⟩
  cases found : p.lists.find? source with
  | none =>
    have step : p.step (.duplicateWithHook source name memory) = p.refuse := by
      show p.duplicate source name _ = _
      unfold duplicate
      rw [found]
    exact failed_settled copies (by rw [hooks_absent found]) (by simp) step
  | some list =>
    cases dup : list.hooks.dup with
    | some hook =>
      exact hookCopy_settled sorted copies found dup (duplicateWithHook_ends found dup memory) calm
    | none =>
      have unhooked : (p.view.hooks source).dup = none := by rw [hooks_found found, dup]
      exact failed_settled copies unhooked (by simp) (duplicateWithHook_unhooked found dup memory)

end PlainStore

end LinkedSlots
