import LinkedSlots.Proofs.Stability
import Mathlib

namespace LinkedSlots

variable {α : Type}

def Hook.Rejects (hook : MatchHook α) (key : α) (earlier : List (α × α)) : List α → Prop
  | [] => True
  | value :: rest =>
    hook.reply earlier (value, key) = .ok false ∧
      hook.Rejects key (earlier ++ [(value, key)]) rest

def Hook.Replies (hook : MatchHook α) (key : α) (earlier : List (α × α)) (done : List α) (value : α)
    (reply : Except String Bool) : Prop :=
  hook.Rejects key earlier done ∧ hook.reply (earlier ++ done.map (·, key)) (value, key) = reply

theorem Hook.Replies.cons {hook : MatchHook α} {key : α} {earlier : List (α × α)} {first value : α}
    {done : List α} {reply : Except String Bool}
    (rejects : hook.reply earlier (first, key) = .ok false)
    (later : hook.Replies key (earlier ++ [(first, key)]) done value reply) :
    hook.Replies key earlier (first :: done) value reply := by
  rcases later with ⟨others, replied⟩
  rw [List.append_assoc] at replied
  exact ⟨⟨rejects, others⟩, replied⟩

/-- Either the hook rejects all values, or there is a first one that it accepts or panics at. -/
theorem Hook.rejects_or (hook : MatchHook α) (key : α) (earlier : List (α × α))
    (entries : List (Handle × α)) :
    hook.Rejects key earlier (entries.map Prod.snd) ∨
      ∃ done handle value rest, entries = done ++ (handle, value) :: rest ∧
        (hook.Replies key earlier (done.map Prod.snd) value (.ok true) ∨
          ∃ text, hook.Replies key earlier (done.map Prod.snd) value (.error text)) := by
  induction entries generalizing earlier with
  | nil => exact .inl trivial
  | cons entry rest ih =>
    rcases entry with ⟨handle, value⟩
    have first := earlier.append_nil
    cases reply : hook.reply earlier (value, key) with
    | error text =>
      rw [← first] at reply
      exact .inr ⟨[], handle, value, rest, rfl, .inr ⟨text, trivial, reply⟩⟩
    | ok accepts =>
      cases accepts with
      | true =>
        rw [← first] at reply
        exact .inr ⟨[], handle, value, rest, rfl, .inl ⟨trivial, reply⟩⟩
      | false =>
        rcases ih (earlier ++ [(value, key)]) with all | ⟨done, other, found, behind, rfl, decides⟩
        · exact .inl ⟨reply, all⟩
        · refine .inr ⟨(handle, value) :: done, other, found, behind, rfl, ?_⟩
          exact decides.imp (.cons reply) fun ⟨text, panics⟩ => ⟨text, .cons reply panics⟩

def Ledger.tried (ledger : Ledger α) (hook : MatchHook α) (key : α) (values : List α) : Ledger α :=
  { ledger with matchings := ledger.matchings.recordAll hook.id (values.map (·, key)) }

namespace Session

variable {hook : MatchHook α} {key : α} {s : Session α}

def tried (hook : MatchHook α) (key : α) (s : Session α) (values : List α) : Session α :=
  { s with
    ledger := s.ledger.tried hook key values
    calls := s.calls ++ values.map (Call.matching hook.id hook.label · key) }

theorem tried_nil (hook : MatchHook α) (key : α) (s : Session α) : s.tried hook key [] = s := by
  unfold tried
  rw [List.map_nil, List.append_nil]
  rfl

theorem tried_append (hook : MatchHook α) (key : α) (s : Session α) (values more : List α) :
    s.tried hook key (values ++ more) = (s.tried hook key values).tried hook key more := by
  have ledger : s.ledger.tried hook key (values ++ more) =
      (s.ledger.tried hook key values).tried hook key more := by
    unfold Ledger.tried CallBook.recordAll
    rw [List.map_append, List.foldl_append]
  unfold tried
  rw [ledger, List.map_append, List.append_assoc]

theorem tried_earlier (hook : MatchHook α) (key : α) (s : Session α) (values : List α) :
    (s.tried hook key values).ledger.matchings.earlier hook.id =
      s.ledger.matchings.earlier hook.id ++ values.map (·, key) :=
  CallBook.earlier_recordAll _ _ _

theorem callMatch_apply (hook : MatchHook α) (value key : α) (s : Session α) :
    callMatch hook value key s =
      match hook.reply (s.ledger.matchings.earlier hook.id) (value, key) with
      | .ok accepts => .ok accepts (s.tried hook key [value])
      | .error text => .error (.hook text) (s.tried hook key [value]) := by
  simp only [callMatch, bind_apply, get_apply, set_apply]
  cases hook.reply (s.ledger.matchings.earlier hook.id) (value, key) <;> rfl

/-- The search goes on behind the values that the hook rejects. -/
theorem findEntry_passes {done : List (Handle × α)}
    (rejects : hook.Rejects key (s.ledger.matchings.earlier hook.id) (done.map Prod.snd))
    (rest : List (Handle × α)) :
    HookedList.findEntry (callMatch hook · key) (done ++ rest) s =
      HookedList.findEntry (callMatch hook · key) rest (s.tried hook key (done.map Prod.snd)) := by
  induction done generalizing s with
  | nil => rw [List.map_nil, List.nil_append, tried_nil]
  | cons entry done ih =>
    rcases entry with ⟨handle, value⟩
    rcases rejects with ⟨reply, later⟩
    have earlier : (s.tried hook key [value]).ledger.matchings.earlier hook.id =
        s.ledger.matchings.earlier hook.id ++ [(value, key)] := tried_earlier hook key s [value]
    rw [← earlier] at later
    have tried : s.tried hook key (((handle, value) :: done).map Prod.snd) = _ :=
      tried_append hook key s [value] (done.map Prod.snd)
    rw [tried, ← ih later, List.cons_append, HookedList.findEntry, bind_apply, callMatch_apply, reply]
    rfl

theorem findEntry_misses {entries : List (Handle × α)}
    (rejects : hook.Rejects key (s.ledger.matchings.earlier hook.id) (entries.map Prod.snd)) :
    HookedList.findEntry (callMatch hook · key) entries s =
      .ok none (s.tried hook key (entries.map Prod.snd)) := by
  have passed := findEntry_passes rejects []
  rw [List.append_nil] at passed
  exact passed

section Decided

variable {done rest : List (Handle × α)} {handle : Handle} {value : α}

theorem findEntry_finds
    (accepts : hook.Replies key (s.ledger.matchings.earlier hook.id) (done.map Prod.snd) value
      (.ok true)) :
    HookedList.findEntry (callMatch hook · key) (done ++ (handle, value) :: rest) s =
      .ok (some handle) (s.tried hook key (done.map Prod.snd ++ [value])) := by
  rcases accepts with ⟨rejects, reply⟩
  rw [← tried_earlier] at reply
  rw [findEntry_passes rejects, HookedList.findEntry, bind_apply, callMatch_apply, reply,
    tried_append]
  rfl

theorem findEntry_panics {text : String}
    (panics : hook.Replies key (s.ledger.matchings.earlier hook.id) (done.map Prod.snd) value
      (.error text)) :
    HookedList.findEntry (callMatch hook · key) (done ++ (handle, value) :: rest) s =
      .error (.hook text) (s.tried hook key (done.map Prod.snd ++ [value])) := by
  rcases panics with ⟨rejects, reply⟩
  rw [← tried_earlier] at reply
  rw [findEntry_passes rejects, HookedList.findEntry, bind_apply, callMatch_apply, reply,
    tried_append]

end Decided

/-- Without a hook it is equality that decides, and nothing is noted of it. -/
theorem findEntry_equal [BEq α] (key : α) (entries : List (Handle × α)) (s : Session α) :
    HookedList.findEntry (fun stored => return stored == key) entries s =
      .ok ((entries.find? (·.2 == key)).map Prod.fst) s := by
  induction entries with
  | nil => rfl
  | cons entry rest ih =>
    rcases entry with ⟨handle, value⟩
    rw [HookedList.findEntry, bind_apply, pure_apply, List.find?_cons]
    cases value == key with
    | true => rfl
    | false => exact ih

end Session

/-- A key that differs from itself is equal to no value. -/
theorem find?_odd [BEq α] [PartialEquivBEq α] {key : α} (odd : (key == key) = false)
    (entries : List (Handle × α)) : entries.find? (·.2 == key) = none := by
  rw [List.find?_eq_none]
  intro entry _ equal
  have same : (key == key) = true := PartialEquivBEq.trans (PartialEquivBEq.symm equal) equal
  rw [odd] at same
  cases same

namespace Value

mutual

theorem same_symm (x y : Value) (same : x.same y = true) : y.same x = true := by
  cases x <;> cases y
  case int.int m n =>
    rw [Value.same, beq_iff_eq] at same ⊢
    exact same.symm
  case text.text s t =>
    rw [Value.same, beq_iff_eq] at same ⊢
    exact same.symm
  case array.array xs ys => exact sameAll_symm xs ys same
  all_goals cases same

theorem sameAll_symm (xs ys : List Value) (same : sameAll xs ys = true) : sameAll ys xs = true := by
  cases xs <;> cases ys
  case nil.nil => rfl
  case cons.cons x xs y ys =>
    rw [sameAll, Bool.and_eq_true] at same ⊢
    exact ⟨same_symm x y same.1, sameAll_symm xs ys same.2⟩
  all_goals cases same

end

mutual

theorem same_trans (x y z : Value) (same : x.same y = true) (also : y.same z = true) :
    x.same z = true := by
  cases x <;> cases y
  case int.int m n =>
    rw [Value.same, beq_iff_eq] at same
    rw [same]
    exact also
  case text.text s t =>
    rw [Value.same, beq_iff_eq] at same
    rw [same]
    exact also
  case array.array xs ys =>
    cases z
    case array zs => exact sameAll_trans xs ys zs same also
    all_goals cases also
  all_goals cases same

theorem sameAll_trans (xs ys zs : List Value) (same : sameAll xs ys = true)
    (also : sameAll ys zs = true) : sameAll xs zs = true := by
  cases xs <;> cases ys
  case nil.nil => exact also
  case cons.cons x xs y ys =>
    cases zs
    case nil => cases also
    case cons z zs =>
      rw [sameAll, Bool.and_eq_true] at same also ⊢
      exact ⟨same_trans x y z same.1 also.1, sameAll_trans xs ys zs same.2 also.2⟩
  all_goals cases same

end

instance : PartialEquivBEq Value where
  symm same := same_symm _ _ same
  trans same also := same_trans _ _ _ same also

end Value

namespace PlainBench

variable {list : PlainList α} {hook : MatchHook α}

theorem search_hooked [BEq α] (installed : list.hooks.matching = some hook) (key : α)
    (s : Session α) : search key ⟨list, s⟩ =
      share (HookedList.findEntry (Session.callMatch hook · key) list.roster.entries) ⟨list, s⟩ := by
  unfold search
  simp only [bind_apply, get_apply, installed]

theorem searchWithHook_hooked (installed : list.hooks.matching = some hook) (key : α)
    (s : Session α) : searchWithHook key ⟨list, s⟩ =
      share (HookedList.findEntry (Session.callMatch hook · key) list.roster.entries) ⟨list, s⟩ := by
  unfold searchWithHook
  simp only [bind_apply, get_apply, installed]

theorem search_unhooked [BEq α] (unhooked : list.hooks.matching = none) (key : α)
    (s : Session α) : search key ⟨list, s⟩ =
      .ok ((list.roster.entries.find? (·.2 == key)).map Prod.fst) ⟨list, s⟩ := by
  unfold search
  simp only [bind_apply, get_apply, unhooked, share_apply, Session.findEntry_equal]

theorem searchWithHook_unhooked (unhooked : list.hooks.matching = none) (key : α)
    (s : Session α) : searchWithHook key ⟨list, s⟩ = .ok none ⟨list, s⟩ := by
  unfold searchWithHook
  simp only [bind_apply, get_apply, unhooked, pure_apply]

end PlainBench

namespace PlainStore

variable {p : PlainStore α} {name : String} {list : PlainList α} {hook : MatchHook α} {key : α}
  [BEq α] [Outlined α] [Stored α]

theorem search_ends (sorted : p.lists.Sorted) (found : p.lists.find? name = some list)
    (installed : list.hooks.matching = some hook) {op : ListOp α}
    (searches : op = .search key ∨ op = .searchWithHook key) :
    p.step (.on name op) = conclude p.lists
      (match HookedList.findEntry (Session.callMatch hook · key) list.roster.entries p.session with
        | .ok handle? t => .ok (.handle handle?) t
        | .error panic t => .error panic t) := by
  have performed : PlainBench.perform op ⟨list, p.session⟩ =
      (do return .handle (← PlainBench.share (HookedList.findEntry (Session.callMatch hook · key)
        list.roster.entries)) : Act (PlainBench α) (Answer α)) ⟨list, p.session⟩ := by
    rcases searches with rfl | rfl
    · rw [PlainBench.perform, bind_apply, PlainBench.search_hooked installed, bind_apply]
    · rw [PlainBench.perform, bind_apply, PlainBench.searchWithHook_hooked installed, bind_apply]
  rw [step_on found, performed, bind_apply, PlainBench.share_apply]
  cases HookedList.findEntry (Session.callMatch hook · key) list.roster.entries p.session <;>
    simp only [pure_apply, sorted.put_same found]

theorem search_unhooked (sorted : p.lists.Sorted) (found : p.lists.find? name = some list)
    (unhooked : list.hooks.matching = none) (key : α) :
    p.step (.on name (.search key)) =
      (⟨.returned (.handle ((list.roster.entries.find? (·.2 == key)).map Prod.fst)), [], []⟩, p) := by
  apply step_looks sorted found
  rw [PlainBench.perform, bind_apply, PlainBench.search_unhooked unhooked]
  rfl

theorem searchWithHook_unhooked (sorted : p.lists.Sorted) (found : p.lists.find? name = some list)
    (unhooked : list.hooks.matching = none) (key : α) :
    p.step (.on name (.searchWithHook key)) = (⟨.returned (.handle none), [], []⟩, p) := by
  apply step_looks sorted found
  rw [PlainBench.perform, bind_apply, PlainBench.searchWithHook_unhooked unhooked]
  rfl

end PlainStore

namespace Store

variable {s : Store α} {p : PlainStore α} {name : String} {list : HookedList α} {plain : PlainList α}
  {hook : MatchHook α} [BEq α] [Outlined α] [Stored α]

/-- How a search with a hook ends, by the replies of the hook. The hook is called with the values
    from the head up to the first one that it does not reject, and only its calls are new. -/
structure Searches (s : Store α) (name : String) (hook : MatchHook α) (key : α)
    (entries : List (Handle × α)) (op : ListOp α) : Prop where
  decided : hook.Rejects key (s.ledger.matchings.earlier hook.id) (entries.map Prod.snd) ∨
    ∃ done handle value rest, entries = done ++ (handle, value) :: rest ∧
      (hook.Replies key (s.ledger.matchings.earlier hook.id) (done.map Prod.snd) value (.ok true) ∨
        ∃ text, hook.Replies key (s.ledger.matchings.earlier hook.id) (done.map Prod.snd) value
          (.error text))
  finds : ∀ done handle value rest, entries = done ++ (handle, value) :: rest →
    hook.Replies key (s.ledger.matchings.earlier hook.id) (done.map Prod.snd) value (.ok true) →
    s.step (.on name op) = (⟨.returned (.handle (some handle)),
      (done.map Prod.snd ++ [value]).map (Call.matching hook.id hook.label · key), []⟩,
      { s with ledger := s.ledger.tried hook key (done.map Prod.snd ++ [value]) })
  misses : hook.Rejects key (s.ledger.matchings.earlier hook.id) (entries.map Prod.snd) →
    s.step (.on name op) = (⟨.returned (.handle none),
      (entries.map Prod.snd).map (Call.matching hook.id hook.label · key), []⟩,
      { s with ledger := s.ledger.tried hook key (entries.map Prod.snd) })
  panics : ∀ done handle value rest text, entries = done ++ (handle, value) :: rest →
    hook.Replies key (s.ledger.matchings.earlier hook.id) (done.map Prod.snd) value (.error text) →
    s.step (.on name op) = (⟨.panicked (.hook text),
      (done.map Prod.snd ++ [value]).map (Call.matching hook.id hook.label · key), []⟩,
      { s with ledger := s.ledger.tried hook key (done.map Prod.snd ++ [value]) })

theorem Mirrors.searches (mirrors : s.Mirrors p) (sorted : p.lists.Sorted)
    (there : p.lists.find? name = some plain) (installed : plain.hooks.matching = some hook)
    {key : α} {op : ListOp α} (searches : op = .search key ∨ op = .searchWithHook key) :
    s.Searches name hook key plain.roster.entries op := by
  have step : s.step (.on name op) = conclude s.lists
      (match HookedList.findEntry (Session.callMatch hook · key) plain.roster.entries s.session with
        | .ok handle? t => .ok (.handle handle?) t
        | .error panic t => .error panic t) := by
    have agree := step_agrees mirrors (.on name op)
    rw [PlainStore.search_ends sorted there installed searches, ← mirrors.session] at agree
    exact agree.unique (conclude_agrees mirrors.lists _)
  constructor
  case decided => exact hook.rejects_or key _ _
  case finds =>
    intro done handle value rest split accepts
    rw [step, split, Session.findEntry_finds accepts]
    rfl
  case misses =>
    intro rejects
    rw [step, Session.findEntry_misses rejects]
    rfl
  case panics =>
    intro done handle value rest text split panics
    rw [step, split, Session.findEntry_panics panics]
    rfl

/-- A search tries the values from the head on and ends at the first match. It changes no list, and
    calls the match hook only. -/
theorem run_searches (ops : List (Op α)) {name : String} {list : HookedList α}
    (found : (Store.empty.run ops).2.lists.find? name = some list) (key : α) :
    let reached := (Store.empty.run ops).2
    ∃ entries, list.chain.entries = .ok entries ∧
      (∀ hook, list.hooks.matching = some hook →
        reached.Searches name hook key entries (.search key) ∧
        reached.step (.on name (.searchWithHook key)) = reached.step (.on name (.search key))) ∧
      (list.hooks.matching = none →
        reached.step (.on name (.searchWithHook key)) =
          (⟨.returned (.handle none), [], []⟩, reached) ∧
        reached.step (.on name (.search key)) =
          (⟨.returned (.handle ((entries.find? (·.2 == key)).map Prod.fst)), [], []⟩, reached) ∧
        ∀ [PartialEquivBEq α], (key == key) = false →
          reached.step (.on name (.search key)) = (⟨.returned (.handle none), [], []⟩, reached)) := by
  intro reached
  rcases run_found ops found with ⟨p, plain, mirrors, sorted, there, same⟩
  refine ⟨plain.roster.entries, same.represents.entries, ?_, ?_⟩
  · intro hook installed
    rw [same.hooks] at installed
    refine ⟨mirrors.searches sorted there installed (.inl rfl), mirrors.step_congr ?_⟩
    rw [PlainStore.search_ends sorted there installed (.inr rfl),
      PlainStore.search_ends sorted there installed (.inl rfl)]
  · intro unhooked
    rw [same.hooks] at unhooked
    have equal := mirrors.step_back (PlainStore.search_unhooked sorted there unhooked key)
    refine ⟨mirrors.step_back (PlainStore.searchWithHook_unhooked sorted there unhooked key),
      equal, ?_⟩
    intro _ odd
    rw [equal, find?_odd odd]
    rfl

/-- The hook counts its calls, and accepts the second value of a second search. The other list has
    no hook, and does not find the odd value that it holds. -/
theorem run_searches_again :
    let ops : List (Op Value) := [
      .create "a" { matching := some (Value.Matching.policy "match" (.nthCall 4)) },
      .on "a" (.insert .available .tail (.int 1)),
      .on "a" (.insert .available .head (.int 2)),
      .on "a" (.insert .available .tail (.int 3)),
      .on "a" (.search (.int 5)),
      .create "b" {},
      .on "b" (.insert .available .tail (.odd 1))]
    let reached := (Store.empty.run ops).2
    (reached.step (.on "a" (.searchWithHook (.int 5)))).1 = ⟨.returned (.handle (some 0)),
        [.matching 0 "match" (.int 2) (.int 5), .matching 0 "match" (.int 1) (.int 5)], []⟩ ∧
      reached.step (.on "b" (.search (.odd 1))) = (⟨.returned (.handle none), [], []⟩, reached) := by
  intro ops reached
  have present : ((Store.empty.run ops).2.lists.find? "a").map (fun list =>
      (list.chain.entries.toOption, list.hooks.matching)) =
      some (some [(1, .int 2), (0, .int 1), (2, .int 3)],
        some ⟨Value.Matching.policy "match" (.nthCall 4), 0⟩) := by
    cbv
  have earlier : (Store.empty.run ops).2.ledger.matchings.earlier 0 =
      [(.int 2, .int 5), (.int 1, .int 5), (.int 3, .int 5)] := by
    cbv
  have present' : ((Store.empty.run ops).2.lists.find? "b").map
      (fun list => list.hooks.matching.isSome) = some false := by
    decide +kernel
  rcases Option.map_eq_some_iff.mp present with ⟨list, found, facts⟩
  rcases Option.map_eq_some_iff.mp present' with ⟨bare, found', facts'⟩
  simp only [Prod.mk.injEq] at facts
  rcases facts with ⟨held, installed⟩
  rcases run_searches ops found (.int 5) with ⟨entries, shown, hooked, -⟩
  rcases run_searches ops found' (.odd 1) with ⟨_, -, -, unhooked⟩
  rw [shown] at held
  cases held
  rcases hooked _ installed with ⟨searches, alike⟩
  have accepts : Hook.Replies ⟨Value.Matching.policy "match" (.nthCall 4), 0⟩ (.int 5)
      ((Store.empty.run ops).2.ledger.matchings.earlier 0) [.int 2] (.int 1) (.ok true) := by
    rw [earlier]
    exact ⟨⟨rfl, trivial⟩, rfl⟩
  constructor
  · rw [alike, searches.finds [(1, .int 2)] 0 (.int 1) [(2, .int 3)] rfl accepts]
    rfl
  · have none := Option.not_isSome_iff_eq_none.mp (Bool.eq_false_iff.mp facts')
    exact (unhooked none).2.2 rfl

end Store

end LinkedSlots
