import LinkedSlots.Proofs.Growth
import LinkedSlots.Proofs.Links

namespace LinkedSlots

variable {α : Type}

def nextHandles (vacant : List Handle) (made count : Nat) : List Handle :=
  vacant.take count ++ List.range' made (count - vacant.length)

theorem nextHandles_length (vacant : List Handle) (made count : Nat) :
    (nextHandles vacant made count).length = count := by
  simp only [nextHandles, List.length_append, List.length_take, List.length_range']
  omega

namespace Roster

variable {q : Roster α}

theorem nextHandles_push (q : Roster α) (value : α) (count : Nat) :
    nextHandles q.vacant q.made (count + 1) =
      q.fresh :: nextHandles (q.push value).vacant (q.push value).made count := by
  unfold nextHandles Roster.push putBetween fresh
  cases q.vacant with
  | nil => simp [List.range'_succ]
  | cons top rest => simp

theorem pushAll_entries_eq (q : Roster α) (values : List α) :
    (q.pushAll values).entries =
      q.entries ++ (nextHandles q.vacant q.made values.length).zip values := by
  induction values generalizing q with
  | nil => simp
  | cons value rest ih =>
    have first : (q.push value).entries = q.entries ++ [(q.fresh, value)] := rfl
    rw [pushAll_cons, ih, first, List.length_cons, nextHandles_push q value, List.zip_cons_cons,
      List.append_assoc]
    rfl

def withCapacity (q : Roster α) (capacity : Nat) : Roster α := { q with capacity := capacity }

theorem Roomier.eq_withCapacity {grown : Roster α} (more : q.Roomier grown) :
    grown = q.withCapacity grown.capacity := by
  rcases grown with ⟨entries, vacant, made, capacity⟩
  rcases more with ⟨rfl, rfl, rfl, -⟩
  rfl

/-- Where values go does not depend on how many more would fit. -/
theorem pushAll_withCapacity (q : Roster α) (capacity : Nat) (values : List α) :
    (q.withCapacity capacity).pushAll values = (q.pushAll values).withCapacity capacity := by
  induction values generalizing q with
  | nil => rfl
  | cons value rest ih => exact ih (q.push value)

theorem Proper.push (proper : q.Proper) (room : q.entries.length < q.capacity) (value : α) :
    (q.push value).Proper := by
  have counted := proper.count
  apply proper.putBetween (List.append_nil _).symm value
  intro full
  rw [full, List.length_nil] at counted
  omega

end Roster

namespace Chain

variable {c after : Chain α} {q grown : Roster α}

structure Extended (c : Chain α) (entries : List (Handle × α)) (vacant : List Handle)
    (values : List α) (after : Chain α) : Prop where
  shown : after.entries =
    .ok (entries ++ (nextHandles vacant c.slots.size values.length).zip values)
  linked : after.Linked (entries.map Prod.fst ++ nextHandles vacant c.slots.size values.length)
    (vacant.drop values.length)

theorem Represents.extended (rep : c.Represents q) (more : q.Roomier grown) {values : List α}
    (rep' : after.Represents (grown.pushAll values)) :
    c.Extended q.entries q.vacant values after := by
  have entries : (grown.pushAll values).entries =
      q.entries ++ (nextHandles q.vacant c.slots.size values.length).zip values := by
    rw [Roster.pushAll_entries_eq, more.entries, more.vacant, more.made, rep.size]
  have vacant : (grown.pushAll values).vacant = q.vacant.drop values.length := by
    rw [Roster.pushAll_vacant, more.vacant]
  have short : (nextHandles q.vacant c.slots.size values.length).length ≤ values.length :=
    (nextHandles_length ..).le
  have shown := rep'.entries
  have linked := rep'.linked
  rw [entries] at shown
  rw [Roster.handles, entries, vacant, List.map_append, List.map_fst_zip short] at linked
  exact ⟨shown, linked⟩

/-- Two chains that stand for one roster but for the capacity differ in nothing else. -/
theorem Represents.determines_but_capacity {left : Chain α} {capacity : Nat}
    (rep : c.Represents q) (also : left.Represents (q.withCapacity capacity)) :
    left = { c with capacity := capacity } := by
  have same : Represents { c with capacity := capacity } (q.withCapacity capacity) :=
    ⟨rep.nodes, rep.vacancies, rep.head, rep.tail, rep.vacancy, rep.length, rep.size, rfl,
      also.proper⟩
  exact also.determines same

end Chain

def Outcome.rejected : Outcome α → Bool
  | .returned (.rejected _) => true
  | _ => false

def Op.handOver (name source : String) (memory : Memory) (values : List α) : List (Op α) :=
  values.flatMap fun value =>
    [.on source .popFront, .on name (.insert memory .tail value)]

def Report.handedOver (handles : List Handle) (values : List α) : List (Report α) :=
  (handles.zip values).flatMap fun (handle, value) =>
    [⟨.returned (.value (some value)), [], []⟩, ⟨.returned (.handle (some handle)), [], []⟩]

namespace PlainStore

variable {p : PlainStore α} {name source : String} {list other : PlainList α} {grown : Roster α}
  {memory : Memory} [BEq α] [Outlined α] [Stored α]

theorem push_ends (found : p.lists.find? name = some list)
    (granted : list.roster.reserveSlot memory = .ok grown) (value : α) :
    p.step (.on name (.insert memory .tail value)) =
      conclude (p.lists.put name ⟨grown.push value, list.hooks⟩)
        (.ok (.handle (some grown.fresh)) p.session) := by
  have gap : list.roster.gap .tail = .ok (list.roster.entries, []) := rfl
  rw [insert_ends found gap granted, ← (Roster.roomier_of_reserveSlot granted).entries]
  rfl

section HandOver

variable (ne : name ≠ source) (found : p.lists.find? name = some list)
  (found' : p.lists.find? source = some other)

include ne found found'

/-- The value is out of its list before the other list is asked to take it. -/
theorem handOver_popped {handle : Handle} {value : α} {rest : List (Handle × α)}
    (entries : other.roster.entries = (handle, value) :: rest) (memory : Memory) (values : List α) :
    ∃ next : PlainStore α, next.lists.find? name = some list ∧
      next.lists.find? source = some ⟨other.roster.takeOut [] handle rest, other.hooks⟩ ∧
      p.run (Op.handOver name source memory (value :: values)) =
        let later := next.run
          (.on name (.insert memory .tail value) :: Op.handOver name source memory values)
        (⟨.returned (.value (some value)), [], []⟩ :: later.1, later.2) := by
  have popped := popFront_ends found' entries
  refine ⟨(p.step (.on source .popFront)).2, ?_, ?_, ?_⟩
  · rw [popped]
    exact (p.lists.find?_put_of_ne _ ne).trans found
  · rw [popped]
    exact p.lists.find?_put_self source _
  · have ops : Op.handOver name source memory (value :: values) =
      .on source .popFront :: .on name (.insert memory .tail value) ::
        Op.handOver name source memory values := rfl
    rw [ops, run_cons, popped]
    rfl

theorem handOver_granted {handle : Handle} {value : α} {rest : List (Handle × α)}
    (entries : other.roster.entries = (handle, value) :: rest)
    (granted : list.roster.reserveSlot memory = .ok grown) (values : List α) :
    ∃ next : PlainStore α, next.lists.find? name = some ⟨grown.push value, list.hooks⟩ ∧
      next.lists.find? source = some ⟨other.roster.takeOut [] handle rest, other.hooks⟩ ∧
      p.run (Op.handOver name source memory (value :: values)) =
        let later := next.run (Op.handOver name source memory values)
        (⟨.returned (.value (some value)), [], []⟩ ::
          ⟨.returned (.handle (some grown.fresh)), [], []⟩ :: later.1, later.2) := by
  rcases handOver_popped ne found found' entries memory values with ⟨next, here, there, run⟩
  have pushed := push_ends here granted value
  refine ⟨(next.step (.on name (.insert memory .tail value))).2, ?_, ?_, ?_⟩
  · rw [pushed]
    exact next.lists.find?_put_self name _
  · rw [pushed]
    exact (next.lists.find?_put_of_ne _ (Ne.symm ne)).trans there
  · rw [run, run_cons, pushed]
    rfl

theorem handOver_rejected {handle : Handle} {value : α} {rest : List (Handle × α)}
    (entries : other.roster.entries = (handle, value) :: rest) {shortage : Shortage}
    (refused : list.roster.reserveSlot memory = .error shortage) (values : List α) :
    ∃ report ∈ (p.run (Op.handOver name source memory (value :: values))).1,
      report.outcome.rejected := by
  rcases handOver_popped ne found found' entries memory values with ⟨next, here, -, run⟩
  have gap : list.roster.gap .tail = .ok (list.roster.entries, []) := rfl
  have failed := insert_fails here gap refused value
  refine ⟨(next.step (.on name (.insert memory .tail value))).1, ?_, ?_⟩
  · rw [run]
    exact List.mem_cons_of_mem _ List.mem_cons_self
  · rw [failed]
    rfl

/-- Into room that is there all values go over, without any memory. -/
theorem handOver_fits (proper : list.roster.Proper) {values : List α}
    (held : other.roster.values = values)
    (room : list.roster.entries.length + values.length ≤ list.roster.capacity) (memory : Memory) :
    let ended := p.run (Op.handOver name source memory values)
    ended.1 = Report.handedOver
        (nextHandles list.roster.vacant list.roster.made values.length) values ∧
      ended.2.lists.find? name = some ⟨list.roster.pushAll values, list.hooks⟩ := by
  induction values generalizing p list other with
  | nil =>
    rw [Report.handedOver, List.zip_nil_right]
    exact ⟨rfl, found⟩
  | cons _ rest ih =>
    rcases List.map_eq_cons_iff.mp held with ⟨⟨handle, value⟩, behind, entries, rfl, later⟩
    rw [List.length_cons] at room
    have granted := proper.reserveSlot (by omega) memory
    rcases handOver_granted ne found found' entries granted rest with ⟨next, here, there, run⟩
    rcases ih here there (proper.push (by omega) value) later
      (by rw [Roster.push_length, Roster.push_capacity]; omega) with ⟨reports, stored⟩
    rw [run, List.length_cons, Roster.nextHandles_push list.roster value]
    refine ⟨?_, stored⟩
    dsimp only
    rw [reports]
    rfl

/-- Where no insertion is rejected, room is made on the way, and nothing else is different. -/
theorem handOver_placed {values : List α} (held : other.roster.values = values)
    (placed : ∀ report ∈ (p.run (Op.handOver name source memory values)).1,
      ¬ report.outcome.rejected) :
    let ended := p.run (Op.handOver name source memory values)
    ended.1 = Report.handedOver
        (nextHandles list.roster.vacant list.roster.made values.length) values ∧
      ∃ capacity, ended.2.lists.find? name =
        some ⟨(list.roster.pushAll values).withCapacity capacity, list.hooks⟩ := by
  induction values generalizing p list other with
  | nil =>
    rw [Report.handedOver, List.zip_nil_right]
    exact ⟨rfl, list.roster.capacity, found⟩
  | cons _ rest ih =>
    rcases List.map_eq_cons_iff.mp held with ⟨⟨handle, value⟩, behind, entries, rfl, later⟩
    cases outcome : list.roster.reserveSlot memory with
    | error shortage =>
      rcases handOver_rejected ne found found' entries outcome rest with ⟨report, member, rejected⟩
      exact (placed report member rejected).elim
    | ok grown =>
      rcases handOver_granted ne found found' entries outcome rest with ⟨next, here, there, run⟩
      have widened := (Roster.roomier_of_reserveSlot outcome).eq_withCapacity
      rw [run] at placed ⊢
      rcases ih here there later fun report member =>
        placed report (List.mem_cons_of_mem _ (List.mem_cons_of_mem _ member)) with
        ⟨reports, capacity, stored⟩
      rw [List.length_cons, Roster.nextHandles_push list.roster value]
      refine ⟨?_, capacity, ?_⟩
      · dsimp only
        rw [reports, widened]
        rfl
      · have pushed : grown.push value = (list.roster.push value).withCapacity grown.capacity :=
          congrArg (Roster.push · value) widened
        rw [pushed, Roster.pushAll_withCapacity] at stored
        exact stored

/-- Where room for all values is made first, they go over without any more memory. -/
theorem handOver_roomFirst (proper : list.roster.Proper)
    (granted : list.roster.reserve memory other.roster.entries.length = .ok grown)
    (scarce : Memory) :
    let ended := p.run (.on name (.reserve memory other.roster.values.length) ::
      Op.handOver name source scarce other.roster.values)
    ended.1 = ⟨.returned .done, [], []⟩ :: Report.handedOver
        (nextHandles list.roster.vacant list.roster.made other.roster.values.length)
        other.roster.values ∧
      ended.2.lists.find? name = some ⟨grown.pushAll other.roster.values, list.hooks⟩ := by
  intro ended
  have more := Roster.roomier_of_grow granted
  rcases proper.room_of_reserve granted with ⟨proper', room⟩
  rw [← Roster.values_length other.roster] at granted room
  have made := reserve_ends found memory other.roster.values.length
  rw [granted] at made
  have here : (p.step (.on name (.reserve memory other.roster.values.length))).2.lists.find? name =
      some ⟨grown, list.hooks⟩ := by
    rw [made]
    exact p.lists.find?_put_self name _
  have behind : (p.step (.on name (.reserve memory other.roster.values.length))).2.lists.find?
      source = some other := by
    rw [made]
    exact (p.lists.find?_put_of_ne _ (Ne.symm ne)).trans found'
  rcases handOver_fits ne here behind proper' rfl room scarce with ⟨reports, stored⟩
  rw [more.vacant, more.made] at reports
  have split : ended = _ := run_cons p _ _
  rw [split]
  refine ⟨?_, stored⟩
  dsimp only
  rw [reports, made]
  rfl

end HandOver

theorem join_inverts (done : (p.step (.join name source memory)).1.outcome = .returned .done) :
    ∃ list other grown, name ≠ source ∧ p.lists.find? name = some list ∧
      p.lists.find? source = some other ∧
      list.roster.reserve memory other.roster.entries.length = .ok grown ∧
      p.step (.join name source memory) = conclude
        ((p.lists.put name ⟨grown.pushAll other.roster.values, list.hooks⟩).put source
          ⟨other.roster.reset, other.hooks⟩) (.ok .done p.session) := by
  rcases p.pair_cases name source with refused | ⟨list, other, ne, found, found', -⟩
  · have step : p.step (.join name source memory) = p.refuse := refused _
    rw [step] at done
    cases done
  · have step := join_ends ne found found' memory
    cases granted : list.roster.reserve memory other.roster.entries.length with
    | ok grown =>
      rw [granted] at step
      exact ⟨list, other, grown, ne, found, found', granted, step⟩
    | error shortage =>
      rw [granted] at step
      rw [step] at done
      cases done

def held (p : PlainStore α) (name : String) : Option (List α) :=
  (p.lists.find? name).map fun list => list.roster.values

theorem join_held (done : (p.step (.join name source memory)).1.outcome = .returned .done) :
    ∃ values others, name ≠ source ∧ p.held name = some values ∧ p.held source = some others ∧
      (p.step (.join name source memory)).2.held name = some (values ++ others) ∧
      ∀ third, third ≠ name → third ≠ source →
        (p.step (.join name source memory)).2.held third = p.held third := by
  rcases join_inverts done with ⟨list, other, grown, ne, found, found', granted, step⟩
  have values : (grown.pushAll other.roster.values).values =
      list.roster.values ++ other.roster.values := by
    rw [Roster.pushAll_values, Roster.values, (Roster.roomier_of_grow granted).entries]
    rfl
  unfold held
  rw [step, conclude_lists, found, found', Registry.find?_put_of_ne _ _ ne, Registry.find?_put_self]
  refine ⟨_, _, ne, rfl, rfl, congrArg some values, ?_⟩
  intro third apart apart'
  rw [Registry.find?_put_of_ne _ _ apart', Registry.find?_put_of_ne _ _ apart]

end PlainStore

namespace Store

variable {s : Store α} {p : PlainStore α} {name source : String} {list other : HookedList α}
  {memory : Memory} [BEq α] [Outlined α] [Stored α]

/-- A list has taken over the values of another one. To hand them over one by one gives the same
    list but for its capacity, which is the same as well if room is made for all of them before. -/
structure Joined (s : Store α) (name source : String) (memory : Memory) (list other : HookedList α)
    (entries : List (Handle × α)) (vacant : List Handle) (values : List α) (after : Chain α) :
    Prop where
  report : (s.step (.join name source memory)).1 = ⟨.returned .done, [], []⟩
  extended : list.chain.Extended entries vacant values after
  target : (s.step (.join name source memory)).2.lists.find? name = some ⟨after, list.hooks⟩
  left : ∃ left, (s.step (.join name source memory)).2.lists.find? source =
      some ⟨left, other.hooks⟩ ∧ left = other.chain.reset ∧
    ∀ handle, left.node handle = .error (.outOfBounds handle 0)
  oneByOne : ∀ scarce, let ended := s.run (Op.handOver name source scarce values)
    (∀ report ∈ ended.1, ¬ report.outcome.rejected) →
      ended.1 = Report.handedOver (nextHandles vacant list.chain.slots.size values.length) values ∧
      ∃ capacity, ended.2.lists.find? name = some ⟨{ after with capacity := capacity }, list.hooks⟩
  roomFirst : ∀ scarce,
    let ended := s.run (.on name (.reserve memory values.length) ::
      Op.handOver name source scarce values)
    ended.1 = ⟨.returned .done, [], []⟩ ::
        Report.handedOver (nextHandles vacant list.chain.slots.size values.length) values ∧
      ended.2.lists.find? name = some ⟨after, list.hooks⟩

structure Joins (s : Store α) (name source : String) (memory : Memory) (list other : HookedList α)
    (entries : List (Handle × α)) (vacant : List Handle) (values : List α) : Prop where
  ends : (s.step (.join name source memory)).1.outcome = .returned .done ∨
    (s.step (.join name source memory)).1.outcome = .returned (.failed .outOfMemory)
  joined : (s.step (.join name source memory)).1.outcome = .returned .done →
    ∃ after, s.Joined name source memory list other entries vacant values after
  refused : (s.step (.join name source memory)).1.outcome = .returned (.failed .outOfMemory) →
    s.Untouched (s.step (.join name source memory))

def Succeeds (s : Store α) (ops : List (Op α)) : Prop :=
  ∀ report ∈ (s.run ops).1, report.outcome = .returned .done

/-- Two lists can be joined to a third one after the other, or as one. -/
def Regroups (s : Store α) (name source third : String) : Prop :=
  ∀ first second, s.Succeeds [.join name source first, .join name third second] →
    ∀ first' second', s.Succeeds [.join source third first', .join name source second'] →
      ∃ left right values,
        (s.run [.join name source first, .join name third second]).2.lists.find? name = some left ∧
        (s.run [.join source third first', .join name source second']).2.lists.find? name =
          some right ∧
        left.chain.values = .ok values ∧ right.chain.values = .ok values

omit [BEq α] [Outlined α] [Stored α] in
theorem Mirrors.held (mirrors : s.Mirrors p) {values : List α} (held : p.held name = some values) :
    ∃ list, s.lists.find? name = some list ∧ list.chain.values = .ok values := by
  rcases Option.map_eq_some_iff.mp held with ⟨plain, there, rfl⟩
  rcases mirrors.mirrored there with ⟨list, found, same⟩
  exact ⟨list, found, same.represents.values⟩

theorem Mirrors.regroups (mirrors : s.Mirrors p) (name source third : String) :
    s.Regroups name source third := by
  intro first second succeeds first' second' succeeds'
  unfold Succeeds at succeeds succeeds'
  rw [(run_agrees mirrors _).1] at succeeds succeeds'
  have one : (p.step (.join name source first)).1.outcome = .returned .done :=
    succeeds _ List.mem_cons_self
  have two : ((p.step (.join name source first)).2.step (.join name third second)).1.outcome =
      .returned .done :=
    succeeds _ (List.mem_cons_of_mem _ List.mem_cons_self)
  have one' : (p.step (.join source third first')).1.outcome = .returned .done :=
    succeeds' _ List.mem_cons_self
  have two' : ((p.step (.join source third first')).2.step (.join name source second')).1.outcome =
      .returned .done :=
    succeeds' _ (List.mem_cons_of_mem _ List.mem_cons_self)
  rcases PlainStore.join_held one with ⟨a, b, apart, heldA, heldB, leftAB, others⟩
  rcases PlainStore.join_held two with ⟨ab, c, apart', heldAB, heldC, left, -⟩
  rcases PlainStore.join_held one' with ⟨b', c', apart'', heldB', heldC', rightBC, others'⟩
  rcases PlainStore.join_held two' with ⟨a', bc, -, heldA', heldBC, right, -⟩
  rw [others third (Ne.symm apart') (Ne.symm apart'')] at heldC
  rw [others' name apart apart'] at heldA'
  cases leftAB.symm.trans heldAB
  cases rightBC.symm.trans heldBC
  cases heldA.symm.trans heldA'
  cases heldB.symm.trans heldB'
  cases heldC.symm.trans heldC'
  rw [List.append_assoc] at left
  have agree := run_agrees mirrors [.join name source first, .join name third second]
  have agree' := run_agrees mirrors [.join source third first', .join name source second']
  rcases agree.2.held left with ⟨list, found, values⟩
  rcases agree'.2.held right with ⟨list', found', values'⟩
  exact ⟨list, list', _, found, found', values, values'⟩

theorem Mirrors.joined (mirrors : s.Mirrors p) {plain plain' : PlainList α} (ne : name ≠ source)
    (there : p.lists.find? name = some plain) (same : list.Mirrors plain)
    (there' : p.lists.find? source = some plain') (same' : other.Mirrors plain')
    {grown : Roster α}
    (granted : plain.roster.reserve memory plain'.roster.entries.length = .ok grown) :
    ∃ after, s.Joined name source memory list other plain.roster.entries plain.roster.vacant
      plain'.roster.values after := by
  have rep := same.represents
  have more := Roster.roomier_of_grow granted
  have room := (rep.proper.room_of_reserve granted).2
  have step := PlainStore.join_ends ne there there' memory
  rw [granted] at step
  have agree := step_agrees mirrors (.join name source memory)
  have target : (p.step (.join name source memory)).2.lists.find? name =
      some ⟨grown.pushAll plain'.roster.values, plain.hooks⟩ := by
    rw [step, PlainStore.conclude_lists, Registry.find?_put_of_ne _ _ ne]
    exact p.lists.find?_put_self name _
  have emptied : (p.step (.join name source memory)).2.lists.find? source =
      some ⟨plain'.roster.reset, plain'.hooks⟩ := by
    rw [step]
    exact Registry.find?_put_self _ source _
  rcases agree.stores.mirrored target with ⟨⟨after, _⟩, found, ⟨rep', rfl⟩⟩
  rcases agree.stores.mirrored emptied with ⟨⟨left, _⟩, found', ⟨bare, rfl⟩⟩
  refine ⟨after, ?_⟩
  constructor
  case report =>
    rw [agree.report, step]
    rfl
  case extended => exact rep.extended more rep'
  case target => rw [found, same.hooks]
  case left =>
    have reset : left = other.chain.reset := bare.determines same'.represents.reset
    refine ⟨left, by rw [found', same'.hooks], reset, ?_⟩
    intro handle
    rw [reset]
    rfl
  case oneByOne =>
    intro scarce ended placed
    have agree' := run_agrees mirrors (Op.handOver name source scarce plain'.roster.values)
    have placed' : ∀ report ∈ (p.run (Op.handOver name source scarce plain'.roster.values)).1,
        ¬ report.outcome.rejected := by
      rw [← agree'.1]
      exact placed
    rcases PlainStore.handOver_placed ne there there' rfl placed' with ⟨reports, capacity, stored⟩
    rcases agree'.2.mirrored stored with ⟨⟨final, _⟩, found'', ⟨rep'', rfl⟩⟩
    rw [rep.size]
    refine ⟨agree'.1.trans reports, capacity, ?_⟩
    rw [more.eq_withCapacity, Roster.pushAll_withCapacity] at rep'
    have differs : final = { after with capacity := capacity } :=
      rep'.determines_but_capacity rep''
    rw [found'', differs, same.hooks]
  case roomFirst =>
    intro scarce
    have fits := PlainStore.handOver_roomFirst ne there there' rep.proper granted scarce
    have agree' := run_agrees mirrors (.on name (.reserve memory plain'.roster.values.length) ::
      Op.handOver name source scarce plain'.roster.values)
    rcases agree'.2.mirrored fits.2 with ⟨⟨final, _⟩, found'', ⟨rep'', rfl⟩⟩
    have same'' : final = after := rep''.determines rep'
    rw [rep.size]
    refine ⟨agree'.1.trans fits.1, ?_⟩
    rw [found'', same'', same.hooks]

theorem Mirrors.joins (mirrors : s.Mirrors p) {plain plain' : PlainList α} (ne : name ≠ source)
    (there : p.lists.find? name = some plain) (same : list.Mirrors plain)
    (there' : p.lists.find? source = some plain') (same' : other.Mirrors plain') (memory : Memory) :
    s.Joins name source memory list other plain.roster.entries plain.roster.vacant
      plain'.roster.values := by
  have step := PlainStore.join_ends ne there there' memory
  have agree := step_agrees mirrors (.join name source memory)
  cases granted : plain.roster.reserve memory plain'.roster.entries.length with
  | ok grown =>
    rw [granted] at step
    have outcome : (s.step (.join name source memory)).1.outcome = .returned .done := by
      rw [agree.report, step]
      rfl
    constructor
    case ends => exact .inl outcome
    case joined => exact fun _ => mirrors.joined ne there same there' same' granted
    case refused =>
      intro failed
      cases outcome.symm.trans failed
  | error shortage =>
    rw [granted] at step
    have outcome : (s.step (.join name source memory)).1.outcome =
        .returned (.failed .outOfMemory) := by
      rw [agree.report, step]
      rfl
    constructor
    case ends => exact .inr outcome
    case joined =>
      intro done
      cases outcome.symm.trans done
    case refused =>
      intro failed
      apply agree.untouched mirrors
      rw [step]
      exact PlainStore.untouched_put_both there there' _ _

/-- A join that finds no room changes nothing. Otherwise the values of one list go behind those of
    the other, which stay where they are, and it makes no difference in which order three lists are
    joined. -/
theorem run_joins (ops : List (Op α)) {name source : String} {list other : HookedList α}
    (found : (Store.empty.run ops).2.lists.find? name = some list)
    (found' : (Store.empty.run ops).2.lists.find? source = some other) (ne : name ≠ source)
    (memory : Memory) :
    let reached := (Store.empty.run ops).2
    ∃ entries vacant values, list.chain.entries = .ok entries ∧
      list.chain.Linked (entries.map Prod.fst) vacant ∧ other.chain.values = .ok values ∧
      reached.Joins name source memory list other entries vacant values ∧
      ∀ third, reached.Regroups name source third := by
  intro reached
  have mirrors : reached.Mirrors _ := (run_agrees empty_mirrors ops).2
  rcases mirrors.found found with ⟨plain, there, same⟩
  rcases mirrors.found found' with ⟨plain', there', same'⟩
  exact ⟨plain.roster.entries, plain.roster.vacant, plain'.roster.values, same.represents.entries,
    same.represents.linked, same'.represents.values, mirrors.joins ne there same there' same' memory,
    mirrors.regroups name source⟩

/-- Two vacant slots are taken, that of the node deleted last before the other, and then a new one. -/
theorem run_joins_filling_gaps :
    let ops : List (Op Value) := [
      .create "a" { free := some (Value.Freeing.policy "free" (.panicIf (.int 4))) },
      .on "a" (.insert .available .tail (.int 1)),
      .on "a" (.insert .available .tail (.int 2)),
      .on "a" (.insert .available .tail (.int 3)),
      .on "a" .popFront,
      .on "a" .popBack,
      .create "b" {},
      .on "b" (.insert .available .tail (.int 4)),
      .on "b" (.insert .available .tail (.int 5)),
      .on "b" (.insert .available .head (.int 6)),
      .on "b" (.insert .available .tail (.int 7)),
      .on "b" (.delete 1)]
    ∃ list other entries vacant values after, (Store.empty.run ops).2.lists.find? "a" = some list ∧
      (Store.empty.run ops).2.lists.find? "b" = some other ∧
      (list.chain.length, list.chain.slots.size, values.length) = (1, 3, 3) ∧
      (Store.empty.run ops).2.Joined "a" "b" .available list other entries vacant values after ∧
      after.handles.toOption = some [1, 2, 0, 3] := by
  intro ops
  have present : ((Store.empty.run ops).2.lists.find? "a").map
      (fun list => (list.chain.length, list.chain.slots.size)) = some (1, 3) := by
    decide +kernel
  have present' : ((Store.empty.run ops).2.lists.find? "b").map
      (fun other => other.chain.values.toOption.map List.length) = some (some 3) := by
    decide +kernel
  have done : ((Store.empty.run ops).2.step (.join "a" "b" .available)).1.outcome =
      .returned .done := by
    decide +kernel
  have placed : (((Store.empty.run ops).2.step (.join "a" "b" .available)).2.lists.find? "a").map
      (fun after => after.chain.handles.toOption) = some (some [1, 2, 0, 3]) := by
    decide +kernel
  rcases Option.map_eq_some_iff.mp present with ⟨list, found, facts⟩
  rcases Option.map_eq_some_iff.mp present' with ⟨other, found', three⟩
  rcases run_joins ops found found' (by decide) .available with
    ⟨entries, vacant, values, -, -, shown, joins, -⟩
  rcases joins.joined done with ⟨after, joined⟩
  rw [shown] at three
  rw [joined.target] at placed
  simp only [Prod.mk.injEq] at facts
  exact ⟨list, other, entries, vacant, values, after, found, found',
    by rw [facts.1, facts.2, Option.some.inj three], joined, Option.some.inj placed⟩

/-- Five values that are joined to an empty list leave it no room for a sixth. One by one they make
    the room double, and the sixth needs no memory. -/
theorem joined_room_differs :
    let ops : List (Op Value) := [.create "a" {}, .create "b" {},
      .on "b" (.insert .available .tail (.int 1)),
      .on "b" (.insert .available .tail (.int 2)),
      .on "b" (.insert .available .tail (.int 3)),
      .on "b" (.insert .available .tail (.int 4)),
      .on "b" (.insert .available .tail (.int 5))]
    let values : List Value := [.int 1, .int 2, .int 3, .int 4, .int 5]
    let reached := (Store.empty.run ops).2
    let joined := reached.step (.join "a" "b" .available)
    let handed := reached.run (Op.handOver "a" "b" .available values)
    joined.1.outcome = .returned .done ∧ (∀ report ∈ handed.1, ¬ report.outcome.rejected) ∧
      (joined.2.lists.find? "a").map (·.chain.capacity) = some 5 ∧
      (handed.2.lists.find? "a").map (·.chain.capacity) = some 8 ∧
      (joined.2.step (.on "a" (.insert .exhausted .tail (.int 6)))).1.outcome.rejected ∧
      ¬ (handed.2.step (.on "a" (.insert .exhausted .tail (.int 6)))).1.outcome.rejected := by
  intro ops values reached joined handed
  refine ⟨?_, ?_, ?_, ?_, ?_, ?_⟩ <;> decide +kernel

end Store

end LinkedSlots
