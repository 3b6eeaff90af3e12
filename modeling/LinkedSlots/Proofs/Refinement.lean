import LinkedSlots.Proofs.Copying
import LinkedSlots.Proofs.PlainStore
import Mathlib.Data.List.Forall2

namespace LinkedSlots

variable {α : Type}

namespace Registry

variable {κ β γ : Type} {R : β → γ → Prop} {r : Registry κ β} {p : Registry κ γ}

def Paired (R : β → γ → Prop) (r : Registry κ β) (p : Registry κ γ) : Prop :=
  List.Forall₂ (fun entry other => entry.1 = other.1 ∧ R entry.2 other.2) r.entries p.entries

theorem Paired.find? [DecidableEq κ] (paired : r.Paired R p) (key : κ) :
    (r.find? key = none ∧ p.find? key = none) ∨
      ∃ entry other, r.find? key = some entry ∧ p.find? key = some other ∧ R entry other := by
  rcases r with ⟨entries⟩
  rcases p with ⟨others⟩
  unfold Paired at paired
  unfold Registry.find?
  dsimp only at paired ⊢
  induction paired with
  | nil => exact .inl ⟨rfl, rfl⟩
  | @cons entry other rest behind same _ ih =>
    rcases entry with ⟨name, entry⟩
    rcases other with ⟨_, other⟩
    rcases same with ⟨rfl, same⟩
    by_cases here : key = name
    · exact .inr ⟨entry, other, by simp [lookup, here], by simp [lookup, here], same⟩
    · simpa only [lookup, here, if_false] using ih

theorem Paired.erase [DecidableEq κ] (paired : r.Paired R p) (key : κ) :
    (r.erase key).Paired R (p.erase key) := by
  rcases r with ⟨entries⟩
  rcases p with ⟨others⟩
  unfold Paired at paired ⊢
  unfold Registry.erase
  dsimp only at paired ⊢
  induction paired with
  | nil => exact .nil
  | @cons entry other rest behind same _ ih =>
    rcases entry with ⟨name, entry⟩
    rcases other with ⟨_, other⟩
    rcases same with ⟨rfl, same⟩
    by_cases here : key = name
    · simpa only [eraseEntry, here, if_true] using ih
    · simp only [eraseEntry, here, if_false]
      exact .cons ⟨rfl, same⟩ ih

theorem Paired.put [DecidableEq κ] [LT κ] [DecidableLT κ] (paired : r.Paired R p) (key : κ)
    {new : β} {newOther : γ} (related : R new newOther) :
    (r.put key new).Paired R (p.put key newOther) := by
  rcases r with ⟨entries⟩
  rcases p with ⟨others⟩
  unfold Paired at paired ⊢
  unfold Registry.put
  dsimp only at paired ⊢
  induction paired with
  | nil => exact .cons ⟨rfl, related⟩ .nil
  | @cons entry other rest behind same later ih =>
    rcases entry with ⟨name, entry⟩
    rcases other with ⟨_, other⟩
    rcases same with ⟨rfl, same⟩
    by_cases here : key = name
    · simp only [putEntry, here, if_true]
      exact .cons ⟨rfl, related⟩ later
    · by_cases before : key < name
      · simp only [putEntry, here, before, if_true, if_false]
        exact .cons ⟨rfl, related⟩ (.cons ⟨rfl, same⟩ later)
      · simp only [putEntry, here, before, if_false]
        exact .cons ⟨rfl, same⟩ ih

theorem Paired.left_unique {other : Registry κ β} (alone : Relator.LeftUnique R)
    (paired : r.Paired R p) (also : other.Paired R p) : r = other := by
  have entries : r.entries = other.entries := by
    refine Relator.LeftUnique.forall₂ ?_ paired also
    rintro ⟨key, entry⟩ ⟨_, plain⟩ ⟨_, more⟩ ⟨rfl, first⟩ ⟨rfl, second⟩
    exact congrArg _ (alone first second)
  cases r
  cases other
  cases entries
  rfl

end Registry

namespace Workbench

/-- Whatever the operation, the list and the plain list answer alike and stay alike. -/
theorem perform_simulates [BEq α] [Outlined α] [Stored α] (op : ListOp α) :
    Simulates Eq Mirrors (perform op) (PlainBench.perform op) := by
  cases op with
  | length =>
    apply Simulates.get.bind
    intro b p mirrors
    apply Simulates.pure
    rw [mirrors.length_eq]
    unfold Chain.isEmpty
    rw [mirrors.length_eq]
    cases p.list.roster.entries <;> rfl
  | describeHooks =>
    apply Simulates.get.bind
    intro b p mirrors
    apply Simulates.pure
    rw [mirrors.list.hooks]
  | setHooks policies => exact install_simulates _ _ fun _ _ _ => rfl
  | setDup policy => exact install_simulates _ _ fun _ _ _ => rfl
  | setFree policy => exact install_simulates _ _ fun _ _ _ => rfl
  | setMatching policy => exact install_simulates _ _ fun _ _ _ => rfl
  | reserve memory count => exact map_simulates _ (HookedList.reserve_simulates memory count)
  | insert memory place value =>
    exact map_simulates _ (HookedList.insert_simulates memory place value)
  | delete handle => exact map_simulates _ (HookedList.delete_simulates handle)
  | popFront => exact map_simulates _ (edit_simulates Chain.popFront_simulates)
  | popBack => exact map_simulates _ (edit_simulates Chain.popBack_simulates)
  | empty => exact then_simulates _ HookedList.empty_simulates
  | front => exact look_simulates Answer.value fun _ _ rep => rep.front
  | back => exact look_simulates Answer.value fun _ _ rep => rep.back
  | head => exact read_simulates fun _ _ mirrors => by rw [mirrors.list.represents.head_eq]
  | tail => exact read_simulates fun _ _ mirrors => by rw [mirrors.list.represents.tail_eq]
  | get handle => exact read_simulates fun _ _ mirrors => by rw [mirrors.list.represents.get?_eq]
  | next handle => exact read_simulates fun _ _ mirrors => by rw [mirrors.list.represents.next?_eq]
  | prev handle => exact read_simulates fun _ _ mirrors => by rw [mirrors.list.represents.prev?_eq]
  | index position => exact look_simulates Answer.handle fun _ _ rep => rep.index position
  | updateFront change => exact map_simulates _ (edit_simulates (Chain.updateFront_simulates change))
  | updateBack change => exact map_simulates _ (edit_simulates (Chain.updateBack_simulates change))
  | update handle change =>
    exact map_simulates _ (edit_simulates (Chain.update_simulates handle change))
  | rotateTailToHead => exact then_simulates _ (edit_simulates Chain.rotateTailToHead_simulates)
  | rotateHeadToTail => exact then_simulates _ (edit_simulates Chain.rotateHeadToTail_simulates)
  | search key => exact map_simulates _ (HookedList.search_simulates key)
  | searchWithHook key => exact map_simulates _ (HookedList.searchWithHook_simulates key)
  | walkHandles steps => exact look_simulates Answer.walkedHandles fun _ _ rep => rep.walkHandles steps
  | walkValues steps => exact look_simulates Answer.walkedValues fun _ _ rep => rep.walkValues steps
  | walkUpdating changes steps =>
    exact map_simulates _ (edit_simulates (Chain.walkUpdating_simulates changes steps))
  | render layout =>
    exact look_simulates (fun values => Answer.text (layout.render values)) fun _ _ rep => rep.values

end Workbench

namespace Store

variable {s : Store α} {p : PlainStore α}

/-- The same names, and behind each of them a list and the plain list that mirrors it. -/
structure Mirrors (s : Store α) (p : PlainStore α) : Prop where
  lists : s.lists.Paired HookedList.Mirrors p.lists
  ledger : s.ledger = p.ledger

structure Agree (ended : Report α × Store α) (plain : Report α × PlainStore α) : Prop where
  report : ended.1 = plain.1
  stores : ended.2.Mirrors plain.2

theorem Mirrors.session (mirrors : s.Mirrors p) : s.session = p.session := by
  unfold Store.session PlainStore.session
  rw [mirrors.ledger]

theorem Mirrors.found (mirrors : s.Mirrors p) (found : s.lists.find? name = some list) :
    ∃ plain, p.lists.find? name = some plain ∧ list.Mirrors plain := by
  rcases mirrors.lists.find? name with ⟨absent, -⟩ | ⟨entry, plain, here, there, same⟩
  · rw [absent] at found
    cases found
  · rw [here] at found
    cases found
    exact ⟨plain, there, same⟩

theorem Mirrors.mirrored (mirrors : s.Mirrors p) {name : String} {plain : PlainList α}
    (there : p.lists.find? name = some plain) :
    ∃ list, s.lists.find? name = some list ∧ list.Mirrors plain := by
  rcases mirrors.lists.find? name with ⟨-, absent⟩ | ⟨list, other, found, also, same⟩
  · rw [absent] at there
    cases there
  · rw [also] at there
    cases there
    exact ⟨list, found, same⟩

theorem empty_mirrors : (empty : Store α).Mirrors .empty := ⟨.nil, rfl⟩

theorem refuse_agrees (mirrors : s.Mirrors p) : Agree s.refuse p.refuse := ⟨rfl, mirrors⟩

theorem conclude_agrees {lists : Registry String (HookedList α)}
    {plains : Registry String (PlainList α)} (paired : lists.Paired HookedList.Mirrors plains)
    (ended : EStateM.Result Panic (Session α) (Answer α)) :
    Agree (conclude lists ended) (PlainStore.conclude plains ended) := by
  cases ended with
  | ok answer session => exact ⟨rfl, paired, rfl⟩
  | error panic session => exact ⟨rfl, paired, rfl⟩

theorem replace_agrees (mirrors : s.Mirrors p) (name : String) {list : HookedList α}
    {plain : PlainList α} (same : list.Mirrors plain) (session : Session α) :
    Agree (s.replace name list session) (p.replace name plain session) := by
  unfold Store.replace PlainStore.replace
  rcases mirrors.lists.find? name with ⟨absent, plainAbsent⟩ | ⟨old, other, found, plainFound, before⟩
  · rw [absent, plainAbsent]
    exact conclude_agrees (mirrors.lists.put name same) _
  · rw [found, plainFound]
    dsimp only
    rw [HookedList.drop_eq before]
    exact conclude_agrees (mirrors.lists.put name same) _

theorem work_agrees (mirrors : s.Mirrors p) (name : String) {act : Act (Workbench α) (Answer α)}
    {plainAct : Act (PlainBench α) (Answer α)} (sim : Simulates Eq Workbench.Mirrors act plainAct) :
    Agree (s.work name act) (p.work name plainAct) := by
  unfold Store.work PlainStore.work
  rcases mirrors.lists.find? name with ⟨absent, plainAbsent⟩ | ⟨list, plain, found, plainFound, same⟩
  · rw [absent, plainAbsent]
    exact refuse_agrees mirrors
  · rw [found, plainFound, ← mirrors.session]
    dsimp only
    rcases (sim ⟨list, s.session⟩ ⟨plain, s.session⟩ ⟨same, rfl⟩).cases with
      ⟨answer, _, b, b', run, run', rfl, after⟩ | ⟨panic, b, b', run, run', after⟩
    · rw [run, run']
      dsimp only
      rw [after.session]
      exact conclude_agrees (mirrors.lists.put name after.list) _
    · rw [run, run']
      dsimp only
      rw [after.session]
      exact conclude_agrees (mirrors.lists.put name after.list) _

theorem retire_agrees (mirrors : s.Mirrors p) (name : String) {act : Act (Workbench α) (Answer α)}
    {plainAct : PlainList α → Act (Session α) (Answer α)}
    (same : ∀ list plain, HookedList.Mirrors list plain →
      Workbench.consume act list = plainAct plain) :
    Agree (s.retire name act) (p.retire name plainAct) := by
  unfold Store.retire PlainStore.retire
  rcases mirrors.lists.find? name with ⟨absent, plainAbsent⟩ | ⟨list, plain, found, plainFound, before⟩
  · rw [absent, plainAbsent]
    exact refuse_agrees mirrors
  · rw [found, plainFound, ← mirrors.session]
    dsimp only
    rw [same list plain before]
    exact conclude_agrees (mirrors.lists.erase name) _

theorem pair_agrees (mirrors : s.Mirrors p) (name source : String)
    {act : HookedList α → HookedList α → Report α × Store α}
    {plainAct : PlainList α → PlainList α → Report α × PlainStore α}
    (agree : ∀ list plain other otherPlain, HookedList.Mirrors list plain →
      HookedList.Mirrors other otherPlain → Agree (act list other) (plainAct plain otherPlain)) :
    Agree (s.pair name source act) (p.pair name source plainAct) := by
  unfold Store.pair PlainStore.pair
  by_cases same : name = source
  · rw [if_pos same, if_pos same]
    exact refuse_agrees mirrors
  · rw [if_neg same, if_neg same]
    rcases mirrors.lists.find? name with ⟨absent, plainAbsent⟩ | ⟨list, plain, found, plainFound, first⟩
    · rw [absent, plainAbsent]
      exact refuse_agrees mirrors
    · rw [found, plainFound]
      rcases mirrors.lists.find? source with
        ⟨absent, plainAbsent⟩ | ⟨other, otherPlain, found', plainFound', second⟩
      · rw [absent, plainAbsent]
        exact refuse_agrees mirrors
      · rw [found', plainFound']
        exact agree list plain other otherPlain first second

theorem shareHooks_agrees (mirrors : s.Mirrors p) (name source : String) :
    Agree (s.shareHooks name source) (p.shareHooks name source) := by
  apply pair_agrees mirrors
  intro list plain other otherPlain first second
  rw [mirrors.session]
  have shared : (list.shareHooks other).Mirrors { plain with hooks := otherPlain.hooks } :=
    ⟨first.represents, second.hooks⟩
  exact conclude_agrees (mirrors.lists.put name shared) _

theorem join_agrees [Stored α] (mirrors : s.Mirrors p) (memory : Memory) (name source : String) :
    Agree (s.join memory name source) (p.join memory name source) := by
  apply pair_agrees mirrors
  intro list plain other otherPlain first second
  rw [mirrors.session]
  have sim := HookedList.join_simulates memory (⟨list, p.session⟩, other)
    (⟨plain, p.session⟩, otherPlain) ⟨⟨first, rfl⟩, second⟩
  rcases sim.cases with ⟨joined, _, t, u, run, run', rfl, after⟩ | ⟨panic, t, u, run, run', after⟩
  · rw [run, run']
    dsimp only
    rw [after.1.session]
    exact conclude_agrees ((mirrors.lists.put name after.1.list).put source after.2) _
  · rw [run, run']
    dsimp only
    rw [after.1.session]
    exact conclude_agrees ((mirrors.lists.put name after.1.list).put source after.2) _

theorem keep_agrees (mirrors : s.Mirrors p) (name : String)
    {made : EStateM.Result Panic (Session α) (Except ListError (HookedList α))}
    {plainMade : EStateM.Result Panic (Session α) (Except ListError (PlainList α))}
    (alike : Alike HookedList.Made Eq made plainMade) :
    Agree (s.keep name made) (p.keep name plainMade) := by
  rcases alike.cases with ⟨list?, plain?, t, _, run, run', same, rfl⟩ | ⟨panic, t, _, run, run', rfl⟩
  · rw [run, run']
    cases list? with
    | ok list =>
      cases plain? with
      | ok plain => exact replace_agrees mirrors name same t
      | error e => exact same.elim
    | error e =>
      cases plain? with
      | ok plain => exact same.elim
      | error d =>
        rcases same with rfl
        exact conclude_agrees mirrors.lists (.ok (.failed e) t)
  · rw [run, run']
    exact conclude_agrees mirrors.lists (.error panic t)

theorem duplicate_agrees (mirrors : s.Mirrors p) (source name : String)
    {copy : HookedList α → Act (Session α) (Except ListError (HookedList α))}
    {plainCopy : PlainList α → Act (Session α) (Except ListError (PlainList α))}
    (alike : ∀ list plain session, HookedList.Mirrors list plain →
      Alike HookedList.Made Eq (copy list session) (plainCopy plain session)) :
    Agree (s.duplicate source name copy) (p.duplicate source name plainCopy) := by
  unfold Store.duplicate PlainStore.duplicate
  rcases mirrors.lists.find? source with ⟨absent, plainAbsent⟩ | ⟨list, plain, found, plainFound, same⟩
  · rw [absent, plainAbsent]
    exact refuse_agrees mirrors
  · rw [found, plainFound, mirrors.session]
    exact keep_agrees mirrors name (alike list plain _ same)

variable [BEq α] [Outlined α] [Stored α]

/-- One operation gives the same report on a store and on the plain store that mirrors it. -/
theorem step_agrees (mirrors : s.Mirrors p) (op : Op α) : Agree (s.step op) (p.step op) := by
  cases op with
  | create name policies =>
    unfold Store.step PlainStore.step
    rw [mirrors.ledger]
    exact replace_agrees mirrors name ⟨Chain.represents_empty, rfl⟩ _
  | createWithRoom name memory count =>
    unfold Store.step PlainStore.step
    rw [mirrors.session]
    exact keep_agrees mirrors name (HookedList.withRoom_alike memory count _)
  | on name op => exact work_agrees mirrors name (Workbench.perform_simulates op)
  | shareHooks name source => exact shareHooks_agrees mirrors name source
  | join name source memory => exact join_agrees mirrors memory name source
  | duplicate source name memory =>
    exact duplicate_agrees mirrors source name fun _ _ session same =>
      HookedList.duplicate_alike same memory session
  | duplicateWithHook source name memory =>
    exact duplicate_agrees mirrors source name fun _ _ session same =>
      HookedList.duplicateWithHook_alike same memory session
  | walkTaking name steps =>
    apply retire_agrees mirrors
    intro list plain same
    rw [Workbench.consume_map, HookedList.walkTaking_eq same]
  | release name =>
    apply retire_agrees mirrors
    intro list plain same
    rw [Workbench.consume_map, HookedList.release_eq same]
  | drop name =>
    apply retire_agrees mirrors
    intro list plain same
    rw [Workbench.consume_map, ← HookedList.drop_eq same]
    rfl

/-- Whatever is done to whichever lists, every report is the one that plain lists give, and every
    list keeps standing for its plain list. -/
theorem run_agrees (mirrors : s.Mirrors p) (ops : List (Op α)) :
    (s.run ops).1 = (p.run ops).1 ∧ (s.run ops).2.Mirrors (p.run ops).2 := by
  induction ops generalizing s p with
  | nil => exact ⟨rfl, mirrors⟩
  | cons op ops ih =>
    have first := step_agrees mirrors op
    rcases ih first.stores with ⟨reports, stores⟩
    unfold Store.run PlainStore.run
    dsimp only
    rw [first.report, reports]
    exact ⟨rfl, stores⟩

omit [BEq α] [Outlined α] [Stored α] in
theorem Mirrors.unique {other : PlainStore α} (mirrors : s.Mirrors p) (also : s.Mirrors other) :
    p = other := by
  have alone : Relator.RightUnique fun (entry : String × HookedList α) (plain : String × PlainList α) =>
      entry.1 = plain.1 ∧ HookedList.Mirrors entry.2 plain.2 := by
    rintro ⟨name, list⟩ ⟨_, plain⟩ ⟨_, more⟩ ⟨rfl, first⟩ ⟨rfl, second⟩
    exact congrArg _ (first.unique second)
  have entries := alone.forall₂ mirrors.lists also.lists
  have ledger := mirrors.ledger.symm.trans also.ledger
  rcases p with ⟨⟨lists⟩, _⟩
  rcases other with ⟨⟨others⟩, _⟩
  cases entries
  cases ledger
  rfl

omit [BEq α] [Outlined α] [Stored α] in
theorem Mirrors.determines {other : Store α} (mirrors : s.Mirrors p) (also : other.Mirrors p) :
    s = other := by
  have alone : Relator.LeftUnique (@HookedList.Mirrors α) := fun _ _ _ same other =>
    same.determines other
  have lists : s.lists = other.lists := mirrors.lists.left_unique alone also.lists
  have ledger := mirrors.ledger.trans also.ledger.symm
  cases s
  cases other
  cases lists
  cases ledger
  rfl

omit [BEq α] [Outlined α] [Stored α] in
theorem Agree.unique {ended other : Report α × Store α} {plain : Report α × PlainStore α}
    (agree : Agree ended plain) (also : Agree other plain) : ended = other :=
  Prod.ext (agree.report.trans also.report.symm) (agree.stores.determines also.stores)

/-- Operations that are the same on plain lists are the same. -/
theorem Mirrors.step_congr (mirrors : s.Mirrors p) {op other : Op α}
    (same : p.step op = p.step other) : s.step op = s.step other := by
  have agree := step_agrees mirrors op
  rw [same] at agree
  exact agree.unique (step_agrees mirrors other)

/-- What a run comes to on plain lists, it comes to on the lists that mirror them. -/
theorem Mirrors.run_ends (mirrors : s.Mirrors p) {ops : List (Op α)} {reports : List (Report α)}
    {other : PlainStore α} (ended : p.run ops = (reports, other)) {after : Store α}
    (mirrors' : after.Mirrors other) : s.run ops = (reports, after) := by
  rcases run_agrees mirrors ops with ⟨reported, stores⟩
  rw [ended] at reported stores
  exact Prod.ext reported (stores.determines mirrors')

/-- Where the plain lists stay as they are, so do the lists. -/
theorem Mirrors.step_back (mirrors : s.Mirrors p) {op : Op α} {report : Report α}
    (same : p.step op = (report, p)) : s.step op = (report, s) := by
  rcases step_agrees mirrors op with ⟨report', stores⟩
  rw [same] at report' stores
  exact Prod.ext report' (stores.determines mirrors)

/-- Every run, and every further operation with whatever arguments, answers as it does on plain
    lists; the plain lists are the only ones that the lists stand for. -/
theorem run_refines (ops : List (Op α)) :
    let reached := (Store.empty.run ops).2
    let plain := (PlainStore.empty.run ops).2
    (Store.empty.run ops).1 = (PlainStore.empty.run ops).1 ∧
      (∀ other, reached.Mirrors other ↔ other = plain) ∧
      ∀ op, (reached.step op).1 = (plain.step op).1 ∧
        (reached.step op).2.Mirrors (plain.step op).2 := by
  intro reached plain
  rcases run_agrees (empty_mirrors (α := α)) ops with ⟨reports, mirrors⟩
  refine ⟨reports, ?_, ?_⟩
  · intro other
    constructor
    · intro also
      exact also.unique mirrors
    · rintro rfl
      exact mirrors
  · intro op
    have agree := step_agrees mirrors op
    exact ⟨agree.report, agree.stores⟩

end Store

end LinkedSlots
