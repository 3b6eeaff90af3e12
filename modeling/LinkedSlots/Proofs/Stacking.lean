import LinkedSlots.Proofs.Growth
import LinkedSlots.Proofs.Stability

namespace LinkedSlots

variable {α : Type}

namespace ListOp

def gained (report : Report α) : ListOp α → Nat
  | .insert _ _ _ =>
    match report.outcome with
    | .returned (.handle (some _)) => 1
    | _ => 0
  | _ => 0

def taken (order : List Handle) (report : Report α) (op : ListOp α) : List Handle :=
  order.filter (· ∈ op.removed order report)

def Level : ListOp α → Prop
  | .insert _ _ _ => False
  | .delete _ => False
  | .popFront => False
  | .popBack => False
  | .empty => False
  | _ => True

variable {order : List Handle} {report : Report α} {op : ListOp α}

theorem taken_nothing (nothing : op.removed order report = []) : op.taken order report = [] := by
  unfold taken
  rw [nothing]
  simp

theorem gained_level (level : op.Level) : op.gained report = 0 := by
  cases op <;> first | rfl | exact level.elim

theorem taken_level (level : op.Level) : op.taken order report = [] := by
  apply taken_nothing
  cases op <;> first | rfl | exact level.elim

end ListOp

namespace Op

def gained (name : String) (length : String → Nat) (report : Report α) : Op α → Nat
  | .on target op => if target = name then op.gained report else 0
  | .join target source _ =>
    match report.outcome with
    | .returned .done => if target = name then length source else 0
    | _ => 0
  | _ => 0

def taken (name : String) (order : List Handle) (report : Report α) (op : Op α) : List Handle :=
  order.filter (· ∈ op.removed name order report)

end Op

/-- What becomes of the vacant handles: what is added comes off the top of the stack, and what is
    taken out goes on top. No operation does both. -/
structure Stacks (gained : Nat) (taken : List Handle) (q after : Roster α) : Prop where
  vacant : after.vacant = taken.reverse ++ q.vacant.drop gained
  oneWay : gained = 0 ∨ taken = []

theorem Stacks.unmoved {q after : Roster α} (vacant : after.vacant = q.vacant) :
    Stacks 0 [] q after :=
  ⟨vacant, .inl rfl⟩

/-- Of distinct handles those that lie in one piece of the order are that piece. -/
theorem filter_piece {front piece back : List Handle} (nodup : (front ++ piece ++ back).Nodup) :
    (front ++ piece ++ back).filter (· ∈ piece) = piece := by
  rcases List.nodup_append.mp nodup with ⟨first, -, behind⟩
  have before := (List.nodup_append.mp first).2.2
  have none_front : front.filter (· ∈ piece) = [] := by
    rw [List.filter_eq_nil_iff]
    intro handle outer
    simpa using fun inner => before handle outer handle inner rfl
  have none_back : back.filter (· ∈ piece) = [] := by
    rw [List.filter_eq_nil_iff]
    intro handle outer
    simpa using fun inner => behind handle (List.mem_append_right _ inner) handle outer rfl
  have all : piece.filter (· ∈ piece) = piece := by
    rw [List.filter_eq_self]
    intro handle inner
    simpa using inner
  rw [List.filter_append, List.filter_append, none_front, none_back, all, List.append_nil,
    List.nil_append]

def Op.Level (name : String) : Op α → Prop
  | .on target op => target = name → op.Level
  | .join _ _ _ => False
  | _ => True

theorem Turn.vacant_eq [Stored α] {name : String} {op : Op α} {report : Report α} {q after : Roster α}
    (turn : Turn name op report q after) (level : op.Level name) : after.vacant = q.vacant := by
  cases turn with
  | still quiet => rfl
  | widened granted => exact (Roster.roomier_of_grow granted).vacant
  | inserted gap granted placed => exact (level rfl).elim
  | deleted entries => exact (level rfl).elim
  | poppedFront entries => exact (level rfl).elim
  | poppedBack entries => exact (level rfl).elim
  | emptied ended => exact (level rfl).elim
  | interrupted ended => exact (level rfl).elim
  | rewritten unturned => rfl
  | rotatedTail =>
    unfold Roster.rotateTailToHead
    cases q.entries.getLast? <;> rfl
  | rotatedHead =>
    unfold Roster.rotateHeadToTail
    cases q.entries <;> rfl
  | joined granted => exact level.elim
  | forgotten ended => exact level.elim

namespace ListOp

variable {q : Roster α} {report : Report α} {handle : Handle}

theorem taken_dead (dead : handle ∉ q.handles) :
    (delete handle : ListOp α).taken q.handles report = [] := by
  unfold taken
  rw [List.filter_eq_nil_iff]
  intro other live
  have ne : other ≠ handle := fun same => dead (same ▸ live)
  simpa [removed] using ne

theorem taken_one {op : ListOp α} (proper : q.Proper) (live : handle ∈ q.handles)
    (removes : op.removed q.handles report = [handle]) : op.taken q.handles report = [handle] := by
  rcases List.append_of_mem live with ⟨front, back, split⟩
  have pieces : q.handles = front ++ [handle] ++ back := by simp [split]
  have nodup := proper.handles_nodup
  unfold taken
  rw [removes]
  rw [pieces] at nodup ⊢
  exact filter_piece nodup

theorem taken_front {op : ListOp α} {count : Nat} (proper : q.Proper)
    (removes : op.removed q.handles report = q.handles.take count) :
    op.taken q.handles report = q.handles.take count := by
  have nodup : ([] ++ q.handles.take count ++ q.handles.drop count).Nodup := by
    rw [List.nil_append, List.take_append_drop]
    exact proper.handles_nodup
  have piece := filter_piece nodup
  rw [List.nil_append, List.take_append_drop] at piece
  unfold taken
  rw [removes, piece]

end ListOp

theorem PlainBench.perform_stacks {list : PlainList α} {s : Session α} [BEq α] [Outlined α] [Stored α]
    (proper : list.roster.Proper) (fresh : s.calls = []) (op : ListOp α)
    (remembers : op = .empty → (reported (perform op ⟨list, s⟩)).outcome ≠ .returned .done) :
    Stacks (op.gained (reported (perform op ⟨list, s⟩)))
      (op.taken list.roster.handles (reported (perform op ⟨list, s⟩)))
      list.roster (ending (perform op ⟨list, s⟩)).list.roster := by
  have leveled (level : op.Level) :
      Stacks (op.gained (reported (perform op ⟨list, s⟩)))
        (op.taken list.roster.handles (reported (perform op ⟨list, s⟩)))
        list.roster (ending (perform op ⟨list, s⟩)).list.roster := by
    rw [ListOp.gained_level level, ListOp.taken_level level]
    have turn : Turn "" (.on "" op) _ list.roster _ := perform_turn proper fresh op
    exact .unmoved (turn.vacant_eq fun _ => level)
  cases op with
  | insert memory place value =>
    rw [ListOp.taken_nothing rfl, perform, bind_apply, insert_apply]
    cases list.roster.gap place with
    | error cause => exact .unmoved rfl
    | ok halves =>
      dsimp only
      cases granted : list.roster.reserveSlot memory with
      | error shortage => exact .unmoved rfl
      | ok grown =>
        refine ⟨?_, .inr rfl⟩
        show grown.vacant.tail = list.roster.vacant.drop 1
        rw [(Roster.roomier_of_reserveSlot granted).vacant, List.drop_one]
  | delete handle =>
    have left := delete_left handle list s
    cases place : locate handle list.roster.entries with
    | none =>
      rw [place] at left
      rw [left, ListOp.taken_dead (locate_eq_none_iff.mp place)]
      exact .unmoved rfl
    | some split =>
      rcases split with ⟨front, value, back⟩
      rw [place] at left
      have live : handle ∈ list.roster.handles := by
        simp [Roster.handles, locate_eq_some place]
      rw [left, ListOp.taken_one proper live rfl]
      exact ⟨rfl, .inl rfl⟩
  | popFront =>
    rw [perform, bind_apply, edit_apply]
    unfold Roster.popFront
    cases entries : list.roster.entries with
    | nil =>
      have nothing (report : Report α) : ListOp.popFront.removed list.roster.handles report = [] := by
        simp [ListOp.removed, Roster.handles, entries]
      rw [ListOp.taken_nothing (nothing _)]
      exact .unmoved rfl
    | cons entry back =>
      rcases entry with ⟨handle, value⟩
      have live : handle ∈ list.roster.handles := by simp [Roster.handles, entries]
      have first (report : Report α) :
          ListOp.popFront.removed list.roster.handles report = [handle] := by
        simp [ListOp.removed, Roster.handles, entries]
      rw [ListOp.taken_one proper live (first _)]
      exact ⟨rfl, .inl rfl⟩
  | popBack =>
    rw [perform, bind_apply, edit_apply]
    unfold Roster.popBack
    rcases List.eq_nil_or_concat' list.roster.entries with entries | ⟨front, ⟨handle, value⟩, entries⟩
    · have nothing (report : Report α) : ListOp.popBack.removed list.roster.handles report = [] := by
        simp [ListOp.removed, Roster.handles, entries]
      rw [ListOp.taken_nothing (nothing _), entries]
      exact .unmoved rfl
    · have live : handle ∈ list.roster.handles := by simp [Roster.handles, entries]
      have found : list.roster.entries.getLast? = some (handle, value) := by simp [entries]
      have last (report : Report α) :
          ListOp.popBack.removed list.roster.handles report = [handle] := by
        simp [ListOp.removed, Roster.handles, entries]
      rw [ListOp.taken_one proper live (last _), found]
      exact ⟨rfl, .inl rfl⟩
  | empty =>
    have stays := remembers rfl
    rw [perform, bind_apply, empty_apply] at stays ⊢
    cases freeing : Session.freeAll list.hooks.free list.roster.values
        (s.noted (.emptying list.roster.entries.length)) with
    | ok done t =>
      rw [freeing] at stays
      exact (stays rfl).elim
    | error panic t =>
      dsimp only
      rw [fresh, List.length_nil, Nat.sub_zero, ListOp.taken_front proper rfl]
      refine ⟨?_, .inl rfl⟩
      rw [Roster.handles, ← List.map_take]
      rfl
  | _ => exact leveled trivial

namespace Op

variable {name : String} {order : List Handle} {report : Report α} {op : Op α}

theorem taken_nothing (nothing : op.removed name order report = []) :
    op.taken name order report = [] := by
  unfold taken
  rw [nothing]
  simp

theorem gained_on {length : String → Nat} (op : ListOp α) :
    (on name op).gained name length report = op.gained report :=
  if_pos rfl

theorem taken_on (op : ListOp α) : (on name op).taken name order report = op.taken order report := by
  unfold taken
  rw [removed_on]
  rfl

theorem gained_level {length : String → Nat} (level : op.Level name) :
    op.gained name length report = 0 := by
  cases op with
  | on target listOp =>
    by_cases here : target = name
    · subst here
      rw [gained_on]
      exact ListOp.gained_level (level rfl)
    · exact if_neg here
  | join target source memory => exact level.elim
  | _ => rfl

theorem taken_level (level : op.Level name) : op.taken name order report = [] := by
  cases op with
  | on target listOp =>
    by_cases here : target = name
    · subst here
      rw [taken_on]
      exact ListOp.taken_level (level rfl)
    · apply taken_nothing
      exact if_neg here
  | join target source memory => exact level.elim
  | _ => exact taken_nothing rfl

end Op

namespace Store

variable {s : Store α} {p : PlainStore α} {name : String} [BEq α] [Outlined α] [Stored α]

def gained (s : Store α) (name : String) (op : Op α) : Nat :=
  op.gained name (fun source => (s.order source).length) (s.step op).1

def taken (s : Store α) (name : String) (op : Op α) : List Handle :=
  op.taken name (s.order name) (s.step op).1

structure Remembers (s : Store α) (name : String) (op : Op α) : Prop where
  lasts : ¬ s.Ends name op
  keeps : ¬ op.Forgets name (s.step op).1

instance (s : Store α) (name : String) (op : Op α) : Decidable (s.Remembers name op) :=
  decidable_of_iff (¬ s.Ends name op ∧ ¬ op.Forgets name (s.step op).1)
    ⟨fun ⟨lasts, keeps⟩ => ⟨lasts, keeps⟩, fun ⟨lasts, keeps⟩ => ⟨lasts, keeps⟩⟩

theorem Mirrors.level_stacks (mirrors : s.Mirrors p) {plain : PlainList α}
    (there : p.lists.find? name = some plain) {op : Op α} (remembers : s.Remembers name op)
    (level : op.Level name) :
    ∃ after, (p.step op).2.lists.find? name = some after ∧
      Stacks (s.gained name op) (s.taken name op) plain.roster after.roster := by
  rcases mirrors.lasts there remembers.lasts with ⟨after, there', turn⟩
  refine ⟨after, there', ?_⟩
  unfold gained taken
  rw [Op.gained_level level, Op.taken_level level]
  exact .unmoved (turn.vacant_eq level)

theorem Mirrors.join_stacks (mirrors : s.Mirrors p) {plain : PlainList α}
    (there : p.lists.find? name = some plain) {target source : String} {memory : Memory}
    (remembers : s.Remembers name (.join target source memory)) :
    ∃ after, (p.step (.join target source memory)).2.lists.find? name = some after ∧
      Stacks (s.gained name (.join target source memory)) (s.taken name (.join target source memory))
        plain.roster after.roster := by
  have keeps := remembers.keeps
  unfold gained taken
  rw [(step_agrees mirrors _).report] at keeps ⊢
  rcases p.pair_cases target source with refused | ⟨first, other, ne, found, found', -⟩
  · have step : p.step (.join target source memory) = p.refuse := refused _
    rw [step]
    refine ⟨plain, there, ?_⟩
    rw [Op.taken_nothing rfl]
    exact .unmoved rfl
  · have step := PlainStore.join_ends ne found found' memory
    cases granted : first.roster.reserve memory other.roster.entries.length with
    | error shortage =>
      rw [granted] at step
      rw [step]
      have second : (p.lists.put target first).find? source = some other := by
        rw [Registry.find?_put_same found, found']
      refine ⟨plain, ?_, ?_⟩
      · exact (Registry.find?_put_same second name).trans
          ((Registry.find?_put_same found name).trans there)
      · rw [Op.taken_nothing rfl]
        exact .unmoved rfl
    | ok grown =>
      rw [granted] at step
      rw [step] at keeps ⊢
      have elsewhere : name ≠ source := fun same => keeps ⟨beq_iff_eq.mpr same.symm, rfl⟩
      have nothing (report : Report α) (ended : report.outcome = .returned .done) :
          (Op.join target source memory).removed name (s.order name) report = [] := by
        rw [Op.removed, ended]
        exact if_neg (Ne.symm elsewhere)
      rw [Op.taken_nothing (nothing _ rfl)]
      by_cases here : target = name
      · subst here
        rw [there] at found
        cases found
        have all : (s.order source).length = other.roster.values.length := by
          rw [mirrors.order_eq found', Roster.handles, Roster.values, List.length_map, List.length_map]
        have added (report : Report α) (ended : report.outcome = .returned .done) :
            (Op.join target source memory).gained target (fun source => (s.order source).length)
              report = other.roster.values.length := by
          rw [Op.gained, ended]
          exact (if_pos rfl).trans all
        rw [added _ rfl]
        refine ⟨_, (Registry.find?_put_of_ne _ _ elsewhere).trans (p.lists.find?_put_self target _),
          ?_, .inr rfl⟩
        show (grown.pushAll other.roster.values).vacant = _
        rw [Roster.pushAll_vacant, (Roster.roomier_of_grow granted).vacant]
        rfl
      · have added (report : Report α) (ended : report.outcome = .returned .done) :
            (Op.join target source memory).gained name (fun source => (s.order source).length)
              report = 0 := by
          rw [Op.gained, ended]
          exact if_neg here
        rw [added _ rfl]
        refine ⟨plain, ?_, .unmoved rfl⟩
        exact (Registry.find?_put_of_ne _ _ elsewhere).trans
          ((p.lists.find?_put_of_ne _ (Ne.symm here)).trans there)

theorem Mirrors.step_stacks (mirrors : s.Mirrors p) {plain : PlainList α}
    (there : p.lists.find? name = some plain) {op : Op α} (remembers : s.Remembers name op) :
    ∃ after, (p.step op).2.lists.find? name = some after ∧
      Stacks (s.gained name op) (s.taken name op) plain.roster after.roster := by
  rcases mirrors.mirrored there with ⟨list, -, same⟩
  have proper := same.represents.proper
  cases op with
  | on target listOp =>
    by_cases here : target = name
    · subst here
      have keeps := remembers.keeps
      unfold gained taken
      rw [mirrors.order_eq there, Op.taken_on, Op.gained_on]
      rw [(step_agrees mirrors _).report, PlainStore.step_reported there] at keeps ⊢
      refine ⟨_, p.lists.find?_put_self target _, ?_⟩
      apply PlainBench.perform_stacks proper rfl
      rintro rfl ended
      exact keeps ⟨beq_self_eq_true target, ended⟩
    · exact mirrors.level_stacks there remembers fun same => (here same).elim
  | join target source memory => exact mirrors.join_stacks there remembers
  | _ => exact mirrors.level_stacks there remembers trivial

end Store

end LinkedSlots
