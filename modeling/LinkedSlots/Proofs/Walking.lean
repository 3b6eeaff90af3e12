import LinkedSlots.Proofs.Queue
import LinkedSlots.Proofs.Removal
import LinkedSlots.Proofs.Updating
import LinkedSlots.Walk.Cursor

namespace LinkedSlots

variable {α β σ : Type}

theorem Edit.result_ok {edit : Edit σ β} {s t : σ} {b : β} (run : edit s = .ok b t) :
    Edit.result edit s = .ok b := by
  simp [Edit.result, run]

namespace Cursor

variable {q : Roster α} {read : Handle → Except Fault (Node α)} {cursor : Cursor}
  {entries : List (Handle × α)} {entry : Handle × α}

/-- A cursor that stands around a run of entries, all of which are still to come. -/
def Around (q : Roster α) (cursor : Cursor) (entries : List (Handle × α)) : Prop :=
  ∃ front back, q.entries = front ++ entries ++ back ∧
    cursor = ⟨firstOf entries (firstOf back none), lastOf (lastOf none front) entries,
      entries.length⟩

def Reads (read : Handle → Except Fault (Node α)) (q : Roster α) : Prop :=
  ∀ front entry back, q.entries = front ++ entry :: back →
    ∃ value, read entry.1 = .ok ⟨value, lastOf none front, firstOf back none⟩

theorem Around.remaining (around : Around q cursor entries) : cursor.remaining = entries.length := by
  obtain ⟨front, back, -, rfl⟩ := around
  rfl

theorem Around.member (around : Around q cursor (entry :: entries)) : entry ∈ q.entries := by
  obtain ⟨front, back, split, -⟩ := around
  simp [split]

theorem Around.takeFront_nil (around : Around q cursor []) :
    takeFront read cursor = .ok none cursor := by
  obtain ⟨front, back, -, rfl⟩ := around
  rfl

theorem Around.takeBack_nil (around : Around q cursor []) :
    takeBack read cursor = .ok none cursor := by
  obtain ⟨front, back, -, rfl⟩ := around
  rfl

theorem Reads.takeFront (reads : Reads read q) (around : Around q cursor (entry :: entries)) :
    ∃ moved, Cursor.takeFront read cursor = .ok (some entry.1) moved ∧ Around q moved entries := by
  obtain ⟨front, back, split, rfl⟩ := around
  obtain ⟨value, live⟩ := reads front entry (entries ++ back) (by simpa using split)
  refine ⟨⟨firstOf entries (firstOf back none), lastOf (lastOf none front) (entry :: entries),
    entries.length⟩, ?_, front ++ [entry], back, by simpa using split, by simp⟩
  simp [Cursor.takeFront, live]

theorem Reads.takeBack (reads : Reads read q) (around : Around q cursor (entries ++ [entry])) :
    ∃ moved, Cursor.takeBack read cursor = .ok (some entry.1) moved ∧ Around q moved entries := by
  obtain ⟨front, back, split, rfl⟩ := around
  obtain ⟨value, live⟩ := reads (front ++ entries) entry back (by simpa using split)
  refine ⟨⟨firstOf (entries ++ [entry]) (firstOf back none), lastOf (lastOf none front) entries,
    entries.length⟩, ?_, front, entry :: back, by simpa using split, by simp⟩
  simp [Cursor.takeBack, live]

end Cursor

namespace Chain

variable {c : Chain α} {q : Roster α} {entries : List (Handle × α)} {cursor : Cursor}

theorem Represents.cursor_around (rep : c.Represents q) : Cursor.Around q c.cursor q.entries := by
  refine ⟨[], [], by simp, ?_⟩
  simp [Chain.cursor, rep.head, rep.tail, rep.length]

theorem Represents.reads (rep : c.Represents q) : Cursor.Reads c.node q :=
  fun _ entry _ split => ⟨entry.2, rep.node_live split⟩

theorem Represents.handleWalk_visits (rep : c.Represents q) :
    c.handleWalk.Visits pure Prod.fst Prod.fst fun cursor entries _ =>
      Cursor.Around q cursor entries := by
  constructor
  · constructor
    · intro cursor seen around
      exact ⟨cursor, around.takeFront_nil, around⟩
    · intro cursor entry entries seen around
      obtain ⟨moved, run, rest⟩ := rep.reads.takeFront around
      exact ⟨moved, moved, run, rest, rfl, rest⟩
  · constructor
    · intro cursor seen around
      exact ⟨cursor, around.takeBack_nil, around⟩
    · intro cursor entry entries seen around
      rw [List.reverse_cons] at around
      obtain ⟨moved, run, rest⟩ := rep.reads.takeBack around
      exact ⟨moved, moved, run, rest, rfl, rest⟩
  · intro cursor entries seen around
    exact around.remaining

theorem Represents.valueBehind (rep : c.Represents q) {entry : Handle × α}
    (member : entry ∈ q.entries) (cursor : Cursor) :
    c.valueBehind (some entry.1) cursor = .ok (some entry.2) cursor := by
  obtain ⟨handle, value⟩ := entry
  obtain ⟨front, back, split⟩ := List.append_of_mem member
  simp [Chain.valueBehind, rep.node_live split]

theorem Represents.valueWalk_visits (rep : c.Represents q) :
    c.valueWalk.Visits pure Prod.snd Prod.snd fun cursor entries _ =>
      Cursor.Around q cursor entries := by
  constructor
  · constructor
    · intro cursor seen around
      exact ⟨cursor, by simp [valueWalk, handleWalk, Chain.valueBehind, around.takeFront_nil], around⟩
    · intro cursor entry entries seen around
      obtain ⟨moved, run, rest⟩ := rep.reads.takeFront around
      have behind := rep.valueBehind around.member moved
      exact ⟨moved, moved, by simp [valueWalk, handleWalk, run, behind], rest, rfl, rest⟩
  · constructor
    · intro cursor seen around
      exact ⟨cursor, by simp [valueWalk, handleWalk, Chain.valueBehind, around.takeBack_nil], around⟩
    · intro cursor entry entries seen around
      rw [List.reverse_cons] at around
      have member : entry ∈ q.entries := by
        obtain ⟨front, back, split, -⟩ := around
        simp [split]
      obtain ⟨moved, run, rest⟩ := rep.reads.takeBack around
      have behind := rep.valueBehind member moved
      exact ⟨moved, moved, by simp [valueWalk, handleWalk, run, behind], rest, rfl, rest⟩
  · intro cursor entries seen around
    exact around.remaining

theorem takingWalk_visits :
    (takingWalk (α := α)).Visits pure Prod.snd Prod.snd fun c entries _ =>
      ∃ q, c.Represents q ∧ q.entries = entries := by
  constructor
  · constructor
    · intro c seen start
      obtain ⟨q, rep, entries⟩ := start
      exact ⟨c, rep.popFront_nil entries, q, rep, entries⟩
    · intro c entry rest seen start
      obtain ⟨q, rep, entries⟩ := start
      obtain ⟨c', run, rep'⟩ := rep.popFront_cons entries
      exact ⟨c', c', run, ⟨_, rep', rfl⟩, rfl, _, rep', rfl⟩
  · constructor
    · intro c seen start
      obtain ⟨q, rep, entries⟩ := start
      exact ⟨c, rep.popBack_nil entries, q, rep, entries⟩
    · intro c entry rest seen start
      obtain ⟨q, rep, entries⟩ := start
      rw [List.reverse_cons] at entries
      obtain ⟨c', run, rep'⟩ := rep.popBack_concat entries
      have left : (q.takeOut rest.reverse entry.1 []).entries = rest.reverse := by
        simp [Roster.takeOut]
      exact ⟨c', c', run, ⟨_, rep', left⟩, rfl, _, rep', left⟩
  · intro c entries seen start
    obtain ⟨q, rep, rfl⟩ := start
    exact rep.length

theorem Represents.handles (rep : c.Represents q) : c.handles = .ok q.handles := by
  obtain ⟨moved, run, -⟩ := rep.handleWalk_visits.next.all [] rep.cursor_around
  exact Edit.result_ok (rep.length ▸ run)

theorem Represents.handlesBack (rep : c.Represents q) : c.handlesBack = .ok q.handles.reverse := by
  have start : Cursor.Around q c.cursor q.entries.reverse.reverse := by
    simpa using rep.cursor_around
  obtain ⟨moved, run, -⟩ := rep.handleWalk_visits.nextBack.all [] start
  rw [List.length_reverse, ← rep.length, List.map_reverse] at run
  exact Edit.result_ok run

theorem Represents.values (rep : c.Represents q) : c.values = .ok q.values := by
  obtain ⟨moved, run, -⟩ := rep.valueWalk_visits.next.all [] rep.cursor_around
  exact Edit.result_ok (rep.length ▸ run)

theorem Represents.walkTaking (rep : c.Represents q) (steps : List WalkStep) :
    ∃ c' q', Chain.walkTaking steps c = .ok (WalkStep.answers steps q.values) c' ∧
      c'.Represents q' ∧ q'.values = WalkStep.leftBy steps q.values := by
  obtain ⟨c', run, q', rep', left⟩ := takingWalk_visits.run steps [] ⟨q, rep, rfl⟩
  refine ⟨c', q', ?_, rep', ?_⟩
  · simpa [Chain.walkTaking, Roster.values, WalkStep.answers_map] using run
  · simp [Roster.values, WalkStep.leftBy_map, left]

end Chain

end LinkedSlots
