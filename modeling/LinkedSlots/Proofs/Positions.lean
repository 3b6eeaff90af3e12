import LinkedSlots.Proofs.Links
import LinkedSlots.Proofs.Stability
import Mathlib.Logic.ExistsUnique
import Mathlib.Logic.Function.Iterate

namespace LinkedSlots

variable {α : Type}

theorem Follows.iterate {link : Handle → Option Handle} {start : Option Handle}
    {handles : List Handle} (follows : Follows link start handles) (count : Nat) :
    (fun handle? => handle?.bind link)^[count] start = handles[count]? := by
  induction handles generalizing start count with
  | nil =>
    cases follows
    rw [List.getElem?_nil]
    exact Function.iterate_fixed rfl count
  | cons handle rest ih =>
    rcases follows with ⟨rfl, later⟩
    cases count with
    | zero => rfl
    | succ count =>
      rw [Function.iterate_succ_apply, List.getElem?_cons_succ]
      exact ih later count

-- The magnitude of the least word has no counterpart above zero.
def magnitude (word : Int64) : UInt64 := word.abs.toUInt64

theorem magnitude_toNat (word : Int64) : (magnitude word).toNat = word.toInt.natAbs := by
  have value : word.toInt = word.toBitVec.toInt := rfl
  have distance : (magnitude word).toNat = word.toBitVec.abs.toNat := rfl
  have bound := word.toBitVec.isLt
  rw [distance, value, BitVec.toNat_abs, BitVec.toInt_eq_toNat_cond, BitVec.msb_eq_decide]
  simp only [decide_eq_true_eq]
  split <;> split <;> omega

theorem magnitude_pred {word : Int64} (negative : word.toInt < 0) :
    word.toInt = .negSucc (magnitude word - 1).toNat := by
  have distance := magnitude_toNat word
  have positive : (1 : UInt64) ≤ magnitude word := by
    rw [UInt64.le_iff_toNat_le, UInt64.toNat_one]
    omega
  rw [UInt64.toNat_sub_of_le _ _ positive, UInt64.toNat_one, Int.negSucc_eq]
  omega

theorem toUInt64_of_nonneg {word : Int64} (nonneg : 0 ≤ word.toInt) :
    word.toInt = .ofNat word.toUInt64.toNat := by
  have value : word.toInt = word.toBitVec.toInt := rfl
  have read : word.toUInt64.toNat = word.toBitVec.toNat := rfl
  have bound := word.toBitVec.isLt
  rw [value, BitVec.toInt_eq_toNat_cond] at nonneg ⊢
  rw [read]
  split at nonneg <;> rename_i small
  · rw [if_pos small]
    rfl
  · omega

namespace Roster

variable {q : Roster α} {position : Int}

theorem index_ahead (q : Roster α) (nonneg : 0 ≤ position) :
    q.index position = q.handles[position.toNat]? := by
  rcases Int.eq_ofNat_of_zero_le nonneg with ⟨count, rfl⟩
  rfl

theorem index_behind (within : -q.handles.length ≤ position) (negative : position < 0) :
    q.index position = q.handles[(q.handles.length + position).toNat]? := by
  rcases Int.eq_negSucc_of_lt_zero negative with ⟨skipped, rfl⟩
  have short : skipped < q.handles.length := by omega
  have place : (q.handles.length + Int.negSucc skipped).toNat = q.handles.length - 1 - skipped := by
    omega
  rw [place, ← List.getElem?_reverse short]
  rfl

theorem index_before (outside : position < -q.handles.length) : q.index position = none := by
  have negative : position < 0 := by omega
  rcases Int.eq_negSucc_of_lt_zero negative with ⟨skipped, rfl⟩
  show q.handles.reverse[skipped]? = none
  rw [List.getElem?_eq_none]
  rw [List.length_reverse]
  omega

theorem index_wraps (nonneg : 0 ≤ position) (within : position < q.handles.length) :
    q.index (position - q.handles.length) = q.index position := by
  have same : (q.handles.length + (position - q.handles.length)).toNat = position.toNat := by omega
  rw [index_behind (by omega) (by omega), same, q.index_ahead nonneg]

/-- A live handle stands at one position ahead, and at one position from the end. -/
theorem Proper.placed_once (proper : q.Proper) {handle : Handle} (live : handle ∈ q.handles) :
    (∃! position : Int, 0 ≤ position ∧ position < q.handles.length ∧
      q.index position = some handle) ∧
    ∃! position : Int, -q.handles.length ≤ position ∧ position < 0 ∧
      q.index position = some handle := by
  rcases List.mem_iff_getElem.mp live with ⟨count, bound, here⟩
  have there : q.index count = some handle := by
    rw [q.index_ahead (Int.natCast_nonneg count), Int.toNat_natCast, List.getElem?_eq_getElem bound,
      here]
  have alone : ∀ position : Int, 0 ≤ position → position < q.handles.length →
      q.index position = some handle → position = count := by
    intro position nonneg within found
    rw [q.index_ahead nonneg] at found
    rcases List.getElem?_eq_some_iff.mp found with ⟨short, also⟩
    have same := proper.handles_nodup.getElem_inj_iff.mp (also.trans here.symm)
    omega
  constructor
  · refine ⟨count, ⟨by omega, by omega, there⟩, ?_⟩
    rintro position ⟨nonneg, within, found⟩
    exact alone position nonneg within found
  · refine ⟨count - q.handles.length, ⟨by omega, by omega, ?_⟩, ?_⟩
    · rw [index_wraps (by omega) (by omega), there]
    · rintro position ⟨within, negative, found⟩
      -- Counted from the head, the position is one of those above.
      have ahead : q.index (position + q.handles.length) = some handle := by
        rw [← index_wraps (by omega) (by omega), Int.add_sub_cancel, found]
      have same := alone _ (by omega) (by omega) ahead
      omega

end Roster

namespace Chain

variable {c : Chain α} {q : Roster α}

/-- The handle at a position that is given as a machine word. For a negative one as many nodes are
    passed over from the end as its magnitude says, less one. -/
def indexWord (c : Chain α) (word : Int64) : Except Fault (Option Handle) :=
  if word.toInt < 0 then
    Edit.result (Walk.takeNth c.handleWalk.nextBack (magnitude word - 1).toNat) c.cursor
  else Edit.result (Walk.takeNth c.handleWalk.next word.toUInt64.toNat) c.cursor

theorem index_word (c : Chain α) (word : Int64) : c.index word.toInt = c.indexWord word := by
  unfold indexWord
  split <;> rename_i negative
  · rw [magnitude_pred negative]
    rfl
  · rw [toUInt64_of_nonneg (Int.not_lt.mp negative)]
    rfl

structure Indexed (c : Chain α) (handles : List Handle) : Prop where
  ahead : ∀ position : Int, 0 ≤ position → position < handles.length →
    ∃ handle, handles[position.toNat]? = some handle ∧ c.index position = .ok (some handle)
  behind : ∀ position : Int, -handles.length ≤ position → position < 0 →
    ∃ handle, handles[(handles.length + position).toNat]? = some handle ∧
      c.index position = .ok (some handle)
  outside : ∀ position : Int, position < -handles.length ∨ handles.length ≤ position →
    c.index position = .ok none
  wraps : ∀ position : Int, 0 ≤ position → position < handles.length →
    c.index position = c.index (position - handles.length)
  nexts : ∀ count : Nat,
    c.index count = .ok ((fun handle? => handle?.bind c.next?)^[count] c.head)
  prevs : ∀ count : Nat,
    c.index (-1 - count) = .ok ((fun handle? => handle?.bind c.prev?)^[count] c.tail)
  once : ∀ handle value, c.get? handle = some value →
    (∃! position : Int, 0 ≤ position ∧ position < handles.length ∧
      c.index position = .ok (some handle)) ∧
    ∃! position : Int, -handles.length ≤ position ∧ position < 0 ∧
      c.index position = .ok (some handle)
  words : ∀ word : Int64, c.index word.toInt = c.indexWord word

theorem Represents.indexed (rep : c.Represents q) : c.Indexed q.handles := by
  have linked := rep.linked
  constructor
  case ahead =>
    intro position nonneg within
    have bound : position.toNat < q.handles.length := by omega
    refine ⟨q.handles[position.toNat], List.getElem?_eq_getElem bound, ?_⟩
    rw [rep.index, q.index_ahead nonneg, List.getElem?_eq_getElem bound]
  case behind =>
    intro position within negative
    have bound : (q.handles.length + position).toNat < q.handles.length := by omega
    refine ⟨_, List.getElem?_eq_getElem bound, ?_⟩
    rw [rep.index, Roster.index_behind within negative, List.getElem?_eq_getElem bound]
  case outside =>
    intro position outside
    rw [rep.index]
    rcases outside with before | beyond
    · rw [Roster.index_before before]
    · rw [q.index_ahead (by omega), List.getElem?_eq_none (by omega)]
  case wraps =>
    intro position nonneg within
    rw [rep.index, rep.index, Roster.index_wraps nonneg within]
  case nexts =>
    intro count
    rw [linked.forward.iterate, rep.index]
    rfl
  case prevs =>
    intro count
    have negative : (-1 - count : Int) = .negSucc count := by omega
    rw [linked.backward.iterate, negative, rep.index]
    rfl
  case once =>
    intro handle value stored
    rw [rep.get?_eq, rep.proper.get?_eq_some_iff] at stored
    have live : handle ∈ q.handles := List.mem_map_of_mem stored
    simp only [rep.index, Except.ok.injEq]
    exact rep.proper.placed_once live
  case words => exact c.index_word

end Chain

namespace Store

variable [BEq α] [Outlined α] [Stored α]

/-- Counted from either end, and walked to from either end, positions name the same nodes, each of
    them once; to ask for one changes nothing. -/
theorem run_indexes (ops : List (Op α)) {name : String} {list : HookedList α}
    (found : (Store.empty.run ops).2.lists.find? name = some list) :
    let reached := (Store.empty.run ops).2
    ∃ handles, list.chain.handles = .ok handles ∧ list.chain.length = handles.length ∧
      list.chain.Indexed handles ∧
      ∀ position, ∃ handle?, list.chain.index position = .ok handle? ∧
        reached.step (.on name (.index position)) =
          (⟨.returned (.handle handle?), [], []⟩, reached) := by
  intro reached
  rcases run_found ops found with ⟨p, plain, mirrors, sorted, there, same⟩
  have rep := same.represents
  refine ⟨plain.roster.handles, rep.handles, rep.linked.counted, rep.indexed, ?_⟩
  intro position
  refine ⟨plain.roster.index position, rep.index position, ?_⟩
  exact mirrors.step_back (PlainStore.step_looks sorted there rfl)

/-- The nodes stand in another order than their slots, one of which is vacant. The least word lies
    before all of them. -/
theorem run_indexes_out_of_order :
    let ops : List (Op Value) := [
      .create "a" {},
      .on "a" (.insert .available .tail (.int 1)),
      .on "a" (.insert .available .head (.int 2)),
      .on "a" (.insert .available .tail (.int 3)),
      .on "a" (.insert .available .head (.int 4)),
      .on "a" (.delete 0)]
    ∃ list handles, (Store.empty.run ops).2.lists.find? "a" = some list ∧
      list.chain.handles = .ok handles ∧ handles = [3, 1, 2] ∧ list.chain.Indexed handles ∧
      list.chain.index 2 = .ok (some 2) ∧ list.chain.index (2 - 3) = .ok (some 2) ∧
      list.chain.indexWord Int64.minValue = .ok none := by
  intro ops
  have present : ((Store.empty.run ops).2.lists.find? "a").map
      (fun list => list.chain.handles.toOption) = some (some [3, 1, 2]) := by
    decide +kernel
  rcases Option.map_eq_some_iff.mp present with ⟨list, found, shown⟩
  rcases run_indexes ops found with ⟨handles, walked, -, indexed, -⟩
  rw [walked] at shown
  cases shown
  rcases indexed.ahead 2 (by decide) (by decide) with ⟨handle, here, there⟩
  cases here
  have wrapped := indexed.wraps 2 (by decide) (by decide)
  rw [there] at wrapped
  have least := indexed.outside Int64.minValue.toInt (.inl (by decide))
  rw [indexed.words] at least
  exact ⟨list, _, found, walked, rfl, indexed, there, wrapped.symm, least⟩

end Store

end LinkedSlots
