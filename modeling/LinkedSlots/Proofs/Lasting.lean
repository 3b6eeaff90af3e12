import LinkedSlots.Proofs.Refinement
import LinkedSlots.Proofs.Turning

namespace LinkedSlots

variable {α β : Type}

instance (run : EStateM.Result Panic (Session α) (Except ListError β)) : Decidable (Makes run) :=
  match run with
  | .ok (.ok made) t => .isTrue ⟨made, t, rfl⟩
  | .ok (.error _) _ => .isFalse nofun
  | .error _ _ => .isFalse nofun

theorem Alike.makes_iff {run : EStateM.Result Panic (Session α) (Except ListError (HookedList α))}
    {run' : EStateM.Result Panic (Session α) (Except ListError (PlainList α))}
    (alike : Alike HookedList.Made Eq run run') : Makes run ↔ Makes run' := by
  rcases alike.cases with ⟨made, made', t, _, ended, ended', same, rfl⟩ | ⟨panic, t, _, ended, ended', rfl⟩
  · subst ended ended'
    rcases made with e | list <;> rcases made' with e' | plain
    · exact iff_of_false nofun nofun
    · exact same.elim
    · exact same.elim
    · exact iff_of_true ⟨list, t, rfl⟩ ⟨plain, t, rfl⟩
  · subst ended ended'
    exact iff_of_false nofun nofun

namespace Store

variable {s : Store α} {p : PlainStore α}

instance (s : Store α) (source : String)
    (copy : HookedList α → Act (Session α) (Except ListError (HookedList α))) :
    Decidable (∃ list, s.lists.find? source = some list ∧ Makes (copy list s.session)) :=
  match s.lists.find? source with
  | none => .isFalse nofun
  | some list => decidable_of_iff (Makes (copy list s.session))
    ⟨fun makes => ⟨list, rfl, makes⟩, fun ⟨_, found, makes⟩ => Option.some.inj found ▸ makes⟩

theorem Mirrors.copies_iff (mirrors : s.Mirrors p) (source : String)
    {copy : HookedList α → Act (Session α) (Except ListError (HookedList α))}
    {plainCopy : PlainList α → Act (Session α) (Except ListError (PlainList α))}
    (alike : ∀ list plain, HookedList.Mirrors list plain →
      Alike HookedList.Made Eq (copy list s.session) (plainCopy plain s.session)) :
    (∃ list, s.lists.find? source = some list ∧ Makes (copy list s.session)) ↔
      ∃ plain, p.lists.find? source = some plain ∧ Makes (plainCopy plain p.session) := by
  rw [← mirrors.session]
  constructor
  · rintro ⟨list, found, made⟩
    rcases mirrors.found found with ⟨plain, there, same⟩
    exact ⟨plain, there, (alike list plain same).makes_iff.mp made⟩
  · rintro ⟨plain, there, made⟩
    rcases mirrors.mirrored there with ⟨list, found, same⟩
    exact ⟨list, found, (alike list plain same).makes_iff.mpr made⟩

variable [Stored α]

/-- The operation takes the list with this name away, or puts another one in its place. -/
def Ends (s : Store α) (name : String) : Op α → Prop
  | .create target _ => target = name
  | .createWithRoom target memory count =>
    target = name ∧ Makes (HookedList.withRoom memory count s.session)
  | .duplicate source target memory =>
    target = name ∧
      ∃ list, s.lists.find? source = some list ∧ Makes (HookedList.duplicate memory list s.session)
  | .duplicateWithHook source target memory =>
    target = name ∧ ∃ list, s.lists.find? source = some list ∧
      Makes (HookedList.duplicateWithHook memory list s.session)
  | .walkTaking target _ => target = name
  | .release target => target = name
  | .drop target => target = name
  | _ => False

instance (s : Store α) (name : String) : (op : Op α) → Decidable (s.Ends name op)
  | .create target _ => inferInstanceAs (Decidable (target = name))
  | .createWithRoom target memory count =>
    inferInstanceAs (Decidable (target = name ∧ Makes (HookedList.withRoom memory count s.session)))
  | .duplicate source target memory =>
    inferInstanceAs (Decidable (target = name ∧ ∃ list, s.lists.find? source = some list ∧
      Makes (HookedList.duplicate memory list s.session)))
  | .duplicateWithHook source target memory =>
    inferInstanceAs (Decidable (target = name ∧ ∃ list, s.lists.find? source = some list ∧
      Makes (HookedList.duplicateWithHook memory list s.session)))
  | .walkTaking target _ => inferInstanceAs (Decidable (target = name))
  | .release target => inferInstanceAs (Decidable (target = name))
  | .drop target => inferInstanceAs (Decidable (target = name))
  | .on _ _ => .isFalse id
  | .shareHooks _ _ => .isFalse id
  | .join _ _ _ => .isFalse id

theorem Mirrors.ends_iff (mirrors : s.Mirrors p) (name : String) (op : Op α) :
    s.Ends name op ↔ p.Ends name op := by
  cases op with
  | createWithRoom target memory count =>
    have alike := (HookedList.withRoom_alike memory count s.session).makes_iff
    exact and_congr_right' (mirrors.session ▸ alike)
  | duplicate source target memory =>
    exact and_congr_right' (mirrors.copies_iff source fun _ _ same =>
      HookedList.duplicate_alike same memory _)
  | duplicateWithHook source target memory =>
    exact and_congr_right' (mirrors.copies_iff source fun _ _ same =>
      HookedList.duplicateWithHook_alike same memory _)
  | _ => exact Iff.rfl

variable [BEq α] [Outlined α]

def Along (holds : Store α → Op α → Prop) (s : Store α) : List (Op α) → Prop
  | [] => True
  | op :: ops => holds s op ∧ (s.step op).2.Along holds ops

instance (holds : Store α → Op α → Prop) [∀ s op, Decidable (holds s op)] :
    (s : Store α) → (ops : List (Op α)) → Decidable (s.Along holds ops)
  | _, [] => .isTrue trivial
  | s, op :: ops =>
    have := instDecidableAlong holds (s.step op).2 ops
    inferInstanceAs (Decidable (holds s op ∧ (s.step op).2.Along holds ops))

theorem Mirrors.lasts (mirrors : s.Mirrors p) {name : String} {plain : PlainList α}
    (there : p.lists.find? name = some plain) {op : Op α} (stays : ¬ s.Ends name op) :
    ∃ after, (p.step op).2.lists.find? name = some after ∧
      Turn name op (s.step op).1 plain.roster after.roster := by
  rcases mirrors.mirrored there with ⟨list, -, same⟩
  rw [mirrors.ends_iff] at stays
  rw [(step_agrees mirrors op).report]
  exact PlainStore.step_turns there same.represents.proper stays

end Store

end LinkedSlots
