import LinkedSlots.Proofs.Ownership
import LinkedSlots.Proofs.Stability
import LinkedSlots.Proofs.TwinStores

namespace LinkedSlots

variable {α : Type}

/-- Lists that differ at most in slots: in the handles of their nodes, in how many slots were made and
    in the stack of vacant slots. -/
structure HookedList.Twins (list other : HookedList α) : Prop where
  values : list.chain.values = other.chain.values
  capacity : list.chain.capacity = other.chain.capacity
  hooks : list.hooks = other.hooks

namespace HookedList

variable {known : HookSet α → Prop} {list other : HookedList α} {plain plain' : PlainList α}

theorem Mirrors.twins_iff (mirrors : list.Mirrors plain) (mirrors' : other.Mirrors plain') :
    list.Twins other ∧ known list.hooks ↔ plain.Twins known plain' := by
  constructor
  · rintro ⟨same, inside⟩
    have values := same.values
    rw [mirrors.represents.values, mirrors'.represents.values] at values
    have capacity := same.capacity
    rw [mirrors.represents.capacity, mirrors'.represents.capacity] at capacity
    refine ⟨Roster.twins_of_values (Except.ok.inj values) capacity, ?_, mirrors.hooks ▸ inside⟩
    rw [← mirrors.hooks, ← mirrors'.hooks, same.hooks]
  · rintro ⟨⟨twins, roster⟩, hooks, inside⟩
    refine ⟨⟨?_, ?_, ?_⟩, mirrors.hooks ▸ inside⟩
    · rw [mirrors.represents.values, mirrors'.represents.values, roster.values]
    · rw [mirrors.represents.capacity, mirrors'.represents.capacity, roster.capacity]
    · rw [mirrors.hooks, mirrors'.hooks, hooks]

end HookedList

namespace Store

structure Twins (names : Set String) (s t : Store α) : Prop where
  lists : ∀ name ∈ names, Option.Rel HookedList.Twins (s.lists.find? name) (t.lists.find? name)
  hooks : ∀ name ∈ names, ∀ list, s.lists.find? name = some list →
    list.hooks.SameState s.ledger t.ledger

def Level (s t : Store α) (name : String) : Handle → Handle → Prop :=
  LinkedSlots.Level (s.order name) (t.order name)

variable {known : HookSet α → Prop} {names : Set String} {s t : Store α} {p p' : PlainStore α}
  {name : String}

theorem Mirrors.twins (mirrors : s.Mirrors p) (mirrors' : t.Mirrors p')
    (twins : p.Twins known names p') : s.Twins names t := by
  have both : ∀ name ∈ names, (s.lists.find? name = none ∧ t.lists.find? name = none) ∨
      ∃ list list', s.lists.find? name = some list ∧ t.lists.find? name = some list' ∧
        list.Twins list' ∧ known list.hooks := by
    intro name named
    rcases twins.lists.cases named with ⟨absent, absent'⟩ | ⟨plain, plain', there, there', same⟩
    · left
      constructor
      · rcases mirrors.lists.find? name with ⟨missing, -⟩ | ⟨-, plain, -, there, -⟩
        · exact missing
        · rw [absent] at there
          cases there
      · rcases mirrors'.lists.find? name with ⟨missing, -⟩ | ⟨-, plain, -, there, -⟩
        · exact missing
        · rw [absent'] at there
          cases there
    · rcases mirrors.mirrored there with ⟨list, found, first⟩
      rcases mirrors'.mirrored there' with ⟨list', found', second⟩
      have same := (first.twins_iff second).mpr same
      exact .inr ⟨list, list', found, found', same.1, same.2⟩
  constructor
  · intro name named
    rcases both name named with ⟨absent, absent'⟩ | ⟨list, list', found, found', same, -⟩
    · rw [absent, absent']
      exact .none
    · rw [found, found']
      exact .some same
  · intro name named list found
    rcases both name named with ⟨absent, -⟩ | ⟨_, list', found', -, -, inside⟩
    · rw [absent] at found
      cases found
    · rw [found'] at found
      cases found
      rw [mirrors.ledger, mirrors'.ledger]
      exact twins.hooks _ inside

variable [BEq α] [Outlined α] [Stored α]

end Store

end LinkedSlots
