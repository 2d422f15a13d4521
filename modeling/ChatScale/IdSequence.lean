import Mathlib.Data.List.Nodup
import Mathlib.Logic.Function.Basic

/-!
# Ids drawn from a sequence

Holders draw ids from a sequence, one each at a time; an id is then committed or
given up, and never drawn again. Whatever the order in which the holders commit,
a committed id is neither another committed id nor one that is still held.
-/

namespace ChatScale.IdSequence

set_option autoImplicit false

variable {Holder : Type*}

/-- The committed ids and the ids held come from a sequence that started at
`first` and gives `next` next. -/
structure Drawn (first next : Nat) (committed : List Nat) (held : Holder → Option Nat) :
    Prop where
  started : first ≤ next
  distinct : committed.Nodup
  within : ∀ id ∈ committed, first ≤ id ∧ id < next
  fresh : ∀ holder id, held holder = some id → first ≤ id ∧ id < next ∧ id ∉ committed
  apart : ∀ left right id, held left = some id → held right = some id → left = right

variable {first next : Nat} {committed : List Nat} {held : Holder → Option Nat}

theorem drawn_start (first : Nat) : Drawn first first [] fun _ : Holder => none where
  started := Nat.le_refl first
  distinct := List.nodup_nil
  within := by simp
  fresh := by simp
  apart := by simp

variable [DecidableEq Holder] {holder : Holder}

theorem held_elsewhere {value : Option Nat} {other : Holder} {id : Nat}
    (holds : Function.update held holder value other = some id) :
    other = holder ∧ value = some id ∨ held other = some id := by
  by_cases same : other = holder
  · subst same
    rw [Function.update_self] at holds
    exact .inl ⟨rfl, holds⟩
  · rw [Function.update_of_ne same] at holds
    exact .inr holds

theorem drawn_release (drawn : Drawn first next committed held) (holder : Holder) :
    Drawn first next committed (Function.update held holder none) where
  started := drawn.started
  distinct := drawn.distinct
  within := drawn.within
  fresh := by
    intro other id holds
    rcases held_elsewhere holds with ⟨_, nothing⟩ | before
    · cases nothing
    · exact drawn.fresh other id before
  apart := by
    intro left right id leftHolds rightHolds
    rcases held_elsewhere leftHolds with ⟨_, nothing⟩ | leftBefore
    · cases nothing
    · rcases held_elsewhere rightHolds with ⟨_, nothing⟩ | rightBefore
      · cases nothing
      · exact drawn.apart left right id leftBefore rightBefore

theorem drawn_draw (drawn : Drawn first next committed held) (holder : Holder) :
    Drawn first (next + 1) committed (Function.update held holder (some next)) where
  started := Nat.le_succ_of_le drawn.started
  distinct := drawn.distinct
  within := by
    intro id listed
    have known := drawn.within id listed
    omega
  fresh := by
    intro other id holds
    rcases held_elsewhere holds with ⟨_, drew⟩ | before
    · cases drew
      refine ⟨drawn.started, Nat.lt_succ_self next, ?_⟩
      intro listed
      exact Nat.lt_irrefl next (drawn.within next listed).2
    · have known := drawn.fresh other id before
      exact ⟨known.1, Nat.lt_succ_of_lt known.2.1, known.2.2⟩
  apart := by
    intro left right id leftHolds rightHolds
    rcases held_elsewhere leftHolds with ⟨leftIs, leftDrew⟩ | leftBefore
    · rcases held_elsewhere rightHolds with ⟨rightIs, _⟩ | rightBefore
      · exact leftIs.trans rightIs.symm
      · cases leftDrew
        exact absurd (drawn.fresh right next rightBefore).2.1 (Nat.lt_irrefl next)
    · rcases held_elsewhere rightHolds with ⟨_, rightDrew⟩ | rightBefore
      · cases rightDrew
        exact absurd (drawn.fresh left next leftBefore).2.1 (Nat.lt_irrefl next)
      · exact drawn.apart left right id leftBefore rightBefore

theorem drawn_commit (drawn : Drawn first next committed held) {id : Nat}
    (holds : held holder = some id) :
    Drawn first next (committed ++ [id]) (Function.update held holder none) where
  started := drawn.started
  distinct := by
    rw [← List.concat_eq_append, List.nodup_concat]
    exact ⟨(drawn.fresh holder id holds).2.2, drawn.distinct⟩
  within := by
    intro other listed
    rcases List.mem_append.mp listed with earlier | last
    · exact drawn.within other earlier
    · rw [List.mem_singleton.mp last]
      exact ⟨(drawn.fresh holder id holds).1, (drawn.fresh holder id holds).2.1⟩
  fresh := by
    intro other otherID otherHolds
    have released := drawn_release drawn holder
    have known := released.fresh other otherID otherHolds
    refine ⟨known.1, known.2.1, ?_⟩
    rw [List.mem_append, List.mem_singleton, not_or]
    refine ⟨known.2.2, ?_⟩
    rintro rfl
    rcases held_elsewhere otherHolds with ⟨_, nothing⟩ | before
    · cases nothing
    · have same := drawn.apart other holder otherID before holds
      rw [same, Function.update_self] at otherHolds
      cases otherHolds
  apart := (drawn_release drawn holder).apart

end ChatScale.IdSequence
