import ChatScale.TransitionSystem
import Mathlib.Data.List.Basic
import Mathlib.Data.List.Perm.Subperm

/-!
# Rounds bounded by a potential

A number that no step of a run raises and that every completed round lowers
bounds the rounds before the goal. What a round takes up is often the first few
items of a sorted list: either an item is among them, or they are all not after
it, and if they are of different kinds, enough of them go beyond any few kinds.
-/

namespace ChatScale.RoundBound

open ChatScale.TransitionSystem

set_option autoImplicit false

section Runs

variable {State Action : Type*} {step : State → Action → Option State}
  {allowed : State → Action → Prop} {start state : State}
  {trace : List (Transition State Action)}

/-- The rounds completed along a run. -/
def rounds (ends : Transition State Action → Bool) (trace : List (Transition State Action)) :
    Nat :=
  trace.countP ends

theorem run_rounds (goal : State → Prop) (potential : State → Nat)
    (ends : Transition State Action → Bool) (run : Run step allowed start trace state)
    (stays : ∀ taken ∈ trace, goal taken.before → goal taken.after)
    (lowers : ∀ taken ∈ trace, ¬ goal taken.before →
      (ends taken).toNat + potential taken.after ≤ potential taken.before) :
    goal state ∨ rounds ends trace + potential state ≤ potential start := by
  induction run with
  | nil =>
      right
      simp [rounds]
  | @snoc trace middle next action prior permitted stepped induction =>
      have last : (⟨middle, action, next⟩ : Transition State Action) ∈
          trace ++ [⟨middle, action, next⟩] := by simp
      have earlier := induction
        (fun taken listed => stays taken (List.mem_append_left _ listed))
        (fun taken listed => lowers taken (List.mem_append_left _ listed))
      by_cases reached : goal middle
      · exact .inl (stays _ last reached)
      · right
        have before := earlier.resolve_left reached
        have lowered := lowers _ last reached
        dsimp only at lowered
        rw [rounds, List.countP_append, List.countP_singleton]
        rw [rounds] at before
        cases ended : ends ⟨middle, action, next⟩ with
        | false =>
            rw [ended] at lowered
            simp only [Bool.toNat_false, Bool.false_eq_true, if_false] at lowered ⊢
            omega
        | true =>
            rw [ended] at lowered
            simp only [Bool.toNat_true, if_true] at lowered ⊢
            omega

/-- The run along a list of actions, if each of them could be taken. -/
def traceActions (step : State → Action → Option State) (allowed : State → Action → Prop)
    [∀ state action, Decidable (allowed state action)]
    (trace : List (Transition State Action)) (state : State) :
    List Action → Option (List (Transition State Action) × State)
  | [] => some (trace, state)
  | action :: actions =>
      if allowed state action then
        (step state action).bind fun next =>
          traceActions step allowed (trace ++ [⟨state, action, next⟩]) next actions
      else none

/-- A run can be followed with any function that computes some of its steps. -/
theorem run_trace_actions [∀ state action, Decidable (allowed state action)]
    {computed : State → Action → Option State}
    (computes : ∀ state action next, computed state action = some next →
      step state action = some next)
    {actions : List Action} (prior : Run step allowed start trace state)
    {longer : List (Transition State Action)} {final : State}
    (ran : traceActions computed allowed trace state actions = some (longer, final)) :
    Run step allowed start longer final := by
  induction actions generalizing trace state with
  | nil =>
      cases ran
      exact prior
  | cons action actions induction =>
      rw [traceActions] at ran
      split_ifs at ran with permitted
      rcases Option.bind_eq_some_iff.mp ran with ⟨next, stepped, rest⟩
      exact induction (prior.snoc permitted (computes _ _ _ stepped)) rest

end Runs

section Choices

variable {Item Label : Type*} {items : List Item}

/-- An item of a sorted list is among the first ones, or all of those are not after
it. -/
theorem taken_or_before {before : Item → Item → Prop} (sorted : items.Pairwise before)
    {item : Item} (listed : item ∈ items) (count : Nat) :
    item ∈ items.take count ∨
      (items.take count).length = count ∧ ∀ other ∈ items.take count, before other item := by
  rw [← List.take_append_drop count items, List.pairwise_append] at sorted
  rw [← List.take_append_drop count items, List.mem_append] at listed
  rcases listed with taken | later
  · exact .inl taken
  · right
    have room : count < items.length := by
      have some := List.length_pos_of_mem later
      rw [List.length_drop] at some
      omega
    refine ⟨?_, fun other taken => sorted.2.2 other taken item later⟩
    rw [List.length_take, Nat.min_eq_left (Nat.le_of_lt room)]

/-- More items than labels are excluded, each with a label of its own. -/
theorem exists_outside {label : Item → Label} (distinct : (items.map label).Nodup)
    {excluded : List Label} (more : excluded.length < items.length) :
    ∃ item ∈ items, label item ∉ excluded := by
  by_contra none
  have inside : items.map label ⊆ excluded := by
    intro name listed
    rcases List.mem_map.mp listed with ⟨item, member, rfl⟩
    by_contra outside
    exact none ⟨item, member, outside⟩
  have bound := (List.subperm_of_subset distinct inside).length_le
  rw [List.length_map] at bound
  omega

end Choices

end ChatScale.RoundBound
