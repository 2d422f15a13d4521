import Mathlib.Tactic.SplitIfs
import Mathlib.Tactic.TypeStar

/-!
# Runs of a labelled transition system

A system is a partial step function on states, indexed by the action taken. A
run keeps every transition it made, so that a statement about a whole run can
speak of the state before and after each of its steps. The `allowed` predicate
restricts the steps a run may take; the unrestricted runs use `anyStep`.
-/

namespace ChatScale.TransitionSystem

set_option autoImplicit false

variable {State Action : Type*}

structure Transition (State Action : Type*) where
  before : State
  action : Action
  after : State

def anyStep : State → Action → Prop := fun _ _ => True

inductive Run (step : State → Action → Option State)
    (allowed : State → Action → Prop) (start : State) :
    List (Transition State Action) → State → Prop where
  | nil : Run step allowed start [] start
  | snoc {trace : List (Transition State Action)} {middle next : State} {action : Action}
      (prior : Run step allowed start trace middle)
      (permitted : allowed middle action)
      (stepped : step middle action = some next) :
      Run step allowed start (trace ++ [⟨middle, action, next⟩]) next

def Reachable (step : State → Action → Option State)
    (allowed : State → Action → Prop) (start state : State) : Prop :=
  ∃ trace, Run step allowed start trace state

variable {step : State → Action → Option State}
  {allowed : State → Action → Prop} {start state : State}

theorem reachable_start : Reachable step allowed start start := ⟨[], .nil⟩

theorem reachable_step {next : State} {action : Action}
    (prior : Reachable step allowed start state)
    (permitted : allowed state action) (stepped : step state action = some next) :
    Reachable step allowed start next := by
  obtain ⟨trace, run⟩ := prior
  exact ⟨_, .snoc run permitted stepped⟩

/-- A run under a restriction is one under every weaker restriction. -/
theorem reachable_weaken {weaker : State → Action → Prop}
    (weakens : ∀ state action, allowed state action → weaker state action)
    (reached : Reachable step allowed start state) : Reachable step weaker start state := by
  obtain ⟨trace, run⟩ := reached
  refine ⟨trace, ?_⟩
  induction run with
  | nil => exact .nil
  | snoc prior permitted stepped induction =>
      exact .snoc induction (weakens _ _ permitted) stepped

/-- Every transition of a run is a step from a state that can be reached. -/
theorem run_transition {trace : List (Transition State Action)}
    (run : Run step allowed start trace state) {taken : Transition State Action}
    (listed : taken ∈ trace) :
    Reachable step allowed start taken.before ∧ allowed taken.before taken.action ∧
      step taken.before taken.action = some taken.after := by
  induction run with
  | nil => cases listed
  | snoc prior permitted stepped induction =>
      rcases List.mem_append.mp listed with earlier | last
      · exact induction earlier
      · rw [List.mem_singleton.mp last]
        exact ⟨⟨_, prior⟩, permitted, stepped⟩

/-- The rule every safety result goes through: an invariant of the start state
that each permitted step keeps holds in every state reached. -/
theorem reachable_invariant (invariant : State → Prop)
    (initial : invariant start)
    (preserved : ∀ before action after, invariant before → allowed before action →
      step before action = some after → invariant after)
    (reached : Reachable step allowed start state) : invariant state := by
  obtain ⟨trace, run⟩ := reached
  induction run with
  | nil => exact initial
  | snoc prior permitted stepped induction =>
      exact preserved _ _ _ induction permitted stepped

/-- The same rule for an invariant whose step may use what is known of every
reachable state. -/
theorem reachable_induction (invariant : State → Prop)
    (initial : invariant start)
    (preserved : ∀ before action after, Reachable step allowed start before →
      invariant before → allowed before action → step before action = some after →
      invariant after)
    (reached : Reachable step allowed start state) : invariant state := by
  have both : Reachable step allowed start state ∧ invariant state := by
    refine reachable_invariant (fun state => Reachable step allowed start state ∧ invariant state)
      ⟨reachable_start, initial⟩ ?_ reached
    intro before action after known permitted stepped
    exact ⟨reachable_step known.1 permitted stepped,
      preserved before action after known.1 known.2 permitted stepped⟩
  exact both.2

theorem reachable_trans {middle : State} (first : Reachable step allowed start middle)
    (second : Reachable step allowed middle state) : Reachable step allowed start state :=
  reachable_invariant (Reachable step allowed start) first
    (fun _ _ _ known permitted stepped => reachable_step known permitted stepped) second

/-- Forward simulation: a step of the one system is a step of the other or none.
Then every state reached in the one stands for a state reached in the other. -/
theorem reachable_simulation {Other OtherAction : Type*}
    {otherStep : Other → OtherAction → Option Other}
    {otherAllowed : Other → OtherAction → Prop} {otherStart : Other}
    (relates : State → Other → Prop) (initial : relates start otherStart)
    (simulates : ∀ before action after other,
      Reachable otherStep otherAllowed otherStart other → relates before other →
      allowed before action → step before action = some after →
      relates after other ∨ ∃ otherAction next, otherAllowed other otherAction ∧
        otherStep other otherAction = some next ∧ relates after next)
    (reached : Reachable step allowed start state) :
    ∃ other, Reachable otherStep otherAllowed otherStart other ∧ relates state other := by
  apply reachable_invariant (fun state => ∃ other,
    Reachable otherStep otherAllowed otherStart other ∧ relates state other)
    ⟨otherStart, reachable_start, initial⟩ _ reached
  intro before action after known permitted stepped
  rcases known with ⟨other, reachedOther, related⟩
  rcases simulates before action after other reachedOther related permitted stepped with
    same | ⟨otherAction, next, otherPermitted, otherStepped, relatedNext⟩
  · exact ⟨other, reachedOther, same⟩
  · exact ⟨next, reachable_step reachedOther otherPermitted otherStepped, relatedNext⟩

/-- A run seen through a view: a step of the one system is a step of the other
under its label, or has no label and leaves the view as it is. -/
theorem run_projection {Other OtherAction : Type*}
    {otherStep : Other → OtherAction → Option Other}
    {otherAllowed : Other → OtherAction → Prop} (view : State → Other)
    (label : Action → Option OtherAction)
    (silent : ∀ before action after, label action = none → step before action = some after →
      view after = view before)
    (shown : ∀ before action after other, label action = some other → allowed before action →
      step before action = some after →
      otherAllowed (view before) other ∧ otherStep (view before) other = some (view after))
    {trace : List (Transition State Action)} (run : Run step allowed start trace state) :
    Run otherStep otherAllowed (view start)
      (trace.filterMap fun taken =>
        (label taken.action).map fun other => ⟨view taken.before, other, view taken.after⟩)
      (view state) := by
  induction run with
  | nil => exact .nil
  | @snoc trace middle next action prior permitted stepped induction =>
      rw [List.filterMap_append]
      cases labelled : label action with
      | none =>
          rw [silent middle action next labelled stepped]
          simpa [labelled] using induction
      | some other =>
          obtain ⟨otherPermitted, otherStepped⟩ :=
            shown middle action next other labelled permitted stepped
          simpa [labelled] using induction.snoc otherPermitted otherStepped

instance (state : State) (action : Action) : Decidable (anyStep state action) := isTrue trivial

/-- The state after a list of actions, if each of them could be taken. -/
def runActions (step : State → Action → Option State) (allowed : State → Action → Prop)
    [∀ state action, Decidable (allowed state action)] (start : State) (actions : List Action) :
    Option State :=
  actions.foldlM (fun state action => if allowed state action then step state action else none)
    start

theorem reachable_run_actions [∀ state action, Decidable (allowed state action)]
    {actions : List Action} (prior : Reachable step allowed start state) {final : State}
    (ran : runActions step allowed state actions = some final) :
    Reachable step allowed start final := by
  induction actions generalizing state with
  | nil =>
      cases ran
      exact prior
  | cons action actions induction =>
      rw [runActions, List.foldlM_cons] at ran
      obtain ⟨middle, stepped, rest⟩ := Option.bind_eq_some_iff.mp ran
      split_ifs at stepped with permitted
      exact induction (reachable_step prior permitted stepped) rest

end ChatScale.TransitionSystem
