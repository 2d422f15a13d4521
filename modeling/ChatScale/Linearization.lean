import ChatScale.TransitionSystem
import Mathlib.Data.List.Nodup

/-!
# Linearization points

A system with many calls under way acts like an object that performs one
operation at a time, if some steps of the calls can be named as the points at
which their operations take effect. The rules below turn what one step does
into what a whole run does: the state of the object is that after the
operations in the order of their points, every answer is the object's answer at
a point of the call that got it, and a call has at most one point.
-/

namespace ChatScale.Linearization

open ChatScale.TransitionSystem

set_option autoImplicit false

variable {State Action Caller Operation Object Response Answer : Type*}

/-- The object after operations one at a time. -/
def perform (respond : Object → Operation → Object × Response) (object : Object)
    (operations : List Operation) : Object :=
  operations.foldl (fun object operation => (respond object operation).1) object

theorem perform_append (respond : Object → Operation → Object × Response) (object : Object)
    (first second : List Operation) :
    perform respond object (first ++ second) =
      perform respond (perform respond object first) second :=
  List.foldl_append

/-- The operations of a run with their callers, in the order of their points. -/
def history (point : Transition State Action → Option (Caller × Operation))
    (trace : List (Transition State Action)) : List (Caller × Operation) := trace.filterMap point

/-- The call has a point at which the object's response fits the answer. -/
def AnsweredAt (respond : Object → Operation → Object × Response) (object : Object)
    (points : List (Caller × Operation)) (caller : Caller) (fits : Response → Prop) : Prop :=
  ∃ earlier operation later, points = earlier ++ (caller, operation) :: later ∧
    fits (respond (perform respond object (earlier.map Prod.snd)) operation).2

section Runs

variable {step : State → Action → Option State} {allowed : State → Action → Prop}
  {start state : State} {trace : List (Transition State Action)}
  {respond : Object → Operation → Object × Response}
  {point : Transition State Action → Option (Caller × Operation)}

theorem history_snoc (point : Transition State Action → Option (Caller × Operation))
    (trace : List (Transition State Action)) (taken : Transition State Action) :
    history point (trace ++ [taken]) = history point trace ++ (point taken).toList := by
  rw [history, List.filterMap_append]
  cases found : point taken with
  | none => simp [history, found]
  | some operation => simp [history, found]

/-- What a step does to the object: nothing, or the operation of its point. -/
def Performs (view : State → Object) (respond : Object → Operation → Object × Response)
    (point : Transition State Action → Option (Caller × Operation))
    (taken : Transition State Action) : Prop :=
  view taken.after = perform respond (view taken.before)
    ((point taken).toList.map Prod.snd)

theorem run_performs (view : State → Object)
    (performs : ∀ taken : Transition State Action, Reachable step allowed start taken.before →
      step taken.before taken.action = some taken.after → Performs view respond point taken)
    (run : Run step allowed start trace state) :
    view state = perform respond (view start) ((history point trace).map Prod.snd) := by
  induction run with
  | nil => rfl
  | @snoc trace middle next action prior permitted stepped induction =>
      have last : Performs view respond point ⟨middle, action, next⟩ :=
        performs _ ⟨trace, prior⟩ stepped
      rw [history_snoc, List.map_append, perform_append, ← induction]
      exact last

/-- Every answer is the object's answer at a point of its call. -/
theorem run_answers (view : State → Object) (answered : State → Caller → Answer → Prop)
    (fits : Answer → Response → Prop)
    (performs : ∀ taken : Transition State Action, Reachable step allowed start taken.before →
      step taken.before taken.action = some taken.after → Performs view respond point taken)
    (answers : ∀ taken : Transition State Action, Reachable step allowed start taken.before →
      step taken.before taken.action = some taken.after →
      ∀ caller answer, answered taken.after caller answer →
        answered taken.before caller answer ∨ ∃ operation,
          point taken = some (caller, operation) ∧
            fits answer (respond (view taken.before) operation).2)
    (none : ∀ caller answer, ¬answered start caller answer)
    (run : Run step allowed start trace state) (caller : Caller) (answer : Answer)
    (got : answered state caller answer) :
    AnsweredAt respond (view start) (history point trace) caller (fits answer) := by
  induction run with
  | nil => exact absurd got (none caller answer)
  | @snoc trace middle next action prior permitted stepped induction =>
      rw [history_snoc]
      rcases answers ⟨middle, action, next⟩ ⟨trace, prior⟩ stepped caller answer got with
        before | ⟨operation, here, fitting⟩
      · rcases induction before with ⟨earlier, operation, later, split, fitting⟩
        refine ⟨earlier, operation, later ++ (point ⟨middle, action, next⟩).toList, ?_, fitting⟩
        rw [split, List.append_assoc, List.cons_append]
      · refine ⟨history point trace, operation, [], by rw [here]; rfl, ?_⟩
        rw [← run_performs view performs prior]
        exact fitting

/-- A call that has passed its point has no other. -/
theorem run_points_once (passed : State → Caller → Prop)
    (enters : ∀ taken : Transition State Action, Reachable step allowed start taken.before →
      step taken.before taken.action = some taken.after → ∀ caller operation,
        point taken = some (caller, operation) →
          ¬passed taken.before caller ∧ passed taken.after caller)
    (stays : ∀ taken : Transition State Action, Reachable step allowed start taken.before →
      step taken.before taken.action = some taken.after → ∀ caller,
        passed taken.before caller → passed taken.after caller)
    (run : Run step allowed start trace state) :
    ((history point trace).map Prod.fst).Nodup ∧
      ∀ caller ∈ (history point trace).map Prod.fst, passed state caller := by
  induction run with
  | nil => exact ⟨List.nodup_nil, by simp [history]⟩
  | @snoc trace middle next action prior permitted stepped induction =>
      have reached : Reachable step allowed start middle := ⟨trace, prior⟩
      have kept (caller : Caller) (listed : caller ∈ (history point trace).map Prod.fst) :
          passed next caller :=
        stays ⟨middle, action, next⟩ reached stepped caller (induction.2 caller listed)
      rw [history_snoc]
      cases found : point ⟨middle, action, next⟩ with
      | none =>
          rw [Option.toList_none, List.append_nil]
          exact ⟨induction.1, kept⟩
      | some operation =>
          rcases enters ⟨middle, action, next⟩ reached stepped operation.1 operation.2 found with
            ⟨fresh, now⟩
          have new : operation.1 ∉ (history point trace).map Prod.fst :=
            fun listed => fresh (induction.2 _ listed)
          rw [Option.toList_some, List.map_append]
          constructor
          · exact List.nodup_append.mpr ⟨induction.1, List.nodup_singleton _, by grind⟩
          · intro caller listed
            rcases List.mem_append.mp listed with old | last
            · exact kept caller old
            · rw [List.mem_singleton.mp last]
              exact now

end Runs

end ChatScale.Linearization
