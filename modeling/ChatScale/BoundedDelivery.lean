import ChatScale.TransitionSystem
import Mathlib.Data.List.Nodup

/-!
# Bounded buffers whose readers may stop

Every member of a system has a buffer of bounded size. Frames wait in it, and
further frames are owed to it: some process has taken them up and does nothing
else until they are in the buffer. When the reader of a buffer has stopped,
nothing leaves the buffer any more, so what waits and what is owed must fit
into it together, or a process waits for ever.
-/

namespace ChatScale.BoundedDelivery

open ChatScale.TransitionSystem

set_option autoImplicit false

variable {Member : Type*}

structure Load (Member : Type*) where
  waiting : Member → Nat
  owed : Member → Nat
  stopped : Member → Bool

def Load.total (load : Load Member) (member : Member) : Nat :=
  load.waiting member + load.owed member

def Load.Within (capacity : Nat) (load : Load Member) : Prop :=
  ∀ member, load.stopped member = true → load.total member ≤ capacity

/-- The buffer is full for good and something is still owed to it. -/
def Load.Stuck (capacity : Nat) (load : Load Member) (member : Member) : Prop :=
  load.stopped member = true ∧ load.waiting member = capacity ∧ 0 < load.owed member

/-- A step that overloads no buffer whose reader has stopped. -/
def Moderate (capacity : Nat) (before after : Load Member) : Prop :=
  ∀ member, after.stopped member = true → after.total member ≤ capacity ∨
    before.stopped member = true ∧ after.total member ≤ before.total member

/-- Room for one more frame is asked for only where the reader has stopped. -/
theorem total_lt_of_room {capacity : Nat} {load : Load Member} {member : Member}
    (room : (!load.stopped member || decide (load.total member < capacity)) = true)
    (stopped : load.stopped member = true) : load.total member < capacity := by
  rw [stopped] at room
  exact of_decide_eq_true room

section Steps

variable {capacity : Nat} {before after : Load Member}

/-- Frames change their place, but no buffer gets more of them. -/
theorem moderate_same (stopped : ∀ member, after.stopped member = before.stopped member)
    (totals : ∀ member, after.total member = before.total member) :
    Moderate capacity before after := by
  intro member gone
  rw [stopped] at gone
  exact .inr ⟨gone, Nat.le_of_eq (totals member)⟩

theorem moderate_of_one (member : Member)
    (others : ∀ other, other ≠ member → after.stopped other = before.stopped other ∧
      after.total other = before.total other)
    (own : after.stopped member = true → after.total member ≤ capacity ∨
      before.stopped member = true ∧ after.total member ≤ before.total member) :
    Moderate capacity before after := by
  intro other gone
  by_cases same : other = member
  · subst same
    exact own gone
  · have unchanged := others other same
    rw [unchanged.1] at gone
    exact .inr ⟨gone, Nat.le_of_eq unchanged.2⟩

/-- A process takes up one frame for each of its targets. -/
theorem moderate_take_up [DecidableEq Member] {targets : List Member} (distinct : targets.Nodup)
    (stopped : ∀ member, after.stopped member = before.stopped member)
    (totals : ∀ member, after.total member = before.total member + targets.count member)
    (room : ∀ member ∈ targets, before.stopped member = true → before.total member < capacity) :
    Moderate capacity before after := by
  intro member gone
  rw [stopped] at gone
  rw [totals]
  by_cases target : member ∈ targets
  · rw [List.count_eq_one_of_mem distinct target]
    exact .inl (room member target gone)
  · rw [List.count_eq_zero_of_not_mem target]
    exact .inr ⟨gone, Nat.le_refl _⟩

end Steps

theorem within_step {capacity : Nat} {before after : Load Member}
    (within : before.Within capacity) (moderate : Moderate capacity before after) :
    after.Within capacity := by
  intro member stopped
  rcases moderate member stopped with fits | ⟨stoppedBefore, lighter⟩
  · exact fits
  · exact Nat.le_trans lighter (within member stoppedBefore)

theorem not_stuck_of_within {capacity : Nat} {load : Load Member}
    (within : load.Within capacity) (member : Member) : ¬ load.Stuck capacity member := by
  rintro ⟨stopped, full, owed⟩
  have bound := within member stopped
  unfold Load.total at bound
  omega

/-- The rule for a system: if no step of a run overloads a stopped buffer, no
buffer gets stuck. -/
theorem never_stuck {State Action : Type*} {step : State → Action → Option State}
    {allowed : State → Action → Prop} {start state : State} {capacity : Nat}
    (load : State → Load Member) (initial : (load start).Within capacity)
    (moderate : ∀ before action after, Reachable step allowed start before →
      allowed before action → step before action = some after →
      Moderate capacity (load before) (load after))
    (reached : Reachable step allowed start state) (member : Member) :
    ¬ (load state).Stuck capacity member := by
  apply not_stuck_of_within
  apply reachable_induction (fun state => (load state).Within capacity) initial _ reached
  intro before action after known within permitted stepped
  exact within_step within (moderate before action after known permitted stepped)

end ChatScale.BoundedDelivery
