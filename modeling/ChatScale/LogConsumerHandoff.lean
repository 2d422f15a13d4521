import ChatScale.LogConsumerOffsets

/-!
# Handing jobs to the workers

A claim that hands over a job waits until the channel of the level has room, which
the worker of the level makes. `KafkaConsumer.Start` passes a handler without
channels and workers: there the first message of a known level blocks its partition
until the process ends.
-/

namespace ChatScale.LogConsumerHandoff

open ChatScale.ByteText ChatScale.LogConsumerModel ChatScale.LogConsumerOffsets
open ChatScale.TransitionSystem

set_option autoImplicit false

variable {Partition : Type}

/-- The channel of every job that a claim is handing over was made, and a worker runs
that receives from it. -/
def HandoffsServed (handler : Handler) (state : State Partition) : Prop :=
  ∀ partition level job, state.claims partition = .handing level job →
    (handler.channel level).isSome = true ∧ handler.worker level = true

/-- No message of the streams has one of the three levels. -/
def NoKnownLevel (streams : Partition → List Bytes) : Prop :=
  ∀ partition, ∀ value ∈ streams partition, ∀ level event, verdict value ≠ .known level event

/-- A claim only hands over jobs of messages of its partition. -/
def HandsMessages (streams : Partition → List Bytes) (state : State Partition) : Prop :=
  ∀ partition level job, state.claims partition = .handing level job →
    ∃ value ∈ streams partition, ∃ event, verdict value = .known level event

section Blocking

theorem received_handing {session : Nat} {partition : Partition} {offset : Nat} {value : Bytes}
    {level : Level} {job : Job Partition}
    (handing : received session partition offset value = .handing level job) :
    verdict value = .known level job.event := by
  rcases received_cases session partition offset value with ⟨_, stage⟩ | ⟨_, _, known, stage⟩
  · cases stage.symm.trans handing
  · cases stage.symm.trans handing
    exact known

variable [DecidableEq Partition]

theorem set_claim_hands {streams : Partition → List Bytes} {state : State Partition}
    (known : HandsMessages streams state) (partition : Partition) (stage : ClaimStage Partition)
    (hands : ∀ level job, stage = .handing level job →
      ∃ value ∈ streams partition, ∃ event, verdict value = .known level event) :
    HandsMessages streams (setClaim state partition stage) := by
  intro other level job handing
  by_cases same : other = partition
  · rw [same] at handing ⊢
    rw [set_claim_self] at handing
    exact hands level job handing
  · rw [set_claim_other state stage same] at handing
    exact known other level job handing

variable [Fintype Partition] {handler : Handler} {streams : Partition → List Bytes}

theorem step_hands_messages {before after : State Partition} {action : Action Partition}
    (known : HandsMessages streams before)
    (stepped : step handler streams before action = some after) : HandsMessages streams after := by
  cases step_cases stepped with
  | receive partition next value selecting read =>
      apply set_claim_hands known
      intro level job handing
      exact ⟨value, List.mem_of_getElem? read, job.event, received_handing handing⟩
  | skip partition offset skipping =>
      apply set_claim_hands known
      intro level job handing
      cases handing
  | hand partition level job capacity handing =>
      apply set_claim_hands known
      intro other next again
      cases again
  | close partition next dead selecting =>
      apply set_claim_hands known
      intro level job handing
      cases handing
  | start granted dead ended =>
      intro partition level job handing
      dsimp only at handing
      split_ifs at handing
  | crash =>
      intro partition level job handing
      cases handing
  | _ => exact known

theorem reachable_hands_messages {state : State Partition}
    (reached : Reachable (step handler streams) anyStep initial state) :
    HandsMessages streams state := by
  apply reachable_invariant (HandsMessages streams) _ _ reached
  · intro partition level job handing
    cases handing
  · intro before action after known _ stepped
    exact step_hands_messages known stepped

theorem receive_step (handler : Handler) {state : State Partition} {partition : Partition}
    {next : Nat} {value : Bytes} (selecting : state.claims partition = .selecting next)
    (read : (streams partition)[next]? = some value) :
    step handler streams state (.receive partition) =
      some (setClaim state partition (received state.session partition next value)) := by
  rw [step, selecting]
  dsimp only
  rw [read, Option.map_some]

/-- Up to the first message of a known level a claim only skips. -/
theorem reaches_offset (handler : Handler) (partition : Partition) (offset : Nat)
    (short : offset ≤ (streams partition).length)
    (unknown : ∀ earlier value, earlier < offset → (streams partition)[earlier]? = some value →
      ∀ level event, verdict value ≠ .known level event) :
    ∃ state, Reachable (step handler streams) anyStep initial state ∧
      state.claims partition = .selecting offset := by
  induction offset with
  | zero =>
      have started : step handler streams initial (.start fun _ => true) = some _ :=
        if_pos ⟨rfl, fun _ => rfl⟩
      exact ⟨_, reachable_step reachable_start trivial started, rfl⟩
  | succ offset induction =>
      rcases induction (Nat.le_of_succ_le short)
        (fun earlier value less => unknown earlier value (Nat.lt_succ_of_lt less)) with
        ⟨state, reached, selecting⟩
      have read : (streams partition)[offset]? = some (streams partition)[offset] :=
        List.getElem?_eq_getElem short
      have skips : received state.session partition offset (streams partition)[offset] =
          .skipping offset := by
        rcases received_cases state.session partition offset (streams partition)[offset] with
          ⟨_, stage⟩ | ⟨level, event, known, _⟩
        · exact stage
        · exact absurd known (unknown offset _ (Nat.lt_succ_self _) read level event)
      have receives := receive_step handler selecting read
      rw [skips] at receives
      have skipped : ∃ next, step handler streams (setClaim state partition (.skipping offset))
          (.skip partition) = some next ∧ next.claims partition = .selecting (offset + 1) := by
        rw [step, set_claim_self]
        exact ⟨_, rfl, set_claim_self _ _ _⟩
      rcases skipped with ⟨next, stepped, further⟩
      have received := reachable_step reached trivial receives
      exact ⟨next, reachable_step received trivial stepped, further⟩

/-- Some claim comes to hand over a job as soon as a message has a known level. -/
theorem reaches_handing (handler : Handler) {partition : Partition} {value : Bytes}
    (listed : value ∈ streams partition) {level : Level} {event : LogEvent}
    (known : verdict value = .known level event) :
    ∃ state other job, Reachable (step handler streams) anyStep initial state ∧
      state.claims partition = .handing other job := by
  classical
  let Known (offset : Nat) : Prop := ∃ value level event,
    (streams partition)[offset]? = some value ∧ verdict value = .known level event
  have present : ∃ offset, Known offset := by
    rcases List.mem_iff_getElem?.mp listed with ⟨offset, read⟩
    exact ⟨offset, value, level, event, read, known⟩
  -- The first such offset is reached, as all before it are skipped.
  rcases Nat.find_spec present with ⟨first, other, found, read, classified⟩
  have short : Nat.find present ≤ (streams partition).length :=
    Nat.le_of_lt (List.getElem?_eq_some_iff.mp read).1
  have unknown : ∀ earlier value, earlier < Nat.find present →
      (streams partition)[earlier]? = some value →
        ∀ level event, verdict value ≠ .known level event := by
    intro earlier value less here level event again
    exact Nat.find_min present less ⟨value, level, event, here, again⟩
  rcases reaches_offset handler partition (Nat.find present) short unknown with
    ⟨state, reached, selecting⟩
  have receives := receive_step handler selecting read
  refine ⟨_, other, ⟨found, partition, Nat.find present, state.session⟩,
    reachable_step reached trivial receives, ?_⟩
  rw [set_claim_self, received, classified]

/-- With the handler of `Start`, claims and workers meet at every job exactly if there
never is one. -/
theorem handoffs_served_iff (streams : Partition → List Bytes) :
    (∀ state, Reachable (step startHandler streams) anyStep initial state →
        HandoffsServed startHandler state) ↔ NoKnownLevel streams := by
  constructor
  · intro served partition value listed level event known
    rcases reaches_handing startHandler listed known with ⟨state, other, job, reached, handing⟩
    have runs := (served state reached partition other job handing).2
    cases runs
  · intro unknown state reached partition level job handing
    rcases reachable_hands_messages reached partition level job handing with
      ⟨value, listed, event, known⟩
    exact absurd known (unknown partition value listed level event)

/-- Every step but the end of the process. -/
def Runs (_ : State Partition) : Action Partition → Prop
  | .crash => False
  | _ => True

/-- On a nil channel a claim waits for as long as the process runs. -/
theorem nil_channel_blocks {state after : State Partition} {partition : Partition} {level : Level}
    {job : Job Partition} (unmade : handler.channel level = none)
    (handing : state.claims partition = .handing level job)
    (reached : Reachable (step handler streams) Runs state after) :
    after.claims partition = .handing level job := by
  apply reachable_invariant (fun after => after.claims partition = .handing level job) handing _
    reached
  intro before action next blocked runs stepped
  have other (moved : Partition) (stage : ClaimStage Partition)
      (apart : before.claims moved ≠ .handing level job) :
      (setClaim before moved stage).claims partition = .handing level job := by
    have different : partition ≠ moved := by
      intro same
      exact apart (same ▸ blocked)
    rw [set_claim_other before stage different]
    exact blocked
  cases step_cases stepped with
  | receive moved offset value selecting read =>
      apply other
      intro again
      cases selecting.symm.trans again
  | skip moved offset skipping =>
      apply other
      intro again
      cases skipping.symm.trans again
  | hand moved otherLevel otherJob capacity otherHanding made room =>
      apply other
      intro again
      cases otherHanding.symm.trans again
      cases unmade.symm.trans made
  | close moved offset dead selecting =>
      apply other
      intro again
      cases selecting.symm.trans again
  | start granted dead ended => cases (ended partition).symm.trans blocked
  | crash => exact runs.elim
  | _ => exact blocked

end Blocking

section Samples

/-- The first warning blocks its partition. -/
theorem first_warning_blocks :
    ∃ state : State Unit,
      Reachable (step startHandler fun _ => [logText "WARN"]) anyStep initial state ∧
        ¬ HandoffsServed startHandler state ∧
        ∀ after, Reachable (step startHandler fun _ => [logText "WARN"]) Runs state after →
          after.claims () = state.claims () := by
  have ran : (runActions (step startHandler fun _ => [logText "WARN"]) anyStep initial
      [.start fun _ => true, .receive ()]).any (fun state =>
        decide (state.claims () = received state.session () 0 (logText "WARN") ∧
          state.claims () ≠ .skipping 0)) = true := by
    decide +kernel
  rcases (Option.any_eq_true _ _).mp ran with ⟨state, reached, checked⟩
  rcases of_decide_eq_true checked with ⟨receiving, unskipped⟩
  rcases received_cases state.session () 0 (logText "WARN") with
    ⟨_, stage⟩ | ⟨level, event, _, stage⟩
  · exact absurd (receiving.trans stage) unskipped
  · have handing := receiving.trans stage
    refine ⟨state, reachable_run_actions reachable_start reached, ?_, ?_⟩
    · intro served
      cases (served () level _ handing).2
    · intro after later
      rw [handing]
      exact nil_channel_blocks rfl handing later

end Samples

end ChatScale.LogConsumerHandoff
