import ChatScale.JsonFields
import ChatScale.TransitionSystem
import Mathlib.Data.Fintype.Basic
import Mathlib.Logic.Function.Basic
import Mathlib.Tactic.SplitIfs

/-!
# The log consumer

`ConsumeClaim` of every partition next to the workers of the three levels. A
claim decodes a message and hands a job to the channel of its level; a message
that cannot be decoded or has another level is marked by the claim itself. A
worker drops the jobs of a session that has expired, prints the others and marks
them. Marking moves the committed position of the partition up, and a session
starts there. A session expires at any time, its claims then end, and the
process may die anywhere, with all that stands in its channels.
-/

namespace ChatScale.LogConsumerModel

open ChatScale.ByteText ChatScale.CivilTime ChatScale.JsonFields

set_option autoImplicit false

structure LogEvent where
  level : Bytes
  message : Bytes
  service : Bytes
  time : Time
  deriving DecidableEq

def decode (text : Bytes) : Option LogEvent := do
  let members ← structMembers text
  let level ← decodeField decodeString [] (ascii "level") members
  let message ← decodeField decodeString [] (ascii "msg") members
  let service ← decodeField decodeString [] (ascii "service") members
  let time ← decodeField decodeTime zeroTime (ascii "time") members
  some ⟨level, message, service, time⟩

inductive Level where
  | info
  | warn
  | error
  deriving DecidableEq

/-- What `ConsumeClaim` makes of a message: "failed to decode message", "unknown log
level" or a job. -/
inductive Verdict where
  | undecodable
  | unknown (event : LogEvent)
  | known (level : Level) (event : LogEvent)
  deriving DecidableEq

def classify (event : LogEvent) : Verdict :=
  if event.level = ascii "information" then .known .info event
  else if event.level = ascii "WARN" then .known .warn event
  else if event.level = ascii "ERROR" then .known .error event
  else .unknown event

def verdict (value : Bytes) : Verdict :=
  match decode value with
  | none => .undecodable
  | some event => classify event

structure Job (Partition : Type) where
  event : LogEvent
  partition : Partition
  offset : Nat
  session : Nat
  deriving DecidableEq

/-- What a worker prints. -/
inductive Line (Partition : Type) where
  | hehe
  | message (level : Level) (partition : Partition) (offset : Nat) (event : LogEvent)
  deriving DecidableEq

/-- The channels of a handler, with their capacities, and its workers. A channel that
was not made is nil. -/
structure Handler where
  channel : Level → Option Nat
  worker : Level → Bool

def newConsumerGroupHandler : Handler := ⟨fun _ => some 100, fun _ => true⟩

/-- The handler that `KafkaConsumer.Start` passes on, which has only a decoder. -/
def startHandler : Handler := ⟨fun _ => none, fun _ => false⟩

/-- Where `ConsumeClaim` is: it has returned, waits for the next message, is before
`MarkMessage`, or at the send to a channel. -/
inductive ClaimStage (Partition : Type) where
  | ended
  | selecting (next : Nat)
  | skipping (offset : Nat)
  | handing (level : Level) (job : Job Partition)
  deriving DecidableEq

/-- Where a worker is: it waits for a job, looks at the session of one, prints it, or
is before `MarkMessage`. -/
inductive WorkerStage (Partition : Type) where
  | receiving
  | checking (job : Job Partition)
  | printing (job : Job Partition)
  | marking (job : Job Partition)
  deriving DecidableEq

/-- `live` says that the context of the current session is not cancelled. -/
structure State (Partition : Type) where
  committed : Partition → Nat
  session : Nat
  live : Bool
  claims : Partition → ClaimStage Partition
  queues : Level → List (Job Partition)
  workers : Level → WorkerStage Partition
  printed : List (Line Partition)
  skipped : List (Partition × Nat)

inductive Action (Partition : Type) where
  | receive (partition : Partition)
  | skip (partition : Partition)
  | hand (partition : Partition)
  | take (level : Level)
  | check (level : Level)
  | print (level : Level)
  | mark (level : Level)
  | expire
  | close (partition : Partition)
  | start (granted : Partition → Bool)
  | crash

variable {Partition : Type}

def initial : State Partition :=
  ⟨fun _ => 0, 0, false, fun _ => .ended, fun _ => [], fun _ => .receiving, [], []⟩

/-- `handleInfo` prints a line of its own before that of the message. -/
def linesOf (level : Level) (job : Job Partition) : List (Line Partition) :=
  match level with
  | .info => [.hehe, .message .info job.partition job.offset job.event]
  | .warn => [.message .warn job.partition job.offset job.event]
  | .error => [.message .error job.partition job.offset job.event]

/-- The stage of a claim with a message in its hands. -/
def received (session : Nat) (partition : Partition) (offset : Nat) (value : Bytes) :
    ClaimStage Partition :=
  match verdict value with
  | .undecodable => .skipping offset
  | .unknown _ => .skipping offset
  | .known level event => .handing level ⟨event, partition, offset, session⟩

/-- A message is skipped, or handed over if its level is known. -/
theorem received_cases (session : Nat) (partition : Partition) (offset : Nat) (value : Bytes) :
    (∀ level event, verdict value ≠ .known level event) ∧
        received session partition offset value = .skipping offset ∨
      ∃ level event, verdict value = .known level event ∧
        received session partition offset value =
          .handing level ⟨event, partition, offset, session⟩ := by
  unfold received
  cases verdict value with
  | undecodable => exact .inl ⟨by simp, rfl⟩
  | unknown event => exact .inl ⟨by simp, rfl⟩
  | known level event => exact .inr ⟨level, event, rfl, rfl⟩

/-- The context of the session a job came with. -/
def isExpired (state : State Partition) (job : Job Partition) : Bool :=
  !(state.live && job.session == state.session)

variable [DecidableEq Partition]

def markMessage (committed : Partition → Nat) (partition : Partition) (offset : Nat) :
    Partition → Nat :=
  Function.update committed partition (max (committed partition) (offset + 1))

def setClaim (state : State Partition) (partition : Partition) (stage : ClaimStage Partition) :
    State Partition :=
  { state with claims := Function.update state.claims partition stage }

theorem set_claim_self (state : State Partition) (partition : Partition)
    (stage : ClaimStage Partition) : (setClaim state partition stage).claims partition = stage :=
  Function.update_self _ _ _

theorem set_claim_other (state : State Partition) {partition other : Partition}
    (stage : ClaimStage Partition) (apart : other ≠ partition) :
    (setClaim state partition stage).claims other = state.claims other :=
  Function.update_of_ne apart _ _

def setWorker (state : State Partition) (level : Level) (stage : WorkerStage Partition) :
    State Partition :=
  { state with workers := Function.update state.workers level stage }

def step [Fintype Partition] (handler : Handler) (streams : Partition → List Bytes)
    (state : State Partition) : Action Partition → Option (State Partition)
  | .receive partition =>
      match state.claims partition with
      | .selecting next => (streams partition)[next]?.map fun value =>
          setClaim state partition (received state.session partition next value)
      | _ => none
  | .skip partition =>
      match state.claims partition with
      | .skipping offset => some { setClaim state partition (.selecting (offset + 1)) with
          committed := markMessage state.committed partition offset
          skipped := state.skipped ++ [(partition, offset)] }
      | _ => none
  | .hand partition =>
      match state.claims partition with
      | .handing level job =>
          match handler.channel level with
          -- A send on a nil channel blocks forever.
          | none => none
          | some capacity =>
              if (state.queues level).length < capacity then
                some { setClaim state partition (.selecting (job.offset + 1)) with
                  queues := Function.update state.queues level (state.queues level ++ [job]) }
              else none
      | _ => none
  | .take level =>
      match handler.worker level, state.workers level, state.queues level with
      | true, .receiving, job :: rest => some { setWorker state level (.checking job) with
          queues := Function.update state.queues level rest }
      | _, _, _ => none
  | .check level =>
      match state.workers level with
      | .checking job => some (setWorker state level
          (if isExpired state job then .receiving else .printing job))
      | _ => none
  | .print level =>
      match state.workers level with
      | .printing job => some { setWorker state level (.marking job) with
          printed := state.printed ++ linesOf level job }
      | _ => none
  | .mark level =>
      match state.workers level with
      | .marking job => some { setWorker state level .receiving with
          committed := markMessage state.committed job.partition job.offset }
      | _ => none
  | .expire => if state.live then some { state with live := false } else none
  | .close partition =>
      match state.live, state.claims partition with
      | false, .selecting _ => some (setClaim state partition .ended)
      | _, _ => none
  | .start granted =>
      if state.live = false ∧ ∀ partition, state.claims partition = .ended then
        some { state with
          session := state.session + 1
          live := true
          claims := fun partition =>
            if granted partition then .selecting (state.committed partition) else .ended }
      else none
  | .crash => some { state with
      live := false
      claims := fun _ => .ended
      queues := fun _ => []
      workers := fun _ => .receiving }

/-- What each action does where it can be taken. -/
inductive Stepped (handler : Handler) (streams : Partition → List Bytes)
    (state : State Partition) : Action Partition → State Partition → Prop where
  | receive (partition : Partition) (next : Nat) (value : Bytes)
      (selecting : state.claims partition = .selecting next)
      (read : (streams partition)[next]? = some value) :
      Stepped handler streams state (.receive partition)
        (setClaim state partition (received state.session partition next value))
  | skip (partition : Partition) (offset : Nat)
      (skipping : state.claims partition = .skipping offset) :
      Stepped handler streams state (.skip partition)
        { setClaim state partition (.selecting (offset + 1)) with
          committed := markMessage state.committed partition offset
          skipped := state.skipped ++ [(partition, offset)] }
  | hand (partition : Partition) (level : Level) (job : Job Partition) (capacity : Nat)
      (handing : state.claims partition = .handing level job)
      (made : handler.channel level = some capacity)
      (room : (state.queues level).length < capacity) :
      Stepped handler streams state (.hand partition)
        { setClaim state partition (.selecting (job.offset + 1)) with
          queues := Function.update state.queues level (state.queues level ++ [job]) }
  | take (level : Level) (job : Job Partition) (rest : List (Job Partition))
      (runs : handler.worker level = true) (receiving : state.workers level = .receiving)
      (queued : state.queues level = job :: rest) :
      Stepped handler streams state (.take level) { setWorker state level (.checking job) with
        queues := Function.update state.queues level rest }
  | check (level : Level) (job : Job Partition) (checking : state.workers level = .checking job) :
      Stepped handler streams state (.check level)
        (setWorker state level (if isExpired state job then .receiving else .printing job))
  | print (level : Level) (job : Job Partition) (printing : state.workers level = .printing job) :
      Stepped handler streams state (.print level) { setWorker state level (.marking job) with
        printed := state.printed ++ linesOf level job }
  | mark (level : Level) (job : Job Partition) (marking : state.workers level = .marking job) :
      Stepped handler streams state (.mark level) { setWorker state level .receiving with
        committed := markMessage state.committed job.partition job.offset }
  | expire (live : state.live = true) :
      Stepped handler streams state .expire { state with live := false }
  | close (partition : Partition) (next : Nat) (dead : state.live = false)
      (selecting : state.claims partition = .selecting next) :
      Stepped handler streams state (.close partition) (setClaim state partition .ended)
  | start (granted : Partition → Bool) (dead : state.live = false)
      (ended : ∀ partition, state.claims partition = .ended) :
      Stepped handler streams state (.start granted) { state with
        session := state.session + 1
        live := true
        claims := fun partition =>
          if granted partition then .selecting (state.committed partition) else .ended }
  | crash : Stepped handler streams state .crash { state with
      live := false
      claims := fun _ => .ended
      queues := fun _ => []
      workers := fun _ => .receiving }

theorem step_cases [Fintype Partition] {handler : Handler} {streams : Partition → List Bytes}
    {before after : State Partition} {action : Action Partition}
    (stepped : step handler streams before action = some after) :
    Stepped handler streams before action after := by
  cases action with
  | receive partition =>
      rw [step] at stepped
      split at stepped
      · rename_i next selecting
        rcases Option.map_eq_some_iff.mp stepped with ⟨value, read, rfl⟩
        exact .receive partition next value selecting read
      · cases stepped
  | skip partition =>
      rw [step] at stepped
      split at stepped
      · rename_i offset skipping
        cases stepped
        exact .skip partition offset skipping
      · cases stepped
  | hand partition =>
      rw [step] at stepped
      split at stepped
      · rename_i level job handing
        split at stepped
        · cases stepped
        · rename_i capacity made
          split_ifs at stepped with room
          cases stepped
          exact .hand partition level job capacity handing made room
      · cases stepped
  | take level =>
      rw [step] at stepped
      split at stepped
      · rename_i job rest runs receiving queued
        cases stepped
        exact .take level job rest runs receiving queued
      · cases stepped
  | check level =>
      rw [step] at stepped
      split at stepped
      · rename_i job checking
        cases stepped
        exact .check level job checking
      · cases stepped
  | print level =>
      rw [step] at stepped
      split at stepped
      · rename_i job printing
        cases stepped
        exact .print level job printing
      · cases stepped
  | mark level =>
      rw [step] at stepped
      split at stepped
      · rename_i job marking
        cases stepped
        exact .mark level job marking
      · cases stepped
  | expire =>
      rw [step] at stepped
      split_ifs at stepped with live
      cases stepped
      exact .expire live
  | close partition =>
      rw [step] at stepped
      split at stepped
      · rename_i next dead selecting
        cases stepped
        exact .close partition next dead selecting
      · cases stepped
  | start granted =>
      rw [step] at stepped
      split_ifs at stepped with ready
      cases stepped
      exact .start granted ready.1 ready.2
  | crash =>
      cases stepped
      exact .crash

end ChatScale.LogConsumerModel
