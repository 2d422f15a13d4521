import ChatScale.DeliveryPipeline

/-!
# The consumer sessions of a partition

`ConsumeClaim` handles the messages of a partition one after the other and marks
each that was handled without an error; an error ends the session. A session
starts at an offset up to the position that was marked last, and ends with an
error, when the claim is closed, when the session is cancelled or when the
process dies, at any point. Meanwhile the partition grows.
-/

namespace ChatScale.KafkaSessions

open ChatScale.ByteText ChatScale.CivilTime ChatScale.TransitionSystem
open ChatScale.OutboxRelayModel (Record)
open ChatScale.DeliveryPipeline

set_option autoImplicit false

section Model

/-- A message of the partition. Its offset is its place in the log. -/
structure ConsumerMessage where
  record : Record
  headers : List (Option RecordHeader)
  timestamp : Time

/-- Where `ConsumeClaim` is: it has returned, waits for the message at an
offset, is in `Handle`, or is before `MarkMessage`. -/
inductive Stage where
  | ended
  | selecting (next : Nat)
  | handling (offset : Nat)
  | marking (offset : Nat)
  deriving DecidableEq

/-- What a session does with a message: it calls `Handle`, the call returns with
or without success, the message is marked. -/
inductive EventKind where
  | called
  | returned (success : Bool)
  | marked
  deriving DecidableEq

structure Event where
  session : Nat
  offset : Nat
  kind : EventKind
  deriving DecidableEq

/-- The sessions are numbered; `session` is the last one. -/
structure State where
  log : List ConsumerMessage
  position : Nat
  session : Nat
  stage : Stage
  events : List Event

/-- `handler` is what `Handle` does with a message at this time. -/
inductive Action where
  | append (message : ConsumerMessage)
  | start (offset : Nat)
  | receive
  | handle (handler : Message → Bool)
  | mark
  | stop

def initial (log : List ConsumerMessage) : State := ⟨log, 0, 0, .ended, []⟩

def State.record (state : State) (offset : Nat) (kind : EventKind) : List Event :=
  state.events ++ [⟨state.session, offset, kind⟩]

def messageOf (message : ConsumerMessage) : Message :=
  consumeClaim message.record message.headers message.timestamp

def step (state : State) : Action → Option State
  | .append message => some { state with log := state.log ++ [message] }
  | .start offset =>
      if state.stage = .ended ∧ offset ≤ state.position then
        some { state with session := state.session + 1, stage := .selecting offset }
      else none
  | .receive =>
      match state.stage with
      | .selecting next =>
          if next < state.log.length then
            some { state with stage := .handling next, events := state.record next .called }
          else none
      | _ => none
  | .handle handler =>
      match state.stage with
      | .handling offset =>
          state.log[offset]?.map fun message =>
            let success := handler (messageOf message)
            { state with
              stage := if success then .marking offset else .ended
              events := state.record offset (.returned success) }
      | _ => none
  | .mark =>
      match state.stage with
      | .marking offset =>
          some { state with
            position := offset + 1
            stage := .selecting (offset + 1)
            events := state.record offset .marked }
      | _ => none
  | .stop => some { state with stage := .ended }

end Model

section Successes

/-- The offsets in the order in which `Handle` first succeeded on them. -/
def noteSuccess (offsets : List Nat) (event : Event) : List Nat :=
  if event.kind = .returned true ∧ event.offset ∉ offsets then offsets ++ [event.offset]
  else offsets

def firstSuccesses (events : List Event) : List Nat := events.foldl noteSuccess []

theorem first_successes_append (events : List Event) (event : Event) :
    firstSuccesses (events ++ [event]) = noteSuccess (firstSuccesses events) event := by
  rw [firstSuccesses, List.foldl_append]
  rfl

theorem mem_note_success {offsets : List Nat} {event : Event} {offset : Nat} :
    offset ∈ noteSuccess offsets event ↔
      offset ∈ offsets ∨ event.kind = .returned true ∧ event.offset = offset := by
  unfold noteSuccess
  split_ifs with new
  · rw [List.mem_append, List.mem_singleton, eq_comm (a := offset)]
    simp only [new.1, true_and]
  · constructor
    · exact .inl
    · rintro (known | ⟨success, rfl⟩)
      · exact known
      · by_contra absent
        exact new ⟨success, absent⟩

theorem mem_first_successes {events : List Event} {offset : Nat} :
    offset ∈ firstSuccesses events ↔
      ∃ event ∈ events, event.kind = .returned true ∧ event.offset = offset := by
  induction events using List.reverseRecOn with
  | nil => exact ⟨nofun, nofun⟩
  | append_singleton events event induction =>
      rw [first_successes_append, mem_note_success, induction]
      simp only [List.mem_append, List.mem_singleton, or_and_right, exists_or, exists_eq_left]

/-- Success up to the first offset without one keeps the first successes in the
order of the offsets. -/
theorem range_note_success {count : Nat} {event : Event} (reached : event.offset ≤ count) :
    ∃ after, noteSuccess (List.range count) event = List.range after ∧ count ≤ after ∧
      (event.kind = .returned true → event.offset < after) := by
  by_cases success : event.kind = .returned true
  · rcases Nat.lt_or_eq_of_le reached with below | next
    · refine ⟨count, ?_, le_refl count, fun _ => below⟩
      rw [noteSuccess, if_neg fun both => both.2 (List.mem_range.mpr below)]
    · have fresh : event.offset ∉ List.range count := by
        rw [List.mem_range]
        omega
      refine ⟨count + 1, ?_, by omega, fun _ => by omega⟩
      rw [noteSuccess, if_pos ⟨success, fresh⟩, next, List.range_succ]
  · refine ⟨count, ?_, le_refl count, fun same => absurd same success⟩
    rw [noteSuccess, if_neg fun both => success both.1]

end Successes

section Invariant

/-- How far a session has come: the offset it waits for or works on. -/
def Stage.offset : Stage → Option Nat
  | .ended => none
  | .selecting next => some next
  | .handling offset => some offset
  | .marking offset => some offset

/-- What a session has done by this stage. -/
def doneBy (stage : Stage) (event : Event) : Prop :=
  match stage with
  | .ended => True
  | .selecting next => event.offset < next
  | .handling offset => event.offset < offset ∨ event.offset = offset ∧ event.kind = .called
  | .marking offset => event.offset ≤ offset ∧ (event.kind = .marked → event.offset < offset)

/-- `count` messages have been handled with success at least once. -/
structure Progress (state : State) (count : Nat) : Prop where
  firsts : firstSuccesses state.events = List.range count
  position : state.position ≤ count
  offset : ∀ offset ∈ state.stage.offset, offset ≤ count
  marking : ∀ offset, state.stage = .marking offset → offset < count

structure SessionSound (state : State) : Prop where
  numbered : ∀ event ∈ state.events, event.session ≤ state.session
  current : ∀ event ∈ state.events, state.stage ≠ .ended → event.session = state.session →
    doneBy state.stage event ∧ event.kind ≠ .returned false
  stopped : ∀ failed ∈ state.events, failed.kind = .returned false → ∀ event ∈ state.events,
    event.session = failed.session →
      event.offset ≤ failed.offset ∧ (event.kind = .marked → event.offset < failed.offset)

/-- All a step can do. -/
inductive Stepped (state : State) : State → Prop where
  | append (log : List ConsumerMessage) : Stepped state { state with log := log }
  | start {offset : Nat} (ended : state.stage = .ended) (marked : offset ≤ state.position) :
      Stepped state { state with session := state.session + 1, stage := .selecting offset }
  | receive {offset : Nat} (waiting : state.stage = .selecting offset) :
      Stepped state { state with stage := .handling offset, events := state.record offset .called }
  | succeed {offset : Nat} (handling : state.stage = .handling offset) :
      Stepped state { state with
        stage := .marking offset, events := state.record offset (.returned true) }
  | fail {offset : Nat} (handling : state.stage = .handling offset) :
      Stepped state { state with
        stage := .ended, events := state.record offset (.returned false) }
  | mark {offset : Nat} (marking : state.stage = .marking offset) :
      Stepped state { state with
        position := offset + 1
        stage := .selecting (offset + 1)
        events := state.record offset .marked }
  | stop : Stepped state { state with stage := .ended }

theorem step_stepped {state next : State} {action : Action}
    (stepped : step state action = some next) : Stepped state next := by
  cases action with
  | append message =>
      cases stepped
      exact .append _
  | start offset =>
      simp only [step] at stepped
      split_ifs at stepped with allowed
      cases stepped
      exact .start allowed.1 allowed.2
  | receive =>
      simp only [step] at stepped
      split at stepped
      · rename_i offset waiting
        split_ifs at stepped
        cases stepped
        exact .receive waiting
      · cases stepped
  | handle handler =>
      simp only [step] at stepped
      split at stepped
      · rename_i offset handling
        rcases Option.map_eq_some_iff.mp stepped with ⟨message, _, rfl⟩
        cases handler (messageOf message) with
        | true => exact .succeed handling
        | false => exact .fail handling
      · cases stepped
  | mark =>
      simp only [step] at stepped
      split at stepped
      · rename_i offset marking
        cases stepped
        exact .mark marking
      · cases stepped
  | stop =>
      cases stepped
      exact .stop

/-- An event within reach keeps the first successes in order. -/
theorem record_firsts {state : State} {count : Nat} (progress : Progress state count)
    {offset : Nat} (reached : offset ≤ count) (kind : EventKind) :
    ∃ after, firstSuccesses (state.record offset kind) = List.range after ∧ count ≤ after ∧
      (kind = .returned true → offset < after) := by
  rw [State.record, first_successes_append, progress.firsts]
  exact range_note_success reached

theorem stepped_progress {state next : State} {count : Nat} (progress : Progress state count)
    (stepped : Stepped state next) : ∃ after, Progress next after := by
  cases stepped with
  | append log =>
      exact ⟨count, progress.firsts, progress.position, progress.offset, progress.marking⟩
  | start ended marked =>
      refine ⟨count, progress.firsts, progress.position, ?_, nofun⟩
      rintro _ ⟨⟩
      exact le_trans marked progress.position
  | @receive offset waiting =>
      have reached : offset ≤ count := progress.offset offset (by rw [waiting]; rfl)
      rcases record_firsts progress reached .called with ⟨after, firsts, more, _⟩
      refine ⟨after, firsts, le_trans progress.position more, ?_, nofun⟩
      rintro _ ⟨⟩
      exact le_trans reached more
  | @succeed offset handling =>
      have reached : offset ≤ count := progress.offset offset (by rw [handling]; rfl)
      rcases record_firsts progress reached (.returned true) with ⟨after, firsts, more, covered⟩
      refine ⟨after, firsts, le_trans progress.position more, ?_, ?_⟩
      · rintro _ ⟨⟩
        exact le_trans reached more
      · rintro _ ⟨⟩
        exact covered rfl
  | @fail offset handling =>
      have reached : offset ≤ count := progress.offset offset (by rw [handling]; rfl)
      rcases record_firsts progress reached (.returned false) with ⟨after, firsts, more, _⟩
      exact ⟨after, firsts, le_trans progress.position more, nofun, nofun⟩
  | @mark offset marking =>
      have covered : offset < count := progress.marking offset marking
      rcases record_firsts progress (le_of_lt covered) .marked with ⟨after, firsts, more, _⟩
      refine ⟨after, firsts, le_trans covered more, ?_, nofun⟩
      rintro _ ⟨⟩
      exact le_trans covered more
  | stop => exact ⟨count, progress.firsts, progress.position, nofun, nofun⟩

/-- A session that goes on has seen no error, so what it does next leaves the
errors of other sessions alone. -/
theorem record_stopped {state : State} (sound : SessionSound state)
    (running : state.stage ≠ .ended) {offset : Nat} {kind : EventKind}
    (fine : kind ≠ .returned false) : ∀ failed ∈ state.record offset kind,
    failed.kind = .returned false → ∀ event ∈ state.record offset kind,
      event.session = failed.session →
        event.offset ≤ failed.offset ∧ (event.kind = .marked → event.offset < failed.offset) := by
  intro failed listed error event present same
  rcases List.mem_append.mp listed with earlier | last
  · rcases List.mem_append.mp present with before | now
    · exact sound.stopped failed earlier error event before same
    · rw [List.mem_singleton.mp now] at same
      exact absurd error (sound.current failed earlier running same.symm).2
  · rw [List.mem_singleton.mp last] at error
    exact absurd error fine

theorem record_numbered {state : State} (sound : SessionSound state) (offset : Nat)
    (kind : EventKind) : ∀ event ∈ state.record offset kind, event.session ≤ state.session := by
  intro event listed
  rcases List.mem_append.mp listed with before | last
  · exact sound.numbered event before
  · rw [List.mem_singleton.mp last]

/-- The events of a session after one more of them. -/
theorem record_current {state : State} (sound : SessionSound state)
    (running : state.stage ≠ .ended) {offset : Nat} {kind : EventKind} {stage : Stage}
    (fine : kind ≠ .returned false) (new : doneBy stage ⟨state.session, offset, kind⟩)
    (old : ∀ event, doneBy state.stage event → doneBy stage event) :
    ∀ event ∈ state.record offset kind, event.session = state.session →
      doneBy stage event ∧ event.kind ≠ .returned false := by
  intro event listed same
  rcases List.mem_append.mp listed with before | last
  · have done := sound.current event before running same
    exact ⟨old event done.1, done.2⟩
  · rw [List.mem_singleton.mp last]
    exact ⟨new, fine⟩

theorem done_by_handling {event : Event} {offset : Nat} (done : doneBy (.handling offset) event) :
    event.offset ≤ offset ∧ (event.kind = .marked → event.offset < offset) := by
  rcases done with below | ⟨same, called⟩
  · exact ⟨le_of_lt below, fun _ => below⟩
  · refine ⟨le_of_eq same, fun marked => ?_⟩
    rw [called] at marked
    cases marked

theorem stepped_session_sound {state next : State} (sound : SessionSound state)
    (stepped : Stepped state next) : SessionSound next := by
  cases stepped with
  | append log => exact ⟨sound.numbered, sound.current, sound.stopped⟩
  | start ended marked =>
      refine ⟨fun event listed => Nat.le_succ_of_le (sound.numbered event listed), ?_,
        sound.stopped⟩
      intro event listed _ same
      -- The new session has no events yet.
      have earlier : event.session ≤ state.session := sound.numbered event listed
      have now : event.session = state.session + 1 := same
      omega
  | @receive offset waiting =>
      have running : state.stage ≠ .ended := by simp [waiting]
      have fine : EventKind.called ≠ .returned false := by decide
      refine ⟨record_numbered sound offset .called, ?_, record_stopped sound running fine⟩
      have new : doneBy (.handling offset) ⟨state.session, offset, .called⟩ := .inr ⟨rfl, rfl⟩
      have old : ∀ event, doneBy state.stage event → doneBy (.handling offset) event := by
        intro event done
        rw [waiting] at done
        exact .inl done
      exact fun event listed _ => record_current sound running fine new old event listed
  | @succeed offset handling =>
      have running : state.stage ≠ .ended := by simp [handling]
      have fine : EventKind.returned true ≠ .returned false := by decide
      refine ⟨record_numbered sound offset _, ?_, record_stopped sound running fine⟩
      have new : doneBy (.marking offset) ⟨state.session, offset, .returned true⟩ :=
        ⟨le_refl offset, nofun⟩
      have old : ∀ event, doneBy state.stage event → doneBy (.marking offset) event := by
        intro event done
        rw [handling] at done
        exact done_by_handling done
      exact fun event listed _ => record_current sound running fine new old event listed
  | @fail offset handling =>
      refine ⟨record_numbered sound offset _, fun _ _ running => absurd rfl running, ?_⟩
      have running : state.stage ≠ .ended := by simp [handling]
      intro failed listed error event present same
      rcases List.mem_append.mp listed with earlier | last
      · rcases List.mem_append.mp present with before | now
        · exact sound.stopped failed earlier error event before same
        · rw [List.mem_singleton.mp now] at same
          exact absurd error (sound.current failed earlier running same.symm).2
      · rw [List.mem_singleton.mp last] at same ⊢
        rcases List.mem_append.mp present with before | now
        · have done := (sound.current event before running same).1
          rw [handling] at done
          exact done_by_handling done
        · rw [List.mem_singleton.mp now]
          exact ⟨le_refl offset, nofun⟩
  | @mark offset marking =>
      have running : state.stage ≠ .ended := by simp [marking]
      have fine : EventKind.marked ≠ .returned false := by decide
      refine ⟨record_numbered sound offset .marked, ?_, record_stopped sound running fine⟩
      have new : doneBy (.selecting (offset + 1)) ⟨state.session, offset, .marked⟩ :=
        Nat.lt_succ_self offset
      have old : ∀ event, doneBy state.stage event → doneBy (.selecting (offset + 1)) event := by
        intro event done
        rw [marking] at done
        exact Nat.lt_succ_of_le done.1
      exact fun event listed _ => record_current sound running fine new old event listed
  | stop => exact ⟨sound.numbered, fun _ _ running => absurd rfl running, sound.stopped⟩

end Invariant

section Results

theorem initial_progress (log : List ConsumerMessage) : Progress (initial log) 0 :=
  ⟨rfl, le_refl 0, nofun, nofun⟩

theorem initial_session_sound (log : List ConsumerMessage) : SessionSound (initial log) where
  numbered event listed := by cases listed
  current event listed := by cases listed
  stopped failed listed := by cases listed

theorem sessions_handle_in_order {log : List ConsumerMessage} {state : State}
    (reached : Reachable step anyStep (initial log) state) :
    (∀ offset < state.position, ∃ event ∈ state.events,
      event.kind = .returned true ∧ event.offset = offset) ∧
    (∀ failed ∈ state.events, failed.kind = .returned false → ∀ event ∈ state.events,
      event.session = failed.session →
        event.offset ≤ failed.offset ∧ (event.kind = .marked → event.offset < failed.offset)) ∧
    ∃ count, firstSuccesses state.events = List.range count := by
  have invariant : (∃ count, Progress state count) ∧ SessionSound state := by
    refine reachable_invariant (fun state => (∃ count, Progress state count) ∧ SessionSound state)
      ⟨⟨0, initial_progress log⟩, initial_session_sound log⟩ ?_ reached
    rintro before action after ⟨⟨count, progress⟩, sound⟩ _ stepped
    have moved := step_stepped stepped
    exact ⟨stepped_progress progress moved, stepped_session_sound sound moved⟩
  rcases invariant with ⟨⟨count, progress⟩, sound⟩
  refine ⟨?_, sound.stopped, count, progress.firsts⟩
  intro offset below
  apply mem_first_successes.mp
  rw [progress.firsts, List.mem_range]
  exact Nat.lt_of_lt_of_le below progress.position

def plainMessage : ConsumerMessage := ⟨⟨ascii "lobby", ascii "1"⟩, [], zeroTime⟩

/-- A session fails on the second message, and the next one handles it. -/
def retried : List Action :=
  [.start 0, .receive, .handle (fun _ => true), .mark, .receive, .handle (fun _ => false),
    .start 1, .receive, .handle (fun _ => true)]

theorem retried_in_order :
    ∃ state, Reachable step anyStep (initial [plainMessage, plainMessage]) state ∧
      state.position = 1 ∧ ∃ count, firstSuccesses state.events = List.range count := by
  have ran : (runActions step anyStep (initial [plainMessage, plainMessage]) retried).map
      (fun state => state.position) = some 1 := by
    decide +kernel
  rcases Option.map_eq_some_iff.mp ran with ⟨state, reached, marked⟩
  have reachable := reachable_run_actions reachable_start reached
  exact ⟨state, reachable, marked, (sessions_handle_in_order reachable).2.2⟩

end Results

end ChatScale.KafkaSessions
