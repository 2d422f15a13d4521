import ChatScale.RoomOutboxHandover

/-!
# Shutting down the single-instance server

The hub and the relay of one server next to a shutdown. `Broadcast` is a send on
a channel without a buffer: the relay waits in it until `Run` takes the envelope,
and neither the send nor the loop over a batch looks at the context. `Run` leaves
its `select` for good once the context is cancelled and it chooses that case. A
transaction does not begin under a cancelled context; a statement under way may
still end either way.
-/

namespace ChatScale.HubShutdown

open ChatScale.ByteText ChatScale.RoomOutboxModel ChatScale.RoomOutboxClaims
open ChatScale.TransitionSystem
open ChatScale.RoomHubModel (Envelope)

set_option autoImplicit false

/-- The hub, the outbox with its one relay, and how far the shutdown is. -/
structure System (Client Writer : Type) [DecidableEq Client] where
  hub : RoomHubModel.State Client
  outbox : RoomOutboxModel.State Writer Unit
  cancelled : Bool
  returned : Bool

/-- `offer` is the send in `Broadcast`, `take` the case of `Run` that receives it,
and `leave` its `ctx.Done` case. -/
inductive Action (Client Writer : Type) where
  | hub (action : RoomHubModel.Action Client)
  | take (targets : List Client)
  | leave
  | writer (writer : Writer) (move : WriterMove)
  | relay (move : RelayMove)
  | offer
  | cancel

def envelopeOf (event : OutboxEvent) : Envelope := ⟨event.roomID, event.message.marshal⟩

/-- The event that the loop over a batch is at. -/
def currentEvent : RelayStage → Option OutboxEvent
  | .dispatching _ (event :: _) => some event
  | _ => none

/-- The relay has claimed rows, or is claiming them, that are still to be handed
over. -/
def handsOver : RelayStage → Bool
  | .claiming _ _ => true
  | .dispatching _ (_ :: _) => true
  | _ => false

/-- The moves of a relay on its own. Nothing fails in the loop over a batch. -/
def relayMayMove (cancelled : Bool) (stage : RelayStage) : RelayMove → Bool
  | .dispatch _ => false
  | .select => !cancelled
  | .fail => (currentEvent stage).isNone
  | _ => true

section Steps

variable {Client Writer : Type} [DecidableEq Client]

def initial (db : Database) : System Client Writer :=
  ⟨RoomHubModel.initial, started db, false, false⟩

/-- The goroutines of the clients go on when `Run` has returned. -/
def hubMayMove (returned : Bool) : RoomHubModel.Action Client → Bool
  | .client _ _ => true
  | .register _ => !returned
  | .unregister _ => !returned
  | .send => !returned
  | .next => !returned
  | .broadcast _ => false
  | .consume _ _ => false
  | .handle _ _ => false

def relayStage (system : System Client Writer) : RelayStage := system.outbox.relays ()

variable [DecidableEq Writer]

def step (roomOf : Client → Bytes) (columns : Columns) (requests : Writer → Request)
    (system : System Client Writer) : Action Client Writer → Option (System Client Writer)
  | .hub action =>
      if hubMayMove system.returned action then
        (RoomHubModel.step .singleInstance roomOf system.hub action).map fun hub =>
          { system with hub := hub }
      else none
  | .offer =>
      match currentEvent (relayStage system), system.hub.offered with
      | some event, [] =>
          (RoomHubModel.step .singleInstance roomOf system.hub
            (.broadcast (envelopeOf event))).map fun hub => { system with hub := hub }
      | _, _ => none
  | .take targets =>
      match currentEvent (relayStage system), system.returned with
      | some event, false => do
          let hub ← RoomHubModel.step .singleInstance roomOf system.hub
            (.handle (envelopeOf event) targets)
          let outbox ← RoomOutboxModel.step .singleInstance columns requests system.outbox
            (.relay () (.dispatch true))
          some { system with hub := hub, outbox := outbox }
      | _, _ => none
  | .leave =>
      if system.cancelled = true ∧ system.returned = false ∧ system.hub.run = .selecting then
        some { system with returned := true }
      else none
  | .writer writer move =>
      (RoomOutboxModel.step .singleInstance columns requests system.outbox
        (.writer writer move)).map fun outbox => { system with outbox := outbox }
  | .relay move =>
      if relayMayMove system.cancelled (relayStage system) move then
        (RoomOutboxModel.step .singleInstance columns requests system.outbox
          (.relay () move)).map fun outbox => { system with outbox := outbox }
      else none
  | .cancel => some { system with cancelled := true }

/-- `Run` returns only while the relay has no rows to hand over. -/
def LeavesBetween (system : System Client Writer) : Action Client Writer → Prop
  | .leave => handsOver (relayStage system) = false
  | _ => True

instance (system : System Client Writer) (action : Action Client Writer) :
    Decidable (LeavesBetween system action) := by
  cases action with
  | leave => exact inferInstanceAs (Decidable (_ = false))
  | _ => exact isTrue trivial

/-- What each action does, as steps of the hub and of the outbox. -/
inductive Stepped (roomOf : Client → Bytes) (columns : Columns) (requests : Writer → Request)
    (system : System Client Writer) : Action Client Writer → System Client Writer → Prop where
  | hub (action : RoomHubModel.Action Client) (hub : RoomHubModel.State Client)
      (may : hubMayMove system.returned action = true)
      (moved : RoomHubModel.step .singleInstance roomOf system.hub action = some hub) :
      Stepped roomOf columns requests system (.hub action) { system with hub := hub }
  | offer (event : OutboxEvent) (hub : RoomHubModel.State Client)
      (current : currentEvent (relayStage system) = some event) (free : system.hub.offered = [])
      (moved : RoomHubModel.step .singleInstance roomOf system.hub
        (.broadcast (envelopeOf event)) = some hub) :
      Stepped roomOf columns requests system .offer { system with hub := hub }
  | take (event : OutboxEvent) (targets : List Client) (hub : RoomHubModel.State Client)
      (outbox : RoomOutboxModel.State Writer Unit)
      (current : currentEvent (relayStage system) = some event)
      (running : system.returned = false)
      (taken : RoomHubModel.step .singleInstance roomOf system.hub
        (.handle (envelopeOf event) targets) = some hub)
      (dispatched : RoomOutboxModel.step .singleInstance columns requests system.outbox
        (.relay () (.dispatch true)) = some outbox) :
      Stepped roomOf columns requests system (.take targets)
        { system with hub := hub, outbox := outbox }
  | leave (cancelled : system.cancelled = true) (running : system.returned = false)
      (selecting : system.hub.run = .selecting) :
      Stepped roomOf columns requests system .leave { system with returned := true }
  | writer (writer : Writer) (move : WriterMove) (outbox : RoomOutboxModel.State Writer Unit)
      (moved : RoomOutboxModel.step .singleInstance columns requests system.outbox
        (.writer writer move) = some outbox) :
      Stepped roomOf columns requests system (.writer writer move) { system with outbox := outbox }
  | relay (move : RelayMove) (outbox : RoomOutboxModel.State Writer Unit)
      (may : relayMayMove system.cancelled (relayStage system) move = true)
      (moved : RoomOutboxModel.step .singleInstance columns requests system.outbox
        (.relay () move) = some outbox) :
      Stepped roomOf columns requests system (.relay move) { system with outbox := outbox }
  | cancel : Stepped roomOf columns requests system .cancel { system with cancelled := true }

theorem step_cases {roomOf : Client → Bytes} {columns : Columns} {requests : Writer → Request}
    {before after : System Client Writer} {action : Action Client Writer}
    (stepped : step roomOf columns requests before action = some after) :
    Stepped roomOf columns requests before action after := by
  cases action with
  | hub action =>
      rw [step] at stepped
      split_ifs at stepped with may
      rcases Option.map_eq_some_iff.mp stepped with ⟨hub, moved, rfl⟩
      exact .hub action hub may moved
  | offer =>
      rw [step] at stepped
      split at stepped
      · rename_i event current free
        rcases Option.map_eq_some_iff.mp stepped with ⟨hub, moved, rfl⟩
        exact .offer event hub current free moved
      · cases stepped
  | take targets =>
      rw [step] at stepped
      split at stepped
      · rename_i event current running
        rcases Option.bind_eq_some_iff.mp stepped with ⟨hub, taken, rest⟩
        rcases Option.bind_eq_some_iff.mp rest with ⟨outbox, dispatched, last⟩
        cases last
        exact .take event targets hub outbox current running taken dispatched
      · cases stepped
  | leave =>
      rw [step] at stepped
      split_ifs at stepped with ready
      cases stepped
      exact .leave ready.1 ready.2.1 ready.2.2
  | writer writer move =>
      rcases Option.map_eq_some_iff.mp stepped with ⟨outbox, moved, rfl⟩
      exact .writer writer move outbox moved
  | relay move =>
      rw [step] at stepped
      split_ifs at stepped with may
      rcases Option.map_eq_some_iff.mp stepped with ⟨outbox, moved, rfl⟩
      exact .relay move outbox may moved
  | cancel =>
      cases stepped
      exact .cancel

end Steps

section Parts

variable {Client Writer : Type} [DecidableEq Client] {roomOf : Client → Bytes}

/-- Without a broadcast nobody begins or ends to wait for `Run`. -/
theorem hub_keeps_offered {returned : Bool} {before after : RoomHubModel.State Client}
    {action : RoomHubModel.Action Client} (may : hubMayMove returned action = true)
    (moved : RoomHubModel.step .singleInstance roomOf before action = some after) :
    after.offered = before.offered := by
  cases RoomHubModel.step_cases moved with
  | broadcast single => cases may
  | consume naive idle => cases may
  | handle selecting offered reordered => cases may
  | _ => rfl

theorem broadcast_offers {before after : RoomHubModel.State Client} {envelope : Envelope}
    (moved : RoomHubModel.step .singleInstance roomOf before (.broadcast envelope) = some after) :
    after.offered = before.offered ++ [envelope] := by
  cases moved
  rfl

theorem handle_takes {before after : RoomHubModel.State Client} {envelope : Envelope}
    {targets : List Client}
    (moved : RoomHubModel.step .singleInstance roomOf before (.handle envelope targets) =
      some after) :
    after.offered = before.offered.erase envelope := by
  cases RoomHubModel.step_cases moved
  rfl

variable [DecidableEq Writer] {columns : Columns} {requests : Writer → Request}
  {outbox after : RoomOutboxModel.State Writer Unit}

theorem writer_keeps_relay {writer : Writer} {move : WriterMove}
    (moved : RoomOutboxModel.step .singleInstance columns requests outbox (.writer writer move) =
      some after) : after.relays = outbox.relays := by
  rcases Option.map_eq_some_iff.mp moved with ⟨result, _, rfl⟩
  rfl

theorem relay_moves {move : RelayMove}
    (moved : RoomOutboxModel.step .singleInstance columns requests outbox (.relay () move) =
      some after) :
    ∃ elsewhere effect, RelayMoves .singleInstance outbox.db.outbox elsewhere (outbox.relays ())
      move effect ∧ after.relays () = effect.stage := by
  rcases Option.map_eq_some_iff.mp moved with ⟨effect, found, rfl⟩
  exact ⟨_, effect, relay_effect_moves found, apply_effect_self _ _ _⟩

end Parts

section Shutdown

variable {Client Writer : Type} [DecidableEq Client]

/-- The only envelope that waits for `Run` is that of the event the relay is at, and
after `Run` has returned the relay has nothing to hand over. -/
structure ShutdownSound (system : System Client Writer) : Prop where
  offered : system.hub.offered = [] ∨ ∃ event, currentEvent (relayStage system) = some event ∧
    system.hub.offered = [envelopeOf event]
  returned : system.returned = true → system.cancelled = true ∧
    handsOver (relayStage system) = false

theorem hands_over_current {stage : RelayStage} {event : OutboxEvent}
    (current : currentEvent stage = some event) : handsOver stage = true := by
  cases stage with
  | dispatching handed waiting =>
      cases waiting with
      | nil => cases current
      | cons first rest => rfl
  | _ => cases current

/-- In the loop over a batch the relay has no move of its own. -/
theorem current_no_move {outbox : List OutboxRow} {elsewhere : Nat → Bool} {cancelled : Bool}
    {stage : RelayStage} {move : RelayMove} {effect : Effect} {event : OutboxEvent}
    (current : currentEvent stage = some event)
    (may : relayMayMove cancelled stage move = true)
    (moves : RelayMoves .singleInstance outbox elsewhere stage move effect) : False := by
  cases moves with
  | dispatch => cases may
  | fail =>
      rw [relayMayMove, current] at may
      cases may
  | _ => cases current

/-- A relay with nothing to hand over gets nothing under a cancelled context. -/
theorem cancelled_no_rows {outbox : List OutboxRow} {elsewhere : Nat → Bool} {stage : RelayStage}
    {move : RelayMove} {effect : Effect} (nothing : handsOver stage = false)
    (may : relayMayMove true stage move = true)
    (moves : RelayMoves .singleInstance outbox elsewhere stage move effect) :
    handsOver effect.stage = false := by
  cases moves with
  | poll => rfl
  | select => cases may
  | skip short taken => cases nothing
  | claim short free pending => cases nothing
  | abandon found => cases nothing
  | materialise filled decoded => cases nothing
  | dispatch => cases nothing
  | mark => rfl
  | commit committing ended =>
      rcases ended with rfl | rfl
      · rfl
      · rfl
  | fail => rfl

theorem relay_fails (outbox : List OutboxRow) (elsewhere : Nat → Bool) (stage : RelayStage) :
    relayEffect .singleInstance outbox elsewhere stage .fail = some (goto .idle) := by
  cases stage with
  | claiming candidates claimed => cases candidates <;> rfl
  | dispatching handed waiting => cases waiting <;> rfl
  | _ => rfl

theorem initial_shutdown_sound (db : Database) :
    ShutdownSound (initial db : System Client Writer) where
  offered := .inl rfl
  returned := by
    intro returned
    cases returned

variable [DecidableEq Writer] {roomOf : Client → Bytes} {columns : Columns}
  {requests : Writer → Request}

theorem step_shutdown_sound {before after : System Client Writer} {action : Action Client Writer}
    (sound : ShutdownSound before) (between : LeavesBetween before action)
    (stepped : step roomOf columns requests before action = some after) : ShutdownSound after := by
  cases step_cases stepped with
  | hub action hub may moved =>
      refine ⟨?_, sound.returned⟩
      rw [hub_keeps_offered may moved]
      exact sound.offered
  | offer event hub current free moved =>
      refine ⟨.inr ⟨event, current, ?_⟩, sound.returned⟩
      rw [broadcast_offers moved, free]
      rfl
  | take event targets hub outbox current running taken dispatched =>
      refine ⟨.inl ?_, ?_⟩
      · rw [handle_takes taken]
        rcases sound.offered with none | ⟨other, same, one⟩
        · rw [none]
          rfl
        · cases same.symm.trans current
          simp [one]
      · intro returned
        cases running.symm.trans returned
  | leave cancelled running selecting => exact ⟨sound.offered, fun _ => ⟨cancelled, between⟩⟩
  | writer writer move outbox moved =>
      have same := congrFun (writer_keeps_relay moved) ()
      constructor
      · rw [relayStage, same]
        exact sound.offered
      · rw [relayStage, same]
        exact sound.returned
  | relay move outbox may moved =>
      rcases relay_moves moved with ⟨elsewhere, effect, moves, stage⟩
      constructor
      · rcases sound.offered with none | ⟨event, current, one⟩
        · exact .inl none
        · exact (current_no_move current may moves).elim
      · intro returned
        rcases sound.returned returned with ⟨cancelled, nothing⟩
        rw [cancelled] at may
        rw [relayStage, stage]
        exact ⟨cancelled, cancelled_no_rows nothing may moves⟩
  | cancel => exact ⟨sound.offered, fun returned => ⟨rfl, (sound.returned returned).2⟩⟩

theorem reachable_shutdown_sound {db : Database} {system : System Client Writer}
    (reached : Reachable (step roomOf columns requests) LeavesBetween (initial db) system) :
    ShutdownSound system := by
  apply reachable_invariant ShutdownSound (initial_shutdown_sound db) _ reached
  intro before action after sound between stepped
  exact step_shutdown_sound sound between stepped

/-- The hub of the system is one of the hub's own runs. -/
theorem system_shows_hub {allowed : System Client Writer → Action Client Writer → Prop}
    {db : Database} {system : System Client Writer}
    (reached : Reachable (step roomOf columns requests) allowed (initial db) system) :
    Reachable (RoomHubModel.step .singleInstance roomOf) anyStep RoomHubModel.initial
      system.hub := by
  apply reachable_invariant (fun system => Reachable (RoomHubModel.step .singleInstance roomOf)
    anyStep RoomHubModel.initial system.hub) reachable_start _ reached
  intro before action after shown _ stepped
  cases step_cases stepped with
  | hub action hub may moved => exact reachable_step shown trivial moved
  | offer event hub current free moved => exact reachable_step shown trivial moved
  | take event targets hub outbox current running taken dispatched =>
      exact reachable_step shown trivial taken
  | _ => exact shown

/-- And its outbox one of the outbox's own runs. -/
theorem system_shows_outbox {allowed : System Client Writer → Action Client Writer → Prop}
    {db : Database} {system : System Client Writer}
    (reached : Reachable (step roomOf columns requests) allowed (initial db) system) :
    Reachable (RoomOutboxModel.step .singleInstance columns requests) anyStep (started db)
      system.outbox := by
  apply reachable_invariant (fun system => Reachable (RoomOutboxModel.step .singleInstance columns
    requests) anyStep (started db) system.outbox) reachable_start _ reached
  intro before action after shown _ stepped
  cases step_cases stepped with
  | take event targets hub outbox current running taken dispatched =>
      exact reachable_step shown trivial dispatched
  | writer writer move outbox moved => exact reachable_step shown trivial moved
  | relay move outbox may moved => exact reachable_step shown trivial moved
  | _ => exact shown

/-- The relay waits in `Broadcast` for a `Run` that has returned. -/
def Abandoned (system : System Client Writer) : Prop :=
  system.returned = true ∧ system.hub.offered ≠ []

/-- The transaction of the relay can be rolled back in its next step. -/
def CanRollBack (roomOf : Client → Bytes) (columns : Columns) (requests : Writer → Request)
    (system : System Client Writer) : Prop :=
  ∃ after, step roomOf columns requests system (.relay .fail) = some after ∧
    relayStage after = .idle

theorem can_roll_back {system : System Client Writer}
    (free : currentEvent (relayStage system) = none) :
    CanRollBack roomOf columns requests system := by
  have may : relayMayMove system.cancelled (relayStage system) .fail = true := by
    rw [relayMayMove, free]
    rfl
  have failed : RoomOutboxModel.step .singleInstance columns requests system.outbox
      (.relay () .fail) = some (applyEffect system.outbox () (goto .idle)) := by
    rw [RoomOutboxModel.step, relay_fails]
    rfl
  refine ⟨{ system with outbox := applyEffect system.outbox () (goto .idle) }, ?_, ?_⟩
  · rw [step, if_pos may, failed]
    rfl
  · exact apply_effect_self _ _ _

/-- If `Run` returns only between the hand-overs of batches, the relay never waits for
a `Run` that has returned, and what it has begun can be rolled back. -/
theorem relay_never_abandoned (roomOf : Client → Bytes) (columns : Columns)
    (requests : Writer → Request) (db : Database) (system : System Client Writer)
    (reached : Reachable (step roomOf columns requests) LeavesBetween (initial db) system) :
    ¬ Abandoned system ∧
      (system.returned = true → CanRollBack roomOf columns requests system) := by
  have sound := reachable_shutdown_sound reached
  have free (returned : system.returned = true) : currentEvent (relayStage system) = none := by
    have nothing := (sound.returned returned).2
    cases current : currentEvent (relayStage system) with
    | none => rfl
    | some event => cases nothing.symm.trans (hands_over_current current)
  constructor
  · intro abandoned
    rcases sound.offered with none | ⟨event, current, _⟩
    · exact abandoned.2 none
    · cases (free abandoned.1).symm.trans current
  · intro returned
    exact can_roll_back (free returned)

/-- Once the relay waits for a `Run` that has returned, it does so forever. -/
theorem abandoned_forever {event : OutboxEvent} {system after : System Client Writer}
    (returned : system.returned = true) (current : currentEvent (relayStage system) = some event)
    (reached : Reachable (step roomOf columns requests) anyStep system after) :
    relayStage after = relayStage system := by
  have both : after.returned = true ∧ relayStage after = relayStage system := by
    apply reachable_invariant (fun after => after.returned = true ∧
      relayStage after = relayStage system) ⟨returned, rfl⟩ _ reached
    intro before action next known _ stepped
    cases step_cases stepped with
    | take other targets hub outbox here running taken dispatched =>
        cases running.symm.trans known.1
    | leave cancelled running selecting => cases running.symm.trans known.1
    | writer writer move outbox moved =>
        exact ⟨known.1, (congrFun (writer_keeps_relay moved) ()).trans known.2⟩
    | relay move outbox may moved =>
        rcases relay_moves moved with ⟨elsewhere, effect, moves, _⟩
        exact (current_no_move (known.2 ▸ current) may moves).elim
    | _ => exact known
  exact both.2

end Shutdown

section Samples

open ChatScale.RoomOutboxHandover

def relayRuns (moves : List RelayMove) : List (Action Unit Unit) := moves.map .relay

def postGreeting : List (Action Unit Unit) :=
  [.validate, .begin, .insertMessage sentAt, .enqueue, .commit].map (.writer ())

/-- `Run` takes the event before it returns; the batch is then rolled back. -/
theorem taken_event_rolled_back :
    ∃ system : System Unit Unit,
      Reachable (step (fun _ => lobby) canonicalColumns fun _ => greeting) LeavesBetween
        (initial emptyDatabase) system ∧ system.returned = true ∧
      handed (relayStage system) ≠ [] ∧
      CanRollBack (fun _ => lobby) canonicalColumns (fun _ => greeting) system := by
  have ran : (runActions (step (fun _ => lobby) canonicalColumns fun _ => greeting) LeavesBetween
      (initial emptyDatabase) (postGreeting ++ relayRuns [.poll, .select, .lock, .materialise] ++
        [.offer, .cancel, .take [], .hub .next, .leave])).any (fun system =>
          decide (system.returned = true ∧ handed (relayStage system) ≠ [])) = true := by
    decide +kernel
  rcases (Option.any_eq_true _ _).mp ran with ⟨system, reached, checked⟩
  rcases of_decide_eq_true checked with ⟨returned, some⟩
  have reachable := reachable_run_actions reachable_start reached
  refine ⟨system, reachable, returned, some, ?_⟩
  exact (relay_never_abandoned _ _ _ _ system reachable).2 returned

/-- `Run` returns between the query of the relay and its first hand-over. -/
theorem relay_abandoned :
    ∃ system : System Unit Unit,
      Reachable (step (fun _ => lobby) canonicalColumns fun _ => greeting) anyStep
        (initial emptyDatabase) system ∧ Abandoned system ∧
      (relayStage system).claimed = [1] ∧
      ∀ after, Reachable (step (fun _ => lobby) canonicalColumns fun _ => greeting) anyStep system
        after → (relayStage after).claimed = [1] := by
  have ran : (runActions (step (fun _ => lobby) canonicalColumns fun _ => greeting) anyStep
      (initial emptyDatabase) (postGreeting ++ relayRuns [.poll, .select, .lock, .materialise] ++
        [.cancel, .leave, .offer])).any (fun system => decide (system.returned = true ∧
          system.hub.offered ≠ [] ∧ (relayStage system).claimed = [1] ∧
          (currentEvent (relayStage system)).isSome = true)) = true := by
    decide +kernel
  rcases (Option.any_eq_true _ _).mp ran with ⟨system, reached, checked⟩
  rcases of_decide_eq_true checked with ⟨returned, waiting, claimed, some⟩
  rcases Option.isSome_iff_exists.mp some with ⟨event, current⟩
  refine ⟨system, reachable_run_actions reachable_start reached, ⟨returned, waiting⟩, claimed, ?_⟩
  intro after later
  rw [abandoned_forever returned current later]
  exact claimed

end Samples

end ChatScale.HubShutdown
