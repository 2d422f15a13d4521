import ChatScale.RoomHubModel

/-!
# When a broadcast waits for a dead client

`Run` sends to one client after the other and does nothing else meanwhile. A
client whose `WritePump` has returned leaves the hub only through `Run`, so a
full channel of such a client stops the hub for good.
-/

namespace ChatScale.RoomHubBlocking

open ChatScale.ByteText ChatScale.HubRooms ChatScale.RoomHubModel
open ChatScale.BoundedDelivery ChatScale.TransitionSystem

set_option autoImplicit false

/-- `Run` waits for a full channel that nobody reads. -/
def Blocked {Client : Type} [DecidableEq Client] (state : State Client) (client : Client) : Prop :=
  ∃ payload rest, state.run = .sending payload (client :: rest) ∧
    (state.clients client).send.length = sendBuffer ∧ (state.clients client).pump = .returned

def remainingOf {Client : Type} : RunStage Client → List Client
  | .selecting => []
  | .sending _ remaining => remaining

section Clients

/-- What a client does on its own: it adds nothing to its channel, and its pump
returns after a failed write or when the channel was closed and is empty. -/
structure MoveEffect (move : ClientMove) (before after : ClientState) : Prop where
  lighter : after.send.length ≤ before.send.length
  returned : after.pump = .returned → before.pump = .returned ∨ move = .writeFail ∨
    move = .pingFail ∨ after.send = []
  dead : before.pump = .returned → after.pump = .returned ∧ after.send = before.send

theorem client_move_effect {move : ClientMove} {before after : ClientState}
    (moved : clientMove move before = some after) : MoveEffect move before after := by
  unfold clientMove at moved
  split at moved
  case h_3 =>
      split_ifs at moved
      cases moved
      exact ⟨le_refl _, .inl, fun dead => ⟨dead, rfl⟩⟩
  case h_1 | h_4 | h_5 =>
      cases moved
      exact ⟨le_refl _, .inl, fun dead => ⟨dead, rfl⟩⟩
  case h_6 =>
      cases moved
      exact ⟨Nat.le_succ _, PumpStage.noConfusion, PumpStage.noConfusion⟩
  case h_2 | h_7 | h_9 | h_10 =>
      cases moved
      exact ⟨le_refl _, PumpStage.noConfusion, PumpStage.noConfusion⟩
  case h_8 =>
      cases moved
      exact ⟨le_refl _, fun _ => .inr (.inl rfl), PumpStage.noConfusion⟩
  case h_11 =>
      cases moved
      exact ⟨le_refl _, fun _ => .inr (.inr (.inl rfl)), PumpStage.noConfusion⟩
  case h_12 =>
      cases moved
      exact ⟨le_refl _, fun _ => .inr (.inr (.inr rfl)), PumpStage.noConfusion⟩
  case h_13 => cases moved

end Clients

section Loads

variable {Client : Type} [DecidableEq Client] {variant : Variant} {roomOf : Client → Bytes}
  {state after : State Client}

/-- What waits in a client's channel, what `Run` still has to put there, and
whether its pump has returned. -/
def loadOf (state : State Client) : Load Client where
  waiting client := (state.clients client).send.length
  owed client := (remainingOf state.run).count client
  stopped client := (state.clients client).pump = .returned

/-- Another payload would still fit into the client's channel, if its pump has
returned. -/
def hasRoom (state : State Client) (client : Client) : Bool :=
  !(loadOf state).stopped client || decide ((loadOf state).total client < sendBuffer)

/-- A write or a ping fails only while all that is on its way to the client fits
into its channel; after that a broadcast to its room is handled only while
there is room for one more payload. -/
def fits (state : State Client) : Action Client → Bool
  | .client client .writeFail => decide ((loadOf state).total client ≤ sendBuffer)
  | .client client .pingFail => decide ((loadOf state).total client ≤ sendBuffer)
  | .handle _ targets => targets.all (hasRoom state)
  | _ => true

theorem stopped_eq (state : State Client) (client : Client) :
    (loadOf state).stopped client = decide ((state.clients client).pump = .returned) := rfl

theorem total_eq (state : State Client) (client : Client) :
    (loadOf state).total client =
      (state.clients client).send.length + (remainingOf state.run).count client := rfl

/-- The clients stay as they are, and nothing is owed to others than before. -/
theorem moderate_clients (clients : after.clients = state.clients)
    (remaining : remainingOf after.run = remainingOf state.run) :
    Moderate sendBuffer (loadOf state) (loadOf after) := by
  apply moderate_same
  · intro client
    rw [stopped_eq, stopped_eq, clients]
  · intro client
    rw [total_eq, total_eq, clients, remaining]

/-- A client changes its stage, and nothing else. -/
theorem moderate_stage {client : Client} {new : ClientState}
    (send : new.send = (state.clients client).send) (pump : new.pump = (state.clients client).pump)
    (clients : after.clients = (setClient state client new).clients)
    (remaining : remainingOf after.run = remainingOf state.run) :
    Moderate sendBuffer (loadOf state) (loadOf after) := by
  have same : ∀ other, (after.clients other).send = (state.clients other).send ∧
      (after.clients other).pump = (state.clients other).pump := by
    intro other
    rw [clients]
    by_cases own : other = client
    · subst own
      rw [set_client_self]
      exact ⟨send, pump⟩
    · rw [set_client_other state new own]
      exact ⟨rfl, rfl⟩
  apply moderate_same
  · intro other
    rw [stopped_eq, stopped_eq, (same other).2]
  · intro other
    rw [total_eq, total_eq, (same other).1, remaining]

theorem client_moderate (distinct : (remainingOf state.run).Nodup) {client : Client}
    {move : ClientMove} {new : ClientState}
    (moved : clientMove move (state.clients client) = some new)
    (permitted : fits state (.client client move) = true) :
    Moderate sendBuffer (loadOf state) (loadOf (setClient state client new)) := by
  have effect := client_move_effect moved
  apply moderate_of_one client
  · intro other differ
    rw [stopped_eq, stopped_eq, total_eq, total_eq, set_client_other state new differ]
    exact ⟨rfl, rfl⟩
  · intro gone
    rw [stopped_eq, set_client_self, decide_eq_true_eq] at gone
    have before := total_eq state client
    have now : (loadOf (setClient state client new)).total client =
        new.send.length + (remainingOf state.run).count client := by
      rw [total_eq, set_client_self]
      rfl
    have lighter := effect.lighter
    rw [now, stopped_eq, before]
    rcases effect.returned gone with returned | failed | failed | empty
    · exact .inr ⟨decide_eq_true returned, Nat.add_le_add_right lighter _⟩
    · subst failed
      have bound : (loadOf state).total client ≤ sendBuffer := of_decide_eq_true permitted
      apply Or.inl
      omega
    · subst failed
      have bound : (loadOf state).total client ≤ sendBuffer := of_decide_eq_true permitted
      apply Or.inl
      omega
    · have once := List.nodup_iff_count_le_one.mp distinct client
      apply Or.inl
      rw [empty, List.length_nil, Nat.zero_add]
      exact once.trans (by decide)

/-- The payload that was owed now waits in the channel. -/
theorem send_moderate {payload : Bytes} {client : Client} {rest : List Client}
    (sending : state.run = .sending payload (client :: rest)) :
    Moderate sendBuffer (loadOf state)
      (loadOf { setClient state client { state.clients client with
          send := (state.clients client).send ++ [payload] } with
        run := .sending payload rest }) := by
  apply moderate_of_one client
  · intro other differ
    simp only [Load.total, loadOf, setClient, Function.update_of_ne differ, sending, remainingOf,
      List.count_cons_of_ne (Ne.symm differ), and_self]
  · intro gone
    simp only [loadOf, setClient, Function.update_self] at gone
    refine .inr ⟨gone, ?_⟩
    simp only [Load.total, loadOf, setClient, Function.update_self, List.length_append,
      List.length_singleton, sending, remainingOf, List.count_cons_self]
    omega

/-- `Run` meets every client of a room once. -/
theorem step_distinct (distinct : (remainingOf state.run).Nodup) {action : Action Client}
    (stepped : step variant roomOf state action = some after) :
    (remainingOf after.run).Nodup := by
  cases step_cases stepped with
  | handle selecting offered reordered => exact targets_nodup reordered
  | send sending room isOpen =>
      rw [sending] at distinct
      exact (List.nodup_cons.mp distinct).2
  | next sending => exact List.nodup_nil
  | _ => exact distinct

theorem step_moderate (distinct : (remainingOf state.run).Nodup) {action : Action Client}
    (permitted : fits state action = true)
    (stepped : step variant roomOf state action = some after) :
    Moderate sendBuffer (loadOf state) (loadOf after) := by
  cases step_cases stepped with
  | client moved => exact client_moderate distinct moved permitted
  | register selecting registering =>
      exact moderate_stage (by rw [registering]) (by rw [registering]) rfl rfl
  | leave selecting unregistering member =>
      exact moderate_stage (by rw [unregistering]) (by rw [unregistering]) rfl rfl
  | unknown selecting unregistering absent =>
      exact moderate_stage (by rw [unregistering]) (by rw [unregistering]) rfl rfl
  | broadcast single => exact moderate_clients rfl rfl
  | consume naive idle => exact moderate_clients rfl rfl
  | handle selecting offered reordered =>
      apply moderate_take_up (targets_nodup reordered)
      · intro client
        rfl
      · intro client
        rw [total_eq, total_eq, selecting]
        rfl
      · intro client target
        exact total_lt_of_room (List.all_eq_true.mp permitted client target)
  | send sending room isOpen => exact send_moderate sending
  | next sending =>
      refine moderate_clients rfl ?_
      rw [sending]
      rfl

end Loads

section Frozen

/-- A blocked `Run` stays blocked: it takes no client off the unregister
channel, and nobody else can change the channel it waits for. -/
theorem blocked_step {Client : Type} [DecidableEq Client] {variant : Variant}
    {roomOf : Client → Bytes} {state after : State Client} {action : Action Client}
    {client : Client} (blocked : Blocked state client)
    (stepped : step variant roomOf state action = some after) : Blocked after client := by
  obtain ⟨payload, rest, sending, full, returned⟩ := blocked
  cases step_cases stepped with
  | @client other move new moved =>
      by_cases same : client = other
      · subst same
        have dead := (client_move_effect moved).dead returned
        refine ⟨payload, rest, sending, ?_, ?_⟩
        · rw [set_client_self, dead.2, full]
        · rw [set_client_self, dead.1]
      · have unchanged := set_client_other state new same
        exact ⟨payload, rest, sending, by rw [unchanged, full], by rw [unchanged, returned]⟩
  | register selecting => cases sending.symm.trans selecting
  | leave selecting => cases sending.symm.trans selecting
  | unknown selecting => cases sending.symm.trans selecting
  | broadcast single => exact ⟨payload, rest, sending, full, returned⟩
  | consume naive idle => exact ⟨payload, rest, sending, full, returned⟩
  | handle selecting => cases sending.symm.trans selecting
  | send head room =>
      cases sending.symm.trans head
      exact absurd room (full ▸ lt_irrefl _)
  | next done => cases sending.symm.trans done

def lobbyOnly (_ : Unit) : Bytes := ascii "lobby"

def hello : Bytes := ascii "hello"

/-- How a payload for the lobby gets to `Run`. -/
def offerHello : Variant → Action Unit
  | .singleInstance => .broadcast ⟨ascii "lobby", hello⟩
  | .naiveScale => .consume (roomChannel (ascii "lobby")) hello

def passHello (variant : Variant) : List (Action Unit) :=
  [offerHello variant, .handle ⟨ascii "lobby", hello⟩ [()], .send, .next]

def firstHello (variant : Variant) : List (Action Unit) :=
  [.client () .connect, .register (), .client () .startWrite, .client () .startRead] ++
    passHello variant ++ [.client () .take]

/-- While the client writes the first payload, 256 others come to wait in its channel.
The next one finds it full; then the write fails. -/
def freezing (variant : Variant) : List (Action Unit) :=
  firstHello variant ++ (List.replicate sendBuffer (passHello variant)).flatten ++
    [offerHello variant, .handle ⟨ascii "lobby", hello⟩ [()], .client () .writeFail]

theorem hub_freezes (variant : Variant) :
    ∃ state : State Unit, Reachable (step variant lobbyOnly) anyStep initial state ∧
      ∀ later, Reachable (step variant lobbyOnly) anyStep state later → Blocked later () := by
  have ran : (runActions (step variant lobbyOnly) anyStep initial (freezing variant)).map
      (fun state => (state.run, (state.clients ()).send.length, (state.clients ()).pump)) =
      some (.sending hello [()], sendBuffer, .returned) := by
    cases variant with
    | singleInstance => decide +kernel
    | naiveScale => decide +kernel
  obtain ⟨state, reached, parts⟩ := Option.map_eq_some_iff.mp ran
  simp only [Prod.mk.injEq] at parts
  have blocked : Blocked state () := ⟨hello, [], parts⟩
  refine ⟨state, reachable_run_actions reachable_start reached, ?_⟩
  intro later follows
  exact reachable_invariant (fun state => Blocked state ()) blocked
    (fun _ _ _ known _ stepped => blocked_step known stepped) follows

/-- It happens in both servers. -/
theorem frozen_hub :
    (∃ state : State Unit, Reachable (step .singleInstance lobbyOnly) anyStep initial state ∧
      ∀ later, Reachable (step .singleInstance lobbyOnly) anyStep state later →
        Blocked later ()) ∧
    ∃ state : State Unit, Reachable (step .naiveScale lobbyOnly) anyStep initial state ∧
      ∀ later, Reachable (step .naiveScale lobbyOnly) anyStep state later → Blocked later () :=
  ⟨hub_freezes .singleInstance, hub_freezes .naiveScale⟩

end Frozen

section Results

variable {Client : Type} [DecidableEq Client]

/-- While what goes to a dead client fits into its channel, `Run` never waits for
one, in both servers. -/
theorem run_never_blocked (variant : Variant) (roomOf : Client → Bytes) (state : State Client)
    (reached : Reachable (step variant roomOf) (fun state action => fits state action = true)
      initial state) (client : Client) : ¬ Blocked state client := by
  rintro ⟨payload, rest, sending, full, returned⟩
  have within : (loadOf (initial : State Client)).Within sendBuffer := by
    intro other stopped
    cases stopped
  apply never_stuck loadOf within _ reached client
  · refine ⟨decide_eq_true returned, full, ?_⟩
    simp only [loadOf, sending, remainingOf, List.count_cons_self]
    omega
  · intro before action after known permitted stepped
    have start : (remainingOf (initial : State Client).run).Nodup := List.nodup_nil
    have distinct := reachable_invariant (fun state => (remainingOf state.run).Nodup) start
      (fun _ _ _ distinct _ stepped => step_distinct distinct stepped) known
    exact step_moderate distinct permitted stepped

/-- A dead client still gets what fits into its channel. -/
theorem dead_client_passed :
    ∃ state : State Unit, Reachable (step .naiveScale lobbyOnly)
        (fun state action => fits state action = true) initial state ∧
      (state.clients ()).pump = .returned ∧ state.run = .sending hello [()] ∧
      ¬ Blocked state () := by
  have ran : (runActions (step .naiveScale lobbyOnly)
      (fun state action => fits state action = true) initial (firstHello .naiveScale ++
        [.client () .writeFail, offerHello .naiveScale,
          .handle ⟨ascii "lobby", hello⟩ [()]])).map
      (fun state => ((state.clients ()).pump, state.run)) =
      some (.returned, .sending hello [()]) := by decide +kernel
  obtain ⟨state, reached, parts⟩ := Option.map_eq_some_iff.mp ran
  simp only [Prod.mk.injEq] at parts
  have reachable := reachable_run_actions reachable_start reached
  exact ⟨state, reachable, parts.1, parts.2,
    run_never_blocked .naiveScale lobbyOnly state reachable ()⟩

end Results

end ChatScale.RoomHubBlocking
