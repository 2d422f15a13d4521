import ChatScale.LiveHubModel

/-!
# When a dispatch waits for a dead connection

A connection whose pump has returned takes nothing out of its `Send` channel
any more. As long as such a channel has room for all that is on its way to it,
the consumer gets through; otherwise it waits with the hub's lock in its hands,
and the connection can never be unregistered.
-/

namespace ChatScale.LiveHubBlocking

open ChatScale.ByteText ChatScale.MessageContract ChatScale.HubRooms ChatScale.LiveHubModel
open ChatScale.BoundedDelivery ChatScale.TransitionSystem

set_option autoImplicit false

/-- The consumer waits for a full channel that nobody reads. -/
def Blocked {Conn : Type} {profiles : Conn → Profile} (state : State profiles) (conn : Conn) :
    Prop :=
  ∃ frame rest, state.dispatcher = .sending frame (conn :: rest) ∧
    (state.conns conn).send.length = sendCapacity ∧ (state.conns conn).pump = .returned

def remainingOf {Conn : Type} : Dispatcher Conn → List Conn
  | .idle => []
  | .sending _ remaining => remaining

section Invariant

variable {Conn : Type} {profiles : Conn → Profile} {state : State profiles}

structure HubSound (state : State profiles) : Prop where
  buffers : ∀ conn, (state.conns conn).send.length ≤ sendCapacity
  joined : ∀ room client conn, state.hub.clientAt room client = some conn →
    isJoined (state.conns conn).serve = true
  sending : ∀ conn ∈ remainingOf state.dispatcher, isJoined (state.conns conn).serve = true

theorem initial_hub_sound : HubSound (initial profiles) where
  buffers := fun _ => Nat.zero_le _
  joined := by
    intro room client conn found
    cases found
  sending := by
    intro conn member
    cases member

variable [DecidableEq Conn]

theorem buffers_update (sound : HubSound state) (conn : Conn) {connection : Connection}
    (buffer : connection.send.length ≤ sendCapacity) (other : Conn) :
    ((setConnection state conn connection).conns other).send.length ≤ sendCapacity :=
  set_connection_forall (fun _ connection => connection.send.length ≤ sendCapacity)
    sound.buffers buffer other

/-- A connection that stays joined is joined among the others. -/
theorem joined_update {conn other : Conn} {connection : Connection}
    (stays : isJoined (state.conns conn).serve = true → isJoined connection.serve = true)
    (before : isJoined (state.conns other).serve = true) :
    isJoined ((setConnection state conn connection).conns other).serve = true := by
  by_cases same : other = conn
  · subst same
    rw [set_connection_self]
    exact stays before
  · rw [set_connection_other state connection same]
    exact before

theorem step_hub_sound (sound : HubSound state) {action : Action Conn} {after : State profiles}
    (stepped : step state action = some after) : HubSound after := by
  cases action with
  | connection conn move =>
      obtain ⟨connection, moved, rfl⟩ := Option.map_eq_some_iff.mp stepped
      have effect := connection_move_effect moved
      have stays : isJoined (state.conns conn).serve = true →
          isJoined connection.serve = true := by
        rw [effect.joined]
        exact id
      refine ⟨buffers_update sound conn (effect.buffer (sound.buffers conn)), ?_, ?_⟩
      · intro room client other found
        exact joined_update stays (sound.joined room client other found)
      · intro other member
        exact joined_update stays (sound.sending other member)
  | register conn =>
      obtain ⟨idle, pump, send, configured, rfl⟩ := register_step_cases stepped
      have buffer := sound.buffers conn
      rw [configured] at buffer
      refine ⟨buffers_update sound conn buffer, ?_, ?_⟩
      · intro room client other found
        rw [client_at_register] at found
        split_ifs at found
        · cases found
          change isJoined ((setConnection state conn ⟨.registered, pump, send⟩).conns conn).serve =
            true
          rw [set_connection_self]
          rfl
        · exact joined_update (fun _ => rfl) (sound.joined room client other found)
      · intro other member
        exact joined_update (fun _ => rfl) (sound.sending other member)
  | unregister conn =>
      obtain ⟨idle, pump, send, disconnecting, rfl⟩ := unregister_step_cases stepped
      have buffer := sound.buffers conn
      rw [disconnecting] at buffer
      refine ⟨buffers_update sound conn buffer, ?_, ?_⟩
      · intro room client other found
        rw [client_at_unregister] at found
        split_ifs at found with removed
        have differ : other ≠ conn := by
          intro same
          subst same
          exact removed (client_at_key state.hub found).symm
        have unchanged := set_connection_other state ⟨.closing, pump, send⟩ differ
        exact unchanged ▸ sound.joined room client other found
      · intro other member
        rw [setConnection, idle] at member
        cases member
  | dispatch event targets =>
      obtain ⟨idle, rfl | ⟨frame, conns, found, ordered, rfl⟩⟩ := dispatch_step_cases stepped
      · exact sound
      · refine ⟨sound.buffers, sound.joined, ?_⟩
        intro other member
        have listed := (mem_members state.hub found other).mp (ordered.mem_iff.mp member)
        exact sound.joined event.roomID _ other listed
  | send =>
      obtain ⟨frame, conn, rest, sending, room, rfl⟩ := send_step_cases stepped
      refine ⟨buffers_update sound conn ?_, ?_, ?_⟩
      · rw [List.length_append]
        exact room
      · intro place client other found
        exact joined_update id (sound.joined place client other found)
      · intro other member
        have before := sound.sending other (by
          rw [sending]
          exact List.mem_cons_of_mem _ member)
        exact joined_update (fun joined => joined) before
  | release =>
      simp only [step] at stepped
      split at stepped
      · cases stepped
        refine ⟨sound.buffers, sound.joined, ?_⟩
        intro other member
        cases member
      · cases stepped

theorem reachable_hub_sound {allowed : State profiles → Action Conn → Prop}
    (reached : Reachable step allowed (initial profiles) state) : HubSound state :=
  reachable_invariant HubSound initial_hub_sound
    (fun _ _ _ sound _ stepped => step_hub_sound sound stepped) reached

end Invariant

section Loads

variable {Conn : Type} [DecidableEq Conn] {profiles : Conn → Profile} {state : State profiles}

/-- What waits in a connection's channel, what its read loop and the consumer
still have to put there, and whether its pump has returned. -/
def loadOf (state : State profiles) : Load Conn where
  waiting conn := (state.conns conn).send.length
  owed conn := repliesOwed (state.conns conn).serve + (remainingOf state.dispatcher).count conn
  stopped conn := (state.conns conn).pump = .returned

theorem total_eq (state : State profiles) (conn : Conn) :
    (loadOf state).total conn =
      localLoad (state.conns conn) + (remainingOf state.dispatcher).count conn := by
  simp only [Load.total, loadOf, localLoad, Nat.add_assoc]

/-- Another frame for the connection would still fit into its channel, if its
pump has returned. -/
def hasRoom (state : State profiles) (conn : Conn) : Bool :=
  !(loadOf state).stopped conn || decide ((loadOf state).total conn < sendCapacity)

/-- A write fails only while all that is on its way to the connection fits into
its channel; after that its read loop answers a frame, and a message is
dispatched to it, only while there is room for one more. -/
def fits (state : State profiles) : Action Conn → Bool
  | .connection conn .writeFail => decide ((loadOf state).total conn ≤ sendCapacity)
  | .connection conn (.read (some _)) => hasRoom state conn
  | .dispatch _ targets => targets.all (hasRoom state)
  | _ => true

theorem stopped_eq (state : State profiles) (conn : Conn) :
    (loadOf state).stopped conn = decide ((state.conns conn).pump = .returned) := rfl

theorem stopped_iff (state : State profiles) (conn : Conn) :
    (loadOf state).stopped conn = true ↔ (state.conns conn).pump = .returned := by
  rw [stopped_eq, decide_eq_true_eq]

theorem total_update (state : State profiles) (conn : Conn) (connection : Connection) :
    (loadOf (setConnection state conn connection)).total conn =
      localLoad connection + (remainingOf state.dispatcher).count conn := by
  rw [total_eq, set_connection_self]
  rfl

theorem moderate_update (conn : Conn) (connection : Connection)
    (moderate : connection.pump = .returned →
      localLoad connection + (remainingOf state.dispatcher).count conn ≤ sendCapacity ∨
      (state.conns conn).pump = .returned ∧ localLoad connection ≤ localLoad (state.conns conn)) :
    Moderate sendCapacity (loadOf state) (loadOf (setConnection state conn connection)) := by
  apply moderate_of_one conn
  · intro other differ
    have unchanged := set_connection_other state connection differ
    rw [stopped_eq, stopped_eq, total_eq, total_eq, unchanged]
    exact ⟨rfl, rfl⟩
  · intro gone
    rw [stopped_iff, set_connection_self] at gone
    rw [total_update, total_eq, stopped_iff]
    rcases moderate gone with within | ⟨before, lighter⟩
    · exact .inl within
    · exact .inr ⟨before, Nat.add_le_add_right lighter _⟩

theorem connection_moderate (sound : HubSound state) {conn : Conn} {move : ConnectionMove}
    {connection : Connection} (moved : connectionMove move (state.conns conn) = some connection)
    (permitted : fits state (.connection conn move) = true) :
    Moderate sendCapacity (loadOf state) (loadOf (setConnection state conn connection)) := by
  have effect := connection_move_effect moved
  apply moderate_update
  intro gone
  rcases effect.returned gone with before | failed | ⟨_, closed, all⟩
  · rcases effect.load with lighter | ⟨⟨frame, read⟩, heavier⟩
    · exact .inr ⟨before, lighter⟩
    · subst read
      have room := total_lt_of_room permitted ((stopped_iff state conn).mpr before)
      rw [total_eq] at room
      apply Or.inl
      omega
  · subst failed
    have bound : (loadOf state).total conn ≤ sendCapacity := of_decide_eq_true permitted
    rw [total_eq] at bound
    rcases effect.load with lighter | ⟨⟨frame, read⟩, _⟩
    · apply Or.inl
      omega
    · cases read
  · -- The run is over, so the connection has left the hub and the consumer.
    have absent : (remainingOf state.dispatcher).count conn = 0 := by
      apply List.count_eq_zero_of_not_mem
      intro member
      have joined := sound.sending conn member
      rw [closed] at joined
      cases joined
    have bound := effect.buffer (sound.buffers conn)
    apply Or.inl
    omega

theorem dispatch_moderate {event : Event} {targets conns : List Conn} {frame : Bytes}
    (idle : state.dispatcher = .idle) (found : state.hub.members event.roomID = some conns)
    (ordered : targets.Perm conns) (permitted : fits state (.dispatch event targets) = true) :
    Moderate sendCapacity (loadOf state)
      (loadOf { state with dispatcher := .sending frame targets }) := by
  have distinct := ordered.nodup_iff.mpr (members_nodup state.hub found)
  apply moderate_take_up distinct
  · intro conn
    rfl
  · intro conn
    rw [total_eq, total_eq, idle]
    rfl
  · intro conn target
    exact total_lt_of_room (List.all_eq_true.mp permitted conn target)

/-- The frame that was owed now waits in the channel. -/
theorem send_moderate {frame : Bytes} {conn : Conn} {rest : List Conn}
    (sending : state.dispatcher = .sending frame (conn :: rest)) :
    Moderate sendCapacity (loadOf state)
      (loadOf { setConnection state conn
        { state.conns conn with send := (state.conns conn).send ++ [frame] } with
          dispatcher := .sending frame rest }) := by
  apply moderate_of_one conn
  · intro other differ
    simp only [Load.total, loadOf, setConnection, Function.update_of_ne differ, sending,
      remainingOf, List.count_cons_of_ne (Ne.symm differ), and_self]
  · intro gone
    simp only [loadOf, setConnection, Function.update_self] at gone
    refine .inr ⟨gone, ?_⟩
    simp only [Load.total, loadOf, setConnection, Function.update_self, List.length_append,
      List.length_singleton, sending, remainingOf, List.count_cons_self]
    omega

theorem step_moderate (sound : HubSound state) {action : Action Conn}
    (permitted : fits state action = true) {after : State profiles}
    (stepped : step state action = some after) :
    Moderate sendCapacity (loadOf state) (loadOf after) := by
  cases action with
  | connection conn move =>
      obtain ⟨connection, moved, rfl⟩ := Option.map_eq_some_iff.mp stepped
      exact connection_moderate sound moved permitted
  | register conn =>
      obtain ⟨_, pump, send, configured, rfl⟩ := register_step_cases stepped
      apply moderate_update conn ⟨.registered, pump, send⟩
      intro gone
      rw [configured]
      exact .inr ⟨gone, le_refl _⟩
  | unregister conn =>
      obtain ⟨_, pump, send, disconnecting, rfl⟩ := unregister_step_cases stepped
      apply moderate_update conn ⟨.closing, pump, send⟩
      intro gone
      rw [disconnecting]
      exact .inr ⟨gone, le_refl _⟩
  | dispatch event targets =>
      obtain ⟨idle, rfl | ⟨frame, conns, found, ordered, rfl⟩⟩ := dispatch_step_cases stepped
      · exact fun conn gone => .inr ⟨gone, le_refl _⟩
      · exact dispatch_moderate idle found ordered permitted
  | send =>
      obtain ⟨frame, conn, rest, sending, room, rfl⟩ := send_step_cases stepped
      exact send_moderate sending
  | release =>
      simp only [step] at stepped
      split at stepped
      · rename_i frame sending
        cases stepped
        intro conn gone
        apply Or.inr
        refine ⟨gone, ?_⟩
        rw [total_eq, total_eq, sending]
        exact le_refl _
      · cases stepped

end Loads

section Frozen

/-- A blocked consumer stays blocked: it does not let go of the lock, and
nobody else can change the channel. -/
theorem blocked_step {Conn : Type} [DecidableEq Conn] {profiles : Conn → Profile}
    {state after : State profiles} {action : Action Conn} {conn : Conn}
    (blocked : Blocked state conn) (stepped : step state action = some after) :
    Blocked after conn := by
  obtain ⟨frame, rest, sending, full, returned⟩ := blocked
  cases action with
  | connection other move =>
      obtain ⟨connection, moved, rfl⟩ := Option.map_eq_some_iff.mp stepped
      by_cases same : conn = other
      · subst same
        have dead := (connection_move_effect moved).dead returned
        rw [full] at dead
        rcases dead.2 with unchanged | room
        · refine ⟨frame, rest, sending, ?_, ?_⟩
          · rw [set_connection_self, unchanged, full]
          · rw [set_connection_self, dead.1]
        · exact absurd room (lt_irrefl _)
      · have unchanged := set_connection_other state connection same
        exact ⟨frame, rest, sending, by rw [unchanged, full], by rw [unchanged, returned]⟩
  | register other =>
      cases sending.symm.trans (register_step_cases stepped).1
  | unregister other =>
      cases sending.symm.trans (unregister_step_cases stepped).1
  | dispatch event targets =>
      cases sending.symm.trans (dispatch_step_cases stepped).1
  | send =>
      obtain ⟨other, first, later, head, room, _⟩ := send_step_cases stepped
      cases sending.symm.trans head
      exact absurd room (full ▸ lt_irrefl _)
  | release =>
      simp only [step, sending] at stepped
      cases stepped

def soloProfile (_ : Unit) : Profile := ⟨ascii "ann", [ascii "lobby"]⟩

def greeting : Event :=
  ⟨1, ascii "m-1", ascii "k-1", ascii "lobby", 1, CivilTime.sampleTime.toTime, ascii "\"hi\""⟩

def greetingFrame : Bytes := (dispatchFrame greeting).getD []

def passGreeting : List (Action Unit) := [.dispatch greeting [()], .send, .release]

def firstGreeting : List (Action Unit) :=
  [.connection () .configure, .register (), .connection () .startPump] ++ passGreeting ++
    [.connection () .take]

/-- While the connection writes the first greeting, 256 others come to wait in its
channel. The next one finds it full; then the write fails. -/
def freezing : List (Action Unit) :=
  firstGreeting ++ (List.replicate sendCapacity passGreeting).flatten ++
    [.dispatch greeting [()], .connection () .writeFail]

theorem frozen_instance :
    ∃ state : State soloProfile, Reachable step anyStep (initial soloProfile) state ∧
      ∀ later, Reachable step anyStep state later → Blocked later () := by
  have ran : (runActions step anyStep (initial soloProfile) freezing).map
      (fun state => (state.dispatcher, (state.conns ()).send.length, (state.conns ()).pump)) =
      some (.sending greetingFrame [()], sendCapacity, .returned) := by
    decide +kernel
  obtain ⟨state, reached, parts⟩ := Option.map_eq_some_iff.mp ran
  simp only [Prod.mk.injEq] at parts
  have blocked : Blocked state () := ⟨greetingFrame, [], parts⟩
  refine ⟨state, reachable_run_actions reachable_start reached, ?_⟩
  intro later follows
  exact reachable_invariant (fun state => Blocked state ()) blocked
    (fun _ _ _ known _ stepped => blocked_step known stepped) follows

end Frozen

section Results

variable {Conn : Type} [DecidableEq Conn]

/-- While what goes to a dead connection fits into its channel, the consumer
never waits for one. -/
theorem dispatch_never_blocked (profiles : Conn → Profile) (state : State profiles)
    (reached : Reachable step (fun state action => fits state action = true)
      (initial profiles) state) (conn : Conn) : ¬ Blocked state conn := by
  rintro ⟨frame, rest, sending, full, returned⟩
  have within : (loadOf (initial profiles)).Within sendCapacity := by
    intro other stopped
    cases stopped
  apply never_stuck loadOf within _ reached conn
  · refine ⟨(stopped_iff state conn).mpr returned, full, ?_⟩
    simp only [loadOf, sending, remainingOf, List.count_cons_self]
    omega
  · intro before action after known permitted stepped
    exact step_moderate (reachable_hub_sound known) permitted stepped

/-- A dead connection still gets what fits into its channel. -/
theorem dead_connection_passed :
    ∃ state : State soloProfile,
      Reachable step (fun state action => fits state action = true) (initial soloProfile) state ∧
      (state.conns ()).pump = .returned ∧ state.dispatcher = .sending greetingFrame [()] ∧
      ¬ Blocked state () := by
  have ran : (runActions step (fun state action => fits state action = true)
      (initial soloProfile) (firstGreeting ++
        [.connection () .writeFail, .dispatch greeting [()]])).map
      (fun state => ((state.conns ()).pump, state.dispatcher)) =
      some (.returned, .sending greetingFrame [()]) := by decide +kernel
  obtain ⟨state, reached, parts⟩ := Option.map_eq_some_iff.mp ran
  simp only [Prod.mk.injEq] at parts
  have reachable := reachable_run_actions reachable_start reached
  exact ⟨state, reachable, parts.1, parts.2,
    dispatch_never_blocked soloProfile state reachable ()⟩

end Results

end ChatScale.LiveHubBlocking
