import Mathlib.Data.List.Dedup
import ChatScale.PresenceModel

/-!
# What a successful ping says

A ping refreshes what it has read. If its read failed, or the client key had
expired or changed by the time of its block, it reports success all the same.
When the read succeeded, no `Connect` or `Disconnect` of the key came in between
and the key is still there, everything of the connection has its full time
again.
-/

namespace ChatScale.PresencePing

open ChatScale.ByteText ChatScale.RedisKeyspace ChatScale.PresenceModel
open ChatScale.TransitionSystem

set_option autoImplicit false

/-- The connection has its rooms and its fields for the full time from now on. -/
def Refreshed (db : Keyspace) (now : Nat) (clientID instanceName : Bytes)
    (roomsId : List Bytes) : Prop :=
  (∃ members, setAt db now (clientKey clientID instanceName) =
      some (members, some (now + connTTL)) ∧ ∀ room, room ∈ members ↔ room ∈ roomsId) ∧
    ∀ room ∈ roomsId, fieldAt db now (roomKey room) (clientKey clientID instanceName) =
      some ⟨instanceName, some (now + connTTL)⟩

section Steps

variable {Call : Type} {requests : Call → Request} {state after : State Call}

/-- What an executed block of a client key does to the sets. -/
structure BlockEffect (now : Nat) (before after : Keyspace) (key : Bytes)
    (block : Option Executed) : Prop where
  others : ∀ other, other ≠ key → setAt after now other = setAt before now other
  named : ∀ executed, block = some executed → executed.key = key
  own : ∀ members expiry, setAt after now key = some (members, expiry) →
    (∃ clientID instanceName roomsId, block = some (.connected clientID instanceName roomsId) ∧
      members = roomsId.dedup) ∨
    block = none ∧ ∃ earlier, setAt before now key = some (members, earlier)

theorem connect_effect (now : Nat) (db : Keyspace) (clientID instanceName : Bytes)
    (roomsId : List Bytes) :
    BlockEffect now db (runAll now db (connectBlock clientID instanceName roomsId)).1
      (clientKey clientID instanceName) (some (.connected clientID instanceName roomsId)) where
  others := by
    intro other differ
    exact run_all_set_kept fun command listed => (connect_foreign differ.symm command listed).1
  named := by
    intro executed same
    cases same
    rfl
  own := by
    intro members expiry found
    rw [connect_set, Option.some.injEq, Prod.mk.injEq] at found
    exact .inl ⟨clientID, instanceName, roomsId, rfl, found.1.symm⟩

theorem disconnect_effect (now : Nat) (db : Keyspace) (clientID instanceName : Bytes)
    (roomsId : List Bytes) :
    BlockEffect now db (runAll now db (disconnectBlock clientID instanceName roomsId)).1
      (clientKey clientID instanceName) (some (.disconnected clientID instanceName)) where
  others := by
    intro other differ
    exact run_all_set_kept fun command listed => (disconnect_foreign differ.symm command listed).1
  named := by
    intro executed same
    cases same
    rfl
  own := by
    intro members expiry found
    rw [disconnect_set] at found
    cases found

theorem ping_effect (now : Nat) (db : Keyspace) (clientID instanceName : Bytes)
    (roomsId : List Bytes) :
    BlockEffect now db (runAll now db (pingBlock clientID instanceName roomsId)).1
      (clientKey clientID instanceName) none where
  others := by
    intro other differ
    exact run_all_set_kept fun command listed => (ping_foreign differ.symm command listed).1
  named := by
    intro executed same
    cases same
  own := by
    intro members expiry found
    rw [ping_set, Option.map_eq_some_iff] at found
    obtain ⟨old, present, same⟩ := found
    rw [Prod.mk.injEq] at same
    refine .inr ⟨rfl, old.2, ?_⟩
    rw [← same.1]
    exact present

/-- A set is there only as the last block of its key left it, and a call that
has read it since knows its members. -/
structure PresenceSound (requests : Call → Request) (state : State Call) : Prop where
  written : ∀ key members expiry, setAt state.db state.now key = some (members, expiry) →
    ∃ clientID instanceName roomsId, members = roomsId.dedup ∧
      (blocksOf state.history key).getLast? = some (.connected clientID instanceName roomsId)
  seen : ∀ id roomsId answered seen, state.calls id = .read roomsId answered seen →
    seen ≤ (blocksOf state.history (requests id).key).length
  read : ∀ id roomsId seen, state.calls id = .read roomsId true seen →
    seen = (blocksOf state.history (requests id).key).length → ∀ members expiry,
      setAt state.db state.now (requests id).key = some (members, expiry) → roomsId = members

theorem blocks_of_none (history : List Executed) (key : Bytes) :
    blocksOf (history ++ (none : Option Executed).toList) key = blocksOf history key := by
  rw [Option.toList_none, List.append_nil]

theorem blocks_of_some (history : List Executed) {block : Executed} {key : Bytes}
    (named : block.key = key) :
    blocksOf (history ++ (some block).toList) key = blocksOf history key ++ [block] := by
  have listed : (block.key == key) = true := beq_iff_eq.mpr named
  rw [Option.toList_some, blocksOf, List.filter_append, List.filter_singleton, listed]
  rfl

theorem blocks_of_other (history : List Executed) {block : Option Executed} {key other : Bytes}
    (named : ∀ executed, block = some executed → executed.key = key) (differ : other ≠ key) :
    blocksOf (history ++ block.toList) other = blocksOf history other := by
  cases block with
  | none => exact blocks_of_none history other
  | some executed =>
      have apart : (executed.key == other) = false := by
        rw [beq_eq_false_iff_ne, named executed rfl]
        exact differ.symm
      rw [Option.toList_some, blocksOf, List.filter_append, List.filter_singleton, apart]
      exact List.append_nil _

theorem blocks_of_grow (history : List Executed) (block : Option Executed) (key : Bytes) :
    (blocksOf history key).length ≤ (blocksOf (history ++ block.toList) key).length := by
  rw [blocksOf, blocksOf, List.filter_append, List.length_append]
  exact Nat.le_add_right _ _

theorem initial_sound : PresenceSound requests initial where
  written := by
    intro key members expiry found
    cases found
  seen := by
    intro id roomsId answered seen stage
    cases stage
  read := by
    intro id roomsId seen stage
    cases stage

theorem wait_sound (sound : PresenceSound requests state) (elapsed : Nat) :
    PresenceSound requests { state with now := state.now + elapsed } where
  written := by
    intro key members expiry found
    exact sound.written key members expiry (set_at_earlier (Nat.le_add_right _ _) found)
  seen := sound.seen
  read := by
    intro id roomsId seen stage current members expiry found
    exact sound.read id roomsId seen stage current members expiry
      (set_at_earlier (Nat.le_add_right _ _) found)

theorem block_sound {db : Keyspace} {key : Bytes} {block : Option Executed}
    (sound : PresenceSound requests state)
    (effect : BlockEffect state.now state.db db key block) :
    PresenceSound requests { state with
      db := db
      history := state.history ++ block.toList } where
  written := by
    intro other members expiry found
    by_cases same : other = key
    · subst same
      rcases effect.own members expiry found with
        ⟨clientID, instanceName, roomsId, rfl, content⟩ | ⟨rfl, earlier, present⟩
      · refine ⟨clientID, instanceName, roomsId, content, ?_⟩
        rw [blocks_of_some state.history (effect.named _ rfl), List.getLast?_concat]
      · rw [blocks_of_none]
        exact sound.written other members earlier present
    · rw [effect.others other same] at found
      rw [blocks_of_other state.history effect.named same]
      exact sound.written other members expiry found
  seen := by
    intro id roomsId answered seen stage
    exact (sound.seen id roomsId answered seen stage).trans (blocks_of_grow _ _ _)
  read := by
    intro id roomsId seen stage current members expiry found
    by_cases same : (requests id).key = key
    · rw [same] at found current
      rcases effect.own members expiry found with ⟨_, _, _, rfl, _⟩ | ⟨rfl, earlier, present⟩
      · -- the block came after the read, so the read is no longer current
        have before := sound.seen id roomsId true seen stage
        rw [blocks_of_some state.history (effect.named _ rfl), List.length_append] at current
        rw [same, current] at before
        exact absurd before (Nat.not_succ_le_self _)
      · rw [blocks_of_none] at current
        rw [← same] at current present
        exact sound.read id roomsId seen stage current members earlier present
    · rw [effect.others _ same] at found
      rw [blocks_of_other state.history effect.named same] at current
      exact sound.read id roomsId seen stage current members expiry found

variable [DecidableEq Call]

/-- A call ends, reads, or executes a block of its key. -/
inductive CallEffect (request : Request) (id : Call) (state : State Call) : State Call → Prop where
  | ends (success : Bool) : CallEffect request id state (setStage state id (.done success))
  | reads (roomsId : List Bytes) (answered : Bool)
      (content : answered = true → ∀ members expiry,
        setAt state.db state.now request.key = some (members, expiry) → roomsId = members) :
      CallEffect request id state (setStage state id
        (.read roomsId answered (blocksOf state.history request.key).length))
  | executes (db : Keyspace) (block : Option Executed) (success : Bool)
      (effect : BlockEffect state.now state.db db request.key block) :
      CallEffect request id state (setStage { state with
        db := db
        history := state.history ++ block.toList } id (.done success))

theorem read_rooms_content {now : Nat} {db : Keyspace} {key : Bytes} {reached : Bool}
    {roomsId members : List Bytes} {expiry : Option Nat}
    (answered : readRooms now db reached key = some roomsId)
    (found : setAt db now key = some (members, expiry)) : roomsId = members := by
  unfold readRooms at answered
  split_ifs at answered
  unfold setAt at found
  split at found
  · rename_i entry
    rw [smembers, entry] at answered
    cases found
    cases answered
    rfl
  · cases found

theorem exec_step_effect {request : Request} {id : Call} {commands : List Command}
    {block : Option Executed} (outcome : Outcome)
    (effect : BlockEffect state.now state.db (runAll state.now state.db commands).1 request.key
      block) : CallEffect request id state (execStep state id commands block outcome) := by
  unfold execStep exec
  split_ifs with complete
  · cases outcome with
    | answered => exact .executes _ block _ effect
    | lost => exact .executes _ block false effect
    | refused => exact .ends false
  · cases outcome with
    | answered => exact .ends false
    | lost => exact .ends false
    | refused => exact .ends false

theorem call_step_effect {request : Request} {id : Call} {stage : CallStage} {move : Move}
    (stepped : callStep state id request stage move = some after) :
    CallEffect request id state after := by
  unfold callStep at stepped
  split at stepped
  · cases stepped
    exact exec_step_effect _ (connect_effect _ _ _ _ _)
  · rename_i clientID instanceName reached
    dsimp only at stepped
    split at stepped
    · cases stepped
      exact .ends false
    · cases stepped
      exact .ends true
    · rename_i roomsId _ answered
      cases stepped
      exact .reads _ true fun _ members expiry found => read_rooms_content answered found
  · cases stepped
    exact exec_step_effect _ (disconnect_effect _ _ _ _ _)
  · rename_i clientID instanceName reached
    cases stepped
    refine .reads _ _ ?_
    intro answered members expiry found
    obtain ⟨roomsId, read⟩ := Option.isSome_iff_exists.mp answered
    rw [read]
    exact read_rooms_content read found
  · cases stepped
    exact exec_step_effect _ (ping_effect _ _ _ _ _)
  · cases stepped

/-- A stage that says nothing false about the set keeps the invariant. -/
theorem set_stage_sound {id : Call} {stage : CallStage} (sound : PresenceSound requests state)
    (honest : ∀ roomsId answered seen, stage = .read roomsId answered seen →
      seen = (blocksOf state.history (requests id).key).length ∧
        (answered = true → ∀ members expiry,
          setAt state.db state.now (requests id).key = some (members, expiry) →
            roomsId = members)) :
    PresenceSound requests (setStage state id stage) where
  written := sound.written
  seen := by
    intro other roomsId answered seen reading
    by_cases same : other = id
    · subst same
      simp only [setStage, Function.update_self] at reading
      exact (honest roomsId answered seen reading).1.le
    · simp only [setStage, Function.update_of_ne same] at reading
      exact sound.seen other roomsId answered seen reading
  read := by
    intro other roomsId seen reading current members expiry found
    by_cases same : other = id
    · subst same
      simp only [setStage, Function.update_self] at reading
      exact (honest roomsId true seen reading).2 rfl members expiry found
    · simp only [setStage, Function.update_of_ne same] at reading
      exact sound.read other roomsId seen reading current members expiry found

theorem step_presence_sound {action : Action Call} (sound : PresenceSound requests state)
    (stepped : step requests state action = some after) : PresenceSound requests after := by
  cases action with
  | wait elapsed =>
      cases stepped
      exact wait_sound sound elapsed
  | call id move =>
      cases call_step_effect stepped with
      | ends success =>
          exact set_stage_sound sound fun _ _ _ reading => nomatch reading
      | reads roomsId answered content =>
          apply set_stage_sound sound
          intro read reached seen reading
          cases reading
          exact ⟨rfl, content⟩
      | executes db block success effect =>
          exact set_stage_sound (block_sound sound effect) fun _ _ _ reading => nomatch reading

theorem reachable_presence_sound
    (reached : Reachable (step requests) anyStep initial state) : PresenceSound requests state :=
  reachable_invariant (PresenceSound requests) initial_sound
    (fun _ _ _ sound _ stepped => step_presence_sound sound stepped) reached

end Steps

section Results

theorem ping_fields {now : Nat} {db : Keyspace} {clientID instanceName : Bytes}
    {roomsId : List Bytes}
    (success : (runAll now db (pingBlock clientID instanceName roomsId)).2 = true) (room : Bytes) :
    fieldAt (runAll now db (pingBlock clientID instanceName roomsId)).1 now (roomKey room)
      (clientKey clientID instanceName) =
        if room ∈ roomsId then some ⟨instanceName, some (now + connTTL)⟩
        else fieldAt db now (roomKey room) (clientKey clientID instanceName) := by
  rw [pingBlock, run_all_append, Bool.and_eq_true] at success
  rw [pingBlock, run_all_append]
  have saved := save_rooms_fields success.1 room
  generalize (runAll now db (saveRooms clientID instanceName roomsId)).1 = middle at saved
  simp only [runAll, Command.run]
  rw [(expire_leaves now middle _ connTTL).fields (expire_succeeds _ connTTL)]
  exact saved

/-- The client key still holds the rooms, and the ping has read every room whose
field does not have its full time already. -/
def Refreshable (db : Keyspace) (now : Nat) (read : List Bytes) (clientID instanceName : Bytes)
    (roomsId : List Bytes) : Prop :=
  (∃ members expiry, setAt db now (clientKey clientID instanceName) = some (members, expiry) ∧
      ∀ room, room ∈ members ↔ room ∈ roomsId) ∧
    ∀ room ∈ roomsId, room ∈ read ∨
      fieldAt db now (roomKey room) (clientKey clientID instanceName) =
        some ⟨instanceName, some (now + connTTL)⟩

theorem ping_block_refreshes_iff {now : Nat} {db : Keyspace} {clientID instanceName : Bytes}
    {read roomsId : List Bytes}
    (success : (runAll now db (pingBlock clientID instanceName read)).2 = true) :
    Refreshed (runAll now db (pingBlock clientID instanceName read)).1 now clientID instanceName
      roomsId ↔ Refreshable db now read clientID instanceName roomsId := by
  apply and_congr
  · rw [ping_set]
    constructor
    · rintro ⟨members, found, same⟩
      obtain ⟨old, present, refreshed⟩ := Option.map_eq_some_iff.mp found
      cases refreshed
      exact ⟨old.1, old.2, present, same⟩
    · rintro ⟨members, expiry, present, same⟩
      rw [present]
      exact ⟨members, rfl, same⟩
  · apply forall₂_congr
    intro room _
    rw [ping_fields success]
    by_cases listed : room ∈ read
    · rw [if_pos listed]
      exact iff_of_true rfl (.inl listed)
    · rw [if_neg listed]
      exact (or_iff_right listed).symm

variable {Call : Type}

/-- In a reachable state a current read of a live key has found the rooms of the
last `Connect`. -/
theorem current_read_refreshable {requests : Call → Request} {state : State Call} {id : Call}
    {clientID instanceName : Bytes} {roomsId read : List Bytes}
    (sound : PresenceSound requests state)
    (key : (requests id).key = clientKey clientID instanceName)
    (connected : (blocksOf state.history (clientKey clientID instanceName)).getLast? =
      some (.connected clientID instanceName roomsId))
    (answered : state.calls id =
      .read read true (blocksOf state.history (clientKey clientID instanceName)).length)
    (live : setAt state.db state.now (clientKey clientID instanceName) ≠ none) :
    Refreshable state.db state.now read clientID instanceName roomsId := by
  obtain ⟨⟨members, expiry⟩, found⟩ := Option.ne_none_iff_exists'.mp live
  have sameRead : read = members :=
    sound.read id read _ answered (by rw [key]) members expiry (by rw [key, found])
  obtain ⟨_, _, written, content, last⟩ := sound.written _ members expiry found
  rw [connected] at last
  cases last
  subst sameRead content
  refine ⟨⟨roomsId.dedup, expiry, found, fun room => List.mem_dedup⟩, ?_⟩
  intro room listed
  exact .inl (List.mem_dedup.mpr listed)

variable [DecidableEq Call]

/-- Along any run: a ping that reports success has refreshed the connection
exactly when its block found the rooms still in the client key and its read had
found those that needed it. That is so whenever the read succeeded after the
last `Connect`, nothing replaced or removed the rooms in between, and the key had
not expired. -/
theorem ping_success_refreshes_iff (requests : Call → Request)
    (trace : List (Transition (State Call) (Action Call))) (final : State Call)
    (run : Run (step requests) anyStep initial trace final)
    (taken : Transition (State Call) (Action Call)) (listed : taken ∈ trace) (id : Call)
    (clientID instanceName : Bytes) (roomsId read : List Bytes) (answered : Bool) (seen : Nat)
    (request : requests id = .ping clientID instanceName)
    (stage : taken.before.calls id = .read read answered seen)
    (executed : taken.action = .call id (.exec .answered))
    (success : taken.after.calls id = .done true) :
    (Refreshed taken.after.db taken.after.now clientID instanceName roomsId ↔
      Refreshable taken.before.db taken.before.now read clientID instanceName roomsId) ∧
    ((blocksOf taken.before.history (clientKey clientID instanceName)).getLast? =
        some (.connected clientID instanceName roomsId) → answered = true →
      seen = (blocksOf taken.before.history (clientKey clientID instanceName)).length →
      setAt taken.before.db taken.before.now (clientKey clientID instanceName) ≠ none →
      Refreshed taken.after.db taken.after.now clientID instanceName roomsId) := by
  obtain ⟨reached, _, stepped⟩ := run_transition run listed
  rcases taken with ⟨state, action, after⟩
  dsimp only at reached stepped stage executed success ⊢
  subst executed
  have exact_condition : Refreshed after.db after.now clientID instanceName roomsId ↔
      Refreshable state.db state.now read clientID instanceName roomsId := by
    simp only [step, request, stage, callStep, execStep, exec, ping_complete, if_true] at stepped
    cases stepped
    simp only [setStage, Function.update_self, CallStage.done.injEq] at success
    exact ping_block_refreshes_iff success
  refine ⟨exact_condition, ?_⟩
  intro connected reachedRead current live
  have key : (requests id).key = clientKey clientID instanceName := by
    rw [request]
    rfl
  rw [reachedRead, current] at stage
  exact exact_condition.mpr
    (current_read_refreshable (reachable_presence_sound reached) key connected stage live)

/-- One client connects to a room and is pinged. -/
def oneClient : Bool → Request
  | false => .connect (ascii "c1") (ascii "inst-a") [ascii "r1"]
  | true => .ping (ascii "c1") (ascii "inst-a")

/-- Everything up to the block of a ping that comes after 40 seconds. -/
def pingedLate (reached : Bool) : List (Action Bool) :=
  [.call false (.exec .answered), .wait 40000, .call true (.read reached)]

/-- Nothing of the room is refreshed after a read that failed: the field of the
connection still goes 20 seconds later. -/
theorem unread_ping_succeeds :
    ∃ state after : State Bool,
      Reachable (step oneClient) anyStep initial state ∧
      (blocksOf state.history (clientKey (ascii "c1") (ascii "inst-a"))).getLast? =
        some (.connected (ascii "c1") (ascii "inst-a") [ascii "r1"]) ∧
      step oneClient state (.call true (.exec .answered)) = some after ∧
      after.calls true = .done true ∧
      ¬ Refreshed after.db after.now (ascii "c1") (ascii "inst-a") [ascii "r1"] := by
  have ran : (runActions (step oneClient) anyStep initial (pingedLate false)).bind
      (fun state => (step oneClient state (.call true (.exec .answered))).map fun after =>
        ((blocksOf state.history (clientKey (ascii "c1") (ascii "inst-a"))).getLast?,
          after.calls true, after.now,
          fieldAt after.db after.now (roomKey (ascii "r1"))
            (clientKey (ascii "c1") (ascii "inst-a")))) =
      some (some (.connected (ascii "c1") (ascii "inst-a") [ascii "r1"]), .done true, 40000,
        some ⟨ascii "inst-a", some 60000⟩) := by
    decide +kernel
  obtain ⟨state, reached, stepped⟩ := Option.bind_eq_some_iff.mp ran
  obtain ⟨after, executed, seen⟩ := Option.map_eq_some_iff.mp stepped
  simp only [Prod.mk.injEq] at seen
  obtain ⟨last, success, time, field⟩ := seen
  refine ⟨state, after, reachable_run_actions reachable_start reached, last, executed, success, ?_⟩
  intro refreshed
  have full := refreshed.2 (ascii "r1") (List.mem_singleton.mpr rfl)
  rw [field, time] at full
  cases full

theorem read_ping_refreshes :
    ∃ state after : State Bool,
      step oneClient state (.call true (.exec .answered)) = some after ∧ after.now = 40000 ∧
      Refreshed after.db after.now (ascii "c1") (ascii "inst-a") [ascii "r1"] := by
  have ran : (runActions (step oneClient) anyStep initial (pingedLate true)).bind
      (fun state => (step oneClient state (.call true (.exec .answered))).map fun after =>
        (state.calls true, blocksOf state.history (clientKey (ascii "c1") (ascii "inst-a")),
          (setAt state.db state.now (clientKey (ascii "c1") (ascii "inst-a"))).isSome,
          after.calls true, after.now)) =
      some (.read [ascii "r1"] true 1, [.connected (ascii "c1") (ascii "inst-a") [ascii "r1"]],
        true, .done true, 40000) := by
    decide +kernel
  obtain ⟨state, reached, stepped⟩ := Option.bind_eq_some_iff.mp ran
  obtain ⟨after, executed, seen⟩ := Option.map_eq_some_iff.mp stepped
  simp only [Prod.mk.injEq] at seen
  obtain ⟨answered, blocks, live, success, time⟩ := seen
  obtain ⟨trace, run⟩ := reachable_run_actions reachable_start reached
  refine ⟨state, after, executed, time, ?_⟩
  apply (ping_success_refreshes_iff oneClient _ after (.snoc run trivial executed) _
    (List.mem_append_right _ (List.mem_singleton.mpr rfl)) true (ascii "c1") (ascii "inst-a")
    [ascii "r1"] [ascii "r1"] true 1 rfl answered rfl success).2 _ rfl
  · rw [blocks]
    rfl
  · exact Option.isSome_iff_ne_none.mp live
  · rw [blocks]
    rfl

end Results

end ChatScale.PresencePing
