import ChatScale.PresenceStale

/-!
# How long a presence entry can stay

Only the blocks of `Connect` and `Ping` write a client key or a field, and each
of them gives what it writes the time `connTTL` from then on. Whatever is there
of a connection has therefore been written by one of its own blocks, and ends
`connTTL` after the last of them at the latest. This holds for all interleavings
of the calls, also when a block was executed for a call that is no longer
current, and when the answer to a block is lost.
-/

namespace ChatScale.PresenceExpiry

open ChatScale.ByteText ChatScale.RedisKeyspace ChatScale.PresenceModel
open ChatScale.PresenceBlocks ChatScale.PresenceStale ChatScale.TransitionSystem

set_option autoImplicit false

section Blocks

/-- The block of a request; `roomsId` are the rooms it has read. -/
def blockOf (roomsId : List Bytes) : Request → List Command
  | .connect clientID instanceName named => connectBlock clientID instanceName named
  | .disconnect clientID instanceName => disconnectBlock clientID instanceName roomsId
  | .ping clientID instanceName => pingBlock clientID instanceName roomsId

/-- The server discards the block of a `Connect` without rooms. -/
def refreshes : Request → Bool
  | .connect _ _ roomsId => !roomsId.isEmpty
  | .disconnect _ _ => false
  | .ping _ _ => true

def isExecuted : Outcome → Bool
  | .answered => true
  | .lost => true
  | .refused => false

/-- The expiry is at most `connTTL` after this time. -/
def EndsBy (latest expiry : Option Nat) : Prop :=
  ∃ time finish, latest = some time ∧ expiry = some finish ∧ finish ≤ time + connTTL

/-- Whatever is there under the client key or in a field of that name ends within
the time of the latest block. -/
structure Bounded (db : Keyspace) (now : Nat) (key : Bytes) (latest : Option Nat) : Prop where
  recent : ∀ time, latest = some time → time ≤ now
  client : ∀ members expiry, setAt db now key = some (members, expiry) → EndsBy latest expiry
  fields : ∀ room field, fieldAt db now (roomKey room) key = some field →
    EndsBy latest field.expiry

variable {db : Keyspace} {now : Nat} {key : Bytes} {latest : Option Nat}

theorem ends_by_later {expiry : Option Nat} (recent : ∀ time, latest = some time → time ≤ now)
    (ends : EndsBy latest expiry) : EndsBy (some now) expiry := by
  obtain ⟨time, finish, same, ending, bound⟩ := ends
  have passed := recent time same
  exact ⟨now, finish, rfl, ending, by omega⟩

theorem bounded_later (bounded : Bounded db now key latest) : Bounded db now key (some now) where
  recent := by
    intro time same
    cases same
    exact le_refl now
  client := fun members expiry found =>
    ends_by_later bounded.recent (bounded.client members expiry found)
  fields := fun room field found => ends_by_later bounded.recent (bounded.fields room field found)

/-- Once the time of the latest block has passed, nothing is there. -/
theorem bounded_gone (bounded : Bounded db now key latest)
    (passed : ∀ time, latest = some time → time + connTTL < now) :
    setAt db now key = none ∧ FieldsGone now db key := by
  have ended (expiry : Option Nat) (live : alive now expiry = true) : ¬EndsBy latest expiry := by
    rintro ⟨time, finish, last, rfl, bound⟩
    have past := passed time last
    have still := alive_some.mp live
    omega
  constructor
  · cases found : setAt db now key with
    | none => rfl
    | some old => exact absurd (bounded.client old.1 old.2 found) (ended _ (set_at_alive found))
  · intro room
    cases found : fieldAt db now (roomKey room) key with
    | none => rfl
    | some field => exact absurd (bounded.fields room field found) (ended _ (field_at_alive found))

theorem bounded_wait (bounded : Bounded db now key latest) (elapsed : Nat) :
    Bounded db (now + elapsed) key latest where
  recent := fun time same => (bounded.recent time same).trans (Nat.le_add_right _ _)
  client := fun members expiry found =>
    bounded.client members expiry (set_at_earlier (Nat.le_add_right _ _) found)
  fields := fun room field found =>
    bounded.fields room field (field_at_earlier (Nat.le_add_right _ _) found)

/-- A block that writes no field of this name and leaves no new set in the client
key. -/
theorem bounded_kept {commands : List Command} (bounded : Bounded db now key latest)
    (fields : ∀ command ∈ commands, command.writesField key = false)
    (client : ∀ old, setAt (runAll now db commands).1 now key = some old →
      setAt db now key = some old) :
    Bounded (runAll now db commands).1 now key latest where
  recent := bounded.recent
  client := fun members expiry found => bounded.client members expiry (client _ found)
  fields := fun room field found => bounded.fields room field (run_all_field_kept fields found)

theorem foreign_bounded {commands : List Command} (bounded : Bounded db now key latest)
    (foreign : ∀ command ∈ commands, Foreign key command) :
    Bounded (runAll now db commands).1 now key latest := by
  apply bounded_kept bounded fun command listed => (foreign command listed).2
  intro old found
  rwa [run_all_set_kept fun command listed => (foreign command listed).1] at found

theorem block_foreign (roomsId : List Bytes) {request : Request} (differ : request.key ≠ key) :
    ∀ command ∈ blockOf roomsId request, Foreign key command := by
  cases request with
  | connect clientID instanceName named => exact connect_foreign differ
  | disconnect clientID instanceName => exact disconnect_foreign differ
  | ping clientID instanceName => exact ping_foreign differ

variable {clientID instanceName : Bytes} {roomsId : List Bytes}

theorem disconnect_bounded (bounded : Bounded db now (clientKey clientID instanceName) latest) :
    Bounded (runAll now db (disconnectBlock clientID instanceName roomsId)).1 now
      (clientKey clientID instanceName) latest := by
  apply bounded_kept bounded
  · intro command listed
    rcases List.mem_cons.mp listed with rfl | removed
    · rfl
    · obtain ⟨room, _, rfl⟩ := List.mem_map.mp removed
      rfl
  · intro old found
    rw [disconnect_set] at found
    cases found

/-- The fields after `saveRooms` and commands that write no field. -/
theorem saved_fields_end {others : List Command}
    (bounded : Bounded db now (clientKey clientID instanceName) latest)
    (foreign : ∀ command ∈ others,
      command.writesField (clientKey clientID instanceName) = false)
    {room : Bytes} {field : Field}
    (found : fieldAt (runAll now db (saveRooms clientID instanceName roomsId ++ others)).1 now
      (roomKey room) (clientKey clientID instanceName) = some field) :
    EndsBy (some now) field.expiry := by
  have before : FieldsBounded db now (clientKey clientID instanceName) (now + connTTL) := by
    intro other old present
    obtain ⟨_, finish, same, ending, bound⟩ := (bounded_later bounded).fields other old present
    cases same
    exact ⟨finish, ending, bound⟩
  rw [run_all_append] at found
  have saved := save_rooms_bounded (le_refl _) before room field (run_all_field_kept foreign found)
  obtain ⟨finish, ending, bound⟩ := saved
  exact ⟨now, finish, rfl, ending, bound⟩

theorem connect_bounded (bounded : Bounded db now (clientKey clientID instanceName) latest) :
    Bounded (runAll now db (connectBlock clientID instanceName roomsId)).1 now
      (clientKey clientID instanceName) (some now) where
  recent := (bounded_later bounded).recent
  client := by
    intro members expiry found
    rw [connect_set] at found
    cases found
    exact ⟨now, now + connTTL, rfl, rfl, le_refl _⟩
  fields := by
    intro room field found
    refine saved_fields_end bounded ?_ found
    intro command listed
    simp only [saveClient, List.mem_cons, List.not_mem_nil, or_false] at listed
    rcases listed with rfl | rfl | rfl <;> rfl

theorem ping_bounded (bounded : Bounded db now (clientKey clientID instanceName) latest) :
    Bounded (runAll now db (pingBlock clientID instanceName roomsId)).1 now
      (clientKey clientID instanceName) (some now) where
  recent := (bounded_later bounded).recent
  client := by
    intro members expiry found
    rw [ping_set, Option.map_eq_some_iff] at found
    obtain ⟨old, _, same⟩ := found
    cases same
    exact ⟨now, now + connTTL, rfl, rfl, le_refl _⟩
  fields := by
    intro room field found
    refine saved_fields_end bounded ?_ found
    intro command listed
    rw [List.mem_singleton.mp listed]
    rfl

/-- A block of the own key that the server executes. -/
theorem own_block_bounded {request : Request} (own : request.key = key)
    (complete : (blockOf roomsId request).all Command.isComplete = true)
    (bounded : Bounded db now key latest) :
    Bounded (runAll now db (blockOf roomsId request)).1 now key
      (if refreshes request then some now else latest) := by
  subst own
  cases request with
  | connect clientID instanceName named =>
      have rooms : refreshes (.connect clientID instanceName named) = true := by
        rw [List.all_eq_true] at complete
        apply complete (.sadd (clientKey clientID instanceName) named)
        simp [blockOf, connectBlock, saveClient]
      rw [if_pos rooms]
      exact connect_bounded bounded
  | disconnect clientID instanceName => exact disconnect_bounded bounded
  | ping clientID instanceName => exact ping_bounded bounded

end Blocks

section Runs

variable {Call : Type} {requests : Call → Request} {state after : State Call}

/-- The step executes a block of `Connect` or `Ping` for this connection. -/
def isRefresh (requests : Call → Request) (pair : Bytes × Bytes) : Action Call → Bool
  | .call id (.exec outcome) =>
      (requests id).pair == pair && refreshes (requests id) && isExecuted outcome
  | _ => false

/-- When the last such block of a run was executed. -/
def lastRefresh (requests : Call → Request) (pair : Bytes × Bytes)
    (trace : List (Transition (State Call) (Action Call))) : Option Nat :=
  ((trace.filter fun taken => isRefresh requests pair taken.action).map
    fun taken => taken.before.now).getLast?

theorem last_refresh_snoc (pair : Bytes × Bytes)
    (trace : List (Transition (State Call) (Action Call)))
    (taken : Transition (State Call) (Action Call)) :
    lastRefresh requests pair (trace ++ [taken]) =
      if isRefresh requests pair taken.action then some taken.before.now
      else lastRefresh requests pair trace := by
  rw [lastRefresh, List.filter_append, List.filter_singleton, lastRefresh]
  cases refresh : isRefresh requests pair taken.action with
  | true => simp
  | false => simp

/-- A call leaves the store as it is, or its block is executed. -/
inductive CallWrites (request : Request) (move : Move) (state after : State Call) : Prop where
  | unchanged (same : after.db = state.db)
  | block (outcome : Outcome) (roomsId : List Bytes) (exec : move = .exec outcome)
      (executed : isExecuted outcome = true)
      (complete : (blockOf roomsId request).all Command.isComplete = true)
      (written : after.db = (runAll state.now state.db (blockOf roomsId request)).1)

variable [DecidableEq Call]

theorem exec_step_writes {request : Request} {id : Call} (roomsId : List Bytes)
    (block : Option Executed) (outcome : Outcome) :
    CallWrites request (.exec outcome) state
      (execStep state id (blockOf roomsId request) block outcome) := by
  by_cases complete : (blockOf roomsId request).all Command.isComplete = true
  · cases outcome with
    | answered =>
        refine .block .answered roomsId rfl rfl complete ?_
        simp only [execStep, setStage, exec, if_pos complete]
    | lost =>
        refine .block .lost roomsId rfl rfl complete ?_
        simp only [execStep, setStage, exec, if_pos complete]
    | refused => exact .unchanged rfl
  · have discarded : exec state.now state.db (blockOf roomsId request) = (state.db, false) :=
      if_neg complete
    cases outcome with
    | answered => exact .unchanged (congrArg Prod.fst discarded)
    | lost => exact .unchanged (congrArg Prod.fst discarded)
    | refused => exact .unchanged rfl

theorem call_step_writes {request : Request} {id : Call} {stage : CallStage} {move : Move}
    (stepped : callStep state id request stage move = some after) :
    after.now = state.now ∧ CallWrites request move state after := by
  have kept (commands : List Command) (block : Option Executed) (outcome : Outcome) :
      (execStep state id commands block outcome).now = state.now := by
    cases outcome <;> rfl
  unfold callStep at stepped
  split at stepped
  · cases stepped
    exact ⟨kept _ _ _, exec_step_writes [] _ _⟩
  · dsimp only at stepped
    split at stepped <;> cases stepped <;> exact ⟨rfl, .unchanged rfl⟩
  · cases stepped
    exact ⟨kept _ _ _, exec_step_writes _ _ _⟩
  · cases stepped
    exact ⟨rfl, .unchanged rfl⟩
  · cases stepped
    exact ⟨kept _ _ _, exec_step_writes _ _ _⟩
  · cases stepped

/-- What one step does to the bound of a connection. -/
theorem step_bounded {clientID instanceName : Bytes} {latest : Option Nat}
    (distinct : ∀ id, (requests id).key = clientKey clientID instanceName →
      (requests id).pair = (clientID, instanceName))
    (bounded : Bounded state.db state.now (clientKey clientID instanceName) latest)
    {action : Action Call} (stepped : step requests state action = some after) :
    Bounded after.db after.now (clientKey clientID instanceName)
      (if isRefresh requests (clientID, instanceName) action then some state.now else latest) := by
  cases action with
  | wait elapsed =>
      cases stepped
      exact bounded_wait bounded elapsed
  | call id move =>
      obtain ⟨sameTime, writes⟩ := call_step_writes stepped
      rw [sameTime]
      cases writes with
      | unchanged same =>
          rw [same]
          split_ifs
          · exact bounded_later bounded
          · exact bounded
      | block outcome roomsId exec executed complete written =>
          rw [written, exec]
          by_cases own : (requests id).key = clientKey clientID instanceName
          · have refreshed := own_block_bounded own complete bounded
            simpa [isRefresh, distinct id own, executed] using refreshed
          · have pair : (requests id).pair ≠ (clientID, instanceName) := by
              intro same
              rw [request_key, same] at own
              exact own rfl
            have kept := foreign_bounded bounded (block_foreign roomsId own)
            simpa [isRefresh, pair] using kept

theorem run_bounded {clientID instanceName : Bytes}
    (distinct : ∀ id, (requests id).key = clientKey clientID instanceName →
      (requests id).pair = (clientID, instanceName))
    {trace : List (Transition (State Call) (Action Call))}
    (run : Run (step requests) anyStep initial trace state) :
    Bounded state.db state.now (clientKey clientID instanceName)
      (lastRefresh requests (clientID, instanceName) trace) := by
  induction run with
  | nil =>
      constructor
      · intro time same
        cases same
      · intro members expiry found
        cases found
      · intro room field found
        cases found
  | snoc prior permitted stepped induction =>
      rw [last_refresh_snoc]
      exact step_bounded distinct induction stepped

end Runs

section Results

variable {Call : Type} [DecidableEq Call]

/-- In every run of any calls: the client key of a connection and its fields in
the rooms end at most `connTTL` after the last block of a `Connect` or `Ping` of
the connection. If there was none during that time, both are gone and no answer
of `IsConnected` rests on them. -/
theorem presence_ends (requests : Call → Request) (clientID instanceName : Bytes)
    (distinct : ∀ id, (requests id).key = clientKey clientID instanceName →
      (requests id).pair = (clientID, instanceName))
    (trace : List (Transition (State Call) (Action Call))) (state : State Call)
    (run : Run (step requests) anyStep initial trace state) :
    (∀ members expiry,
      setAt state.db state.now (clientKey clientID instanceName) = some (members, expiry) →
        EndsBy (lastRefresh requests (clientID, instanceName) trace) expiry) ∧
    (∀ room field,
      fieldAt state.db state.now (roomKey room) (clientKey clientID instanceName) = some field →
        EndsBy (lastRefresh requests (clientID, instanceName) trace) field.expiry) ∧
    ((∀ time, lastRefresh requests (clientID, instanceName) trace = some time →
        time + connTTL < state.now) →
      setAt state.db state.now (clientKey clientID instanceName) = none ∧
      FieldsGone state.now state.db (clientKey clientID instanceName) ∧
      NotReported state.now state.db (clientKey clientID instanceName)) := by
  have bounded := run_bounded distinct run
  refine ⟨bounded.client, bounded.fields, fun quiet => ?_⟩
  have gone := bounded_gone bounded quiet
  exact ⟨gone.1, gone.2, not_reported gone.2⟩

/-- One client connects and is not heard of again. -/
def loneConnect (_ : Unit) : Request :=
  .connect (ascii "c1") (ascii "inst-a") [ascii "r1", ascii "r2"]

theorem lone_connect_ends :
    ∃ trace state, Run (step loneConnect) anyStep initial trace state ∧
      lastRefresh loneConnect (ascii "c1", ascii "inst-a") trace = some 0 ∧
      state.now = connTTL + 1 ∧
      FieldsGone state.now state.db (clientKey (ascii "c1") (ascii "inst-a")) := by
  have connected : Run (step loneConnect) anyStep initial _ _ :=
    .snoc .nil trivial (rfl : step loneConnect initial (.call () (.exec .answered)) = some _)
  have waited := connected.snoc trivial
    (rfl : step loneConnect _ (.wait (connTTL + 1)) = some _)
  refine ⟨_, _, waited, rfl, rfl, ?_⟩
  refine ((presence_ends loneConnect (ascii "c1") (ascii "inst-a") (fun _ _ => rfl) _ _
    waited).2.2 ?_).2.1
  intro time last
  cases last
  exact Nat.lt_succ_self _

end Results

end ChatScale.PresenceExpiry
