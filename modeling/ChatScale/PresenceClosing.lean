import ChatScale.PresenceExpiry
import ChatScale.PresenceIsolation
import ChatScale.PresencePing

/-!
# What a closed connection leaves in the presence store

`ServeWS` connects under its instance name, pings under it, and disconnects
without it. The last call looks for a client key that nobody wrote, finds
nothing and reports success, so the entry of the connection stays until it
expires. A ping reads the rooms of the client key and executes its block later,
so it can write the fields of the rooms again after the client key is gone.
-/

namespace ChatScale.PresenceClosing

open ChatScale.ByteText ChatScale.RedisKeyspace ChatScale.PresenceModel
open ChatScale.PresenceBlocks ChatScale.PresenceIsolation ChatScale.PresenceExpiry
open ChatScale.TransitionSystem

set_option autoImplicit false

/-- The request of `Ws.disconnect` names the client only. -/
def closingRequest (clientID : Bytes) : Request := .disconnect clientID []

/-- The store has no client key for the client on the instance, and no room a
field for it. -/
def NoEntry (db : Keyspace) (now : Nat) (clientID instanceName : Bytes) : Prop :=
  setAt db now (clientKey clientID instanceName) = none ∧
    ∀ room, fieldAt db now (roomKey room) (clientKey clientID instanceName) = none

theorem client_key_differs {clientID instanceName : Bytes} (named : instanceName ≠ []) :
    (closingRequest clientID).key ≠ clientKey clientID instanceName := by
  intro same
  exact named (List.append_cancel_left same).symm

section Refreshes

variable {Call : Type} (requests : Call → Request) (clientID instanceName : Bytes)

def hasRooms : CallStage → Bool
  | .read (_ :: _) _ _ => true
  | _ => false

/-- The step executes the block of a ping that has read rooms, or that finds the
client key still there. -/
def refreshesEntry (state : State Call) : Action Call → Bool
  | .call id (.exec outcome) =>
      (requests id).key == clientKey clientID instanceName && isExecuted outcome &&
        (hasRooms (state.calls id) ||
          (setAt state.db state.now (clientKey clientID instanceName)).isSome)
  | _ => false

/-- When the entry of a connection was written last, in a run after its `Connect`
at this time. -/
def lastRefreshed (connectedAt : Nat) (trace : List (Transition (State Call) (Action Call))) :
    Nat :=
  (((trace.filter fun taken =>
    refreshesEntry requests clientID instanceName taken.before taken.action).map
      fun taken => taken.before.now).getLast?).getD connectedAt

theorem last_refreshed_snoc (connectedAt : Nat)
    (trace : List (Transition (State Call) (Action Call)))
    (taken : Transition (State Call) (Action Call)) :
    lastRefreshed requests clientID instanceName connectedAt (trace ++ [taken]) =
      if refreshesEntry requests clientID instanceName taken.before taken.action then
        taken.before.now
      else lastRefreshed requests clientID instanceName connectedAt trace := by
  rw [lastRefreshed, List.filter_append, List.filter_singleton, lastRefreshed]
  cases refresh : refreshesEntry requests clientID instanceName taken.before taken.action with
  | true => simp
  | false => simp

end Refreshes

section Steps

variable {Call : Type} [DecidableEq Call] {requests : Call → Request}
  {clientID instanceName : Bytes} {state after : State Call} {action : Action Call}

/-- What a step does to a connection whose client key only its own pings use. -/
inductive EntryStep (requests : Call → Request) (clientID instanceName : Bytes)
    (state after : State Call) (action : Action Call) : Prop where
  | waited (elapsed : Nat) (same : after = { state with now := state.now + elapsed })
      (quiet : refreshesEntry requests clientID instanceName state action = false)
  | staged (id : Call) (stage : CallStage)
      (content : ∀ rooms answered seen, stage = .read rooms answered seen → ∃ reached,
        rooms = (readRooms state.now state.db reached (clientKey clientID instanceName)).getD [])
      (same : after = setStage state id stage)
      (quiet : refreshesEntry requests clientID instanceName state action = false)
  | pinged (id : Call) (own : requests id = .ping clientID instanceName) (rooms : List Bytes)
      (answered : Bool) (seen : Nat) (reading : state.calls id = .read rooms answered seen)
      (success : Bool)
      (same : after = setStage { state with
        db := (exec state.now state.db (pingBlock clientID instanceName rooms)).1 } id
          (.done success))
      (refreshes : refreshesEntry requests clientID instanceName state action =
        (!rooms.isEmpty || (setAt state.db state.now (clientKey clientID instanceName)).isSome))
  | foreign (id : Call) (differ : (requests id).key ≠ clientKey clientID instanceName)
      (sameTime : after.now = state.now)
      (others : ∀ other, other ≠ id → after.calls other = state.calls other)
      (commands : List Command)
      (foreign : ∀ command ∈ commands, Foreign (clientKey clientID instanceName) command)
      (confined : ∀ command ∈ commands, Confined (requests id).key command)
      (written : after.db = (runAll state.now state.db commands).1)
      (quiet : refreshesEntry requests clientID instanceName state action = false)

omit [DecidableEq Call] in
theorem exec_refreshes {id : Call} {rooms : List Bytes} {answered : Bool} {seen : Nat}
    {outcome : Outcome} (own : requests id = .ping clientID instanceName)
    (reading : state.calls id = .read rooms answered seen) (executed : isExecuted outcome = true) :
    refreshesEntry requests clientID instanceName state (.call id (.exec outcome)) =
      (!rooms.isEmpty ||
        (setAt state.db state.now (clientKey clientID instanceName)).isSome) := by
  have rest : hasRooms (.read rooms answered seen) = !rooms.isEmpty := by
    cases rooms <;> rfl
  simp only [refreshesEntry, own, Request.key, beq_self_eq_true, executed, reading, rest,
    Bool.true_and]

/-- An own ping reads, or executes the block of what it has read. -/
theorem own_ping_step {id : Call} {move : Move} (own : requests id = .ping clientID instanceName)
    (stepped : step requests state (.call id move) = some after) :
    EntryStep requests clientID instanceName state after (.call id move) := by
  simp only [step, own] at stepped
  cases stage : state.calls id with
  | idle =>
      rw [stage] at stepped
      cases move with
      | exec outcome => cases stepped
      | read reached =>
          cases stepped
          refine .staged id _ ?_ rfl rfl
          intro rooms answered seen same
          cases same
          exact ⟨reached, rfl⟩
  | done success =>
      rw [stage] at stepped
      cases move <;> cases stepped
  | read rooms answered seen =>
      rw [stage] at stepped
      cases move with
      | read reached => cases stepped
      | exec outcome =>
          cases stepped
          have complete := ping_complete clientID instanceName rooms
          cases outcome with
          | answered =>
              refine .pinged id own rooms answered seen stage
                (exec state.now state.db (pingBlock clientID instanceName rooms)).2 ?_
                (exec_refreshes own stage rfl)
              simp only [execStep, complete, if_true, Option.toList_none, List.append_nil]
          | lost =>
              refine .pinged id own rooms answered seen stage false ?_
                (exec_refreshes own stage rfl)
              simp only [execStep, complete, if_true, Option.toList_none, List.append_nil]
          | refused =>
              refine .staged id (.done false) ?_ rfl ?_
              · intro rooms answered seen same
                cases same
              · simp only [refreshesEntry, isExecuted, Bool.and_false, Bool.false_and]

theorem block_confined (rooms : List Bytes) (request : Request) :
    ∀ command ∈ blockOf rooms request, Confined request.key command := by
  cases request with
  | connect clientID instanceName named => exact connect_confined
  | disconnect clientID instanceName => exact disconnect_confined
  | ping clientID instanceName => exact ping_confined

theorem foreign_step {id : Call} {move : Move}
    (differ : (requests id).key ≠ clientKey clientID instanceName)
    (stepped : step requests state (.call id move) = some after) :
    EntryStep requests clientID instanceName state after (.call id move) := by
  obtain ⟨sameTime, writes⟩ := call_step_writes stepped
  have others : ∀ other, other ≠ id → after.calls other = state.calls other := by
    intro other apart
    cases PresencePing.call_step_effect stepped <;>
      simp only [setStage, Function.update_of_ne apart]
  have quiet : refreshesEntry requests clientID instanceName state (.call id move) = false := by
    cases move with
    | read reached => rfl
    | exec outcome =>
        simp only [refreshesEntry, beq_eq_false_iff_ne.mpr differ, Bool.false_and]
  cases writes with
  | unchanged same =>
      exact .foreign id differ sameTime others [] (by simp) (by simp) same quiet
  | block _ rooms _ _ _ written =>
      exact .foreign id differ sameTime others _ (block_foreign rooms differ)
        (block_confined rooms _) written quiet

theorem entry_step
    (alone : ∀ id, (requests id).key = clientKey clientID instanceName →
      requests id = .ping clientID instanceName)
    (stepped : step requests state action = some after) :
    EntryStep requests clientID instanceName state after action := by
  cases action with
  | wait elapsed =>
      cases stepped
      exact .waited elapsed rfl rfl
  | call id move =>
      by_cases own : (requests id).key = clientKey clientID instanceName
      · exact own_ping_step (alone id own) stepped
      · exact foreign_step own stepped

end Steps

section Expiry

variable {Call : Type} [DecidableEq Call] {requests : Call → Request}
  {clientID instanceName : Bytes} {state after : State Call} {action : Action Call} {last : Nat}

theorem read_absent {now : Nat} {db : Keyspace} {key : Bytes} (absent : setAt db now key = none)
    (reached : Bool) : (readRooms now db reached key).getD [] = [] := by
  unfold readRooms smembers
  split_ifs
  · split
    · rfl
    · rename_i members expiry found
      rw [set_at_of_set found] at absent
      cases absent
    · rfl
  · rfl

/-- What is there of the entry ends `connTTL` after its last refresh. -/
theorem entry_step_bounded
    (bounded : Bounded state.db state.now (clientKey clientID instanceName) (some last))
    (moves : EntryStep requests clientID instanceName state after action) :
    Bounded after.db after.now (clientKey clientID instanceName)
      (some (if refreshesEntry requests clientID instanceName state action then state.now
        else last)) := by
  cases moves with
  | waited elapsed same quiet =>
      rw [quiet, same]
      exact bounded_wait bounded elapsed
  | staged id stage _ same quiet =>
      rw [quiet, same]
      exact bounded
  | foreign id _ sameTime _ commands foreign _ written quiet =>
      rw [quiet, sameTime, written]
      exact foreign_bounded bounded foreign
  | pinged id _ rooms _ _ _ success same refreshes =>
      rw [refreshes, same]
      simp only [setStage, exec, ping_complete, if_true]
      cases refreshed : !rooms.isEmpty ||
          (setAt state.db state.now (clientKey clientID instanceName)).isSome with
      | true => exact ping_bounded bounded
      | false =>
          -- The key is gone and no room was read: there is nothing to write.
          simp only [Bool.or_eq_false_iff, Bool.not_eq_false', List.isEmpty_iff,
            Option.isSome_eq_false_iff, Option.isNone_iff_eq_none] at refreshed
          rw [refreshed.1]
          apply bounded_kept bounded
          · intro command listed
            rw [List.mem_singleton.mp listed]
            rfl
          · intro old found
            rw [ping_set, refreshed.2] at found
            cases found

theorem connected_bounded {db : Keyspace} {now : Nat} {roomsId : List Bytes}
    (absent : NoEntry db now clientID instanceName)
    (connected : (connect now db clientID instanceName roomsId).2 = true) :
    Bounded (connect now db clientID instanceName roomsId).1 now
      (clientKey clientID instanceName) (some now) := by
  have nothing : Bounded db now (clientKey clientID instanceName) none := by
    refine ⟨?_, ?_, ?_⟩
    · intro time same
      cases same
    · intro members expiry found
      rw [absent.1] at found
      cases found
    · intro room field found
      rw [absent.2 room] at found
      cases found
  rw [connect, exec] at connected ⊢
  split_ifs at connected ⊢
  exact connect_bounded nothing

end Expiry

section Presence

variable {Call : Type} [DecidableEq Call] {requests : Call → Request}
  {clientID instanceName : Bytes} {roomsId : List Bytes} {state after : State Call}
  {action : Action Call} {last : Nat}

/-- No client key is that of a room of the connection, and the hash of no such
room ends as a whole. -/
structure RoomsApart (requests : Call → Request) (db : Keyspace) (clientID instanceName : Bytes)
    (roomsId : List Bytes) : Prop where
  own : ∀ room ∈ roomsId, clientKey clientID instanceName ≠ roomKey room
  calls : ∀ id, ∀ room ∈ roomsId, (requests id).key ≠ roomKey room
  persistent : ∀ room ∈ roomsId, Persistent db (roomKey room)

/-- The entry is there for `connTTL` after its last refresh: its client key, or
the field of one of its rooms. -/
structure Kept (requests : Call → Request) (clientID instanceName : Bytes)
    (roomsId : List Bytes) (state : State Call) (last : Nat) : Prop where
  typed : ∀ room ∈ roomsId, setAt state.db state.now (roomKey room) = none
  persistent : ∀ room ∈ roomsId, Persistent state.db (roomKey room)
  client : ∀ members expiry, setAt state.db state.now (clientKey clientID instanceName) =
    some (members, expiry) → members = roomsId.dedup
  reads : ∀ id rooms answered seen, requests id = .ping clientID instanceName →
    state.calls id = .read rooms answered seen → ∀ room ∈ rooms, room ∈ roomsId
  present : state.now ≤ last + connTTL →
    setAt state.db state.now (clientKey clientID instanceName) =
        some (roomsId.dedup, some (last + connTTL)) ∨
      ∃ room ∈ roomsId, fieldAt state.db state.now (roomKey room)
        (clientKey clientID instanceName) = some ⟨instanceName, some (last + connTTL)⟩

omit [DecidableEq Call] in
theorem waited_kept (kept : Kept requests clientID instanceName roomsId state last)
    (elapsed : Nat) :
    Kept requests clientID instanceName roomsId { state with now := state.now + elapsed } last := by
  have passed : state.now ≤ state.now + elapsed := Nat.le_add_right _ _
  refine ⟨?_, kept.persistent, ?_, kept.reads, ?_⟩
  · intro room listed
    rw [set_at_later passed, kept.typed room listed, Option.filter_none]
  · intro members expiry found
    exact kept.client members expiry (set_at_earlier passed found)
  · intro live
    have still : alive (state.now + elapsed) (some (last + connTTL)) = true :=
      alive_some.mpr live
    rcases kept.present (passed.trans live) with client | ⟨room, listed, field⟩
    · rw [set_at_later passed, client]
      exact .inl (Option.filter_eq_some_iff.mpr ⟨rfl, still⟩)
    · exact .inr ⟨room, listed, field_at_later (kept.persistent room listed) field still⟩

theorem staged_kept (kept : Kept requests clientID instanceName roomsId state last) {id : Call}
    {stage : CallStage}
    (content : ∀ rooms answered seen, stage = .read rooms answered seen → ∃ reached,
      rooms = (readRooms state.now state.db reached (clientKey clientID instanceName)).getD []) :
    Kept requests clientID instanceName roomsId (setStage state id stage) last := by
  refine ⟨kept.typed, kept.persistent, kept.client, ?_, kept.present⟩
  intro other rooms answered seen own reading room listed
  by_cases same : other = id
  · subst same
    simp only [setStage, Function.update_self] at reading
    obtain ⟨reached, rfl⟩ := content rooms answered seen reading
    cases found : setAt state.db state.now (clientKey clientID instanceName) with
    | none =>
        rw [read_absent found] at listed
        cases listed
    | some old =>
        cases read : readRooms state.now state.db reached (clientKey clientID instanceName) with
        | none =>
            rw [read] at listed
            cases listed
        | some members =>
            rw [read, PresencePing.read_rooms_content read found,
              kept.client old.1 old.2 found] at listed
            exact List.mem_dedup.mp listed
  · simp only [setStage, Function.update_of_ne same] at reading
    exact kept.reads other rooms answered seen own reading room listed

omit [DecidableEq Call] in
/-- A block of another client key leaves the entry as it is. -/
theorem foreign_kept (kept : Kept requests clientID instanceName roomsId state last) {id : Call}
    (differ : (requests id).key ≠ clientKey clientID instanceName)
    (apart : ∀ room ∈ roomsId, (requests id).key ≠ roomKey room) (sameTime : after.now = state.now)
    (others : ∀ other, other ≠ id → after.calls other = state.calls other)
    {commands : List Command} (confined : ∀ command ∈ commands, Confined (requests id).key command)
    (written : after.db = (runAll state.now state.db commands).1) :
    Kept requests clientID instanceName roomsId after last := by
  have setKept {key : Bytes} (other : (requests id).key ≠ key) :
      setAt after.db after.now key = setAt state.db state.now key := by
    rw [written, sameTime]
    exact run_all_set_kept fun command listed => confined_set (confined command listed) other
  refine ⟨?_, ?_, ?_, ?_, ?_⟩
  · intro room listed
    rw [setKept (apart room listed)]
    exact kept.typed room listed
  · intro room listed
    rw [written]
    exact run_all_persistent
      (fun command inside => confined_set (confined command inside) (apart room listed))
      (kept.persistent room listed)
  · rw [setKept differ]
    exact kept.client
  · intro other rooms answered seen own reading
    have apartId : other ≠ id := by
      rintro rfl
      rw [own] at differ
      exact differ rfl
    rw [others other apartId] at reading
    exact kept.reads other rooms answered seen own reading
  · rw [setKept differ, sameTime]
    intro live
    refine (kept.present live).imp_right ?_
    rintro ⟨room, listed, field⟩
    refine ⟨room, listed, ?_⟩
    rw [written, run_all_field_same fun command inside =>
      confined_field (confined command inside) differ (apart room listed)]
    exact field

/-- An own block: a refresh starts the time anew, and otherwise there is nothing to
write. -/
theorem pinged_kept (kept : Kept requests clientID instanceName roomsId state last)
    (apart : ∀ room ∈ roomsId, clientKey clientID instanceName ≠ roomKey room) {id : Call}
    (own : requests id = .ping clientID instanceName) {rooms : List Bytes} {answered : Bool}
    {seen : Nat} (reading : state.calls id = .read rooms answered seen) (success : Bool) :
    Kept requests clientID instanceName roomsId (setStage { state with
        db := (exec state.now state.db (pingBlock clientID instanceName rooms)).1 } id
          (.done success))
      (if !rooms.isEmpty || (setAt state.db state.now (clientKey clientID instanceName)).isSome
        then state.now else last) := by
  have known := kept.reads id rooms answered seen own reading
  have writes : PresenceBlocks.Writes state.now state.db _ (clientKey clientID instanceName) rooms
      _ _ := ping_writes fun room listed => kept.typed room (known room listed)
  have ownSet := writes.sets (clientKey clientID instanceName)
  rw [if_pos rfl] at ownSet
  refine ⟨?_, ?_, ?_, ?_, ?_⟩
  · intro room listed
    exact (writes.sets (roomKey room)).trans
      ((if_neg (apart room listed).symm).trans (kept.typed room listed))
  · intro room listed
    exact exec_persistent (ping_foreign (apart room listed)) (kept.persistent room listed)
  · intro members expiry found
    obtain ⟨old, present, same⟩ := Option.map_eq_some_iff.mp (ownSet.symm.trans found)
    cases same
    exact kept.client old.1 old.2 present
  · intro other others answered seen ping stage
    by_cases same : other = id
    · subst same
      simp only [setStage, Function.update_self] at stage
      cases stage
    · simp only [setStage, Function.update_of_ne same] at stage
      exact kept.reads other others answered seen ping stage
  · intro live
    cases found : setAt state.db state.now (clientKey clientID instanceName) with
    | some old =>
        left
        rw [Option.isSome_some, Bool.or_true, if_pos rfl]
        refine ownSet.trans ?_
        rw [found, Option.map_some, kept.client old.1 old.2 found]
    | none =>
        right
        rw [found] at live
        cases rooms with
        | cons room rest =>
            have covered : Covers (room :: rest) (clientKey clientID instanceName) (roomKey room)
                (clientKey clientID instanceName) := ⟨rfl, List.mem_cons_self⟩
            exact ⟨room, known room List.mem_cons_self,
              (writes.fields _ _).trans (if_pos covered)⟩
        | nil =>
            rcases kept.present live with client | ⟨room, listed, field⟩
            · rw [found] at client
              cases client
            · refine ⟨room, listed, (writes.fields _ _).trans ?_⟩
              rw [if_neg fun covered => List.not_mem_nil covered.2]
              exact field

theorem entry_step_kept {db : Keyspace}
    (apart : RoomsApart requests db clientID instanceName roomsId)
    (kept : Kept requests clientID instanceName roomsId state last)
    (moves : EntryStep requests clientID instanceName state after action) :
    Kept requests clientID instanceName roomsId after
      (if refreshesEntry requests clientID instanceName state action then state.now
        else last) := by
  cases moves with
  | waited elapsed same quiet =>
      rw [quiet, same]
      exact waited_kept kept elapsed
  | staged id stage content same quiet =>
      rw [quiet, same]
      exact staged_kept kept content
  | foreign id differ sameTime others commands _ confined written quiet =>
      rw [quiet]
      exact foreign_kept kept differ (apart.calls id) sameTime others confined written
  | pinged id own rooms answered seen reading success same refreshes =>
      rw [refreshes, same]
      exact pinged_kept kept apart.own own reading success

omit [DecidableEq Call] in
theorem connect_kept {now : Nat} {db : Keyspace}
    (apart : RoomsApart requests db clientID instanceName roomsId)
    (connected : (connect now db clientID instanceName roomsId).2 = true)
    (written : state.db = (connect now db clientID instanceName roomsId).1)
    (begins : state.now = now)
    (idle : ∀ id, requests id = .ping clientID instanceName → state.calls id = .idle) :
    Kept requests clientID instanceName roomsId state now := by
  have confined : ∀ command ∈ connectBlock clientID instanceName roomsId,
      Confined (clientKey clientID instanceName) command := connect_confined
  rw [connect, exec] at connected written
  split_ifs at connected written
  have saved := connected
  rw [connectBlock, run_all_append, Bool.and_eq_true] at saved
  refine ⟨?_, ?_, ?_, ?_, ?_⟩
  · -- the `HSET` of each room has succeeded
    intro room listed
    rw [written, begins, run_all_set_kept fun command inside =>
      confined_set (confined command inside) (apart.own room listed)]
    have field := save_rooms_fields saved.1 room
    rw [if_pos listed] at field
    cases found : setAt db now (roomKey room) with
    | none => rfl
    | some content =>
        rw [← save_rooms_set_kept] at found
        rw [set_has_no_field found] at field
        cases field
  · intro room listed
    rw [written]
    exact run_all_persistent
      (fun command inside => confined_set (confined command inside) (apart.own room listed))
      (apart.persistent room listed)
  · intro members expiry found
    rw [written, begins, connect_set] at found
    cases found
    rfl
  · intro id rooms answered seen own reading
    rw [idle id own] at reading
    cases reading
  · intro _
    rw [written, begins]
    exact .inl (connect_set now db clientID instanceName roomsId)

theorem not_kept {db : Keyspace} {now : Nat}
    (present : now ≤ last + connTTL →
      setAt db now (clientKey clientID instanceName) =
          some (roomsId.dedup, some (last + connTTL)) ∨
        ∃ room ∈ roomsId, fieldAt db now (roomKey room) (clientKey clientID instanceName) =
          some ⟨instanceName, some (last + connTTL)⟩)
    (gone : NoEntry db now clientID instanceName) : last + connTTL < now := by
  by_contra early
  rcases present (Nat.le_of_not_lt early) with client | ⟨room, _, field⟩
  · rw [gone.1] at client
    cases client
  · rw [gone.2 room] at field
    cases field

end Presence

section Results

variable {Call : Type} [DecidableEq Call]

/-- After its `Connect` at `now`, the entry of a connection is gone, with or
without its `Disconnect`, once `connTTL` has passed since the `Connect` and since
every block of a ping that had read rooms or still found the client key. If the
rooms' keys are no client keys, it is not gone earlier. -/
theorem closed_connection_gone_iff (requests : Call → Request) (clientID instanceName : Bytes)
    (roomsId : List Bytes) (named : instanceName ≠ []) (closing : Call)
    (closes : requests closing = closingRequest clientID)
    (alone : ∀ id, id ≠ closing → (requests id).key = clientKey clientID instanceName →
      requests id = .ping clientID instanceName)
    (now : Nat) (db : Keyspace) (absent : NoEntry db now clientID instanceName)
    (connected : (connect now db clientID instanceName roomsId).2 = true) (start : State Call)
    (written : start.db = (connect now db clientID instanceName roomsId).1)
    (begins : start.now = now)
    (idle : ∀ id, requests id = .ping clientID instanceName → start.calls id = .idle)
    (trace : List (Transition (State Call) (Action Call))) (state : State Call)
    (run : Run (step requests) anyStep start trace state) :
    (lastRefreshed requests clientID instanceName now trace + connTTL < state.now →
      NoEntry state.db state.now clientID instanceName) ∧
    (RoomsApart requests db clientID instanceName roomsId →
      NoEntry state.db state.now clientID instanceName →
        lastRefreshed requests clientID instanceName now trace + connTTL < state.now) := by
  have pings : ∀ id, (requests id).key = clientKey clientID instanceName →
      requests id = .ping clientID instanceName := by
    intro id own
    apply alone id _ own
    rintro rfl
    rw [closes] at own
    exact client_key_differs named own
  have bounded : Bounded state.db state.now (clientKey clientID instanceName)
      (some (lastRefreshed requests clientID instanceName now trace)) := by
    induction run with
    | nil =>
        rw [written, begins]
        exact connected_bounded absent connected
    | snoc prior permitted stepped induction =>
        rw [last_refreshed_snoc]
        exact entry_step_bounded induction (entry_step pings stepped)
  refine ⟨fun expired => bounded_gone bounded fun time same => ?_, fun apart => ?_⟩
  · cases same
    exact expired
  · have kept : Kept requests clientID instanceName roomsId state
        (lastRefreshed requests clientID instanceName now trace) := by
      clear bounded
      induction run with
      | nil => exact connect_kept apart connected written begins idle
      | snoc prior permitted stepped induction =>
          rw [last_refreshed_snoc]
          exact entry_step_kept apart induction (entry_step pings stepped)
    exact not_kept kept.present

def emptyStore : Keyspace := fun _ => none

/-- A connection of one client, and what its `Connect` answered. -/
def oneConnection : Keyspace × Bool :=
  connect 0 emptyStore (ascii "c1") (ascii "inst-a") [ascii "r1"]

/-- `Disconnect` succeeds at once, and the entry is there. -/
theorem closed_connection_listed :
    NoEntry emptyStore 0 (ascii "c1") (ascii "inst-a") ∧ oneConnection.2 = true ∧
      ∃ state, step (fun _ : Unit => closingRequest (ascii "c1"))
          ⟨oneConnection.1, 0, fun _ => .idle, []⟩ (.call () (.read true)) = some state ∧
        state.calls () = .done true ∧
        ¬NoEntry state.db state.now (ascii "c1") (ascii "inst-a") := by
  refine ⟨⟨rfl, fun _ => rfl⟩, by decide +kernel, _, rfl, by decide +kernel, ?_⟩
  intro gone
  have listed : setAt oneConnection.1 0 (clientKey (ascii "c1") (ascii "inst-a")) =
      some ([ascii "r1"], some 60000) := by
    decide +kernel
  cases gone.1.symm.trans listed

/-- The connection pings, another client connects, and the connection closes. -/
def closingCalls : Fin 3 → Request
  | 0 => .ping (ascii "c1") (ascii "inst-a")
  | 1 => .connect (ascii "c2") (ascii "inst-b") [ascii "r1"]
  | 2 => closingRequest (ascii "c1")

/-- The ping reads the rooms just before the client key expires, and writes the
field of the room just after. The connection closes a minute later. -/
theorem expired_connection_gone :
    ∃ trace state, Run (step closingCalls) anyStep
        ⟨oneConnection.1, 0, fun _ => .idle, []⟩ trace state ∧
      lastRefreshed closingCalls (ascii "c1") (ascii "inst-a") 0 trace = 60010 ∧
      state.calls 2 = .done true ∧ NoEntry state.db state.now (ascii "c1") (ascii "inst-a") := by
  have waited : Run (step closingCalls) anyStep ⟨oneConnection.1, 0, fun _ => .idle, []⟩ _ _ :=
    .snoc .nil trivial (rfl : step closingCalls _ (.wait 59990) = some _)
  have read := waited.snoc trivial (rfl : step closingCalls _ (.call 0 (.read true)) = some _)
  have expired := read.snoc trivial (rfl : step closingCalls _ (.wait 20) = some _)
  have pinged := expired.snoc trivial
    (rfl : step closingCalls _ (.call 0 (.exec .answered)) = some _)
  have other := pinged.snoc trivial
    (rfl : step closingCalls _ (.call 1 (.exec .answered)) = some _)
  have quiet := other.snoc trivial (rfl : step closingCalls _ (.wait 60001) = some _)
  have closed := quiet.snoc trivial (rfl : step closingCalls _ (.call 2 (.read true)) = some _)
  refine ⟨_, _, closed, by decide +kernel, by decide +kernel, ?_⟩
  refine (closed_connection_gone_iff closingCalls (ascii "c1") (ascii "inst-a") [ascii "r1"]
    (by decide) 2 rfl ?_ 0 emptyStore ⟨rfl, fun _ => rfl⟩ (by decide +kernel) _ rfl rfl
    (fun _ _ => rfl) _ _ closed).1 (by decide +kernel)
  intro id apart own
  match id with
  | 0 => rfl
  | 1 =>
      have differ : clientKey (ascii "c2") (ascii "inst-b") ≠
          clientKey (ascii "c1") (ascii "inst-a") := by decide
      exact absurd own differ
  | 2 => exact absurd rfl apart

end Results

end ChatScale.PresenceClosing
