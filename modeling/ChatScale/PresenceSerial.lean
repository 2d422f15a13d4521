import Mathlib.Data.Fintype.Defs
import Mathlib.Data.Fintype.Basic
import Mathlib.Data.List.Permutation
import ChatScale.PresenceMatching

/-!
# Interleaved calls and sequential ones

`Disconnect` and `Ping` read the rooms of a client key before the block that
acts on them. The calls have the effect of some sequential order as long as no
`Connect` gets its block in between the read and the block of a `Disconnect` of
the same connection, and no `Disconnect` in between those of a `Ping`. In that
order a `Connect` and a `Disconnect` stand where their block is, and a `Ping`
stands where its read is: what it writes later is what it would have written
there.
-/

namespace ChatScale.PresenceSerial

open ChatScale.ByteText ChatScale.RedisKeyspace ChatScale.PresenceModel
open ChatScale.PresenceBlocks ChatScale.PresenceMatching ChatScale.TransitionSystem

set_option autoImplicit false

section Runs

variable {Call : Type}

/-- What a call has read and not acted on yet. -/
def roomsRead : CallStage → List Bytes
  | .idle => []
  | .read roomsId _ _ => roomsId
  | .done _ => []

/-- Redis answers, and nothing expires. -/
def Undisturbed (state : State Call) : Action Call → Prop
  | .wait elapsed =>
      (∀ key, setAt state.db (state.now + elapsed) key = setAt state.db state.now key) ∧
        ∀ key name, fieldAt state.db (state.now + elapsed) key name =
          fieldAt state.db state.now key name
  | .call _ (.read reached) => reached = true
  | .call _ (.exec .answered) => True
  | .call _ (.exec _) => False

/-- The block of the first call may not come between the read and the block of
the second: a `Connect` within a `Disconnect` of the connection, a `Disconnect`
within a `Ping`. -/
def overtakes : Request → Request → Bool
  | .connect clientID instanceName _, .disconnect client server =>
      (clientID, instanceName) == (client, server)
  | .disconnect clientID instanceName, .ping client server =>
      (clientID, instanceName) == (client, server)
  | _, _ => false

def InTurn (requests : Call → Request) (state : State Call) : Action Call → Prop
  | .call id (.exec _) => ∀ other, overtakes (requests id) (requests other) = true →
      roomsRead (state.calls other) = []
  | _ => True

/-- The calls one after the other, at one time. -/
def runInOrder (requests : Call → Request) (now : Nat) (db : Keyspace) (order : List Call) :
    Keyspace :=
  order.foldl (fun db id => ((requests id).run now now db).1) db

/-- The calls that stand in the sequential order: those that are done, and the
pings that have read. -/
def StageListed (request : Request) (listed : Prop) : CallStage → Prop
  | .idle => ¬ listed
  | .read roomsId _ _ =>
      match request with
      | .connect _ _ _ => False
      | .disconnect _ _ => ¬ listed ∧ roomsId ≠ []
      | .ping _ _ => listed
  | .done success => success = true ∧ listed

structure Serialised (requests : Call → Request) (scope : Scope) (start state : State Call)
    (order : List Call) : Prop where
  typed : Typed scope state.db state.now
  orderTyped : Typed scope (runInOrder requests start.now start.db order) start.now
  known : ∀ id, ∀ room ∈ roomsRead (state.calls id), room ∈ scope.rooms
  once : order.Nodup
  stages : ∀ id, StageListed (requests id) (id ∈ order) (state.calls id)
  matched : Matches requests (fun id => roomsRead (state.calls id)) (contents state.db state.now)
    (contents (runInOrder requests start.now start.db order) start.now)

variable {requests : Call → Request} {scope : Scope} {start state after : State Call}
  {order : List Call} {id : Call}

theorem run_in_order_append (requests : Call → Request) (now : Nat) (db : Keyspace)
    (order : List Call) (id : Call) :
    runInOrder requests now db (order ++ [id]) =
      ((requests id).run now now (runInOrder requests now db order)).1 := by
  rw [runInOrder, List.foldl_append, List.foldl_cons, List.foldl_nil]
  rfl

theorem keys_distinct (within : ∀ id, Within scope (requests id)) : KeysDistinct requests := by
  intro id other same
  rw [request_key, request_key] at same
  exact scope.distinct _ (within id).1 _ (within other).1 same

theorem start_serialised (idle : ∀ id, start.calls id = .idle)
    (typed : Typed scope start.db start.now) : Serialised requests scope start start [] where
  typed := typed
  orderTyped := typed
  known := by
    intro id room listed
    rw [idle id] at listed
    cases listed
  once := List.nodup_nil
  stages := by
    intro id
    rw [idle id]
    exact List.not_mem_nil
  matched := by
    have none : ∀ id, roomsRead (start.calls id) = [] := fun id => by rw [idle id]; rfl
    refine ⟨rfl, ?_, fun _ _ _ => rfl, ?_, fun id _ _ _ _ => none id⟩
    · intro id _ _ _ room listed
      rw [none id] at listed
      cases listed
    · intro id _ _ _ pending
      exact absurd (none id) pending

theorem idle_fresh (serialised : Serialised requests scope start state order)
    (idle : state.calls id = .idle) : id ∉ order := by
  have listed := serialised.stages id
  rw [idle] at listed
  exact listed

/-- The rooms in a client key are the same in both stores. -/
theorem same_rooms (serialised : Serialised requests scope start state order) (key : Bytes) :
    roomsOf (runInOrder requests start.now start.db order) start.now key =
      roomsOf state.db state.now key := by
  rw [rooms_of_contents, rooms_of_contents, serialised.matched.members]

theorem wait_serialised (serialised : Serialised requests scope start state order) {elapsed : Nat}
    (clean : Undisturbed state (.wait elapsed)) :
    Serialised requests scope start { state with now := state.now + elapsed } order where
  typed := typed_later (Nat.le_add_right _ _) serialised.typed
  orderTyped := serialised.orderTyped
  known := serialised.known
  once := serialised.once
  stages := serialised.stages
  matched := by
    have same : contents state.db (state.now + elapsed) = contents state.db state.now := by
      simp only [contents, clean.1, clean.2]
    dsimp only
    rw [same]
    exact serialised.matched

theorem settled_stage (serialised : Serialised requests scope start state order)
    (settled : ∀ roomsId answered seen, state.calls id ≠ .read roomsId answered seen) :
    state.calls id = .idle ∧ id ∉ order ∨ state.calls id = .done true ∧ id ∈ order := by
  have listed := serialised.stages id
  cases stage : state.calls id with
  | idle =>
      rw [stage] at listed
      exact .inl ⟨rfl, listed⟩
  | read roomsId answered seen => exact absurd stage (settled roomsId answered seen)
  | done success =>
      rw [stage] at listed
      rw [listed.1]
      exact .inr ⟨rfl, listed.2⟩

/-- Without a ping in between the two stores are the same. -/
theorem settled_contents (serialised : Serialised requests scope start state order)
    (settled : ∀ id roomsId answered seen, state.calls id ≠ .read roomsId answered seen) :
    contents state.db state.now =
      contents (runInOrder requests start.now start.db order) start.now := by
  have none : ∀ id, roomsRead (state.calls id) = [] := by
    intro id
    rcases settled_stage serialised (settled id) with ⟨stage, _⟩ | ⟨stage, _⟩
    · rw [stage, roomsRead]
    · rw [stage, roomsRead]
  apply Contents.ext
  · exact serialised.matched.members.symm
  · funext other name
    apply Eq.symm
    apply serialised.matched.value other name
    intro id _ _ _ covered
    rw [none id] at covered
    exact List.not_mem_nil covered.2

variable [DecidableEq Call]

theorem rooms_read_update (calls : Call → CallStage) (id : Call) (stage : CallStage) :
    (fun other => roomsRead (Function.update calls id stage other)) =
      Function.update (fun other => roomsRead (calls other)) id (roomsRead stage) := by
  funext other
  by_cases same : other = id
  · rw [same, Function.update_self, Function.update_self]
  · rw [Function.update_of_ne same, Function.update_of_ne same]

/-- One call goes on. It may enter the order; the others keep their places. -/
theorem advance_serialised (serialised : Serialised requests scope start state order)
    {stage : CallStage} {longer : List Call}
    (calls : after.calls = Function.update state.calls id stage)
    (typed : Typed scope after.db after.now)
    (orderTyped : Typed scope (runInOrder requests start.now start.db longer) start.now)
    (known : ∀ room ∈ roomsRead stage, room ∈ scope.rooms) (once : longer.Nodup)
    (others : ∀ other, other ≠ id → (other ∈ longer ↔ other ∈ order))
    (listed : StageListed (requests id) (id ∈ longer) stage)
    (matched : Matches requests
      (Function.update (fun id => roomsRead (state.calls id)) id (roomsRead stage))
      (contents after.db after.now)
      (contents (runInOrder requests start.now start.db longer) start.now)) :
    Serialised requests scope start after longer where
  typed := typed
  orderTyped := orderTyped
  known := by
    intro other
    rw [calls]
    by_cases same : other = id
    · rw [same, Function.update_self]
      exact known
    · rw [Function.update_of_ne same]
      exact serialised.known other
  once := once
  stages := by
    intro other
    rw [calls]
    by_cases same : other = id
    · rw [same, Function.update_self]
      exact listed
    · rw [Function.update_of_ne same, others other same]
      exact serialised.stages other
  matched := by
    rw [calls, rooms_read_update]
    exact matched

/-- A call that was not in the order enters it at the end. -/
theorem enter_serialised (serialised : Serialised requests scope start state order)
    (within : Within scope (requests id)) {stage : CallStage} (fresh : id ∉ order)
    (calls : after.calls = Function.update state.calls id stage)
    (typed : Typed scope after.db after.now)
    (known : ∀ room ∈ roomsRead stage, room ∈ scope.rooms)
    (listed : StageListed (requests id) True stage)
    (matched : Matches requests
      (Function.update (fun id => roomsRead (state.calls id)) id (roomsRead stage))
      (contents after.db after.now)
      ((contents (runInOrder requests start.now start.db order) start.now).write (requests id).key
        (roomsWritten start.now (runInOrder requests start.now start.db order) (requests id))
        ((setWritten start.now (runInOrder requests start.now start.db order)
          (requests id)).map Prod.fst)
        ((fieldWritten start.now (requests id)).map Field.value))) :
    Serialised requests scope start after (order ++ [id]) := by
  have last : id ∈ order ++ [id] := List.mem_append_right _ List.mem_cons_self
  apply advance_serialised serialised calls typed _ known
  · rw [← List.concat_eq_append, List.nodup_concat]
    exact ⟨fresh, serialised.once⟩
  · intro other differ
    rw [List.mem_append, List.mem_singleton]
    exact or_iff_left differ
  · rw [eq_true last]
    exact listed
  · rw [run_in_order_append,
      writes_contents (request_writes (le_refl _) serialised.orderTyped within)]
    exact matched
  · rw [run_in_order_append]
    exact request_typed (le_refl _) serialised.orderTyped within

theorem continue_serialised (serialised : Serialised requests scope start state order)
    {stage : CallStage} (calls : after.calls = Function.update state.calls id stage)
    (typed : Typed scope after.db after.now)
    (known : ∀ room ∈ roomsRead stage, room ∈ scope.rooms)
    (listed : StageListed (requests id) (id ∈ order) stage)
    (matched : Matches requests
      (Function.update (fun id => roomsRead (state.calls id)) id (roomsRead stage))
      (contents after.db after.now)
      (contents (runInOrder requests start.now start.db order) start.now)) :
    Serialised requests scope start after order :=
  advance_serialised serialised calls typed serialised.orderTyped known serialised.once
    (fun _ _ => Iff.rfl) listed matched

theorem set_stage_calls (state : State Call) (id : Call) (stage : CallStage) :
    (setStage state id stage).calls = Function.update state.calls id stage := rfl

theorem exec_answered {commands : List Command} {block : Option Executed}
    (success : (exec state.now state.db commands).2 = true) :
    (execStep state id commands block .answered).calls =
      Function.update state.calls id (.done true) := by
  simp only [execStep, setStage, success]

theorem update_none {rooms : Call → List Bytes} (none : rooms id = []) :
    Function.update rooms id [] = rooms := by
  rw [← none, Function.update_eq_self]

theorem connect_serialised (within : ∀ id, Within scope (requests id))
    (serialised : Serialised requests scope start state order)
    {clientID instanceName : Bytes} {roomsId : List Bytes} {block : Option Executed}
    (requested : requests id = .connect clientID instanceName roomsId)
    (idle : state.calls id = .idle)
    (inTurn : ∀ other, overtakes (requests id) (requests other) = true →
      roomsRead (state.calls other) = []) :
    Serialised requests scope start
      (execStep state id (connectBlock clientID instanceName roomsId) block .answered)
      (order ++ [id]) := by
  have own := within id
  rw [requested] at own inTurn
  have writes := request_writes (le_refl state.now) serialised.typed own
  apply enter_serialised serialised (within id) (idle_fresh serialised idle)
    (exec_answered writes.success) (request_typed (le_refl _) serialised.typed own)
  · intro room listed
    cases listed
  · exact ⟨rfl, trivial⟩
  · rw [roomsRead, update_none (by rw [idle]; rfl), requested]
    have after := connect_matches (keys_distinct within) serialised.matched
      (congrArg Request.pair requested) roomsId roomsId.dedup
      (fun other request => inTurn other (by rw [request]; exact beq_self_eq_true _))
    exact (writes_contents writes).symm ▸ after

/-- A `Disconnect` without rooms ends at its read. -/
theorem disconnect_nothing_serialised (within : ∀ id, Within scope (requests id))
    (serialised : Serialised requests scope start state order) {clientID instanceName : Bytes}
    (requested : requests id = .disconnect clientID instanceName)
    (idle : state.calls id = .idle)
    (nothing : roomsOf state.db state.now (clientKey clientID instanceName) = []) :
    Serialised requests scope start (setStage state id (.done true)) (order ++ [id]) := by
  have own := within id
  rw [requested] at own
  have absent : setAt state.db state.now (clientKey clientID instanceName) = none :=
    no_rooms_absent serialised.typed own.1 nothing
  apply enter_serialised serialised (within id) (idle_fresh serialised idle)
    (set_stage_calls state id _) serialised.typed
  · intro room listed
    cases listed
  · exact ⟨rfl, trivial⟩
  · rw [roomsRead, update_none (by rw [idle]; rfl), requested]
    simp only [roomsWritten, setWritten, fieldWritten, Request.key, Option.map_none]
    rw [same_rooms serialised, nothing, write_nothing]
    · exact serialised.matched
    · rw [serialised.matched.members, contents_members, absent, Option.map_none]

theorem disconnect_read_serialised (within : ∀ id, Within scope (requests id))
    (serialised : Serialised requests scope start state order) {clientID instanceName : Bytes}
    (requested : requests id = .disconnect clientID instanceName)
    (idle : state.calls id = .idle) {answered : Bool} {seen : Nat}
    (some : roomsOf state.db state.now (clientKey clientID instanceName) ≠ []) :
    Serialised requests scope start (setStage state id
      (.read (roomsOf state.db state.now (clientKey clientID instanceName)) answered seen))
      order := by
  have own := within id
  rw [requested] at own
  apply continue_serialised serialised (set_stage_calls state id _) serialised.typed
  · exact rooms_of_known serialised.typed own.1
  · rw [requested]
    exact ⟨idle_fresh serialised idle, some⟩
  · apply disconnect_read_matches serialised.matched requested
    cases found : setAt state.db state.now (clientKey clientID instanceName) with
    | none => exact absurd (rooms_of_none found) some
    | some stored =>
        rw [roomsRead, rooms_of_some found, contents_members, found, Option.map_some]

theorem disconnect_serialised (within : ∀ id, Within scope (requests id))
    (serialised : Serialised requests scope start state order) {clientID instanceName : Bytes}
    {roomsId : List Bytes} {answered : Bool} {seen : Nat} {block : Option Executed}
    (requested : requests id = .disconnect clientID instanceName)
    (reading : state.calls id = .read roomsId answered seen)
    (inTurn : ∀ other, overtakes (requests id) (requests other) = true →
      roomsRead (state.calls other) = []) :
    Serialised requests scope start
      (execStep state id (disconnectBlock clientID instanceName roomsId) block .answered)
      (order ++ [id]) := by
  have own := within id
  have listed := serialised.stages id
  have known := serialised.known id
  rw [requested] at own inTurn
  rw [requested, reading] at listed
  rw [reading] at known
  have writes := disconnect_writes
    (fun room among => serialised.typed.rooms room (known room among))
    (serialised.typed.clients _ own.1)
  apply enter_serialised serialised (within id) listed.1 (exec_answered writes.success)
  · exact writes_typed serialised.typed own.1 writes known
      (fun members expiry written => by cases written)
  · intro room among
    cases among
  · exact ⟨rfl, trivial⟩
  · rw [roomsRead, requested]
    have after := disconnect_matches (keys_distinct within) serialised.matched requested
      (by rw [reading]; exact listed.2)
      (fun other request => inTurn other (by rw [request]; exact beq_self_eq_true _))
    rw [reading] at after
    exact (writes_contents writes).symm ▸ after

theorem ping_read_serialised (within : ∀ id, Within scope (requests id))
    (serialised : Serialised requests scope start state order) {clientID instanceName : Bytes}
    (requested : requests id = .ping clientID instanceName)
    (idle : state.calls id = .idle) {answered : Bool} {seen : Nat} :
    Serialised requests scope start (setStage state id
      (.read (roomsOf state.db state.now (clientKey clientID instanceName)) answered seen))
      (order ++ [id]) := by
  have own := within id
  rw [requested] at own
  apply enter_serialised serialised (within id) (idle_fresh serialised idle)
    (set_stage_calls state id _) serialised.typed
  · exact rooms_of_known serialised.typed own.1
  · rw [requested]
    exact trivial
  · have after := ping_read_matches (keys_distinct within) serialised.matched requested
      (by rw [idle]; rfl)
    rw [← rooms_of_contents, same_rooms serialised] at after
    simp only [requested, roomsRead, roomsWritten, setWritten, fieldWritten, Request.key,
      Option.map_some, Option.map_map, same_rooms serialised]
    exact after

theorem ping_serialised (within : ∀ id, Within scope (requests id))
    (serialised : Serialised requests scope start state order) {clientID instanceName : Bytes}
    {roomsId : List Bytes} {answered : Bool} {seen : Nat} {block : Option Executed}
    (requested : requests id = .ping clientID instanceName)
    (reading : state.calls id = .read roomsId answered seen) :
    Serialised requests scope start
      (execStep state id (pingBlock clientID instanceName roomsId) block .answered) order := by
  have own := within id
  have listed := serialised.stages id
  have known := serialised.known id
  rw [requested] at own
  rw [requested, reading] at listed
  rw [reading] at known
  have writes : Writes state.now state.db
      (exec state.now state.db (pingBlock clientID instanceName roomsId)) _ _ _ _ :=
    ping_writes fun room among => serialised.typed.rooms room (known room among)
  apply continue_serialised serialised (exec_answered writes.success)
  · apply writes_typed serialised.typed own.1 writes known
    intro members expiry written
    rcases Option.map_eq_some_iff.mp written with ⟨old, found, same⟩
    cases same
    exact serialised.typed.listed _ own.1 old.1 old.2 found
  · intro room among
    cases among
  · exact ⟨rfl, listed⟩
  · have after := ping_matches serialised.matched requested
    rw [reading] at after
    have written := writes_contents writes
    rw [Option.map_map] at written
    exact written.symm ▸ after

/-- One step of a call: it keeps its place in the order or enters it. -/
theorem call_serialised (within : ∀ id, Within scope (requests id))
    (serialised : Serialised requests scope start state order) {move : Move}
    (clean : Undisturbed state (.call id move)) (inTurn : InTurn requests state (.call id move))
    {request : Request} {stage : CallStage} (requested : requests id = request)
    (staged : state.calls id = stage)
    (stepped : callStep state id request stage move = some after) :
    ∃ longer, Serialised requests scope start after longer := by
  have hashFree := serialised.typed.clients (requests id).pair (within id).1
  rw [← request_key, requested] at hashFree
  unfold callStep at stepped
  split at stepped
  · rename_i clientID instanceName roomsId outcome
    cases outcome with
    | answered =>
        cases stepped
        exact ⟨_, connect_serialised within serialised requested staged inTurn⟩
    | lost => exact clean.elim
    | refused => exact clean.elim
  · rename_i clientID instanceName reached
    cases clean
    have read : readRooms state.now state.db true (clientKey clientID instanceName) =
      some (roomsOf state.db state.now (clientKey clientID instanceName)) :=
      read_rooms_answered hashFree
    dsimp only at stepped
    rw [read] at stepped
    cases rooms : roomsOf state.db state.now (clientKey clientID instanceName) with
    | nil =>
        rw [rooms] at stepped
        cases stepped
        exact ⟨_, disconnect_nothing_serialised within serialised requested staged rooms⟩
    | cons first rest =>
        have some : roomsOf state.db state.now (clientKey clientID instanceName) ≠ [] := by
          rw [rooms]
          exact List.cons_ne_nil first rest
        rw [rooms] at stepped
        cases stepped
        rw [← rooms]
        exact ⟨_, disconnect_read_serialised within serialised requested staged some⟩
  · rename_i clientID instanceName roomsId answered seen outcome
    cases outcome with
    | answered =>
        cases stepped
        exact ⟨_, disconnect_serialised within serialised requested staged inTurn⟩
    | lost => exact clean.elim
    | refused => exact clean.elim
  · rename_i clientID instanceName reached
    cases clean
    have read : readRooms state.now state.db true (clientKey clientID instanceName) =
      some (roomsOf state.db state.now (clientKey clientID instanceName)) :=
      read_rooms_answered hashFree
    cases stepped
    rw [read, Option.getD_some]
    exact ⟨_, ping_read_serialised within serialised requested staged⟩
  · rename_i clientID instanceName roomsId answered seen outcome
    cases outcome with
    | answered =>
        cases stepped
        exact ⟨_, ping_serialised within serialised requested staged⟩
    | lost => exact clean.elim
    | refused => exact clean.elim
  · cases stepped

/-- Steps of undisturbed calls that overtake nobody. -/
def Permitted (requests : Call → Request) (state : State Call) (action : Action Call) : Prop :=
  Undisturbed state action ∧ InTurn requests state action

theorem reachable_serialised (within : ∀ id, Within scope (requests id))
    (idle : ∀ id, start.calls id = .idle) (typed : Typed scope start.db start.now)
    (reached : Reachable (step requests) (Permitted requests) start state) :
    ∃ order, Serialised requests scope start state order := by
  apply reachable_invariant (fun state => ∃ order, Serialised requests scope start state order)
    ⟨[], start_serialised idle typed⟩ _ reached
  intro before action after known permitted stepped
  rcases known with ⟨order, serialised⟩
  cases action with
  | wait elapsed =>
      cases stepped
      exact ⟨order, wait_serialised serialised permitted.1⟩
  | call id move =>
      exact call_serialised within serialised permitted.1 permitted.2 rfl rfl stepped

end Runs

section Results

variable {Call : Type}

/-- Undisturbed calls of connections and rooms with distinct keys, from any
store: if none overtakes another, then once no call is between its read and its
block, all that began have succeeded, and the client sets and room hashes are
those of a sequential order of just these calls. -/
theorem calls_in_turn_serializable [DecidableEq Call] (requests : Call → Request) (scope : Scope)
    (within : ∀ id, Within scope (requests id)) (start state : State Call)
    (idle : ∀ id, start.calls id = .idle) (typed : Typed scope start.db start.now)
    (reached : Reachable (step requests) (Permitted requests) start state)
    (settled : ∀ id roomsId answered seen, state.calls id ≠ .read roomsId answered seen) :
    (∀ id, state.calls id = .idle ∨ state.calls id = .done true) ∧
      ∃ order : List Call, order.Nodup ∧ (∀ id, id ∈ order ↔ state.calls id = .done true) ∧
        contents state.db state.now =
          contents (runInOrder requests start.now start.db order) start.now := by
  rcases reachable_serialised within idle typed reached with ⟨order, serialised⟩
  refine ⟨?_, order, serialised.once, ?_, settled_contents serialised settled⟩
  · intro id
    exact (settled_stage serialised (settled id)).imp And.left And.left
  · intro id
    rcases settled_stage serialised (settled id) with ⟨stage, missing⟩ | ⟨stage, listed⟩
    · rw [stage]
      exact iff_of_false missing (fun same => by cases same)
    · exact iff_of_true listed stage

/-- The steps of a run in which no time passes. -/
def isAnswered : Action Call → Bool
  | .wait _ => false
  | .call _ (.read reached) => reached
  | .call _ (.exec .answered) => true
  | .call _ (.exec _) => false

theorem answered_undisturbed {state : State Call} {action : Action Call}
    (answered : isAnswered action = true) : Undisturbed state action := by
  cases action with
  | wait elapsed => cases answered
  | call id move =>
      cases move with
      | read reached => exact answered
      | exec outcome =>
          cases outcome with
          | answered => trivial
          | lost => cases answered
          | refused => cases answered

instance [Fintype Call] (requests : Call → Request) (state : State Call) (action : Action Call) :
    Decidable (InTurn requests state action) :=
  match action with
  | .wait _ => isTrue trivial
  | .call _ (.read _) => isTrue trivial
  | .call id (.exec _) => inferInstanceAs (Decidable (∀ other,
      overtakes (requests id) (requests other) = true → roomsRead (state.calls other) = []))

/-- One client is connected to one room. -/
def connectedStart (Call : Type) : State Call where
  db := ((Request.connect (ascii "c1") (ascii "inst-a") [ascii "r1"]).run 0 0 (fun _ => none)).1
  now := 0
  calls := fun _ => .idle
  history := []

theorem connected_start_typed :
    Typed sampleScope (connectedStart Call).db (connectedStart Call).now :=
  request_typed (le_refl _) (empty_typed sampleScope 0) (by decide)

/-- What there is of the client. -/
def traces (store : Contents) : Option (List Bytes) × Option Bytes × Option Bytes :=
  (store.members (ascii "c1|inst-a"), store.value (ascii "room:r1") (ascii "c1|inst-a"),
    store.value (ascii "room:r2") (ascii "c1|inst-a"))

/-- An undisturbed run of all the calls ends as none of their sequential orders
does. -/
def EndsUnlikeAnyOrder (requests : Fin 2 → Request) : Prop :=
  ∃ state, Reachable (step requests) Undisturbed (connectedStart (Fin 2)) state ∧
    (∀ id, state.calls id = .done true) ∧
    ∀ order : List (Fin 2), order.Nodup → (∀ id, id ∈ order) → contents state.db state.now ≠
      contents (runInOrder requests 0 (connectedStart (Fin 2)).db order) 0

theorem ends_unlike_any_order {requests : Fin 2 → Request}
    (actions : List (PresenceModel.Action (Fin 2)))
    (ends : (runActions (step requests) (fun _ action => isAnswered action = true)
      (connectedStart (Fin 2)) actions).any (fun state => (∀ id, state.calls id = .done true) ∧
        ∀ order ∈ List.permutations' [(0 : Fin 2), 1], traces (contents state.db state.now) ≠
          traces (contents (runInOrder requests 0 (connectedStart (Fin 2)).db order) 0)) = true) :
    EndsUnlikeAnyOrder requests := by
  rcases (Option.any_eq_true _ _).mp ends with ⟨state, ran, checked⟩
  have facts := of_decide_eq_true checked
  refine ⟨state, ?_, facts.1, ?_⟩
  · exact reachable_weaken (fun _ _ answered => answered_undisturbed answered)
      (reachable_run_actions reachable_start ran)
  · intro order once all same
    have both : ∀ id : Fin 2, id ∈ [(0 : Fin 2), 1] := by decide
    have reordered : order.Perm [0, 1] := by
      rw [List.perm_ext_iff_of_nodup once (by decide)]
      intro id
      exact iff_of_true (all id) (both id)
    exact facts.2 order (List.mem_permutations'.mpr reordered) (congrArg traces same)

/-- The old connection closes while the new one opens. -/
def reconnecting : Fin 2 → Request
  | 0 => .disconnect (ascii "c1") (ascii "inst-a")
  | 1 => .connect (ascii "c1") (ascii "inst-a") [ascii "r2"]

/-- The connection closes while it pings. -/
def closing : Fin 2 → Request
  | 0 => .ping (ascii "c1") (ascii "inst-a")
  | 1 => .disconnect (ascii "c1") (ascii "inst-a")

/-- `Disconnect` reads, `Connect` gets its block in, and then `Disconnect` removes
the new client key and the old room: the client stays in the hash of the new
room without a client key. A `Ping` that has read before a `Disconnect` puts the
client back into the hash of its room, again without a client key. -/
theorem overtaken_calls_not_serializable :
    (∀ id, Within sampleScope (reconnecting id)) ∧ (∀ id, Within sampleScope (closing id)) ∧
      Typed sampleScope (connectedStart (Fin 2)).db (connectedStart (Fin 2)).now ∧
      EndsUnlikeAnyOrder reconnecting ∧ EndsUnlikeAnyOrder closing := by
  refine ⟨by decide, by decide, connected_start_typed, ?_, ?_⟩
  · apply ends_unlike_any_order
      [.call 0 (.read true), .call 1 (.exec .answered), .call 0 (.exec .answered)]
    decide +kernel
  · apply ends_unlike_any_order
      [.call 0 (.read true), .call 1 (.read true), .call 1 (.exec .answered),
        .call 0 (.exec .answered)]
    decide +kernel

/-- A ping of the old rooms, a reconnect to a new one, and a `Disconnect` of which
another client's `Connect` takes no notice. -/
def overlapping : Fin 4 → Request
  | 0 => .ping (ascii "c1") (ascii "inst-a")
  | 1 => .connect (ascii "c1") (ascii "inst-a") [ascii "r2"]
  | 2 => .disconnect (ascii "c1") (ascii "inst-a")
  | 3 => .connect (ascii "c2") (ascii "inst-b") [ascii "r1", ascii "r2"]

theorem overlapping_calls_serializable :
    ∃ state, Reachable (step overlapping) (Permitted overlapping) (connectedStart (Fin 4)) state ∧
      ∃ order : List (Fin 4), order.Nodup ∧ (∀ id, id ∈ order ↔ state.calls id = .done true) ∧
        contents state.db state.now =
          contents (runInOrder overlapping 0 (connectedStart (Fin 4)).db order) 0 := by
  have ends : (runActions (step overlapping)
      (fun state action => isAnswered action = true ∧ InTurn overlapping state action)
      (connectedStart (Fin 4))
      [.call 0 (.read true), .call 1 (.exec .answered), .call 0 (.exec .answered),
        .call 2 (.read true), .call 3 (.exec .answered), .call 2 (.exec .answered)]).any
      (fun state => ∀ id, state.calls id = .done true) = true := by
    decide +kernel
  rcases (Option.any_eq_true _ _).mp ends with ⟨state, ran, checked⟩
  have all : ∀ id, state.calls id = .done true := of_decide_eq_true checked
  have reached : Reachable (step overlapping) (Permitted overlapping) (connectedStart (Fin 4))
      state :=
    reachable_weaken (fun _ _ both => ⟨answered_undisturbed both.1, both.2⟩)
      (reachable_run_actions reachable_start ran)
  refine ⟨state, reached, ?_⟩
  exact (calls_in_turn_serializable overlapping sampleScope (by decide) (connectedStart (Fin 4))
    state (fun _ => rfl) connected_start_typed reached
    (fun id roomsId answered seen reading => by cases (all id).symm.trans reading)).2

end Results

end ChatScale.PresenceSerial
