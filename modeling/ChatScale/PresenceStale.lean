import ChatScale.PresenceAlignment

/-!
# Fields that a disconnect leaves behind

`Disconnect` removes the fields of the rooms in the client key. A `Connect` with
other rooms replaces the set but not the fields of the rooms it no longer names,
so these are out of reach until they expire. Calls run one after the other.
-/

namespace ChatScale.PresenceStale

open ChatScale.ByteText ChatScale.RedisKeyspace ChatScale.PresenceModel
open ChatScale.PresenceBlocks ChatScale.PresenceAlignment ChatScale.TransitionSystem

set_option autoImplicit false

/-- No hash of a room has a field of this name. -/
def FieldsGone (now : Nat) (db : Keyspace) (key : Bytes) : Prop :=
  ∀ room, fieldAt db now (roomKey room) key = none

/-- The client key that is read lists every room whose hash has a field of this
name when the block is executed. -/
def ListsFields (reads now : Nat) (db : Keyspace) (key : Bytes) : Prop :=
  ∀ room field, fieldAt db now (roomKey room) key = some field → room ∈ roomsOf db reads key

/-- What `IsConnected` answers does not rest on the field of this name. -/
def NotReported (now : Nat) (db : Keyspace) (key : Bytes) : Prop :=
  ∀ iteration : List (Bytes × Bytes) → List (Bytes × Bytes),
    (∀ fields, (iteration fields).Perm fields) →
    ∀ room names, isConnected now db iteration room = .ok names → ∀ name ∈ names,
      ∃ other field, other ≠ key ∧ fieldAt db now (roomKey room) other = some field ∧
        field.value = name

theorem not_reported {now : Nat} {db : Keyspace} {key : Bytes} (gone : FieldsGone now db key) :
    NotReported now db key := by
  intro iteration reordered room names answered name member
  obtain ⟨other, field, found, same⟩ := ((is_connected_lists reordered answered).2 name).mp member
  refine ⟨other, field, ?_, found, same⟩
  intro own
  rw [own, gone room] at found
  cases found

section Disconnect

variable {scope : Scope} {reads now : Nat} {db : Keyspace} {clientID instanceName : Bytes}

theorem covers_own {roomsId : List Bytes} {key room : Bytes} :
    Covers roomsId key (roomKey room) key ↔ room ∈ roomsId := by
  constructor
  · intro covered
    obtain ⟨other, listed, same⟩ := List.mem_map.mp covered.2
    exact room_key_injective same ▸ listed
  · intro listed
    exact ⟨rfl, List.mem_map_of_mem listed⟩

theorem disconnect_fields (passed : reads ≤ now) (typed : Typed scope db reads)
    (used : (clientID, instanceName) ∈ scope.pairs) (room : Bytes) :
    fieldAt ((Request.disconnect clientID instanceName).run reads now db).1 now (roomKey room)
        (clientKey clientID instanceName) =
      if room ∈ roomsOf db reads (clientKey clientID instanceName) then none
      else fieldAt db now (roomKey room) (clientKey clientID instanceName) := by
  have within : Within scope (.disconnect clientID instanceName) := ⟨used, trivial⟩
  refine ((request_writes passed typed within).fields _ _).trans ?_
  exact if_congr covers_own rfl rfl

theorem fields_gone_iff (passed : reads ≤ now) (typed : Typed scope db reads)
    (used : (clientID, instanceName) ∈ scope.pairs) :
    FieldsGone now ((Request.disconnect clientID instanceName).run reads now db).1
        (clientKey clientID instanceName) ↔
      ListsFields reads now db (clientKey clientID instanceName) := by
  constructor
  · intro gone room field found
    by_contra unlisted
    have left := gone room
    rw [disconnect_fields passed typed used, if_neg unlisted, found] at left
    cases left
  · intro lists room
    rw [disconnect_fields passed typed used]
    split_ifs with listed
    · rfl
    · cases found : fieldAt db now (roomKey room) (clientKey clientID instanceName) with
      | none => rfl
      | some field => exact absurd (lists room field found) listed

end Disconnect

section Runs

/-- A field of a connection belongs to a room in its client key and goes with
it. -/
def Covered (scope : Scope) (store : Store) : Prop :=
  ∀ pair ∈ scope.pairs, ∀ room field,
    fieldAt store.db store.now (roomKey room) (keyOf pair) = some field →
      ∃ members, setAt store.db store.now (keyOf pair) = some (members, field.expiry) ∧
        room ∈ members

/-- A `Connect` names every room that still has a field of the connection, and a
client key does not expire between the read of a `Ping` and its block. -/
def KeepsRooms (store : Store) : StoreAction → Prop
  | .call (.connect clientID instanceName roomsId) elapsed => ∀ room field,
      fieldAt store.db (store.now + elapsed) (roomKey room) (clientKey clientID instanceName) =
        some field → room ∈ roomsId
  | .call (.ping clientID instanceName) elapsed =>
      setAt store.db store.now (clientKey clientID instanceName) ≠ none →
        setAt store.db (store.now + elapsed) (clientKey clientID instanceName) ≠ none
  | _ => True

variable {scope : Scope} {store after : Store}

theorem covered_lists (covered : Covered scope store) {pair : Bytes × Bytes}
    (used : pair ∈ scope.pairs) {now : Nat} (passed : store.now ≤ now) :
    ListsFields store.now now store.db (keyOf pair) := by
  intro room field found
  obtain ⟨members, set, listed⟩ := covered pair used room field (field_at_earlier passed found)
  rw [rooms_of_some set]
  exact listed

theorem wait_covered (covered : Covered scope store) (elapsed : Nat) :
    Covered scope { store with now := store.now + elapsed } := by
  intro pair used room field found
  have passed : store.now ≤ store.now + elapsed := Nat.le_add_right _ _
  obtain ⟨members, set, listed⟩ := covered pair used room field (field_at_earlier passed found)
  refine ⟨members, ?_, listed⟩
  rw [set_at_later passed, set, Option.filter_some, if_pos (field_at_alive found)]

/-- The fields of the own name after a call, and the set they belong to. -/
theorem own_covered (covered : Covered scope store) {request : Request}
    (within : Within scope request) {elapsed : Nat}
    (keeps : KeepsRooms store (.call request elapsed)) {room : Bytes} {field : Field}
    (found : (if room ∈ roomsWritten store.now store.db request then
        fieldWritten (store.now + elapsed) request
      else fieldAt store.db (store.now + elapsed) (roomKey room) request.key) = some field) :
    ∃ members, setWritten (store.now + elapsed) store.db request =
      some (members, field.expiry) ∧ room ∈ members := by
  have passed : store.now ≤ store.now + elapsed := Nat.le_add_right _ _
  have lists := covered_lists covered within.1 passed
  rw [← request_key] at lists
  cases request with
  | connect clientID instanceName roomsId =>
      have named : room ∈ roomsId := by
        by_contra unnamed
        rw [roomsWritten, if_neg unnamed] at found
        exact unnamed (keeps room field found)
      rw [roomsWritten, if_pos named] at found
      cases found
      exact ⟨roomsId.dedup, rfl, List.mem_dedup.mpr named⟩
  | disconnect clientID instanceName =>
      split_ifs at found with listed
      · cases found
      · exact absurd (lists room field found) listed
  | ping clientID instanceName =>
      have listed : room ∈ roomsOf store.db store.now (clientKey clientID instanceName) := by
        by_contra unlisted
        rw [roomsWritten, if_neg unlisted] at found
        exact unlisted (lists room field found)
      rw [roomsWritten, if_pos listed] at found
      cases found
      have there : setAt store.db store.now (clientKey clientID instanceName) ≠ none := by
        intro absent
        rw [rooms_of_none absent] at listed
        cases listed
      obtain ⟨old, still⟩ := Option.ne_none_iff_exists'.mp (keeps there)
      refine ⟨old.1, ?_, ?_⟩
      · rw [setWritten, still]
        rfl
      · rw [rooms_of_some (set_at_earlier passed still)] at listed
        exact listed

theorem call_covered (aligned : Aligned scope store) (covered : Covered scope store)
    {request : Request} (within : Within scope request) {elapsed : Nat}
    (keeps : KeepsRooms store (.call request elapsed)) :
    Covered scope ⟨(request.run store.now (store.now + elapsed) store.db).1,
      store.now + elapsed⟩ := by
  have passed : store.now ≤ store.now + elapsed := Nat.le_add_right _ _
  have writes := request_writes passed aligned.typed within
  intro pair used room field found
  simp only [writes.fields, writes.sets] at found ⊢
  by_cases own : keyOf pair = request.key
  · rw [own, if_congr covers_own rfl rfl] at found
    rw [if_pos own]
    exact own_covered covered within keeps found
  · rw [if_neg fun both => own both.1] at found
    rw [if_neg own]
    exact wait_covered covered elapsed pair used room field found

theorem step_covered {action : StoreAction} (aligned : Aligned scope store)
    (covered : Covered scope store)
    (allowed : CallsWithin scope store action ∧ KeepsRooms store action)
    (stepped : storeStep store action = some after) : Covered scope after := by
  cases action with
  | wait elapsed =>
      cases stepped
      exact wait_covered covered elapsed
  | call request elapsed =>
      cases stepped
      exact call_covered aligned covered allowed.1 allowed.2

theorem reachable_covered
    (reached : Reachable storeStep
      (fun store action => CallsWithin scope store action ∧ KeepsRooms store action)
      emptyStore store) : Covered scope store := by
  refine reachable_induction (Covered scope) ?_ ?_ reached
  · intro pair used room field found
    cases found
  · intro before action after earlier covered allowed stepped
    have aligned := reachable_aligned (reachable_weaken (fun _ _ both => both.1) earlier)
    exact step_covered aligned covered allowed stepped

/-- In a run in which every `Connect` names the rooms that still list it, every
`Disconnect` leaves no field behind. -/
theorem kept_rooms_cleared
    (reached : Reachable storeStep
      (fun store action => CallsWithin scope store action ∧ KeepsRooms store action)
      emptyStore store)
    {clientID instanceName : Bytes} (used : (clientID, instanceName) ∈ scope.pairs)
    (elapsed : Nat) :
    FieldsGone (store.now + elapsed)
      ((Request.disconnect clientID instanceName).run store.now (store.now + elapsed) store.db).1
      (clientKey clientID instanceName) := by
  have aligned := reachable_aligned (reachable_weaken (fun _ _ both => both.1) reached)
  have passed : store.now ≤ store.now + elapsed := Nat.le_add_right _ _
  exact (fields_gone_iff passed aligned.typed used).mpr
    (covered_lists (reachable_covered reached) used passed)

end Runs

section Results

/-- In every state that whole calls can reach, `Disconnect` succeeds, and it leaves
no field of the connection in any room exactly if the client key it reads lists
every room that still has one. Without such a field no answer of `IsConnected`
rests on the connection. -/
theorem disconnect_clears_iff (scope : Scope) (store : Store)
    (reached : Reachable storeStep (CallsWithin scope) emptyStore store)
    (clientID instanceName : Bytes) (used : (clientID, instanceName) ∈ scope.pairs)
    (elapsed : Nat) :
    let now := store.now + elapsed
    let result := (Request.disconnect clientID instanceName).run store.now now store.db
    result.2 = true ∧
    (FieldsGone now result.1 (clientKey clientID instanceName) ↔
      ListsFields store.now now store.db (clientKey clientID instanceName)) ∧
    (FieldsGone now result.1 (clientKey clientID instanceName) →
      NotReported now result.1 (clientKey clientID instanceName)) := by
  have typed := (reachable_aligned reached).typed
  have passed : store.now ≤ store.now + elapsed := Nat.le_add_right _ _
  have within : Within scope (.disconnect clientID instanceName) := ⟨used, trivial⟩
  exact ⟨(request_writes passed typed within).success, fields_gone_iff passed typed used,
    not_reported⟩

def connectTwo : Request := .connect (ascii "c1") (ascii "inst-a") [ascii "r1", ascii "r2"]

def connected : Store := ⟨(connectTwo.run 0 0 emptyStore.db).1, 0⟩

/-- The client connects to two rooms and pings twenty seconds later. -/
def pinged : Store :=
  ⟨((Request.ping (ascii "c1") (ascii "inst-a")).run 0 20000 connected.db).1, 20000⟩

theorem pinged_keeps_rooms :
    Reachable storeStep
      (fun store action => CallsWithin sampleScope store action ∧ KeepsRooms store action)
      emptyStore pinged := by
  have connects : KeepsRooms emptyStore (.call connectTwo 0) := by
    intro room field found
    cases found
  have first : storeStep emptyStore (.call connectTwo 0) = some connected := rfl
  have second : storeStep connected (.call (.ping (ascii "c1") (ascii "inst-a")) 20000) =
    some pinged := rfl
  have pings : setAt connected.db 20000 (clientKey (ascii "c1") (ascii "inst-a")) ≠ none := by
    decide +kernel
  refine reachable_step (reachable_step reachable_start ⟨by decide, connects⟩ first) ?_ second
  exact ⟨by decide, fun _ => pings⟩

theorem sample_disconnect_clears :
    Reachable storeStep (CallsWithin sampleScope) emptyStore pinged ∧
      fieldAt pinged.db pinged.now (roomKey (ascii "r2"))
        (clientKey (ascii "c1") (ascii "inst-a")) ≠ none ∧
      FieldsGone pinged.now ((Request.disconnect (ascii "c1") (ascii "inst-a")).run pinged.now
        (pinged.now + 0) pinged.db).1 (clientKey (ascii "c1") (ascii "inst-a")) := by
  have reached := reachable_weaken (fun _ _ both => both.1) pinged_keeps_rooms
  have used : (ascii "c1", ascii "inst-a") ∈ sampleScope.pairs := by
    show _ ∈ samplePairs
    decide
  refine ⟨reached, by decide +kernel, ?_⟩
  apply (disconnect_clears_iff sampleScope pinged reached _ _ used 0).2.1.mpr
  exact covered_lists (reachable_covered pinged_keeps_rooms) used (Nat.le_add_right _ _)

/-- The client comes back with another room and then disconnects. -/
def changedRooms : List StoreAction :=
  [.call (.connect (ascii "c1") (ascii "inst-a") [ascii "r1"]) 0,
    .call (.connect (ascii "c1") (ascii "inst-a") [ascii "r2"]) 0]

/-- `Disconnect` succeeds and the instance is still reported for the old room. -/
theorem changed_rooms_reported :
    ∃ store, Reachable storeStep (CallsWithin sampleScope) emptyStore store ∧
      ∃ after, (Request.disconnect (ascii "c1") (ascii "inst-a")).run store.now store.now store.db =
          (after, true) ∧
        ¬ FieldsGone store.now after (clientKey (ascii "c1") (ascii "inst-a")) ∧
        isConnected store.now after id (ascii "r1") = .ok [ascii "inst-a"] := by
  have ends : (runActions storeStep (CallsWithin sampleScope) emptyStore changedRooms).any
      (fun store =>
        let result := (Request.disconnect (ascii "c1") (ascii "inst-a")).run store.now store.now
          store.db
        result.2 && decide (fieldAt result.1 store.now (roomKey (ascii "r1"))
            (clientKey (ascii "c1") (ascii "inst-a")) ≠ none) &&
          decide (isConnected store.now result.1 id (ascii "r1") = .ok [ascii "inst-a"])) =
        true := by
    decide +kernel
  obtain ⟨store, ran, found⟩ := (Option.any_eq_true _ _).mp ends
  simp only [Bool.and_eq_true, decide_eq_true_eq] at found
  refine ⟨store, reachable_run_actions reachable_start ran, _, Prod.ext rfl found.1.1, ?_, found.2⟩
  intro gone
  exact found.1.2 (gone (ascii "r1"))

end Results

end ChatScale.PresenceStale
