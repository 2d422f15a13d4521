import ChatScale.PresenceBlocks

/-!
# Client keys and room hashes agree

Calls run one after the other and time passes between them. A client key and the
fields of its rooms are then written together and given the same expiry, so they
stay and go together: a room in a live client key has the instance in its hash,
and `IsConnected` lists it.
-/

namespace ChatScale.PresenceAlignment

open ChatScale.ByteText ChatScale.RedisKeyspace ChatScale.PresenceModel
open ChatScale.PresenceBlocks ChatScale.TransitionSystem

set_option autoImplicit false

structure Store where
  db : Keyspace
  now : Nat

def emptyStore : Store := ⟨fun _ => none, 0⟩

/-- The time between the read of a call and its block is part of the call. -/
inductive StoreAction where
  | wait (elapsed : Nat)
  | call (request : Request) (elapsed : Nat)

def storeStep (store : Store) : StoreAction → Option Store
  | .wait elapsed => some { store with now := store.now + elapsed }
  | .call request elapsed =>
      let now := store.now + elapsed
      some ⟨(request.run store.now now store.db).1, now⟩

def CallsWithin (scope : Scope) : Store → StoreAction → Prop
  | _, .wait _ => True
  | _, .call request _ => Within scope request

/-- A room in a live client key has the field of that name, with the same
expiry. -/
structure Aligned (scope : Scope) (store : Store) : Prop where
  typed : Typed scope store.db store.now
  persistent : ∀ room ∈ scope.rooms, Persistent store.db (roomKey room)
  fields : ∀ pair ∈ scope.pairs, ∀ members expiry,
    setAt store.db store.now (keyOf pair) = some (members, expiry) →
      ∀ room ∈ members, fieldAt store.db store.now (roomKey room) (keyOf pair) =
        some ⟨pair.2, expiry⟩

section Steps

variable {scope : Scope} {store : Store} {request : Request}

theorem empty_aligned (scope : Scope) : Aligned scope emptyStore where
  typed := empty_typed scope 0
  persistent := by
    intro room _ fields expiry stored
    cases stored
  fields := by
    intro pair _ members expiry found
    cases found

theorem wait_aligned (aligned : Aligned scope store) (elapsed : Nat) :
    Aligned scope { store with now := store.now + elapsed } where
  typed := typed_later (Nat.le_add_right _ _) aligned.typed
  persistent := aligned.persistent
  fields := by
    intro pair used members expiry found room listed
    have passed : store.now ≤ store.now + elapsed := Nat.le_add_right _ _
    have before := set_at_earlier passed found
    have live : alive (store.now + elapsed) expiry = true := by
      rw [set_at_later passed] at found
      exact (Option.filter_eq_some_iff.mp found).2
    have known := (aligned.typed.listed pair used members expiry before).2 room listed
    exact field_at_later (aligned.persistent room known)
      (aligned.fields pair used members expiry before room listed) live

theorem call_aligned (aligned : Aligned scope store) (within : Within scope request)
    (elapsed : Nat) :
    Aligned scope ⟨(request.run store.now (store.now + elapsed) store.db).1,
      store.now + elapsed⟩ := by
  have passed : store.now ≤ store.now + elapsed := Nat.le_add_right _ _
  have later := wait_aligned aligned elapsed
  have writes := request_writes passed aligned.typed within
  rw [request_key] at writes
  refine ⟨request_typed passed aligned.typed within, ?_, ?_⟩
  · intro room listed
    apply request_persistent _ (aligned.persistent room listed)
    rw [request_key]
    exact scope.apart _ within.1 room listed
  · intro pair used members expiry found room listed
    rw [writes.sets] at found
    rw [writes.fields]
    by_cases own : keyOf pair = keyOf request.pair
    · rw [if_pos own] at found
      rcases set_written_covered passed found room listed with ⟨written, field⟩
      rw [if_pos ⟨own, List.mem_map_of_mem written⟩, field,
        scope.distinct pair used _ within.1 own]
    · rw [if_neg own] at found
      rw [if_neg fun covered => own covered.1]
      exact later.fields pair used members expiry found room listed

theorem store_step_aligned {action : StoreAction} {after : Store} (aligned : Aligned scope store)
    (within : CallsWithin scope store action) (stepped : storeStep store action = some after) :
    Aligned scope after := by
  cases action with
  | wait elapsed =>
      cases stepped
      exact wait_aligned aligned elapsed
  | call request elapsed =>
      cases stepped
      exact call_aligned aligned within elapsed

theorem reachable_aligned (reached : Reachable storeStep (CallsWithin scope) emptyStore store) :
    Aligned scope store :=
  reachable_invariant (Aligned scope) (empty_aligned scope)
    (fun _ _ _ aligned within stepped => store_step_aligned aligned within stepped) reached

end Steps

section Results

/-- `IsConnected` of a room with a live field answers. -/
theorem is_connected_answers {now : Nat} {db : Keyspace}
    (iteration : List (Bytes × Bytes) → List (Bytes × Bytes)) {roomID name : Bytes} {field : Field}
    (found : fieldAt db now (roomKey roomID) name = some field) :
    ∃ names, isConnected now db iteration roomID = .ok names := by
  rw [isConnected, hgetall]
  unfold fieldAt at found
  split at found
  · rename_i fields expiry entry
    rw [entry]
    exact ⟨_, rfl⟩
  · cases found

/-- Along any sequence of whole calls: a room in a live client key has the field
of the connection, with the instance as its value and the expiry of the key, and
`IsConnected` lists the instance, each instance once. -/
theorem client_sets_listed (scope : Scope) (store : Store)
    (reached : Reachable storeStep (CallsWithin scope) emptyStore store)
    (clientID instanceName : Bytes) (used : (clientID, instanceName) ∈ scope.pairs)
    (members : List Bytes) (expiry : Option Nat)
    (live : setAt store.db store.now (clientKey clientID instanceName) = some (members, expiry))
    (room : Bytes) (listed : room ∈ members)
    (iteration : List (Bytes × Bytes) → List (Bytes × Bytes))
    (reordered : ∀ fields, (iteration fields).Perm fields) :
    fieldAt store.db store.now (roomKey room) (clientKey clientID instanceName) =
        some ⟨instanceName, expiry⟩ ∧
      ∃ names, isConnected store.now store.db iteration room = .ok names ∧ names.Nodup ∧
        instanceName ∈ names := by
  have aligned := reachable_aligned reached
  have field := aligned.fields (clientID, instanceName) used members expiry live room listed
  refine ⟨field, ?_⟩
  rcases is_connected_answers iteration field with ⟨names, answered⟩
  have lists := is_connected_lists reordered answered
  exact ⟨names, answered, lists.1, (lists.2 instanceName).mpr ⟨_, _, field, rfl⟩⟩

/-- A client changes its rooms and is kept alive by a ping; another one expires. -/
def sampleActions : List StoreAction :=
  [.call (.connect (ascii "c1") (ascii "inst-a") [ascii "r1", ascii "r2"]) 0,
    .call (.connect (ascii "c2") (ascii "inst-b") [ascii "r1"]) 0, .wait 20000,
    .call (.connect (ascii "c1") (ascii "inst-a") [ascii "r3", ascii "r1"]) 0, .wait 29990,
    .call (.ping (ascii "c1") (ascii "inst-a")) 10, .wait 30000]

instance (store : Store) (action : StoreAction) :
    Decidable (CallsWithin sampleScope store action) :=
  match action with
  | .wait _ => isTrue trivial
  | .call request _ => inferInstanceAs (Decidable (Within sampleScope request))

theorem kept_client_listed :
    ∃ store, runActions storeStep (CallsWithin sampleScope) emptyStore sampleActions = some store ∧
      fieldAt store.db store.now (roomKey (ascii "r1")) (ascii "c1|inst-a") =
        some ⟨ascii "inst-a", some 110000⟩ ∧
      ∃ names, isConnected store.now store.db List.reverse (ascii "r1") = .ok names ∧
        names.Nodup ∧ ascii "inst-a" ∈ names := by
  have ends : (runActions storeStep (CallsWithin sampleScope) emptyStore sampleActions).any
      (fun store => setAt store.db store.now (ascii "c1|inst-a") =
        some ([ascii "r3", ascii "r1"], some 110000)) = true := by
    decide +kernel
  rcases (Option.any_eq_true _ _).mp ends with ⟨store, ran, live⟩
  refine ⟨store, ran, ?_⟩
  exact client_sets_listed sampleScope store (reachable_run_actions reachable_start ran)
    (ascii "c1") (ascii "inst-a") (by show _ ∈ samplePairs; decide) [ascii "r3", ascii "r1"]
    (some 110000) (of_decide_eq_true live) (ascii "r1") (by decide) List.reverse List.reverse_perm

end Results

end ChatScale.PresenceAlignment
