import Mathlib.Data.List.Dedup
import Mathlib.Data.Set.Basic
import ChatScale.PresenceModel

/-!
# What the blocks of a call do

As long as no client key is also the key of a room in use, every command finds a
key of its own type and succeeds. The block of a call is then known completely:
it sets or removes the set of its client key, and in the hashes of its rooms the
fields of that name. Everything else stays as it was.
-/

namespace ChatScale.PresenceBlocks

open ChatScale.ByteText ChatScale.RedisKeyspace ChatScale.PresenceModel

set_option autoImplicit false

section Scope

def keyOf (pair : Bytes × Bytes) : Bytes := clientKey pair.1 pair.2

/-- The clients on their instances and the rooms in use. Their keys are pairwise
distinct. -/
structure Scope where
  pairs : Set (Bytes × Bytes)
  rooms : Set Bytes
  distinct : ∀ left ∈ pairs, ∀ right ∈ pairs, keyOf left = keyOf right → left = right
  apart : ∀ pair ∈ pairs, ∀ room ∈ rooms, keyOf pair ≠ roomKey room

/-- A `Connect` names at least one room. -/
def Within (scope : Scope) (request : Request) : Prop :=
  request.pair ∈ scope.pairs ∧
    match request with
    | .connect _ _ roomsId => roomsId ≠ [] ∧ ∀ room ∈ roomsId, room ∈ scope.rooms
    | _ => True

/-- No room key holds a set, no client key a hash, and a client key that is there
holds at least one room. -/
structure Typed (scope : Scope) (db : Keyspace) (now : Nat) : Prop where
  rooms : ∀ room ∈ scope.rooms, setAt db now (roomKey room) = none
  clients : ∀ pair ∈ scope.pairs, ∀ name, fieldAt db now (keyOf pair) name = none
  listed : ∀ pair ∈ scope.pairs, ∀ members expiry,
    setAt db now (keyOf pair) = some (members, expiry) →
      members ≠ [] ∧ ∀ room ∈ members, room ∈ scope.rooms

theorem empty_typed (scope : Scope) (now : Nat) : Typed scope (fun _ => none) now where
  rooms := fun _ _ => rfl
  clients := fun _ _ _ => rfl
  listed := by
    intro pair _ members expiry found
    cases found

theorem typed_later {scope : Scope} {db : Keyspace} {now later : Nat} (passed : now ≤ later)
    (typed : Typed scope db now) : Typed scope db later where
  rooms := by
    intro room listed
    rw [set_at_later passed, typed.rooms room listed, Option.filter_none]
  clients := by
    intro pair used name
    cases found : fieldAt db later (keyOf pair) name with
    | none => rfl
    | some field =>
        have before := field_at_earlier passed found
        rw [typed.clients pair used name] at before
        cases before
  listed := by
    intro pair used members expiry found
    exact typed.listed pair used members expiry (set_at_earlier passed found)

end Scope

section Reads

variable {now : Nat} {db : Keyspace} {key : Bytes}

/-- The rooms in a client key; none if there is no such key. -/
def roomsOf (db : Keyspace) (now : Nat) (key : Bytes) : List Bytes :=
  ((setAt db now key).map Prod.fst).getD []

theorem rooms_of_some {members : List Bytes} {expiry : Option Nat}
    (found : setAt db now key = some (members, expiry)) : roomsOf db now key = members := by
  rw [roomsOf, found]
  rfl

theorem rooms_of_none (absent : setAt db now key = none) : roomsOf db now key = [] := by
  rw [roomsOf, absent]
  rfl

/-- A hash that is there has a live field. -/
theorem hash_has_field {fields : Fields} {expiry : Option Nat}
    (found : entryAt db now key = some ⟨.hash fields, expiry⟩) :
    ∃ name field, fieldAt db now key name = some field := by
  have kept := (Option.filter_eq_some_iff.mp found).2
  rw [Bool.and_eq_true, inhabited, Bool.not_eq_true', List.isEmpty_eq_false_iff] at kept
  rcases List.exists_mem_of_ne_nil _ kept.2 with ⟨⟨name, value⟩, listed⟩
  rcases mem_live_fields.mp listed with ⟨field, live, _⟩
  exact ⟨name, field, (field_at_of_hash found).trans live⟩

theorem smembers_rooms (clean : ∀ name, fieldAt db now key name = none) :
    smembers now db key = .ok (roomsOf db now key) := by
  rw [smembers]
  split
  · rename_i absent
    rw [rooms_of_none (set_at_absent absent)]
  · rename_i members expiry found
    rw [rooms_of_some (set_at_of_set found)]
  · rename_i fields expiry found
    rcases hash_has_field found with ⟨name, field, present⟩
    rw [clean name] at present
    cases present

theorem read_rooms_answered (clean : ∀ name, fieldAt db now key name = none) :
    readRooms now db true key = some (roomsOf db now key) := by
  rw [readRooms, if_pos rfl, smembers_rooms clean]
  rfl

end Reads

section Blocks

variable {now : Nat} {db : Keyspace} {clientID instanceName : Bytes} {roomsId : List Bytes}

/-- A block succeeds and leaves these views. -/
structure Yields (now : Nat) (result : Keyspace × Bool)
    (sets : Bytes → Option (List Bytes × Option Nat)) (fields : Bytes → Bytes → Option Field) :
    Prop where
  success : result.2 = true
  sets : ∀ other, setAt result.1 now other = sets other
  fields : ∀ other name, fieldAt result.1 now other name = fields other name

/-- The fields of a client key in the hashes of the rooms. -/
def Covers (roomsId : List Bytes) (key other name : Bytes) : Prop :=
  name = key ∧ other ∈ roomsId.map roomKey

instance (roomsId : List Bytes) (key other name : Bytes) :
    Decidable (Covers roomsId key other name) := inferInstanceAs (Decidable (_ ∧ _))

/-- The block of a call: the set of its client key becomes `own`, and its fields
in the hashes of the rooms become `field`. -/
abbrev Writes (now : Nat) (db : Keyspace) (result : Keyspace × Bool) (key : Bytes)
    (roomsId : List Bytes) (own : Option (List Bytes × Option Nat)) (field : Option Field) : Prop :=
  Yields now result (fun other => if other = key then own else setAt db now other)
    (fun other name => if Covers roomsId key other name then field else fieldAt db now other name)

theorem hset_succeeds {key name value : Bytes} (typed : setAt db now key = none) :
    (hset now db key name value).2 = true := by
  cases stored : (hset now db key name value).2 with
  | true => rfl
  | false =>
      rcases hset_fails stored with ⟨members, expiry, found⟩
      rw [set_at_of_set found] at typed
      cases typed

theorem hdel_succeeds {key name : Bytes} (typed : setAt db now key = none) :
    (hdel now db key name).2 = true := by
  rw [hdel]
  split
  · rfl
  · rfl
  · rename_i members expiry found
    rw [set_at_of_set found] at typed
    cases typed

theorem save_room_succeeds {room : Bytes} (typed : setAt db now (roomKey room) = none) :
    (runAll now db (saveRoom clientID instanceName room)).2 = true := by
  have stored : (hset now db (roomKey room) (clientKey clientID instanceName) instanceName).2 =
      true := hset_succeeds typed
  have present := (hset_leaves now db (roomKey room) (clientKey clientID instanceName)
    instanceName).fields stored (roomKey room) (clientKey clientID instanceName)
  rw [if_pos ⟨rfl, rfl⟩] at present
  simp only [saveRoom, runAll, Command.run, stored, hexpire_succeeds present, Bool.and_self]

theorem covers_cons {first : Bytes} {rest : List Bytes} {key other name : Bytes} :
    Covers (first :: rest) key other name ↔
      other = roomKey first ∧ name = key ∨ Covers rest key other name := by
  rw [Covers, List.map_cons, List.mem_cons, and_or_left, and_comm (b := other = _)]
  exact Iff.rfl

theorem ite_covers_cons {first : Bytes} {rest : List Bytes} {key other name : Bytes}
    (new old : Option Field) :
    (if Covers rest key other name then new
      else if other = roomKey first ∧ name = key then new else old) =
      if Covers (first :: rest) key other name then new else old := by
  by_cases later : Covers rest key other name
  · rw [if_pos later, if_pos (covers_cons.mpr (.inr later))]
  · rw [if_neg later]
    by_cases here : other = roomKey first ∧ name = key
    · rw [if_pos here, if_pos (covers_cons.mpr (.inl here))]
    · rw [if_neg here, if_neg fun covered => (covers_cons.mp covered).elim here later]

theorem save_rooms_yields (typed : ∀ room ∈ roomsId, setAt db now (roomKey room) = none) :
    Yields now (runAll now db (saveRooms clientID instanceName roomsId)) (setAt db now)
      (fun other name => if Covers roomsId (clientKey clientID instanceName) other name then
          some ⟨instanceName, some (now + connTTL)⟩
        else fieldAt db now other name) := by
  induction roomsId generalizing db with
  | nil =>
      refine ⟨rfl, fun _ => rfl, fun other name => ?_⟩
      rw [if_neg fun covered => List.not_mem_nil covered.2]
      rfl
  | cons first rest induction =>
      have own := typed first List.mem_cons_self
      have sets : ∀ other,
          setAt (runAll now db (saveRoom clientID instanceName first)).1 now other =
            setAt db now other := by
        intro other
        apply run_all_set_kept
        intro command listed
        simp only [saveRoom, List.mem_cons, List.not_mem_nil, or_false] at listed
        rcases listed with rfl | rfl <;> rfl
      have others : ∀ room ∈ rest, setAt (runAll now db
          (saveRoom clientID instanceName first)).1 now (roomKey room) = none := by
        intro room listed
        rw [sets]
        exact typed room (List.mem_cons_of_mem _ listed)
      have remaining := induction others
      rw [saveRooms, List.flatMap_cons, run_all_append]
      refine ⟨?_, fun other => (remaining.sets other).trans (sets other), fun other name => ?_⟩
      · rw [Bool.and_eq_true]
        exact ⟨save_room_succeeds own, remaining.success⟩
      · refine (remaining.fields other name).trans ?_
        rcases save_room_cases now db clientID instanceName first with ⟨_, fields⟩ | ⟨failed, _⟩
        · rw [fields, ite_covers_cons]
        · cases failed.symm.trans (save_room_succeeds own)

/-- `EXPIRE` of the client key changes no field. -/
theorem ping_writes (typed : ∀ room ∈ roomsId, setAt db now (roomKey room) = none) :
    Writes now db (exec now db (pingBlock clientID instanceName roomsId))
      (clientKey clientID instanceName) roomsId
      ((setAt db now (clientKey clientID instanceName)).map fun old =>
        (old.1, some (now + connTTL)))
      (some ⟨instanceName, some (now + connTTL)⟩) := by
  have saved : Yields now (runAll now db (saveRooms clientID instanceName roomsId)) _ _ :=
    save_rooms_yields typed
  rw [exec, if_pos (ping_complete clientID instanceName roomsId), pingBlock, run_all_append]
  generalize runAll now db (saveRooms clientID instanceName roomsId) = middle at saved ⊢
  have expired := expire_leaves now middle.1 (clientKey clientID instanceName) connTTL
  have done : (expire now middle.1 (clientKey clientID instanceName) connTTL).2 = true :=
    expire_succeeds _ _
  simp only [runAll, Command.run]
  refine ⟨?_, fun other => ?_, fun other name => ?_⟩
  · simp only [saved.success, done, Bool.and_self]
  · rw [expired.sets done, saved.sets, saved.sets]
  · rw [expired.fields done, saved.fields]

theorem connect_complete (named : roomsId ≠ []) :
    (connectBlock clientID instanceName roomsId).all Command.isComplete = true := by
  rw [List.all_eq_true]
  intro command listed
  rcases List.mem_append.mp listed with saved | client
  · have complete := ping_complete clientID instanceName roomsId
    rw [pingBlock, List.all_append, Bool.and_eq_true, List.all_eq_true] at complete
    exact complete.1 command saved
  · simp only [saveClient, List.mem_cons, List.not_mem_nil, or_false] at client
    rcases client with rfl | rfl | rfl
    · rfl
    · rw [Command.isComplete, Bool.not_eq_true', List.isEmpty_eq_false_iff]
      exact named
    · rfl

/-- `DEL` of a client key removes no hash. -/
theorem save_client_yields (clean : ∀ name, fieldAt db now (clientKey clientID instanceName) name =
    none) :
    Yields now (runAll now db (saveClient clientID instanceName roomsId))
      (fun other => if other = clientKey clientID instanceName then
          some (roomsId.dedup, some (now + connTTL))
        else setAt db now other)
      (fieldAt db now) := by
  generalize ownIs : clientKey clientID instanceName = own at clean ⊢
  have absent : entryAt (put db own none) now own = none := entry_at_put none
  have added : sadd now (put db own none) own roomsId =
      (put (put db own none) own (some ⟨.set roomsId.dedup, none⟩), true) := by
    rw [sadd, absent]
  simp only [saveClient, ownIs, runAll, Command.run, added]
  generalize stored : put (put db own none) own (some ⟨.set roomsId.dedup, none⟩) = written
  have expired := expire_leaves now written own connTTL
  have done : (expire now written own connTTL).2 = true := expire_succeeds _ _
  refine ⟨?_, fun other => ?_, fun other name => ?_⟩
  · simp only [done, Bool.and_self]
  · rw [expired.sets done, ← stored]
    by_cases same : other = own
    · rw [if_pos same, if_pos same, set_at_put_set _ rfl, Option.map_some]
    · rw [if_neg same, if_neg same, set_at_put_other _ same, set_at_put_other _ same]
  · rw [expired.fields done, ← stored]
    by_cases same : other = own
    · rw [same, field_at_put_set, clean]
    · rw [field_at_put_other _ same, field_at_put_other _ same]

theorem not_covered (apart : ∀ room ∈ roomsId, clientKey clientID instanceName ≠ roomKey room)
    (key name : Bytes) : ¬ Covers roomsId key (clientKey clientID instanceName) name := by
  intro covered
  rcases List.mem_map.mp covered.2 with ⟨room, listed, same⟩
  exact apart room listed same.symm

theorem connect_writes (named : roomsId ≠ [])
    (typed : ∀ room ∈ roomsId, setAt db now (roomKey room) = none)
    (clean : ∀ name, fieldAt db now (clientKey clientID instanceName) name = none)
    (apart : ∀ room ∈ roomsId, clientKey clientID instanceName ≠ roomKey room) :
    Writes now db (exec now db (connectBlock clientID instanceName roomsId))
      (clientKey clientID instanceName) roomsId (some (roomsId.dedup, some (now + connTTL)))
      (some ⟨instanceName, some (now + connTTL)⟩) := by
  have saved : Yields now (runAll now db (saveRooms clientID instanceName roomsId)) _ _ :=
    save_rooms_yields typed
  have still : ∀ name, fieldAt (runAll now db (saveRooms clientID instanceName roomsId)).1 now
      (clientKey clientID instanceName) name = none := by
    intro name
    rw [saved.fields, if_neg (not_covered apart _ _), clean]
  have client : Yields now (runAll now _ (saveClient clientID instanceName roomsId)) _ _ :=
    save_client_yields still
  rw [exec, if_pos (connect_complete named), connectBlock, run_all_append]
  refine ⟨?_, fun other => ?_, fun other name => ?_⟩
  · rw [saved.success, client.success, Bool.and_self]
  · exact (client.sets other).trans (by rw [saved.sets])
  · exact (client.fields other name).trans (saved.fields other name)

theorem remove_rooms_yields (key : Bytes)
    (typed : ∀ room ∈ roomsId, setAt db now (roomKey room) = none) :
    Yields now (runAll now db (roomsId.map fun room => .hdel (roomKey room) key)) (setAt db now)
      (fun other name => if Covers roomsId key other name then none
        else fieldAt db now other name) := by
  induction roomsId generalizing db with
  | nil =>
      refine ⟨rfl, fun _ => rfl, fun other name => ?_⟩
      rw [if_neg fun covered => List.not_mem_nil covered.2]
      rfl
  | cons first rest induction =>
      have done : (hdel now db (roomKey first) key).2 = true :=
        hdel_succeeds (typed first List.mem_cons_self)
      have removed := hdel_leaves now db (roomKey first) key
      have others : ∀ room ∈ rest, setAt (hdel now db (roomKey first) key).1 now (roomKey room) =
          none := by
        intro room listed
        rw [removed.sets done]
        exact typed room (List.mem_cons_of_mem _ listed)
      have remaining := induction others
      simp only [List.map_cons, runAll, Command.run]
      refine ⟨?_, fun other => ?_, fun other name => ?_⟩
      · simp only [done, remaining.success, Bool.and_self]
      · rw [remaining.sets, removed.sets done]
      · rw [remaining.fields, removed.fields done, ite_covers_cons]

theorem disconnect_complete :
    (disconnectBlock clientID instanceName roomsId).all Command.isComplete = true := by
  rw [disconnectBlock, List.all_cons, Bool.and_eq_true, List.all_eq_true]
  refine ⟨rfl, fun command listed => ?_⟩
  rcases List.mem_map.mp listed with ⟨room, _, rfl⟩
  rfl

theorem disconnect_writes (typed : ∀ room ∈ roomsId, setAt db now (roomKey room) = none)
    (clean : ∀ name, fieldAt db now (clientKey clientID instanceName) name = none) :
    Writes now db (exec now db (disconnectBlock clientID instanceName roomsId))
      (clientKey clientID instanceName) roomsId none none := by
  have deleted := del_leaves now db (clientKey clientID instanceName)
  have others : ∀ room ∈ roomsId, setAt (put db (clientKey clientID instanceName) none) now
      (roomKey room) = none := by
    intro room listed
    rw [deleted.sets rfl, typed room listed, ite_self]
  have removed := remove_rooms_yields (clientKey clientID instanceName) others
  rw [exec, if_pos disconnect_complete, disconnectBlock]
  simp only [runAll, Command.run]
  refine ⟨?_, fun other => ?_, fun other name => ?_⟩
  · rw [removed.success, Bool.and_self]
  · rw [removed.sets, deleted.sets rfl]
  · rw [removed.fields, deleted.fields rfl]
    by_cases own : other = clientKey clientID instanceName
    · rw [if_pos own, own, clean]
    · rw [if_neg own]

end Blocks

section Calls

variable {scope : Scope} {reads now : Nat} {db : Keyspace} {request : Request}

/-- The rooms whose hashes a call writes to. -/
def roomsWritten (reads : Nat) (db : Keyspace) : Request → List Bytes
  | .connect _ _ roomsId => roomsId
  | .disconnect clientID instanceName => roomsOf db reads (clientKey clientID instanceName)
  | .ping clientID instanceName => roomsOf db reads (clientKey clientID instanceName)

/-- The set a call leaves in its client key. -/
def setWritten (now : Nat) (db : Keyspace) : Request → Option (List Bytes × Option Nat)
  | .connect _ _ roomsId => some (roomsId.dedup, some (now + connTTL))
  | .disconnect _ _ => none
  | .ping clientID instanceName =>
      (setAt db now (clientKey clientID instanceName)).map fun old => (old.1, some (now + connTTL))

/-- The field a call leaves in the hashes it writes to. -/
def fieldWritten (now : Nat) : Request → Option Field
  | .connect _ instanceName _ => some ⟨instanceName, some (now + connTTL)⟩
  | .disconnect _ _ => none
  | .ping _ instanceName => some ⟨instanceName, some (now + connTTL)⟩

theorem request_key (request : Request) : request.key = keyOf request.pair := by
  cases request <;> rfl

theorem rooms_of_known (typed : Typed scope db reads) {pair : Bytes × Bytes}
    (used : pair ∈ scope.pairs) (room : Bytes) (listed : room ∈ roomsOf db reads (keyOf pair)) :
    room ∈ scope.rooms := by
  cases found : setAt db reads (keyOf pair) with
  | none =>
      rw [rooms_of_none found] at listed
      cases listed
  | some stored =>
      rw [rooms_of_some found] at listed
      exact (typed.listed pair used _ _ found).2 room listed

theorem rooms_written_known (typed : Typed scope db reads) (within : Within scope request)
    (room : Bytes) (listed : room ∈ roomsWritten reads db request) : room ∈ scope.rooms := by
  cases request with
  | connect clientID instanceName roomsId => exact within.2.2 room listed
  | disconnect clientID instanceName => exact rooms_of_known typed within.1 room listed
  | ping clientID instanceName => exact rooms_of_known typed within.1 room listed

/-- A client key without rooms is not there. -/
theorem no_rooms_absent (typed : Typed scope db reads) {pair : Bytes × Bytes}
    (used : pair ∈ scope.pairs) (none : roomsOf db reads (keyOf pair) = []) :
    setAt db reads (keyOf pair) = Option.none := by
  cases found : setAt db reads (keyOf pair) with
  | none => rfl
  | some stored =>
      rw [rooms_of_some found] at none
      exact absurd none (typed.listed pair used _ _ found).1

theorem nothing_writes {key : Bytes} (absent : setAt db now key = none) :
    Writes now db (db, true) key [] none none where
  success := rfl
  sets := by
    intro other
    by_cases own : other = key
    · rw [if_pos own, own, absent]
    · rw [if_neg own]
  fields := by
    intro other name
    rw [if_neg fun covered => List.not_mem_nil covered.2]

/-- A call succeeds, and its writes are known. -/
theorem request_writes (passed : reads ≤ now) (typed : Typed scope db reads)
    (within : Within scope request) :
    Writes now db (request.run reads now db) request.key (roomsWritten reads db request)
      (setWritten now db request) (fieldWritten now request) := by
  have still := typed_later passed typed
  have hashes : ∀ room ∈ roomsWritten reads db request, setAt db now (roomKey room) = none :=
    fun room listed => still.rooms room (rooms_written_known typed within room listed)
  have clean := still.clients request.pair within.1
  have read := smembers_rooms (typed.clients request.pair within.1)
  cases request with
  | connect clientID instanceName roomsId =>
      exact connect_writes within.2.1 hashes clean
        fun room listed => scope.apart _ within.1 room (within.2.2 room listed)
  | disconnect clientID instanceName =>
      change smembers reads db (clientKey clientID instanceName) =
        .ok (roomsOf db reads (clientKey clientID instanceName)) at read
      rw [Request.run, read]
      simp only [roomsWritten] at hashes ⊢
      cases rooms : roomsOf db reads (clientKey clientID instanceName) with
      | nil =>
          -- nothing was read: the client key is gone already, and the call ends there
          have absent : setAt db reads (clientKey clientID instanceName) = none :=
            no_rooms_absent typed within.1 rooms
          have gone : setAt db now (clientKey clientID instanceName) = none := by
            rw [set_at_later passed, absent, Option.filter_none]
          exact nothing_writes gone
      | cons first rest =>
          rw [rooms] at hashes
          exact disconnect_writes hashes clean
  | ping clientID instanceName =>
      change smembers reads db (clientKey clientID instanceName) =
        .ok (roomsOf db reads (clientKey clientID instanceName)) at read
      rw [Request.run, read]
      exact ping_writes hashes

theorem exec_persistent {key : Bytes} {commands : List Command}
    (foreign : ∀ command ∈ commands, Foreign key command) (persistent : Persistent db key) :
    Persistent (exec now db commands).1 key := by
  rw [exec]
  split_ifs
  · exact run_all_persistent (fun command listed => (foreign command listed).1) persistent
  · exact persistent

/-- `EXPIRE` is for client keys, so the hashes of the rooms get no expiry. -/
theorem request_persistent {key : Bytes} (differ : request.key ≠ key)
    (persistent : Persistent db key) : Persistent (request.run reads now db).1 key := by
  cases request with
  | connect clientID instanceName roomsId =>
      exact exec_persistent (connect_foreign differ) persistent
  | disconnect clientID instanceName =>
      rw [Request.run]
      split
      · exact persistent
      · exact persistent
      · exact exec_persistent (disconnect_foreign differ) persistent
  | ping clientID instanceName => exact exec_persistent (ping_foreign differ) persistent

/-- Within the scope, types stay as they are. -/
theorem writes_typed {result : Keyspace × Bool} {pair : Bytes × Bytes} {roomsId : List Bytes}
    {own : Option (List Bytes × Option Nat)} {field : Option Field}
    (typed : Typed scope db now) (used : pair ∈ scope.pairs)
    (writes : Writes now db result (keyOf pair) roomsId own field)
    (known : ∀ room ∈ roomsId, room ∈ scope.rooms)
    (holds : ∀ members expiry, own = some (members, expiry) →
      members ≠ [] ∧ ∀ room ∈ members, room ∈ scope.rooms) :
    Typed scope result.1 now where
  rooms := by
    intro room listed
    rw [writes.sets, if_neg fun same => scope.apart pair used room listed same.symm]
    exact typed.rooms room listed
  clients := by
    intro other among name
    rw [writes.fields, if_neg]
    · exact typed.clients other among name
    · intro covered
      rcases List.mem_map.mp covered.2 with ⟨room, listed, same⟩
      exact scope.apart other among room (known room listed) same.symm
  listed := by
    intro other among members expiry found
    rw [writes.sets] at found
    split_ifs at found
    · exact holds members expiry found
    · exact typed.listed other among members expiry found

/-- What a call leaves in its client key are rooms whose hashes it writes to,
with the expiry it gives the fields. -/
theorem set_written_covered (passed : reads ≤ now)
    {members : List Bytes} {expiry : Option Nat}
    (written : setWritten now db request = some (members, expiry)) (room : Bytes)
    (listed : room ∈ members) :
    room ∈ roomsWritten reads db request ∧
      fieldWritten now request = some ⟨request.pair.2, expiry⟩ := by
  cases request with
  | connect clientID instanceName roomsId =>
      cases written
      exact ⟨List.mem_dedup.mp listed, rfl⟩
  | disconnect clientID instanceName => cases written
  | ping clientID instanceName =>
      -- the key was there when the ping read it, with the same rooms
      rcases Option.map_eq_some_iff.mp written with ⟨old, found, same⟩
      cases same
      refine ⟨?_, rfl⟩
      rw [roomsWritten, rooms_of_some (set_at_earlier passed found)]
      exact listed

theorem set_written_rooms (passed : reads ≤ now)
    (typed : Typed scope db reads) (within : Within scope request) (members : List Bytes)
    (expiry : Option Nat) (written : setWritten now db request = some (members, expiry)) :
    members ≠ [] ∧ ∀ room ∈ members, room ∈ scope.rooms := by
  refine ⟨?_, fun room listed => rooms_written_known typed within room
    (set_written_covered passed written room listed).1⟩
  cases request with
  | connect clientID instanceName roomsId =>
      cases written
      intro none
      exact within.2.1 ((List.dedup_eq_nil _).mp none)
  | disconnect clientID instanceName => cases written
  | ping clientID instanceName =>
      rcases Option.map_eq_some_iff.mp written with ⟨old, found, same⟩
      cases same
      exact (typed.listed _ within.1 old.1 old.2 (set_at_earlier passed found)).1

theorem request_typed (passed : reads ≤ now) (typed : Typed scope db reads)
    (within : Within scope request) : Typed scope (request.run reads now db).1 now := by
  have writes := request_writes passed typed within
  rw [request_key] at writes
  exact writes_typed (typed_later passed typed) within.1 writes (rooms_written_known typed within)
    (set_written_rooms passed typed within)

end Calls

section Samples

def samplePairs : List (Bytes × Bytes) :=
  [(ascii "c1", ascii "inst-a"), (ascii "c2", ascii "inst-b")]

def sampleRooms : List Bytes := [ascii "r1", ascii "r2", ascii "r3"]

def sampleScope : Scope where
  pairs := { pair | pair ∈ samplePairs }
  rooms := { room | room ∈ sampleRooms }
  distinct := by
    show ∀ left ∈ samplePairs, ∀ right ∈ samplePairs, keyOf left = keyOf right → left = right
    decide +kernel
  apart := by
    show ∀ pair ∈ samplePairs, ∀ room ∈ sampleRooms, keyOf pair ≠ roomKey room
    decide +kernel

instance (request : Request) : Decidable (Within sampleScope request) :=
  match request with
  | .connect clientID instanceName roomsId =>
      inferInstanceAs (Decidable ((clientID, instanceName) ∈ samplePairs ∧ roomsId ≠ [] ∧
        ∀ room ∈ roomsId, room ∈ sampleRooms))
  | .disconnect clientID instanceName =>
      inferInstanceAs (Decidable ((clientID, instanceName) ∈ samplePairs ∧ True))
  | .ping clientID instanceName =>
      inferInstanceAs (Decidable ((clientID, instanceName) ∈ samplePairs ∧ True))

end Samples

end ChatScale.PresenceBlocks
