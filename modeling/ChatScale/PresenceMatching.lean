import Mathlib.Logic.Function.Basic
import ChatScale.PresenceBlocks

/-!
# Two stores side by side

The contents of the store under interleaved calls, beside those under the same
calls one after the other. Each lemma takes one step of a call: what it writes in
the one store, what its sequential call writes in the other, and that the two
still match.
-/

namespace ChatScale.PresenceMatching

open ChatScale.ByteText ChatScale.RedisKeyspace ChatScale.PresenceModel
open ChatScale.PresenceBlocks

set_option autoImplicit false

section Contents

/-- The client sets and the room hashes, without their expiries. -/
@[ext]
structure Contents where
  members : Bytes → Option (List Bytes)
  value : Bytes → Bytes → Option Bytes

def contents (db : Keyspace) (now : Nat) : Contents where
  members := fun key => (setAt db now key).map Prod.fst
  value := fun key name => (fieldAt db now key name).map Field.value

def Contents.write (before : Contents) (key : Bytes) (roomsId : List Bytes)
    (own : Option (List Bytes)) (value : Option Bytes) : Contents where
  members := fun other => if other = key then own else before.members other
  value := fun other name =>
    if Covers roomsId key other name then value else before.value other name

variable {before : Contents} {key other name : Bytes} {roomsId : List Bytes}
  {own : Option (List Bytes)} {value : Option Bytes}

theorem write_members_own : (before.write key roomsId own value).members key = own := if_pos rfl

theorem write_members_other (differ : other ≠ key) :
    (before.write key roomsId own value).members other = before.members other := if_neg differ

theorem write_members_same :
    (before.write key roomsId (before.members key) value).members = before.members := by
  funext other
  by_cases same : other = key
  · rw [same, write_members_own]
  · rw [write_members_other same]

theorem write_value_covered (covered : Covers roomsId key other name) :
    (before.write key roomsId own value).value other name = value := if_pos covered

theorem write_value_other (uncovered : ¬ Covers roomsId key other name) :
    (before.write key roomsId own value).value other name = before.value other name :=
  if_neg uncovered

theorem write_nothing (absent : before.members key = none) :
    before.write key [] none none = before := by
  apply Contents.ext
  · rw [← absent, write_members_same]
  · funext other name
    exact write_value_other fun covered => List.not_mem_nil covered.2

theorem writes_contents {now : Nat} {db : Keyspace} {result : Keyspace × Bool}
    {own : Option (List Bytes × Option Nat)} {field : Option Field}
    (writes : Writes now db result key roomsId own field) :
    contents result.1 now =
      (contents db now).write key roomsId (own.map Prod.fst) (field.map Field.value) := by
  apply Contents.ext
  · funext other
    simp only [contents, Contents.write, writes.sets, apply_ite (Option.map Prod.fst)]
  · funext other name
    simp only [contents, Contents.write, writes.fields, apply_ite (Option.map Field.value)]

theorem contents_members (db : Keyspace) (now : Nat) (key : Bytes) :
    (contents db now).members key = (setAt db now key).map Prod.fst := rfl

theorem rooms_of_contents (db : Keyspace) (now : Nat) (key : Bytes) :
    roomsOf db now key = ((contents db now).members key).getD [] := rfl

end Contents

section Matching

variable {Call : Type} {requests : Call → Request} {rooms : Call → List Bytes}
  {actual serial : Contents} {clientID instanceName : Bytes} {id : Call}

/-- Equal keys belong to the same connection. -/
def KeysDistinct (requests : Call → Request) : Prop :=
  ∀ id other, (requests id).key = (requests other).key → (requests id).pair = (requests other).pair

/-- The rooms a `Disconnect` has read are those of its key, or nothing of them is
left. -/
def Finds (store : Contents) (key : Bytes) (read : List Bytes) : Prop :=
  store.members key = some read ∨
    store.members key = none ∧ ∀ room ∈ read, store.value (roomKey room) key = none

/-- The store of the interleaved calls beside that of the sequential order.
`rooms` has what each call has read and not acted on yet. A `Ping` that has read
is ahead in the sequential store. -/
structure Matches (requests : Call → Request) (rooms : Call → List Bytes)
    (actual serial : Contents) : Prop where
  members : serial.members = actual.members
  ahead : ∀ id clientID instanceName, requests id = .ping clientID instanceName →
    ∀ room ∈ rooms id,
      serial.value (roomKey room) (clientKey clientID instanceName) = some instanceName
  value : ∀ other name, (∀ id clientID instanceName, requests id = .ping clientID instanceName →
      ¬ Covers (rooms id) (clientKey clientID instanceName) other name) →
    serial.value other name = actual.value other name
  leaving : ∀ id clientID instanceName, requests id = .disconnect clientID instanceName →
    rooms id ≠ [] → Finds actual (clientKey clientID instanceName) (rooms id)
  pinging : ∀ id clientID instanceName, requests id = .ping clientID instanceName →
    actual.members (clientKey clientID instanceName) = none → rooms id = []

theorem same_pair (distinct : KeysDistinct requests) {id other : Call} {left right : Bytes × Bytes}
    (own : (requests id).pair = left) (theirs : (requests other).pair = right)
    (same : keyOf left = keyOf right) : left = right := by
  rw [← own, ← theirs] at same ⊢
  rw [← request_key, ← request_key] at same
  exact distinct id other same

theorem write_members_congr {key : Bytes} {left right : List Bytes} {own : Option (List Bytes)}
    {value : Option Bytes} (same : serial.members = actual.members) :
    (serial.write key left own value).members = (actual.write key right own value).members := by
  simp only [Contents.write, same]

theorem finds_other {store : Contents} {key written : Bytes} {read roomsId : List Bytes}
    {own : Option (List Bytes)} {value : Option Bytes} (differ : key ≠ written)
    (found : Finds store key read) : Finds (store.write written roomsId own value) key read := by
  rw [Finds, write_members_other differ]
  apply found.imp_right
  intro gone
  refine ⟨gone.1, fun room listed => ?_⟩
  rw [write_value_other fun covered => differ covered.1]
  exact gone.2 room listed

/-- A `Connect` writes the same in both stores. -/
theorem connect_matches (distinct : KeysDistinct requests)
    (matched : Matches requests rooms actual serial)
    (connecting : (requests id).pair = (clientID, instanceName)) (roomsId own : List Bytes)
    (inTurn : ∀ other, requests other = .disconnect clientID instanceName → rooms other = []) :
    Matches requests rooms
      (actual.write (clientKey clientID instanceName) roomsId (some own) (some instanceName))
      (serial.write (clientKey clientID instanceName) roomsId (some own) (some instanceName)) where
  members := write_members_congr matched.members
  ahead := by
    intro other client server request room listed
    by_cases covered : Covers roomsId (clientKey clientID instanceName) (roomKey room)
        (clientKey client server)
    · have same : (client, server) = (clientID, instanceName) :=
        same_pair distinct (congrArg Request.pair request) connecting covered.1
      cases same
      exact write_value_covered covered
    · rw [write_value_other covered]
      exact matched.ahead other client server request room listed
  value := by
    intro other name uncovered
    by_cases covered : Covers roomsId (clientKey clientID instanceName) other name
    · rw [write_value_covered covered, write_value_covered covered]
    · rw [write_value_other covered, write_value_other covered]
      exact matched.value other name uncovered
  leaving := by
    intro other client server request pending
    by_cases same : clientKey client server = clientKey clientID instanceName
    · have pair : (client, server) = (clientID, instanceName) :=
        same_pair distinct (congrArg Request.pair request) connecting same
      cases pair
      exact absurd (inTurn other request) pending
    · exact finds_other same (matched.leaving other client server request pending)
  pinging := by
    intro other client server request absent
    by_cases same : clientKey client server = clientKey clientID instanceName
    · rw [same, write_members_own] at absent
      cases absent
    · rw [write_members_other same] at absent
      exact matched.pinging other client server request absent

variable [DecidableEq Call]

theorem rooms_of_other {other : Call} {read : List Bytes} {left right : Request}
    (theirs : requests other = left) (own : requests id = right) (differ : left ≠ right) :
    Function.update rooms id read other = rooms other := by
  apply Function.update_of_ne
  intro same
  rw [same, own] at theirs
  exact differ theirs.symm

/-- Pings see nothing of what a `Disconnect` has read. -/
theorem update_disconnect (requested : requests id = .disconnect clientID instanceName)
    (read : List Bytes) {other : Call} {client server : Bytes}
    (request : requests other = .ping client server) :
    Function.update rooms id read other = rooms other := by
  apply rooms_of_other request requested
  intro same
  cases same

theorem disconnect_read_matches (matched : Matches requests rooms actual serial)
    (requested : requests id = .disconnect clientID instanceName) {read : List Bytes}
    (found : actual.members (clientKey clientID instanceName) = some read) :
    Matches requests (Function.update rooms id read) actual serial where
  members := matched.members
  ahead := by
    intro other client server request room listed
    rw [update_disconnect requested read request] at listed
    exact matched.ahead other client server request room listed
  value := by
    intro other name uncovered
    apply matched.value other name
    intro ping client server request
    have apart := uncovered ping client server request
    rw [update_disconnect requested read request] at apart
    exact apart
  leaving := by
    intro other client server request pending
    by_cases same : other = id
    · subst same
      rw [requested] at request
      cases request
      rw [Function.update_self]
      exact .inl found
    · rw [Function.update_of_ne same] at pending ⊢
      exact matched.leaving other client server request pending
  pinging := by
    intro other client server request absent
    rw [update_disconnect requested read request]
    exact matched.pinging other client server request absent

/-- Removing the fields of the rooms that were read, or of those that are there
now. -/
theorem remove_value {key other name : Bytes} {read : List Bytes} (found : Finds actual key read)
    (members : serial.members = actual.members)
    (same : serial.value other name = actual.value other name) :
    (serial.write key ((serial.members key).getD []) none none).value other name =
      (actual.write key read none none).value other name := by
  rw [members]
  rcases found with present | ⟨absent, removed⟩
  · rw [present, Option.getD_some]
    by_cases covered : Covers read key other name
    · rw [write_value_covered covered, write_value_covered covered]
    · rw [write_value_other covered, write_value_other covered, same]
  · rw [absent, Option.getD_none, write_value_other fun covered => List.not_mem_nil covered.2, same]
    by_cases covered : Covers read key other name
    · rcases List.mem_map.mp covered.2 with ⟨room, listed, rfl⟩
      rw [write_value_covered covered, covered.1, removed room listed]
    · rw [write_value_other covered]

/-- Of two `Disconnect` calls that have read, the later one finds nothing. -/
theorem finds_removed {key : Bytes} {read other : List Bytes} (found : Finds actual key read)
    (their : Finds actual key other) : Finds (actual.write key read none none) key other := by
  refine .inr ⟨write_members_own, fun room listed => ?_⟩
  by_cases covered : Covers read key (roomKey room) key
  · rw [write_value_covered covered]
  · rw [write_value_other covered]
    rcases their with present | ⟨_, removed⟩
    · rcases found with here | ⟨absent, _⟩
      · rw [present, Option.some.injEq] at here
        subst here
        exact absurd ⟨rfl, List.mem_map_of_mem listed⟩ covered
      · rw [present] at absent
        cases absent
    · exact removed room listed

/-- The block of a `Disconnect` that nothing has overtaken removes what its
sequential call removes. -/
theorem disconnect_matches (distinct : KeysDistinct requests)
    (matched : Matches requests rooms actual serial)
    (requested : requests id = .disconnect clientID instanceName) (pending : rooms id ≠ [])
    (inTurn : ∀ other, requests other = .ping clientID instanceName → rooms other = []) :
    Matches requests (Function.update rooms id [])
      (actual.write (clientKey clientID instanceName) (rooms id) none none)
      (serial.write (clientKey clientID instanceName)
        ((serial.members (clientKey clientID instanceName)).getD []) none none) where
  members := write_members_congr matched.members
  ahead := by
    intro other client server request room listed
    rw [update_disconnect requested [] request] at listed
    rw [write_value_other]
    · exact matched.ahead other client server request room listed
    · intro covered
      have pair : (client, server) = (clientID, instanceName) :=
        same_pair distinct (congrArg Request.pair request) (congrArg Request.pair requested)
          covered.1
      cases pair
      rw [inTurn other request] at listed
      cases listed
  value := by
    intro other name uncovered
    apply remove_value (matched.leaving id clientID instanceName requested pending) matched.members
    apply matched.value other name
    intro ping client server request
    have apart := uncovered ping client server request
    rw [update_disconnect requested [] request] at apart
    exact apart
  leaving := by
    intro other client server request still
    have different : other ≠ id := by
      intro same
      rw [same, Function.update_self] at still
      exact still rfl
    rw [Function.update_of_ne different] at still ⊢
    have theirs := matched.leaving other client server request still
    by_cases same : clientKey client server = clientKey clientID instanceName
    · rw [same] at theirs ⊢
      exact finds_removed (matched.leaving id clientID instanceName requested pending) theirs
    · exact finds_other same theirs
  pinging := by
    intro other client server request absent
    rw [update_disconnect requested [] request]
    by_cases same : clientKey client server = clientKey clientID instanceName
    · have pair : (client, server) = (clientID, instanceName) :=
        same_pair distinct (congrArg Request.pair request) (congrArg Request.pair requested) same
      cases pair
      exact inTurn other request
    · rw [write_members_other same] at absent
      exact matched.pinging other client server request absent

/-- Disconnects see nothing of what a `Ping` has read. -/
theorem update_ping (requested : requests id = .ping clientID instanceName)
    (read : List Bytes) {other : Call} {client server : Bytes}
    (request : requests other = .disconnect client server) :
    Function.update rooms id read other = rooms other := by
  apply rooms_of_other request requested
  intro same
  cases same

/-- In the sequential order a `Ping` writes when it reads. -/
theorem ping_read_matches (distinct : KeysDistinct requests)
    (matched : Matches requests rooms actual serial)
    (requested : requests id = .ping clientID instanceName) (idle : rooms id = []) :
    Matches requests (Function.update rooms id
        ((serial.members (clientKey clientID instanceName)).getD [])) actual
      (serial.write (clientKey clientID instanceName)
        ((serial.members (clientKey clientID instanceName)).getD [])
        (serial.members (clientKey clientID instanceName)) (some instanceName)) where
  members := write_members_same.trans matched.members
  ahead := by
    intro other client server request room listed
    by_cases covered : Covers ((serial.members (clientKey clientID instanceName)).getD [])
        (clientKey clientID instanceName) (roomKey room) (clientKey client server)
    · have pair : (client, server) = (clientID, instanceName) :=
        same_pair distinct (congrArg Request.pair request) (congrArg Request.pair requested)
          covered.1
      cases pair
      exact write_value_covered covered
    · rw [write_value_other covered]
      by_cases same : other = id
      · subst same
        rw [requested] at request
        cases request
        rw [Function.update_self] at listed
        exact absurd ⟨rfl, List.mem_map_of_mem listed⟩ covered
      · rw [Function.update_of_ne same] at listed
        exact matched.ahead other client server request room listed
  value := by
    intro other name uncovered
    have own := uncovered id clientID instanceName requested
    rw [Function.update_self] at own
    rw [write_value_other own]
    apply matched.value other name
    intro ping client server request
    by_cases same : ping = id
    · rw [same, idle]
      exact fun covered => List.not_mem_nil covered.2
    · have apart := uncovered ping client server request
      rw [Function.update_of_ne same] at apart
      exact apart
  leaving := by
    intro other client server request pending
    rw [update_ping requested _ request] at pending ⊢
    exact matched.leaving other client server request pending
  pinging := by
    intro other client server request absent
    by_cases same : other = id
    · subst same
      rw [requested] at request
      cases request
      rw [Function.update_self, matched.members, absent, Option.getD_none]
    · rw [Function.update_of_ne same]
      exact matched.pinging other client server request absent

/-- The block of a `Ping` brings the store up to the sequential one. -/
theorem ping_matches (matched : Matches requests rooms actual serial)
    (requested : requests id = .ping clientID instanceName) :
    Matches requests (Function.update rooms id [])
      (actual.write (clientKey clientID instanceName) (rooms id)
        (actual.members (clientKey clientID instanceName)) (some instanceName)) serial where
  members := matched.members.trans write_members_same.symm
  ahead := by
    intro other client server request room listed
    by_cases same : other = id
    · rw [same, Function.update_self] at listed
      cases listed
    · rw [Function.update_of_ne same] at listed
      exact matched.ahead other client server request room listed
  value := by
    intro other name uncovered
    by_cases covered : Covers (rooms id) (clientKey clientID instanceName) other name
    · rcases List.mem_map.mp covered.2 with ⟨room, listed, rfl⟩
      rw [write_value_covered covered, covered.1]
      exact matched.ahead id clientID instanceName requested room listed
    · rw [write_value_other covered]
      apply matched.value other name
      intro ping client server request
      by_cases same : ping = id
      · subst same
        rw [requested] at request
        cases request
        exact covered
      · have apart := uncovered ping client server request
        rw [Function.update_of_ne same] at apart
        exact apart
  leaving := by
    intro other client server request pending
    rw [update_ping requested _ request] at pending ⊢
    have found := matched.leaving other client server request pending
    by_cases same : clientKey client server = clientKey clientID instanceName
    · rw [same] at found ⊢
      rw [Finds, write_members_own]
      apply found.imp_right
      intro gone
      refine ⟨gone.1, fun room listed => ?_⟩
      -- without a client key the ping has read nothing
      rw [write_value_other, gone.2 room listed]
      rw [matched.pinging id clientID instanceName requested gone.1]
      exact fun covered => List.not_mem_nil covered.2
    · exact finds_other same found
  pinging := by
    intro other client server request absent
    rw [write_members_same] at absent
    by_cases same : other = id
    · rw [same, Function.update_self]
    · rw [Function.update_of_ne same]
      exact matched.pinging other client server request absent

end Matching

end ChatScale.PresenceMatching
