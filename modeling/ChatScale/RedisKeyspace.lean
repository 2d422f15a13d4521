import ChatScale.ByteText
import ChatScale.KeyedTable

/-!
# A Redis keyspace with sets, hashes and expiry

Keys and the fields of hashes may carry a time of expiry; what has expired is
gone at once. A command on a key of the wrong type fails and changes nothing.
The commands of a `MULTI` block run at one time, each of them whether or not an
earlier one failed; a command with too few arguments makes the server discard
the whole block. Everything a client can see is in the two views `setAt` and
`fieldAt`, and the commands are described by what they do to them.
-/

namespace ChatScale.RedisKeyspace

open ChatScale.ByteText ChatScale.KeyedTable

set_option autoImplicit false

structure Field where
  value : Bytes
  expiry : Option Nat
  deriving DecidableEq

abbrev Fields := AList fun _ : Bytes => Field

inductive Value where
  | set (members : List Bytes)
  | hash (fields : Fields)

structure Entry where
  value : Value
  expiry : Option Nat

abbrev Keyspace := Bytes → Option Entry

def alive (now : Nat) (expiry : Option Nat) : Bool := expiry.all fun time => decide (now ≤ time)

theorem alive_some {now time : Nat} : alive now (some time) = true ↔ now ≤ time :=
  decide_eq_true_iff

def liveFields (now : Nat) (fields : Fields) : List (Bytes × Bytes) :=
  (fields.entries.filter fun field => alive now field.2.expiry).map fun field =>
    (field.1, field.2.value)

/-- A hash goes with its last field. -/
def inhabited (now : Nat) : Value → Bool
  | .set _ => true
  | .hash fields => !(liveFields now fields).isEmpty

def entryAt (db : Keyspace) (now : Nat) (key : Bytes) : Option Entry :=
  (db key).filter fun entry => alive now entry.expiry && inhabited now entry.value

def liveField (now : Nat) (fields : Fields) (name : Bytes) : Option Field :=
  (fields.lookup name).filter fun field => alive now field.expiry

/-- The members of a set and the expiry of its key. -/
def setAt (db : Keyspace) (now : Nat) (key : Bytes) : Option (List Bytes × Option Nat) :=
  match entryAt db now key with
  | some ⟨.set members, expiry⟩ => some (members, expiry)
  | _ => none

def fieldAt (db : Keyspace) (now : Nat) (key name : Bytes) : Option Field :=
  match entryAt db now key with
  | some ⟨.hash fields, _⟩ => liveField now fields name
  | _ => none

section Commands

inductive Command where
  | hset (key name value : Bytes)
  | hexpire (key : Bytes) (ttl : Nat) (name : Bytes)
  | hdel (key name : Bytes)
  | sadd (key : Bytes) (members : List Bytes)
  | expire (key : Bytes) (ttl : Nat)
  | del (key : Bytes)

def put (db : Keyspace) (key : Bytes) (entry : Option Entry) : Keyspace :=
  Function.update db key entry

def hset (now : Nat) (db : Keyspace) (key name value : Bytes) : Keyspace × Bool :=
  match entryAt db now key with
  | none => (put db key (some ⟨.hash (AList.insert name ⟨value, none⟩ ∅), none⟩), true)
  | some ⟨.hash fields, expiry⟩ =>
      (put db key (some ⟨.hash (fields.insert name ⟨value, none⟩), expiry⟩), true)
  | some ⟨.set _, _⟩ => (db, false)

def hexpire (now : Nat) (db : Keyspace) (key : Bytes) (ttl : Nat) (name : Bytes) :
    Keyspace × Bool :=
  match entryAt db now key with
  | none => (db, true)
  | some ⟨.hash fields, expiry⟩ =>
      match liveField now fields name with
      | none => (db, true)
      | some field =>
          (put db key (some ⟨.hash (fields.insert name ⟨field.value, some (now + ttl)⟩), expiry⟩),
            true)
  | some ⟨.set _, _⟩ => (db, false)

def hdel (now : Nat) (db : Keyspace) (key name : Bytes) : Keyspace × Bool :=
  match entryAt db now key with
  | none => (db, true)
  | some ⟨.hash fields, expiry⟩ => (put db key (some ⟨.hash (fields.erase name), expiry⟩), true)
  | some ⟨.set _, _⟩ => (db, false)

def sadd (now : Nat) (db : Keyspace) (key : Bytes) (members : List Bytes) : Keyspace × Bool :=
  match entryAt db now key with
  | none => (put db key (some ⟨.set members.dedup, none⟩), true)
  | some ⟨.set old, expiry⟩ => (put db key (some ⟨.set (old ++ members).dedup, expiry⟩), true)
  | some ⟨.hash _, _⟩ => (db, false)

def expire (now : Nat) (db : Keyspace) (key : Bytes) (ttl : Nat) : Keyspace × Bool :=
  match entryAt db now key with
  | none => (db, true)
  | some entry => (put db key (some ⟨entry.value, some (now + ttl)⟩), true)

/-- The keyspace after a command, and whether it succeeded. -/
def Command.run (now : Nat) (db : Keyspace) : Command → Keyspace × Bool
  | .hset key name value => RedisKeyspace.hset now db key name value
  | .hexpire key ttl name => RedisKeyspace.hexpire now db key ttl name
  | .hdel key name => RedisKeyspace.hdel now db key name
  | .sadd key members => RedisKeyspace.sadd now db key members
  | .expire key ttl => RedisKeyspace.expire now db key ttl
  | .del key => (put db key none, true)

/-- The command has enough arguments to be queued. -/
def Command.isComplete : Command → Bool
  | .sadd _ members => !members.isEmpty
  | _ => true

def runAll (now : Nat) (db : Keyspace) : List Command → Keyspace × Bool
  | [] => (db, true)
  | command :: rest =>
      let first := command.run now db
      let others := runAll now first.1 rest
      (others.1, first.2 && others.2)

/-- A `MULTI` block, and whether none of its commands failed. -/
def exec (now : Nat) (db : Keyspace) (commands : List Command) : Keyspace × Bool :=
  if commands.all Command.isComplete then runAll now db commands else (db, false)

def smembers (now : Nat) (db : Keyspace) (key : Bytes) : Except Unit (List Bytes) :=
  match entryAt db now key with
  | none => .ok []
  | some ⟨.set members, _⟩ => .ok members
  | some ⟨.hash _, _⟩ => .error ()

def hgetall (now : Nat) (db : Keyspace) (key : Bytes) : Except Unit (List (Bytes × Bytes)) :=
  match entryAt db now key with
  | none => .ok []
  | some ⟨.hash fields, _⟩ => .ok (liveFields now fields)
  | some ⟨.set _, _⟩ => .error ()

end Commands

section Views

variable {now : Nat} {db : Keyspace} {key other name : Bytes}

theorem live_field_inhabited {fields : Fields} {field : Field}
    (live : liveField now fields name = some field) : inhabited now (.hash fields) = true := by
  obtain ⟨found, kept⟩ := Option.filter_eq_some_iff.mp live
  have listed : Sigma.mk name field ∈ fields.entries := AList.mem_lookup_iff.mp found
  have member : (name, field.value) ∈ liveFields now fields :=
    List.mem_map.mpr ⟨⟨name, field⟩, List.mem_filter.mpr ⟨listed, kept⟩, rfl⟩
  rw [inhabited, Bool.not_eq_true', List.isEmpty_eq_false_iff]
  exact List.ne_nil_of_mem member

theorem mem_live_fields {fields : Fields} {value : Bytes} :
    (name, value) ∈ liveFields now fields ↔
      ∃ field, liveField now fields name = some field ∧ field.value = value := by
  simp only [liveFields, List.mem_map, List.mem_filter, liveField, Option.filter_eq_some_iff]
  constructor
  · rintro ⟨⟨key, field⟩, ⟨listed, live⟩, same⟩
    cases same
    exact ⟨field, ⟨AList.mem_lookup_iff.mpr listed, live⟩, rfl⟩
  · rintro ⟨field, ⟨found, live⟩, rfl⟩
    exact ⟨⟨name, field⟩, ⟨AList.mem_lookup_iff.mp found, live⟩, rfl⟩

theorem mem_hgetall {fields : List (Bytes × Bytes)} (answered : hgetall now db key = .ok fields)
    {value : Bytes} : (name, value) ∈ fields ↔
      ∃ field, fieldAt db now key name = some field ∧ field.value = value := by
  unfold hgetall at answered
  rw [fieldAt]
  split at answered
  · rename_i absent
    cases answered
    rw [absent]
    exact ⟨nofun, nofun⟩
  · rename_i hash expiry found
    cases answered
    rw [found]
    exact mem_live_fields
  · cases answered

theorem entry_at_put_other (entry : Option Entry) (differ : other ≠ key) :
    entryAt (put db key entry) now other = entryAt db now other := by
  rw [entryAt, put, Function.update_of_ne differ, ← entryAt]

theorem entry_at_put (entry : Option Entry) :
    entryAt (put db key entry) now key =
      entry.filter fun entry => alive now entry.expiry && inhabited now entry.value := by
  rw [entryAt, put, Function.update_self]

theorem set_at_put_other (entry : Option Entry) (differ : other ≠ key) :
    setAt (put db key entry) now other = setAt db now other := by
  rw [setAt, entry_at_put_other entry differ, ← setAt]

theorem field_at_put_other (entry : Option Entry) (differ : other ≠ key) :
    fieldAt (put db key entry) now other name = fieldAt db now other name := by
  rw [fieldAt, entry_at_put_other entry differ, ← fieldAt]

theorem set_at_put_set (members : List Bytes) {expiry : Option Nat}
    (live : alive now expiry = true) :
    setAt (put db key (some ⟨.set members, expiry⟩)) now key = some (members, expiry) := by
  rw [setAt, entry_at_put, Option.filter_some, live]
  rfl

theorem field_at_put_set (members : List Bytes) (expiry : Option Nat) :
    fieldAt (put db key (some ⟨.set members, expiry⟩)) now key name = none := by
  rw [fieldAt, entry_at_put, Option.filter_some]
  split
  · rename_i fields _ kept
    split_ifs at kept
    cases kept
  · rfl

theorem set_at_put_hash (fields : Fields) (expiry : Option Nat) :
    setAt (put db key (some ⟨.hash fields, expiry⟩)) now key = none := by
  rw [setAt, entry_at_put, Option.filter_some]
  split
  · rename_i members _ kept
    split_ifs at kept
    cases kept
  · rfl

theorem field_at_put_hash (fields : Fields) {expiry : Option Nat}
    (live : alive now expiry = true) :
    fieldAt (put db key (some ⟨.hash fields, expiry⟩)) now key name =
      liveField now fields name := by
  rw [fieldAt, entry_at_put, Option.filter_some, live, Bool.true_and]
  cases some_live : liveField now fields name with
  | none =>
      split
      · rename_i other _ kept
        split_ifs at kept
        cases kept
        exact some_live
      · rfl
  | some field =>
      rw [live_field_inhabited some_live, if_pos rfl]
      exact some_live

theorem entry_at_alive {entry : Entry} (found : entryAt db now key = some entry) :
    alive now entry.expiry = true := by
  have kept := (Option.filter_eq_some_iff.mp found).2
  rw [Bool.and_eq_true] at kept
  exact kept.1

theorem field_at_alive {field : Field} (found : fieldAt db now key name = some field) :
    alive now field.expiry = true := by
  unfold fieldAt at found
  split at found
  · exact (Option.filter_eq_some_iff.mp found).2
  · cases found

theorem set_at_alive {old : List Bytes × Option Nat} (found : setAt db now key = some old) :
    alive now old.2 = true := by
  unfold setAt at found
  split at found
  · rename_i entry
    cases found
    exact entry_at_alive entry
  · cases found

theorem set_at_of_set {members : List Bytes} {expiry : Option Nat}
    (found : entryAt db now key = some ⟨.set members, expiry⟩) :
    setAt db now key = some (members, expiry) := by
  rw [setAt, found]

theorem set_at_of_hash {fields : Fields} {expiry : Option Nat}
    (found : entryAt db now key = some ⟨.hash fields, expiry⟩) : setAt db now key = none := by
  rw [setAt, found]

theorem field_at_of_set {members : List Bytes} {expiry : Option Nat}
    (found : entryAt db now key = some ⟨.set members, expiry⟩) :
    fieldAt db now key name = none := by
  rw [fieldAt, found]

theorem field_at_of_hash {fields : Fields} {expiry : Option Nat}
    (found : entryAt db now key = some ⟨.hash fields, expiry⟩) :
    fieldAt db now key name = liveField now fields name := by
  rw [fieldAt, found]

theorem set_at_absent (absent : entryAt db now key = none) : setAt db now key = none := by
  rw [setAt, absent]

theorem field_at_absent (absent : entryAt db now key = none) : fieldAt db now key name = none := by
  rw [fieldAt, absent]

end Views

section Effects

variable (now : Nat) (db : Keyspace) (key name value : Bytes) (ttl : Nat)

/-- What a command leaves of the views: `sets` and `fields` give them after a
success, and a failure changes nothing. -/
structure Leaves (result : Keyspace × Bool) (sets : Bytes → Option (List Bytes × Option Nat))
    (fields : Bytes → Bytes → Option Field) : Prop where
  sets : result.2 = true → ∀ other, setAt result.1 now other = sets other
  fields : result.2 = true → ∀ other field, fieldAt result.1 now other field = fields other field
  failed : result.2 = false → result.1 = db

theorem live_field_insert (fields : Fields) (field : Field) (other : Bytes)
    (live : alive now field.expiry = true) :
    liveField now (fields.insert name field) other =
      if other = name then some field else liveField now fields other := by
  rw [liveField, lookup_insert_ite]
  split_ifs
  · rw [Option.filter_some, live]
    rfl
  · rfl

theorem live_field_erase (fields : Fields) (other : Bytes) :
    liveField now (fields.erase name) other =
      if other = name then none else liveField now fields other := by
  rw [liveField, lookup_erase_ite]
  split_ifs
  · rfl
  · rfl

theorem leaves_unchanged (done : Bool) :
    Leaves now db (db, done) (setAt db now) (fieldAt db now) :=
  ⟨fun _ _ => rfl, fun _ _ _ => rfl, fun _ => rfl⟩

theorem leaves_failed (sets : Bytes → Option (List Bytes × Option Nat))
    (fields : Bytes → Bytes → Option Field) : Leaves now db (db, false) sets fields :=
  ⟨Bool.noConfusion, Bool.noConfusion, fun _ => rfl⟩

variable {now db key}

theorem leaves_congr {result : Keyspace × Bool}
    {sets otherSets : Bytes → Option (List Bytes × Option Nat)}
    {fields otherFields : Bytes → Bytes → Option Field}
    (leaves : Leaves now db result sets fields) (sameSets : ∀ other, sets other = otherSets other)
    (sameFields : ∀ other field, fields other field = otherFields other field) :
    Leaves now db result otherSets otherFields where
  sets := fun done other => (leaves.sets done other).trans (sameSets other)
  fields := fun done other field => (leaves.fields done other field).trans (sameFields other field)
  failed := leaves.failed

/-- A hash takes the place of what was no set. -/
theorem put_hash_leaves (fields : Fields) {expiry : Option Nat} (live : alive now expiry = true)
    (notSet : setAt db now key = none) :
    Leaves now db (put db key (some ⟨.hash fields, expiry⟩), true) (setAt db now)
      (fun other field => if other = key then liveField now fields field
        else fieldAt db now other field) := by
  refine ⟨fun _ other => ?_, fun _ other field => ?_, Bool.noConfusion⟩
  · by_cases own : other = key
    · rw [own, set_at_put_hash, notSet]
    · rw [set_at_put_other _ own]
  · by_cases own : other = key
    · rw [if_pos own, own, field_at_put_hash _ live]
    · rw [if_neg own, field_at_put_other _ own]

/-- A set takes the place of what was no hash. -/
theorem put_set_leaves (members : List Bytes) {expiry : Option Nat}
    (live : alive now expiry = true) (notHash : ∀ field, fieldAt db now key field = none) :
    Leaves now db (put db key (some ⟨.set members, expiry⟩), true)
      (fun other => if other = key then some (members, expiry) else setAt db now other)
      (fieldAt db now) := by
  refine ⟨fun _ other => ?_, fun _ other field => ?_, Bool.noConfusion⟩
  · by_cases own : other = key
    · rw [if_pos own, own, set_at_put_set _ live]
    · rw [if_neg own, set_at_put_other _ own]
  · by_cases own : other = key
    · rw [own, field_at_put_set, notHash]
    · rw [field_at_put_other _ own]

variable (now db key)

theorem hset_leaves : Leaves now db (hset now db key name value) (setAt db now)
    (fun other field => if other = key ∧ field = name then some ⟨value, none⟩
      else fieldAt db now other field) := by
  have written : ∀ (fields : Fields) (expiry : Option Nat), alive now expiry = true →
      setAt db now key = none →
      (∀ field, fieldAt db now key field = liveField now fields field) →
      Leaves now db (put db key (some ⟨.hash (fields.insert name ⟨value, none⟩), expiry⟩), true)
        (setAt db now) (fun other field => if other = key ∧ field = name then some ⟨value, none⟩
          else fieldAt db now other field) := by
    intro fields expiry live notSet same
    apply leaves_congr (put_hash_leaves _ live notSet) (fun _ => rfl)
    intro other field
    by_cases own : other = key
    · simp only [own, if_true, true_and, same, live_field_insert now name fields ⟨value, none⟩
        field rfl]
    · simp only [own, false_and, if_false]
  rw [hset]
  split
  · rename_i absent
    exact written ∅ none rfl (set_at_absent absent) (fun field => field_at_absent absent)
  · rename_i fields expiry found
    exact written fields expiry (entry_at_alive found) (set_at_of_hash found)
      (fun field => field_at_of_hash found)
  · exact leaves_failed now db _ _

theorem alive_ttl : alive now (some (now + ttl)) = true := decide_eq_true (Nat.le_add_right _ _)

theorem hexpire_leaves : Leaves now db (hexpire now db key ttl name) (setAt db now)
    (fun other field => if other = key ∧ field = name then
        (fieldAt db now key name).map fun field => ⟨field.value, some (now + ttl)⟩
      else fieldAt db now other field) := by
  have nothing : fieldAt db now key name = none → Leaves now db (db, true) (setAt db now)
      (fun other field => if other = key ∧ field = name then
          (fieldAt db now key name).map fun field => ⟨field.value, some (now + ttl)⟩
        else fieldAt db now other field) := by
    intro absent
    apply leaves_congr (leaves_unchanged now db true) (fun _ => rfl)
    intro other field
    by_cases own : other = key ∧ field = name
    · rw [if_pos own, own.1, own.2, absent, Option.map_none]
    · rw [if_neg own]
  rw [hexpire]
  split
  · rename_i absent
    exact nothing (field_at_absent absent)
  · rename_i fields expiry found
    have same : ∀ field, fieldAt db now key field = liveField now fields field :=
      fun field => field_at_of_hash found
    split
    · rename_i absent
      exact nothing ((same name).trans absent)
    · rename_i old present
      apply leaves_congr (put_hash_leaves _ (entry_at_alive found) (set_at_of_hash found))
        (fun _ => rfl)
      intro other field
      by_cases own : other = key
      · simp only [own, if_true, true_and, same, present, Option.map_some,
          live_field_insert now name fields ⟨old.value, some (now + ttl)⟩ field (alive_ttl now ttl)]
      · simp only [own, false_and, if_false]
  · exact leaves_failed now db _ _

theorem hdel_leaves : Leaves now db (hdel now db key name) (setAt db now)
    (fun other field => if other = key ∧ field = name then none
      else fieldAt db now other field) := by
  rw [hdel]
  split
  · rename_i absent
    apply leaves_congr (leaves_unchanged now db true) (fun _ => rfl)
    intro other field
    by_cases own : other = key ∧ field = name
    · rw [if_pos own, own.1, field_at_absent absent]
    · rw [if_neg own]
  · rename_i fields expiry found
    apply leaves_congr (put_hash_leaves _ (entry_at_alive found) (set_at_of_hash found))
      (fun _ => rfl)
    intro other field
    by_cases own : other = key
    · simp only [own, if_true, true_and, live_field_erase, field_at_of_hash found]
    · simp only [own, false_and, if_false]
  · exact leaves_failed now db _ _

theorem sadd_leaves (members : List Bytes) : Leaves now db (sadd now db key members)
    (fun other => if other = key then
        match setAt db now key with
        | none => some (members.dedup, none)
        | some (old, expiry) => some ((old ++ members).dedup, expiry)
      else setAt db now other)
    (fieldAt db now) := by
  rw [sadd]
  split
  · rename_i absent
    apply leaves_congr (put_set_leaves _ rfl (fun _ => field_at_absent absent)) _
      (fun _ _ => rfl)
    intro other
    rw [set_at_absent absent]
  · rename_i old expiry found
    apply leaves_congr (put_set_leaves _ (entry_at_alive found) (fun _ => field_at_of_set found)) _
      (fun _ _ => rfl)
    intro other
    rw [set_at_of_set found]
  · exact leaves_failed now db _ _

theorem expire_leaves : Leaves now db (expire now db key ttl)
    (fun other => if other = key then
        (setAt db now key).map fun old => (old.1, some (now + ttl))
      else setAt db now other)
    (fieldAt db now) := by
  rw [expire]
  split
  · rename_i absent
    apply leaves_congr (leaves_unchanged now db true) _ (fun _ _ => rfl)
    intro other
    by_cases own : other = key
    · rw [if_pos own, own, set_at_absent absent, Option.map_none]
    · rw [if_neg own]
  · rename_i entry found
    rcases entry with ⟨content, expiry⟩
    cases content with
    | set members =>
        apply leaves_congr (put_set_leaves members (alive_ttl now ttl)
          (fun _ => field_at_of_set found)) _ (fun _ _ => rfl)
        intro other
        rw [set_at_of_set found, Option.map_some]
    | hash fields =>
        apply leaves_congr (put_hash_leaves fields (alive_ttl now ttl) (set_at_of_hash found))
        · intro other
          by_cases own : other = key
          · rw [if_pos own, own, set_at_of_hash found, Option.map_none]
          · rw [if_neg own]
        · intro other field
          by_cases own : other = key
          · rw [if_pos own, own, field_at_of_hash found]
          · rw [if_neg own]

theorem del_leaves : Leaves now db (put db key none, true)
    (fun other => if other = key then none else setAt db now other)
    (fun other field => if other = key then none else fieldAt db now other field) := by
  refine ⟨fun _ other => ?_, fun _ other field => ?_, Bool.noConfusion⟩
  · by_cases own : other = key
    · rw [if_pos own, own]
      exact set_at_absent (entry_at_put none)
    · rw [if_neg own, set_at_put_other _ own]
  · by_cases own : other = key
    · rw [if_pos own, own]
      exact field_at_absent (entry_at_put none)
    · rw [if_neg own, field_at_put_other _ own]

end Effects

section Frames

variable {now : Nat} {db : Keyspace} {key name : Bytes}

/-- The sets after a command that succeeds. -/
def setsAfter (now : Nat) (db : Keyspace) : Command → Bytes → Option (List Bytes × Option Nat)
  | .sadd key members, other =>
      if other = key then
        match setAt db now key with
        | none => some (members.dedup, none)
        | some (old, expiry) => some ((old ++ members).dedup, expiry)
      else setAt db now other
  | .expire key ttl, other =>
      if other = key then (setAt db now key).map fun old => (old.1, some (now + ttl))
      else setAt db now other
  | .del key, other => if other = key then none else setAt db now other
  | _, other => setAt db now other

/-- The fields after a command that succeeds. -/
def fieldsAfter (now : Nat) (db : Keyspace) : Command → Bytes → Bytes → Option Field
  | .hset key name value, other, field =>
      if other = key ∧ field = name then some ⟨value, none⟩ else fieldAt db now other field
  | .hexpire key ttl name, other, field =>
      if other = key ∧ field = name then
        (fieldAt db now key name).map fun field => ⟨field.value, some (now + ttl)⟩
      else fieldAt db now other field
  | .hdel key name, other, field =>
      if other = key ∧ field = name then none else fieldAt db now other field
  | .del key, other, field => if other = key then none else fieldAt db now other field
  | _, other, field => fieldAt db now other field

theorem run_leaves (now : Nat) (db : Keyspace) (command : Command) :
    Leaves now db (command.run now db) (setsAfter now db command) (fieldsAfter now db command) := by
  cases command with
  | hset key name value => exact hset_leaves now db key name value
  | hexpire key ttl name => exact hexpire_leaves now db key name ttl
  | hdel key name => exact hdel_leaves now db key name
  | sadd key members => exact sadd_leaves now db key members
  | expire key ttl => exact expire_leaves now db key ttl
  | del key => exact del_leaves now db key

theorem run_either (now : Nat) (db : Keyspace) (command : Command) :
    ((∀ other, setAt (command.run now db).1 now other = setsAfter now db command other) ∧
      ∀ other field, fieldAt (command.run now db).1 now other field =
        fieldsAfter now db command other field) ∨ (command.run now db).1 = db := by
  have leaves := run_leaves now db command
  cases done : (command.run now db).2 with
  | false => exact .inr (leaves.failed done)
  | true => exact .inl ⟨leaves.sets done, leaves.fields done⟩

theorem expire_succeeds (key : Bytes) (ttl : Nat) :
    ((Command.expire key ttl).run now db).2 = true := by
  rw [Command.run, expire]
  split
  · rfl
  · rfl

theorem hset_fails {value : Bytes} (failed : (hset now db key name value).2 = false) :
    ∃ members expiry, entryAt db now key = some ⟨.set members, expiry⟩ := by
  unfold hset at failed
  split at failed
  · cases failed
  · cases failed
  · rename_i members expiry found
    exact ⟨members, expiry, found⟩

theorem hexpire_succeeds {ttl : Nat} {field : Field}
    (present : fieldAt db now key name = some field) : (hexpire now db key ttl name).2 = true := by
  unfold fieldAt at present
  split at present
  · rename_i fields expiry found
    rw [hexpire, found]
    dsimp only
    split
    · rfl
    · rfl
  · cases present

/-- `HSET` and then `HEXPIRE` of one field fail together, on a key of the wrong
type. -/
theorem hset_hexpire (now : Nat) (db : Keyspace) (key name value : Bytes) (ttl : Nat) :
    (runAll now db [.hset key name value, .hexpire key ttl name]).2 = true ∧
      (∀ other field, fieldAt (runAll now db [.hset key name value, .hexpire key ttl name]).1 now
        other field = if other = key ∧ field = name then some ⟨value, some (now + ttl)⟩
          else fieldAt db now other field) ∨
    (runAll now db [.hset key name value, .hexpire key ttl name]).2 = false ∧
      (runAll now db [.hset key name value, .hexpire key ttl name]).1 = db := by
  have first := hset_leaves now db key name value
  simp only [runAll, Command.run, Bool.and_true]
  generalize stored : hset now db key name value = result at first
  rcases result with ⟨written, done⟩
  cases done with
  | false =>
      apply Or.inr
      have same : written = db := first.failed rfl
      obtain ⟨members, expiry, found⟩ := hset_fails (congrArg Prod.snd stored)
      subst same
      refine ⟨rfl, ?_⟩
      rw [hexpire, found]
  | true =>
      apply Or.inl
      have present : fieldAt written now key name = some ⟨value, none⟩ :=
        (first.fields rfl key name).trans (if_pos ⟨rfl, rfl⟩)
      have succeeds : (hexpire now written key ttl name).2 = true := hexpire_succeeds present
      refine ⟨succeeds, ?_⟩
      intro other field
      have before : fieldAt written now other field =
          if other = key ∧ field = name then some ⟨value, none⟩ else fieldAt db now other field :=
        first.fields rfl other field
      rw [(hexpire_leaves now written key name ttl).fields succeeds, present, before]
      by_cases own : other = key ∧ field = name
      · rw [if_pos own, if_pos own, Option.map_some]
      · rw [if_neg own, if_neg own, if_neg own]

/-- The command acts on the key whatever its type, or as on a set. -/
def Command.actsOnSet (key : Bytes) : Command → Bool
  | .sadd target _ => target == key
  | .expire target _ => target == key
  | .del target => target == key
  | _ => false

/-- The command writes a field of this name. -/
def Command.writesField (name : Bytes) : Command → Bool
  | .hset _ field _ => field == name
  | .hexpire _ _ field => field == name
  | _ => false

theorem run_set_kept {command : Command} (foreign : command.actsOnSet key = false) :
    setAt (command.run now db).1 now key = setAt db now key := by
  rcases run_either now db command with ⟨sets, _⟩ | same
  · rw [sets]
    have apart : ∀ target, (target == key) = false → key ≠ target :=
      fun target differ same => beq_eq_false_iff_ne.mp differ same.symm
    cases command with
    | sadd target members => exact if_neg (apart target foreign)
    | expire target ttl => exact if_neg (apart target foreign)
    | del target => exact if_neg (apart target foreign)
    | _ => rfl
  · rw [same]

/-- A field that is there after a command that does not write it was there before. -/
theorem run_field_kept {command : Command} (foreign : command.writesField name = false)
    {field : Field} (found : fieldAt (command.run now db).1 now key name = some field) :
    fieldAt db now key name = some field := by
  rcases run_either now db command with ⟨_, fields⟩ | same
  · rw [fields] at found
    cases command with
    | hset target other value =>
        rw [fieldsAfter, if_neg (fun both => beq_eq_false_iff_ne.mp foreign both.2.symm)] at found
        exact found
    | hexpire target ttl other =>
        rw [fieldsAfter, if_neg (fun both => beq_eq_false_iff_ne.mp foreign both.2.symm)] at found
        exact found
    | hdel target other =>
        rw [fieldsAfter] at found
        split_ifs at found
        exact found
    | del target =>
        rw [fieldsAfter] at found
        split_ifs at found
        exact found
    | _ => exact found
  · rw [same] at found
    exact found

theorem run_all_append (now : Nat) (db : Keyspace) (first second : List Command) :
    runAll now db (first ++ second) =
      ((runAll now (runAll now db first).1 second).1,
        (runAll now db first).2 && (runAll now (runAll now db first).1 second).2) := by
  induction first generalizing db with
  | nil => rfl
  | cons command rest induction =>
      simp only [List.cons_append, runAll, induction, Bool.and_assoc]

theorem run_all_set_kept {commands : List Command}
    (foreign : ∀ command ∈ commands, command.actsOnSet key = false) :
    setAt (runAll now db commands).1 now key = setAt db now key := by
  induction commands generalizing db with
  | nil => rfl
  | cons command rest induction =>
      have first := foreign command List.mem_cons_self
      have others := fun other listed => foreign other (List.mem_cons_of_mem _ listed)
      exact (induction others).trans (run_set_kept first)

theorem run_all_field_kept {commands : List Command}
    (foreign : ∀ command ∈ commands, command.writesField name = false) {field : Field}
    (found : fieldAt (runAll now db commands).1 now key name = some field) :
    fieldAt db now key name = some field := by
  induction commands generalizing db with
  | nil => exact found
  | cons command rest induction =>
      have first := foreign command List.mem_cons_self
      have others := fun other listed => foreign other (List.mem_cons_of_mem _ listed)
      exact run_field_kept first (induction others found)

/-- The command may change this field of this hash. -/
def Command.changesField (key name : Bytes) : Command → Bool
  | .hset _ field _ => field == name
  | .hexpire _ _ field => field == name
  | .hdel _ field => field == name
  | .del target => target == key
  | _ => false

theorem run_field_same {command : Command} (foreign : command.changesField key name = false) :
    fieldAt (command.run now db).1 now key name = fieldAt db now key name := by
  rcases run_either now db command with ⟨_, fields⟩ | same
  · rw [fields]
    have apart : ∀ field, (field == name) = false → ∀ target, ¬ (key = target ∧ name = field) :=
      fun field differ target both => beq_eq_false_iff_ne.mp differ both.2.symm
    cases command with
    | hset target field value => exact if_neg (apart field foreign target)
    | hexpire target ttl field => exact if_neg (apart field foreign target)
    | hdel target field => exact if_neg (apart field foreign target)
    | sadd target members => rfl
    | expire target ttl => rfl
    | del target => exact if_neg fun same => beq_eq_false_iff_ne.mp foreign same.symm
  · rw [same]

theorem run_all_field_same {commands : List Command}
    (foreign : ∀ command ∈ commands, command.changesField key name = false) :
    fieldAt (runAll now db commands).1 now key name = fieldAt db now key name := by
  induction commands generalizing db with
  | nil => rfl
  | cons command rest induction =>
      have first := foreign command List.mem_cons_self
      have others := fun other listed => foreign other (List.mem_cons_of_mem _ listed)
      exact (induction others).trans (run_field_same first)

end Frames

section Time

variable {now later : Nat} {db : Keyspace} {key name : Bytes}

theorem alive_earlier (passed : now ≤ later) {expiry : Option Nat}
    (live : alive later expiry = true) : alive now expiry = true := by
  cases expiry with
  | none => rfl
  | some time =>
      have bound : later ≤ time := of_decide_eq_true live
      exact decide_eq_true (passed.trans bound)

theorem entry_at_earlier (passed : now ≤ later) {entry : Entry}
    (found : entryAt db later key = some entry) : entryAt db now key = some entry := by
  obtain ⟨stored, kept⟩ := Option.filter_eq_some_iff.mp found
  rw [Bool.and_eq_true] at kept
  apply Option.filter_eq_some_iff.mpr
  refine ⟨stored, ?_⟩
  rw [alive_earlier passed kept.1, Bool.true_and]
  cases content : entry.value with
  | set members => rfl
  | hash fields =>
      have some_live := kept.2
      rw [content, inhabited, Bool.not_eq_true', List.isEmpty_eq_false_iff] at some_live
      obtain ⟨⟨field, value⟩, listed⟩ := List.exists_mem_of_ne_nil _ some_live
      obtain ⟨stored, member, same⟩ := List.mem_map.mp listed
      obtain ⟨present, live⟩ := List.mem_filter.mp member
      rw [inhabited, Bool.not_eq_true', List.isEmpty_eq_false_iff]
      exact List.ne_nil_of_mem (List.mem_map.mpr
        ⟨stored, List.mem_filter.mpr ⟨present, alive_earlier passed live⟩, same⟩)

theorem set_at_stored {members : List Bytes} {expiry : Option Nat}
    (stored : db key = some ⟨.set members, expiry⟩) (time : Nat) :
    setAt db time key = if alive time expiry then some (members, expiry) else none := by
  rw [setAt, entryAt, stored, Option.filter_some]
  cases alive time expiry <;> rfl

/-- As time passes a set stays as it is until its key expires. -/
theorem set_at_later (passed : now ≤ later) :
    setAt db later key = (setAt db now key).filter fun old => alive later old.2 := by
  cases stored : db key with
  | none =>
      have absent : ∀ time, setAt db time key = none := by
        intro time
        rw [setAt, entryAt, stored, Option.filter_none]
      rw [absent, absent, Option.filter_none]
  | some entry =>
      rcases entry with ⟨content, expiry⟩
      cases content with
      | set members =>
          rw [set_at_stored stored, set_at_stored stored]
          by_cases live : alive later expiry = true
          · rw [if_pos live, if_pos (alive_earlier passed live), Option.filter_some, if_pos live]
          · rw [if_neg live]
            split_ifs
            · rw [Option.filter_some, if_neg live]
            · rfl
      | hash fields =>
          have none : ∀ time, setAt db time key = none := by
            intro time
            rw [setAt, entryAt, stored, Option.filter_some]
            split
            · rename_i kept
              split_ifs at kept
              cases kept
            · rfl
          rw [none, none, Option.filter_none]

theorem set_at_earlier (passed : now ≤ later) {old : List Bytes × Option Nat}
    (found : setAt db later key = some old) : setAt db now key = some old := by
  rw [set_at_later passed] at found
  exact (Option.filter_eq_some_iff.mp found).1

theorem field_at_earlier (passed : now ≤ later) {field : Field}
    (found : fieldAt db later key name = some field) : fieldAt db now key name = some field := by
  unfold fieldAt at found
  split at found
  · rename_i fields expiry entry
    rw [field_at_of_hash (entry_at_earlier passed entry)]
    obtain ⟨stored, live⟩ := Option.filter_eq_some_iff.mp found
    exact Option.filter_eq_some_iff.mpr ⟨stored, alive_earlier passed live⟩
  · cases found

end Time

section Persistence

variable {now : Nat} {db : Keyspace} {key name : Bytes}

/-- A hash under this key has no expiry of its own: its fields alone expire. -/
def Persistent (db : Keyspace) (key : Bytes) : Prop :=
  ∀ fields expiry, db key = some ⟨.hash fields, expiry⟩ → expiry = none

theorem put_persistent {target : Bytes} {entry : Option Entry} (persistent : Persistent db key)
    (own : target = key → ∀ fields expiry, entry = some ⟨.hash fields, expiry⟩ → expiry = none) :
    Persistent (put db target entry) key := by
  intro fields expiry stored
  by_cases same : key = target
  · rw [put, same, Function.update_self] at stored
    exact own same.symm fields expiry stored
  · rw [put, Function.update_of_ne same] at stored
    exact persistent fields expiry stored

/-- A hash that is written to keeps what it had. -/
theorem put_hash_persistent {target : Bytes} {old new : Fields} {expiry : Option Nat}
    (persistent : Persistent db key)
    (found : entryAt db now target = some ⟨.hash old, expiry⟩) :
    Persistent (put db target (some ⟨.hash new, expiry⟩)) key := by
  apply put_persistent persistent
  intro same fields kept written
  cases written
  rw [same] at found
  exact persistent old expiry (Option.filter_eq_some_iff.mp found).1

theorem run_persistent {command : Command} (foreign : command.actsOnSet key = false)
    (persistent : Persistent db key) : Persistent (command.run now db).1 key := by
  have apart : ∀ target, (target == key) = false → target = key → False :=
    fun target differ same => beq_eq_false_iff_ne.mp differ same
  cases command with
  | hset target field value =>
      rw [Command.run, hset]
      split
      · apply put_persistent persistent
        intro _ fields expiry written
        cases written
        rfl
      · rename_i found
        exact put_hash_persistent persistent found
      · exact persistent
  | hexpire target ttl field =>
      rw [Command.run, hexpire]
      split
      · exact persistent
      · rename_i found
        split
        · exact persistent
        · exact put_hash_persistent persistent found
      · exact persistent
  | hdel target field =>
      rw [Command.run, hdel]
      split
      · exact persistent
      · rename_i found
        exact put_hash_persistent persistent found
      · exact persistent
  | sadd target members =>
      rw [Command.run, sadd]
      split
      · exact put_persistent persistent fun same => (apart target foreign same).elim
      · exact put_persistent persistent fun same => (apart target foreign same).elim
      · exact persistent
  | expire target ttl =>
      rw [Command.run, expire]
      split
      · exact persistent
      · exact put_persistent persistent fun same => (apart target foreign same).elim
  | del target =>
      exact put_persistent persistent fun same => (apart target foreign same).elim

theorem run_all_persistent {commands : List Command}
    (foreign : ∀ command ∈ commands, command.actsOnSet key = false)
    (persistent : Persistent db key) : Persistent (runAll now db commands).1 key := by
  induction commands generalizing db with
  | nil => exact persistent
  | cons command rest induction =>
      apply induction fun other listed => foreign other (List.mem_cons_of_mem _ listed)
      exact run_persistent (foreign command List.mem_cons_self) persistent

/-- A field of such a hash is there until its own time. -/
theorem field_at_later (persistent : Persistent db key) {later : Nat} {field : Field}
    (found : fieldAt db now key name = some field) (live : alive later field.expiry = true) :
    fieldAt db later key name = some field := by
  unfold fieldAt at found
  split at found
  · rename_i fields expiry entry
    have stored := (Option.filter_eq_some_iff.mp entry).1
    have unlimited := persistent fields expiry stored
    subst unlimited
    have still : liveField later fields name = some field :=
      Option.filter_eq_some_iff.mpr ⟨(Option.filter_eq_some_iff.mp found).1, live⟩
    have present : entryAt db later key = some ⟨.hash fields, none⟩ := by
      rw [entryAt, stored, Option.filter_some, live_field_inhabited still]
      rfl
    rw [field_at_of_hash present, still]
  · cases found

end Persistence

end ChatScale.RedisKeyspace
