import ChatScale.OutboxRelayOrder
import ChatScale.RelayBatch

/-!
# One cycle of the relay on the outbox

`processBatch` on the rows themselves: what it fetches is the head rows of the
rooms, oldest first and `BatchSize` at most, and `MarkPublished` succeeds if its
statement does and the row is still pending. The calls are those of the loop, and
the whole is a run of the relay process. A cycle marks something exactly if one
of the rows fetched can be relayed: the rows behind them have no part in it.
-/

namespace ChatScale.RelayCycle

open ChatScale.ByteText ChatScale.MessageId ChatScale.OutboxRelayModel
open ChatScale.OutboxRelayOrder ChatScale.RelayBatch ChatScale.TransitionSystem
open ChatScale.MessageContract (Event)
open ChatScale.MessageStoreModel (Database OutboxRow)
open ChatScale.MessageStoreInvariants (randomBytes)

set_option autoImplicit false

/-- The tables, with the primary key of `message_outbox`. -/
structure Outbox where
  db : Database
  keyed : (db.outbox.map OutboxRow.messageID).Nodup

/-- What the update of `MarkPublished` reports. -/
def rowsAffected (db : Database) (messageID : Bytes) : Nat :=
  db.outbox.countP fun row => row.messageID.text == messageID && !row.published

/-- An error of the publisher, "mark outbox row published: %w" and "mark outbox row %s
published: row was no longer pending". -/
inductive ServiceError where
  | kafka (message : String)
  | update (message : String)
  | noLongerPending (messageID : Bytes)

/-- The answer of `MarkPublished` when the statement itself ends as given. -/
def markAnswer (db : Database) (messageID : Bytes) (statement : Except ServiceError Unit) :
    Except ServiceError Unit :=
  match statement with
  | .error error => .error error
  | .ok () =>
      if rowsAffected db messageID = 1 then .ok () else .error (.noLongerPending messageID)

/-- The answers to an entry: those of the publisher, and that of the repository on
the tables as they are. -/
def answersIn (db : Database) (faults : Entry → Answers ServiceError) (entry : Entry) :
    Answers ServiceError :=
  ⟨(faults entry).publish, markAnswer db entry.messageID (faults entry).mark⟩

/-- The tables and the calls and errors so far. -/
structure Progress where
  db : Database
  cycle : RelayBatch.Cycle ServiceError

/-- The update is executed if the entry is marked and the statement does not fail. -/
def updates (config : BatchConfig) (answers : Answers ServiceError) (entry : Entry)
    (statement : Except ServiceError Unit) : Bool :=
  (processEntry config entry answers).calls.any Call.isMark && statement.isOk

def relayEntry (config : BatchConfig) (faults : Entry → Answers ServiceError) (progress : Progress)
    (entry : Entry) : Progress :=
  let answers := answersIn progress.db faults entry
  { db := if updates config answers entry (faults entry).mark then
      markPublished progress.db entry.messageID else progress.db
    cycle := processItem config progress.cycle (entry, answers) }

def relayCycle (collation : Bytes → Bytes → Bool) (config : BatchConfig)
    (faults : Entry → Answers ServiceError) (db : Database) : Progress :=
  (nextPending collation db config.batchSize).foldl (relayEntry config faults) ⟨db, ⟨[], []⟩⟩

/-- The entry is valid, one of its attempts succeeds, and so does the statement that
marks it. -/
structure Healthy (config : BatchConfig) (faults : Entry → Answers ServiceError) (entry : Entry) :
    Prop where
  valid : validateEntry entry = .ok ()
  published : ∃ attempt, 1 ≤ attempt ∧ attempt ≤ config.maxRetries ∧
    ((faults entry).publish attempt).isOk = true
  marked : (faults entry).mark = .ok ()

section Entries

variable {config : BatchConfig} {faults : Entry → Answers ServiceError} {entry : Entry}

theorem answers_first_success (db : Database) (first count : Nat) :
    firstSuccess (answersIn db faults entry) first count =
      firstSuccess (faults entry) first count := rfl

/-- In terms of the first attempt that succeeds. -/
theorem healthy_iff : Healthy config faults entry ↔ validateEntry entry = .ok () ∧
    (firstSuccess (faults entry) 1 config.maxRetries).isSome = true ∧
      (faults entry).mark = .ok () := by
  rw [first_success_iff]
  constructor
  · intro healthy
    rcases healthy.published with ⟨attempt, lower, upper, ok⟩
    exact ⟨healthy.valid, ⟨attempt, lower, Nat.lt_one_add_iff.mpr upper, ok⟩, healthy.marked⟩
  · intro known
    rcases known with ⟨valid, ⟨attempt, lower, upper, ok⟩, marked⟩
    exact ⟨valid, ⟨attempt, lower, Nat.lt_one_add_iff.mp upper, ok⟩, marked⟩

/-- The update is executed for the healthy entries. -/
theorem updates_iff (db : Database) :
    updates config (answersIn db faults entry) entry (faults entry).mark = true ↔
      Healthy config faults entry := by
  rw [updates, Bool.and_eq_true, process_entry_spec.1, entry_calls_mark, answers_first_success,
    healthy_iff, and_assoc]
  cases (faults entry).mark with
  | ok _ => simp [Except.isOk, Except.toBool]
  | error error => simp [Except.isOk, Except.toBool]

theorem relay_healthy (progress : Progress) (healthy : Healthy config faults entry) :
    (relayEntry config faults progress entry).db = markPublished progress.db entry.messageID :=
  if_pos ((updates_iff progress.db).mpr healthy)

theorem relay_unhealthy (progress : Progress) (unhealthy : ¬ Healthy config faults entry) :
    (relayEntry config faults progress entry).db = progress.db :=
  if_neg fun updated => unhealthy ((updates_iff progress.db).mp updated)

end Entries

section Marks

/-- Every row is still there, and published if it was or if it is the one marked. -/
theorem mark_keeps {db : Database} (messageID : Bytes) {row : OutboxRow}
    (listed : row ∈ db.outbox) :
    ∃ after ∈ (markPublished db messageID).outbox, after.messageID = row.messageID ∧
      (row.published = true ∨ row.messageID.text = messageID → after.published = true) := by
  unfold markPublished
  cases cast : castUuid messageID with
  | none =>
      refine ⟨row, listed, rfl, ?_⟩
      intro published
      rcases published with before | same
      · exact before
      · rw [← same, cast_uuid_text] at cast
        cases cast
  | some id =>
      refine ⟨_, List.mem_map_of_mem listed, ?_, ?_⟩
      · split_ifs <;> rfl
      · intro published
        split_ifs with same
        · rfl
        · rcases published with before | text
          · exact before
          · rw [← text, cast_uuid_text] at cast
            exact absurd (Option.some.inj cast) same

variable {config : BatchConfig} {faults : Entry → Answers ServiceError}

theorem relay_keeps (progress : Progress) (entry : Entry) {row : OutboxRow}
    (listed : row ∈ progress.db.outbox) :
    ∃ after ∈ (relayEntry config faults progress entry).db.outbox,
      after.messageID = row.messageID ∧
        (row.published = true ∨ row.messageID.text = entry.messageID ∧
          Healthy config faults entry → after.published = true) := by
  by_cases healthy : Healthy config faults entry
  · rw [relay_healthy progress healthy]
    rcases mark_keeps entry.messageID listed with ⟨after, kept, same, published⟩
    exact ⟨after, kept, same, fun known => published (known.imp_right And.left)⟩
  · rw [relay_unhealthy progress healthy]
    refine ⟨row, listed, rfl, ?_⟩
    intro known
    rcases known with before | marked
    · exact before
    · exact absurd marked.2 healthy

/-- Over the whole loop. -/
theorem loop_keeps (config : BatchConfig) (faults : Entry → Answers ServiceError)
    (entries : List Entry) (progress : Progress) {row : OutboxRow}
    (listed : row ∈ progress.db.outbox) :
    ∃ after ∈ (entries.foldl (relayEntry config faults) progress).db.outbox,
      after.messageID = row.messageID ∧
        ((row.published = true ∨ ∃ entry ∈ entries, row.messageID.text = entry.messageID ∧
          Healthy config faults entry) → after.published = true) := by
  induction entries generalizing progress row with
  | nil =>
      refine ⟨row, listed, rfl, ?_⟩
      intro known
      rcases known with before | ⟨entry, member, _⟩
      · exact before
      · cases member
  | cons entry entries induction =>
      rcases relay_keeps progress entry listed with ⟨middle, kept, sameFirst, first⟩
      rcases induction _ kept with ⟨after, listedAfter, sameLater, later⟩
      refine ⟨after, listedAfter, sameLater.trans sameFirst, ?_⟩
      intro known
      apply later
      rcases known with before | ⟨marked, member, same, healthy⟩
      · exact .inl (first (.inl before))
      · rcases List.mem_cons.mp member with here | there
        · rw [here] at same healthy
          exact .inl (first (.inr ⟨same, healthy⟩))
        · exact .inr ⟨marked, there, by rw [sameFirst, same], healthy⟩

/-- Without a healthy entry nothing is written. -/
theorem loop_unhealthy (entries : List Entry) (progress : Progress)
    (unhealthy : ∀ entry ∈ entries, ¬ Healthy config faults entry) :
    (entries.foldl (relayEntry config faults) progress).db = progress.db := by
  induction entries generalizing progress with
  | nil => rfl
  | cons entry entries induction =>
      have rest := List.forall_mem_cons.mp unhealthy
      rw [List.foldl_cons, induction _ rest.2]
      exact relay_unhealthy progress rest.1

end Marks

section Batch

variable {config : BatchConfig} {faults : Entry → Answers ServiceError}

/-- Marking one row leaves the others as they are. -/
theorem mark_rows_affected {db : Database} {marked other : Bytes} (apart : other ≠ marked) :
    rowsAffected (markPublished db marked) other = rowsAffected db other := by
  unfold markPublished
  split
  · rfl
  · rename_i id cast
    rw [rowsAffected, List.countP_map]
    apply List.countP_congr
    intro row _
    rw [Function.comp_apply]
    split_ifs with same
    · have text : row.messageID.text = marked := by
        rw [same]
        exact cast_uuid_some cast
      simp [text, apart.symm]
    · rfl

theorem relay_rows_affected {progress : Progress} {entry : Entry} {other : Bytes}
    (apart : other ≠ entry.messageID) :
    rowsAffected (relayEntry config faults progress entry).db other =
      rowsAffected progress.db other := by
  by_cases healthy : Healthy config faults entry
  · rw [relay_healthy progress healthy, mark_rows_affected apart]
  · rw [relay_unhealthy progress healthy]

/-- The loop over distinct entries is that of `processBatch`: no mark changes the
answer to another entry. -/
theorem loop_batch {db : Database} (entries : List Entry) (progress : Progress)
    (distinct : (entries.map Entry.messageID).Nodup)
    (pending : ∀ entry ∈ entries,
      rowsAffected progress.db entry.messageID = rowsAffected db entry.messageID) :
    (entries.foldl (relayEntry config faults) progress).cycle =
      (entries.map fun entry => (entry, answersIn db faults entry)).foldl (processItem config)
        progress.cycle := by
  induction entries generalizing progress with
  | nil => rfl
  | cons entry entries induction =>
      have apart := List.nodup_cons.mp distinct
      have answers : answersIn progress.db faults entry = answersIn db faults entry := by
        unfold answersIn markAnswer
        rw [pending entry List.mem_cons_self]
      rw [List.foldl_cons, List.map_cons, List.foldl_cons, ← answers]
      apply induction _ apart.2
      intro other member
      have different : other.messageID ≠ entry.messageID := by
        intro same
        exact apart.1 (List.mem_map.mpr ⟨other, member, same⟩)
      rw [relay_rows_affected different]
      exact pending other (List.mem_cons_of_mem _ member)

theorem fetched_distinct (collation : Bytes → Bytes → Bool) (outbox : Outbox) (limit : Nat) :
    ((nextPending collation outbox.db limit).map Entry.messageID).Nodup := by
  have heads : ((pendingHeads outbox.db).map OutboxRow.messageID).Nodup :=
    outbox.keyed.sublist (List.filter_sublist.map _)
  have sorted := ((List.mergeSort_perm (pendingHeads outbox.db) (rowOrder collation)).map
    OutboxRow.messageID).nodup_iff.mpr heads
  have taken : ((((pendingHeads outbox.db).mergeSort (rowOrder collation)).take limit).map
      OutboxRow.messageID).Nodup := sorted.sublist ((List.take_sublist _ _).map _)
  rw [nextPending, List.map_map]
  have texts := taken.map (fun _ _ => text_injective)
  rw [List.map_map] at texts
  exact texts

/-- The calls and the errors of a cycle on the tables are those of `processBatch` on
what was fetched, with the answers that the tables give at its start. -/
theorem cycle_batch (collation : Bytes → Bytes → Bool) (outbox : Outbox) :
    (relayCycle collation config faults outbox.db).cycle =
      processBatch config (.ok ((nextPending collation outbox.db config.batchSize).map
        fun entry => (entry, answersIn outbox.db faults entry))) :=
  loop_batch _ _ (fetched_distinct collation outbox _) fun _ _ => rfl

end Batch

section Run

variable {config : BatchConfig} {faults : Entry → Answers ServiceError}

/-- The moves of one relay process, on the tables, the log and the records under
way. -/
def relayStep (collation : Bytes → Bytes → Bool) (config : RelayConfig) (effect : Effect)
    (move : RelayMove) : Option Effect :=
  relayEffect collation config effect.db effect.log effect.inflight effect.stage move

variable {collation : Bytes → Bytes → Bool} {start : Effect}

/-- The effects that the process can get to. -/
def Gets (collation : Bytes → Bytes → Bool) (config : BatchConfig) (start effect : Effect) :
    Prop :=
  Reachable (relayStep collation config.toRelayConfig) anyStep start effect

theorem gets_step {effect next : Effect} (move : RelayMove)
    (reached : Gets collation config start effect)
    (stepped : relayStep collation config.toRelayConfig effect move = some next) :
    Gets collation config start next :=
  reachable_step reached trivial stepped

theorem fail_step {db : Database} {log inflight : List Record} (entry : Entry) (attempt : Nat)
    (rest : List Entry) :
    relayStep collation config.toRelayConfig
        ⟨db, .publishing entry attempt false rest, log, inflight⟩ (.fail false) =
      if config.maxRetries ≤ attempt then some ⟨db, .batch rest, log, inflight⟩
      else some ⟨db, .backoff entry attempt rest, log, inflight⟩ := by
  have nothing : inflight ++ leftover false (.publishing entry attempt false rest) = inflight :=
    List.append_nil inflight
  change (if _ then some (Effect.mk _ _ _ (inflight ++ leftover false _)) else _) = _
  rw [nothing]

def afterAttempts (entry : Entry) (rest : List Entry) (succeeded : Bool) : RelayStage :=
  if succeeded then .marking entry rest else .batch rest

/-- From an attempt on, the process gets to the mark if an attempt succeeds, and to
the next entry otherwise. -/
theorem attempts_run {entry : Entry} {rest : List Entry} {db : Database} {inflight : List Record}
    (answers : Answers ServiceError) (remaining first : Nat) (log : List Record)
    (left : first + remaining = config.maxRetries + 1) (more : remaining ≠ 0)
    (reached : Gets collation config start
      ⟨db, .publishing entry first false rest, log, inflight⟩) :
    ∃ after, Gets collation config start
      ⟨db, afterAttempts entry rest (firstSuccess answers first remaining).isSome, after,
        inflight⟩ := by
  induction remaining generalizing first log with
  | zero => exact absurd rfl more
  | succ remaining induction =>
      cases ok : (answers.publish first).isOk with
      | true =>
          rw [first_success_here ok]
          have appended := gets_step .append reached rfl
          exact ⟨_, gets_step .succeed appended rfl⟩
      | false =>
          rw [first_success_later ok]
          by_cases last : remaining = 0
          · subst last
            have failed := gets_step (.fail false) reached
              ((fail_step entry first rest).trans (if_pos (by omega)))
            exact ⟨_, failed⟩
          · have failed := gets_step (.fail false) reached
              ((fail_step entry first rest).trans (if_neg (by omega)))
            exact induction (first + 1) log (by omega) last (gets_step .retry failed rfl)

theorem next_step {db : Database} {log inflight : List Record} (entry : Entry)
    (rest : List Entry) :
    relayStep collation config.toRelayConfig ⟨db, .batch (entry :: rest), log, inflight⟩ .next =
      match validateEntry entry with
      | .error _ => some ⟨db, .batch rest, log, inflight⟩
      | .ok () => some ⟨db, .publishing entry 1 false rest, log, inflight⟩ := rfl

/-- The process gets past an entry with the tables that the loop leaves. -/
theorem entry_run (faults : Entry → Answers ServiceError) {progress : Progress} {entry : Entry}
    {rest : List Entry} {log inflight : List Record}
    (reached : Gets collation config start ⟨progress.db, .batch (entry :: rest), log, inflight⟩) :
    ∃ after, Gets collation config start
      ⟨(relayEntry config faults progress entry).db, .batch rest, after, inflight⟩ := by
  cases valid : validateEntry entry with
  | error message =>
      have unhealthy : ¬ Healthy config faults entry := by simp [healthy_iff, valid]
      rw [relay_unhealthy progress unhealthy]
      exact ⟨log, gets_step .next reached ((next_step entry rest).trans (by rw [valid]))⟩
  | ok _ =>
      have started := gets_step .next reached ((next_step entry rest).trans (by rw [valid]))
      rcases attempts_run (faults entry) config.maxRetries 1 log (Nat.add_comm _ _)
        (Nat.pos_iff_ne_zero.mp config.retriesPositive) started with ⟨after, tried⟩
      refine ⟨after, ?_⟩
      cases found : (firstSuccess (faults entry) 1 config.maxRetries).isSome with
      | false =>
          have unhealthy : ¬ Healthy config faults entry := by simp [healthy_iff, found]
          rw [found] at tried
          rw [relay_unhealthy progress unhealthy]
          exact tried
      | true =>
          rw [found] at tried
          cases marked : (faults entry).mark with
          | error error =>
              have unhealthy : ¬ Healthy config faults entry := by simp [healthy_iff, marked]
              rw [relay_unhealthy progress unhealthy]
              exact gets_step .markFail tried rfl
          | ok _ =>
              rw [relay_healthy progress (healthy_iff.mpr ⟨valid, found, marked⟩)]
              exact gets_step .mark tried rfl

theorem loop_run (faults : Entry → Answers ServiceError) (entries : List Entry)
    (progress : Progress) {log inflight : List Record}
    (reached : Gets collation config start ⟨progress.db, .batch entries, log, inflight⟩) :
    ∃ after, Gets collation config start
      ⟨(entries.foldl (relayEntry config faults) progress).db, .batch [], after, inflight⟩ := by
  induction entries generalizing progress log with
  | nil => exact ⟨log, reached⟩
  | cons entry entries induction =>
      rcases entry_run faults reached with ⟨middle, passed⟩
      exact induction _ passed

/-- A cycle is a run of the relay process from one fetch to the next. -/
theorem cycle_run (collation : Bytes → Bytes → Bool) (config : BatchConfig)
    (faults : Entry → Answers ServiceError) (db : Database) (log inflight : List Record) :
    ∃ after, Gets collation config ⟨db, .idle, log, inflight⟩
      ⟨(relayCycle collation config faults db).db, .idle, after, inflight⟩ := by
  have fetched : Gets collation config ⟨db, .idle, log, inflight⟩
      ⟨db, .batch (nextPending collation db config.batchSize), log, inflight⟩ :=
    gets_step .fetch reachable_start rfl
  rcases loop_run faults _ ⟨db, ⟨[], []⟩⟩ fetched with ⟨after, passed⟩
  exact ⟨after, gets_step .next passed rfl⟩

end Run

section Starvation

/-- A row that was pending is published afterwards. -/
def MarksSome (before after : Database) : Prop :=
  ∃ row ∈ before.outbox, row.published = false ∧
    ∃ marked ∈ after.outbox, marked.messageID = row.messageID ∧ marked.published = true

/-- A cycle marks a row exactly if one of the entries it fetches is healthy. -/
theorem cycle_marks_iff (collation : Bytes → Bytes → Bool) (config : BatchConfig)
    (faults : Entry → Answers ServiceError) (outbox : Outbox) :
    MarksSome outbox.db (relayCycle collation config faults outbox.db).db ↔
      ∃ entry ∈ nextPending collation outbox.db config.batchSize,
        Healthy config faults entry := by
  constructor
  · intro marks
    by_contra none
    have unhealthy : ∀ entry ∈ nextPending collation outbox.db config.batchSize,
        ¬ Healthy config faults entry := by
      intro entry member healthy
      exact none ⟨entry, member, healthy⟩
    rcases marks with ⟨row, listed, pending, marked, markedListed, same, published⟩
    rw [relayCycle, loop_unhealthy _ _ unhealthy] at markedListed
    have one := List.inj_on_of_nodup_map outbox.keyed markedListed listed same
    rw [one, pending] at published
    cases published
  · intro some
    rcases some with ⟨entry, fetched, healthy⟩
    rcases fetched_row fetched with ⟨row, head, rfl⟩
    have known := pending_head head
    rcases loop_keeps config faults _ ⟨outbox.db, ⟨[], []⟩⟩ known.1 with
      ⟨after, listed, same, published⟩
    refine ⟨row, known.1, known.2.1, after, listed, same, ?_⟩
    exact published (.inr ⟨_, fetched, rfl, healthy⟩)

/-- The record of the one room is refused at every attempt. -/
def refusedRoom : Bytes := ascii "attic"

def refusesRoom (entry : Entry) : Answers ServiceError :=
  ⟨fun _ => if entry.roomID = refusedRoom then .error (.kafka "message too large") else .ok ⟨0, 7⟩,
    .ok ()⟩

def postedEvent (byte : UInt8) (room : Bytes) : Event :=
  ⟨1, (randomBytes byte).text, ascii "m-1", room, 1, CivilTime.sampleTime.toTime, ascii "\"hi\""⟩

def postedRow (byte : UInt8) (room : Bytes) : OutboxRow :=
  ⟨randomBytes byte, room, 1, (postedEvent byte room).marshal.getD [], CivilTime.sampleTime, false⟩

def twoRooms : Database :=
  ⟨fun _ => some 1, [], [postedRow 1 refusedRoom, postedRow 2 (ascii "lobby")]⟩

def twoRoomsOutbox : Outbox := ⟨twoRooms, by decide +kernel⟩

/-- One entry at a time, tried once. -/
def smallBatch : BatchConfig :=
  ⟨smallConfig, ascii "messages", 200000000, by decide, by decide⟩

def byBytes (left right : Bytes) : Bool := decide (left ≤ right)

/-- The head of the lobby could be relayed, but the older head of the attic, which
never is, takes the only place of the batch. -/
theorem healthy_room_starved :
    (∃ row ∈ pendingHeads twoRoomsOutbox.db, row.roomID = ascii "lobby" ∧
        Healthy smallBatch refusesRoom (entryOf row)) ∧
      ¬ MarksSome twoRoomsOutbox.db
        (relayCycle byBytes smallBatch refusesRoom twoRoomsOutbox.db).db := by
  refine ⟨⟨postedRow 2 (ascii "lobby"), ?_, rfl, ?_⟩, ?_⟩
  · decide +kernel
  · exact ⟨by decide +kernel, ⟨1, le_refl 1, le_refl 1, by decide +kernel⟩, rfl⟩
  · intro marks
    rcases marks with ⟨row, _, _, marked, listed, _, published⟩
    have sorted : (pendingHeads twoRooms).mergeSort (rowOrder byBytes) = pendingHeads twoRooms :=
      List.mergeSort_of_pairwise (by decide +kernel)
    have pending : (relayCycle byBytes smallBatch refusesRoom twoRoomsOutbox.db).db.outbox.all
        (fun row => !row.published) = true := by
      rw [relayCycle, nextPending, show twoRoomsOutbox.db = twoRooms from rfl, sorted]
      decide +kernel
    have unpublished := List.all_eq_true.mp pending marked listed
    rw [published] at unpublished
    cases unpublished

end Starvation

end ChatScale.RelayCycle
