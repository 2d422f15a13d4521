import ChatScale.DeliveryPipeline
import ChatScale.RelayCycle
import ChatScale.RoundBound

/-!
# No room is left behind

A cycle takes the head rows of `BatchSize` rooms at most, oldest first. A room
whose head row fails again and again keeps its place, but as long as fewer rooms
than that are stuck, every cycle of a relay publishes a row that is not younger
than those waited for. So a room that is not stuck is up to date after so many
cycles as there are such rows, whatever else is accepted meanwhile and whatever
the other relays do.
-/

namespace ChatScale.RelayFairness

open ChatScale.ByteText ChatScale.MessageId ChatScale.TransitionSystem ChatScale.RoundBound
open ChatScale.MessageStoreModel (Database OutboxRow Columns Input)
open ChatScale.MessageStoreInvariants ChatScale.MessageStoreContents
open ChatScale.OutboxRelayModel ChatScale.OutboxRelayOrder
open ChatScale.DeliveryPipeline (KeepsJson written_row_travels jsonColumns json_columns_keep)
open ChatScale.RelayCycle (byBytes)

set_option autoImplicit false

section Sorting

/-- A collation of the database orders all texts, and no two alike. -/
structure LinearCollation (collation : Bytes → Bytes → Bool) : Prop where
  total : ∀ left right, collation left right = true ∨ collation right left = true
  trans : ∀ left middle right, collation left middle = true → collation middle right = true →
    collation left right = true
  antisymm : ∀ left right, collation left right = true → collation right left = true →
    left = right

variable {collation : Bytes → Bytes → Bool} {left middle right : OutboxRow}

theorem row_order_iff : rowOrder collation left right = true ↔
    left.createdAt.instant < right.createdAt.instant ∨
      left.createdAt.instant = right.createdAt.instant ∧
        (left.roomID ≠ right.roomID ∧ collation left.roomID right.roomID = true ∨
          left.roomID = right.roomID ∧ left.roomSeq ≤ right.roomSeq) := by
  unfold rowOrder
  split_ifs with instants rooms
  · simp [instants]
  · have same : left.createdAt.instant = right.createdAt.instant := not_not.mp instants
    simp [same, rooms]
  · have same : left.createdAt.instant = right.createdAt.instant := not_not.mp instants
    have sameRoom : left.roomID = right.roomID := not_not.mp rooms
    simp [same, sameRoom]

theorem row_order_total (linear : LinearCollation collation) :
    rowOrder collation left right = true ∨ rowOrder collation right left = true := by
  rw [row_order_iff, row_order_iff]
  rcases lt_trichotomy left.createdAt.instant right.createdAt.instant with before | same | after
  · exact .inl (.inl before)
  · by_cases room : left.roomID = right.roomID
    · rcases le_total left.roomSeq right.roomSeq with smaller | larger
      · exact .inl (.inr ⟨same, .inr ⟨room, smaller⟩⟩)
      · exact .inr (.inr ⟨same.symm, .inr ⟨room.symm, larger⟩⟩)
    · rcases linear.total left.roomID right.roomID with first | second
      · exact .inl (.inr ⟨same, .inl ⟨room, first⟩⟩)
      · exact .inr (.inr ⟨same.symm, .inl ⟨Ne.symm room, second⟩⟩)
  · exact .inr (.inl after)

theorem row_order_trans (linear : LinearCollation collation)
    (first : rowOrder collation left middle = true)
    (second : rowOrder collation middle right = true) :
    rowOrder collation left right = true := by
  rw [row_order_iff] at first second ⊢
  rcases first with earlier | ⟨same, first⟩
  · rcases second with later | ⟨equal, _⟩
    · exact .inl (lt_trans earlier later)
    · exact .inl (equal ▸ earlier)
  · rcases second with later | ⟨equal, second⟩
    · exact .inl (same ▸ later)
    · refine .inr ⟨same.trans equal, ?_⟩
      rcases first with ⟨apart, collated⟩ | ⟨room, smaller⟩
      · rcases second with ⟨apartNext, collatedNext⟩ | ⟨roomNext, _⟩
        · refine .inl ⟨?_, linear.trans _ _ _ collated collatedNext⟩
          intro back
          rw [← back] at collatedNext
          exact apart (linear.antisymm _ _ collated collatedNext)
        · rw [← roomNext]
          exact .inl ⟨apart, collated⟩
      · rcases second with ⟨apartNext, collatedNext⟩ | ⟨roomNext, smallerNext⟩
        · rw [room]
          exact .inl ⟨apartNext, collatedNext⟩
        · exact .inr ⟨room.trans roomNext, le_trans smaller smallerNext⟩

theorem heads_sorted (linear : LinearCollation collation) (db : Database) :
    ((pendingHeads db).mergeSort (rowOrder collation)).Pairwise fun left right =>
      rowOrder collation left right = true := by
  apply List.pairwise_mergeSort
  · intro left middle right first second
    exact row_order_trans linear first second
  · intro left right
    rw [Bool.or_eq_true]
    exact row_order_total linear

end Sorting

section Heads

variable {db : Database}

theorem is_head_iff {outbox : List OutboxRow} {row : OutboxRow} :
    isHead outbox row = true ↔ ∀ previous ∈ outbox, previous.roomID = row.roomID →
      previous.published = false → row.roomSeq ≤ previous.roomSeq := by
  rw [isHead, Bool.not_eq_true', List.any_eq_false]
  apply forall₂_congr
  intro previous _
  simp

/-- Every room with a pending row has a head, which is not after the row. -/
theorem exists_head (sound : DatabaseSound db) {row : OutboxRow} (listed : row ∈ db.outbox)
    (pending : row.published = false) :
    ∃ head ∈ pendingHeads db, head.roomID = row.roomID ∧ head.roomSeq ≤ row.roomSeq := by
  -- The numbers of a room are positive, so going back to an earlier row comes to an end.
  induction bound : row.roomSeq.toNat using Nat.strong_induction_on generalizing row with
  | _ number induction =>
      by_cases first : isHead db.outbox row = true
      · refine ⟨row, List.mem_filter.mpr ⟨listed, ?_⟩, rfl, le_refl _⟩
        rw [pending, first]
        rfl
      · rw [is_head_iff] at first
        simp only [not_forall] at first
        rcases first with ⟨previous, previousListed, room, unpublished, larger⟩
        have smaller : previous.roomSeq < row.roomSeq := not_le.mp larger
        have positive := (outbox_seq_le sound previousListed).1
        rcases induction previous.roomSeq.toNat (by omega) previousListed unpublished rfl with
          ⟨head, member, same, lower⟩
        exact ⟨head, member, same.trans room, le_trans lower (le_of_lt smaller)⟩

theorem head_unique (sound : DatabaseSound db) {left right : OutboxRow}
    (leftHead : left ∈ pendingHeads db) (rightHead : right ∈ pendingHeads db)
    (room : left.roomID = right.roomID) : left = right := by
  rcases pending_head leftHead with ⟨leftListed, leftPending, leftFirst⟩
  rcases pending_head rightHead with ⟨rightListed, rightPending, rightFirst⟩
  apply outbox_row_unique sound leftListed rightListed room
  rcases lt_trichotomy left.roomSeq right.roomSeq with before | same | after
  · rw [rightFirst left leftListed room before] at leftPending
    cases leftPending
  · exact same
  · rw [leftFirst right rightListed room.symm after] at rightPending
    cases rightPending

theorem heads_rooms (sound : DatabaseSound db) (collation : Bytes → Bytes → Bool) (limit : Nat) :
    ((((pendingHeads db).mergeSort (rowOrder collation)).take limit).map
      OutboxRow.roomID).Nodup := by
  have rows : (pendingHeads db).Nodup :=
    (List.Nodup.of_map _ (outbox_ids sound)).sublist List.filter_sublist
  have heads : ((pendingHeads db).map OutboxRow.roomID).Nodup :=
    rows.map_on fun left leftHead right rightHead => head_unique sound leftHead rightHead
  have sorted := ((List.mergeSort_perm (pendingHeads db) (rowOrder collation)).map
    OutboxRow.roomID).nodup_iff.mpr heads
  exact sorted.sublist ((List.take_sublist _ _).map _)

end Heads

section Ahead

/-- The messages of a room up to a number, and an instant by which all of them were
created. -/
structure Target where
  room : Bytes
  seq : Int
  deadline : Int

/-- A pending row that may have to be published first: one of those waited for, or
one of another room that is not stuck, created by the deadline. -/
def isAhead (target : Target) (stuck : List Bytes) (row : OutboxRow) : Bool :=
  !row.published && !stuck.contains row.roomID &&
    if row.roomID = target.room then decide (row.roomSeq ≤ target.seq)
    else decide (row.createdAt.instant ≤ target.deadline)

def ahead (target : Target) (stuck : List Bytes) (db : Database) : List Entry :=
  (db.outbox.filter (isAhead target stuck)).map entryOf

def Published (target : Target) (db : Database) : Prop :=
  ∀ row ∈ db.outbox, row.roomID = target.room → row.roomSeq ≤ target.seq → row.published = true

/-- The last message waited for exists, and none of them is younger than the
deadline. -/
structure TargetSound (target : Target) (db : Database) : Prop where
  assigned : ∃ row ∈ db.outbox, row.roomID = target.room ∧ row.roomSeq = target.seq
  created : ∀ row ∈ db.outbox, row.roomID = target.room → row.roomSeq ≤ target.seq →
    row.createdAt.instant ≤ target.deadline

variable {target : Target} {stuck : List Bytes} {db : Database}

theorem is_ahead_iff {row : OutboxRow} : isAhead target stuck row = true ↔
    row.published = false ∧ row.roomID ∉ stuck ∧
      (row.roomID = target.room ∧ row.roomSeq ≤ target.seq ∨
        row.roomID ≠ target.room ∧ row.createdAt.instant ≤ target.deadline) := by
  unfold isAhead
  split_ifs with room
  · simp [room, and_assoc]
  · simp [room, and_assoc]

theorem mem_ahead {entry : Entry} : entry ∈ ahead target stuck db ↔
    ∃ row ∈ db.outbox, isAhead target stuck row = true ∧ entryOf row = entry := by
  simp only [ahead, List.mem_map, List.mem_filter, and_assoc]

/-- A mark takes the rows of its id out. -/
theorem ahead_mark (messageID : Bytes) : ahead target stuck (markPublished db messageID) =
    (ahead target stuck db).filter fun entry => decide (entry.messageID ≠ messageID) := by
  unfold ahead markPublished
  rw [List.filter_map, List.filter_filter]
  cases cast : castUuid messageID with
  | none =>
      apply congrArg (List.map entryOf)
      apply List.filter_congr
      intro row _
      have other : row.messageID.text ≠ messageID := by
        intro same
        rw [← same, cast_uuid_text] at cast
        cases cast
      simp [entryOf, other]
  | some id =>
      dsimp only
      rw [List.filter_map, List.map_map]
      have kept (row : OutboxRow) : (isAhead target stuck ∘ fun row =>
          if row.messageID = id then { row with published := true } else row) row =
          (((fun entry => decide (entry.messageID ≠ messageID)) ∘ entryOf) row &&
            isAhead target stuck row) := by
        by_cases same : row.messageID = id
        · have text : row.messageID.text = messageID := by rw [same, cast_uuid_some cast]
          simp [same, isAhead, entryOf, cast_uuid_some cast]
        · have other : row.messageID.text ≠ messageID := by
            intro text
            rw [← text, cast_uuid_text] at cast
            exact same (Option.some.inj cast)
          simp [same, entryOf, other]
      rw [List.filter_congr fun row _ => kept row]
      apply List.map_congr_left
      intro row listed
      rw [Function.comp_apply]
      split_ifs <;> rfl

/-- As long as something waited for is pending, a batch has an entry that is
ahead. -/
theorem fetched_ahead {collation : Bytes → Bytes → Bool} (linear : LinearCollation collation)
    (sound : DatabaseSound db) {limit : Nat} (few : stuck.length < limit)
    (free : target.room ∉ stuck) (targeted : TargetSound target db)
    (waiting : ¬ Published target db) :
    ∃ entry ∈ nextPending collation db limit, entry ∈ ahead target stuck db := by
  simp only [Published, not_forall] at waiting
  rcases waiting with ⟨row, listed, room, due, unpublished⟩
  rcases exists_head sound listed (Bool.eq_false_iff.mpr unpublished) with
    ⟨head, member, sameRoom, lower⟩
  have known := pending_head member
  have headRoom : head.roomID = target.room := sameRoom.trans room
  have headDue : head.roomSeq ≤ target.seq := le_trans lower due
  have headAhead : isAhead target stuck head = true :=
    is_ahead_iff.mpr ⟨known.2.1, headRoom ▸ free, .inl ⟨headRoom, headDue⟩⟩
  have picked {other : OutboxRow}
      (taken : other ∈ ((pendingHeads db).mergeSort (rowOrder collation)).take limit)
      (isFirst : isAhead target stuck other = true) :
      ∃ entry ∈ nextPending collation db limit, entry ∈ ahead target stuck db := by
    have otherHead := List.mem_mergeSort.mp (List.mem_of_mem_take taken)
    exact ⟨entryOf other, List.mem_map_of_mem taken,
      mem_ahead.mpr ⟨other, (pending_head otherHead).1, isFirst, rfl⟩⟩
  rcases taken_or_before (heads_sorted linear db) (List.mem_mergeSort.mpr member) limit with
    taken | ⟨full, earlier⟩
  · exact picked taken headAhead
  · -- The batch is full of rows that are not younger, and not all of them can be stuck.
    rcases exists_outside (heads_rooms sound collation limit)
      (show stuck.length < _ by rw [full]; exact few) with ⟨other, taken, outside⟩
    have otherHead := List.mem_mergeSort.mp (List.mem_of_mem_take taken)
    apply picked taken
    by_cases same : other.roomID = target.room
    · rw [head_unique sound otherHead member (same.trans headRoom.symm)]
      exact headAhead
    · have older : other.createdAt.instant ≤ head.createdAt.instant := by
        rcases row_order_iff.mp (earlier other taken) with before | ⟨equal, _⟩
        · exact le_of_lt before
        · exact le_of_eq equal
      have inTime := le_trans older (targeted.created head known.1 headRoom headDue)
      exact is_ahead_iff.mpr ⟨(pending_head otherHead).2.1, outside, .inr ⟨same, inTime⟩⟩

end Ahead

section Turns

/-- What a step can do to the outbox while the target is waited for. -/
inductive Turns (target : Target) (db : Database) : Database → Prop
  | same {after : Database} (outbox : after.outbox = db.outbox) : Turns target db after
  | marked (messageID : Bytes) : Turns target db (markPublished db messageID)
  | added {after : Database} {row : OutboxRow} (outbox : after.outbox = db.outbox ++ [row])
      (last : ∀ old ∈ db.outbox, old.roomID = row.roomID → old.roomSeq < row.roomSeq)
      (younger : row.roomID ≠ target.room → target.deadline < row.createdAt.instant) :
      Turns target db after

variable {target : Target} {db after : Database}

/-- A row waited for was there before, not published later than now. -/
theorem turns_row (targeted : TargetSound target db) (turns : Turns target db after)
    {row : OutboxRow} (listed : row ∈ after.outbox) (room : row.roomID = target.room)
    (due : row.roomSeq ≤ target.seq) :
    ∃ old ∈ db.outbox, old.roomID = row.roomID ∧ old.roomSeq = row.roomSeq ∧
      old.createdAt = row.createdAt ∧ (old.published = true → row.published = true) := by
  cases turns with
  | same outbox => exact ⟨row, outbox ▸ listed, rfl, rfl, rfl, id⟩
  | marked messageID =>
      rcases mark_row listed with ⟨old, oldListed, rfl | ⟨_, rfl⟩⟩
      · exact ⟨row, oldListed, rfl, rfl, rfl, id⟩
      · exact ⟨old, oldListed, rfl, rfl, rfl, fun _ => rfl⟩
  | added outbox last younger =>
      rw [outbox, List.mem_append, List.mem_singleton] at listed
      rcases listed with before | rfl
      · exact ⟨row, before, rfl, rfl, rfl, id⟩
      · rcases targeted.assigned with ⟨assigned, assignedListed, assignedRoom, assignedSeq⟩
        have later := last assigned assignedListed (assignedRoom.trans room.symm)
        omega

theorem turns_targeted (targeted : TargetSound target db) (turns : Turns target db after) :
    TargetSound target after where
  assigned := by
    rcases targeted.assigned with ⟨row, listed, room, seq⟩
    cases turns with
    | same outbox => exact ⟨row, outbox ▸ listed, room, seq⟩
    | marked messageID =>
        have member : entryOf row ∈ (markPublished db messageID).outbox.map entryOf :=
          mark_map db messageID entryOf (fun _ => rfl) ▸ List.mem_map_of_mem listed
        rcases List.mem_map.mp member with ⟨next, nextListed, same⟩
        have fields := entry_fields same
        exact ⟨next, nextListed, fields.2.1.trans room, fields.2.2.1.trans seq⟩
    | added outbox last younger =>
        exact ⟨row, outbox ▸ List.mem_append_left _ listed, room, seq⟩
  created := by
    intro row listed room due
    rcases turns_row targeted turns listed room due with
      ⟨old, oldListed, sameRoom, sameSeq, sameTime, _⟩
    rw [← sameTime]
    exact targeted.created old oldListed (sameRoom.trans room) (sameSeq ▸ due)

theorem turns_published (targeted : TargetSound target db) (turns : Turns target db after)
    (published : Published target db) : Published target after := by
  intro row listed room due
  rcases turns_row targeted turns listed room due with ⟨old, oldListed, sameRoom, sameSeq, _, kept⟩
  exact kept (published old oldListed (sameRoom.trans room) (sameSeq ▸ due))

theorem turns_ahead (stuck : List Bytes) (targeted : TargetSound target db)
    (turns : Turns target db after) :
    (ahead target stuck after).Sublist (ahead target stuck db) := by
  cases turns with
  | same outbox =>
      rw [ahead, outbox]
      exact List.Sublist.refl _
  | marked messageID =>
      rw [ahead_mark]
      exact List.filter_sublist
  | @added _ row outbox last younger =>
      have behind : isAhead target stuck row = false := by
        rw [Bool.eq_false_iff]
        intro isFirst
        rcases (is_ahead_iff.mp isFirst).2.2 with ⟨room, due⟩ | ⟨apart, early⟩
        · rcases targeted.assigned with ⟨assigned, listed, assignedRoom, assignedSeq⟩
          have later := last assigned listed (assignedRoom.trans room.symm)
          omega
        · exact absurd early (not_le.mpr (younger apart))
      rw [ahead, outbox, List.filter_append, List.filter_singleton, behind]
      simp [ahead]

end Turns

section Potential

def inCycle : RelayStage → Bool
  | .down => false
  | .idle => false
  | _ => true

/-- A cycle under way that holds no entry ahead any more has done its part. -/
def credit (waiting : List Entry) (stage : RelayStage) : Nat :=
  (inCycle stage && !(heldEntries stage).any waiting.contains).toNat

variable {waiting left : List Entry} {stage next : RelayStage}

theorem credit_le (waiting : List Entry) (stage : RelayStage) : credit waiting stage ≤ 1 :=
  Bool.toNat_le _

theorem credit_holding {entry : Entry} (held : entry ∈ heldEntries stage)
    (listed : entry ∈ waiting) : credit waiting stage = 0 := by
  have holds : (heldEntries stage).any waiting.contains = true :=
    List.any_eq_true.mpr ⟨entry, held, List.contains_iff_mem.mpr listed⟩
  rw [credit, holds, Bool.not_true, Bool.and_false, Bool.toNat_false]

/-- A stage may give up entries that are not ahead. -/
theorem credit_follows (cycling : inCycle stage = true)
    (kept : ∀ entry ∈ heldEntries stage, entry ∈ waiting → entry ∈ heldEntries next) :
    credit waiting next ≤ credit waiting stage := by
  cases holds : (heldEntries stage).any waiting.contains with
  | true =>
      rcases List.any_eq_true.mp holds with ⟨entry, member, listed⟩
      have ahead := List.contains_iff_mem.mp listed
      rw [credit_holding (kept entry member ahead) ahead]
      exact Nat.zero_le _
  | false =>
      have full : credit waiting stage = 1 := by
        rw [credit, holds, cycling]
        rfl
      rw [full]
      exact credit_le waiting next

/-- When rows go out of the way, that pays for the rest of the cycle. -/
theorem potential_le (fewer : left.Sublist waiting)
    (same : left = waiting → credit waiting next ≤ credit waiting stage) :
    left.length + credit left next ≤ waiting.length + credit waiting stage := by
  by_cases equal : left = waiting
  · rw [equal]
    exact Nat.add_le_add_left (same equal) _
  · have shorter : left.length < waiting.length :=
      lt_of_le_of_ne fewer.length_le fun length => equal (fewer.eq_of_length length)
    have bound := credit_le left next
    omega

end Potential

section Steps

variable {Caller Relay : Type} [Fintype Caller] [DecidableEq Caller] [DecidableEq Relay]
  {environment : Environment Relay} {inputs : Caller → Input} {relay : Relay}
  {target : Target} {stuck : List Bytes} {system after : System Caller Relay}
  {action : OutboxRelayModel.Action Caller Relay}

/-- The entry that a failure would make the relay give up for this cycle. -/
def givenUp (config : RelayConfig) : RelayStage → Option Entry
  | .publishing entry attempt _ _ => if config.maxRetries ≤ attempt then some entry else none
  | .marking entry _ => some entry
  | _ => none

/-- The relay is not stopped and gives up only entries of the stuck rooms, and what
is accepted meanwhile in other rooms is younger than the deadline. -/
def Undisturbed (environment : Environment Relay) (inputs : Caller → Input) (relay : Relay)
    (stuck : List Bytes) (target : Target) (system : System Caller Relay) :
    OutboxRelayModel.Action Caller Relay → Prop
  | .store action => ∀ next ∈ MessageStoreModel.step environment.columns inputs system.store action,
      ∀ row ∈ next.db.outbox.drop system.store.db.outbox.length, row.roomID ≠ target.room →
        target.deadline < row.createdAt.instant
  | .relay other move => other = relay → match move with
      | .halt _ => False
      | .fail _ | .markFail => ∀ entry ∈ givenUp (environment.configs relay) (system.relays relay),
          stuck.contains entry.roomID = true
      | _ => True
  | .late _ => True

/-- The relay has come to the end of a batch. -/
def endsCycle (relay : Relay)
    (taken : Transition (System Caller Relay) (OutboxRelayModel.Action Caller Relay)) : Bool :=
  match taken.action, taken.before.relays relay with
  | .relay other .next, .batch [] => decide (other = relay)
  | _, _ => false

omit [Fintype Caller] [DecidableEq Caller] in
theorem ends_cycle_iff {taken : Transition (System Caller Relay)
    (OutboxRelayModel.Action Caller Relay)} : endsCycle relay taken = true ↔
      taken.action = .relay relay .next ∧ taken.before.relays relay = .batch [] := by
  unfold endsCycle
  split
  · rename_i other acts stage
    simp [acts, stage]
  · rename_i none
    constructor
    · intro ended
      cases ended
    · intro ends
      exact absurd ends.2 (none relay ends.1)

theorem step_turns (sound : RelaySound inputs system)
    (permitted : Undisturbed environment inputs relay stuck target system action)
    (stepped : step environment inputs system action = some after) :
    Turns target system.store.db after.store.db := by
  cases action with
  | store action =>
      rcases Option.map_eq_some_iff.mp stepped with ⟨store, storeStepped, rfl⟩
      rcases step_outbox sound.store storeStepped with same | ⟨row, grown, _, last⟩
      · exact .same same
      · refine .added grown last ?_
        exact permitted store storeStepped row (by rw [grown, List.drop_left]; simp)
  | relay other move =>
      rcases Option.map_eq_some_iff.mp stepped with ⟨effect, moved, rfl⟩
      cases relay_effect_cases moved with
      | quiet quiet => exact .same (by rw [quiet.db])
      | fetched => exact .same rfl
      | appended => exact .same rfl
      | marked => exact .marked _
  | late record =>
      simp only [step] at stepped
      split_ifs at stepped
      cases stepped
      exact .same rfl

/-- What the relay itself can do but end a cycle: mark the entry it is at, or keep
every entry that is ahead. -/
theorem own_move {collation : Bytes → Bytes → Bool} {config : RelayConfig} {db : Database}
    {log inflight : List Record} {stage : RelayStage} {move : RelayMove} {effect : Effect}
    {waiting : List Entry}
    (moved : relayEffect collation config db log inflight stage move = some effect)
    (valid : ∀ entry ∈ heldEntries stage, validateEntry entry = .ok ())
    (fetched : ∃ entry ∈ nextPending collation db config.batchSize, entry ∈ waiting)
    (running : ∀ late, move ≠ .halt late) (going : stage = .batch [] → move ≠ .next)
    (given : ∀ late, move = .fail late ∨ move = .markFail →
      ∀ entry ∈ givenUp config stage, entry ∉ waiting) :
    (∃ entry rest, stage = .marking entry rest ∧
      effect = ⟨markPublished db entry.messageID, .batch rest, log, inflight⟩) ∨
    effect.db = db ∧ credit waiting effect.stage ≤ credit waiting stage := by
  unfold relayEffect at moved
  split at moved
  case h_1 =>
      cases moved
      exact .inr ⟨rfl, le_refl _⟩
  case h_2 =>
      cases moved
      rcases fetched with ⟨entry, taken, listed⟩
      have holding : credit waiting (.batch (nextPending collation db config.batchSize)) = 0 :=
        credit_holding taken listed
      exact .inr ⟨rfl, le_of_eq_of_le holding (Nat.zero_le _)⟩
  case h_3 =>
      exact absurd rfl (going rfl)
  case h_4 entry rest =>
      rw [valid entry List.mem_cons_self] at moved
      cases moved
      exact .inr ⟨rfl, credit_follows rfl fun _ member _ => member⟩
  case h_5 =>
      cases moved
      exact .inr ⟨rfl, credit_follows rfl fun _ member _ => member⟩
  case h_6 =>
      cases moved
      exact .inr ⟨rfl, credit_follows rfl fun _ member _ => member⟩
  case h_7 late entry attempt appended rest =>
      dsimp only at moved
      split_ifs at moved with last
      · cases moved
        refine .inr ⟨rfl, credit_follows rfl ?_⟩
        intro other member listed
        rcases List.mem_cons.mp member with rfl | there
        · exact absurd listed (given late (.inl rfl) _ (if_pos last))
        · exact there
      · cases moved
        exact .inr ⟨rfl, credit_follows rfl fun _ member _ => member⟩
  case h_8 =>
      cases moved
      exact .inr ⟨rfl, credit_follows rfl fun _ member _ => member⟩
  case h_9 entry rest =>
      cases moved
      exact .inl ⟨entry, rest, rfl, rfl⟩
  case h_10 entry rest =>
      cases moved
      refine .inr ⟨rfl, credit_follows rfl ?_⟩
      intro other member listed
      rcases List.mem_cons.mp member with rfl | there
      · exact absurd listed (given false (.inr rfl) _ rfl)
      · exact there
  case h_11 late => exact absurd rfl (running late)
  case h_12 => cases moved

def potential (target : Target) (stuck : List Bytes) (relay : Relay)
    (system : System Caller Relay) : Nat :=
  (ahead target stuck system.store.db).length +
    credit (ahead target stuck system.store.db) (system.relays relay)

omit [Fintype Caller] [DecidableEq Caller] [DecidableEq Relay] in
theorem held_valid (keeps : KeepsJson environment.columns) (sound : RelaySound inputs system)
    (contents : ContentsSound environment.columns inputs system.store) (relay : Relay) :
    ∀ entry ∈ heldEntries (system.relays relay), validateEntry entry = .ok () := by
  intro entry held
  rcases ((sound.stages relay).held entry held).known with ⟨row, listed, rfl⟩
  rcases contents.rows row listed with ⟨_, _, _, _, writes⟩
  exact (written_row_travels keeps writes).relayed

/-- A step of the store, of the broker or of another relay leaves the relay where it
is. -/
theorem other_step (stepped : step environment inputs system action = some after)
    (other : ∀ move, action ≠ .relay relay move) :
    after.relays relay = system.relays relay := by
  cases action with
  | store action =>
      rcases Option.map_eq_some_iff.mp stepped with ⟨store, _, rfl⟩
      rfl
  | relay acting move =>
      rcases Option.map_eq_some_iff.mp stepped with ⟨effect, _, rfl⟩
      have apart : relay ≠ acting := by
        rintro rfl
        exact other move rfl
      exact Function.update_of_ne apart _ _
  | late record =>
      simp only [step] at stepped
      split_ifs at stepped
      cases stepped
      rfl

omit [DecidableEq Relay] in
/-- What the relay gives up is not ahead. -/
theorem given_up_behind {move : RelayMove}
    (permitted : Undisturbed environment inputs relay stuck target system (.relay relay move))
    (late : Bool) (failing : move = .fail late ∨ move = .markFail) :
    ∀ entry ∈ givenUp (environment.configs relay) (system.relays relay),
      entry ∉ ahead target stuck system.store.db := by
  intro entry dropped listed
  have excluded : stuck.contains entry.roomID = true := by
    rcases failing with rfl | rfl
    · exact permitted rfl entry dropped
    · exact permitted rfl entry dropped
  rcases mem_ahead.mp listed with ⟨row, _, isFirst, rfl⟩
  exact (is_ahead_iff.mp isFirst).2.1 (List.contains_iff_mem.mp excluded)

theorem step_potential (keeps : KeepsJson environment.columns)
    (linear : LinearCollation environment.collation)
    (few : stuck.length < (environment.configs relay).batchSize) (free : target.room ∉ stuck)
    (sound : RelaySound inputs system)
    (contents : ContentsSound environment.columns inputs system.store)
    (targeted : TargetSound target system.store.db)
    (permitted : Undisturbed environment inputs relay stuck target system action)
    (stepped : step environment inputs system action = some after)
    (waiting : ¬ Published target system.store.db) :
    (endsCycle relay ⟨system, action, after⟩).toNat + potential target stuck relay after ≤
      potential target stuck relay system := by
  have fewer := turns_ahead stuck targeted (step_turns sound permitted stepped)
  by_cases own : ∃ move, action = .relay relay move
  · rcases own with ⟨move, rfl⟩
    rcases Option.map_eq_some_iff.mp stepped with ⟨effect, moved, made⟩
    have tables : after.store.db = effect.db := by rw [← made]
    have place : after.relays relay = effect.stage := by
      rw [← made]
      exact Function.update_self _ _ _
    rw [tables] at fewer
    rw [potential, potential, tables, place]
    by_cases ended : move = .next ∧ system.relays relay = .batch []
    · rcases ended with ⟨rfl, stage⟩
      rw [stage] at moved ⊢
      cases moved
      have ends := Bool.toNat_le (endsCycle relay ⟨system, .relay relay .next, after⟩)
      have least : credit (ahead target stuck system.store.db) (.batch []) = 1 := rfl
      have none : credit (ahead target stuck system.store.db) .idle = 0 := rfl
      dsimp only
      rw [least, none]
      omega
    · have quiet : endsCycle relay ⟨system, .relay relay move, after⟩ = false := by
        rw [Bool.eq_false_iff]
        intro ends
        rcases ends_cycle_iff.mp ends with ⟨acts, stage⟩
        cases acts
        exact ended ⟨rfl, stage⟩
      rw [quiet, Bool.toNat_false, Nat.zero_add]
      apply potential_le fewer
      intro same
      have fetched := fetched_ahead linear sound.store.database few free targeted waiting
      have running : ∀ late, move ≠ .halt late := by
        rintro late rfl
        exact permitted rfl
      rcases own_move moved (held_valid keeps sound contents relay) fetched running
        (fun stage next => ended ⟨next, stage⟩) (given_up_behind permitted) with
        ⟨entry, rest, stage, rfl⟩ | ⟨_, smaller⟩
      · -- The entry is not ahead any more, so it was not if nothing has changed.
        rw [stage]
        apply credit_follows rfl
        intro other member listed
        rcases List.mem_cons.mp member with rfl | there
        · rw [← same, ahead_mark, List.mem_filter] at listed
          simp at listed
        · exact there
      · exact smaller
  · have quiet : endsCycle relay ⟨system, action, after⟩ = false := by
      rw [Bool.eq_false_iff]
      intro ended
      exact own ⟨_, (ends_cycle_iff.mp ended).1⟩
    have still : after.relays relay = system.relays relay :=
      other_step stepped fun move acts => own ⟨move, acts⟩
    rw [quiet, Bool.toNat_false, Nat.zero_add, potential, still]
    exact potential_le fewer fun _ => le_refl _

end Steps

section Results

variable {Caller Relay : Type} [Fintype Caller] [DecidableEq Caller] [DecidableEq Relay]

instance (environment : Environment Relay) (inputs : Caller → Input) (relay : Relay)
    (stuck : List Bytes) (target : Target) (system : System Caller Relay)
    (action : OutboxRelayModel.Action Caller Relay) :
    Decidable (Undisturbed environment inputs relay stuck target system action) := by
  unfold Undisturbed
  split
  · infer_instance
  · split <;> infer_instance
  · infer_instance

/-- The messages of a room up to some number are published and in the log once a
relay has completed more cycles than there were pending rows ahead. -/
theorem published_after_cycles (environment : Environment Relay) (inputs : Caller → Input)
    (keeps : KeepsJson environment.columns) (linear : LinearCollation environment.collation)
    (relay : Relay) (stuck : List Bytes)
    (few : stuck.length < (environment.configs relay).batchSize)
    (start : System Caller Relay)
    (reached : Reachable (step environment inputs) anyStep initial start)
    (target : Target) (free : target.room ∉ stuck)
    (targeted : TargetSound target start.store.db)
    (trace : List (Transition (System Caller Relay) (OutboxRelayModel.Action Caller Relay)))
    (system : System Caller Relay)
    (run : Run (step environment inputs) (Undisturbed environment inputs relay stuck target) start
      trace system)
    (enough : (ahead target stuck start.store.db).length < rounds (endsCycle relay) trace) :
    ∀ row ∈ system.store.db.outbox, row.roomID = target.room → row.roomSeq ≤ target.seq →
      row.published = true ∧ recordOf (entryOf row) ∈ system.log := by
  have sound {state : System Caller Relay}
      (further : Reachable (step environment inputs)
        (Undisturbed environment inputs relay stuck target) start state) :
      (RelaySound inputs state ∧ ContentsSound environment.columns inputs state.store) ∧
        TargetSound target state.store.db := by
    apply reachable_invariant _ ⟨⟨reachable_relay_sound reached, reachable_contents reached⟩,
      targeted⟩ _ further
    intro before action after known permitted stepped
    exact ⟨⟨step_relay_sound known.1.1 stepped, relay_step_contents known.1.1 known.1.2 stepped⟩,
      turns_targeted known.2 (step_turns known.1.1 permitted stepped)⟩
  have bound := run_rounds (fun state => Published target state.store.db)
    (potential target stuck relay) (endsCycle relay) run
    (by
      intro taken listed published
      rcases run_transition run listed with ⟨before, permitted, stepped⟩
      have known := sound before
      exact turns_published known.2 (step_turns known.1.1 permitted stepped) published)
    (by
      intro taken listed waiting
      rcases run_transition run listed with ⟨before, permitted, stepped⟩
      have known := sound before
      exact step_potential keeps linear few free known.1.1 known.1.2 known.2 permitted stepped
        waiting)
  have published : Published target system.store.db := by
    rcases bound with done | paid
    · exact done
    · intro row listed room due
      by_contra pending
      have first : entryOf row ∈ ahead target stuck system.store.db := by
        apply mem_ahead.mpr
        refine ⟨row, listed, is_ahead_iff.mpr ⟨Bool.eq_false_iff.mpr pending, ?_, ?_⟩, rfl⟩
        · rw [room]
          exact free
        · exact .inl ⟨room, due⟩
      have some := List.length_pos_of_mem first
      have least := credit_le (ahead target stuck start.store.db) (start.relays relay)
      simp only [potential] at paid
      omega
  intro row listed room due
  have marked := published row listed room due
  exact ⟨marked, ((sound ⟨trace, run⟩).1.1.published row listed marked).2⟩

theorem bytes_linear : LinearCollation byBytes where
  total := by
    intro left right
    rw [byBytes, byBytes, decide_eq_true_iff, decide_eq_true_iff]
    exact List.le_total left right
  trans := by
    intro left middle right first second
    rw [byBytes, decide_eq_true_iff] at first second ⊢
    exact List.le_trans first second
  antisymm := by
    intro left right first second
    rw [byBytes, decide_eq_true_iff] at first second
    exact List.le_antisymm first second

def roomOf (caller : Fin 3) : Bytes :=
  [ascii "attic", ascii "cellar", ascii "lobby"].getD caller []

/-- One message for each of three rooms. -/
def threeRooms (caller : Fin 3) : Input where
  clientID := ascii "ann"
  request := ⟨ascii "send", 1, roomOf caller, roomOf caller, ascii "\"hi\""⟩

def threePosts : List (OutboxRelayModel.Action (Fin 3) Unit) :=
  ((List.finRange 3).flatMap fun caller => runOf caller (.ofNat (caller.val + 1)) 9).map .store

/-- Two entries at a time, tried twice. -/
def pairConfig : RelayConfig := ⟨2, 2, by decide, by decide⟩

def byteRelay : Environment Unit := ⟨jsonColumns, byBytes, fun _ => pairConfig⟩

def attic : List Bytes := [ascii "attic"]

def lobbyTarget : Target := ⟨ascii "lobby", 1, CivilTime.sampleTime.instant⟩

/-- The relay gives an entry up after its second attempt. -/
def givesUp : List RelayMove := [.next, .fail false, .retry, .fail true]

def publishes : List RelayMove := [.next, .append, .succeed, .mark]

/-- Every cycle fetches the message of the stuck room first. The first cycle then
publishes the cellar's, the second the lobby's. -/
def threeCycles : List RelayMove :=
  [.start, .fetch] ++ givesUp ++ publishes ++ [.next, .fetch] ++ givesUp ++ publishes ++
    [.next, .fetch] ++ givesUp ++ [.next]

def holdsTarget (target : Target) (db : Database) : Bool :=
  (db.outbox.any fun row => row.roomID == target.room && row.roomSeq == target.seq) &&
    db.outbox.all fun row => decide (row.createdAt.instant ≤ target.deadline)

theorem holds_target_sound {target : Target} {db : Database}
    (holds : holdsTarget target db = true) : TargetSound target db := by
  simp only [holdsTarget, Bool.and_eq_true, List.any_eq_true, List.all_eq_true, beq_iff_eq,
    decide_eq_true_eq] at holds
  exact ⟨holds.1, fun row listed _ _ => holds.2 row listed⟩

/-- A step in which the fetched heads are in order already. -/
def presortedStep (environment : Environment Relay) (inputs : Caller → Input)
    (system : System Caller Relay) (action : OutboxRelayModel.Action Caller Relay) :
    Option (System Caller Relay) :=
  match action with
  | .relay relay .fetch =>
      let heads := pendingHeads system.store.db
      match system.relays relay, decide (heads.Pairwise (rowOrder environment.collation · ·)) with
      | .idle, true =>
          let entries := (heads.take (environment.configs relay).batchSize).map entryOf
          some { system with relays := Function.update system.relays relay (.batch entries) }
      | _, _ => none
  | action => step environment inputs system action

-- The kernel does not evaluate the merge sort of a fetch, which recurs on a length.
theorem presorted_step {environment : Environment Relay} {inputs : Caller → Input}
    (system : System Caller Relay) (action : OutboxRelayModel.Action Caller Relay)
    (next : System Caller Relay)
    (stepped : presortedStep environment inputs system action = some next) :
    step environment inputs system action = some next := by
  unfold presortedStep at stepped
  split at stepped
  · rename_i relay
    dsimp only at stepped
    split at stepped
    · rename_i idle sorted
      have order := List.mergeSort_of_pairwise (of_decide_eq_true sorted)
      rw [← stepped, step, idle, relayEffect, nextPending, order]
      rfl
    · cases stepped
  · exact stepped

theorem cycles_ran : ((runActions (step byteRelay threeRooms) anyStep initial threePosts).bind
    fun start => (traceActions (presortedStep byteRelay threeRooms)
      (Undisturbed byteRelay threeRooms () attic lobbyTarget) [] start
      (threeCycles.map (.relay ()))).map fun ran =>
        (holdsTarget lobbyTarget start.store.db, (ahead lobbyTarget attic start.store.db).length,
          rounds (endsCycle ()) ran.1, ran.2.store.db.outbox.map OutboxRow.published)) =
    some (true, 2, 3, [false, true, true]) := by
  decide +kernel

theorem lobby_published :
    ∃ start : System (Fin 3) Unit,
      Reachable (step byteRelay threeRooms) anyStep initial start ∧
      TargetSound lobbyTarget start.store.db ∧ ∃ trace system,
        Run (step byteRelay threeRooms) (Undisturbed byteRelay threeRooms () attic lobbyTarget)
          start trace system ∧
        system.store.db.outbox.map OutboxRow.published = [false, true, true] ∧
        ∀ row ∈ system.store.db.outbox, row.roomID = lobbyTarget.room →
          row.roomSeq ≤ lobbyTarget.seq →
            row.published = true ∧ recordOf (entryOf row) ∈ system.log := by
  rcases Option.bind_eq_some_iff.mp cycles_ran with ⟨start, accepted, cycled⟩
  rcases Option.map_eq_some_iff.mp cycled with ⟨⟨trace, system⟩, ran, facts⟩
  simp only [Prod.mk.injEq] at facts
  rcases facts with ⟨holds, waiting, three, marked⟩
  have reached := reachable_run_actions reachable_start accepted
  have targeted := holds_target_sound holds
  have run := run_trace_actions presorted_step .nil ran
  have enough : (ahead lobbyTarget attic start.store.db).length <
      rounds (endsCycle ()) trace := by
    rw [waiting, three]
    decide
  exact ⟨start, reached, targeted, trace, system, run, marked,
    published_after_cycles byteRelay threeRooms json_columns_keep bytes_linear () attic (by decide)
      start reached lobbyTarget (by decide +kernel) targeted trace system run enough⟩

end Results

end ChatScale.RelayFairness
