import ChatScale.IdSequence
import ChatScale.RoomOutboxModel

/-!
# Who may dispatch an outbox row

What a call and a relay can do in one move, and what follows for every state
they can reach: an id is drawn once, a row is claimed by at most one open
transaction and only while it has no stamp, and what is stamped has been handed
over.
-/

namespace ChatScale.RoomOutboxClaims

open ChatScale.ByteText ChatScale.IdSequence ChatScale.RoomOutboxModel ChatScale.TransitionSystem
open ChatScale.RoomHubModel (Variant)

set_option autoImplicit false

section Moves

def commitsRows : WriterMove → Bool
  | .commit => true
  | .commitLost => true
  | _ => false

/-- All a move of a call does to the outbox. -/
inductive WriterEffect (db : Database) (stage : WriterStage) (move : WriterMove) :
    Database → WriterStage → Prop where
  | quiet {after : Database} {next : WriterStage} (outbox : after.outbox = db.outbox)
      (sequence : after.nextOutbox = db.nextOutbox) (nothing : next.written = none) :
      WriterEffect db stage move after next
  | draws {after : Database} {next : WriterStage} {event : OutboxRow}
      (outbox : after.outbox = db.outbox) (sequence : after.nextOutbox = db.nextOutbox + 1)
      (written : next.written = some event) (drawn : event.id = db.nextOutbox)
      (pending : event.dispatched = false) : WriterEffect db stage move after next
  | commits {after : Database} {next : WriterStage} {event : OutboxRow}
      (committing : commitsRows move = true) (written : stage.written = some event)
      (outbox : after.outbox = db.outbox ++ [event])
      (sequence : after.nextOutbox = db.nextOutbox) (nothing : next.written = none) :
      WriterEffect db stage move after next

theorem enqueue_outbox_row {columns : Columns} {db : Database} {roomID payload : Bytes}
    {event : OutboxRow} (enqueued : enqueueOutbox columns db roomID payload = some event) :
    event.id = db.nextOutbox ∧ event.dispatched = false := by
  simp only [enqueueOutbox, Option.bind_eq_bind, Option.bind_eq_some_iff,
    Option.ite_none_right_eq_some] at enqueued
  obtain ⟨room, _, stored, _, _, same⟩ := enqueued
  cases same
  exact ⟨rfl, rfl⟩

theorem writer_step_effect {columns : Columns} {request : Request} {db after : Database}
    {stage next : WriterStage} {move : WriterMove}
    (stepped : writerStep columns request db stage move = some (after, next)) :
    WriterEffect db stage move after next := by
  unfold writerStep at stepped
  split at stepped
  · split at stepped
    · cases stepped
      exact .quiet rfl rfl rfl
    · cases stepped
      exact .quiet rfl rfl rfl
  · cases stepped
    exact .quiet rfl rfl rfl
  · split at stepped
    · cases stepped
      exact .quiet rfl rfl rfl
    · cases stepped
      exact .quiet rfl rfl rfl
  · split at stepped
    · cases stepped
      exact .quiet rfl rfl rfl
    · rename_i enqueued
      cases stepped
      obtain ⟨drawn, pending⟩ := enqueue_outbox_row enqueued
      exact .draws rfl rfl rfl drawn pending
  · cases stepped
    exact .commits rfl rfl rfl rfl rfl
  · cases stepped
    exact .commits rfl rfl rfl rfl rfl
  · obtain ⟨error, _, same⟩ := Option.map_eq_some_iff.mp stepped
    cases same
    exact .quiet rfl rfl rfl
  · cases stepped

def commitsBatch (move : RelayMove) : Bool := move = .commit ∨ move = .commitLost

/-- All a move of a relay can do, with what it finds. -/
inductive RelayMoves (variant : Variant) (outbox : List OutboxRow) (elsewhere : Nat → Bool) :
    RelayStage → RelayMove → Effect → Prop where
  | poll : RelayMoves variant outbox elsewhere .idle .poll (goto .draining)
  | select : RelayMoves variant outbox elsewhere .draining .select
      (goto (.claiming (undispatched outbox) []))
  | skip {row : OutboxRow} {rest claimed : List OutboxRow} (short : claimed.length ≠ batchSize)
      (taken : elsewhere row.id = true ∧ variant = .naiveScale ∨
        elsewhere row.id = false ∧ isPending outbox row.id = false) :
      RelayMoves variant outbox elsewhere (.claiming (row :: rest) claimed) .lock
        (goto (.claiming rest claimed))
  | claim {row : OutboxRow} {rest claimed : List OutboxRow} (short : claimed.length ≠ batchSize)
      (free : elsewhere row.id = false) (pending : isPending outbox row.id = true) :
      RelayMoves variant outbox elsewhere (.claiming (row :: rest) claimed) .lock
        (goto (.claiming rest (claimed ++ [row])))
  | abandon {candidates claimed : List OutboxRow}
      (nothing : claimed.mapM outboxEvent = none ∨ claimed.mapM outboxEvent = some []) :
      RelayMoves variant outbox elsewhere (.claiming candidates claimed) .materialise (goto .idle)
  | materialise {candidates claimed : List OutboxRow} {events : List OutboxEvent}
      (filled : candidates = [] ∨ claimed.length = batchSize)
      (decoded : claimed.mapM outboxEvent = some events) :
      RelayMoves variant outbox elsewhere (.claiming candidates claimed) .materialise
        (goto (.dispatching [] events))
  | dispatch {handed : List Handover} {event : OutboxEvent} {waiting : List OutboxEvent}
      {published : Bool} :
      RelayMoves variant outbox elsewhere (.dispatching handed (event :: waiting))
        (.dispatch published)
        ⟨.dispatching (handed ++ [⟨event, published⟩]) waiting, [⟨event, published⟩], []⟩
  | mark {handed : List Handover} :
      RelayMoves variant outbox elsewhere (.dispatching handed []) .mark (goto (.marked handed))
  | commit {batch : List Handover} {move : RelayMove} {next : RelayStage}
      (committing : commitsBatch move = true) (ended : next = .idle ∨ next = .draining) :
      RelayMoves variant outbox elsewhere (.marked batch) move ⟨next, [], batch.map Handover.id⟩
  | fail {stage : RelayStage} : RelayMoves variant outbox elsewhere stage .fail (goto .idle)

theorem relay_effect_moves {variant : Variant} {outbox : List OutboxRow} {elsewhere : Nat → Bool}
    {stage : RelayStage} {move : RelayMove} {effect : Effect}
    (moved : relayEffect variant outbox elsewhere stage move = some effect) :
    RelayMoves variant outbox elsewhere stage move effect := by
  unfold relayEffect at moved
  split at moved
  · cases moved
    exact .poll
  · cases moved
    exact .select
  · split_ifs at moved with full
    unfold lockNext at moved
    split_ifs at moved with taken pending
    · split at moved
      · cases moved
        exact .skip full (.inl ⟨taken, rfl⟩)
      · cases moved
    · cases moved
      exact .claim full (Bool.eq_false_iff.mpr taken) pending
    · cases moved
      exact .skip full (.inr ⟨Bool.eq_false_iff.mpr taken, Bool.eq_false_iff.mpr pending⟩)
  · split_ifs at moved with filled
    cases moved
    unfold materialise
    split
    · rename_i undecodable
      exact .abandon (.inl undecodable)
    · rename_i empty
      exact .abandon (.inr empty)
    · rename_i decoded
      exact .materialise filled decoded
  · cases moved
    exact .dispatch
  · cases moved
    exact .mark
  · cases moved
    refine .commit rfl ?_
    split_ifs
    · exact .inl rfl
    · exact .inr rfl
  · cases moved
    exact .commit rfl (.inl rfl)
  · cases moved
    exact .fail
  · cases moved

end Moves

section Rows

/-- The table has the row, stamped or not. -/
def Current (outbox : List OutboxRow) (row : OutboxRow) : Prop :=
  ∃ dispatched, { row with dispatched := dispatched } ∈ outbox

/-- No row is lost and no row changes but for its stamp. -/
def Keeps (before after : List OutboxRow) : Prop := ∀ row ∈ before, Current after row

def Decoded (outbox : List OutboxRow) (event : OutboxEvent) : Prop :=
  ∃ row ∈ outbox, outboxEvent row = some event

theorem current_of_keeps {before after : List OutboxRow} (keeps : Keeps before after)
    {row : OutboxRow} (current : Current before row) : Current after row := by
  obtain ⟨_, listed⟩ := current
  obtain ⟨dispatched, kept⟩ := keeps _ listed
  exact ⟨dispatched, kept⟩

theorem outbox_event_id {row : OutboxRow} {event : OutboxEvent}
    (decoded : outboxEvent row = some event) : event.id = row.id := by
  obtain ⟨_, _, rfl⟩ := Option.map_eq_some_iff.mp decoded
  rfl

theorem outbox_event_room {row : OutboxRow} {event : OutboxEvent}
    (decoded : outboxEvent row = some event) : event.roomID = row.roomID := by
  obtain ⟨_, _, rfl⟩ := Option.map_eq_some_iff.mp decoded
  rfl

theorem decoded_of_current {outbox : List OutboxRow} {row : OutboxRow} {event : OutboxEvent}
    (current : Current outbox row) (decoded : outboxEvent row = some event) :
    Decoded outbox event := by
  obtain ⟨_, listed⟩ := current
  exact ⟨_, listed, decoded⟩

theorem decoded_of_keeps {before after : List OutboxRow} (keeps : Keeps before after)
    {event : OutboxEvent} (decoded : Decoded before event) : Decoded after event := by
  obtain ⟨row, listed, same⟩ := decoded
  exact decoded_of_current (keeps row listed) same

theorem keeps_append (outbox : List OutboxRow) (event : OutboxRow) :
    Keeps outbox (outbox ++ [event]) :=
  fun row listed => ⟨row.dispatched, List.mem_append_left _ listed⟩

theorem mem_mark_dispatched {outbox : List OutboxRow} {ids : List Nat} {row : OutboxRow} :
    row ∈ markDispatched outbox ids ↔ ∃ old ∈ outbox, row.id = old.id ∧
      row.roomID = old.roomID ∧ row.payload = old.payload ∧
      row.dispatched = (old.dispatched || decide (old.id ∈ ids)) := by
  simp only [markDispatched, List.mem_map]
  constructor
  · rintro ⟨old, listed, rfl⟩
    refine ⟨old, listed, ?_⟩
    split_ifs with stamped
    · simp [stamped]
    · simp [stamped]
  · rintro ⟨old, listed, sameId, sameRoom, samePayload, sameStamp⟩
    refine ⟨old, listed, ?_⟩
    cases row
    simp only at sameId sameRoom samePayload sameStamp
    subst sameId sameRoom samePayload sameStamp
    split_ifs with stamped
    · simp [stamped]
    · simp [stamped]

theorem keeps_mark_dispatched (outbox : List OutboxRow) (ids : List Nat) :
    Keeps outbox (markDispatched outbox ids) := by
  intro row listed
  exact ⟨row.dispatched || decide (row.id ∈ ids),
    mem_mark_dispatched.mpr ⟨row, listed, rfl, rfl, rfl, rfl⟩⟩

theorem mark_dispatched_ids (outbox : List OutboxRow) (ids : List Nat) :
    (markDispatched outbox ids).map OutboxRow.id = outbox.map OutboxRow.id := by
  rw [markDispatched, List.map_map]
  refine List.map_congr_left fun row _ => ?_
  rw [Function.comp_apply]
  split_ifs
  · rfl
  · rfl

theorem mark_dispatched_nil (outbox : List OutboxRow) : markDispatched outbox [] = outbox := by
  simp [markDispatched]

theorem is_pending_iff {outbox : List OutboxRow} {id : Nat} :
    isPending outbox id = true ↔ ∃ row ∈ outbox, row.id = id ∧ row.dispatched = false := by
  simp [isPending]

theorem is_pending_append {outbox : List OutboxRow} {event : OutboxRow} {id : Nat}
    (pending : isPending outbox id = true) : isPending (outbox ++ [event]) id = true := by
  obtain ⟨row, listed, facts⟩ := is_pending_iff.mp pending
  exact is_pending_iff.mpr ⟨row, List.mem_append_left _ listed, facts⟩

theorem is_pending_mark {outbox : List OutboxRow} {ids : List Nat} {id : Nat}
    (pending : isPending outbox id = true) (spared : id ∉ ids) :
    isPending (markDispatched outbox ids) id = true := by
  obtain ⟨row, listed, rfl, unstamped⟩ := is_pending_iff.mp pending
  refine is_pending_iff.mpr ⟨row, mem_mark_dispatched.mpr ⟨row, listed, rfl, rfl, rfl, ?_⟩, rfl,
    unstamped⟩
  rw [unstamped, decide_eq_false spared, Bool.or_false]

theorem row_of_id {outbox : List OutboxRow} (distinct : (outbox.map OutboxRow.id).Nodup)
    {left right : OutboxRow} (leftListed : left ∈ outbox) (rightListed : right ∈ outbox)
    (same : left.id = right.id) : left = right :=
  List.inj_on_of_nodup_map distinct leftListed rightListed same

theorem mem_undispatched {outbox : List OutboxRow} {row : OutboxRow} :
    row ∈ undispatched outbox ↔ row ∈ outbox ∧ row.dispatched = false := by
  simp [undispatched, List.mem_filter]

theorem undispatched_ids_nodup {outbox : List OutboxRow}
    (distinct : (outbox.map OutboxRow.id).Nodup) :
    ((undispatched outbox).map OutboxRow.id).Nodup := by
  have kept : ((outbox.filter fun row => !row.dispatched).map OutboxRow.id).Nodup :=
    distinct.sublist (List.filter_sublist.map _)
  exact ((List.perm_insertionSort _ _).map OutboxRow.id).nodup_iff.mpr kept

end Rows

section Stages

def candidates : RelayStage → List OutboxRow
  | .claiming candidates _ => candidates
  | _ => []

/-- The events the open transaction has handed over. -/
def handed : RelayStage → List Handover
  | .dispatching handed _ => handed
  | .marked batch => batch
  | _ => []

/-- The relay has an open transaction. -/
def isOpen : RelayStage → Bool
  | .idle => false
  | .draining => false
  | _ => true

/-- The rows and events a relay works on are those of the table. -/
def StageKnown (outbox : List OutboxRow) : RelayStage → Prop
  | .claiming candidates claimed => ∀ row ∈ claimed ++ candidates, Current outbox row
  | .dispatching handed waiting =>
      ∀ event ∈ handed.map Handover.event ++ waiting, Decoded outbox event
  | .marked batch => ∀ event ∈ batch.map Handover.event, Decoded outbox event
  | _ => True

structure StageSound (outbox : List OutboxRow) (stage : RelayStage) : Prop where
  distinct : (stage.claimed ++ (candidates stage).map OutboxRow.id).Nodup
  pending : ∀ id ∈ stage.claimed, isPending outbox id = true
  known : StageKnown outbox stage

theorem stage_known_of_keeps {before after : List OutboxRow} (keeps : Keeps before after)
    {stage : RelayStage} (known : StageKnown before stage) : StageKnown after stage := by
  cases stage with
  | idle => exact trivial
  | draining => exact trivial
  | claiming candidates claimed =>
      exact fun row listed => current_of_keeps keeps (known row listed)
  | dispatching handed waiting =>
      exact fun event listed => decoded_of_keeps keeps (known event listed)
  | marked batch => exact fun event listed => decoded_of_keeps keeps (known event listed)

theorem stage_sound_of_ended {outbox : List OutboxRow} {stage : RelayStage}
    (ended : stage = .idle ∨ stage = .draining) : StageSound outbox stage := by
  rcases ended with rfl | rfl
  · exact ⟨List.nodup_nil, nofun, trivial⟩
  · exact ⟨List.nodup_nil, nofun, trivial⟩

theorem decoded_ids {claimed : List OutboxRow} {events : List OutboxEvent}
    (decoded : claimed.mapM outboxEvent = some events) :
    events.map OutboxEvent.id = claimed.map OutboxRow.id := by
  induction claimed generalizing events with
  | nil =>
      cases decoded
      rfl
  | cons row claimed induction =>
      simp only [List.mapM_cons, Option.bind_eq_bind, Option.bind_eq_some_iff] at decoded
      obtain ⟨event, first, rest, others, same⟩ := decoded
      cases same
      rw [List.map_cons, List.map_cons, outbox_event_id first, induction others]

theorem decoded_mem {claimed : List OutboxRow} {events : List OutboxEvent}
    (decoded : claimed.mapM outboxEvent = some events) {event : OutboxEvent}
    (listed : event ∈ events) : ∃ row ∈ claimed, outboxEvent row = some event := by
  induction claimed generalizing events with
  | nil =>
      cases decoded
      cases listed
  | cons row claimed induction =>
      simp only [List.mapM_cons, Option.bind_eq_bind, Option.bind_eq_some_iff] at decoded
      obtain ⟨first, read, rest, others, same⟩ := decoded
      cases same
      rcases List.mem_cons.mp listed with rfl | later
      · exact ⟨row, List.mem_cons_self, read⟩
      · obtain ⟨source, member, found⟩ := induction others later
        exact ⟨source, List.mem_cons_of_mem _ member, found⟩

theorem decodable_rows {claimed : List OutboxRow}
    (decodes : ∀ row ∈ claimed, (outboxEvent row).isSome = true) :
    (claimed.mapM outboxEvent).isSome = true := by
  induction claimed with
  | nil => rfl
  | cons row claimed induction =>
      have first := decodes row List.mem_cons_self
      have others := induction fun later listed => decodes later (List.mem_cons_of_mem _ listed)
      rcases Option.isSome_iff_exists.mp first with ⟨event, read⟩
      rcases Option.isSome_iff_exists.mp others with ⟨events, rest⟩
      rw [List.mapM_cons, read, rest]
      rfl

variable {variant : Variant} {outbox : List OutboxRow} {elsewhere : Nat → Bool}
  {stage : RelayStage} {move : RelayMove} {effect : Effect}

/-- A relay stamps only what it has claimed. -/
theorem stamped_claimed (moves : RelayMoves variant outbox elsewhere stage move effect) {id : Nat}
    (stamped : id ∈ effect.stamped) : id ∈ stage.claimed := by
  cases moves with
  | commit committing ended => exact stamped
  | _ => cases stamped

/-- A commit stamps what its transaction has handed over. -/
theorem mem_stamped (moves : RelayMoves variant outbox elsewhere stage move effect) {id : Nat} :
    id ∈ effect.stamped ↔ commitsBatch move = true ∧ id ∈ (handed stage).map Handover.id := by
  cases moves with
  | commit committing ended => exact ⟨fun stamped => ⟨committing, stamped⟩, fun both => both.2⟩
  | _ => exact ⟨nofun, nofun⟩

theorem commit_hands_nothing (moves : RelayMoves variant outbox elsewhere stage move effect)
    (committing : commitsBatch move = true) : effect.handed = [] := by
  cases moves with
  | dispatch => cases committing
  | _ => rfl

theorem handed_known (known : StageKnown outbox stage) {handover : Handover}
    (listed : handover ∈ handed stage) : Decoded outbox handover.event := by
  cases stage with
  | dispatching handed waiting =>
      exact known _ (List.mem_append_left _ (List.mem_map_of_mem listed))
  | marked batch => exact known _ (List.mem_map_of_mem listed)
  | _ => cases listed

theorem stamped_nodup (moves : RelayMoves variant outbox elsewhere stage move effect)
    (sound : StageSound outbox stage) : effect.stamped.Nodup := by
  cases moves with
  | commit committing ended => exact sound.distinct.sublist (List.sublist_append_left _ _)
  | _ => exact List.nodup_nil

/-- Only the next candidate gets claimed, and only while no other relay holds
it. -/
theorem claimed_after (moves : RelayMoves variant outbox elsewhere stage move effect) {id : Nat}
    (claimed : id ∈ effect.stage.claimed) :
    id ∈ stage.claimed ∨
      elsewhere id = false ∧ ∃ row rest, candidates stage = row :: rest ∧ row.id = id := by
  cases moves with
  | poll => cases claimed
  | select => cases claimed
  | skip short taken => exact .inl claimed
  | claim short free pending =>
      simp only [goto, RelayStage.claimed, List.map_append, List.mem_append, List.map_cons,
        List.map_nil, List.mem_singleton] at claimed
      rcases claimed with old | rfl
      · exact .inl old
      · exact .inr ⟨free, _, _, rfl, rfl⟩
  | abandon nothing => cases claimed
  | materialise filled decoded =>
      simp only [goto, RelayStage.claimed, List.map_nil, List.nil_append,
        decoded_ids decoded] at claimed
      exact .inl claimed
  | dispatch =>
      simp only [RelayStage.claimed, List.map_append, List.append_assoc, List.map_cons,
        List.map_nil, List.singleton_append] at claimed
      exact .inl claimed
  | mark =>
      refine .inl ?_
      simpa only [goto, RelayStage.claimed, List.map_nil, List.append_nil] using claimed
  | commit committing ended => rcases ended with rfl | rfl <;> cases claimed
  | fail => cases claimed

/-- Only a rollback gives up what is claimed. -/
theorem claimed_kept (moves : RelayMoves variant outbox elsewhere stage move effect)
    (steady : ¬(move = .fail ∧ isOpen stage = true))
    (decodes : ∀ row, Current outbox row → (outboxEvent row).isSome = true)
    (known : StageKnown outbox stage) {id : Nat} (claimed : id ∈ stage.claimed) :
    id ∈ effect.stage.claimed ∨ id ∈ effect.stamped := by
  cases moves with
  | poll => cases claimed
  | select => cases claimed
  | skip short taken => exact .inl claimed
  | claim short free pending =>
      apply Or.inl
      simp only [goto, RelayStage.claimed, List.map_append]
      exact List.mem_append_left _ claimed
  | @abandon rest rows nothing =>
      rcases nothing with undecodable | empty
      · have readable : (rows.mapM outboxEvent).isSome = true := by
          apply decodable_rows
          intro row listed
          exact decodes row (known row (List.mem_append_left _ listed))
        rw [undecodable] at readable
        cases readable
      · have none : rows.map OutboxRow.id = [] := (decoded_ids empty).symm
        rw [RelayStage.claimed, none] at claimed
        cases claimed
  | materialise filled decoded =>
      apply Or.inl
      simp only [goto, RelayStage.claimed, List.map_nil, List.nil_append, decoded_ids decoded]
      exact claimed
  | dispatch =>
      apply Or.inl
      simp only [RelayStage.claimed, List.map_append, List.append_assoc, List.map_cons,
        List.map_nil, List.singleton_append]
      exact claimed
  | mark =>
      apply Or.inl
      simpa only [goto, RelayStage.claimed, List.map_nil, List.append_nil] using claimed
  | commit committing ended => exact .inr claimed
  | fail =>
      cases stage with
      | idle => cases claimed
      | draining => cases claimed
      | _ => exact absurd ⟨rfl, rfl⟩ steady

theorem handed_after (moves : RelayMoves variant outbox elsewhere stage move effect)
    {handover : Handover} (listed : handover ∈ handed effect.stage) :
    handover ∈ handed stage ∨ handover ∈ effect.handed := by
  cases moves with
  | dispatch => exact List.mem_append.mp listed
  | mark => exact .inl listed
  | commit committing ended => rcases ended with rfl | rfl <;> cases listed
  | _ => cases listed

theorem handed_fresh (moves : RelayMoves variant outbox elsewhere stage move effect)
    {handover : Handover} (listed : handover ∈ effect.handed) :
    handover ∈ handed effect.stage := by
  cases moves with
  | dispatch => exact List.mem_append_right _ listed
  | _ => cases listed

/-- Only a rollback forgets what the open transaction has handed over. -/
theorem handed_kept (moves : RelayMoves variant outbox elsewhere stage move effect)
    (steady : ¬(move = .fail ∧ isOpen stage = true)) {handover : Handover}
    (listed : handover ∈ handed stage) :
    handover ∈ handed effect.stage ∨ handover.id ∈ effect.stamped := by
  cases moves with
  | dispatch => exact .inl (List.mem_append_left _ listed)
  | mark => exact .inl listed
  | commit committing ended => exact .inr (List.mem_map_of_mem listed)
  | fail =>
      cases stage with
      | dispatching handed waiting => exact absurd ⟨rfl, rfl⟩ steady
      | marked batch => exact absurd ⟨rfl, rfl⟩ steady
      | _ => cases listed
  | _ => cases listed

/-- A relay hands over one event at a time, and one it has not yet handed over
in this transaction. -/
theorem handed_new (moves : RelayMoves variant outbox elsewhere stage move effect)
    (sound : StageSound outbox stage) :
    effect.handed = [] ∨ ∃ handover, effect.handed = [handover] ∧ handover.id ∈ stage.claimed ∧
      handover.id ∉ (handed stage).map Handover.id ∧ Decoded outbox handover.event := by
  cases moves with
  | @dispatch earlier event waiting published =>
      refine .inr ⟨⟨event, published⟩, rfl, ?_, ?_, ?_⟩
      · exact List.mem_append_right _ (List.mem_cons_self ..)
      · have distinct := sound.distinct.sublist (List.sublist_append_left _ _)
        intro before
        exact (List.nodup_append.mp distinct).2.2 _ before _ List.mem_cons_self rfl
      · exact sound.known event (List.mem_append_right _ (List.mem_cons_self ..))
  | _ => exact .inl rfl

theorem handed_claimed {handover : Handover} (listed : handover ∈ handed stage) :
    handover.id ∈ stage.claimed := by
  cases stage with
  | dispatching handed waiting =>
      exact List.mem_append_left _ (List.mem_map_of_mem listed)
  | marked batch => exact List.mem_map_of_mem listed
  | _ => cases listed

/-- After the select a stage stays sound while it keeps its claims. -/
theorem stage_sound_same {next : RelayStage} (sound : StageSound outbox stage)
    (same : next.claimed = stage.claimed) (selected : candidates next = [])
    (known : StageKnown outbox next) : StageSound outbox next where
  distinct := by
    rw [same, selected, List.map_nil]
    exact sound.distinct.sublist ((List.nil_sublist _).append_left _)
  pending := by
    rw [same]
    exact sound.pending
  known := known

theorem relay_stage_sound (distinct : (outbox.map OutboxRow.id).Nodup)
    (moves : RelayMoves variant outbox elsewhere stage move effect)
    (sound : StageSound outbox stage) :
    StageSound (markDispatched outbox effect.stamped) effect.stage := by
  cases moves with
  | poll => exact stage_sound_of_ended (.inr rfl)
  | select =>
      rw [goto, mark_dispatched_nil]
      refine ⟨undispatched_ids_nodup distinct, nofun, ?_⟩
      intro row listed
      exact ⟨row.dispatched, (mem_undispatched.mp listed).1⟩
  | @skip row rest claimed short taken =>
      rw [goto, mark_dispatched_nil]
      have fewer : (claimed ++ rest).Sublist (claimed ++ row :: rest) :=
        (List.sublist_cons_self row rest).append_left claimed
      refine ⟨?_, sound.pending, fun other listed => sound.known other (fewer.subset listed)⟩
      have shorter := sound.distinct.sublist
        ((List.sublist_cons_self row.id (rest.map OutboxRow.id)).append_left _)
      exact shorter
  | @claim row rest claimed short free pending =>
      rw [goto, mark_dispatched_nil]
      refine ⟨?_, ?_, ?_⟩
      · have same := sound.distinct
        simp only [RelayStage.claimed, candidates, List.map_append, List.map_cons, List.map_nil,
          List.append_assoc, List.singleton_append] at same ⊢
        exact same
      · intro id listed
        simp only [RelayStage.claimed, List.map_append, List.mem_append, List.map_cons,
          List.map_nil, List.mem_singleton] at listed
        rcases listed with old | rfl
        · exact sound.pending id old
        · exact pending
      · intro other listed
        rw [List.append_assoc, List.singleton_append] at listed
        exact sound.known other listed
  | abandon nothing => exact stage_sound_of_ended (.inl rfl)
  | @materialise rest claimed events filled decoded =>
      rw [goto, mark_dispatched_nil]
      have same : (RelayStage.dispatching [] events).claimed = claimed.map OutboxRow.id :=
        decoded_ids decoded
      apply stage_sound_same sound same rfl
      intro event listed
      rcases decoded_mem decoded listed with ⟨row, member, read⟩
      exact decoded_of_current (sound.known row (List.mem_append_left _ member)) read
  | @dispatch handed event waiting published =>
      rw [mark_dispatched_nil]
      have same : (RelayStage.dispatching (handed ++ [⟨event, published⟩]) waiting).claimed =
          (RelayStage.dispatching handed (event :: waiting)).claimed := by
        simp [RelayStage.claimed, Handover.id]
      apply stage_sound_same sound same rfl
      intro other listed
      apply sound.known other
      simpa using listed
  | @mark handed =>
      rw [goto, mark_dispatched_nil]
      have same : (RelayStage.marked handed).claimed =
          (RelayStage.dispatching handed []).claimed := by
        simp [RelayStage.claimed]
      apply stage_sound_same sound same rfl
      intro event listed
      apply sound.known event
      simpa using listed
  | commit committing ended => exact stage_sound_of_ended ended
  | fail => exact stage_sound_of_ended (.inl rfl)

end Stages

section System

variable {Writer Relay : Type}

/-- Each id is drawn once, by a committed row or by an open transaction. -/
structure SequenceSound (db : Database) (writers : Writer → WriterStage) : Prop where
  distinct : (db.outbox.map OutboxRow.id).Nodup
  below : ∀ row ∈ db.outbox, row.id < db.nextOutbox
  drawn : ∀ writer event, (writers writer).written = some event →
    event.dispatched = false ∧ event.id < db.nextOutbox ∧ event.id ∉ db.outbox.map OutboxRow.id
  apart : ∀ left right leftEvent rightEvent, (writers left).written = some leftEvent →
    (writers right).written = some rightEvent → leftEvent.id = rightEvent.id → left = right

/-- The id of the row each open transaction has enqueued. -/
def drawnIds (writers : Writer → WriterStage) (writer : Writer) : Option Nat :=
  (writers writer).written.map OutboxRow.id

structure ClaimsSound (state : State Writer Relay) : Prop where
  sequence : SequenceSound state.db state.writers
  stages : ∀ relay, StageSound state.db.outbox (state.relays relay)
  exclusive : ∀ left right id, id ∈ (state.relays left).claimed →
    id ∈ (state.relays right).claimed → left = right
  kept : ∀ relay, ∀ handover ∈ handed (state.relays relay), handover ∈ state.handovers
  known : ∀ handover ∈ state.handovers, Decoded state.db.outbox handover.event
  stamps : state.stamps.Nodup
  stamped : ∀ id, id ∈ state.stamps ↔
    ∃ row ∈ state.db.outbox, row.id = id ∧ row.dispatched = true
  dispatched : ∀ row ∈ state.db.outbox, row.dispatched = true →
    ∃ handover ∈ state.handovers, outboxEvent row = some handover.event

/-- An outbox before any relay has worked on it. -/
structure Untouched (db : Database) : Prop where
  distinct : (db.outbox.map OutboxRow.id).Nodup
  below : ∀ row ∈ db.outbox, row.id < db.nextOutbox
  pending : ∀ row ∈ db.outbox, row.dispatched = false

theorem empty_database_untouched : Untouched emptyDatabase := ⟨List.nodup_nil, nofun, nofun⟩

theorem started_claims_sound {db : Database} (untouched : Untouched db) :
    ClaimsSound (started db : State Writer Relay) where
  sequence := by
    refine ⟨untouched.distinct, untouched.below, ?_, ?_⟩
    · intro writer event written
      cases written
    · intro left right leftEvent rightEvent written
      cases written
  stages _ := stage_sound_of_ended (.inl rfl)
  exclusive left right id claimed := by cases claimed
  kept relay handover listed := by cases listed
  known handover listed := by cases listed
  stamps := List.nodup_nil
  stamped id := by
    refine ⟨nofun, ?_⟩
    rintro ⟨row, listed, _, stamped⟩
    rw [untouched.pending row listed] at stamped
    cases stamped
  dispatched row listed stamped := by
    rw [untouched.pending row listed] at stamped
    cases stamped

/-- What a relay has handed over is the event of its row. -/
theorem handed_decoded {state : State Writer Relay} (sound : ClaimsSound state) {relay : Relay}
    {handover : Handover} (inside : handover ∈ handed (state.relays relay)) {row : OutboxRow}
    (listed : row ∈ state.db.outbox) (same : handover.id = row.id) :
    outboxEvent row = some handover.event := by
  obtain ⟨source, present, read⟩ := handed_known (sound.stages relay).known inside
  have unique : source = row :=
    row_of_id sound.sequence.distinct present listed ((outbox_event_id read).symm.trans same)
  exact unique ▸ read

/-- A claimed row has no stamp. -/
theorem claimed_not_stamped {state : State Writer Relay} (sound : ClaimsSound state)
    {relay : Relay} {id : Nat} (claimed : id ∈ (state.relays relay).claimed) :
    id ∉ state.stamps := by
  intro listed
  obtain ⟨row, present, sameId, unstamped⟩ :=
    is_pending_iff.mp ((sound.stages relay).pending id claimed)
  obtain ⟨other, otherPresent, otherId, stamped⟩ := (sound.stamped id).mp listed
  have same : row = other :=
    row_of_id sound.sequence.distinct present otherPresent (sameId.trans otherId.symm)
  rw [same, stamped] at unstamped
  cases unstamped

section Writers

/-- A call leaves the outbox as it is or appends an undispatched row. -/
theorem writer_outbox {db after : Database} {writers : Writer → WriterStage} {writer : Writer}
    {move : WriterMove} {next : WriterStage} (sound : SequenceSound db writers)
    (effect : WriterEffect db (writers writer) move after next) :
    after.outbox = db.outbox ∨ ∃ event, commitsRows move = true ∧
      (writers writer).written = some event ∧ event.dispatched = false ∧
      after.outbox = db.outbox ++ [event] := by
  cases effect with
  | quiet outbox sequence nothing => exact .inl outbox
  | draws outbox sequence written drawn pending => exact .inl outbox
  | commits committing written outbox sequence nothing =>
      exact .inr ⟨_, committing, written, (sound.drawn writer _ written).1, outbox⟩

theorem stage_sound_append {outbox : List OutboxRow} {event : OutboxRow} {stage : RelayStage}
    (sound : StageSound outbox stage) : StageSound (outbox ++ [event]) stage where
  distinct := sound.distinct
  pending id claimed := is_pending_append (sound.pending id claimed)
  known := stage_known_of_keeps (keeps_append outbox event) sound.known

section Sequences

variable {db after : Database} {writers : Writer → WriterStage} {writer : Writer}
  {next : WriterStage}

theorem sequence_sound_iff :
    SequenceSound db writers ↔
      Drawn 0 db.nextOutbox (db.outbox.map OutboxRow.id) (drawnIds writers) ∧
        ∀ writer event, (writers writer).written = some event → event.dispatched = false := by
  constructor
  · intro sound
    refine ⟨⟨Nat.zero_le _, sound.distinct, ?_, ?_, ?_⟩, ?_⟩
    · intro id listed
      obtain ⟨row, present, rfl⟩ := List.mem_map.mp listed
      exact ⟨Nat.zero_le _, sound.below row present⟩
    · intro writer id holds
      obtain ⟨event, written, rfl⟩ := Option.map_eq_some_iff.mp holds
      exact ⟨Nat.zero_le _, (sound.drawn writer event written).2⟩
    · intro left right id leftHolds rightHolds
      obtain ⟨leftEvent, leftWritten, rfl⟩ := Option.map_eq_some_iff.mp leftHolds
      obtain ⟨rightEvent, rightWritten, sameId⟩ := Option.map_eq_some_iff.mp rightHolds
      exact sound.apart left right leftEvent rightEvent leftWritten rightWritten sameId.symm
    · intro writer event written
      exact (sound.drawn writer event written).1
  · rintro ⟨drawn, pending⟩
    have holds {writer : Writer} {event : OutboxRow}
        (written : (writers writer).written = some event) :
        drawnIds writers writer = some event.id := by
      rw [drawnIds, written, Option.map_some]
    refine ⟨drawn.distinct, ?_, ?_, ?_⟩
    · intro row listed
      exact (drawn.within row.id (List.mem_map_of_mem listed)).2
    · intro writer event written
      exact ⟨pending writer event written, (drawn.fresh writer event.id (holds written)).2⟩
    · intro left right leftEvent rightEvent leftWritten rightWritten sameId
      exact drawn.apart left right leftEvent.id (holds leftWritten)
        (sameId ▸ holds rightWritten)

variable [DecidableEq Writer]

theorem drawn_ids_update (writers : Writer → WriterStage) (writer : Writer)
    (stage : WriterStage) :
    drawnIds (Function.update writers writer stage) =
      Function.update (drawnIds writers) writer (stage.written.map OutboxRow.id) :=
  Function.comp_update (fun held : WriterStage => held.written.map OutboxRow.id) writers writer
    stage

theorem sequence_sound_update (sound : SequenceSound db writers)
    (drawn : Drawn 0 after.nextOutbox (after.outbox.map OutboxRow.id)
      (Function.update (drawnIds writers) writer (next.written.map OutboxRow.id)))
    (pending : ∀ event, next.written = some event → event.dispatched = false) :
    SequenceSound after (Function.update writers writer next) := by
  rw [sequence_sound_iff, drawn_ids_update]
  refine ⟨drawn, ?_⟩
  intro other event written
  by_cases same : other = writer
  · rw [same, Function.update_self] at written
    exact pending event written
  · rw [Function.update_of_ne same] at written
    exact (sound.drawn other event written).1

theorem writer_sequence_sound {move : WriterMove} (sound : SequenceSound db writers)
    (effect : WriterEffect db (writers writer) move after next) :
    SequenceSound after (Function.update writers writer next) := by
  have before := (sequence_sound_iff.mp sound).1
  cases effect with
  | quiet outbox sequence nothing =>
      apply sequence_sound_update sound
      · rw [outbox, sequence, nothing]
        exact drawn_release before writer
      · intro event written
        rw [nothing] at written
        cases written
  | draws outbox sequence written drawn pending =>
      apply sequence_sound_update sound
      · rw [outbox, sequence, written, Option.map_some, drawn]
        exact drawn_draw before writer
      · intro event now
        rw [written] at now
        cases now
        exact pending
  | commits committing written outbox sequence nothing =>
      apply sequence_sound_update sound
      · rw [outbox, sequence, nothing, List.map_append]
        exact drawn_commit before (by rw [drawnIds, written, Option.map_some])
      · intro event now
        rw [nothing] at now
        cases now

end Sequences

variable [DecidableEq Writer]

theorem writer_claims_sound {state : State Writer Relay} {after : Database} {writer : Writer}
    {move : WriterMove} {next : WriterStage} (sound : ClaimsSound state)
    (effect : WriterEffect state.db (state.writers writer) move after next) :
    ClaimsSound { state with db := after,
                             writers := Function.update state.writers writer next } := by
  have sequence := writer_sequence_sound sound.sequence effect
  rcases writer_outbox sound.sequence effect with same | ⟨event, _, _, unstamped, appended⟩
  · refine ⟨sequence, ?_, sound.exclusive, sound.kept, ?_, sound.stamps, ?_, ?_⟩
    · simp only [same]
      exact sound.stages
    · simp only [same]
      exact sound.known
    · simp only [same]
      exact sound.stamped
    · simp only [same]
      exact sound.dispatched
  · refine ⟨sequence, ?_, sound.exclusive, sound.kept, ?_, sound.stamps, ?_, ?_⟩
    · intro relay
      simp only [appended]
      exact stage_sound_append (sound.stages relay)
    · intro handover listed
      simp only [appended]
      exact decoded_of_keeps (keeps_append _ _) (sound.known handover listed)
    · intro id
      rw [sound.stamped id]
      simp only [appended, List.mem_append, List.mem_singleton]
      constructor
      · rintro ⟨row, listed, facts⟩
        exact ⟨row, .inl listed, facts⟩
      · rintro ⟨row, listed | rfl, sameId, stamped⟩
        · exact ⟨row, listed, sameId, stamped⟩
        · rw [unstamped] at stamped
          cases stamped
    · intro row listed stamped
      simp only [appended, List.mem_append, List.mem_singleton] at listed
      rcases listed with before | rfl
      · exact sound.dispatched row before stamped
      · rw [unstamped] at stamped
        cases stamped

end Writers

section Relays

variable [DecidableEq Relay]

theorem apply_effect_self (state : State Writer Relay) (relay : Relay) (effect : Effect) :
    (applyEffect state relay effect).relays relay = effect.stage := Function.update_self ..

theorem apply_effect_other {state : State Writer Relay} {relay other : Relay} {effect : Effect}
    (different : other ≠ relay) :
    (applyEffect state relay effect).relays other = state.relays other :=
  Function.update_of_ne different ..

variable {state : State Writer Relay} {relay : Relay} {effect : Effect}

theorem relay_sequence_sound (before : SequenceSound state.db state.writers) :
    SequenceSound (applyEffect state relay effect).db state.writers := by
  refine ⟨?_, ?_, ?_, before.apart⟩
  · simp only [applyEffect, mark_dispatched_ids]
    exact before.distinct
  · intro row listed
    obtain ⟨old, present, sameId, _⟩ := mem_mark_dispatched.mp listed
    rw [sameId]
    exact before.below old present
  · simp only [applyEffect, mark_dispatched_ids]
    exact before.drawn

variable [Fintype Relay] {variant : Variant} {move : RelayMove}

theorem not_locked_elsewhere {id : Nat} {other : Relay}
    (free : lockedElsewhere state.relays relay id = false) (different : other ≠ relay) :
    id ∉ (state.relays other).claimed := by
  intro claimed
  exact of_decide_eq_false free ⟨other, different, claimed⟩

variable (sound : ClaimsSound state)
  (moves : RelayMoves variant state.db.outbox (lockedElsewhere state.relays relay)
    (state.relays relay) move effect)

include sound moves

theorem relay_exclusive {left right : Relay} {id : Nat}
    (leftClaimed : id ∈ ((applyEffect state relay effect).relays left).claimed)
    (rightClaimed : id ∈ ((applyEffect state relay effect).relays right).claimed) :
    left = right := by
  -- The relay that moved claims what it had, or what no other relay has.
  have apart {other : Relay} (different : other ≠ relay) (own : id ∈ effect.stage.claimed)
      (held : id ∈ (state.relays other).claimed) : False := by
    rcases claimed_after moves own with before | ⟨free, _⟩
    · exact different (sound.exclusive other relay id held before)
    · exact not_locked_elsewhere free different held
  by_cases leftSame : left = relay
  · by_cases rightSame : right = relay
    · rw [leftSame, rightSame]
    · rw [leftSame, apply_effect_self] at leftClaimed
      rw [apply_effect_other rightSame] at rightClaimed
      exact (apart rightSame leftClaimed rightClaimed).elim
  · rw [apply_effect_other leftSame] at leftClaimed
    by_cases rightSame : right = relay
    · rw [rightSame, apply_effect_self] at rightClaimed
      exact (apart leftSame rightClaimed leftClaimed).elim
    · rw [apply_effect_other rightSame] at rightClaimed
      exact sound.exclusive left right id leftClaimed rightClaimed

theorem relay_stages_sound (other : Relay) :
    StageSound (applyEffect state relay effect).db.outbox
      ((applyEffect state relay effect).relays other) := by
  by_cases same : other = relay
  · rw [same, apply_effect_self]
    exact relay_stage_sound sound.sequence.distinct moves (sound.stages relay)
  · rw [apply_effect_other same]
    have before := sound.stages other
    refine ⟨before.distinct, ?_, stage_known_of_keeps (keeps_mark_dispatched _ _) before.known⟩
    intro id claimed
    refine is_pending_mark (before.pending id claimed) ?_
    intro stamped
    exact same (sound.exclusive other relay id claimed (stamped_claimed moves stamped))

theorem relay_stamps_nodup : (applyEffect state relay effect).stamps.Nodup := by
  refine List.nodup_append.mpr
    ⟨sound.stamps, stamped_nodup moves (sound.stages relay), ?_⟩
  rintro id old _ new rfl
  exact claimed_not_stamped sound (stamped_claimed moves new) old

theorem relay_stamped (id : Nat) : id ∈ (applyEffect state relay effect).stamps ↔
    ∃ row ∈ (applyEffect state relay effect).db.outbox, row.id = id ∧ row.dispatched = true := by
  simp only [applyEffect, List.mem_append, sound.stamped id]
  constructor
  · rintro (⟨row, listed, sameId, stamped⟩ | stamped)
    · exact ⟨row, mem_mark_dispatched.mpr ⟨row, listed, rfl, rfl, rfl, by rw [stamped]; rfl⟩,
        sameId, stamped⟩
    · obtain ⟨row, listed, sameId, _⟩ :=
        is_pending_iff.mp ((sound.stages relay).pending id (stamped_claimed moves stamped))
      refine ⟨{ row with dispatched := true },
        mem_mark_dispatched.mpr ⟨row, listed, rfl, rfl, rfl, ?_⟩, sameId, rfl⟩
      rw [sameId, decide_eq_true stamped, Bool.or_true]
  · rintro ⟨row, listed, sameId, stamped⟩
    obtain ⟨old, before, oldId, _, _, oldStamp⟩ := mem_mark_dispatched.mp listed
    rw [stamped, eq_comm, Bool.or_eq_true, decide_eq_true_eq] at oldStamp
    rcases oldStamp with earlier | now
    · exact .inl ⟨old, before, oldId.symm.trans sameId, earlier⟩
    · exact .inr (sameId ▸ oldId ▸ now)

/-- What a commit stamps has been handed over. -/
theorem relay_dispatched {row : OutboxRow}
    (listed : row ∈ (applyEffect state relay effect).db.outbox) (stamped : row.dispatched = true) :
    ∃ handover ∈ (applyEffect state relay effect).handovers,
      outboxEvent row = some handover.event := by
  obtain ⟨old, before, sameId, sameRoom, samePayload, sameStamp⟩ := mem_mark_dispatched.mp listed
  have sameEvent : outboxEvent row = outboxEvent old := by
    rw [outboxEvent, outboxEvent, sameId, sameRoom, samePayload]
  rw [stamped, eq_comm, Bool.or_eq_true, decide_eq_true_eq] at sameStamp
  rw [sameEvent]
  rcases sameStamp with earlier | now
  · obtain ⟨handover, present, decoded⟩ := sound.dispatched old before earlier
    exact ⟨handover, List.mem_append_left _ present, decoded⟩
  · obtain ⟨handover, present, handoverId⟩ := List.mem_map.mp ((mem_stamped moves).mp now).2
    exact ⟨handover, List.mem_append_left _ (sound.kept relay handover present),
      handed_decoded sound present before handoverId⟩

theorem relay_kept (other : Relay) (handover : Handover)
    (listed : handover ∈ handed ((applyEffect state relay effect).relays other)) :
    handover ∈ (applyEffect state relay effect).handovers := by
  by_cases same : other = relay
  · rw [same, apply_effect_self] at listed
    rcases handed_after moves listed with before | new
    · exact List.mem_append_left _ (sound.kept relay handover before)
    · exact List.mem_append_right _ new
  · rw [apply_effect_other same] at listed
    exact List.mem_append_left _ (sound.kept other handover listed)

theorem relay_known (handover : Handover)
    (listed : handover ∈ (applyEffect state relay effect).handovers) :
    Decoded (applyEffect state relay effect).db.outbox handover.event := by
  refine decoded_of_keeps (keeps_mark_dispatched _ _) ?_
  rcases List.mem_append.mp listed with before | now
  · exact sound.known handover before
  · rcases handed_new moves (sound.stages relay) with none | ⟨fresh, single, _, _, decoded⟩
    · rw [none] at now
      cases now
    · rw [single, List.mem_singleton] at now
      exact now ▸ decoded

theorem relay_claims_sound : ClaimsSound (applyEffect state relay effect) where
  sequence := relay_sequence_sound sound.sequence
  stages := relay_stages_sound sound moves
  exclusive _ _ _ := relay_exclusive sound moves
  kept := relay_kept sound moves
  known := relay_known sound moves
  stamps := relay_stamps_nodup sound moves
  stamped := relay_stamped sound moves
  dispatched _ := relay_dispatched sound moves

end Relays

section Runs

variable [DecidableEq Writer] [Fintype Relay] [DecidableEq Relay] {variant : Variant}
  {columns : Columns} {requests : Writer → Request} {state next : State Writer Relay}
  {action : Action Writer Relay}

/-- All a step can do. -/
theorem step_cases (stepped : step variant columns requests state action = some next) :
    (∃ writer move after stage, action = .writer writer move ∧
      WriterEffect state.db (state.writers writer) move after stage ∧
      next = { state with db := after,
                          writers := Function.update state.writers writer stage }) ∨
    ∃ relay move effect, action = .relay relay move ∧
      RelayMoves variant state.db.outbox (lockedElsewhere state.relays relay)
        (state.relays relay) move effect ∧ next = applyEffect state relay effect := by
  cases action with
  | writer writer move =>
      obtain ⟨⟨after, stage⟩, moved, rfl⟩ := Option.map_eq_some_iff.mp stepped
      exact .inl ⟨writer, move, after, stage, rfl, writer_step_effect moved, rfl⟩
  | relay relay move =>
      obtain ⟨effect, moved, rfl⟩ := Option.map_eq_some_iff.mp stepped
      exact .inr ⟨relay, move, effect, rfl, relay_effect_moves moved, rfl⟩

theorem step_claims_sound (sound : ClaimsSound state)
    (stepped : step variant columns requests state action = some next) : ClaimsSound next := by
  rcases step_cases stepped with ⟨writer, _, after, stage, _, effect, rfl⟩ |
    ⟨relay, move, effect, _, moves, rfl⟩
  · exact writer_claims_sound sound effect
  · exact relay_claims_sound sound moves

theorem reachable_claims_sound {allowed : State Writer Relay → Action Writer Relay → Prop}
    {db : Database} (untouched : Untouched db)
    (reached : Reachable (step variant columns requests) allowed (started db) state) :
    ClaimsSound state := by
  refine reachable_invariant ClaimsSound (started_claims_sound untouched) ?_ reached
  intro before action after sound _ stepped
  exact step_claims_sound sound stepped

end Runs

end System

end ChatScale.RoomOutboxClaims
