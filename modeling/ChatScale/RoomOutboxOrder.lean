import ChatScale.RoomOutboxHandover

/-!
# The order in which a room's messages are broadcast

Each batch is handed over in the order of the ids. Over a whole run this is the
order of a room's broadcasts only under a condition. With one relay, a message
whose id was drawn early may be committed after later ones of its room have been
broadcast. With several relays, the rows of a room may be in two open batches at
once, whose broadcasts then interleave.
-/

namespace ChatScale.RoomOutboxOrder

open ChatScale.ByteText ChatScale.RoomOutboxModel ChatScale.RoomOutboxClaims
open ChatScale.RoomOutboxHandover ChatScale.TransitionSystem
open ChatScale.RoomHubModel (Variant)

set_option autoImplicit false

section Batches

/-- The rows a relay works on, in the order of their ids. -/
def StageSorted (stage : RelayStage) : Prop :=
  (stage.claimed ++ (candidates stage).map OutboxRow.id).Pairwise (· < ·)

theorem undispatched_sorted {outbox : List OutboxRow}
    (distinct : (outbox.map OutboxRow.id).Nodup) :
    ((undispatched outbox).map OutboxRow.id).Pairwise (· < ·) := by
  have total : Std.Total fun left right : OutboxRow => left.id ≤ right.id :=
    ⟨fun left right => Nat.le_total left.id right.id⟩
  have transitive : IsTrans OutboxRow fun left right => left.id ≤ right.id :=
    ⟨fun _ _ _ first second => Nat.le_trans first second⟩
  have sorted : ((undispatched outbox).map OutboxRow.id).Pairwise (· ≤ ·) :=
    List.pairwise_map.mpr (List.pairwise_insertionSort _ _)
  exact (sorted.and (undispatched_ids_nodup distinct)).imp fun both =>
    Nat.lt_of_le_of_ne both.1 both.2

theorem relay_stage_sorted {variant : Variant} {outbox : List OutboxRow} {elsewhere : Nat → Bool}
    {stage : RelayStage} {move : RelayMove} {effect : Effect}
    (distinct : (outbox.map OutboxRow.id).Nodup)
    (moves : RelayMoves variant outbox elsewhere stage move effect)
    (sorted : StageSorted stage) : StageSorted effect.stage := by
  cases moves with
  | poll => exact .nil
  | select => exact undispatched_sorted distinct
  | skip short taken =>
      exact sorted.sublist ((List.sublist_cons_self ..).append_left _)
  | claim short free pending =>
      simpa [StageSorted, goto, RelayStage.claimed, candidates] using sorted
  | abandon nothing => exact .nil
  | @materialise rest claimed events filled decoded =>
      have same : (RelayStage.dispatching [] events).claimed = claimed.map OutboxRow.id :=
        decoded_ids decoded
      have shorter := sorted.sublist (List.sublist_append_left _ _)
      rw [StageSorted, goto, same]
      simpa [candidates, RelayStage.claimed] using shorter
  | dispatch => simpa [StageSorted, RelayStage.claimed, candidates, Handover.id] using sorted
  | mark => simpa [StageSorted, goto, RelayStage.claimed, candidates] using sorted
  | commit committing ended => rcases ended with rfl | rfl <;> exact .nil
  | fail => exact .nil

/-- In an ordered list, what is below a member of the first `count` is among
them. -/
theorem lower_in_first {ids : List Nat} (sorted : ids.Pairwise (· < ·)) {count low high : Nat}
    (inFirst : high ∈ ids.take count) (member : low ∈ ids) (below : low < high) :
    low ∈ ids.take count := by
  rw [← List.take_append_drop count ids] at sorted member
  rcases List.mem_append.mp member with first | later
  · exact first
  · have above := (List.pairwise_append.mp sorted).2.2 high inFirst low later
    omega

end Batches

section Handovers

variable {Writer Relay : Type}

/-- The broadcasts of each room come in the order of their ids. -/
def RoomOrdered (handovers : List Handover) : Prop :=
  handovers.Pairwise fun earlier later =>
    earlier.event.roomID = later.event.roomID → earlier.id < later.id

/-- Besides, no row of a room is left behind a broadcast of the room. -/
structure OrderSound (state : State Writer Relay) : Prop where
  ordered : RoomOrdered state.handovers
  closed : ∀ handover ∈ state.handovers, ∀ row ∈ state.db.outbox,
    row.roomID = handover.event.roomID → row.id < handover.id →
      row.id ∈ state.handovers.map Handover.id

theorem started_order_sound {db : Database} : OrderSound (started db : State Writer Relay) := by
  constructor
  · exact .nil
  · intro handover listed
    cases listed

/-- A broadcast keeps the order if the lower rows of its room have been
broadcast and it has not. -/
theorem ordered_append {state : State Writer Relay} (order : OrderSound state)
    {handover : Handover} (decoded : Decoded state.db.outbox handover.event)
    (fresh : handover.id ∉ state.handovers.map Handover.id) :
    RoomOrdered (state.handovers ++ [handover]) := by
  refine List.pairwise_append.mpr ⟨order.ordered, List.pairwise_singleton _ _, ?_⟩
  intro earlier listed later single sameRoom
  rw [List.mem_singleton.mp single] at sameRoom ⊢
  rcases Nat.lt_trichotomy earlier.id handover.id with below | same | above
  · exact below
  · exact absurd (same ▸ List.mem_map_of_mem listed) fresh
  · -- The broadcast of the higher row would have left this one behind.
    obtain ⟨row, present, read⟩ := decoded
    have rowId : row.id = handover.id := (outbox_event_id read).symm
    have behind := order.closed earlier listed row present
      ((outbox_event_room read).symm.trans sameRoom.symm) (rowId ▸ above)
    exact absurd (rowId ▸ behind) fresh

section Relays

variable [DecidableEq Relay] [Fintype Relay] {variant : Variant} {state : State Writer Relay}
  {relay : Relay} {move : RelayMove} {effect : Effect}

theorem relay_order_sound (sound : ClaimsSound state) (once : HandedOnce state)
    (order : OrderSound state)
    (moves : RelayMoves variant state.db.outbox (lockedElsewhere state.relays relay)
      (state.relays relay) move effect)
    (inTurn : ∀ handover ∈ effect.handed, ∀ row ∈ state.db.outbox,
      row.roomID = handover.event.roomID → row.id < handover.id →
        row.id ∈ state.handovers.map Handover.id) :
    OrderSound (applyEffect state relay effect) := by
  constructor
  · rcases handed_new moves (sound.stages relay) with none | ⟨fresh, single, claimed, new, decoded⟩
    · rw [applyEffect, none, List.append_nil]
      exact order.ordered
    · rw [applyEffect, single]
      exact ordered_append order decoded
        (claimed_not_handed sound once claimed new)
  · intro handover listed row present sameRoom below
    obtain ⟨old, before, sameId, oldRoom, _, _⟩ := mem_mark_dispatched.mp present
    rw [oldRoom] at sameRoom
    rw [sameId] at below ⊢
    refine List.mem_map.mpr ?_
    have found : old.id ∈ state.handovers.map Handover.id := by
      rcases List.mem_append.mp listed with earlier | now
      · exact order.closed handover earlier old before sameRoom below
      · exact inTurn handover now old before sameRoom below
    obtain ⟨source, inside, same⟩ := List.mem_map.mp found
    exact ⟨source, List.mem_append_left _ inside, same⟩

end Relays

end Handovers

/-- The lower rows of a batch come before the event whose turn it is. -/
theorem lower_handed {earlier : List Handover} {event : OutboxEvent} {waiting : List OutboxEvent}
    (sorted : StageSorted (.dispatching earlier (event :: waiting))) {id : Nat}
    (claimed : id ∈ (RelayStage.dispatching earlier (event :: waiting)).claimed)
    (below : id < event.id) : id ∈ earlier.map Handover.id := by
  rcases List.mem_append.mp claimed with before | later
  · exact before
  · have behind := (List.pairwise_append.mp (sorted.sublist (List.sublist_append_left _ _))).2.1
    rw [List.map_cons, List.pairwise_cons] at behind
    rw [List.map_cons, List.mem_cons] at later
    rcases later with same | after
    · omega
    · have above := behind.1 id after
      omega

section OneRelay

/-- The ids of the batch an open transaction takes: the first rows its `SELECT`
has found, up to the limit. -/
def batchIds : RelayStage → List Nat
  | .claiming candidates claimed => ((claimed ++ candidates).map OutboxRow.id).take batchSize
  | stage => stage.claimed

/-- When a call commits, its row is above the rows of its room that are stamped
or in the open batch. -/
def CommitsInOrder {Writer : Type} (state : State Writer Unit) : Action Writer Unit → Prop
  | .writer writer move => commitsRows move = true →
      ∀ event ∈ (state.writers writer).written, ∀ row ∈ state.db.outbox,
        row.roomID = event.roomID → row.dispatched = true ∨ row.id ∈ batchIds (state.relays ()) →
          row.id < event.id
  | .relay _ _ => True

instance {Writer : Type} (state : State Writer Unit) (action : Action Writer Unit) :
    Decidable (CommitsInOrder state action) :=
  match action with
  | .writer _ _ => inferInstanceAs (Decidable (_ = true → ∀ event ∈ _, ∀ row ∈ _, _))
  | .relay _ _ => isTrue trivial

/-- No row of a room is left behind a row of the room in the batch. -/
def BatchClosed (outbox : List OutboxRow) (stage : RelayStage) : Prop :=
  ∀ row ∈ outbox, row.id ∈ batchIds stage → ∀ other ∈ outbox, other.roomID = row.roomID →
    other.id < row.id → other.dispatched = true ∨ other.id ∈ batchIds stage

def WithinLimit : RelayStage → Prop
  | .claiming _ claimed => claimed.length ≤ batchSize
  | _ => True

structure BatchSound (outbox : List OutboxRow) (stage : RelayStage) : Prop where
  sorted : StageSorted stage
  waiting : ∀ row ∈ candidates stage, isPending outbox row.id = true
  limit : WithinLimit stage
  closed : BatchClosed outbox stage

theorem batch_sound_of_ended {outbox : List OutboxRow} {stage : RelayStage}
    (ended : stage = .idle ∨ stage = .draining) : BatchSound outbox stage := by
  rcases ended with rfl | rfl
  · exact ⟨.nil, nofun, trivial, fun _ _ listed => by cases listed⟩
  · exact ⟨.nil, nofun, trivial, fun _ _ listed => by cases listed⟩

/-- After the select a batch stays sound while it keeps its rows. -/
theorem batch_sound_same {outbox : List OutboxRow} {stage next : RelayStage}
    (sorted : StageSorted next) (selected : candidates next = []) (limit : WithinLimit next)
    (same : batchIds next = batchIds stage) (closed : BatchClosed outbox stage) :
    BatchSound outbox next := by
  refine ⟨sorted, ?_, limit, ?_⟩
  · intro row listed
    rw [selected] at listed
    cases listed
  · rw [BatchClosed, same]
    exact closed

theorem undispatched_batch_closed {outbox : List OutboxRow}
    (distinct : (outbox.map OutboxRow.id).Nodup) :
    BatchClosed outbox (.claiming (undispatched outbox) []) := by
  intro row _ inBatch other present _ below
  cases stamp : other.dispatched with
  | true => exact .inl rfl
  | false =>
      have pending : other.id ∈ (undispatched outbox).map OutboxRow.id :=
        List.mem_map_of_mem (mem_undispatched.mpr ⟨present, stamp⟩)
      exact .inr (lower_in_first (undispatched_sorted distinct) inBatch pending below)

/-- The batch is what has been claimed once the limit or the end is reached. -/
theorem batch_ids_filled {candidates claimed : List OutboxRow} (limit : claimed.length ≤ batchSize)
    (filled : candidates = [] ∨ claimed.length = batchSize) :
    batchIds (.claiming candidates claimed) = claimed.map OutboxRow.id := by
  rw [batchIds, List.map_append]
  rcases filled with rfl | full
  · rw [List.map_nil, List.append_nil, List.take_of_length_le (by simpa using limit)]
  · rw [List.take_append_of_le_length (by simp [full]), List.take_of_length_le (by simp [full])]

theorem relay_batch_sound {variant : Variant} {outbox : List OutboxRow} {elsewhere : Nat → Bool}
    {stage : RelayStage} {move : RelayMove} {effect : Effect}
    (alone : ∀ id, elsewhere id = false) (distinct : (outbox.map OutboxRow.id).Nodup)
    (moves : RelayMoves variant outbox elsewhere stage move effect)
    (batch : BatchSound outbox stage) :
    BatchSound (markDispatched outbox effect.stamped) effect.stage := by
  have sorted := relay_stage_sorted distinct moves batch.sorted
  cases moves with
  | poll => exact batch_sound_of_ended (.inr rfl)
  | select =>
      rw [goto, mark_dispatched_nil]
      refine ⟨sorted, ?_, Nat.zero_le _, undispatched_batch_closed distinct⟩
      intro row listed
      obtain ⟨present, unstamped⟩ := mem_undispatched.mp listed
      exact is_pending_iff.mpr ⟨row, present, rfl, unstamped⟩
  | @skip row rest claimed short taken =>
      -- With one relay a candidate is neither locked by another nor stamped.
      have pending := batch.waiting row List.mem_cons_self
      rcases taken with ⟨locked, _⟩ | ⟨_, gone⟩
      · rw [alone] at locked
        cases locked
      · rw [gone] at pending
        cases pending
  | @claim row rest claimed short free pending =>
      rw [goto, mark_dispatched_nil]
      have same : batchIds (.claiming rest (claimed ++ [row])) =
          batchIds (.claiming (row :: rest) claimed) := by
        simp [batchIds]
      have limit : claimed.length ≤ batchSize := batch.limit
      refine ⟨sorted, fun other later => batch.waiting other (List.mem_cons_of_mem _ later), ?_, ?_⟩
      · rw [WithinLimit, List.length_append, List.length_singleton]
        omega
      · rw [BatchClosed, same]
        exact batch.closed
  | abandon nothing => exact batch_sound_of_ended (.inl rfl)
  | @materialise rest claimed events filled decoded =>
      rw [goto, mark_dispatched_nil]
      have same : batchIds (.dispatching [] events) = batchIds (.claiming rest claimed) := by
        rw [batch_ids_filled batch.limit filled]
        exact decoded_ids decoded
      exact batch_sound_same sorted rfl trivial same batch.closed
  | @dispatch earlier event waiting published =>
      rw [mark_dispatched_nil]
      have same : batchIds (.dispatching (earlier ++ [⟨event, published⟩]) waiting) =
          batchIds (.dispatching earlier (event :: waiting)) := by
        simp [batchIds, RelayStage.claimed, Handover.id]
      exact batch_sound_same sorted rfl trivial same batch.closed
  | @mark earlier =>
      rw [goto, mark_dispatched_nil]
      have same : batchIds (.marked earlier) = batchIds (.dispatching earlier []) := by
        simp [batchIds, RelayStage.claimed]
      exact batch_sound_same sorted rfl trivial same batch.closed
  | commit committing ended => exact batch_sound_of_ended ended
  | fail => exact batch_sound_of_ended (.inl rfl)

variable {Writer : Type} {state : State Writer Unit}

theorem one_relay_alone (relays : Unit → RelayStage) (id : Nat) :
    lockedElsewhere relays () id = false :=
  decide_eq_false fun ⟨_, different, _⟩ => different rfl

/-- With one relay, all lower rows of an event's room have been broadcast when
its turn comes. -/
theorem dispatch_in_turn {variant : Variant} {move : RelayMove} {effect : Effect}
    (sound : ClaimsSound state) (batch : BatchSound state.db.outbox (state.relays ()))
    (moves : RelayMoves variant state.db.outbox (lockedElsewhere state.relays ())
      (state.relays ()) move effect)
    {handover : Handover} (listed : handover ∈ effect.handed) {row : OutboxRow}
    (present : row ∈ state.db.outbox) (sameRoom : row.roomID = handover.event.roomID)
    (below : row.id < handover.id) : row.id ∈ state.handovers.map Handover.id := by
  generalize stageEq : state.relays () = stage at moves batch
  cases moves with
  | @dispatch earlier event waiting published =>
      rw [List.mem_singleton.mp listed] at sameRoom below
      have decoded : Decoded state.db.outbox event := by
        have known := (sound.stages ()).known
        rw [stageEq] at known
        exact known event (List.mem_append_right _ List.mem_cons_self)
      obtain ⟨source, sourcePresent, read⟩ := decoded
      have sourceId : source.id = event.id := (outbox_event_id read).symm
      have inBatch : source.id ∈ batchIds (.dispatching earlier (event :: waiting)) := by
        rw [sourceId]
        exact List.mem_append_right _ List.mem_cons_self
      rcases batch.closed source sourcePresent inBatch row present
          (sameRoom.trans (outbox_event_room read)) (sourceId ▸ below) with stamped | inside
      · obtain ⟨done, inHandovers, doneRead⟩ := sound.dispatched row present stamped
        exact List.mem_map.mpr ⟨done, inHandovers, outbox_event_id doneRead⟩
      · rcases List.mem_map.mp (lower_handed batch.sorted inside below) with
          ⟨done, inHanded, doneId⟩
        exact List.mem_map.mpr ⟨done, sound.kept () done (by rw [stageEq]; exact inHanded), doneId⟩
  | _ => cases listed

theorem handed_in_batch {stage : RelayStage} {handover : Handover}
    (listed : handover ∈ handed stage) : handover.id ∈ batchIds stage := by
  cases stage with
  | dispatching earlier waiting =>
      have claimed : handover.id ∈ (RelayStage.dispatching earlier waiting).claimed :=
        handed_claimed listed
      exact claimed
  | marked batch =>
      have claimed : handover.id ∈ (RelayStage.marked batch).claimed := handed_claimed listed
      exact claimed
  | _ => cases listed

theorem batch_pending {outbox : List OutboxRow} {stage : RelayStage}
    (sound : StageSound outbox stage) (batch : BatchSound outbox stage) {id : Nat}
    (listed : id ∈ batchIds stage) : isPending outbox id = true := by
  cases stage with
  | claiming rest claimed =>
      obtain ⟨row, member, rfl⟩ := List.mem_map.mp (List.mem_of_mem_take listed)
      rcases List.mem_append.mp member with own | waiting
      · exact sound.pending row.id (List.mem_map_of_mem own)
      · exact batch.waiting row waiting
  | _ => exact sound.pending id listed

section Appending

variable {event : OutboxRow} (sound : ClaimsSound state)
  (above : ∀ row ∈ state.db.outbox, row.roomID = event.roomID →
    row.dispatched = true ∨ row.id ∈ batchIds (state.relays ()) → row.id < event.id)

include sound above

/-- The row of a new message leaves no broadcast of its room behind. -/
theorem append_order_closed (once : HandedOnce state) {handover : Handover}
    (listed : handover ∈ state.handovers) (sameRoom : event.roomID = handover.event.roomID) :
    handover.id < event.id := by
  obtain ⟨row, present, read⟩ := sound.known handover listed
  have rowId : row.id = handover.id := (outbox_event_id read).symm
  have rowRoom : row.roomID = event.roomID := (outbox_event_room read).symm.trans sameRoom.symm
  have taken : row.dispatched = true ∨ row.id ∈ batchIds (state.relays ()) := by
    rcases once.accounted handover listed with stamped | ⟨_, inside⟩
    · obtain ⟨other, otherPresent, otherId, otherStamp⟩ := (sound.stamped _).mp stamped
      have same : row = other :=
        row_of_id sound.sequence.distinct present otherPresent (rowId.trans otherId.symm)
      exact .inl (same ▸ otherStamp)
    · exact .inr (rowId ▸ handed_in_batch inside)
  exact rowId ▸ above row present rowRoom taken

theorem append_batch_sound (batch : BatchSound state.db.outbox (state.relays ()))
    (fresh : event.id ∉ state.db.outbox.map OutboxRow.id) :
    BatchSound (state.db.outbox ++ [event]) (state.relays ()) := by
  refine ⟨batch.sorted, fun row listed => is_pending_append (batch.waiting row listed),
    batch.limit, ?_⟩
  intro row listed inBatch other present sameRoom below
  have inTable : row ∈ state.db.outbox := by
    rcases List.mem_append.mp listed with before | last
    · exact before
    · rw [List.mem_singleton.mp last] at inBatch
      obtain ⟨old, oldPresent, sameId, _⟩ :=
        is_pending_iff.mp (batch_pending (sound.stages ()) batch inBatch)
      exact absurd (sameId ▸ List.mem_map_of_mem oldPresent) fresh
  rcases List.mem_append.mp present with before | last
  · exact batch.closed row inTable inBatch other before sameRoom below
  · rw [List.mem_singleton.mp last] at sameRoom below
    have higher := above row inTable sameRoom.symm (.inr inBatch)
    omega

end Appending

section Runs

variable [DecidableEq Writer]

structure SerialSound (state : State Writer Unit) : Prop where
  once : HandedOnce state
  order : OrderSound state
  batch : BatchSound state.db.outbox (state.relays ())

theorem step_serial_sound {variant : Variant} {columns : Columns} {requests : Writer → Request}
    {next : State Writer Unit} {action : Action Writer Unit} (sound : ClaimsSound state)
    (serial : SerialSound state) (steady : withoutRollback state action)
    (inOrder : CommitsInOrder state action)
    (stepped : step variant columns requests state action = some next) : SerialSound next := by
  have once := step_handed_once sound serial.once steady stepped
  rcases step_cases stepped with ⟨writer, move, after, stage, rfl, effect, rfl⟩ |
    ⟨⟨⟩, move, effect, rfl, moves, rfl⟩
  · rcases writer_outbox sound.sequence effect with same |
      ⟨event, committing, written, _, appended⟩
    · refine ⟨once, ⟨serial.order.ordered, ?_⟩, ?_⟩
      · simp only [same]
        exact serial.order.closed
      · simp only [same]
        exact serial.batch
    · have above := inOrder committing event written
      have fresh := (sound.sequence.drawn writer event written).2.2
      refine ⟨once, ⟨serial.order.ordered, ?_⟩, ?_⟩
      · intro handover listed row present sameRoom below
        simp only [appended, List.mem_append, List.mem_singleton] at present
        rcases present with before | rfl
        · exact serial.order.closed handover listed row before sameRoom below
        · have higher := append_order_closed sound above serial.once listed sameRoom
          omega
      · simp only [appended]
        exact append_batch_sound sound above serial.batch fresh
  · refine ⟨once, ?_, ?_⟩
    · refine relay_order_sound sound serial.once serial.order moves ?_
      intro handover listed row present sameRoom below
      exact dispatch_in_turn sound serial.batch moves listed present sameRoom below
    · exact relay_batch_sound (one_relay_alone state.relays) sound.sequence.distinct moves
        serial.batch

theorem single_relay_broadcasts_in_order (columns : Columns) (requests : Writer → Request)
    {db : Database} (untouched : Untouched db)
    (reached : Reachable (step .singleInstance columns requests)
      (fun state action => withoutRollback state action ∧ CommitsInOrder state action)
      (started db) state) : RoomOrdered state.handovers := by
  have serial : SerialSound state := by
    refine reachable_induction SerialSound
      ⟨started_handed_once, started_order_sound, batch_sound_of_ended (.inl rfl)⟩ ?_ reached
    intro before action after earlier serial permitted stepped
    exact step_serial_sound (reachable_claims_sound untouched earlier) serial permitted.1
      permitted.2 stepped
  exact serial.order.ordered

end Runs

/-- A second message whose call begins after the first has been broadcast. -/
theorem spaced_calls_in_order :
    ∃ state : State Bool Unit,
      Reachable (step .singleInstance canonicalColumns fun _ => greeting)
        (fun state action => withoutRollback state action ∧ CommitsInOrder state action)
        (started emptyDatabase) state ∧
      state.handovers.map (fun handover => (handover.event.roomID, handover.id)) =
        [(lobby, 1), (lobby, 2)] ∧
      RoomOrdered state.handovers := by
  have ran : (runActions (step .singleInstance canonicalColumns fun _ => greeting)
      (fun state action => withoutRollback state action ∧ CommitsInOrder state action)
      (started emptyDatabase)
      (incoming false ++ smallBatch () true ++ incoming true ++ smallBatch () true)).map
        (fun state => state.handovers.map fun handover => (handover.event.roomID, handover.id)) =
      some [(lobby, 1), (lobby, 2)] := by
    decide +kernel
  obtain ⟨state, reached, seen⟩ := Option.map_eq_some_iff.mp ran
  have reachable := reachable_run_actions reachable_start reached
  exact ⟨state, reachable, seen, single_relay_broadcasts_in_order canonicalColumns
    (fun _ => greeting) empty_database_untouched reachable⟩

/-- The first call draws its id first, and commits after the message of the
second has been broadcast. -/
def overtakenCommit : List (RoomOutboxModel.Action Bool Unit) :=
  (incoming false).dropLast ++ incoming true ++ smallBatch () true ++
    [.writer false .commit] ++ smallBatch () true

theorem overtaken_commit_out_of_order :
    ∃ state : State Bool Unit,
      Reachable (step .singleInstance canonicalColumns fun _ => greeting) withoutRollback
        (started emptyDatabase) state ∧
      state.handovers.map (fun handover => (handover.event.roomID, handover.id)) =
        [(lobby, 2), (lobby, 1)] := by
  have ran : (runActions (step .singleInstance canonicalColumns fun _ => greeting) withoutRollback
      (started emptyDatabase) overtakenCommit).map (fun state =>
        state.handovers.map fun handover => (handover.event.roomID, handover.id)) =
      some [(lobby, 2), (lobby, 1)] := by
    decide +kernel
  obtain ⟨state, reached, seen⟩ := Option.map_eq_some_iff.mp ran
  exact ⟨state, reachable_run_actions reachable_start reached, seen⟩

end OneRelay

section SeveralRelays

variable {Relay : Type}

/-- A relay has claimed the row, or a committed transaction has stamped it. -/
def Taken (state : State Empty Relay) (id : Nat) : Prop :=
  id ∈ state.stamps ∨ ∃ relay, id ∈ (state.relays relay).claimed

/-- A relay that looks for rows to claim has passed only what was taken. -/
def Passed (state : State Empty Relay) : RelayStage → Prop
  | .claiming candidates _ => ∀ row ∈ state.db.outbox, row.id ∉ candidates.map OutboxRow.id →
      Taken state row.id
  | _ => True

structure ClaimOrder (state : State Empty Relay) : Prop where
  decodes : ∀ row ∈ state.db.outbox, (outboxEvent row).isSome = true
  sorted : ∀ relay, StageSorted (state.relays relay)
  passed : ∀ relay, Passed state (state.relays relay)
  downward : ∀ relay, ∀ id ∈ (state.relays relay).claimed, ∀ row ∈ state.db.outbox,
    row.id < id → Taken state row.id

theorem started_claim_order {db : Database}
    (decodes : ∀ row ∈ db.outbox, (outboxEvent row).isSome = true) :
    ClaimOrder (started db : State Empty Relay) where
  decodes := decodes
  sorted _ := .nil
  passed _ := trivial
  downward relay id claimed := by cases claimed

theorem stamped_of_dispatched {state : State Empty Relay} (sound : ClaimsSound state)
    {row : OutboxRow} (present : row ∈ state.db.outbox) (stamped : row.dispatched = true) :
    Taken state row.id :=
  .inl ((sound.stamped row.id).mpr ⟨row, present, rfl, stamped⟩)

/-- The broadcast a step makes, and the relay that makes it. -/
def broadcastBy (state : State Empty Relay) : Action Empty Relay → Option (Relay × OutboxEvent)
  | .relay relay (.dispatch _) =>
      match state.relays relay with
      | .dispatching _ (event :: _) => some (relay, event)
      | _ => none
  | _ => none

/-- When an event is broadcast, no other open batch still has a lower row of its
room to broadcast. -/
def PublishesInTurn (state : State Empty Relay) (action : Action Empty Relay) : Prop :=
  ∀ turn ∈ broadcastBy state action, ∀ other, other ≠ turn.1 → ∀ row ∈ state.db.outbox,
    row.id ∈ (state.relays other).claimed → row.roomID = turn.2.roomID → row.id < turn.2.id →
      row.id ∈ (handed (state.relays other)).map Handover.id

variable [DecidableEq Relay] [Fintype Relay]

instance (state : State Empty Relay) (action : Action Empty Relay) :
    Decidable (PublishesInTurn state action) := by
  unfold PublishesInTurn
  infer_instance

section Claiming

variable {variant : Variant} {state : State Empty Relay} {relay : Relay} {move : RelayMove}
  {effect : Effect} (sound : ClaimsSound state) (claims : ClaimOrder state)
  (moves : RelayMoves variant state.db.outbox (lockedElsewhere state.relays relay)
    (state.relays relay) move effect)
  (steady : ¬(move = .fail ∧ isOpen (state.relays relay) = true))

include sound claims moves steady

theorem taken_kept {id : Nat} (taken : Taken state id) :
    Taken (applyEffect state relay effect) id := by
  rcases taken with stamped | ⟨holder, claimed⟩
  · exact .inl (List.mem_append_left _ stamped)
  · by_cases same : holder = relay
    · rw [same] at claimed
      have decodes : ∀ row, Current state.db.outbox row → (outboxEvent row).isSome = true := by
        rintro row ⟨stamp, listed⟩
        have read := claims.decodes _ listed
        exact read
      rcases claimed_kept moves steady decodes (sound.stages relay).known claimed with still | now
      · exact .inr ⟨relay, by rw [apply_effect_self]; exact still⟩
      · exact .inl (List.mem_append_right _ now)
    · exact .inr ⟨holder, by rw [apply_effect_other same]; exact claimed⟩

/-- A relay passes a row when it claims it, when another relay holds it and when
it is stamped. -/
theorem relay_passed : Passed (applyEffect state relay effect) effect.stage := by
  have kept {id : Nat} (taken : Taken state id) : Taken (applyEffect state relay effect) id :=
    taken_kept sound claims moves steady taken
  have before := claims.passed relay
  have outboxBefore {row : OutboxRow}
      (present : row ∈ (applyEffect state relay effect).db.outbox) :
      ∃ old ∈ state.db.outbox, row.id = old.id := by
    rcases mem_mark_dispatched.mp present with ⟨old, listed, sameId, _⟩
    exact ⟨old, listed, sameId⟩
  have own {id : Nat} (claimed : id ∈ effect.stage.claimed) :
      Taken (applyEffect state relay effect) id :=
    .inr ⟨relay, by rw [apply_effect_self]; exact claimed⟩
  generalize stageEq : state.relays relay = stage at moves before
  cases moves with
  | select =>
      intro row present absent
      rcases outboxBefore present with ⟨old, listed, sameId⟩
      rw [sameId] at absent ⊢
      apply kept
      cases stamp : old.dispatched with
      | true => exact stamped_of_dispatched sound listed stamp
      | false =>
          have pending := mem_undispatched.mpr ⟨listed, stamp⟩
          have found := List.mem_map_of_mem pending (f := OutboxRow.id)
          exact absurd found absent
  | @skip candidate rest claimed short taken =>
      intro row present absent
      rcases outboxBefore present with ⟨old, listed, sameId⟩
      rw [sameId] at absent ⊢
      apply kept
      by_cases skipped : old.id = candidate.id
      · rcases taken with ⟨locked, _⟩ | ⟨_, gone⟩
        · rcases of_decide_eq_true locked with ⟨other, _, held⟩
          exact .inr ⟨other, skipped ▸ held⟩
        · cases stamp : old.dispatched with
          | true => exact stamped_of_dispatched sound listed stamp
          | false =>
              have pending := is_pending_iff.mpr ⟨old, listed, skipped, stamp⟩
              rw [gone] at pending
              cases pending
      · apply before old listed
        rw [List.map_cons, List.mem_cons, not_or]
        exact ⟨skipped, absent⟩
  | @claim candidate rest claimed short free pending =>
      intro row present absent
      rcases outboxBefore present with ⟨old, listed, sameId⟩
      rw [sameId] at absent ⊢
      by_cases chosen : old.id = candidate.id
      · apply own
        rw [chosen]
        simp [goto, RelayStage.claimed]
      · apply kept
        apply before old listed
        rw [List.map_cons, List.mem_cons, not_or]
        exact ⟨chosen, absent⟩
  | commit committing ended => rcases ended with rfl | rfl <;> exact trivial
  | _ => exact trivial

theorem relay_downward {holder : Relay} {id : Nat}
    (claimed : id ∈ ((applyEffect state relay effect).relays holder).claimed) {row : OutboxRow}
    (present : row ∈ (applyEffect state relay effect).db.outbox) (below : row.id < id) :
    Taken (applyEffect state relay effect) row.id := by
  rcases mem_mark_dispatched.mp present with ⟨old, listed, sameId, _⟩
  rw [sameId] at below ⊢
  apply taken_kept sound claims moves steady
  by_cases same : holder = relay
  · rw [same, apply_effect_self] at claimed
    rcases claimed_after moves claimed with before | ⟨_, candidate, rest, next, chosen⟩
    · exact claims.downward relay id before old listed below
    · -- The candidates are ordered, so a lower row is not among them.
      have sorted := claims.sorted relay
      have passed := claims.passed relay
      generalize state.relays relay = stage at sorted passed next
      cases stage with
      | claiming found rows =>
          have shape : found = candidate :: rest := next
          apply passed old listed
          intro listedLater
          have ordered := (List.pairwise_append.mp sorted).2.1
          rw [candidates, shape, List.map_cons, List.pairwise_cons] at ordered
          rw [shape, List.map_cons, List.mem_cons] at listedLater
          rcases listedLater with first | later
          · omega
          · have above := ordered.1 old.id later
            omega
      | _ => cases next
  · rw [apply_effect_other same] at claimed
    exact claims.downward holder id claimed old listed below

theorem relay_claim_order : ClaimOrder (applyEffect state relay effect) where
  decodes row present := by
    rcases mem_mark_dispatched.mp present with ⟨old, listed, sameId, sameRoom, samePayload, _⟩
    have read := claims.decodes old listed
    rw [outboxEvent] at read ⊢
    rwa [samePayload, sameId, sameRoom]
  sorted other := by
    by_cases same : other = relay
    · rw [same, apply_effect_self]
      exact relay_stage_sorted sound.sequence.distinct moves (claims.sorted relay)
    · rw [apply_effect_other same]
      exact claims.sorted other
  passed other := by
    by_cases same : other = relay
    · rw [same, apply_effect_self]
      exact relay_passed sound claims moves steady
    · rw [apply_effect_other same]
      have before := claims.passed other
      generalize state.relays other = stage at before
      cases stage with
      | claiming found rows =>
          intro row present absent
          rcases mem_mark_dispatched.mp present with ⟨old, listed, sameId, _⟩
          rw [sameId] at absent ⊢
          exact taken_kept sound claims moves steady (before old listed absent)
      | _ => exact trivial
  downward _ _ claimed _ present below :=
    relay_downward sound claims moves steady claimed present below

omit steady in
/-- All lower rows of the event's room have been broadcast when it is its turn. -/
theorem publish_in_turn (inTurn : PublishesInTurn state (.relay relay move))
    {handover : Handover} (listed : handover ∈ effect.handed) {row : OutboxRow}
    (present : row ∈ state.db.outbox) (sameRoom : row.roomID = handover.event.roomID)
    (below : row.id < handover.id) : row.id ∈ state.handovers.map Handover.id := by
  have sorted := claims.sorted relay
  have kept {holder : Relay} (inside : row.id ∈ (handed (state.relays holder)).map Handover.id) :
      row.id ∈ state.handovers.map Handover.id := by
    rcases List.mem_map.mp inside with ⟨done, doneListed, doneId⟩
    exact List.mem_map.mpr ⟨done, sound.kept holder done doneListed, doneId⟩
  generalize stageEq : state.relays relay = stage at moves sorted
  cases moves with
  | @dispatch earlier event waiting published =>
      rw [List.mem_singleton.mp listed] at sameRoom below
      have claimed : event.id ∈ (state.relays relay).claimed := by
        rw [stageEq]
        exact List.mem_append_right _ List.mem_cons_self
      rcases claims.downward relay event.id claimed row present below with stamped | ⟨holder, held⟩
      · rcases (sound.stamped row.id).mp stamped with ⟨other, otherPresent, otherId, otherStamp⟩
        rcases sound.dispatched other otherPresent otherStamp with ⟨done, inHandovers, read⟩
        exact List.mem_map.mpr ⟨done, inHandovers, (outbox_event_id read).trans otherId⟩
      · have inside : row.id ∈ (handed (state.relays holder)).map Handover.id := by
          by_cases same : holder = relay
          · rw [same, stageEq] at held ⊢
            exact lower_handed sorted held below
          · have turn : (relay, event) ∈
                broadcastBy state (.relay relay (.dispatch published)) := by
              rw [broadcastBy, stageEq]
              rfl
            exact inTurn _ turn holder same row present held sameRoom below
        exact kept inside
  | _ => cases listed

end Claiming

theorem relays_publish_in_order (columns : Columns) (requests : Empty → Request) {db : Database}
    (untouched : Untouched db) (decodes : ∀ row ∈ db.outbox, (outboxEvent row).isSome = true)
    {state : State Empty Relay}
    (reached : Reachable (step .naiveScale columns requests)
      (fun state action => withoutRollback state action ∧ PublishesInTurn state action)
      (started db) state) : RoomOrdered state.handovers := by
  have invariant : HandedOnce state ∧ ClaimOrder state ∧ OrderSound state := by
    refine reachable_induction (fun state => HandedOnce state ∧ ClaimOrder state ∧ OrderSound state)
      ⟨started_handed_once, started_claim_order decodes, started_order_sound⟩ ?_ reached
    intro before action after earlier known permitted stepped
    have sound := reachable_claims_sound untouched earlier
    have once := step_handed_once sound known.1 permitted.1 stepped
    rcases step_cases stepped with ⟨writer, _⟩ | ⟨relay, move, effect, rfl, moves, rfl⟩
    · exact writer.elim
    · have steady : ¬(move = .fail ∧ isOpen (before.relays relay) = true) := by
        rintro ⟨rfl, opened⟩
        exact absurd opened (Bool.eq_false_iff.mp permitted.1)
      refine ⟨once, relay_claim_order sound known.2.1 moves steady, ?_⟩
      apply relay_order_sound sound known.1 known.2.2 moves
      intro handover listed row present sameRoom below
      exact publish_in_turn sound known.2.1 moves permitted.2 listed present sameRoom below
  exact invariant.2.2.ordered

/-- Two committed messages of one room. -/
def twoMessages : Database :=
  let message (id : Nat) : ChatMessage :=
    ⟨id, lobby, greeting.incoming.userID, ascii "hi", sentAt.time.toTime⟩
  ⟨[1, 2].map fun id => ⟨id, lobby, greeting.incoming.userID, ascii "hi", sentAt.time⟩,
    [1, 2].map fun id => ⟨id, lobby, (message id).marshal, false⟩, 3, 3⟩

theorem two_messages_untouched : Untouched twoMessages := by
  constructor
  · decide +kernel
  · decide +kernel
  · decide +kernel

theorem two_messages_decode : ∀ row ∈ twoMessages.outbox, (outboxEvent row).isSome = true := by
  decide +kernel

/-- Each of two relays claims one of the messages. -/
def splitBatches : List (RoomOutboxModel.Action Empty Bool) :=
  [.relay false .poll, .relay false .select, .relay true .poll, .relay true .select,
    .relay false .lock, .relay true .lock, .relay true .lock, .relay false .lock,
    .relay false .materialise, .relay true .materialise]

theorem split_batches_in_order :
    ∃ state : State Empty Bool,
      Reachable (step .naiveScale canonicalColumns Empty.elim)
        (fun state action => withoutRollback state action ∧ PublishesInTurn state action)
        (started twoMessages) state ∧
      state.handovers.map (fun handover => (handover.event.roomID, handover.id)) =
        [(lobby, 1), (lobby, 2)] ∧
      RoomOrdered state.handovers := by
  have ran : (runActions (step .naiveScale canonicalColumns Empty.elim)
      (fun state action => withoutRollback state action ∧ PublishesInTurn state action)
      (started twoMessages) (splitBatches ++
        [.relay false (.dispatch true), .relay true (.dispatch true)])).map (fun state =>
        state.handovers.map fun handover => (handover.event.roomID, handover.id)) =
      some [(lobby, 1), (lobby, 2)] := by
    decide +kernel
  rcases Option.map_eq_some_iff.mp ran with ⟨state, reached, seen⟩
  have reachable := reachable_run_actions reachable_start reached
  exact ⟨state, reachable, seen, relays_publish_in_order canonicalColumns Empty.elim
    two_messages_untouched two_messages_decode reachable⟩

/-- The relay that has claimed the second message publishes first. -/
theorem split_batches_out_of_order :
    ∃ state : State Empty Bool,
      Reachable (step .naiveScale canonicalColumns Empty.elim) withoutRollback (started twoMessages)
        state ∧
      state.handovers.map (fun handover => (handover.event.roomID, handover.id)) =
        [(lobby, 2), (lobby, 1)] := by
  have ran : (runActions (step .naiveScale canonicalColumns Empty.elim) withoutRollback
      (started twoMessages) (splitBatches ++
        [.relay true (.dispatch true), .relay false (.dispatch true)])).map (fun state =>
        state.handovers.map fun handover => (handover.event.roomID, handover.id)) =
      some [(lobby, 2), (lobby, 1)] := by
    decide +kernel
  rcases Option.map_eq_some_iff.mp ran with ⟨state, reached, seen⟩
  exact ⟨state, reachable_run_actions reachable_start reached, seen⟩

end SeveralRelays

end ChatScale.RoomOutboxOrder
