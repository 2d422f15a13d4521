import ChatScale.OutboxRelayOrder

/-!
# One relay at a time

With a single relay process, whose publish attempts append nothing once they
are over, the entries in its hands are pending heads of different rooms. What
it appends is then never older than what the room's log has already.
-/

namespace ChatScale.SingleRelayOrder

open ChatScale.ByteText ChatScale.MessageContract ChatScale.MessageId
open ChatScale.MessageStoreModel (Database OutboxRow Columns Input)
open ChatScale.MessageStoreInvariants ChatScale.OutboxRelayModel ChatScale.OutboxRelayOrder
open ChatScale.TransitionSystem

set_option autoImplicit false

variable {Caller : Type} {inputs : Caller → Input} {system : System Caller Unit}

def isOnTime {Caller : Type} : Action Caller Unit → Bool
  | .store _ => true
  | .relay _ move => !move.isLate
  | .late _ => false

/-- One relay process, whose publish attempts append nothing once they are over. -/
def onTime {Caller : Type} (_ : System Caller Unit) (action : Action Caller Unit) : Prop :=
  isOnTime action = true

instance {Caller : Type} (system : System Caller Unit) (action : Action Caller Unit) :
    Decidable (onTime system action) := inferInstanceAs (Decidable (isOnTime action = true))

/-- All earlier rows of the entry's room are marked. -/
def Cleared (outbox : List OutboxRow) (entry : Entry) : Prop :=
  ∀ row ∈ outbox, row.roomID = entry.roomID → row.roomSeq < entry.roomSeq → row.published = true

def Unmarked (outbox : List OutboxRow) (entry : Entry) : Prop :=
  ∀ row ∈ outbox, entryOf row = entry → row.published = false

structure SingleSound {Caller : Type} (inputs : Caller → Input) (system : System Caller Unit) :
    Prop where
  relay : RelaySound inputs system
  nothingLate : system.inflight = []
  cleared : ∀ entry ∈ heldEntries (system.relays ()), Cleared system.store.db.outbox entry
  unmarked : ∀ entry ∈ heldEntries (system.relays ()), Unmarked system.store.db.outbox entry
  rooms : (heldEntries (system.relays ())).Pairwise fun left right => left.roomID ≠ right.roomID
  logged : ∀ record ∈ system.log, ∃ entry, recordOf entry = record ∧
    validateEntry entry = .ok () ∧ (∃ row ∈ system.store.db.outbox, entryOf row = entry) ∧
      Cleared system.store.db.outbox entry
  ordered : ∀ room, (loggedSeqs system.log room).Pairwise (· ≤ ·)

theorem cleared_extends {outbox nextOutbox : List OutboxRow} {log nextLog : List Record}
    (grows : Extends outbox log nextOutbox nextLog) {entry : Entry}
    (known : ∃ row ∈ outbox, entryOf row = entry) (cleared : Cleared outbox entry) :
    Cleared nextOutbox entry := by
  intro next listed sameRoom smaller
  obtain ⟨row, rowListed, _, room, before, kept⟩ :=
    earlier_row_old grows known listed sameRoom smaller
  exact kept (cleared row rowListed room before)

/-- Two pending heads are of different rooms. -/
theorem fetched_rooms {db : Database} (sound : DatabaseSound db)
    (collation : Bytes → Bytes → Bool) (limit : Nat) :
    (nextPending collation db limit).Pairwise fun left right => left.roomID ≠ right.roomID := by
  have heads : (pendingHeads db).Pairwise fun left right => left.roomID ≠ right.roomID := by
    have distinct : (pendingHeads db).Nodup := (List.Nodup.of_map _ (outbox_ids sound)).filter _
    apply List.Pairwise.imp_of_mem _ distinct
    intro left right leftHead rightHead differ sameRoom
    obtain ⟨leftListed, leftPending, leftFirst⟩ := pending_head leftHead
    obtain ⟨rightListed, rightPending, rightFirst⟩ := pending_head rightHead
    rcases lt_trichotomy left.roomSeq right.roomSeq with smaller | equal | larger
    · cases leftPending.symm.trans (rightFirst left leftListed sameRoom smaller)
    · exact differ (outbox_row_unique sound leftListed rightListed sameRoom equal)
    · cases rightPending.symm.trans (leftFirst right rightListed sameRoom.symm larger)
  have sorted : ((pendingHeads db).mergeSort (rowOrder collation)).Pairwise
      fun left right => left.roomID ≠ right.roomID :=
    (List.mergeSort_perm (pendingHeads db) (rowOrder collation)).symm.pairwise heads
      (fun differ => Ne.symm differ)
  rw [nextPending, List.pairwise_map]
  exact sorted.sublist (List.take_sublist _ _)

theorem ordered_append {log : List Record} {record : Record} {seq : Int}
    (decoded : recordSeq record = some seq)
    (ordered : ∀ room, (loggedSeqs log room).Pairwise (· ≤ ·))
    (latest : ∀ old ∈ loggedSeqs log record.key, old ≤ seq) (room : Bytes) :
    (loggedSeqs (log ++ [record]) room).Pairwise (· ≤ ·) := by
  have split : loggedSeqs (log ++ [record]) room =
      loggedSeqs log room ++ loggedSeqs [record] room := by
    simp only [loggedSeqs, roomRecords, List.filter_append, List.filterMap_append]
  rw [split]
  by_cases same : record.key = room
  · have last : loggedSeqs [record] room = [seq] := by
      simp [loggedSeqs, roomRecords, same, decoded]
    subst same
    rw [last, List.pairwise_append]
    refine ⟨ordered _, List.pairwise_singleton _ _, ?_⟩
    intro old member new listed
    rw [List.mem_singleton.mp listed]
    exact latest old member
  · have none : loggedSeqs [record] room = [] := by
      simp [loggedSeqs, roomRecords, same]
    rw [none, List.append_nil]
    exact ordered room

/-- What the relay holds does not grow, and neither does the log. -/
theorem single_sound_grow (sound : SingleSound inputs system) {next : System Caller Unit}
    (relay : RelaySound inputs next)
    (grows : Extends system.store.db.outbox system.log next.store.db.outbox next.log)
    (sameLog : next.log = system.log) (nothingLate : next.inflight = [])
    (held : (heldEntries (next.relays ())).Sublist (heldEntries (system.relays ())))
    (unmarked : ∀ entry ∈ heldEntries (next.relays ()), Unmarked next.store.db.outbox entry) :
    SingleSound inputs next where
  relay := relay
  nothingLate := nothingLate
  cleared := by
    intro entry member
    have before := held.subset member
    exact cleared_extends grows ((sound.relay.stages ()).held entry before).known
      (sound.cleared entry before)
  unmarked := unmarked
  rooms := sound.rooms.sublist held
  logged := by
    intro record member
    rw [sameLog] at member
    obtain ⟨entry, same, valid, known, cleared⟩ := sound.logged record member
    exact ⟨entry, same, valid, known_extends grows known, cleared_extends grows known cleared⟩
  ordered := by
    rw [sameLog]
    exact sound.ordered

theorem single_sound_fetch (sound : SingleSound inputs system)
    (collation : Bytes → Bytes → Bool) (limit : Nat) {next : System Caller Unit}
    (relay : RelaySound inputs next) (store : next.store = system.store)
    (sameLog : next.log = system.log) (nothingLate : next.inflight = [])
    (held : heldEntries (next.relays ()) = nextPending collation system.store.db limit) :
    SingleSound inputs next := by
  refine ⟨relay, nothingLate, ?_, ?_, ?_, ?_, ?_⟩
  · intro entry member
    rw [held] at member
    rw [store]
    obtain ⟨row, head, rfl⟩ := fetched_row member
    exact (pending_head head).2.2
  · intro entry member row listed same
    rw [held] at member
    rw [store] at listed
    obtain ⟨origin, head, rfl⟩ := fetched_row member
    obtain ⟨originListed, pending, _⟩ := pending_head head
    have sameID := (entry_fields same).1
    rw [List.inj_on_of_nodup_map (outbox_ids sound.relay.store.database) listed originListed sameID]
    exact pending
  · rw [held]
    exact fetched_rooms sound.relay.store.database collation limit
  · rw [store, sameLog]
    exact sound.logged
  · rw [sameLog]
    exact sound.ordered

/-- The entry that is appended is pending, so nothing later can be in the log. -/
theorem single_sound_append (sound : SingleSound inputs system) {entry : Entry}
    (active : activeEntry (system.relays ()) = some entry) {next : System Caller Unit}
    (relay : RelaySound inputs next) (store : next.store = system.store)
    (log : next.log = system.log ++ [recordOf entry]) (nothingLate : next.inflight = [])
    (held : heldEntries (next.relays ()) = heldEntries (system.relays ())) :
    SingleSound inputs next := by
  have member := active_held active
  have stage := sound.relay.stages ()
  have valid := stage.active entry active
  have known := (stage.held entry member).known
  refine ⟨relay, nothingLate, ?_, ?_, ?_, ?_, ?_⟩
  · rw [held, store]
    exact sound.cleared
  · rw [held, store]
    exact sound.unmarked
  · rw [held]
    exact sound.rooms
  · intro record listed
    rw [log] at listed
    rw [store]
    rcases List.mem_append.mp listed with old | new
    · exact sound.logged record old
    · rw [List.mem_singleton.mp new]
      exact ⟨entry, rfl, valid, known, sound.cleared entry member⟩
  · rw [log]
    apply ordered_append (record_seq_of_valid valid) sound.ordered
    intro seq logged
    apply Classical.byContradiction
    intro later
    obtain ⟨record, listed, sameRoom, decoded⟩ := mem_logged_seqs.mp logged
    obtain ⟨other, rfl, otherValid, _, cleared⟩ := sound.logged record listed
    rw [record_seq_of_valid otherValid, Option.some.injEq] at decoded
    obtain ⟨row, rowListed, rfl⟩ := known
    have pending := sound.unmarked _ member row rowListed rfl
    have smaller : row.roomSeq < other.roomSeq := by
      rw [decoded]
      exact lt_of_not_ge later
    cases pending.symm.trans (cleared row rowListed sameRoom.symm smaller)

theorem single_mark_unmarked (sound : SingleSound inputs system) {entry : Entry}
    {rest : List Entry} (marking : system.relays () = .marking entry rest) {kept : Entry}
    (member : kept ∈ rest) :
    Unmarked (markPublished system.store.db entry.messageID).outbox kept := by
  intro next listed same
  have held : kept ∈ heldEntries (system.relays ()) := by
    rw [marking]
    exact List.mem_cons_of_mem _ member
  have first : entry ∈ heldEntries (system.relays ()) := by
    rw [marking]
    exact List.mem_cons_self
  have rooms := sound.rooms
  rw [marking] at rooms
  obtain ⟨row, rowListed, rfl | ⟨sameID, rfl⟩⟩ := mark_row listed
  · exact sound.unmarked kept held next rowListed same
  · -- The marked row is the row of `entry`, which is of another room than `kept`.
    have known := ((sound.relay.stages ()).held entry first).known
    have marked := entry_of_id sound.relay.store.database known rowListed sameID
    have sameEntry : kept = entry := same.symm.trans marked
    exact absurd (congrArg Entry.roomID sameEntry.symm) (List.rel_of_pairwise_cons rooms member)

theorem single_relay_move (sound : SingleSound inputs system) {environment : Environment Unit}
    {move : RelayMove} (punctual : move.isLate = false) {effect : Effect}
    (moved : relayEffect environment.collation (environment.configs ()) system.store.db system.log
      system.inflight (system.relays ()) move = some effect) :
    SingleSound inputs
      { store := { system.store with db := effect.db }
        relays := Function.update system.relays () effect.stage
        log := effect.log
        inflight := effect.inflight } := by
  have relay := relay_move_sound sound.relay moved
  have updated : Function.update system.relays () effect.stage () = effect.stage :=
    Function.update_self _ _ _
  cases relay_effect_cases moved with
  | quiet quiet =>
      rcases effect with ⟨db, stage, log, inflight⟩
      obtain ⟨rfl, rfl, left, follows⟩ := quiet
      have held : (heldEntries (Function.update system.relays () stage ())).Sublist
          (heldEntries (system.relays ())) := by
        rw [updated]
        exact follows.held
      apply single_sound_grow sound relay (extends_refl _ _) rfl _ held
      · intro entry member
        exact sound.unmarked entry (held.subset member)
      · apply List.eq_nil_iff_forall_not_mem.mpr
        intro record member
        rcases left record member with old | ⟨late, _⟩
        · rw [sound.nothingLate] at old
          cases old
        · cases punctual.symm.trans late
  | fetched =>
      apply single_sound_fetch sound environment.collation (environment.configs ()).batchSize relay
        rfl rfl sound.nothingLate
      exact congrArg heldEntries updated
  | @appended entry _ rest publishing =>
      have active : activeEntry (system.relays ()) = some entry := by rw [publishing]; rfl
      apply single_sound_append sound active relay rfl rfl sound.nothingLate
      apply (congrArg heldEntries updated).trans
      rw [publishing]
      rfl
  | @marked entry rest marking =>
      have held : heldEntries (Function.update system.relays () (.batch rest) ()) = rest := by
        rw [updated]
        rfl
      apply single_sound_grow sound relay (extends_mark _ _ _) rfl sound.nothingLate
      · rw [held, marking]
        exact List.sublist_cons_self _ _
      · intro kept member
        rw [held] at member
        exact single_mark_unmarked sound marking member

theorem initial_single_sound (inputs : Caller → Input) :
    SingleSound inputs (initial : System Caller Unit) where
  relay := initial_relay_sound inputs
  nothingLate := rfl
  cleared := by
    intro entry member
    cases member
  unmarked := by
    intro entry member
    cases member
  rooms := List.Pairwise.nil
  logged := by
    intro record member
    cases member
  ordered := fun _ => List.Pairwise.nil

variable [Fintype Caller] [DecidableEq Caller]

theorem step_single_sound {environment : Environment Unit} (sound : SingleSound inputs system)
    {action : Action Caller Unit} (punctual : onTime system action) {after : System Caller Unit}
    (stepped : step environment inputs system action = some after) : SingleSound inputs after := by
  have relay := step_relay_sound sound.relay stepped
  cases action with
  | store action =>
      obtain ⟨store, storeStepped, rfl⟩ := Option.map_eq_some_iff.mp stepped
      obtain ⟨grows, rows⟩ := store_step_extends sound.relay.store storeStepped system.log
      apply single_sound_grow sound relay grows rfl sound.nothingLate (List.Sublist.refl _)
      intro entry member row listed same
      rcases rows row listed with old | pending
      · exact sound.unmarked entry member row old same
      · exact pending
  | relay only move =>
      obtain ⟨effect, moved, rfl⟩ := Option.map_eq_some_iff.mp stepped
      apply single_relay_move sound _ moved
      rw [onTime, isOnTime, Bool.not_eq_true'] at punctual
      exact punctual
  | late record => cases punctual

theorem reachable_single_sound {environment : Environment Unit}
    (reached : Reachable (step environment inputs) onTime initial system) :
    SingleSound inputs system :=
  reachable_invariant (SingleSound inputs) (initial_single_sound inputs)
    (fun _ _ _ sound punctual stepped => step_single_sound sound punctual stepped) reached

/-- With one relay that appends in time, a room's log never returns to an older
message, and what stands there is the event of the row of that number. -/
theorem single_relay_log_ordered (environment : Environment Unit) (inputs : Caller → Input)
    (system : System Caller Unit)
    (reached : Reachable (step environment inputs) onTime initial system) :
    (∀ room, (loggedSeqs system.log room).Pairwise (· ≤ ·)) ∧
    (∀ record ∈ system.log, ∃ row ∈ system.store.db.outbox, row.roomID = record.key ∧
      row.event = record.value ∧ recordSeq record = some row.roomSeq) ∧
    ∀ left ∈ system.log, ∀ right ∈ system.log, left.key = right.key →
      recordSeq left = recordSeq right → left = right := by
  have sound := reachable_single_sound reached
  have rows : ∀ record ∈ system.log, ∃ row ∈ system.store.db.outbox, row.roomID = record.key ∧
      row.event = record.value ∧ recordSeq record = some row.roomSeq := by
    intro record member
    obtain ⟨entry, rfl, valid, ⟨row, listed, rfl⟩, _⟩ := sound.logged record member
    exact ⟨row, listed, rfl, rfl, record_seq_of_valid valid⟩
  refine ⟨sound.ordered, rows, ?_⟩
  intro left leftMember right rightMember sameKey sameSeq
  obtain ⟨leftRow, leftListed, leftRoom, leftEvent, leftSeq⟩ := rows left leftMember
  obtain ⟨rightRow, rightListed, rightRoom, rightEvent, rightSeq⟩ := rows right rightMember
  have rooms : leftRow.roomID = rightRow.roomID := by rw [leftRoom, rightRoom, sameKey]
  rw [leftSeq, rightSeq, Option.some.injEq] at sameSeq
  have same := outbox_row_unique sound.relay.store.database leftListed rightListed rooms sameSeq
  have sameValue : left.value = right.value := by rw [← leftEvent, ← rightEvent, same]
  cases left
  cases right
  exact congrArg₂ Record.mk sameKey sameValue

/-- A failed attempt that did append, a mark that was lost, a crash after an
append, and then both messages. -/
def repeatedPublishes : List (OutboxRelayModel.Action (Fin 2) Unit) :=
  twoAccepts.map .store ++
  [.relay () .start, .relay () .fetch, .relay () .next, .relay () .append,
    .relay () (.fail false), .relay () .next, .relay () .fetch, .relay () .next,
    .relay () .append, .relay () .succeed, .relay () .markFail, .relay () .next,
    .relay () .fetch, .relay () .next, .relay () .append, .relay () (.halt false),
    .relay () .start, .relay () .fetch, .relay () .next, .relay () .append,
    .relay () .succeed, .relay () .mark, .relay () .next, .relay () .fetch, .relay () .next,
    .relay () .append]

theorem repeated_publishes_ordered :
    ∃ system : System (Fin 2) Unit,
      Reachable (step smallRelays twoClients) onTime initial system ∧
      loggedSeqs system.log (ascii "lobby") = [1, 1, 1, 1, 2] ∧
      (loggedSeqs system.log (ascii "lobby")).Pairwise (· ≤ ·) := by
  have ran : (runActions (step smallRelays twoClients) onTime initial repeatedPublishes).map
      (fun system => loggedSeqs system.log (ascii "lobby")) = some [1, 1, 1, 1, 2] := by
    decide +kernel
  obtain ⟨system, reached, seqs⟩ := Option.map_eq_some_iff.mp ran
  have reachable := reachable_run_actions reachable_start reached
  exact ⟨system, reachable, seqs,
    (single_relay_log_ordered smallRelays twoClients system reachable).1 (ascii "lobby")⟩

end ChatScale.SingleRelayOrder
