import ChatScale.OutboxRelayModel

/-!
# The order of the topic

An entry can be fetched only when every earlier row of its room is marked, and
a row is marked only after its record is in the log. So whatever a relay holds,
the records of the earlier rows are in the log already, and that stays so
however relays and broker go on.
-/

namespace ChatScale.OutboxRelayOrder

open ChatScale.ByteText ChatScale.MessageContract ChatScale.MessageId
open ChatScale.MessageStoreModel (Database OutboxRow Columns Input)
open ChatScale.MessageStoreInvariants ChatScale.OutboxRelayModel ChatScale.TransitionSystem

set_option autoImplicit false

def heldEntries : RelayStage → List Entry
  | .down => []
  | .idle => []
  | .batch entries => entries
  | .publishing entry _ _ rest => entry :: rest
  | .backoff entry _ rest => entry :: rest
  | .marking entry rest => entry :: rest

/-- The entry that is being published or marked. -/
def activeEntry : RelayStage → Option Entry
  | .publishing entry _ _ _ => some entry
  | .backoff entry _ _ => some entry
  | .marking entry _ => some entry
  | _ => none

/-- The entry whose record the broker is known to have. -/
def takenEntry : RelayStage → Option Entry
  | .publishing entry _ true _ => some entry
  | .marking entry _ => some entry
  | _ => none

def Taken (log : List Record) (entry : Entry) : Prop :=
  validateEntry entry = .ok () ∧ recordOf entry ∈ log

/-- The entry is that of an outbox row, and the broker has taken all earlier
rows of its room. -/
structure EntrySound (outbox : List OutboxRow) (log : List Record) (entry : Entry) : Prop where
  known : ∃ row ∈ outbox, entryOf row = entry
  earlier : ∀ row ∈ outbox, row.roomID = entry.roomID → row.roomSeq < entry.roomSeq →
    Taken log (entryOf row)

def Loggable (outbox : List OutboxRow) (log : List Record) (record : Record) : Prop :=
  ∃ entry, recordOf entry = record ∧ validateEntry entry = .ok () ∧ EntrySound outbox log entry

structure StageSound (outbox : List OutboxRow) (log : List Record) (stage : RelayStage) :
    Prop where
  held : ∀ entry ∈ heldEntries stage, EntrySound outbox log entry
  active : ∀ entry, activeEntry stage = some entry → validateEntry entry = .ok ()
  taken : ∀ entry, takenEntry stage = some entry → recordOf entry ∈ log

structure RelaySound {Caller Relay : Type} (inputs : Caller → Input)
    (system : System Caller Relay) : Prop where
  store : StoreSound inputs system.store
  published : ∀ row ∈ system.store.db.outbox, row.published = true →
    Taken system.log (entryOf row)
  stages : ∀ relay, StageSound system.store.db.outbox system.log (system.relays relay)
  logged : ∀ record ∈ system.log, Loggable system.store.db.outbox system.log record
  inflight : ∀ record ∈ system.inflight, Loggable system.store.db.outbox system.log record

section Growth

/-- The rows stay and stay published, a new row comes after the rows of its
room, and no record is lost. -/
structure Extends (outbox : List OutboxRow) (log : List Record) (nextOutbox : List OutboxRow)
    (nextLog : List Record) : Prop where
  log : ∀ record ∈ log, record ∈ nextLog
  kept : ∀ row ∈ outbox, ∃ next ∈ nextOutbox, entryOf next = entryOf row
  added : ∀ next ∈ nextOutbox,
    (∃ row ∈ outbox, entryOf row = entryOf next ∧
      (row.published = true → next.published = true)) ∨
    ∀ row ∈ outbox, row.roomID = next.roomID → row.roomSeq < next.roomSeq

variable {outbox nextOutbox : List OutboxRow} {log nextLog : List Record}

theorem entry_fields {left right : OutboxRow} (same : entryOf left = entryOf right) :
    left.messageID = right.messageID ∧ left.roomID = right.roomID ∧
      left.roomSeq = right.roomSeq ∧ left.event = right.event := by
  simp only [entryOf, Entry.mk.injEq] at same
  exact ⟨text_injective same.1, same.2⟩

theorem taken_extends (grows : Extends outbox log nextOutbox nextLog) {entry : Entry}
    (taken : Taken log entry) : Taken nextLog entry :=
  ⟨taken.1, grows.log _ taken.2⟩

theorem known_extends (grows : Extends outbox log nextOutbox nextLog) {entry : Entry}
    (known : ∃ row ∈ outbox, entryOf row = entry) : ∃ row ∈ nextOutbox, entryOf row = entry := by
  obtain ⟨row, listed, same⟩ := known
  obtain ⟨next, nextListed, nextSame⟩ := grows.kept row listed
  exact ⟨next, nextListed, nextSame.trans same⟩

/-- A row before a known entry is an old row. -/
theorem earlier_row_old (grows : Extends outbox log nextOutbox nextLog) {entry : Entry}
    (known : ∃ row ∈ outbox, entryOf row = entry) {next : OutboxRow}
    (listed : next ∈ nextOutbox) (sameRoom : next.roomID = entry.roomID)
    (smaller : next.roomSeq < entry.roomSeq) :
    ∃ row ∈ outbox, entryOf row = entryOf next ∧ row.roomID = entry.roomID ∧
      row.roomSeq < entry.roomSeq ∧ (row.published = true → next.published = true) := by
  obtain ⟨origin, originListed, rfl⟩ := known
  rcases grows.added next listed with ⟨row, rowListed, same, kept⟩ | later
  · have fields := entry_fields same
    exact ⟨row, rowListed, same, fields.2.1.trans sameRoom, by omega, kept⟩
  · have larger := later origin originListed sameRoom.symm
    simp only [entryOf] at smaller
    omega

theorem entry_sound_extends (grows : Extends outbox log nextOutbox nextLog) {entry : Entry}
    (sound : EntrySound outbox log entry) : EntrySound nextOutbox nextLog entry := by
  refine ⟨known_extends grows sound.known, ?_⟩
  intro next listed sameRoom smaller
  obtain ⟨row, rowListed, same, room, before, _⟩ :=
    earlier_row_old grows sound.known listed sameRoom smaller
  rw [← same]
  exact taken_extends grows (sound.earlier row rowListed room before)

theorem loggable_extends (grows : Extends outbox log nextOutbox nextLog) {record : Record}
    (loggable : Loggable outbox log record) : Loggable nextOutbox nextLog record := by
  obtain ⟨entry, same, valid, sound⟩ := loggable
  exact ⟨entry, same, valid, entry_sound_extends grows sound⟩

theorem stage_sound_extends (grows : Extends outbox log nextOutbox nextLog) {stage : RelayStage}
    (sound : StageSound outbox log stage) : StageSound nextOutbox nextLog stage where
  held := fun entry member => entry_sound_extends grows (sound.held entry member)
  active := sound.active
  taken := fun entry same => grows.log _ (sound.taken entry same)

theorem extends_refl (outbox : List OutboxRow) (log : List Record) :
    Extends outbox log outbox log where
  log := fun _ member => member
  kept := fun row listed => ⟨row, listed, rfl⟩
  added := fun next listed => .inl ⟨next, listed, rfl, id⟩

theorem extends_log (outbox : List OutboxRow) (log : List Record) (record : Record) :
    Extends outbox log outbox (log ++ [record]) where
  log := fun _ member => List.mem_append_left _ member
  kept := fun row listed => ⟨row, listed, rfl⟩
  added := fun next listed => .inl ⟨next, listed, rfl, id⟩

theorem extends_row {row : OutboxRow} (log : List Record)
    (last : ∀ old ∈ outbox, old.roomID = row.roomID → old.roomSeq < row.roomSeq) :
    Extends outbox log (outbox ++ [row]) log where
  log := fun _ member => member
  kept := fun old listed => ⟨old, List.mem_append_left _ listed, rfl⟩
  added := by
    intro next listed
    rcases List.mem_append.mp listed with old | new
    · exact .inl ⟨next, old, rfl, id⟩
    · rw [List.mem_singleton.mp new]
      exact .inr last

/-- What a mark does to a row: it has the id of the mark, or nothing changes. -/
theorem mark_row {db : Database} {messageID : Bytes} {next : OutboxRow}
    (listed : next ∈ (markPublished db messageID).outbox) :
    ∃ row ∈ db.outbox, next = row ∨
      row.messageID.text = messageID ∧ next = { row with published := true } := by
  unfold markPublished at listed
  split at listed
  · exact ⟨next, listed, .inl rfl⟩
  · rename_i id cast
    obtain ⟨row, rowListed, rfl⟩ := List.mem_map.mp listed
    refine ⟨row, rowListed, ?_⟩
    by_cases same : row.messageID = id
    · rw [if_pos same]
      exact .inr ⟨by rw [same, cast_uuid_some cast], rfl⟩
    · rw [if_neg same]
      exact .inl rfl

theorem mark_database (db : Database) (messageID : Bytes) :
    markPublished db messageID = { db with outbox := (markPublished db messageID).outbox } := by
  unfold markPublished
  split <;> rfl

theorem mark_map {Value : Type} (db : Database) (messageID : Bytes) (read : OutboxRow → Value)
    (blind : ∀ row, read { row with published := true } = read row) :
    (markPublished db messageID).outbox.map read = db.outbox.map read := by
  unfold markPublished
  split
  · rfl
  · rw [List.map_map]
    apply List.map_congr_left
    intro row _
    rw [Function.comp_apply]
    split_ifs
    · exact blind row
    · rfl

theorem extends_mark (db : Database) (messageID : Bytes) (log : List Record) :
    Extends db.outbox log (markPublished db messageID).outbox log where
  log := fun _ member => member
  kept := by
    intro row listed
    have member : entryOf row ∈ (markPublished db messageID).outbox.map entryOf :=
      mark_map db messageID entryOf (fun _ => rfl) ▸ List.mem_map_of_mem listed
    exact List.mem_map.mp member
  added := by
    intro next listed
    obtain ⟨row, rowListed, rfl | ⟨_, rfl⟩⟩ := mark_row listed
    · exact .inl ⟨next, rowListed, rfl, id⟩
    · exact .inl ⟨row, rowListed, rfl, fun _ => rfl⟩

end Growth

section Relays

variable {collation : Bytes → Bytes → Bool} {config : RelayConfig} {db : Database}
  {log inflight : List Record} {stage : RelayStage} {move : RelayMove} {effect : Effect}

theorem active_held {entry : Entry} (active : activeEntry stage = some entry) :
    entry ∈ heldEntries stage := by
  cases stage with
  | publishing other attempt appended rest =>
      cases active
      exact List.mem_cons_self
  | backoff other attempt rest =>
      cases active
      exact List.mem_cons_self
  | marking other rest =>
      cases active
      exact List.mem_cons_self
  | _ => cases active

theorem leftover_active {late : Bool} {record : Record} (left : record ∈ leftover late stage) :
    late = true ∧ ∃ entry, activeEntry stage = some entry ∧ recordOf entry = record := by
  unfold leftover at left
  split at left
  · split_ifs at left with isLate
    · exact ⟨isLate, _, rfl, (List.mem_singleton.mp left).symm⟩
    · cases left
  · cases left

theorem taken_active {entry : Entry} (taken : takenEntry stage = some entry) :
    activeEntry stage = some entry := by
  unfold takenEntry at taken
  split at taken
  · exact taken
  · exact taken
  · cases taken

/-- The next stage holds nothing new and is at no other entry. -/
structure StageFollows (stage next : RelayStage) : Prop where
  held : (heldEntries next).Sublist (heldEntries stage)
  active : ∀ entry, activeEntry next = some entry →
    validateEntry entry = .ok () ∨ activeEntry stage = some entry
  taken : ∀ entry, takenEntry next = some entry → takenEntry stage = some entry

theorem follows_inactive {next : RelayStage} (inactive : activeEntry next = none)
    (held : (heldEntries next).Sublist (heldEntries stage)) : StageFollows stage next where
  held := held
  active := by
    intro entry active
    cases inactive.symm.trans active
  taken := by
    intro entry taken
    cases inactive.symm.trans (taken_active taken)

/-- A move that touches neither the tables nor the log. -/
structure QuietEffect (db : Database) (log inflight : List Record) (stage : RelayStage)
    (late : Bool) (effect : Effect) : Prop where
  db : effect.db = db
  log : effect.log = log
  inflight : ∀ record ∈ effect.inflight, record ∈ inflight ∨
    late = true ∧ ∃ entry, activeEntry stage = some entry ∧ recordOf entry = record
  follows : StageFollows stage effect.stage

theorem quiet_leftover {next : RelayStage} {late : Bool} (follows : StageFollows stage next) :
    QuietEffect db log inflight stage late
      ⟨db, next, log, inflight ++ leftover late stage⟩ := by
  refine ⟨rfl, rfl, ?_, follows⟩
  intro record member
  rcases List.mem_append.mp member with old | new
  · exact .inl old
  · exact .inr (leftover_active new)

theorem quiet_same {next : RelayStage} {late : Bool} (follows : StageFollows stage next) :
    QuietEffect db log inflight stage late ⟨db, next, log, inflight⟩ :=
  ⟨rfl, rfl, fun _ member => .inl member, follows⟩

/-- What a move of a relay does. -/
inductive Relayed (collation : Bytes → Bytes → Bool) (config : RelayConfig) (db : Database)
    (log inflight : List Record) (stage : RelayStage) : RelayMove → Effect → Prop
  | quiet {move : RelayMove} {effect : Effect}
      (quiet : QuietEffect db log inflight stage move.isLate effect) :
      Relayed collation config db log inflight stage move effect
  | fetched (idle : stage = .idle) : Relayed collation config db log inflight stage .fetch
      ⟨db, .batch (nextPending collation db config.batchSize), log, inflight⟩
  | appended {entry : Entry} {attempt : Nat} {rest : List Entry}
      (publishing : stage = .publishing entry attempt false rest) :
      Relayed collation config db log inflight stage .append
        ⟨db, .publishing entry attempt true rest, log ++ [recordOf entry], inflight⟩
  | marked {entry : Entry} {rest : List Entry} (marking : stage = .marking entry rest) :
      Relayed collation config db log inflight stage .mark
        ⟨markPublished db entry.messageID, .batch rest, log, inflight⟩

theorem relay_effect_cases
    (moved : relayEffect collation config db log inflight stage move = some effect) :
    Relayed collation config db log inflight stage move effect := by
  unfold relayEffect at moved
  split at moved
  case h_1 =>
      cases moved
      exact .quiet (quiet_same (follows_inactive rfl List.Sublist.slnil))
  case h_2 =>
      cases moved
      exact .fetched rfl
  case h_3 =>
      cases moved
      exact .quiet (quiet_same (follows_inactive rfl List.Sublist.slnil))
  case h_4 entry rest =>
      split at moved
      · cases moved
        exact .quiet (quiet_same (follows_inactive rfl (List.sublist_cons_self _ _)))
      · rename_i valid
        cases moved
        apply Relayed.quiet
        apply quiet_same
        refine ⟨List.Sublist.refl _, ?_, ?_⟩
        · intro other same
          cases same
          exact .inl valid
        · intro other same
          cases same
  case h_5 entry attempt rest =>
      cases moved
      exact .appended rfl
  case h_6 =>
      cases moved
      exact .quiet (quiet_same ⟨List.Sublist.refl _, fun _ same => .inr same, fun _ same => same⟩)
  case h_7 late entry attempt appended rest =>
      dsimp only at moved
      apply Relayed.quiet
      split_ifs at moved
      · cases moved
        exact quiet_leftover (follows_inactive rfl (List.sublist_cons_self _ _))
      · cases moved
        apply quiet_leftover
        refine ⟨List.Sublist.refl _, fun _ same => .inr same, ?_⟩
        intro other same
        cases same
  case h_8 =>
      cases moved
      apply Relayed.quiet
      apply quiet_same
      refine ⟨List.Sublist.refl _, fun _ same => .inr same, ?_⟩
      intro other same
      cases same
  case h_9 entry rest =>
      cases moved
      exact .marked rfl
  case h_10 =>
      cases moved
      exact .quiet (quiet_same (follows_inactive rfl (List.sublist_cons_self _ _)))
  case h_11 =>
      cases moved
      exact .quiet (quiet_leftover (follows_inactive rfl (List.nil_sublist _)))
  case h_12 => cases moved

theorem pending_head {row : OutboxRow} (head : row ∈ pendingHeads db) :
    row ∈ db.outbox ∧ row.published = false ∧
      ∀ earlier ∈ db.outbox, earlier.roomID = row.roomID → earlier.roomSeq < row.roomSeq →
        earlier.published = true := by
  obtain ⟨listed, kept⟩ := List.mem_filter.mp head
  rw [Bool.and_eq_true, Bool.not_eq_true'] at kept
  refine ⟨listed, kept.1, ?_⟩
  intro earlier earlierListed sameRoom smaller
  have first := kept.2
  rw [isHead, Bool.not_eq_true', List.any_eq_false] at first
  have notPending := first earlier earlierListed
  simpa [sameRoom, smaller] using notPending

theorem fetched_row {limit : Nat} {entry : Entry}
    (fetched : entry ∈ nextPending collation db limit) :
    ∃ row ∈ pendingHeads db, entryOf row = entry := by
  obtain ⟨row, picked, same⟩ := List.mem_map.mp fetched
  exact ⟨row, List.mem_mergeSort.mp (List.mem_of_mem_take picked), same⟩

theorem record_seq_of_valid {entry : Entry} (valid : validateEntry entry = .ok ()) :
    recordSeq (recordOf entry) = some entry.roomSeq := by
  unfold validateEntry at valid
  split at valid
  · cases valid
  · rename_i event decoded
    split at valid
    · cases valid
    · split_ifs at valid with mismatch
      have same : event.roomSeq = entry.roomSeq := by
        apply Classical.byContradiction
        intro differs
        exact mismatch (.inr (.inr differs))
      simp only [recordSeq, recordOf, decoded, Option.map_some, same]

end Relays

section Invariant

variable {Caller Relay : Type} {inputs : Caller → Input} {system : System Caller Relay}

theorem relay_sound_update (sound : RelaySound inputs system)
    {store : MessageStoreModel.State Caller} {relays : Relay → RelayStage}
    {log inflight : List Record} (storeSound : StoreSound inputs store)
    (grows : Extends system.store.db.outbox system.log store.db.outbox log)
    (published : ∀ row ∈ store.db.outbox, row.published = true →
      (∃ old ∈ system.store.db.outbox, old.published = true ∧ entryOf old = entryOf row) ∨
        Taken log (entryOf row))
    (stages : ∀ relay, relays relay = system.relays relay ∨
      StageSound store.db.outbox log (relays relay))
    (logged : ∀ record ∈ log, record ∈ system.log ∨
      Loggable system.store.db.outbox system.log record)
    (left : ∀ record ∈ inflight, record ∈ system.inflight ∨
      Loggable system.store.db.outbox system.log record) :
    RelaySound inputs ⟨store, relays, log, inflight⟩ where
  store := storeSound
  published := by
    intro row listed marked
    rcases published row listed marked with ⟨old, oldListed, oldMarked, same⟩ | taken
    · rw [← same]
      exact taken_extends grows (sound.published old oldListed oldMarked)
    · exact taken
  stages := by
    intro relay
    rcases stages relay with same | new
    · have stage := stage_sound_extends grows (sound.stages relay)
      rw [← same] at stage
      exact stage
    · exact new
  logged := by
    intro record member
    rcases logged record member with old | loggable
    · exact loggable_extends grows (sound.logged record old)
    · exact loggable_extends grows loggable
  inflight := by
    intro record member
    rcases left record member with old | loggable
    · exact loggable_extends grows (sound.inflight record old)
    · exact loggable_extends grows loggable

/-- A mark touches no key, no counter and no open transaction. -/
theorem store_sound_mark {state : MessageStoreModel.State Caller}
    (sound : StoreSound inputs state) (messageID : Bytes) :
    StoreSound inputs { state with db := markPublished state.db messageID } := by
  have keys := mark_map state.db messageID outboxKey (fun _ => rfl)
  rw [mark_database]
  refine ⟨⟨sound.database.rooms, keys.trans sound.database.outboxKeys, sound.database.ids,
    sound.database.clientKeys⟩, ?_, sound.apart, sound.shape⟩
  intro caller tx opened
  have transaction := sound.transactions caller tx opened
  exact ⟨transaction.counter, transaction.message, transaction.outbox⟩

/-- The row with the id of a known entry is the row of that entry. -/
theorem entry_of_id {db : Database} (sound : DatabaseSound db) {entry : Entry} {row : OutboxRow}
    (known : ∃ origin ∈ db.outbox, entryOf origin = entry) (listed : row ∈ db.outbox)
    (same : row.messageID.text = entry.messageID) : entryOf row = entry := by
  obtain ⟨origin, originListed, rfl⟩ := known
  have sameID : row.messageID = origin.messageID := text_injective same
  rw [List.inj_on_of_nodup_map (outbox_ids sound) listed originListed sameID]

theorem active_loggable (sound : RelaySound inputs system) {relay : Relay} {entry : Entry}
    (active : activeEntry (system.relays relay) = some entry) :
    Loggable system.store.db.outbox system.log (recordOf entry) :=
  have stage := sound.stages relay
  ⟨entry, rfl, stage.active entry active, stage.held entry (active_held active)⟩

theorem fetched_entries (sound : RelaySound inputs system) {collation : Bytes → Bytes → Bool}
    {limit : Nat} {entry : Entry} (fetched : entry ∈ nextPending collation system.store.db limit) :
    EntrySound system.store.db.outbox system.log entry := by
  obtain ⟨row, head, rfl⟩ := fetched_row fetched
  obtain ⟨listed, _, marked⟩ := pending_head head
  refine ⟨⟨row, listed, rfl⟩, ?_⟩
  intro earlier earlierListed sameRoom smaller
  exact sound.published earlier earlierListed (marked earlier earlierListed sameRoom smaller)

theorem follows_sound {outbox : List OutboxRow} {log : List Record} {stage next : RelayStage}
    (sound : StageSound outbox log stage) (follows : StageFollows stage next) :
    StageSound outbox log next where
  held := fun entry member => sound.held entry (follows.held.subset member)
  active := by
    intro entry active
    rcases follows.active entry active with valid | before
    · exact valid
    · exact sound.active entry before
  taken := fun entry taken => sound.taken entry (follows.taken entry taken)

theorem initial_relay_sound (inputs : Caller → Input) :
    RelaySound inputs (initial : System Caller Relay) where
  store := initial_sound inputs
  published := by
    intro row listed
    cases listed
  stages := by
    intro relay
    refine ⟨?_, ?_, ?_⟩
    · intro entry member
      cases member
    · intro entry active
      cases active
    · intro entry taken
      cases taken
  logged := by
    intro record member
    cases member
  inflight := by
    intro record member
    cases member

variable [DecidableEq Relay]

theorem stages_update {outbox : List OutboxRow} {log : List Record} {stage : RelayStage}
    (new : StageSound outbox log stage) (relay other : Relay) :
    Function.update system.relays relay stage other = system.relays other ∨
      StageSound outbox log (Function.update system.relays relay stage other) := by
  by_cases same : other = relay
  · rw [same, Function.update_self]
    exact .inr new
  · exact .inl (Function.update_of_ne same _ _)

theorem append_sound (sound : RelaySound inputs system) {relay : Relay} {entry : Entry}
    {attempt : Nat} {rest : List Entry}
    (publishing : system.relays relay = .publishing entry attempt false rest) :
    RelaySound inputs { system with
      relays := Function.update system.relays relay (.publishing entry attempt true rest)
      log := system.log ++ [recordOf entry] } := by
  have active : activeEntry (system.relays relay) = some entry := by
    rw [publishing]
    rfl
  have grows := extends_log system.store.db.outbox system.log (recordOf entry)
  apply relay_sound_update sound sound.store grows
  · exact fun row listed marked => .inl ⟨row, listed, marked, rfl⟩
  · apply stages_update
    have next := stage_sound_extends grows (sound.stages relay)
    rw [publishing] at next
    refine ⟨next.held, next.active, ?_⟩
    intro taken same
    cases same
    exact List.mem_append_right _ List.mem_cons_self
  · intro record member
    rcases List.mem_append.mp member with old | new
    · exact .inl old
    · rw [List.mem_singleton.mp new]
      exact .inr (active_loggable sound active)
  · exact fun record member => .inl member

theorem mark_sound (sound : RelaySound inputs system) {relay : Relay} {entry : Entry}
    {rest : List Entry} (marking : system.relays relay = .marking entry rest) :
    RelaySound inputs { system with
      store := { system.store with db := markPublished system.store.db entry.messageID }
      relays := Function.update system.relays relay (.batch rest) } := by
  have before := sound.stages relay
  have active : activeEntry (system.relays relay) = some entry := by
    rw [marking]
    rfl
  have taken : Taken system.log entry :=
    ⟨before.active entry active, before.taken entry (by rw [marking]; rfl)⟩
  have grows := extends_mark system.store.db entry.messageID system.log
  apply relay_sound_update sound (store_sound_mark sound.store entry.messageID) grows
  · intro next listed marked
    obtain ⟨row, rowListed, rfl | ⟨sameID, rfl⟩⟩ := mark_row listed
    · exact .inl ⟨next, rowListed, marked, rfl⟩
    · apply Or.inr
      have known := (before.held entry (active_held active)).known
      have same := entry_of_id sound.store.database known rowListed sameID
      have sameNext : entryOf { row with published := true } = entry := same
      rw [sameNext]
      exact taken
  · apply stages_update
    have next := stage_sound_extends grows before
    refine ⟨fun kept member => next.held kept ?_, ?_, ?_⟩
    · rw [marking]
      exact List.mem_cons_of_mem _ member
    · intro kept active
      cases active
    · intro kept taken
      cases taken
  · exact fun record member => .inl member
  · exact fun record member => .inl member

theorem relay_move_sound (sound : RelaySound inputs system) {collation : Bytes → Bytes → Bool}
    {config : RelayConfig} {relay : Relay} {move : RelayMove} {effect : Effect}
    (moved : relayEffect collation config system.store.db system.log system.inflight
      (system.relays relay) move = some effect) :
    RelaySound inputs
      { store := { system.store with db := effect.db }
        relays := Function.update system.relays relay effect.stage
        log := effect.log
        inflight := effect.inflight } := by
  have unmarked : ∀ row ∈ system.store.db.outbox, row.published = true →
      (∃ old ∈ system.store.db.outbox, old.published = true ∧ entryOf old = entryOf row) ∨
        Taken system.log (entryOf row) := fun row listed marked => .inl ⟨row, listed, marked, rfl⟩
  cases relay_effect_cases moved with
  | quiet quiet =>
      rcases effect with ⟨db, stage, log, inflight⟩
      obtain ⟨rfl, rfl, left, follows⟩ := quiet
      apply relay_sound_update sound sound.store (extends_refl _ _) unmarked
      · exact stages_update (follows_sound (sound.stages relay) follows) relay
      · exact fun record member => .inl member
      · intro record member
        rcases left record member with old | ⟨_, entry, active, rfl⟩
        · exact .inl old
        · exact .inr (active_loggable sound active)
  | fetched =>
      apply relay_sound_update sound sound.store (extends_refl _ _) unmarked
      · apply stages_update
        refine ⟨fun entry member => fetched_entries sound member, ?_, ?_⟩
        · intro entry active
          cases active
        · intro entry taken
          cases taken
      · exact fun record member => .inl member
      · exact fun record member => .inl member
  | appended publishing => exact append_sound sound publishing
  | marked marking => exact mark_sound sound marking

variable [Fintype Caller] [DecidableEq Caller]

theorem store_step_extends {columns : Columns} {state : MessageStoreModel.State Caller}
    (sound : StoreSound inputs state) {action : MessageStoreModel.Action Caller}
    {after : MessageStoreModel.State Caller}
    (stepped : MessageStoreModel.step columns inputs state action = some after)
    (log : List Record) :
    Extends state.db.outbox log after.db.outbox log ∧
      ∀ row ∈ after.db.outbox, row ∈ state.db.outbox ∨ row.published = false := by
  rcases step_outbox sound stepped with same | ⟨row, grown, pending, last⟩
  · rw [same]
    exact ⟨extends_refl _ _, fun row listed => .inl listed⟩
  · rw [grown]
    refine ⟨extends_row log last, ?_⟩
    intro next listed
    rcases List.mem_append.mp listed with old | new
    · exact .inl old
    · rw [List.mem_singleton.mp new]
      exact .inr pending

theorem step_relay_sound {environment : Environment Relay} (sound : RelaySound inputs system)
    {action : Action Caller Relay} {after : System Caller Relay}
    (stepped : step environment inputs system action = some after) : RelaySound inputs after := by
  cases action with
  | store action =>
      obtain ⟨store, storeStepped, rfl⟩ := Option.map_eq_some_iff.mp stepped
      obtain ⟨grows, rows⟩ := store_step_extends sound.store storeStepped system.log
      apply relay_sound_update sound (step_sound sound.store storeStepped) grows
      · intro row listed marked
        rcases rows row listed with old | pending
        · exact .inl ⟨row, old, marked, rfl⟩
        · cases pending.symm.trans marked
      · exact fun relay => .inl rfl
      · exact fun record member => .inl member
      · exact fun record member => .inl member
  | relay relay move =>
      obtain ⟨effect, moved, rfl⟩ := Option.map_eq_some_iff.mp stepped
      exact relay_move_sound sound moved
  | late record =>
      simp only [step] at stepped
      split_ifs at stepped with waiting
      cases stepped
      apply relay_sound_update sound sound.store (extends_log _ _ record)
      · exact fun row listed marked => .inl ⟨row, listed, marked, rfl⟩
      · exact fun relay => .inl rfl
      · intro other member
        rcases List.mem_append.mp member with old | new
        · exact .inl old
        · rw [List.mem_singleton.mp new]
          exact .inr (sound.inflight record waiting)
      · exact fun other member => .inl (List.mem_of_mem_erase member)

theorem reachable_relay_sound {environment : Environment Relay}
    {allowed : System Caller Relay → Action Caller Relay → Prop}
    (reached : Reachable (step environment inputs) allowed initial system) :
    RelaySound inputs system :=
  reachable_invariant (RelaySound inputs) (initial_relay_sound inputs)
    (fun _ _ _ sound _ stepped => step_relay_sound sound stepped) reached

end Invariant

section Segments

variable {Caller Relay : Type} {inputs : Caller → Input} {system : System Caller Relay}

/-- The numbers in the log under a room's key. -/
def loggedSeqs (log : List Record) (room : Bytes) : List Int :=
  (roomRecords log room).filterMap recordSeq

theorem mem_logged_seqs {log : List Record} {room : Bytes} {seq : Int} :
    seq ∈ loggedSeqs log room ↔
      ∃ record ∈ log, record.key = room ∧ recordSeq record = some seq := by
  simp only [loggedSeqs, roomRecords, List.mem_filterMap, List.mem_filter, beq_iff_eq, and_assoc]

/-- A logged number is that of a row, and every smaller number is logged too. -/
theorem logged_seq_row (sound : RelaySound inputs system) {room : Bytes} {seq : Int}
    (logged : seq ∈ loggedSeqs system.log room) :
    (1 ≤ seq ∧ seq ≤ MessageStoreModel.lastSeq system.store.db room) ∧
      ∀ smaller, 1 ≤ smaller → smaller ≤ seq → smaller ∈ loggedSeqs system.log room := by
  obtain ⟨record, member, sameRoom, decoded⟩ := mem_logged_seqs.mp logged
  obtain ⟨entry, rfl, valid, entrySound⟩ := sound.logged record member
  rw [record_seq_of_valid valid, Option.some.injEq] at decoded
  obtain ⟨row, listed, same⟩ := entrySound.known
  have bounds := outbox_seq_le sound.store.database listed
  subst same
  subst decoded
  subst sameRoom
  refine ⟨bounds, ?_⟩
  intro smaller positive bounded
  rcases lt_or_eq_of_le bounded with below | equal
  · obtain ⟨other, otherListed, otherRoom, otherSeq⟩ :=
      outbox_row_of_seq sound.store.database positive (bounded.trans bounds.2)
    have taken := entrySound.earlier other otherListed otherRoom (otherSeq ▸ below)
    apply mem_logged_seqs.mpr
    refine ⟨_, taken.2, otherRoom, ?_⟩
    rw [record_seq_of_valid taken.1]
    exact congrArg some otherSeq
  · rw [equal]
    exact logged

theorem initial_segment {seqs : List Int} (positive : ∀ seq ∈ seqs, 1 ≤ seq)
    (closed : ∀ seq ∈ seqs, ∀ smaller, 1 ≤ smaller → smaller ≤ seq → smaller ∈ seqs) :
    ∃ last : Nat, ∀ seq, seq ∈ seqs ↔ 1 ≤ seq ∧ seq ≤ last := by
  cases largest : seqs.max? with
  | none =>
      refine ⟨0, ?_⟩
      intro seq
      rw [List.max?_eq_none_iff.mp largest]
      simp only [List.not_mem_nil, false_iff]
      omega
  | some last =>
      obtain ⟨member, bound⟩ := List.max?_eq_some_iff.mp largest
      have lower := positive last member
      refine ⟨last.toNat, ?_⟩
      intro seq
      rw [Int.toNat_of_nonneg (by omega)]
      constructor
      · intro listed
        exact ⟨positive seq listed, bound seq listed⟩
      · rintro ⟨first, upper⟩
        exact closed last member seq first upper

variable [Fintype Caller] [DecidableEq Caller] [DecidableEq Relay]

/-- Under a room's key the log has the messages 1 up to some number, and every
row marked as published is in the log. -/
theorem room_log_initial_segment (environment : Environment Relay) (inputs : Caller → Input)
    (system : System Caller Relay)
    (reached : Reachable (step environment inputs) anyStep initial system) :
    (∀ record ∈ system.log, ∃ seq, recordSeq record = some seq) ∧
    (∀ room, ∃ last : Nat, ∀ seq, seq ∈ loggedSeqs system.log room ↔ 1 ≤ seq ∧ seq ≤ last) ∧
    ∀ row ∈ system.store.db.outbox, row.published = true →
      recordOf (entryOf row) ∈ system.log := by
  have sound := reachable_relay_sound reached
  refine ⟨?_, ?_, ?_⟩
  · intro record member
    obtain ⟨entry, rfl, valid, _⟩ := sound.logged record member
    exact ⟨entry.roomSeq, record_seq_of_valid valid⟩
  · intro room
    apply initial_segment
    · intro seq logged
      exact (logged_seq_row sound logged).1.1
    · intro seq logged
      exact (logged_seq_row sound logged).2
  · intro row listed marked
    exact (sound.published row listed marked).2

def smallRelays {Relay : Type} : Environment Relay :=
  ⟨plainColumns, fun _ _ => true, fun _ => smallConfig⟩

/-- Both relays fetch the first message; one publishes both messages before the
other appends the first one again. -/
def overtakenRelay : List (OutboxRelayModel.Action (Fin 2) (Fin 2)) :=
  twoAccepts.map .store ++
  [.relay firstOfTwo .start, .relay secondOfTwo .start, .relay firstOfTwo .fetch,
    .relay secondOfTwo .fetch, .relay firstOfTwo .next, .relay secondOfTwo .next,
    .relay firstOfTwo .append, .relay firstOfTwo .succeed, .relay firstOfTwo .mark,
    .relay firstOfTwo .next, .relay firstOfTwo .fetch, .relay firstOfTwo .next,
    .relay firstOfTwo .append, .relay secondOfTwo .append]

theorem overtaken_relay_segment :
    ∃ system : System (Fin 2) (Fin 2),
      Reachable (step smallRelays twoClients) anyStep initial system ∧
      loggedSeqs system.log (ascii "lobby") = [1, 2, 1] ∧
      ∃ last : Nat, ∀ seq, seq ∈ loggedSeqs system.log (ascii "lobby") ↔
        1 ≤ seq ∧ seq ≤ last := by
  have ran : (runActions (step smallRelays twoClients) anyStep initial overtakenRelay).map
      (fun system => loggedSeqs system.log (ascii "lobby")) = some [1, 2, 1] := by
    decide +kernel
  obtain ⟨system, reached, seqs⟩ := Option.map_eq_some_iff.mp ran
  have reachable := reachable_run_actions reachable_start reached
  exact ⟨system, reachable, seqs,
    (room_log_initial_segment smallRelays twoClients system reachable).2.1 (ascii "lobby")⟩

end Segments

end ChatScale.OutboxRelayOrder
