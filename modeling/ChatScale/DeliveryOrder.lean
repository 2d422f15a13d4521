import ChatScale.ServiceDelivery

/-!
# The order in which clients see a room

A record is appended to its partition only when the records of all earlier
messages of its room are there, a session works through its partition in order,
and an instance hands on what it gets in order. Relays may publish a record
again, sessions may start again at an earlier offset and a failed pipeline may
have reached some instances, so a client can see a message more than once and
late; but never for the first time before the messages before it.
-/

namespace ChatScale.DeliveryOrder

open ChatScale.ByteText ChatScale.MessageContract ChatScale.TransitionSystem
open ChatScale.MessageStoreModel (OutboxRow Input)
open ChatScale.MessageStoreInvariants ChatScale.MessageStoreContents
open ChatScale.OutboxRelayModel (Record Entry recordOf entryOf recordSeq)
open ChatScale.OutboxRelayOrder ChatScale.KafkaSessions ChatScale.CausalOrder
open ChatScale.DeliveryPipeline ChatScale.RecordFanout ChatScale.ClientFrames
open ChatScale.DeliverySystem ChatScale.ServiceDelivery

set_option autoImplicit false

section Records

/-- The room and the number of a message of the topic. -/
def mark (message : ConsumerMessage) : Bytes × Option Int :=
  (message.record.key, recordSeq message.record)

/-- A message depends on the earlier messages of its room. -/
def Later (message other : Bytes × Option Int) : Prop :=
  other.1 = message.1 ∧ ∃ number smaller, message.2 = some number ∧ other.2 = some smaller ∧
    1 ≤ smaller ∧ smaller < number

variable {Caller Relay : Type} {inputs : Caller → Input}
  {system after : OutboxRelayModel.System Caller Relay}

/-- What may be appended to the log comes after all earlier messages. -/
theorem loggable_earlier (sound : RelaySound inputs system) {record : Record}
    (loggable : Loggable system.store.db.outbox system.log record) :
    ∃ seq, recordSeq record = some seq ∧ ∀ smaller, 1 ≤ smaller → smaller < seq →
      ∃ other ∈ system.log, other.key = record.key ∧ recordSeq other = some smaller := by
  rcases loggable with ⟨entry, rfl, valid, entrySound⟩
  refine ⟨entry.roomSeq, record_seq_of_valid valid, ?_⟩
  intro smaller positive less
  rcases entrySound.known with ⟨row, listed, rfl⟩
  have bounds := outbox_seq_le sound.store.database listed
  have less : smaller < row.roomSeq := less
  rcases outbox_row_of_seq sound.store.database positive (le_trans (le_of_lt less) bounds.2) with
    ⟨other, otherListed, otherRoom, otherSeq⟩
  have taken := entrySound.earlier other otherListed otherRoom (otherSeq ▸ less)
  refine ⟨_, taken.2, otherRoom, ?_⟩
  rw [record_seq_of_valid taken.1]
  exact congrArg some otherSeq

/-- What a record in the log carries: the event that `Accept` made. -/
theorem logged_carries [DecidableEq Relay] {environment : OutboxRelayModel.Environment Relay}
    (keeps : KeepsJson environment.columns) (sound : RelaySound inputs system)
    (contents : ContentsSound environment.columns inputs system.store) {record : Record}
    (logged : record ∈ system.log) :
    ∃ row ∈ system.store.db.outbox, recordOf (entryOf row) = record ∧
      ∃ caller event, ∃ message ∈ system.store.db.messages,
        Writes environment.columns (inputs caller) message (entryOf row) event ∧
        ∃ raw, Carries record { event with payload := raw } ∧ SameValue raw event.payload := by
  rcases sound.logged record logged with ⟨entry, rfl, _, entrySound⟩
  rcases entrySound.known with ⟨row, listed, rfl⟩
  rcases contents.rows row listed with ⟨caller, event, message, messageListed, writes⟩
  rcases stored_event_decoded keeps writes with ⟨raw, decoded, same⟩
  rcases writes.message with ⟨id, payload, drafted, _⟩
  rcases writes.entry with ⟨_, stored, _, _, written⟩
  refine ⟨row, listed, rfl, caller, event, message, messageListed, writes, raw, ?_, same⟩
  refine ⟨decoded, respelled_valid drafted.valid same,
    respelled_encodable (drafted_encodable drafted) raw, ?_⟩
  rw [written]
  rfl

variable [Fintype Caller] [DecidableEq Caller] [DecidableEq Relay]

theorem relay_step_log {environment : OutboxRelayModel.Environment Relay}
    (sound : RelaySound inputs system) {action : OutboxRelayModel.Action Caller Relay}
    (stepped : OutboxRelayModel.step environment inputs system action = some after) :
    after.log = system.log ∨ ∃ record, after.log = system.log ++ [record] ∧
      Loggable system.store.db.outbox system.log record := by
  cases action with
  | store action =>
      rcases Option.map_eq_some_iff.mp stepped with ⟨store, _, rfl⟩
      exact .inl rfl
  | relay relay move =>
      rcases Option.map_eq_some_iff.mp stepped with ⟨effect, moved, rfl⟩
      cases relay_effect_cases moved with
      | quiet quiet => exact .inl quiet.log
      | fetched => exact .inl rfl
      | @appended entry attempt rest publishing =>
          have active : activeEntry (system.relays relay) = some entry := by
            rw [publishing]
            rfl
          exact .inr ⟨recordOf entry, rfl, active_loggable sound active⟩
      | marked => exact .inl rfl
  | late record =>
      simp only [OutboxRelayModel.step] at stepped
      split_ifs at stepped with waiting
      cases stepped
      exact .inr ⟨record, rfl, sound.inflight record waiting⟩

end Records

section Partitions

/-- What stands before a message of a causal log. -/
theorem causal_offset {log : List ConsumerMessage} (causal : Causal Later (log.map mark))
    {offset : Nat} {message : ConsumerMessage} (placed : log[offset]? = some message)
    {seq smaller : Int} (numbered : recordSeq message.record = some seq) (positive : 1 ≤ smaller)
    (less : smaller < seq) :
    ∃ before < offset, ∃ other, log[before]? = some other ∧
      other.record.key = message.record.key ∧ recordSeq other.record = some smaller := by
  rcases List.getElem?_eq_some_iff.mp placed with ⟨bound, same⟩
  have split : log.map mark =
      (log.take offset).map mark ++ mark message :: (log.drop (offset + 1)).map mark := by
    rw [← List.map_cons, ← List.map_append, ← same, List.getElem_cons_drop, List.take_append_drop]
  have earlier := causal _ _ _ split (message.record.key, some smaller)
    ⟨rfl, seq, smaller, numbered, rfl, positive, less⟩
  rcases List.mem_map.mp earlier with ⟨other, taken, marked⟩
  rcases List.mem_take_iff_getElem.mp taken with ⟨before, inside, rfl⟩
  have keys := congrArg Prod.fst marked
  have seqs := congrArg Prod.snd marked
  refine ⟨before, by omega, _, ?_, keys, seqs⟩
  rw [List.getElem?_eq_getElem]

variable {Caller Relay Partition Instance : Type} {Conn : Instance → Type}
  {setup : Setup Caller Relay Partition Conn}

/-- The partitions have the records of the topic, each in the partition of its
key and after the earlier messages of its room. -/
structure LogSound (state : DeliverySystem.State setup) : Prop where
  placed : ∀ record ∈ state.relay.log,
    ∃ message ∈ (state.partitions (setup.partitionOf record.key)).log, message.record = record
  known : ∀ partition, ∀ message ∈ (state.partitions partition).log,
    message.record ∈ state.relay.log
  causal : ∀ partition, Causal Later ((state.partitions partition).log.map mark)

theorem update_log [DecidableEq Partition] {partitions : Partition → KafkaSessions.State}
    {partition : Partition} {session : KafkaSessions.State}
    (sameLog : session.log = (partitions partition).log) (other : Partition) :
    (Function.update partitions partition session other).log = (partitions other).log := by
  by_cases same : other = partition
  · rw [same, Function.update_self, sameLog]
  · rw [Function.update_of_ne same]

/-- A session does not touch the log of its partition. -/
theorem log_sound_session [DecidableEq Partition] {state : DeliverySystem.State setup}
    (sound : LogSound state) {partition : Partition} {session : KafkaSessions.State}
    (sameLog : session.log = (state.partitions partition).log)
    (services : ∀ name, Service (setup.profiles name)) :
    LogSound ⟨state.relay, Function.update state.partitions partition session, services⟩ := by
  have logs := update_log sameLog
  refine ⟨?_, ?_, ?_⟩
  · simpa only [logs] using sound.placed
  · simpa only [logs] using sound.known
  · simpa only [logs] using sound.causal

/-- The sessions of a partition have come to some offset, and only messages that
exist have been handled. -/
structure SessionsSound (session : KafkaSessions.State) : Prop where
  progress : ∃ count, Progress session count
  handled : ∀ offset ∈ firstSuccesses session.events, offset < session.log.length

theorem append_records_log [DecidableEq Partition] (records : List Record)
    (timestamp : CivilTime.Time) (partition : Partition) (session : KafkaSessions.State) :
    (appendRecords setup records timestamp partition session).log = session.log ++
      (records.filter fun record => setup.partitionOf record.key = partition).map
        fun record => ⟨record, [], timestamp⟩ := rfl

theorem append_records_nil [DecidableEq Partition] (timestamp : CivilTime.Time)
    (partition : Partition) (session : KafkaSessions.State) :
    appendRecords setup [] timestamp partition session = session := by
  simp [appendRecords]

theorem append_sessions_sound [DecidableEq Partition] {records : List Record}
    {timestamp : CivilTime.Time} {partition : Partition} {session : KafkaSessions.State}
    (sound : SessionsSound session) :
    SessionsSound (appendRecords setup records timestamp partition session) := by
  rcases sound.progress with ⟨count, progress⟩
  refine ⟨⟨count, progress.firsts, progress.position, progress.offset, progress.marking⟩, ?_⟩
  intro offset handled
  have bound := sound.handled offset handled
  rw [append_records_log, List.length_append]
  omega

/-- What a step of a session leaves as it is. -/
theorem session_step_cases {session next : KafkaSessions.State} {action : KafkaSessions.Action}
    (stepped : sessionStep session action = some next) :
    Stepped session next ∧ next.log = session.log ∧
      ∀ offset, offset ∈ firstSuccesses next.events ↔ offset ∈ firstSuccesses session.events := by
  have noted (offset : Nat) (kind : EventKind) (other : kind ≠ .returned true) (place : Nat) :
      place ∈ firstSuccesses (session.record offset kind) ↔
        place ∈ firstSuccesses session.events := by
    rw [KafkaSessions.State.record, first_successes_append, mem_note_success]
    simp [other]
  cases action with
  | append message => cases stepped
  | handle handler => cases stepped
  | start offset =>
      have plain : KafkaSessions.step session (.start offset) = some next := stepped
      refine ⟨step_stepped plain, ?_⟩
      simp only [KafkaSessions.step] at plain
      split_ifs at plain
      cases plain
      exact ⟨rfl, fun _ => .rfl⟩
  | receive =>
      have plain : KafkaSessions.step session .receive = some next := stepped
      refine ⟨step_stepped plain, ?_⟩
      simp only [KafkaSessions.step] at plain
      split at plain
      · split_ifs at plain
        cases plain
        exact ⟨rfl, noted _ _ (by simp)⟩
      · cases plain
  | mark =>
      have plain : KafkaSessions.step session .mark = some next := stepped
      refine ⟨step_stepped plain, ?_⟩
      simp only [KafkaSessions.step] at plain
      split at plain
      · cases plain
        exact ⟨rfl, noted _ _ (by simp)⟩
      · cases plain
  | stop =>
      have plain : KafkaSessions.step session .stop = some next := stepped
      refine ⟨step_stepped plain, ?_⟩
      cases plain
      exact ⟨rfl, fun _ => .rfl⟩

theorem session_step_sound {session next : KafkaSessions.State} {action : KafkaSessions.Action}
    (sound : SessionsSound session) (stepped : sessionStep session action = some next) :
    SessionsSound next := by
  rcases session_step_cases stepped with ⟨moved, sameLog, sameFirsts⟩
  rcases sound.progress with ⟨count, progress⟩
  refine ⟨stepped_progress progress moved, ?_⟩
  intro offset handled
  rw [sameLog]
  exact sound.handled offset ((sameFirsts offset).mp handled)

end Partitions

section Handling

variable {channelPrefix : Bytes} {presence : Presence} {executed : Option (Bytes → Bool)}
  {message : Message} {success : Bool} {published : List (Bytes × Bytes)}

/-- Whatever `Handle` publishes is the one envelope of its message, which has a
text. -/
theorem outcome_texts
    (handled : handleOutcome channelPrefix presence executed message = some (success, published))
    {name text : Bytes} (got : text ∈ received channelPrefix name published) :
    message.timestamp.encodes = true ∧ text = message.marshal := by
  have envelopes {names listed : List Bytes} (answered : handle presence message = .ok names)
      (among : ∀ name ∈ listed, name ∈ names)
      (got : text ∈ received channelPrefix name (publishMessage channelPrefix message listed)) :
      message.timestamp.encodes = true ∧ text = message.marshal := by
    rcases List.mem_map.mp got with ⟨sent, kept, rfl⟩
    rcases List.mem_map.mp (List.mem_filter.mp kept).1 with ⟨reached, reaches, rfl⟩
    have some : names ≠ [] := List.ne_nil_of_mem (among reached reaches)
    exact ⟨(handle_serialized answered).resolve_left some, rfl⟩
  unfold handleOutcome at handled
  split at handled
  · cases handled
    cases got
  · cases handled
  · rename_i answered
    cases handled
    exact envelopes answered (fun _ listed => listed) got
  · cases handled
  · rename_i answered
    cases handled
    exact envelopes answered (fun _ listed => List.mem_of_mem_filter listed) got

/-- A success has published the message to every instance that was listed. -/
theorem outcome_success
    (handled : handleOutcome channelPrefix presence executed message = some (true, published)) :
    executed.isNone = true ∧ ∃ names, handle presence message = .ok names ∧
      ∀ name ∈ names, message.marshal ∈ received channelPrefix name published := by
  unfold handleOutcome at handled
  split at handled
  · cases handled
  · cases handled
  · rename_i names answered
    cases handled
    refine ⟨rfl, names, answered, ?_⟩
    intro name listed
    apply List.mem_map.mpr
    refine ⟨(channelName channelPrefix name, message.marshal), ?_, rfl⟩
    exact List.mem_filter.mpr ⟨List.mem_map_of_mem listed, beq_self_eq_true _⟩
  · cases handled
  · cases handled

variable {Caller Relay Partition Instance : Type} {Conn : Instance → Type}
  {setup : Setup Caller Relay Partition Conn} [DecidableEq Partition]

theorem handle_step_cases {state next : DeliverySystem.State setup} {partition : Partition}
    (stepped : handleStep state partition presence executed = some next) :
    ∃ offset message success published session,
      (state.partitions partition).stage = .handling offset ∧
      (state.partitions partition).log[offset]? = some message ∧
      handledMessage (state.partitions partition) = some message ∧
      handleOutcome setup.channelPrefix presence executed (messageOf message) =
        some (success, published) ∧
      Stepped (state.partitions partition) session ∧
      session.log = (state.partitions partition).log ∧
      session.events = (state.partitions partition).record offset (.returned success) ∧
      next = { state with
        partitions := Function.update state.partitions partition session
        services := fun name => (state.services name).accept
          (received setup.channelPrefix (setup.names name) published) } := by
  simp only [handleStep, Option.bind_eq_bind, Option.bind_eq_some_iff] at stepped
  rcases stepped with ⟨message, found, ⟨success, published⟩, outcome, session, handled, same⟩
  cases same
  have moved := step_stepped handled
  have place := found
  unfold handledMessage at place
  split at place
  · rename_i offset handling
    simp only [KafkaSessions.step, handling, place, Option.map_some] at handled
    cases handled
    exact ⟨offset, message, success, published, _, handling, place, found, outcome, moved, rfl,
      rfl, rfl⟩
  · cases place

end Handling

section System

variable {Caller Relay Partition Instance : Type} {Conn : Instance → Type}
  {setup : Setup Caller Relay Partition Conn}

structure SystemSound (state : DeliverySystem.State setup) : Prop where
  relay : RelaySound setup.inputs state.relay
  contents : ContentsSound setup.environment.columns setup.inputs state.relay.store
  logs : LogSound state
  sessions : ∀ partition, SessionsSound (state.partitions partition)
  services : ∀ name, ServiceSound (fun record => record ∈ state.relay.log) (state.services name)

theorem system_carries [DecidableEq Relay] {state : DeliverySystem.State setup}
    (keeps : KeepsJson setup.environment.columns) (sound : SystemSound state) (record : Record)
    (logged : record ∈ state.relay.log) : ∃ event, Carries record event := by
  rcases logged_carries keeps sound.relay sound.contents logged with
    ⟨_, _, _, _, event, _, _, _, raw, carries, _⟩
  exact ⟨_, carries⟩

theorem initial_system_sound : SystemSound (DeliverySystem.initial setup) where
  relay := initial_relay_sound setup.inputs
  contents := initial_contents
  logs := ⟨by simp [DeliverySystem.initial, OutboxRelayModel.initial],
    by simp [DeliverySystem.initial, KafkaSessions.initial], fun _ => causal_nil⟩
  sessions := fun _ => ⟨⟨0, initial_progress []⟩, by simp [DeliverySystem.initial,
    KafkaSessions.initial, firstSuccesses]⟩
  services := fun _ => new_service_sound _

variable [DecidableEq Partition]

/-- A record is appended to its partition. -/
theorem append_log_sound {state : DeliverySystem.State setup} (sound : SystemSound state)
    {relay : OutboxRelayModel.System Caller Relay} {record : Record}
    (grown : relay.log = state.relay.log ++ [record])
    (loggable : Loggable state.relay.store.db.outbox state.relay.log record)
    (timestamp : CivilTime.Time) :
    LogSound { state with
      relay := relay
      partitions := fun partition =>
        appendRecords setup [record] timestamp partition (state.partitions partition) } where
  placed := by
    intro other listed
    rw [grown] at listed
    simp only [append_records_log, List.mem_append]
    rcases List.mem_append.mp listed with old | new
    · rcases sound.logs.placed other old with ⟨message, present, same⟩
      exact ⟨message, .inl present, same⟩
    · rw [List.mem_singleton.mp new]
      exact ⟨⟨record, [], timestamp⟩, .inr (by simp), rfl⟩
  known := by
    intro partition message listed
    simp only [append_records_log, List.mem_append] at listed
    simp only [grown, List.mem_append]
    rcases listed with old | new
    · exact .inl (sound.logs.known partition message old)
    · rcases List.mem_map.mp new with ⟨other, kept, rfl⟩
      exact .inr (List.mem_filter.mp kept).1
  causal := by
    intro partition
    rw [append_records_log, List.map_append]
    apply causal_append (sound.logs.causal partition)
    intro item listed other needed
    rcases List.mem_map.mp listed with ⟨message, added, rfl⟩
    rcases List.mem_map.mp added with ⟨source, kept, rfl⟩
    rcases List.mem_filter.mp kept with ⟨same, here⟩
    rw [List.mem_singleton.mp same] at needed here
    rcases needed with ⟨sameKey, number, smaller, numbered, otherSeq, positive, less⟩
    rcases loggable_earlier sound.relay loggable with ⟨seq, decoded, earlier⟩
    cases numbered.symm.trans decoded
    -- The earlier message is in the log, so it is in the same partition.
    rcases earlier smaller positive less with ⟨before, logged, beforeKey, beforeSeq⟩
    rcases sound.logs.placed before logged with ⟨found, present, rfl⟩
    rw [beforeKey, of_decide_eq_true here] at present
    refine List.mem_map.mpr ⟨found, present, ?_⟩
    rw [mark, beforeKey, beforeSeq]
    exact Prod.ext sameKey.symm otherSeq.symm

theorem handle_step_sound {state next : DeliverySystem.State setup} (sound : SystemSound state)
    {partition : Partition} {presence : Presence} {executed : Option (Bytes → Bool)}
    (stepped : handleStep state partition presence executed = some next) : SystemSound next := by
  rcases handle_step_cases stepped with ⟨offset, message, success, published, session, handling,
    placed, _, outcome, moved, sameLog, events, rfl⟩
  refine ⟨sound.relay, sound.contents, log_sound_session sound.logs sameLog _, ?_, ?_⟩
  · intro other
    by_cases same : other = partition
    · subst same
      simp only [Function.update_self]
      rcases (sound.sessions other).progress with ⟨count, progress⟩
      refine ⟨stepped_progress progress moved, ?_⟩
      intro place handled
      rw [events, KafkaSessions.State.record, first_successes_append, mem_note_success] at handled
      rw [sameLog]
      rcases handled with before | ⟨_, rfl⟩
      · exact (sound.sessions other).handled place before
      · exact (List.getElem?_eq_some_iff.mp placed).1
    · simp only [Function.update_of_ne same]
      exact sound.sessions other
  · intro name
    apply accept_sound (sound.services name)
    intro text got
    rcases outcome_texts outcome got with ⟨encodes, same⟩
    refine ⟨message.record, ?_, message.headers, message.timestamp, encodes, same⟩
    exact sound.logs.known partition message (List.mem_of_getElem? placed)

variable [Fintype Caller] [DecidableEq Caller] [DecidableEq Relay]

theorem relay_step_sound {state : DeliverySystem.State setup} (sound : SystemSound state)
    {action : OutboxRelayModel.Action Caller Relay} {relay : OutboxRelayModel.System Caller Relay}
    (stepped : OutboxRelayModel.step setup.environment setup.inputs state.relay action =
      some relay) (timestamp : CivilTime.Time) :
    SystemSound { state with
      relay := relay
      partitions := fun partition =>
        appendRecords setup (relay.log.drop state.relay.log.length) timestamp partition
          (state.partitions partition) } := by
  have relaySound := step_relay_sound sound.relay stepped
  have contents := relay_step_contents sound.relay sound.contents stepped
  refine ⟨relaySound, contents, ?_,
    fun partition => append_sessions_sound (sound.sessions partition), ?_⟩
  · rcases relay_step_log sound.relay stepped with same | ⟨record, grown, loggable⟩
    · have nothing : relay.log.drop state.relay.log.length = [] := by
        rw [same, List.drop_length]
      simp only [nothing, append_records_nil]
      exact ⟨same ▸ sound.logs.placed, same ▸ sound.logs.known, sound.logs.causal⟩
    · have one : relay.log.drop state.relay.log.length = [record] := by
        rw [grown, List.drop_left]
      simp only [one]
      exact append_log_sound sound grown loggable timestamp
  · intro name
    apply service_sound_mono _ (sound.services name)
    intro record logged
    rcases relay_step_log sound.relay stepped with same | ⟨added, grown, _⟩
    · rw [same]
      exact logged
    · rw [grown]
      exact List.mem_append_left _ logged

variable [DecidableEq Instance] [∀ name, DecidableEq (Conn name)]

theorem system_step_sound (keeps : KeepsJson setup.environment.columns)
    {state next : DeliverySystem.State setup} (sound : SystemSound state)
    {action : DeliverySystem.Action Caller Relay Partition Conn}
    (stepped : DeliverySystem.step state action = some next) : SystemSound next := by
  cases action with
  | relay action timestamp =>
      rcases Option.map_eq_some_iff.mp stepped with ⟨relay, relayStepped, rfl⟩
      exact relay_step_sound sound relayStepped timestamp
  | session partition action =>
      rcases Option.map_eq_some_iff.mp stepped with ⟨session, sessionStepped, rfl⟩
      have sameLog := (session_step_cases sessionStepped).2.1
      refine ⟨sound.relay, sound.contents, log_sound_session sound.logs sameLog _, ?_,
        sound.services⟩
      intro other
      by_cases same : other = partition
      · subst same
        simp only [Function.update_self]
        exact session_step_sound (sound.sessions other) sessionStepped
      · simp only [Function.update_of_ne same]
        exact sound.sessions other
  | handle partition presence executed => exact handle_step_sound sound stepped
  | service name action =>
      rcases Option.map_eq_some_iff.mp stepped with ⟨service, serviceStepped, rfl⟩
      refine ⟨sound.relay, sound.contents, ⟨sound.logs.placed, sound.logs.known,
        sound.logs.causal⟩, sound.sessions, ?_⟩
      intro other
      by_cases same : other = name
      · subst same
        simp only [Function.update_self]
        exact service_step_sound (system_carries keeps sound) (sound.services other) serviceStepped
      · simp only [Function.update_of_ne same]
        exact sound.services other

theorem reachable_system_sound (keeps : KeepsJson setup.environment.columns)
    {allowed : DeliverySystem.State setup →
      DeliverySystem.Action Caller Relay Partition Conn → Prop}
    {state : DeliverySystem.State setup}
    (reached : Reachable DeliverySystem.step allowed (DeliverySystem.initial setup) state) :
    SystemSound state :=
  reachable_invariant SystemSound initial_system_sound
    (fun _ _ _ sound _ stepped => system_step_sound keeps sound stepped) reached

end System

end ChatScale.DeliveryOrder
