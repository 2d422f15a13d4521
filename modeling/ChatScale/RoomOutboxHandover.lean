import ChatScale.MessageStoreInvariants
import ChatScale.RoomOutboxClaims

/-!
# Handing an outbox row over

At most one committed transaction stamps a row, and the dispatch callback has
run on each stamped row; without rollbacks it runs once. The callback does not
look at the result of `PUBLISH`, so a row may be stamped although no `PUBLISH`
of it went through.
-/

namespace ChatScale.RoomOutboxHandover

open ChatScale.ByteText ChatScale.RoomOutboxModel ChatScale.RoomOutboxClaims
open ChatScale.TransitionSystem
open ChatScale.RoomHubModel (Variant)

set_option autoImplicit false

section Rollbacks

variable {Writer Relay : Type}

/-- The step rolls an open `DispatchBatch` transaction back because a statement
failed or the process died. A batch that cannot be decoded is rolled back as
well, but before it has handed anything over. -/
def rollsBack (state : State Writer Relay) : Action Writer Relay → Bool
  | .relay relay .fail => isOpen (state.relays relay)
  | _ => false

def withoutRollback (state : State Writer Relay) (action : Action Writer Relay) : Prop :=
  rollsBack state action = false

instance (state : State Writer Relay) (action : Action Writer Relay) :
    Decidable (withoutRollback state action) :=
  inferInstanceAs (Decidable (_ = _))

/-- What has been handed over is stamped or still in an open transaction, and
nothing has been handed over twice. -/
structure HandedOnce (state : State Writer Relay) : Prop where
  once : (state.handovers.map Handover.id).Nodup
  accounted : ∀ handover ∈ state.handovers, handover.id ∈ state.stamps ∨
    ∃ relay, handover ∈ handed (state.relays relay)

theorem started_handed_once {db : Database} : HandedOnce (started db : State Writer Relay) := by
  constructor
  · exact List.nodup_nil
  · intro handover listed
    cases listed

variable {state : State Writer Relay}

/-- An earlier handover of a row is stamped or belongs to an open transaction.
If the row is claimed, that is the one which claims it. -/
theorem claimed_not_handed (sound : ClaimsSound state) (once : HandedOnce state) {relay : Relay}
    {id : Nat} (claimed : id ∈ (state.relays relay).claimed)
    (new : id ∉ (handed (state.relays relay)).map Handover.id) :
    id ∉ state.handovers.map Handover.id := by
  intro old
  obtain ⟨earlier, listed, sameId⟩ := List.mem_map.mp old
  rcases once.accounted earlier listed with stamped | ⟨holder, inside⟩
  · exact claimed_not_stamped sound claimed (sameId ▸ stamped)
  · have same : holder = relay :=
      sound.exclusive holder relay _ (sameId ▸ handed_claimed inside) claimed
    exact new (List.mem_map.mpr ⟨earlier, same ▸ inside, sameId⟩)

variable [DecidableEq Relay] [Fintype Relay] {variant : Variant}

theorem relay_handed_once {relay : Relay} {move : RelayMove} {effect : Effect}
    (sound : ClaimsSound state) (once : HandedOnce state)
    (moves : RelayMoves variant state.db.outbox (lockedElsewhere state.relays relay)
      (state.relays relay) move effect)
    (steady : ¬(move = .fail ∧ isOpen (state.relays relay) = true)) :
    HandedOnce (applyEffect state relay effect) := by
  constructor
  · simp only [applyEffect, List.map_append]
    rcases handed_new moves (sound.stages relay) with none | ⟨fresh, single, claimed, new, _⟩
    · rw [none, List.map_nil, List.append_nil]
      exact once.once
    · rw [single, List.map_singleton, ← List.concat_eq_append, List.nodup_concat]
      exact ⟨claimed_not_handed sound once claimed new, once.once⟩
  · intro handover listed
    simp only [applyEffect, List.mem_append] at listed ⊢
    rcases listed with before | now
    · rcases once.accounted handover before with stamped | ⟨holder, inside⟩
      · exact .inl (.inl stamped)
      · by_cases same : holder = relay
        · rw [same] at inside
          rcases handed_kept moves steady inside with still | stamped
          · exact .inr ⟨relay, by rw [Function.update_self]; exact still⟩
          · exact .inl (.inr stamped)
        · exact .inr ⟨holder, by rw [Function.update_of_ne same]; exact inside⟩
    · exact .inr ⟨relay, by rw [Function.update_self]; exact handed_fresh moves now⟩

variable [DecidableEq Writer] {columns : Columns} {requests : Writer → Request}

theorem step_handed_once {next : State Writer Relay} {action : Action Writer Relay}
    (sound : ClaimsSound state) (once : HandedOnce state)
    (steady : withoutRollback state action)
    (stepped : step variant columns requests state action = some next) : HandedOnce next := by
  rcases step_cases stepped with ⟨writer, _, tables, stage, _, effect, rfl⟩ |
    ⟨relay, move, effect, rfl, moves, rfl⟩
  · exact ⟨once.once, once.accounted⟩
  · refine relay_handed_once sound once moves ?_
    rintro ⟨rfl, opened⟩
    exact absurd opened (Bool.eq_false_iff.mp steady)

theorem reachable_handed_once {db : Database} (untouched : Untouched db)
    (reached : Reachable (step variant columns requests) withoutRollback (started db) state) :
    HandedOnce state := by
  refine reachable_induction HandedOnce started_handed_once ?_ reached
  intro before action after earlier once steady stepped
  exact step_handed_once (reachable_claims_sound untouched earlier) once steady stepped

end Rollbacks

section Samples

/-- Columns that take the canonical spelling of an id and keep a JSON text as it
is. -/
def canonicalColumns : Columns where
  uuid text := (MessageId.castUuid text).map fun id => id.text
  jsonb := some

def lobby : Bytes := ascii "00000000-0000-4000-8000-000000000001"

def greeting : Request := ⟨lobby, ⟨ascii "00000000-0000-4000-8000-00000000000a", ascii "hi"⟩⟩

def sentAt : MessageStoreModel.ClockReading := MessageStoreInvariants.noon

variable {Writer Relay : Type}

/-- A whole `HandleIncoming` call. -/
def incoming (writer : Writer) : List (RoomOutboxModel.Action Writer Relay) :=
  [.validate, .begin, .insertMessage sentAt, .enqueue, .commit].map (.writer writer)

/-- A whole batch of one row. -/
def smallBatch (relay : Relay) (published : Bool) : List (RoomOutboxModel.Action Writer Relay) :=
  [.poll, .select, .lock, .materialise, .dispatch published, .mark, .commit].map (.relay relay)

end Samples

section Claims

variable {Writer Relay : Type} [DecidableEq Writer] [Fintype Relay] [DecidableEq Relay]

theorem outbox_rows_claimed_once (columns : Columns) (requests : Writer → Request) {db : Database}
    (untouched : Untouched db) {state : State Writer Relay}
    (reached : Reachable (step .naiveScale columns requests) anyStep (started db) state) :
    (∀ left right id, id ∈ (state.relays left).claimed → id ∈ (state.relays right).claimed →
      left = right) ∧
    (∀ relay, ∀ id ∈ (state.relays relay).claimed, id ∉ state.stamps) ∧
    (∀ id, state.stamps.count id ≤ 1) ∧
    (∀ id, id ∈ state.stamps ↔ ∃ row ∈ state.db.outbox, row.id = id ∧ row.dispatched = true) ∧
    (∀ row ∈ state.db.outbox, row.dispatched = true →
      ∃ handover ∈ state.handovers, outboxEvent row = some handover.event) ∧
    (Reachable (step .naiveScale columns requests) withoutRollback (started db) state →
      (∀ row ∈ state.db.outbox, row.dispatched = true →
        (state.handovers.map Handover.id).count row.id = 1) ∧
      ∀ id, (state.handovers.map Handover.id).count id ≤ 1) := by
  have sound := reachable_claims_sound untouched reached
  refine ⟨sound.exclusive, fun relay id claimed => claimed_not_stamped sound claimed,
    List.nodup_iff_count_le_one.mp sound.stamps, sound.stamped, sound.dispatched, ?_⟩
  intro steady
  have once := (reachable_handed_once untouched steady).once
  refine ⟨?_, List.nodup_iff_count_le_one.mp once⟩
  intro row listed stamped
  obtain ⟨handover, present, decoded⟩ := sound.dispatched row listed stamped
  refine List.count_eq_one_of_mem once (List.mem_map.mpr ⟨handover, present, ?_⟩)
  exact outbox_event_id decoded

/-- Two messages, and two relays that lock a row each. -/
def sharedOutbox : List (RoomOutboxModel.Action Bool Bool) :=
  incoming false ++ incoming true ++
  [.relay false .poll, .relay true .poll, .relay false .select, .relay true .select,
    .relay false .lock, .relay true .lock, .relay true .lock]

theorem shared_outbox_claimed_once :
    ∃ state : State Bool Bool,
      Reachable (step .naiveScale canonicalColumns fun _ => greeting) anyStep
        (started emptyDatabase) state ∧
      (state.relays false).claimed = [1] ∧ (state.relays true).claimed = [2] ∧
      ∀ id, state.stamps.count id ≤ 1 := by
  have ran : (runActions (step .naiveScale canonicalColumns fun _ => greeting) anyStep
      (started emptyDatabase) sharedOutbox).map
      (fun state => ((state.relays false).claimed, (state.relays true).claimed)) =
      some ([1], [2]) := by
    decide +kernel
  obtain ⟨state, reached, claims⟩ := Option.map_eq_some_iff.mp ran
  simp only [Prod.mk.injEq] at claims
  have reachable := reachable_run_actions reachable_start reached
  exact ⟨state, reachable, claims.1, claims.2,
    (outbox_rows_claimed_once canonicalColumns (fun _ => greeting) empty_database_untouched
      reachable).2.2.1⟩

end Claims

section Publishes

variable {Writer Relay : Type}

/-- Some `PUBLISH` of the row's message returned without an error. -/
def Published (state : State Writer Relay) (row : OutboxRow) : Prop :=
  ∃ handover ∈ state.handovers, outboxEvent row = some handover.event ∧ handover.published = true

def StampedPublished (state : State Writer Relay) : Prop :=
  ∀ row ∈ state.db.outbox, row.dispatched = true → Published state row

/-- A transaction in which the `PUBLISH` of an event failed commits only if the
event went through in an earlier one, which was then rolled back. -/
def CommitsPublished (state : State Writer Relay) (action : Action Writer Relay) : Prop :=
  ∀ relay move, action = .relay relay move → commitsBatch move = true →
    ∀ handover ∈ handed (state.relays relay), handover.published = true ∨
      ∃ earlier ∈ state.handovers, earlier.event = handover.event ∧ earlier.published = true

/-- More rows of the same kind and more handovers keep a row published. -/
theorem published_of_later {before after : State Writer Relay} {old row : OutboxRow}
    (more : ∀ handover ∈ before.handovers, handover ∈ after.handovers)
    (same : outboxEvent row = outboxEvent old) (published : Published before old) :
    Published after row := by
  obtain ⟨handover, listed, decoded, through⟩ := published
  exact ⟨handover, more handover listed, same.trans decoded, through⟩

variable [DecidableEq Relay] [Fintype Relay] {variant : Variant}

/-- The batches of a relay keep stamped rows published exactly if each commit
finds its events published. -/
theorem relay_stamped_published_iff {state : State Writer Relay} {relay : Relay}
    {move : RelayMove} {effect : Effect} (sound : ClaimsSound state)
    (moves : RelayMoves variant state.db.outbox (lockedElsewhere state.relays relay)
      (state.relays relay) move effect)
    (earlier : StampedPublished state) :
    StampedPublished (applyEffect state relay effect) ↔
      CommitsPublished state (.relay relay move) := by
  have more : ∀ handover ∈ state.handovers,
      handover ∈ (applyEffect state relay effect).handovers :=
    fun handover present => List.mem_append_left _ present
  constructor
  · -- The row of a handed event is stamped by the commit, so some handover of it went through;
    -- a commit hands nothing over, so that handover came before.
    rintro later _ _ ⟨⟩ committing handover inside
    have stamped : handover.id ∈ effect.stamped :=
      (mem_stamped moves).mpr ⟨committing, List.mem_map_of_mem inside⟩
    obtain ⟨row, listed, sameId, _⟩ := is_pending_iff.mp
      ((sound.stages relay).pending _ (handed_claimed inside))
    have marked : { row with dispatched := true } ∈ (applyEffect state relay effect).db.outbox := by
      refine mem_mark_dispatched.mpr ⟨row, listed, rfl, rfl, rfl, ?_⟩
      rw [sameId, decide_eq_true stamped, Bool.or_true]
    obtain ⟨published, present, decoded, through⟩ := later _ marked rfl
    have read : outboxEvent row = some handover.event :=
      handed_decoded sound inside listed sameId.symm
    have sameEvent : published.event = handover.event :=
      Option.some.inj (decoded.symm.trans read)
    have quiet : effect.handed = [] := commit_hands_nothing moves committing
    rw [applyEffect, quiet, List.append_nil] at present
    exact .inr ⟨published, present, sameEvent, through⟩
  · intro committed row listed stamped
    obtain ⟨old, before, sameId, sameRoom, samePayload, sameStamp⟩ := mem_mark_dispatched.mp listed
    have sameEvent : outboxEvent row = outboxEvent old := by
      rw [outboxEvent, outboxEvent, sameId, sameRoom, samePayload]
    rw [stamped, eq_comm, Bool.or_eq_true, decide_eq_true_eq] at sameStamp
    refine published_of_later more sameEvent ?_
    rcases sameStamp with already | now
    · exact earlier old before already
    · obtain ⟨committing, inBatch⟩ := (mem_stamped moves).mp now
      obtain ⟨handover, inside, handoverId⟩ := List.mem_map.mp inBatch
      have decoded := handed_decoded sound inside before handoverId
      rcases committed relay move rfl committing handover inside with
        own | ⟨other, present, sameOther, through⟩
      · exact ⟨handover, sound.kept relay handover inside, decoded, own⟩
      · exact ⟨other, present, by rw [sameOther]; exact decoded, through⟩

variable [DecidableEq Writer]

theorem step_stamped_published_iff {columns : Columns} {requests : Writer → Request}
    {state next : State Writer Relay} {action : Action Writer Relay} (sound : ClaimsSound state)
    (stepped : step variant columns requests state action = some next)
    (earlier : StampedPublished state) :
    StampedPublished next ↔ CommitsPublished state action := by
  rcases step_cases stepped with ⟨writer, move, after, stage, rfl, effect, rfl⟩ |
    ⟨relay, move, effect, rfl, moves, rfl⟩
  · -- A call stamps nothing and commits no batch.
    refine ⟨fun _ => nofun, fun _ row listed stamped => ?_⟩
    rcases writer_outbox sound.sequence effect with same | ⟨event, _, _, unstamped, appended⟩
    · rw [same] at listed
      exact earlier row listed stamped
    · rw [appended, List.mem_append, List.mem_singleton] at listed
      rcases listed with before | rfl
      · exact earlier row before stamped
      · rw [unstamped] at stamped
        cases stamped
  · exact relay_stamped_published_iff sound moves earlier

theorem stamped_rows_published_iff (columns : Columns) (requests : Writer → Request)
    {db : Database} (untouched : Untouched db) :
    (∀ state : State Writer Relay,
      Reachable (step .naiveScale columns requests) CommitsPublished (started db) state →
        StampedPublished state) ∧
    ∀ (state next : State Writer Relay) (action : Action Writer Relay),
      Reachable (step .naiveScale columns requests) anyStep (started db) state →
      StampedPublished state → step .naiveScale columns requests state action = some next →
        (StampedPublished next ↔ CommitsPublished state action) := by
  constructor
  · intro state reached
    refine reachable_induction StampedPublished ?_ ?_ reached
    · intro row listed stamped
      rw [untouched.pending row listed] at stamped
      cases stamped
    · intro before action after reached earlier committed stepped
      exact (step_stamped_published_iff (reachable_claims_sound untouched reached) stepped
        earlier).mpr committed
  · intro state next action reached earlier stepped
    exact step_stamped_published_iff (reachable_claims_sound untouched reached) stepped earlier

/-- The one `PUBLISH` of a message fails, and its row is stamped all the same. -/
theorem failed_publish_stamped :
    ∃ state : State Unit Unit,
      Reachable (step .naiveScale canonicalColumns fun _ => greeting) anyStep
        (started emptyDatabase) state ∧
      (∃ row ∈ state.db.outbox, row.dispatched = true) ∧
      ∀ handover ∈ state.handovers, handover.published = false := by
  have ran : (runActions (step .naiveScale canonicalColumns fun _ => greeting) anyStep
      (started emptyDatabase) (incoming () ++ smallBatch () false)).map
      (fun state => (state.db.outbox.map OutboxRow.dispatched,
        state.handovers.map Handover.published)) = some ([true], [false]) := by
    decide +kernel
  obtain ⟨state, reached, seen⟩ := Option.map_eq_some_iff.mp ran
  simp only [Prod.mk.injEq] at seen
  refine ⟨state, reachable_run_actions reachable_start reached, ?_, ?_⟩
  · have stamped : true ∈ state.db.outbox.map OutboxRow.dispatched := by
      rw [seen.1]
      exact List.mem_singleton_self _
    exact List.mem_map.mp stamped
  · intro handover listed
    have through := List.mem_map_of_mem listed (f := Handover.published)
    rw [seen.2, List.mem_singleton] at through
    exact through

/-- After a `PUBLISH` that went through, the commit stamps a published row. -/
theorem stamped_greeting_published :
    ∃ state next : State Unit Unit,
      Reachable (step .naiveScale canonicalColumns fun _ => greeting) anyStep
        (started emptyDatabase) state ∧
      step .naiveScale canonicalColumns (fun _ => greeting) state (.relay () .commit) =
        some next ∧
      next.db.outbox.map OutboxRow.dispatched = [true] ∧ StampedPublished next := by
  have ran : ((runActions (step .naiveScale canonicalColumns fun _ => greeting) anyStep
      (started emptyDatabase) (incoming () ++ (smallBatch () true).dropLast)).bind fun state =>
        (step .naiveScale canonicalColumns (fun _ => greeting) state
          (.relay () .commit)).map fun next => (state.db.outbox.map OutboxRow.dispatched,
            (handed (state.relays ())).map Handover.published,
            next.db.outbox.map OutboxRow.dispatched)) =
      some ([false], [true], [true]) := by
    decide +kernel
  obtain ⟨state, reached, stepped⟩ := Option.bind_eq_some_iff.mp ran
  obtain ⟨next, committed, seen⟩ := Option.map_eq_some_iff.mp stepped
  simp only [Prod.mk.injEq] at seen
  have reachable := reachable_run_actions reachable_start reached
  refine ⟨state, next, reachable, committed, seen.2.2, ?_⟩
  refine ((stamped_rows_published_iff canonicalColumns (fun _ => greeting)
    empty_database_untouched).2 state next (.relay () .commit) reachable ?_ committed).mpr ?_
  · intro row listed stamped
    have unstamped := List.mem_map_of_mem listed (f := OutboxRow.dispatched)
    rw [seen.1, List.mem_singleton, stamped] at unstamped
    cases unstamped
  · rintro relay move ⟨⟩ _ handover listed
    have through := List.mem_map_of_mem listed (f := Handover.published)
    rw [seen.2.1, List.mem_singleton] at through
    exact .inl through

end Publishes

end ChatScale.RoomOutboxHandover
