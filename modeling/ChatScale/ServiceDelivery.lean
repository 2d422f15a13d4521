import ChatScale.DeliverySystem

/-!
# What an instance does with what it gets

A message that an instance takes from its subscription goes to the `Send`
channels of the room's connections, and from each channel to the socket, in
order. So for a connection that stays in its room, what was enqueued, what is
being sent to it and what still waits in the subscription form one list that
the steps of the instance leave as it is.
-/

namespace ChatScale.ServiceDelivery

open ChatScale.ByteText ChatScale.MessageContract ChatScale.HubRooms
open ChatScale.DeliveryPipeline ChatScale.ClientFrames ChatScale.DeliverySystem
open ChatScale.OutboxRelayModel (Record recordSeq)
open ChatScale.LiveHubModel (Profile Connection ConnectionMove Dispatcher PumpStage dispatchFrame
  dispatchStep sendStep setConnection connectionMove)

set_option autoImplicit false

section Lines

/-- The frame that the pump has taken from the channel. -/
def pumpFrames : PumpStage → List Bytes
  | .writing frame => [frame]
  | _ => []

/-- The socket gets the frames in the order in which they were enqueued; the
pump stops at the first that it cannot write. -/
structure LineSound (connection : Connection) (enqueued written : List Bytes) : Prop where
  flowing : connection.pump ≠ .returned →
    enqueued = written ++ (pumpFrames connection.pump ++ connection.send)
  ordered : written <+: enqueued

theorem line_of_flowing {connection : Connection} {enqueued written : List Bytes}
    (same : enqueued = written ++ (pumpFrames connection.pump ++ connection.send)) :
    LineSound connection enqueued written :=
  ⟨fun _ => same, same ▸ List.prefix_append _ _⟩

theorem line_move {move : ConnectionMove} {before after : Connection}
    {enqueued written : List Bytes} (sound : LineSound before enqueued written)
    (moved : connectionMove move before = some after) :
    LineSound after (enqueued ++ enqueuedBy move before) (written ++ writtenBy move before) := by
  unfold connectionMove at moved
  split at moved
  case h_5 frame pump send =>
      -- A frame is added at the end of the channel, whether or not the pump still runs.
      split_ifs at moved
      cases moved
      simp only [enqueuedBy, writtenBy, List.append_nil]
      constructor
      · intro running
        rw [sound.flowing running]
        simp
      · exact sound.ordered.trans (List.prefix_append _ _)
  case h_8 serve frame rest =>
      cases moved
      have same := sound.flowing (by simp)
      simp only [enqueuedBy, writtenBy, List.append_nil]
      exact line_of_flowing same
  case h_9 serve frame send =>
      cases moved
      have same := sound.flowing (by simp)
      simp only [enqueuedBy, writtenBy, List.append_nil]
      apply line_of_flowing
      rw [same]
      simp [pumpFrames]
  case h_2 =>
      cases moved
      have same := sound.flowing (by simp)
      simp only [enqueuedBy, writtenBy, List.append_nil]
      exact line_of_flowing same
  case h_10 =>
      cases moved
      simp only [enqueuedBy, writtenBy, List.append_nil]
      exact ⟨fun running => absurd rfl running, sound.ordered⟩
  case h_11 =>
      cases moved
      simp only [enqueuedBy, writtenBy, List.append_nil]
      exact ⟨fun running => absurd rfl running, sound.ordered⟩
  case h_12 => cases moved
  all_goals
    cases moved
    simp only [enqueuedBy, writtenBy, List.append_nil]
    exact ⟨sound.flowing, sound.ordered⟩

theorem line_send {connection : Connection} {enqueued written : List Bytes} (frame : Bytes)
    (sound : LineSound connection enqueued written) :
    LineSound { connection with send := connection.send ++ [frame] } (enqueued ++ [frame])
      written := by
  constructor
  · intro running
    rw [sound.flowing running]
    simp
  · exact sound.ordered.trans (List.prefix_append _ _)

end Lines

section Carried

/-- The event in a record, as every service decodes it. -/
structure Carries (record : Record) (event : Event) : Prop where
  decoded : unmarshalEvent record.value = some event
  valid : event.validate = .ok ()
  encodable : event.Encodable
  keyed : event.roomID = record.key

/-- What the delivery service publishes for a record. -/
def IsEnvelope (record : Record) (payload : Bytes) : Prop :=
  ∃ headers timestamp, timestamp.encodes = true ∧
    payload = (consumeClaim record headers timestamp).marshal

/-- A frame that an instance makes of a record, and what a client decodes it to. -/
structure Shows (frame : Bytes) (record : Record) (event shown : Event) : Prop where
  carries : Carries record event
  framed : dispatchFrame event = some frame
  decoded : decodeServerFrame frame = .ok (.event shown)
  same : ∃ raw, shown = { event with payload := raw } ∧ SameValue raw event.payload

/-- The number that a client reads from a frame if it is an event of the room. -/
def shownSeq (room frame : Bytes) : Option Int :=
  match decodeServerFrame frame with
  | .ok (.event event) => if event.roomID = room then some event.roomSeq else none
  | _ => none

/-- The number that a consumer reads from a published text. -/
def payloadSeq (room payload : Bytes) : Option Int :=
  match consume payload with
  | some event => if event.roomID = room then some event.roomSeq else none
  | none => none

variable {record : Record} {event : Event}

theorem carries_seq (carries : Carries record event) : recordSeq record = some event.roomSeq := by
  rw [recordSeq, carries.decoded]
  rfl

theorem carries_consumed (carries : Carries record event) {payload : Bytes}
    (envelope : IsEnvelope record payload) : consume payload = some event := by
  rcases envelope with ⟨headers, timestamp, encodes, rfl⟩
  rcases unmarshal_message (consumeClaim record headers timestamp) encodes with
    ⟨_, _, received⟩
  exact consume_decoded received carries.decoded carries.keyed

theorem carries_shown (carries : Carries record event) :
    ∃ frame shown, Shows frame record event shown := by
  rcases dispatched_event_shown carries.encodable carries.valid with
    ⟨frame, raw, framed, decoded, same⟩
  exact ⟨frame, _, carries, framed, decoded, raw, rfl, same⟩

theorem shown_seq_event {frame : Bytes} {shown : Event}
    (shows : Shows frame record event shown) (room : Bytes) :
    shownSeq room frame = if event.roomID = room then some event.roomSeq else none := by
  rcases shows.same with ⟨raw, rfl, _⟩
  rw [shownSeq, shows.decoded]

theorem payload_seq_event (carries : Carries record event) {payload : Bytes}
    (envelope : IsEnvelope record payload) (room : Bytes) :
    payloadSeq room payload = if event.roomID = room then some event.roomSeq else none := by
  rw [payloadSeq, carries_consumed carries envelope]

theorem shown_seq_answer {frame room : Bytes} (answer : IsAnswer frame) :
    shownSeq room frame = none := by
  unfold shownSeq
  split
  · rename_i event decoded
    exact absurd decoded (answer_not_event answer event)
  · rfl

theorem answer_marshal (answer : Answer) : IsAnswer answer.marshal := by
  cases answer with
  | accepted event => exact .accepted event rfl
  | rejected clientMessageID errorCode => exact .rejected clientMessageID errorCode rfl

end Carried

section Sound

variable {Conn : Type} {profiles : Conn → Profile}

/-- Everything an instance holds comes from a known record or is an answer. -/
structure ServiceSound (known : Record → Prop) (service : Service profiles) : Prop where
  queue : ∀ payload ∈ service.queue, ∃ record, known record ∧ IsEnvelope record payload
  sending : ∀ frame rest, service.hub.dispatcher = .sending frame rest →
    ∃ record event shown, known record ∧ Shows frame record event shown
  enqueued : ∀ conn, ∀ frame ∈ service.enqueued conn, IsAnswer frame ∨
    ∃ record event shown, known record ∧ Shows frame record event shown
  answers : ∀ conn frame, (service.hub.conns conn).serve = .enqueueing frame → IsAnswer frame
  lines : ∀ conn, LineSound (service.hub.conns conn) (service.enqueued conn) (service.written conn)

variable {known : Record → Prop} {service next : Service profiles}

theorem new_service_sound (known : Record → Prop) :
    ServiceSound known (newService profiles) where
  queue := fun _ listed => nomatch listed
  sending := fun _ _ same => nomatch same
  enqueued := fun _ _ listed => nomatch listed
  answers := fun _ _ same => nomatch same
  lines := fun _ => line_of_flowing rfl

theorem service_sound_mono {more : Record → Prop} (grows : ∀ record, known record → more record)
    (sound : ServiceSound known service) : ServiceSound more service where
  queue := by
    intro payload listed
    rcases sound.queue payload listed with ⟨record, isKnown, envelope⟩
    exact ⟨record, grows record isKnown, envelope⟩
  sending := by
    intro frame rest same
    rcases sound.sending frame rest same with ⟨record, event, shown, isKnown, shows⟩
    exact ⟨record, event, shown, grows record isKnown, shows⟩
  enqueued := by
    intro conn frame listed
    rcases sound.enqueued conn frame listed with answer | ⟨record, event, shown, isKnown, shows⟩
    · exact .inl answer
    · exact .inr ⟨record, event, shown, grows record isKnown, shows⟩
  answers := sound.answers
  lines := sound.lines

theorem accept_sound (sound : ServiceSound known service) {texts : List Bytes}
    (published : ∀ text ∈ texts, ∃ record, known record ∧ IsEnvelope record text) :
    ServiceSound known (service.accept texts) := by
  unfold Service.accept
  split_ifs
  · refine ⟨?_, sound.sending, sound.enqueued, sound.answers, sound.lines⟩
    intro payload listed
    rcases List.mem_append.mp listed with old | new
    · exact sound.queue payload old
    · exact published payload new
  · exact sound

variable [DecidableEq Conn]

/-- The loop of `Dispatch` sends the frame of its event to the connections of
the room. -/
theorem dispatch_step_framed {state after : LiveHubModel.State profiles} {event : Event}
    {targets : List Conn} {frame : Bytes} (framed : dispatchFrame event = some frame)
    (stepped : dispatchStep state event targets = some after) :
    state.dispatcher = .idle ∧
      (state.hub.members event.roomID = none ∧ after = state ∨
        ∃ conns, state.hub.members event.roomID = some conns ∧ targets.Perm conns ∧
          after = { state with dispatcher := .sending frame targets }) := by
  unfold dispatchStep at stepped
  split at stepped
  · rename_i other conns idle found members
    split_ifs at stepped with ordered
    cases stepped
    cases framed.symm.trans found
    exact ⟨idle, .inr ⟨conns, members, ordered, rfl⟩⟩
  · rename_i idle notBoth
    cases stepped
    refine ⟨idle, .inl ⟨?_, rfl⟩⟩
    cases members : state.hub.members event.roomID with
    | none => rfl
    | some conns => exact absurd members (notBoth frame conns framed)
  · cases stepped

/-- What a step of the consumer does with the message at the head of its queue. -/
theorem receive_message_cases (carried : ∀ record, known record → ∃ event, Carries record event)
    (sound : ServiceSound known service) {targets : List Conn}
    (received : receiveMessage service targets = some next) :
    ∃ payload rest record event frame shown, service.queue = payload :: rest ∧ known record ∧
      IsEnvelope record payload ∧ Shows frame record event shown ∧
      service.hub.dispatcher = .idle ∧
      (service.hub.hub.members event.roomID = none ∧ next = { service with queue := rest } ∨
        ∃ conns, service.hub.hub.members event.roomID = some conns ∧ targets.Perm conns ∧
          next = { service with
            queue := rest, hub := { service.hub with dispatcher := .sending frame targets } }) := by
  unfold receiveMessage at received
  split at received
  · rename_i payload rest waiting idle
    rcases sound.queue payload (waiting ▸ List.mem_cons_self) with ⟨record, isKnown, envelope⟩
    rcases carried record isKnown with ⟨event, carries⟩
    rcases carries_shown carries with ⟨frame, shown, shows⟩
    rw [carries_consumed carries envelope] at received
    rcases Option.map_eq_some_iff.mp received with ⟨hub, dispatched, rfl⟩
    refine ⟨payload, rest, record, event, frame, shown, waiting, isKnown, envelope, shows, idle, ?_⟩
    rcases (dispatch_step_framed shows.framed dispatched).2 with
      ⟨absent, rfl⟩ | ⟨conns, members, ordered, rfl⟩
    · exact .inl ⟨absent, rfl⟩
    · exact .inr ⟨conns, members, ordered, rfl⟩
  · cases received

theorem send_frame_cases (sent : sendFrame service = some next) :
    ∃ frame conn rest, service.hub.dispatcher = .sending frame (conn :: rest) ∧
      next = { service with
        hub := { setConnection service.hub conn
          { service.hub.conns conn with send := (service.hub.conns conn).send ++ [frame] } with
            dispatcher := .sending frame rest }
        enqueued := Function.update service.enqueued conn (service.enqueued conn ++ [frame]) } := by
  unfold sendFrame at sent
  split at sent
  · rename_i frame conn rest sending
    rcases Option.map_eq_some_iff.mp sent with ⟨hub, stepped, rfl⟩
    rcases LiveHubModel.send_step_cases stepped with ⟨other, first, later, same, _, rfl⟩
    cases sending.symm.trans same
    exact ⟨frame, conn, rest, sending, rfl⟩
  · cases sent

theorem release_cases {state after : LiveHubModel.State profiles}
    (released : LiveHubModel.step state .release = some after) :
    ∃ frame, state.dispatcher = .sending frame [] ∧ after = { state with dispatcher := .idle } := by
  simp only [LiveHubModel.step] at released
  split at released
  · rename_i frame sending
    cases released
    exact ⟨frame, sending, rfl⟩
  · cases released

omit [DecidableEq Conn] in
theorem abort_cases (aborted : abortDispatch service = some next) :
    ∃ frame rest, service.hub.dispatcher = .sending frame rest ∧
      next = { service with hub := { service.hub with dispatcher := .idle } } := by
  unfold abortDispatch at aborted
  split at aborted
  · rename_i frame rest _ sending
    cases aborted
    exact ⟨frame, rest, sending, rfl⟩
  · cases aborted

/-- The moves of a connection only change what belongs to it. -/
theorem move_connection_sound (sound : ServiceSound known service) {conn : Conn}
    {move : ConnectionMove} (answered : ∀ frame, move = .read (some frame) → IsAnswer frame)
    (moved : moveConnection service conn move = some next) : ServiceSound known next := by
  rcases Option.map_eq_some_iff.mp moved with ⟨after, stepped, rfl⟩
  refine ⟨sound.queue, sound.sending, ?_, ?_, ?_⟩
  · intro other frame listed
    by_cases same : other = conn
    · subst same
      simp only [Function.update_self, List.mem_append] at listed
      rcases listed with old | new
      · exact sound.enqueued other frame old
      · unfold enqueuedBy at new
        split at new
        · rename_i enqueued _ _ here
          rw [List.mem_singleton.mp new]
          exact .inl (sound.answers other enqueued (by rw [here]))
        · cases new
    · simp only [Function.update_of_ne same] at listed
      exact sound.enqueued other frame listed
  · have kept : ∀ frame, after.serve = .enqueueing frame →
        (service.hub.conns conn).serve = .enqueueing frame ∨ move = .read (some frame) := by
      intro frame waiting
      unfold connectionMove at stepped
      split at stepped
      all_goals grind
    apply LiveHubModel.set_connection_forall
      (fun _ connection => ∀ frame, connection.serve = .enqueueing frame → IsAnswer frame)
    · exact sound.answers
    · intro frame waiting
      rcases kept frame waiting with before | read
      · exact sound.answers conn frame before
      · exact answered frame read
  · intro other
    by_cases same : other = conn
    · subst same
      simp only [Function.update_self, LiveHubModel.set_connection_self]
      exact line_move (sound.lines other) stepped
    · simp only [Function.update_of_ne same, LiveHubModel.set_connection_other _ _ same]
      exact sound.lines other

/-- A connection changes its place in `ServeWS` only. -/
theorem serve_stage_sound (sound : ServiceSound known service) {conn : Conn}
    {stage : LiveHubModel.ServeStage} (notWaiting : ∀ frame, stage ≠ .enqueueing frame)
    {hub : Hub fun conn => (profiles conn).clientID} {order : List Conn}
    {pump : PumpStage} {send : List Bytes} {old : LiveHubModel.ServeStage}
    (here : service.hub.conns conn = ⟨old, pump, send⟩) :
    ServiceSound known { service with
      hub := { setConnection service.hub conn ⟨stage, pump, send⟩ with
        hub := hub, order := order } } := by
  refine ⟨sound.queue, sound.sending, sound.enqueued, ?_, ?_⟩
  · apply LiveHubModel.set_connection_forall
      (fun _ connection => ∀ frame, connection.serve = .enqueueing frame → IsAnswer frame)
    · exact sound.answers
    · intro frame waiting
      exact absurd waiting (notWaiting frame)
  · apply LiveHubModel.set_connection_forall
      (fun other connection =>
        LineSound connection (service.enqueued other) (service.written other))
    · exact sound.lines
    · have line := sound.lines conn
      rw [here] at line
      exact ⟨line.flowing, line.ordered⟩

theorem send_frame_sound (sound : ServiceSound known service)
    (sent : sendFrame service = some next) : ServiceSound known next := by
  rcases send_frame_cases sent with ⟨frame, conn, rest, sending, rfl⟩
  have shows := sound.sending frame (conn :: rest) sending
  refine ⟨sound.queue, ?_, ?_, ?_, ?_⟩
  · intro other later same
    cases same
    exact shows
  · intro other given listed
    by_cases same : other = conn
    · subst same
      simp only [Function.update_self, List.mem_append, List.mem_singleton] at listed
      rcases listed with old | rfl
      · exact sound.enqueued other given old
      · exact .inr shows
    · simp only [Function.update_of_ne same] at listed
      exact sound.enqueued other given listed
  · apply LiveHubModel.set_connection_forall
      (fun _ connection => ∀ frame, connection.serve = .enqueueing frame → IsAnswer frame)
    · exact sound.answers
    · exact sound.answers conn
  · intro other
    by_cases same : other = conn
    · subst same
      simp only [Function.update_self, LiveHubModel.set_connection_self]
      exact line_send frame (sound.lines other)
    · simp only [Function.update_of_ne same, LiveHubModel.set_connection_other _ _ same]
      exact sound.lines other

theorem service_step_sound (carried : ∀ record, known record → ∃ event, Carries record event)
    (sound : ServiceSound known service) {action : ServiceAction Conn}
    (stepped : serviceStep service action = some next) : ServiceSound known next := by
  cases action with
  | subscribe =>
      cases stepped
      exact ⟨sound.queue, sound.sending, sound.enqueued, sound.answers, sound.lines⟩
  | interrupt =>
      cases stepped
      exact ⟨sound.queue, sound.sending, sound.enqueued, sound.answers, sound.lines⟩
  | close =>
      cases stepped
      exact ⟨by simp, sound.sending, sound.enqueued, sound.answers, sound.lines⟩
  | cancel =>
      cases stepped
      exact ⟨sound.queue, sound.sending, sound.enqueued, sound.answers, sound.lines⟩
  | receive targets =>
      rcases receive_message_cases carried sound stepped with
        ⟨payload, rest, record, event, frame, shown, waiting, isKnown, _, shows, idle, after⟩
      have fewer : ∀ payload ∈ rest, ∃ record, known record ∧ IsEnvelope record payload :=
        fun payload listed => sound.queue payload (waiting ▸ List.mem_cons_of_mem _ listed)
      rcases after with ⟨_, rfl⟩ | ⟨conns, _, _, rfl⟩
      · exact ⟨fewer, sound.sending, sound.enqueued, sound.answers, sound.lines⟩
      · refine ⟨fewer, ?_, sound.enqueued, sound.answers, sound.lines⟩
        intro other later same
        cases same
        exact ⟨record, event, shown, isKnown, shows⟩
  | send => exact send_frame_sound sound stepped
  | release =>
      rcases Option.map_eq_some_iff.mp stepped with ⟨hub, released, rfl⟩
      rcases release_cases released with ⟨frame, _, rfl⟩
      exact ⟨sound.queue, by simp, sound.enqueued, sound.answers, sound.lines⟩
  | abort =>
      rcases abort_cases stepped with ⟨frame, rest, _, rfl⟩
      exact ⟨sound.queue, by simp, sound.enqueued, sound.answers, sound.lines⟩
  | register conn =>
      rcases Option.map_eq_some_iff.mp stepped with ⟨hub, registered, rfl⟩
      rcases LiveHubModel.register_step_cases registered with ⟨_, pump, send, here, rfl⟩
      exact serve_stage_sound sound (by simp) here
  | unregister conn =>
      rcases Option.map_eq_some_iff.mp stepped with ⟨hub, unregistered, rfl⟩
      rcases LiveHubModel.unregister_step_cases unregistered with ⟨_, pump, send, here, rfl⟩
      exact serve_stage_sound sound (by simp) here
  | answer conn answer =>
      apply move_connection_sound sound _ stepped
      intro frame same
      cases same
      exact answer_marshal answer
  | connection conn move =>
      simp only [serviceStep] at stepped
      split_ifs at stepped with answered
      apply move_connection_sound sound _ stepped
      intro frame same
      cases same
      exact absurd rfl answered

end Sound

section Coming

variable {Conn : Type} [DecidableEq Conn] {profiles : Conn → Profile}

def above (base : Int) (seqs : List Int) : List Int := seqs.filter fun seq => decide (base < seq)

/-- The frame that `Dispatch` still has to send to the connection. -/
def pendingFrames (conn : Conn) : Dispatcher Conn → List Bytes
  | .idle => []
  | .sending frame rest => List.replicate (rest.count conn) frame

/-- The room's numbers above `base` that the connection gets: those enqueued,
those being sent to it, and those its instance still has to dispatch. -/
def comingSeqs (service : Service profiles) (conn : Conn) (room : Bytes) (base : Int) : List Int :=
  above base
    ((service.enqueued conn ++ pendingFrames conn service.hub.dispatcher).filterMap
        (shownSeq room) ++
      service.queue.filterMap (payloadSeq room))

/-- The room's numbers above `base` that the socket got. -/
def writtenSeqs (service : Service profiles) (conn : Conn) (room : Bytes) (base : Int) :
    List Int :=
  above base ((service.written conn).filterMap (shownSeq room))

/-- What a step must not do to a connection that is to get all numbers above
`base`: close the subscription or give up a dispatch with such a number still
on its way, or dispatch it while the connection is not in the room. -/
def Attached (service : Service profiles) (conn : Conn) (room : Bytes) (base : Int) :
    ServiceAction Conn → Prop
  | .close => ∀ payload ∈ service.queue, ∀ seq ∈ payloadSeq room payload, seq ≤ base
  | .abort => ∀ frame ∈ pendingFrames conn service.hub.dispatcher,
      ∀ seq ∈ shownSeq room frame, seq ≤ base
  | .receive _ => ∀ payload ∈ service.queue.head?, ∀ seq ∈ payloadSeq room payload, base < seq →
      service.hub.hub.clientAt room (profiles conn).clientID = some conn
  | _ => True

instance (service : Service profiles) (conn : Conn) (room : Bytes) (base : Int)
    (action : ServiceAction Conn) : Decidable (Attached service conn room base action) := by
  unfold Attached
  split
  · infer_instance
  · infer_instance
  · infer_instance
  · exact isTrue trivial

variable {service next : Service profiles} {known : Record → Prop} {conn : Conn} {room : Bytes}
  {base : Int}

theorem above_append (left right : List Int) :
    above base (left ++ right) = above base left ++ above base right := List.filter_append ..

theorem mem_above {seqs : List Int} {seq : Int} :
    seq ∈ above base seqs ↔ seq ∈ seqs ∧ base < seq := by
  rw [above, List.mem_filter, decide_eq_true_eq]

theorem above_eq_nil {seqs : List Int} (low : ∀ seq ∈ seqs, seq ≤ base) : above base seqs = [] := by
  rw [above, List.filter_eq_nil_iff]
  intro seq listed
  have bound := low seq listed
  simp only [decide_eq_true_eq]
  omega

/-- What the socket got is the beginning of what comes. -/
theorem written_coming_initial (sound : ServiceSound known service) :
    writtenSeqs service conn room base <+: comingSeqs service conn room base := by
  rcases (sound.lines conn).ordered with ⟨rest, same⟩
  simp only [comingSeqs, ← same, List.filterMap_append, above_append, List.append_assoc]
  exact List.prefix_append _ _

/-- When nothing waits any more, the socket got all that came. -/
theorem written_of_drained (sound : ServiceSound known service) (empty : service.queue = [])
    (idle : service.hub.dispatcher = .idle) (waiting : (service.hub.conns conn).pump = .waiting)
    (drained : (service.hub.conns conn).send = []) :
    writtenSeqs service conn room base = comingSeqs service conn room base := by
  have line := (sound.lines conn).flowing (by simp [waiting])
  rw [waiting, drained] at line
  simp [comingSeqs, writtenSeqs, line, idle, empty, pumpFrames, pendingFrames]

/-- What comes to a connection when texts are published to its instance. -/
theorem accept_coming (service : Service profiles) (conn : Conn) (room : Bytes) (base : Int)
    (texts : List Bytes) :
    ∃ more, comingSeqs (service.accept texts) conn room base =
        comingSeqs service conn room base ++ more ∧
      (∀ seq ∈ more, base < seq ∧ ∃ text ∈ texts, payloadSeq room text = some seq) ∧
      (service.subscribed = true → ∀ text ∈ texts, ∀ seq, payloadSeq room text = some seq →
        base < seq → seq ∈ more) := by
  cases subscribed : service.subscribed with
  | false =>
      refine ⟨[], ?_, by simp, by simp⟩
      simp [Service.accept, subscribed]
  | true =>
      refine ⟨above base (texts.filterMap (payloadSeq room)), ?_, ?_, ?_⟩
      · simp only [Service.accept, subscribed, if_true, comingSeqs, List.filterMap_append,
          above_append, List.append_assoc]
      · intro seq listed
        rcases mem_above.mp listed with ⟨found, higher⟩
        rcases List.mem_filterMap.mp found with ⟨text, got, read⟩
        exact ⟨higher, text, got, read⟩
      · intro _ text got seq read higher
        exact mem_above.mpr ⟨List.mem_filterMap.mpr ⟨text, got, read⟩, higher⟩

/-- A dispatch takes the number from the queue and has it on its way to the
connection. -/
theorem receive_coming (carried : ∀ record, known record → ∃ event, Carries record event)
    (sound : ServiceSound known service) {targets : List Conn}
    (attached : Attached service conn room base (.receive targets))
    (received : receiveMessage service targets = some next) :
    comingSeqs next conn room base = comingSeqs service conn room base := by
  rcases receive_message_cases carried sound received with
    ⟨payload, rest, record, event, frame, shown, waiting, _, envelope, shows, idle, after⟩
  have shownHere := shown_seq_event shows room
  have payloadHere := payload_seq_event shows.carries envelope room
  by_cases wanted : event.roomID = room ∧ base < event.roomSeq
  · rcases wanted with ⟨rfl, higher⟩
    rw [if_pos rfl] at shownHere payloadHere
    have joined := attached payload (by rw [waiting]; rfl) event.roomSeq payloadHere higher
    rcases after with ⟨absent, _⟩ | ⟨conns, members, ordered, rfl⟩
    · rw [Hub.clientAt, Option.map_eq_none_iff.mp absent] at joined
      cases joined
    · have listed : conn ∈ conns := (mem_members service.hub.hub members conn).mpr joined
      have once : targets.count conn = 1 := by
        rw [ordered.count_eq]
        exact List.count_eq_one_of_mem (members_nodup service.hub.hub members) listed
      simp [comingSeqs, idle, waiting, pendingFrames, once, shownHere, payloadHere]
  · -- The number is of another room or not above `base`, so it does not count at all.
    have skipped (copies : Nat) :
        above base ((List.replicate copies frame).filterMap (shownSeq room)) = [] := by
      apply above_eq_nil
      intro seq listed
      rcases List.mem_filterMap.mp listed with ⟨copy, copied, found⟩
      rw [List.eq_of_mem_replicate copied, shownHere] at found
      grind
    have passed : above base ([payload].filterMap (payloadSeq room)) = [] := by
      apply above_eq_nil
      intro seq listed
      rcases List.mem_filterMap.mp listed with ⟨copy, copied, found⟩
      rw [List.mem_singleton.mp copied, payloadHere] at found
      grind
    have split : service.queue = [payload] ++ rest := waiting
    rcases after with ⟨_, rfl⟩ | ⟨conns, _, _, rfl⟩
    · simp only [comingSeqs, split, List.filterMap_append, above_append, passed, List.nil_append]
    · simp only [comingSeqs, split, idle, pendingFrames, List.filterMap_append, above_append,
        passed, skipped, List.nil_append, List.append_nil]

theorem send_coming (sent : sendFrame service = some next) :
    comingSeqs next conn room base = comingSeqs service conn room base := by
  rcases send_frame_cases sent with ⟨frame, first, rest, sending, rfl⟩
  by_cases same : first = conn
  · subst same
    simp [comingSeqs, sending, pendingFrames, List.replicate_succ, List.filterMap_append,
      List.filterMap_cons]
  · have other : conn ≠ first := fun equal => same equal.symm
    simp [comingSeqs, sending, pendingFrames, Function.update_of_ne other, same]

theorem move_connection_coming (sound : ServiceSound known service) {mover : Conn}
    {move : ConnectionMove} (moved : moveConnection service mover move = some next) :
    comingSeqs next conn room base = comingSeqs service conn room base := by
  rcases Option.map_eq_some_iff.mp moved with ⟨after, stepped, rfl⟩
  by_cases same : conn = mover
  · subst same
    have silent : (enqueuedBy move (service.hub.conns conn)).filterMap (shownSeq room) = [] := by
      unfold enqueuedBy
      split
      · rename_i frame _ _ here
        have answer := sound.answers conn frame (by rw [here])
        simp [shown_seq_answer answer]
      · rfl
    simp only [comingSeqs, Function.update_self, List.filterMap_append, silent, List.append_nil,
      setConnection]
  · simp only [comingSeqs, Function.update_of_ne same, setConnection]

/-- No step of the instance loses, adds or reorders what an attached connection
gets. -/
theorem service_step_coming (carried : ∀ record, known record → ∃ event, Carries record event)
    (sound : ServiceSound known service) {action : ServiceAction Conn}
    (attached : Attached service conn room base action)
    (stepped : serviceStep service action = some next) :
    comingSeqs next conn room base = comingSeqs service conn room base := by
  cases action with
  | subscribe =>
      cases stepped
      rfl
  | interrupt =>
      cases stepped
      rfl
  | close =>
      cases stepped
      have lost : above base (service.queue.filterMap (payloadSeq room)) = [] := by
        apply above_eq_nil
        intro seq listed
        rcases List.mem_filterMap.mp listed with ⟨payload, waiting, found⟩
        exact attached payload waiting seq found
      simp [comingSeqs, above_append, lost]
  | cancel =>
      cases stepped
      rfl
  | receive targets => exact receive_coming carried sound attached stepped
  | send => exact send_coming stepped
  | release =>
      rcases Option.map_eq_some_iff.mp stepped with ⟨hub, released, rfl⟩
      rcases release_cases released with ⟨frame, sending, rfl⟩
      simp [comingSeqs, sending, pendingFrames]
  | abort =>
      rcases abort_cases stepped with ⟨frame, rest, sending, rfl⟩
      have lost : above base ((pendingFrames conn (.sending frame rest)).filterMap
          (shownSeq room)) = [] := by
        apply above_eq_nil
        intro seq listed
        rcases List.mem_filterMap.mp listed with ⟨copy, copied, found⟩
        exact attached copy (sending ▸ copied) seq found
      simp only [comingSeqs, sending, List.filterMap_append, above_append, lost]
      rfl
  | register conn =>
      rcases Option.map_eq_some_iff.mp stepped with ⟨hub, registered, rfl⟩
      rcases LiveHubModel.register_step_cases registered with ⟨_, pump, send, here, rfl⟩
      rfl
  | unregister conn =>
      rcases Option.map_eq_some_iff.mp stepped with ⟨hub, unregistered, rfl⟩
      rcases LiveHubModel.unregister_step_cases unregistered with ⟨_, pump, send, here, rfl⟩
      rfl
  | answer mover answer => exact move_connection_coming sound stepped
  | connection mover move =>
      simp only [serviceStep] at stepped
      split_ifs at stepped
      exact move_connection_coming sound stepped

end Coming

end ChatScale.ServiceDelivery
