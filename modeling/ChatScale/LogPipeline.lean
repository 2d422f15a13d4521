import ChatScale.CausalOrder
import ChatScale.LogConsumerOffsets
import ChatScale.MessageContract

/-!
# From the log publisher to the consumer's lines

The publisher sends events of one level only. All of them then go through one
worker, which takes its jobs in the order of the offsets, so that nothing can
overtake: whatever sessions and processes end, every event below a committed
position has been printed. With messages of other levels in the stream this
fails.
-/

namespace ChatScale.LogPipeline

open ChatScale.ByteText ChatScale.CivilTime ChatScale.JsonText ChatScale.JsonFields
open ChatScale.MessageContract (decodes_string decodes_time)
open ChatScale.TransitionSystem ChatScale.CausalOrder
open ChatScale.LogConsumerModel ChatScale.LogConsumerOffsets

set_option autoImplicit false

section Publisher

def logFields (event : LogEvent) : List (String × Json) :=
  [("level", encodeString event.level), ("msg", encodeString event.message),
    ("service", encodeString event.service), ("time", encodeTime event.time)]

def logFieldNames : List String := ["level", "msg", "service", "time"]

def eventText (event : LogEvent) : Bytes := render (structTree (logFields event))

/-- `KafkaEncoder.Encode`: "failed to encode payload" if the time has no text. -/
def encode (event : LogEvent) : Option Bytes :=
  if event.time.encodes then some (eventText event) else none

/-- The message that `main` publishes. -/
def publishedEvent (now : Stamp) : LogEvent :=
  ⟨ascii "information", ascii "some-info", ascii "producer", now.toTime⟩

theorem log_names : (∀ name ∈ logFieldNames, isValidUtf8 (ascii name) = true) ∧
    (logFieldNames.map ascii).Nodup ∧ FoldDistinct (logFieldNames.map ascii) := by
  decide +kernel

/-- The consumer reads an event as it was sent, if JSON carries its texts and its time
unchanged. -/
theorem decode_event_text {event : LogEvent} (level : isValidUtf8 event.level = true)
    (message : isValidUtf8 event.message = true) (service : isValidUtf8 event.service = true)
    (time : event.time.isExact = true) : decode (eventText event) = some event := by
  have named : (logFields event).map Prod.fst = logFieldNames := rfl
  rcases struct_decides named log_names.1 log_names.2.1 log_names.2.2 with
    ⟨members, found, decides⟩
  rcases decides 0 "level" _ rfl with ⟨_, levelMember⟩
  rcases decides 1 "msg" _ rfl with ⟨_, messageMember⟩
  rcases decides 2 "service" _ rfl with ⟨_, serviceMember⟩
  rcases decides 3 "time" _ rfl with ⟨_, timeMember⟩
  have members : structMembers (eventText event) = some members := found
  simp only [decode, members, Option.bind_eq_bind, Option.bind_some, decodes_string levelMember,
    decodes_string messageMember, decodes_string serviceMember,
    decodes_time timeMember (parse_exact_format time), value_of_valid level,
    value_of_valid message, value_of_valid service]

variable {Partition : Type} [DecidableEq Partition]

/-- The events that `Publish` sent to a partition. The sends are in the order in which
the broker takes them, whatever goroutine they are from; one that fails at the broker has
no partition, and one that is taken twice stands there twice. -/
def sentTo (sends : List (LogEvent × Option Partition)) (partition : Partition) :
    List LogEvent :=
  (sends.filter fun send => decide (send.2 = some partition)).map Prod.fst

def produced (sends : List (LogEvent × Option Partition)) (partition : Partition) : List Bytes :=
  (sentTo sends partition).filterMap encode

theorem mem_sent_to {sends : List (LogEvent × Option Partition)} {partition : Partition}
    {event : LogEvent} (listed : event ∈ sentTo sends partition) :
    (event, some partition) ∈ sends := by
  rcases List.mem_map.mp listed with ⟨send, member, rfl⟩
  rcases List.mem_filter.mp member with ⟨sent, same⟩
  rw [← of_decide_eq_true same]
  exact sent

end Publisher

section OneLevel

variable {Partition : Type} {streams : Partition → List Bytes} {only : Level}

/-- Every message of the streams goes to one worker. -/
def OneLevel (streams : Partition → List Bytes) (only : Level) : Prop :=
  ∀ partition, ∀ value ∈ streams partition, ∃ event, verdict value = .known only event

/-- The jobs of the level that are not printed, in the order of their prints. -/
def line (state : State Partition) (only : Level) : List (Job Partition) :=
  unprinted (state.workers only) ++ state.queues only

/-- The messages of a session among some jobs. -/
def stamped (session : Nat) (jobs : List (Job Partition)) : List (Partition × Nat) :=
  (jobs.filter fun job => job.session == session).map fun job => (job.partition, job.offset)

def lined (state : State Partition) (only : Level) : List (Partition × Nat) :=
  stamped state.session (line state only)

/-- A message waits for the smaller offsets that are not handled. -/
def needs (streams : Partition → List Bytes) (state : State Partition)
    (message other : Partition × Nat) : Prop :=
  other.1 = message.1 ∧ other.2 < message.2 ∧ ¬ Handled streams state other.1 other.2

/-- The message of a job has the level and is at its offset. -/
def Names (streams : Partition → List Bytes) (only : Level) (partition : Partition)
    (offset : Nat) (event : LogEvent) : Prop :=
  ∃ value, (streams partition)[offset]? = some value ∧ verdict value = .known only event

structure LineSound (streams : Partition → List Bytes) (only : Level) (state : State Partition) :
    Prop where
  committed : ∀ partition offset, offset < state.committed partition →
    Handled streams state partition offset
  levels : ∀ level, ∀ job ∈ held state level, level = only ∧ job.session ≤ state.session ∧
    Names streams only job.partition job.offset job.event
  chosen : ∀ job, state.workers only = .printing job ∨ state.workers only = .marking job →
    ∀ offset < job.offset, Handled streams state job.partition offset
  marking : ∀ job, state.workers only = .marking job →
    Handled streams state job.partition job.offset
  skips : ∀ partition offset, state.claims partition ≠ .skipping offset
  hands : ∀ partition level job, state.claims partition = .handing level job →
    level = only ∧ job.partition = partition ∧ job.session = state.session ∧
      Names streams only partition job.offset job.event
  read : state.live = true → ∀ partition offset, Passed (state.claims partition) offset →
    Handled streams state partition offset ∨ (partition, offset) ∈ lined state only
  causal : state.live = true → Causal (needs streams state) (lined state only)
  lines : ∀ level partition offset event, .message level partition offset event ∈ state.printed →
    level = only ∧ Names streams only partition offset event
  unskipped : state.skipped = []

variable {state after : State Partition}

theorem initial_line_sound (streams : Partition → List Bytes) (only : Level) :
    LineSound streams only (initial : State Partition) where
  committed := fun _ _ below => absurd below (Nat.not_lt_zero _)
  levels := fun _ _ member => absurd member List.not_mem_nil
  chosen := by
    intro job stage
    rcases stage with printing | marking
    · cases printing
    · cases marking
  marking := by
    intro job marking
    cases marking
  skips := by
    intro partition offset skipping
    cases skipping
  hands := by
    intro partition level job handing
    cases handing
  read := by
    intro live
    cases live
  causal := by
    intro live
    cases live
  lines := fun _ _ _ _ listed => absurd listed List.not_mem_nil
  unskipped := rfl

/-- A step of the claims alone, or of the sessions. -/
theorem claims_sound (sound : LineSound streams only state) {live : Bool}
    {claims : Partition → ClaimStage Partition} (lives : live = true → state.live = true)
    (skips : ∀ partition offset, claims partition ≠ .skipping offset)
    (hands : ∀ partition level job, claims partition = .handing level job →
      level = only ∧ job.partition = partition ∧ job.session = state.session ∧
        Names streams only partition job.offset job.event)
    (passed : live = true → ∀ partition offset, Passed (claims partition) offset →
      Passed (state.claims partition) offset) :
    LineSound streams only { state with live := live, claims := claims } where
  committed := sound.committed
  levels := sound.levels
  chosen := sound.chosen
  marking := sound.marking
  skips := skips
  hands := hands
  read := fun alive partition offset before =>
    sound.read (lives alive) partition offset (passed alive partition offset before)
  causal := fun alive => sound.causal (lives alive)
  lines := sound.lines
  unskipped := sound.unskipped

/-- A step of the worker, with its queue and the lines it prints. -/
structure WorkerTurn (streams : Partition → List Bytes) (only : Level)
    (state after : State Partition) (rest : List (Job Partition)) (stage : WorkerStage Partition)
    (more : List (Line Partition)) : Prop where
  claims : after.claims = state.claims
  session : after.session = state.session
  live : after.live = state.live
  skipped : after.skipped = state.skipped
  printed : after.printed = state.printed ++ more
  queues : after.queues = Function.update state.queues only rest
  workers : after.workers = Function.update state.workers only stage
  committed : ∀ partition offset, offset < after.committed partition →
    Handled streams after partition offset
  held : ∀ job ∈ rest ++ holding stage, job ∈ held state only
  chosen : ∀ job, stage = .printing job ∨ stage = .marking job →
    ∀ offset < job.offset, Handled streams after job.partition offset
  marking : ∀ job, stage = .marking job → Handled streams after job.partition job.offset
  read : state.live = true → ∀ message ∈ lined state only,
    message ∈ stamped state.session (unprinted stage ++ rest) ∨
      Handled streams after message.1 message.2
  causal : state.live = true →
    Causal (needs streams after) (stamped state.session (unprinted stage ++ rest))
  lines : ∀ level partition offset event, .message level partition offset event ∈ more →
    level = only ∧ Names streams only partition offset event

theorem turn_handled {rest : List (Job Partition)} {stage : WorkerStage Partition}
    {more : List (Line Partition)} (turn : WorkerTurn streams only state after rest stage more)
    {partition : Partition} {offset : Nat} (handled : Handled streams state partition offset) :
    Handled streams after partition offset := by
  apply handled_grows _ _ handled
  · rw [turn.printed]
    exact List.subset_append_left _ _
  · rw [turn.skipped]
    exact List.Subset.refl _

theorem turn_lined {rest : List (Job Partition)} {stage : WorkerStage Partition}
    {more : List (Line Partition)} (turn : WorkerTurn streams only state after rest stage more) :
    lined after only = stamped state.session (unprinted stage ++ rest) := by
  rw [lined, line, turn.session, turn.queues, turn.workers, Function.update_self,
    Function.update_self]

theorem worker_turn_sound {rest : List (Job Partition)} {stage : WorkerStage Partition}
    {more : List (Line Partition)} (sound : LineSound streams only state)
    (turn : WorkerTurn streams only state after rest stage more) :
    LineSound streams only after where
  committed := turn.committed
  levels := by
    intro level job member
    rw [held, update_jobs holding only rest stage level turn.queues turn.workers] at member
    rw [turn.session]
    split_ifs at member with same
    · rw [same]
      exact sound.levels only job (turn.held job member)
    · exact sound.levels level job member
  chosen := by
    rw [turn.workers, Function.update_self]
    exact turn.chosen
  marking := by
    rw [turn.workers, Function.update_self]
    exact turn.marking
  skips := by
    rw [turn.claims]
    exact sound.skips
  hands := by
    rw [turn.claims, turn.session]
    exact sound.hands
  read := by
    intro live partition offset passed
    rw [turn.live] at live
    rw [turn.claims] at passed
    rcases sound.read live partition offset passed with handled | listed
    · exact .inl (turn_handled turn handled)
    · rw [turn_lined turn]
      exact (turn.read live _ listed).symm
  causal := by
    rw [turn.live, turn_lined turn]
    exact turn.causal
  lines := by
    intro level partition offset event listed
    rw [turn.printed, List.mem_append] at listed
    rcases listed with before | now
    · exact sound.lines level partition offset event before
    · exact turn.lines level partition offset event now
  unskipped := by
    rw [turn.skipped]
    exact sound.unskipped

end OneLevel

section Steps

variable {Partition : Type} {streams : Partition → List Bytes} {only level : Level}
  {state after : State Partition} {job : Job Partition} {rest : List (Job Partition)}

theorem stamped_own (same : job.session = state.session) :
    stamped state.session (job :: rest) =
      (job.partition, job.offset) :: stamped state.session rest := by
  rw [stamped, List.filter_cons_of_pos (by simp [same])]
  rfl

theorem stamped_other (apart : job.session ≠ state.session) :
    stamped state.session (job :: rest) = stamped state.session rest := by
  rw [stamped, List.filter_cons_of_neg (by simp [apart])]
  rfl

/-- Only the worker of the level has jobs. -/
theorem worker_level (sound : LineSound streams only state)
    (holds : job ∈ holding (state.workers level)) : level = only :=
  (sound.levels level job (List.mem_append_right _ holds)).1

theorem take_line_sound (sound : LineSound streams only state)
    (receiving : state.workers level = .receiving) (queued : state.queues level = job :: rest) :
    LineSound streams only { setWorker state level (.checking job) with
      queues := Function.update state.queues level rest } := by
  have own : job ∈ held state level := by
    rw [held, queued]
    exact List.mem_append_left _ List.mem_cons_self
  rcases (sound.levels level job own).1 with rfl
  have same : lined state level = stamped state.session ([job] ++ rest) := by
    rw [lined, line, receiving, queued]
    rfl
  refine worker_turn_sound sound (?_ : WorkerTurn _ _ _ _ rest (.checking job) [])
  refine ⟨rfl, rfl, rfl, rfl, (List.append_nil _).symm, rfl, rfl, sound.committed, ?_, ?_, ?_, ?_,
    ?_, ?_⟩
  · intro other member
    rw [held, queued]
    apply List.mem_append_left
    rcases List.mem_append.mp member with queue | hand
    · exact List.mem_cons_of_mem _ queue
    · rw [List.mem_singleton.mp hand]
      exact List.mem_cons_self
  · intro other stage
    rcases stage with printing | marking
    · cases printing
    · cases marking
  · intro other marking
    cases marking
  · intro _ message listed
    rw [same] at listed
    exact .inl listed
  · intro live
    have causal := sound.causal live
    rw [same] at causal
    exact causal
  · intro _ _ _ _ listed
    cases listed

/-- A job of an expired session is dropped. -/
theorem drop_line_sound (sound : LineSound streams only state)
    (checking : state.workers level = .checking job) (expired : isExpired state job = true) :
    LineSound streams only (setWorker state level .receiving) := by
  rcases worker_level sound (by rw [checking]; exact List.mem_cons_self) with rfl
  have same : state.live = true → lined state level =
      stamped state.session ([] ++ state.queues level) := by
    intro live
    rw [lined, line, checking]
    apply stamped_other
    simpa [isExpired, live] using expired
  refine worker_turn_sound sound (?_ : WorkerTurn _ _ _ _ (state.queues level) .receiving [])
  refine ⟨rfl, rfl, rfl, rfl, (List.append_nil _).symm, (Function.update_eq_self _ _).symm, rfl,
    sound.committed, ?_, ?_, ?_, ?_, ?_, ?_⟩
  · intro other member
    rw [holding, List.append_nil] at member
    exact List.mem_append_left _ member
  · intro other stage
    rcases stage with printing | marking
    · cases printing
    · cases marking
  · intro other marking
    cases marking
  · intro live message listed
    rw [same live] at listed
    exact .inl listed
  · intro live
    have causal := sound.causal live
    rw [same live] at causal
    exact causal
  · intro _ _ _ _ listed
    cases listed

/-- A job of the live session is at the front, so the smaller offsets are handled. -/
theorem choose_line_sound (sound : LineSound streams only state)
    (checking : state.workers level = .checking job) (lives : isExpired state job = false) :
    LineSound streams only (setWorker state level (.printing job)) := by
  rcases worker_level sound (by rw [checking]; exact List.mem_cons_self) with rfl
  have alive : state.live = true ∧ job.session = state.session := by
    simpa [isExpired] using lives
  have same : lined state level = stamped state.session ([job] ++ state.queues level) := by
    rw [lined, line, checking]
    rfl
  refine worker_turn_sound sound (?_ : WorkerTurn _ _ _ _ (state.queues level) (.printing job) [])
  refine ⟨rfl, rfl, rfl, rfl, (List.append_nil _).symm, (Function.update_eq_self _ _).symm, rfl,
    sound.committed, ?_, ?_, ?_, ?_, ?_, ?_⟩
  · intro other member
    rw [held, checking]
    exact member
  · intro other stage offset smaller
    have equal : job = other := by
      rcases stage with printing | marking
      · cases printing
        rfl
      · cases marking
    rw [← equal] at smaller ⊢
    have causal := sound.causal alive.1
    rw [same, List.singleton_append, stamped_own alive.2] at causal
    have free : ¬ needs streams state (job.partition, job.offset) (job.partition, offset) :=
      causal_head causal
    by_contra unhandled
    exact free ⟨rfl, smaller, unhandled⟩
  · intro other marking
    cases marking
  · intro _ message listed
    rw [same] at listed
    exact .inl listed
  · intro live
    have causal := sound.causal live
    rw [same] at causal
    exact causal
  · intro _ _ _ _ listed
    cases listed

theorem mem_lines_of {printer named : Level} {partition : Partition} {offset : Nat}
    {event : LogEvent} (listed : .message named partition offset event ∈ linesOf printer job) :
    named = printer ∧ partition = job.partition ∧ offset = job.offset ∧ event = job.event := by
  cases printer <;> simpa [linesOf] using listed

theorem needs_fewer (grows : ∀ partition offset, Handled streams state partition offset →
    Handled streams after partition offset) (next other : Partition × Nat)
    (needed : needs streams after next other) : needs streams state next other :=
  ⟨needed.1, needed.2.1, fun handled => needed.2.2 (grows _ _ handled)⟩

theorem print_line_sound (sound : LineSound streams only state)
    (printing : state.workers level = .printing job) :
    LineSound streams only { setWorker state level (.marking job) with
      printed := state.printed ++ linesOf level job } := by
  rcases worker_level sound (by rw [printing]; exact List.mem_cons_self) with rfl
  have named : Names streams level job.partition job.offset job.event := by
    refine (sound.levels level job ?_).2.2
    rw [held, printing]
    exact List.mem_append_right _ List.mem_cons_self
  generalize stepped : { setWorker state level (.marking job) with
    printed := state.printed ++ linesOf level job } = after
  have printed : after.printed = state.printed ++ linesOf level job := by
    rw [← stepped]
  have skipped : after.skipped = state.skipped := by
    rw [← stepped]
    rfl
  have grows : ∀ partition offset, Handled streams state partition offset →
      Handled streams after partition offset := by
    intro partition offset handled
    refine handled_grows ?_ ?_ handled
    · rw [printed]
      exact List.subset_append_left _ _
    · rw [skipped]
      exact List.Subset.refl _
  have handled : Handled streams after job.partition job.offset := by
    rcases named with ⟨value, read, known⟩
    refine ⟨value, read, ?_⟩
    rw [known, printed]
    exact List.mem_append_right _ (printed_line level job)
  have same : lined state level = stamped state.session ([job] ++ state.queues level) := by
    rw [lined, line, printing]
    rfl
  refine worker_turn_sound sound
    (?_ : WorkerTurn _ _ _ _ (state.queues level) (.marking job) (linesOf level job))
  refine ⟨?_, ?_, ?_, skipped, printed, ?_, ?_, ?_, ?_, ?_, ?_, ?_, ?_, ?_⟩
  · rw [← stepped]
    rfl
  · rw [← stepped]
    rfl
  · rw [← stepped]
    rfl
  · rw [← stepped]
    exact (Function.update_eq_self _ _).symm
  · rw [← stepped]
    rfl
  · intro partition offset below
    rw [← stepped] at below
    exact grows _ _ (sound.committed partition offset below)
  · intro other member
    rw [held, printing]
    exact member
  · intro other stage offset smaller
    rcases stage with nowhere | marking
    · cases nowhere
    · cases marking
      exact grows _ _ (sound.chosen job (.inl printing) offset smaller)
  · intro other marking
    cases marking
    exact handled
  · intro _ message listed
    rw [same, List.singleton_append] at listed
    by_cases own : job.session = state.session
    · rw [stamped_own own] at listed
      rcases List.mem_cons.mp listed with rfl | later
      · exact .inr handled
      · exact .inl later
    · rw [stamped_other own] at listed
      exact .inl listed
  · intro live
    have causal := sound.causal live
    rw [same, List.singleton_append] at causal
    by_cases own : job.session = state.session
    · rw [stamped_own own] at causal
      -- What waited for the message has it now.
      exact causal_tail causal (needs_fewer grows) fun next needed => needed.2.2 handled
    · rw [stamped_other own] at causal
      exact causal_weaken causal (needs_fewer grows)
  · intro named partition offset event listed
    rcases mem_lines_of listed with ⟨rfl, rfl, rfl, rfl⟩
    exact ⟨rfl, ‹_›⟩

variable [DecidableEq Partition] {partition : Partition}

theorem mark_line_sound (sound : LineSound streams only state)
    (marking : state.workers level = .marking job) :
    LineSound streams only { setWorker state level .receiving with
      committed := markMessage state.committed job.partition job.offset } := by
  rcases worker_level sound (by rw [marking]; exact List.mem_cons_self) with rfl
  have same : lined state level = stamped state.session ([] ++ state.queues level) := by
    rw [lined, line, marking]
    rfl
  refine worker_turn_sound sound (?_ : WorkerTurn _ _ _ _ (state.queues level) .receiving [])
  refine ⟨rfl, rfl, rfl, rfl, (List.append_nil _).symm, (Function.update_eq_self _ _).symm, rfl,
    ?_, ?_, ?_, ?_, ?_, ?_, ?_⟩
  · exact mark_committed sound.committed (sound.chosen job (.inr marking))
      (sound.marking job marking)
  · intro other member
    rw [holding, List.append_nil] at member
    exact List.mem_append_left _ member
  · intro other stage
    rcases stage with printing | again
    · cases printing
    · cases again
  · intro other again
    cases again
  · intro _ message listed
    rw [same] at listed
    exact .inl listed
  · intro live
    have causal := sound.causal live
    rw [same] at causal
    exact causal
  · intro _ _ _ _ listed
    cases listed

/-- A message of the level is never skipped. -/
theorem receive_line_sound {next : Nat} {value : Bytes} (oneLevel : OneLevel streams only)
    (sound : LineSound streams only state) (selecting : state.claims partition = .selecting next)
    (read : (streams partition)[next]? = some value) :
    LineSound streams only
      (setClaim state partition (received state.session partition next value)) := by
  rcases oneLevel partition value (List.mem_of_getElem? read) with ⟨event, known⟩
  have handing : received state.session partition next value =
      .handing only ⟨event, partition, next, state.session⟩ := by
    rw [received, known]
  rw [handing]
  refine claims_sound sound (fun live => live) ?_ ?_ ?_
  · intro other offset skipping
    by_cases same : other = partition
    · rw [same, Function.update_self] at skipping
      cases skipping
    · rw [Function.update_of_ne same] at skipping
      exact sound.skips other offset skipping
  · intro other level job hands
    by_cases same : other = partition
    · rw [same, Function.update_self] at hands
      cases hands
      exact ⟨rfl, same.symm, rfl, value, same ▸ read, known⟩
    · rw [Function.update_of_ne same] at hands
      exact sound.hands other level job hands
  · intro _ other offset passed
    by_cases same : other = partition
    · rw [same, Function.update_self] at passed
      rw [same, selecting]
      exact passed
    · rw [Function.update_of_ne same] at passed
      exact passed

/-- The job joins the end of the line, behind what the claim has read before. -/
theorem hand_line_sound (sound : LineSound streams only state)
    (handing : state.claims partition = .handing level job) :
    LineSound streams only { setClaim state partition (.selecting (job.offset + 1)) with
      queues := Function.update state.queues level (state.queues level ++ [job]) } := by
  rcases sound.hands partition level job handing with ⟨rfl, own, session, named⟩
  have lengthened : lined { setClaim state partition (.selecting (job.offset + 1)) with
      queues := Function.update state.queues level (state.queues level ++ [job]) } level =
        lined state level ++ [(job.partition, job.offset)] := by
    simp [lined, line, stamped, setClaim, session]
  have earlier : state.live = true → ∀ offset < job.offset,
      Handled streams state partition offset ∨ (partition, offset) ∈ lined state level := by
    intro live offset smaller
    apply sound.read live
    rw [handing]
    exact smaller
  refine ⟨sound.committed, ?_, sound.chosen, sound.marking, ?_, ?_, ?_, ?_, sound.lines,
    sound.unskipped⟩
  · intro other member listed
    rcases (hand_jobs holding level other job member).mp listed with old | ⟨rfl, rfl⟩
    · exact sound.levels other member old
    · exact ⟨rfl, session.le, own ▸ named⟩
  · intro other offset skipping
    by_cases same : other = partition
    · rw [same] at skipping
      cases (set_claim_self state partition _).symm.trans skipping
    · exact sound.skips other offset ((set_claim_other state _ same).symm.trans skipping)
  · intro other printer member hands
    by_cases same : other = partition
    · rw [same] at hands
      cases (set_claim_self state partition _).symm.trans hands
    · exact sound.hands other printer member ((set_claim_other state _ same).symm.trans hands)
  · intro live other offset passed
    rw [lengthened, List.mem_append, List.mem_singleton]
    by_cases same : other = partition
    · rw [same] at passed ⊢
      have reached : Passed (.selecting (job.offset + 1)) offset :=
        set_claim_self state partition _ ▸ passed
      rcases Nat.lt_succ_iff_lt_or_eq.mp reached with less | equal
      · exact (earlier live offset less).imp_right .inl
      · exact .inr (.inr (by rw [equal, own]))
    · have before : Passed (state.claims other) offset :=
        set_claim_other state _ same ▸ passed
      exact (sound.read live other offset before).imp_right .inl
  · intro live
    rw [lengthened, causal_snoc]
    refine ⟨sound.causal live, ?_⟩
    rintro ⟨place, offset⟩ ⟨here, smaller, unhandled⟩
    have equal : place = partition := here.trans own
    rcases earlier live offset smaller with handled | listed
    · exact absurd (equal ▸ handled) unhandled
    · exact equal ▸ listed

omit [DecidableEq Partition] in
/-- All jobs are from earlier sessions, so the line of the new one is empty. -/
theorem start_line_sound (sound : LineSound streams only state) (granted : Partition → Bool) :
    LineSound streams only { state with
      session := state.session + 1
      live := true
      claims := fun partition =>
        if granted partition then .selecting (state.committed partition) else .ended } := by
  have empty : stamped (state.session + 1) (line state only) = [] := by
    simp only [stamped, List.map_eq_nil_iff, List.filter_eq_nil_iff, beq_iff_eq]
    intro job member same
    have old : job ∈ held state only := by
      rcases List.mem_append.mp member with hand | queued
      · apply List.mem_append_right
        cases stage : state.workers only <;> rw [stage] at hand <;> simp_all [unprinted, holding]
      · exact List.mem_append_left _ queued
    have bound := (sound.levels only job old).2.1
    omega
  refine ⟨sound.committed, ?_, sound.chosen, sound.marking, ?_, ?_, ?_, ?_, sound.lines,
    sound.unskipped⟩
  · intro level job member
    rcases sound.levels level job member with ⟨own, session, named⟩
    exact ⟨own, session.trans (Nat.le_succ _), named⟩
  · intro partition offset skipping
    dsimp only at skipping
    split_ifs at skipping
  · intro partition level job handing
    dsimp only at handing
    split_ifs at handing
  · intro _ partition offset passed
    dsimp only at passed
    split_ifs at passed
    · exact .inl (sound.committed partition offset passed)
    · exact passed.elim
  · intro _
    change Causal _ (stamped (state.session + 1) (line state only))
    rw [empty]
    exact causal_nil

omit [DecidableEq Partition] in
theorem crash_line_sound (sound : LineSound streams only state) :
    LineSound streams only { state with
      live := false
      claims := fun _ => .ended
      queues := fun _ => []
      workers := fun _ => .receiving } := by
  refine ⟨sound.committed, ?_, ?_, ?_, ?_, ?_, ?_, ?_, sound.lines, sound.unskipped⟩
  · intro level job member
    cases member
  · intro job stage
    rcases stage with printing | marking
    · cases printing
    · cases marking
  · intro job marking
    cases marking
  · intro partition offset skipping
    cases skipping
  · intro partition level job handing
    cases handing
  · intro live
    cases live
  · intro live
    cases live

theorem close_line_sound (sound : LineSound streams only state) :
    LineSound streams only (setClaim state partition .ended) := by
  refine claims_sound sound (fun live => live) ?_ ?_ ?_
  · intro other offset skipping
    by_cases same : other = partition
    · rw [same, Function.update_self] at skipping
      cases skipping
    · rw [Function.update_of_ne same] at skipping
      exact sound.skips other offset skipping
  · intro other level job handing
    by_cases same : other = partition
    · rw [same, Function.update_self] at handing
      cases handing
    · rw [Function.update_of_ne same] at handing
      exact sound.hands other level job handing
  · intro _ other offset passed
    by_cases same : other = partition
    · rw [same, Function.update_self] at passed
      exact passed.elim
    · rw [Function.update_of_ne same] at passed
      exact passed

end Steps

section Runs

variable {Partition : Type} [DecidableEq Partition] [Fintype Partition] {handler : Handler}
  {streams : Partition → List Bytes} {only : Level}

theorem step_line_sound {before after : State Partition} {action : Action Partition}
    (oneLevel : OneLevel streams only) (sound : LineSound streams only before)
    (stepped : step handler streams before action = some after) :
    LineSound streams only after := by
  cases step_cases stepped with
  | receive partition next value selecting read =>
      exact receive_line_sound oneLevel sound selecting read
  | skip partition offset skipping => exact absurd skipping (sound.skips partition offset)
  | hand partition level job capacity handing => exact hand_line_sound sound handing
  | take level job rest runs receiving queued => exact take_line_sound sound receiving queued
  | check level job checking =>
      split_ifs with expired
      · exact drop_line_sound sound checking expired
      · exact choose_line_sound sound checking (Bool.eq_false_iff.mpr expired)
  | print level job printing => exact print_line_sound sound printing
  | mark level job marking => exact mark_line_sound sound marking
  | expire live =>
      refine claims_sound sound ?_ sound.skips sound.hands ?_
      · intro dead
        cases dead
      · intro dead
        cases dead
  | close partition next dead selecting => exact close_line_sound sound
  | start granted dead ended => exact start_line_sound sound granted
  | crash => exact crash_line_sound sound

theorem reachable_line_sound {state : State Partition} (oneLevel : OneLevel streams only)
    (reached : Reachable (step handler streams) anyStep initial state) :
    LineSound streams only state := by
  apply reachable_invariant (LineSound streams only) (initial_line_sound streams only) _ reached
  intro before action after sound _ stepped
  exact step_line_sound oneLevel sound stepped

/-- The texts of an event are valid UTF-8, its time has a text of its own, and its level is
that of a worker. -/
structure Loggable (only : Level) (event : LogEvent) : Prop where
  level : isValidUtf8 event.level = true
  message : isValidUtf8 event.message = true
  service : isValidUtf8 event.service = true
  time : event.time.isExact = true
  known : classify event = .known only event

theorem verdict_event_text {event : LogEvent} (loggable : Loggable only event) :
    verdict (eventText event) = .known only event := by
  rw [verdict, decode_event_text loggable.level loggable.message loggable.service loggable.time]
  exact loggable.known

variable {sends : List (LogEvent × Option Partition)}

omit [Fintype Partition] in
/-- No event is refused by its encoder. -/
theorem produced_texts (loggable : ∀ send ∈ sends, Loggable only send.1) (partition : Partition) :
    produced sends partition = (sentTo sends partition).map eventText := by
  rw [produced, ← List.filterMap_eq_map]
  apply List.filterMap_congr
  intro event sent
  exact if_pos (exact_encodes (loggable _ (mem_sent_to sent)).time)

omit [Fintype Partition] in
theorem produced_one_level (loggable : ∀ send ∈ sends, Loggable only send.1) :
    OneLevel (produced sends) only := by
  intro partition value listed
  rw [produced_texts loggable] at listed
  rcases List.mem_map.mp listed with ⟨event, sent, rfl⟩
  exact ⟨event, verdict_event_text (loggable _ (mem_sent_to sent))⟩

omit [Fintype Partition] in
/-- What a line names was sent to that place. -/
theorem names_sent {partition : Partition} {offset : Nat} {event : LogEvent}
    (loggable : ∀ send ∈ sends, Loggable only send.1)
    (named : Names (produced sends) only partition offset event) :
    (sentTo sends partition)[offset]? = some event := by
  rcases named with ⟨value, read, known⟩
  rw [produced_texts loggable, List.getElem?_map, Option.map_eq_some_iff] at read
  rcases read with ⟨sent, place, rfl⟩
  rw [verdict_event_text (loggable _ (mem_sent_to (List.mem_of_getElem? place)))] at known
  cases known
  exact place

/-- Events of one level reach the lines of the consumer: those below a committed position
are all printed, each line is an event as it was sent to that place, and none is skipped,
whatever sessions and processes end on the way. -/
theorem sent_events_printed (handler : Handler) (only : Level)
    (sends : List (LogEvent × Option Partition))
    (loggable : ∀ send ∈ sends, Loggable only send.1) (state : State Partition)
    (reached : Reachable (step handler (produced sends)) anyStep initial state) :
    (∀ partition, ∀ offset < state.committed partition,
      ∃ event, (sentTo sends partition)[offset]? = some event ∧
        .message only partition offset event ∈ state.printed) ∧
      (∀ level partition offset event, .message level partition offset event ∈ state.printed →
        level = only ∧ (sentTo sends partition)[offset]? = some event) ∧
      state.skipped = [] := by
  have sound := reachable_line_sound (produced_one_level loggable) reached
  refine ⟨?_, ?_, sound.unskipped⟩
  · intro partition offset below
    rcases sound.committed partition offset below with ⟨value, read, printed⟩
    rcases produced_one_level loggable partition value (List.mem_of_getElem? read) with
      ⟨event, known⟩
    rw [known] at printed
    exact ⟨event, names_sent loggable ⟨value, read, known⟩, printed⟩
  · intro level partition offset event listed
    rcases sound.lines level partition offset event listed with ⟨own, named⟩
    exact ⟨own, names_sent loggable named⟩

end Runs

section Samples

theorem published_loggable (now : Stamp) : Loggable .info (publishedEvent now) := by
  have texts : isValidUtf8 (ascii "information") = true ∧ isValidUtf8 (ascii "some-info") = true ∧
      isValidUtf8 (ascii "producer") = true := by
    decide +kernel
  exact ⟨texts.1, texts.2.1, texts.2.2, now.spelled, if_pos rfl⟩

/-- The second of three sends fails. -/
def threeSends : List (LogEvent × Option Unit) :=
  [(publishedEvent zeroStamp, some ()), (publishedEvent zeroStamp, none),
    (publishedEvent zeroStamp, some ())]

theorem three_loggable : ∀ send ∈ threeSends, Loggable .info send.1 := by
  intro send listed
  have same : send.1 = publishedEvent zeroStamp := by
    simp only [threeSends, List.mem_cons, List.not_mem_nil, or_false] at listed
    rcases listed with rfl | rfl | rfl
    · rfl
    · rfl
    · rfl
  rw [same]
  exact published_loggable zeroStamp

/-- The process dies with the second event in its channel, and prints it afterwards. -/
theorem three_sends_printed :
    ∃ state : State Unit,
      Reachable (step newConsumerGroupHandler (produced threeSends)) anyStep initial state ∧
        state.committed () = 2 ∧ state.session = 2 ∧ ∀ offset < 2,
          ∃ event, (sentTo threeSends ())[offset]? = some event ∧
            .message .info () offset event ∈ state.printed := by
  have ran : (runActions (step newConsumerGroupHandler (produced threeSends)) anyStep initial
      (passOn 2 ++ work .info ++ [.crash] ++ passOn 1 ++ work .info)).any
        (fun state => decide (state.committed () = 2 ∧ state.session = 2)) = true := by
    decide +kernel
  rcases (Option.any_eq_true _ _).mp ran with ⟨state, reached, checked⟩
  rcases of_decide_eq_true checked with ⟨position, session⟩
  have reachable := reachable_run_actions reachable_start reached
  refine ⟨state, reachable, position, session, ?_⟩
  intro offset less
  exact (sent_events_printed newConsumerGroupHandler .info threeSends three_loggable state
    reachable).1 () offset (position.symm ▸ less)

end Samples

end ChatScale.LogPipeline
