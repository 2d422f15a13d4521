import ChatScale.LogConsumerModel

/-!
# The committed positions of the log consumer

A message below the committed position of its partition should have been printed
by the worker of its level, or skipped for what it is. The three workers mark
independently and the position is a maximum, so this fails as soon as a worker is
ahead of another. It holds in every run in which a message is marked only while
its session lives and no job of the partition with a smaller offset is still
unprinted.
-/

namespace ChatScale.LogConsumerOffsets

open ChatScale.ByteText ChatScale.LogConsumerModel ChatScale.TransitionSystem

set_option autoImplicit false

variable {Partition : Type}

/-- The message at an offset was printed by the worker of its level or, if it has
none, skipped. -/
def Handled (streams : Partition → List Bytes) (state : State Partition) (partition : Partition)
    (offset : Nat) : Prop :=
  ∃ value, (streams partition)[offset]? = some value ∧
    match verdict value with
    | .known level event => .message level partition offset event ∈ state.printed
    | .unknown _ => (partition, offset) ∈ state.skipped
    | .undecodable => (partition, offset) ∈ state.skipped

section Condition

def levels : List Level := [.info, .warn, .error]

theorem mem_levels (level : Level) : level ∈ levels := by
  cases level <;> decide

/-- The job in the hands of a worker that it has not printed. -/
def unprinted : WorkerStage Partition → List (Job Partition)
  | .receiving => []
  | .checking job => [job]
  | .printing job => [job]
  | .marking _ => []

/-- The jobs of a level between the claims and the print. -/
def waiting (state : State Partition) (level : Level) : List (Job Partition) :=
  state.queues level ++ unprinted (state.workers level)

variable [DecidableEq Partition]

/-- A job of the session with a smaller offset of the partition is not printed. -/
def overtakes (state : State Partition) (partition : Partition) (offset : Nat) : Bool :=
  levels.any fun level => (waiting state level).any fun job =>
    job.partition == partition && job.session == state.session && decide (job.offset < offset)

/-- A message is marked in its own session and after the smaller offsets. -/
def InOrder (state : State Partition) : Action Partition → Prop
  | .skip partition =>
      match state.claims partition with
      | .skipping offset => state.live = true ∧ overtakes state partition offset = false
      | _ => True
  | .mark level =>
      match state.workers level with
      | .marking job => isExpired state job = false ∧
          overtakes state job.partition job.offset = false
      | _ => True
  | _ => True

instance (state : State Partition) (action : Action Partition) :
    Decidable (InOrder state action) := by
  unfold InOrder
  cases action with
  | skip partition => dsimp only; split <;> infer_instance
  | mark level => dsimp only; split <;> infer_instance
  | _ => exact isTrue trivial

end Condition

section Invariant

/-- The job of a level comes from the message it names. -/
structure JobSound (streams : Partition → List Bytes) (state : State Partition) (level : Level)
    (job : Job Partition) : Prop where
  message : ∃ value, (streams job.partition)[job.offset]? = some value ∧
    verdict value = .known level job.event
  session : job.session ≤ state.session

/-- The claim has read the offset. -/
def Passed : ClaimStage Partition → Nat → Prop
  | .ended, _ => False
  | .selecting next, offset => offset < next
  | .skipping next, offset => offset < next
  | .handing _ job, offset => offset < job.offset

/-- The job in the hands of a worker. -/
def holding : WorkerStage Partition → List (Job Partition)
  | .receiving => []
  | .checking job => [job]
  | .printing job => [job]
  | .marking job => [job]

/-- The jobs of a level between the claims and the mark. -/
def held (state : State Partition) (level : Level) : List (Job Partition) :=
  state.queues level ++ holding (state.workers level)

/-- A job of the current session waits for its print. -/
def Waits (state : State Partition) (partition : Partition) (offset : Nat) : Prop :=
  ∃ level, ∃ job ∈ waiting state level, job.partition = partition ∧ job.offset = offset ∧
    job.session = state.session

/-- What holds in every state. While a session lives, what its claims have read is
handled or waits, and what its jobs name has been read. -/
structure OffsetsSound (streams : Partition → List Bytes) (state : State Partition) : Prop where
  committed : ∀ partition offset, offset < state.committed partition →
    Handled streams state partition offset
  jobs : ∀ level, ∀ job ∈ held state level, JobSound streams state level job
  printed : ∀ level job, state.workers level = .marking job →
    Handled streams state job.partition job.offset
  skips : ∀ partition offset, state.claims partition = .skipping offset →
    ∃ value, (streams partition)[offset]? = some value ∧
      ∀ level event, verdict value ≠ .known level event
  hands : ∀ partition level job, state.claims partition = .handing level job →
    job.partition = partition ∧ job.session = state.session ∧ JobSound streams state level job
  read : state.live = true → ∀ partition offset, Passed (state.claims partition) offset →
    Handled streams state partition offset ∨ Waits state partition offset
  current : state.live = true → ∀ level, ∀ job ∈ held state level,
    job.session = state.session → Passed (state.claims job.partition) job.offset

theorem initial_offsets_sound (streams : Partition → List Bytes) :
    OffsetsSound streams initial where
  committed := fun _ _ below => absurd below (Nat.not_lt_zero _)
  jobs := fun _ _ member => absurd member List.not_mem_nil
  printed := by
    intro level job marking
    cases marking
  skips := by
    intro partition offset skipping
    cases skipping
  hands := by
    intro partition level job handing
    cases handing
  read := by
    intro live
    cases live
  current := by
    intro live
    cases live

/-- What was handled stays handled. -/
theorem handled_grows {streams : Partition → List Bytes} {before after : State Partition}
    (printed : before.printed ⊆ after.printed) (skipped : before.skipped ⊆ after.skipped)
    {partition : Partition} {offset : Nat} (handled : Handled streams before partition offset) :
    Handled streams after partition offset := by
  rcases handled with ⟨value, read, known⟩
  refine ⟨value, read, ?_⟩
  cases classified : verdict value with
  | undecodable =>
      rw [classified] at known
      exact skipped known
  | unknown event =>
      rw [classified] at known
      exact skipped known
  | known level event =>
      rw [classified] at known
      exact printed known

variable {streams : Partition → List Bytes} {before after : State Partition}

/-- A step beside the claims: jobs only leave, and one of the live session only after
its print. -/
structure Beside (streams : Partition → List Bytes) (before after : State Partition) : Prop where
  claims : after.claims = before.claims
  session : after.session = before.session
  live : after.live = before.live
  printed : before.printed ⊆ after.printed
  skipped : before.skipped ⊆ after.skipped
  committed : ∀ partition offset, offset < after.committed partition →
    Handled streams after partition offset
  held : ∀ level, ∀ job ∈ held after level, job ∈ held before level
  marking : ∀ level job, after.workers level = .marking job →
    Handled streams after job.partition job.offset
  waits : before.live = true → ∀ level, ∀ job ∈ waiting before level,
    job.session = before.session →
      job ∈ waiting after level ∨ Handled streams after job.partition job.offset

theorem beside_sound (sound : OffsetsSound streams before) (beside : Beside streams before after) :
    OffsetsSound streams after where
  committed := beside.committed
  jobs := by
    intro level job member
    have known := sound.jobs level job (beside.held level job member)
    exact ⟨known.message, beside.session ▸ known.session⟩
  printed := beside.marking
  skips := by
    rw [beside.claims]
    exact sound.skips
  hands := by
    intro partition level job handing
    rw [beside.claims] at handing
    rcases sound.hands partition level job handing with ⟨own, session, known⟩
    rw [beside.session]
    exact ⟨own, session, known.message, beside.session ▸ known.session⟩
  read := by
    intro live partition offset passed
    rw [beside.live] at live
    rw [beside.claims] at passed
    rcases sound.read live partition offset passed with handled | waits
    · exact .inl (handled_grows beside.printed beside.skipped handled)
    · rcases waits with ⟨level, job, member, rfl, rfl, session⟩
      rcases beside.waits live level job member session with still | done
      · exact .inr ⟨level, job, still, rfl, rfl, session.trans beside.session.symm⟩
      · exact .inl done
  current := by
    intro live level job member session
    rw [beside.live] at live
    rw [beside.session] at session
    rw [beside.claims]
    exact sound.current live level job (beside.held level job member) session

end Invariant

section Workers

variable {streams : Partition → List Bytes} {state after : State Partition} {level : Level}

/-- The jobs of a level after a worker has moved, and its queue with it. -/
theorem update_jobs (jobs : WorkerStage Partition → List (Job Partition)) (moved : Level)
    (rest : List (Job Partition)) (stage : WorkerStage Partition) (other : Level)
    (queues : after.queues = Function.update state.queues moved rest)
    (workers : after.workers = Function.update state.workers moved stage) :
    after.queues other ++ jobs (after.workers other) =
      if other = moved then rest ++ jobs stage
      else state.queues other ++ jobs (state.workers other) := by
  rw [queues, workers]
  by_cases same : other = moved
  · rw [same, Function.update_self, Function.update_self, if_pos rfl]
  · rw [Function.update_of_ne same, Function.update_of_ne same, if_neg same]

/-- A move of one worker. -/
structure WorkerMove (streams : Partition → List Bytes) (state after : State Partition)
    (level : Level) (rest : List (Job Partition)) (stage : WorkerStage Partition) : Prop where
  claims : after.claims = state.claims
  session : after.session = state.session
  live : after.live = state.live
  printed : state.printed ⊆ after.printed
  skipped : after.skipped = state.skipped
  queues : after.queues = Function.update state.queues level rest
  workers : after.workers = Function.update state.workers level stage
  committed : ∀ partition offset, offset < after.committed partition →
    Handled streams after partition offset
  held : ∀ job ∈ rest ++ holding stage, job ∈ held state level
  marking : ∀ job, stage = .marking job → Handled streams after job.partition job.offset
  waits : state.live = true → ∀ job ∈ waiting state level, job.session = state.session →
    job ∈ rest ++ unprinted stage ∨ Handled streams after job.partition job.offset

theorem worker_move_beside {rest : List (Job Partition)} {stage : WorkerStage Partition}
    (sound : OffsetsSound streams state) (move : WorkerMove streams state after level rest stage) :
    Beside streams state after where
  claims := move.claims
  session := move.session
  live := move.live
  printed := move.printed
  skipped := move.skipped ▸ List.Subset.refl _
  committed := move.committed
  held := by
    intro other job member
    rw [held, update_jobs holding level rest stage other move.queues move.workers] at member
    split_ifs at member with same
    · exact same ▸ move.held job member
    · exact member
  marking := by
    intro other job marking
    rw [move.workers] at marking
    by_cases same : other = level
    · rw [same, Function.update_self] at marking
      exact move.marking job marking
    · rw [Function.update_of_ne same] at marking
      exact handled_grows move.printed (move.skipped ▸ List.Subset.refl _)
        (sound.printed other job marking)
  waits := by
    intro live other job member session
    rw [waiting, update_jobs unprinted level rest stage other move.queues move.workers]
    split_ifs with same
    · exact move.waits live job (same ▸ member) session
    · exact .inl member

theorem take_sound {job : Job Partition} {rest : List (Job Partition)}
    (sound : OffsetsSound streams state) (receiving : state.workers level = .receiving)
    (queued : state.queues level = job :: rest) :
    OffsetsSound streams { setWorker state level (.checking job) with
      queues := Function.update state.queues level rest } := by
  have perm : ∀ other, other ∈ rest ++ [job] ↔ other ∈ state.queues level := by
    intro other
    rw [queued, List.mem_append, List.mem_singleton, List.mem_cons, or_comm]
  apply beside_sound sound
  refine worker_move_beside sound (?_ : WorkerMove _ _ _ level rest (.checking job))
  refine ⟨rfl, rfl, rfl, List.Subset.refl _, rfl, rfl, rfl, sound.committed, ?_, ?_, ?_⟩
  · intro other member
    exact List.mem_append_left _ ((perm other).mp member)
  · intro other marking
    cases marking
  · intro _ other member _
    rw [waiting, receiving, unprinted, List.append_nil] at member
    exact .inl ((perm other).mpr member)

/-- A job that is dropped is not one of the live session. -/
theorem check_sound {job : Job Partition} (sound : OffsetsSound streams state)
    (checking : state.workers level = .checking job) :
    OffsetsSound streams (setWorker state level
      (if isExpired state job then .receiving else .printing job)) := by
  have same : state.queues = Function.update state.queues level (state.queues level) :=
    (Function.update_eq_self level state.queues).symm
  apply beside_sound sound
  cases expired : isExpired state job with
  | true =>
      refine worker_move_beside sound (?_ : WorkerMove _ _ _ level (state.queues level) .receiving)
      refine ⟨rfl, rfl, rfl, List.Subset.refl _, rfl, same, rfl, sound.committed, ?_, ?_, ?_⟩
      · intro other member
        rw [holding, List.append_nil] at member
        exact List.mem_append_left _ member
      · intro other marking
        cases marking
      · intro live other member session
        rw [waiting, checking] at member
        rcases List.mem_append.mp member with queued | own
        · exact .inl (List.mem_append_left _ queued)
        · rw [List.mem_singleton.mp own] at session
          rw [isExpired, live, session, beq_self_eq_true] at expired
          cases expired
  | false =>
      refine worker_move_beside sound
        (?_ : WorkerMove _ _ _ level (state.queues level) (.printing job))
      refine ⟨rfl, rfl, rfl, List.Subset.refl _, rfl, same, rfl, sound.committed, ?_, ?_, ?_⟩
      · intro other member
        rw [held, checking]
        exact member
      · intro other marking
        cases marking
      · intro _ other member _
        rw [waiting, checking] at member
        exact .inl member

theorem printed_line (level : Level) (job : Job Partition) :
    .message level job.partition job.offset job.event ∈ linesOf level job := by
  cases level with
  | info => exact List.mem_cons_of_mem _ List.mem_cons_self
  | warn => exact List.mem_cons_self
  | error => exact List.mem_cons_self

theorem print_sound {job : Job Partition} (sound : OffsetsSound streams state)
    (printing : state.workers level = .printing job) :
    OffsetsSound streams { setWorker state level (.marking job) with
      printed := state.printed ++ linesOf level job } := by
  have same : state.queues = Function.update state.queues level (state.queues level) :=
    (Function.update_eq_self level state.queues).symm
  have own : job ∈ held state level := by
    rw [held, printing]
    exact List.mem_append_right _ List.mem_cons_self
  have grows : state.printed ⊆ state.printed ++ linesOf level job :=
    List.subset_append_left _ _
  have handled : Handled streams { setWorker state level (.marking job) with
      printed := state.printed ++ linesOf level job } job.partition job.offset := by
    rcases (sound.jobs level job own).message with ⟨value, read, known⟩
    refine ⟨value, read, ?_⟩
    rw [known]
    exact List.mem_append_right _ (printed_line level job)
  apply beside_sound sound
  refine worker_move_beside sound
    (?_ : WorkerMove _ _ _ level (state.queues level) (.marking job))
  refine ⟨rfl, rfl, rfl, grows, rfl, same, rfl, ?_, ?_, ?_, ?_⟩
  · intro partition offset below
    refine handled_grows ?_ ?_ (sound.committed partition offset below)
    · exact grows
    · exact List.Subset.refl _
  · intro other member
    rw [held, printing]
    exact member
  · intro other marking
    cases marking
    exact handled
  · intro _ other member _
    rw [waiting, printing] at member
    rcases List.mem_append.mp member with queued | printed
    · exact .inl (List.mem_append_left _ queued)
    · rw [List.mem_singleton.mp printed]
      exact .inr handled

theorem passed_below {stage : ClaimStage Partition} {smaller larger : Nat} (less : smaller < larger)
    (passed : Passed stage larger) : Passed stage smaller := by
  cases stage with
  | ended => exact passed
  | selecting next => exact less.trans passed
  | skipping next => exact less.trans passed
  | handing other job => exact less.trans passed

variable [DecidableEq Partition]

/-- Nothing with a smaller offset waits. -/
theorem not_overtaken {partition : Partition} {offset smaller : Nat}
    (inOrder : overtakes state partition offset = false) (less : smaller < offset) :
    ¬ Waits state partition smaller := by
  intro waits
  rcases waits with ⟨level, job, member, own, same, session⟩
  have none := List.any_eq_false.mp inOrder level (mem_levels level)
  apply none
  apply List.any_eq_true.mpr
  refine ⟨job, member, ?_⟩
  simp [own, session, same, less]

/-- The position that a mark leads to, if the smaller offsets are handled. -/
theorem mark_committed {partition : Partition} {offset : Nat}
    (before : ∀ other below, below < state.committed other → Handled streams after other below)
    (smaller : ∀ below, below < offset → Handled streams after partition below)
    (handled : Handled streams after partition offset) (other : Partition) (below : Nat)
    (under : below < markMessage state.committed partition offset other) :
    Handled streams after other below := by
  unfold markMessage at under
  by_cases same : other = partition
  · rw [same, Function.update_self, lt_max_iff] at under
    rw [same]
    rcases under with earlier | now
    · exact before partition below earlier
    · rcases Nat.lt_succ_iff_lt_or_eq.mp now with less | equal
      · exact smaller below less
      · exact equal ▸ handled
  · rw [Function.update_of_ne same] at under
    exact before other below under

theorem mark_sound {job : Job Partition} (sound : OffsetsSound streams state)
    (marking : state.workers level = .marking job) (lives : isExpired state job = false)
    (inOrder : overtakes state job.partition job.offset = false) :
    OffsetsSound streams { setWorker state level .receiving with
      committed := markMessage state.committed job.partition job.offset } := by
  have same : state.queues = Function.update state.queues level (state.queues level) :=
    (Function.update_eq_self level state.queues).symm
  have own : job ∈ held state level := by
    rw [held, marking]
    exact List.mem_append_right _ List.mem_cons_self
  have current : state.live = true ∧ job.session = state.session := by
    simpa [isExpired] using lives
  have smaller : ∀ below, below < job.offset → Handled streams state job.partition below := by
    intro below less
    have passed := passed_below less (sound.current current.1 level job own current.2)
    rcases sound.read current.1 job.partition below passed with handled | waits
    · exact handled
    · exact absurd waits (not_overtaken inOrder less)
  apply beside_sound sound
  refine worker_move_beside sound (?_ : WorkerMove _ _ _ level (state.queues level) .receiving)
  refine ⟨rfl, rfl, rfl, List.Subset.refl _, rfl, same, rfl, ?_, ?_, ?_, ?_⟩
  · exact mark_committed sound.committed smaller (sound.printed level job marking)
  · intro other member
    rw [holding, List.append_nil] at member
    exact List.mem_append_left _ member
  · intro other marking
    cases marking
  · intro _ other member _
    rw [waiting, marking] at member
    exact .inl member

end Workers

section Claims

variable {streams : Partition → List Bytes} {state after : State Partition}
  {partition : Partition}

/-- A session that starts reads from the committed positions. -/
theorem start_sound (sound : OffsetsSound streams state) (granted : Partition → Bool) :
    OffsetsSound streams { state with
      session := state.session + 1
      live := true
      claims := fun partition =>
        if granted partition then .selecting (state.committed partition) else .ended } where
  committed := sound.committed
  jobs := by
    intro level job member
    have known := sound.jobs level job member
    exact ⟨known.message, known.session.trans (Nat.le_succ _)⟩
  printed := sound.printed
  skips := by
    intro partition offset skipping
    dsimp only at skipping
    split_ifs at skipping
  hands := by
    intro partition level job handing
    dsimp only at handing
    split_ifs at handing
  read := by
    intro _ partition offset passed
    dsimp only at passed
    split_ifs at passed
    · exact .inl (sound.committed partition offset passed)
    · exact passed.elim
  current := by
    intro _ level job member session
    have old := (sound.jobs level job member).session
    dsimp only at session
    omega

/-- Without a live session only what is committed and what the jobs are counts. -/
theorem ended_sound (sound : OffsetsSound streams state) (dead : after.live = false)
    (session : after.session = state.session) (committed : after.committed = state.committed)
    (printed : after.printed = state.printed) (skipped : after.skipped = state.skipped)
    (jobs : ∀ level, ∀ job ∈ held after level, job ∈ held state level)
    (marking : ∀ level job, after.workers level = .marking job →
      state.workers level = .marking job)
    (claims : ∀ partition, after.claims partition = .ended ∨
      after.claims partition = state.claims partition) :
    OffsetsSound streams after := by
  have grows {partition : Partition} {offset : Nat}
      (handled : Handled streams state partition offset) : Handled streams after partition offset :=
    handled_grows (printed ▸ List.Subset.refl _) (skipped ▸ List.Subset.refl _) handled
  refine ⟨?_, ?_, ?_, ?_, ?_, ?_, ?_⟩
  · intro partition offset below
    rw [committed] at below
    exact grows (sound.committed partition offset below)
  · intro level job member
    have known := sound.jobs level job (jobs level job member)
    exact ⟨known.message, session ▸ known.session⟩
  · intro level job marks
    exact grows (sound.printed level job (marking level job marks))
  · intro partition offset skipping
    rcases claims partition with ended | same
    · cases ended.symm.trans skipping
    · exact sound.skips partition offset (same.symm.trans skipping)
  · intro partition level job handing
    rcases claims partition with ended | same
    · cases ended.symm.trans handing
    · rcases sound.hands partition level job (same.symm.trans handing) with ⟨own, now, known⟩
      exact ⟨own, now.trans session.symm, known.message, session ▸ known.session⟩
  · intro live
    cases dead.symm.trans live
  · intro live
    cases dead.symm.trans live

theorem received_passed (session : Nat) (partition : Partition) (next : Nat) (value : Bytes)
    (offset : Nat) :
    Passed (received session partition next value) offset ↔ offset < next := by
  unfold received
  cases verdict value with
  | undecodable => exact Iff.rfl
  | unknown event => exact Iff.rfl
  | known level event => exact Iff.rfl

/-- A message without a level is handled when it is skipped. -/
theorem skip_handled {offset : Nat} (sound : OffsetsSound streams state)
    (skipping : state.claims partition = .skipping offset)
    (listed : (partition, offset) ∈ after.skipped) : Handled streams after partition offset := by
  rcases sound.skips partition offset skipping with ⟨value, read, unknown⟩
  refine ⟨value, read, ?_⟩
  cases classified : verdict value with
  | undecodable => exact listed
  | unknown event => exact listed
  | known level event => exact absurd classified (unknown level event)

/-- The queues after a job was handed over. -/
theorem hand_jobs (jobs : WorkerStage Partition → List (Job Partition)) (level other : Level)
    (job member : Job Partition) :
    member ∈ Function.update state.queues level (state.queues level ++ [job]) other ++
        jobs (state.workers other) ↔
      member ∈ state.queues other ++ jobs (state.workers other) ∨ other = level ∧ member = job := by
  by_cases same : other = level
  · rw [same, Function.update_self]
    simp only [List.mem_append, List.mem_singleton, true_and]
    tauto
  · rw [Function.update_of_ne same]
    simp only [same, false_and, or_false]

variable [DecidableEq Partition]

/-- A move of one claim. Jobs only come, and name what the claim has read. -/
structure ClaimMove (streams : Partition → List Bytes) (state after : State Partition)
    (partition : Partition) (stage : ClaimStage Partition) : Prop where
  session : after.session = state.session
  live : after.live = state.live
  workers : after.workers = state.workers
  printed : after.printed = state.printed
  skipped : state.skipped ⊆ after.skipped
  claims : after.claims = Function.update state.claims partition stage
  committed : ∀ other offset, offset < after.committed other →
    Handled streams after other offset
  jobs : ∀ level, ∀ job ∈ held after level, job ∈ held state level ∨
    job.partition = partition ∧ JobSound streams state level job ∧ Passed stage job.offset
  waiting : ∀ level, waiting state level ⊆ waiting after level
  skips : ∀ offset, stage = .skipping offset →
    ∃ value, (streams partition)[offset]? = some value ∧
      ∀ level event, verdict value ≠ .known level event
  hands : ∀ level job, stage = .handing level job → job.partition = partition ∧
    job.session = state.session ∧ JobSound streams state level job
  further : ∀ offset, Passed (state.claims partition) offset → Passed stage offset
  read : ∀ offset, Passed stage offset → Passed (state.claims partition) offset ∨
    Handled streams after partition offset ∨ Waits after partition offset

theorem claim_move_sound {stage : ClaimStage Partition} (sound : OffsetsSound streams state)
    (move : ClaimMove streams state after partition stage) : OffsetsSound streams after := by
  have grows {other : Partition} {offset : Nat} (handled : Handled streams state other offset) :
      Handled streams after other offset :=
    handled_grows (move.printed ▸ List.Subset.refl _) move.skipped handled
  have known {level : Level} {job : Job Partition} (old : JobSound streams state level job) :
      JobSound streams after level job := ⟨old.message, move.session ▸ old.session⟩
  have own : after.claims partition = stage := by
    rw [move.claims, Function.update_self]
  have others (other : Partition) (apart : other ≠ partition) :
      after.claims other = state.claims other := by
    rw [move.claims, Function.update_of_ne apart]
  have further (other : Partition) (offset : Nat) (passed : Passed (state.claims other) offset) :
      Passed (after.claims other) offset := by
    by_cases same : other = partition
    · rw [same] at passed ⊢
      rw [own]
      exact move.further offset passed
    · rw [others other same]
      exact passed
  have still (live : state.live = true) (other : Partition) (offset : Nat)
      (passed : Passed (state.claims other) offset) :
      Handled streams after other offset ∨ Waits after other offset := by
    rcases sound.read live other offset passed with handled | waits
    · exact .inl (grows handled)
    · rcases waits with ⟨level, job, member, mine, place, session⟩
      exact .inr ⟨level, job, move.waiting level member, mine, place,
        session.trans move.session.symm⟩
  refine ⟨move.committed, ?_, ?_, ?_, ?_, ?_, ?_⟩
  · intro level job member
    rcases move.jobs level job member with old | new
    · exact known (sound.jobs level job old)
    · exact known new.2.1
  · intro level job marking
    rw [move.workers] at marking
    exact grows (sound.printed level job marking)
  · intro other offset skipping
    by_cases same : other = partition
    · rw [same] at skipping ⊢
      exact move.skips offset (own.symm.trans skipping)
    · exact sound.skips other offset ((others other same).symm.trans skipping)
  · intro other level job handing
    rw [move.session]
    by_cases same : other = partition
    · rw [same] at handing ⊢
      rcases move.hands level job (own.symm.trans handing) with ⟨mine, now, old⟩
      exact ⟨mine, now, known old⟩
    · rcases sound.hands other level job ((others other same).symm.trans handing) with
        ⟨mine, now, old⟩
      exact ⟨mine, now, known old⟩
  · intro live other offset passed
    rw [move.live] at live
    by_cases same : other = partition
    · rw [same] at passed ⊢
      rw [own] at passed
      rcases move.read offset passed with before | now
      · exact still live partition offset before
      · exact now
    · rw [others other same] at passed
      exact still live other offset passed
  · intro live level job member session
    rw [move.live] at live
    rcases move.jobs level job member with old | new
    · apply further
      exact sound.current live level job old (session.trans move.session)
    · rw [new.1, own]
      exact new.2.2

theorem receive_sound {next : Nat} {value : Bytes} (sound : OffsetsSound streams state)
    (selecting : state.claims partition = .selecting next)
    (read : (streams partition)[next]? = some value) :
    OffsetsSound streams
      (setClaim state partition (received state.session partition next value)) := by
  have same (offset : Nat) : Passed (received state.session partition next value) offset ↔
      Passed (state.claims partition) offset := by
    rw [received_passed, selecting]
    exact Iff.rfl
  refine claim_move_sound sound
    (?_ : ClaimMove _ _ _ partition (received state.session partition next value))
  refine ⟨rfl, rfl, rfl, rfl, List.Subset.refl _, rfl, sound.committed, ?_, ?_, ?_, ?_, ?_, ?_⟩
  · intro level job member
    exact .inl member
  · intro level
    exact List.Subset.refl _
  · intro offset skipping
    rcases received_cases state.session partition next value with
      ⟨unknown, stage⟩ | ⟨_, _, _, stage⟩
    · cases stage.symm.trans skipping
      exact ⟨value, read, unknown⟩
    · cases stage.symm.trans skipping
  · intro level job handing
    rcases received_cases state.session partition next value with
      ⟨_, stage⟩ | ⟨_, _, known, stage⟩
    · cases stage.symm.trans handing
    · cases stage.symm.trans handing
      exact ⟨rfl, rfl, ⟨value, read, known⟩, le_refl _⟩
  · intro offset passed
    exact (same offset).mpr passed
  · intro offset passed
    exact .inl ((same offset).mp passed)

theorem skip_sound {offset : Nat} (sound : OffsetsSound streams state)
    (skipping : state.claims partition = .skipping offset) (live : state.live = true)
    (inOrder : overtakes state partition offset = false) :
    OffsetsSound streams { setClaim state partition (.selecting (offset + 1)) with
      committed := markMessage state.committed partition offset
      skipped := state.skipped ++ [(partition, offset)] } := by
  have listed : (partition, offset) ∈ state.skipped ++ [(partition, offset)] :=
    List.mem_append_right _ List.mem_cons_self
  have grows : state.skipped ⊆ state.skipped ++ [(partition, offset)] :=
    List.subset_append_left _ _
  refine claim_move_sound sound (?_ : ClaimMove _ _ _ partition (.selecting (offset + 1)))
  refine ⟨rfl, rfl, rfl, rfl, grows, rfl, ?_, ?_, ?_, ?_, ?_, ?_, ?_⟩
  · apply mark_committed
    · intro other below under
      refine handled_grows ?_ ?_ (sound.committed other below under)
      · exact List.Subset.refl _
      · exact grows
    · intro below less
      have passed : Passed (state.claims partition) below := by
        rw [skipping]
        exact less
      rcases sound.read live partition below passed with handled | waits
      · refine handled_grows ?_ ?_ handled
        · exact List.Subset.refl _
        · exact grows
      · exact absurd waits (not_overtaken inOrder less)
    · exact skip_handled sound skipping listed
  · intro level job member
    exact .inl member
  · intro level
    exact List.Subset.refl _
  · intro other same
    cases same
  · intro level job same
    cases same
  · intro below passed
    rw [skipping] at passed
    exact Nat.lt_succ_of_lt passed
  · intro below passed
    rcases Nat.lt_succ_iff_lt_or_eq.mp passed with less | equal
    · rw [skipping]
      exact .inl less
    · rw [equal]
      exact .inr (.inl (skip_handled sound skipping listed))

theorem hand_sound {level : Level} {job : Job Partition} (sound : OffsetsSound streams state)
    (handing : state.claims partition = .handing level job) :
    OffsetsSound streams { setClaim state partition (.selecting (job.offset + 1)) with
      queues := Function.update state.queues level (state.queues level ++ [job]) } := by
  rcases sound.hands partition level job handing with ⟨own, session, known⟩
  refine claim_move_sound sound (?_ : ClaimMove _ _ _ partition (.selecting (job.offset + 1)))
  refine ⟨rfl, rfl, rfl, rfl, List.Subset.refl _, rfl, sound.committed, ?_, ?_, ?_, ?_, ?_, ?_⟩
  · intro other member listed
    rcases (hand_jobs holding level other job member).mp listed with old | ⟨rfl, rfl⟩
    · exact .inl old
    · exact .inr ⟨own, known, Nat.lt_succ_self _⟩
  · intro other member listed
    exact (hand_jobs unprinted level other job member).mpr (.inl listed)
  · intro offset same
    cases same
  · intro other member same
    cases same
  · intro offset passed
    rw [handing] at passed
    exact Nat.lt_succ_of_lt passed
  · intro offset passed
    rcases Nat.lt_succ_iff_lt_or_eq.mp passed with less | equal
    · rw [handing]
      exact .inl less
    · refine .inr (.inr ⟨level, job, ?_, own, equal.symm, session⟩)
      exact (hand_jobs unprinted level level job job).mpr (.inr ⟨rfl, rfl⟩)

end Claims

section Runs

variable [DecidableEq Partition] [Fintype Partition] {handler : Handler}
  {streams : Partition → List Bytes}

theorem step_offsets_sound {before after : State Partition} {action : Action Partition}
    (sound : OffsetsSound streams before) (inOrder : InOrder before action)
    (stepped : step handler streams before action = some after) : OffsetsSound streams after := by
  cases step_cases stepped with
  | receive partition next value selecting read => exact receive_sound sound selecting read
  | skip partition offset skipping =>
      rw [InOrder, skipping] at inOrder
      exact skip_sound sound skipping inOrder.1 inOrder.2
  | hand partition level job capacity handing => exact hand_sound sound handing
  | take level job rest runs receiving queued => exact take_sound sound receiving queued
  | check level job checking => exact check_sound sound checking
  | print level job printing => exact print_sound sound printing
  | mark level job marking =>
      rw [InOrder, marking] at inOrder
      exact mark_sound sound marking inOrder.1 inOrder.2
  | expire live =>
      exact ended_sound sound rfl rfl rfl rfl rfl (fun _ _ member => member)
        (fun _ _ marking => marking) fun _ => .inr rfl
  | close partition next dead selecting =>
      refine ended_sound sound dead rfl rfl rfl rfl (fun _ _ member => member)
        (fun _ _ marking => marking) ?_
      intro other
      by_cases same : other = partition
      · exact .inl (by rw [same]; exact Function.update_self _ _ _)
      · exact .inr (Function.update_of_ne same _ _)
  | start granted dead ended => exact start_sound sound granted
  | crash =>
      refine ended_sound sound rfl rfl rfl rfl rfl ?_ ?_ ?_
      · intro level job member
        cases member
      · intro level job marking
        cases marking
      · exact fun _ => .inl rfl

theorem reachable_offsets_sound {state : State Partition}
    (reached : Reachable (step handler streams) InOrder initial state) :
    OffsetsSound streams state := by
  apply reachable_invariant (OffsetsSound streams) (initial_offsets_sound streams) _ reached
  intro before action after sound inOrder stepped
  exact step_offsets_sound sound inOrder stepped

/-- Marked in order, every message below a committed position has been handled. -/
theorem committed_messages_handled (streams : Partition → List Bytes) (state : State Partition)
    (reached : Reachable (step newConsumerGroupHandler streams) InOrder initial state)
    (partition : Partition) (offset : Nat) (below : offset < state.committed partition) :
    Handled streams state partition offset :=
  (reachable_offsets_sound reached).committed partition offset below

end Runs

section Samples

/-- `Handled`, to be evaluated. -/
def isHandled [DecidableEq Partition] (streams : Partition → List Bytes) (state : State Partition)
    (partition : Partition) (offset : Nat) : Bool :=
  (streams partition)[offset]?.any fun value =>
    match verdict value with
    | .known level event => decide (.message level partition offset event ∈ state.printed)
    | .unknown _ => decide ((partition, offset) ∈ state.skipped)
    | .undecodable => decide ((partition, offset) ∈ state.skipped)

theorem handled_iff [DecidableEq Partition] (streams : Partition → List Bytes)
    (state : State Partition) (partition : Partition) (offset : Nat) :
    isHandled streams state partition offset = true ↔ Handled streams state partition offset := by
  rw [isHandled, Option.any_eq_true]
  apply exists_congr
  intro value
  apply and_congr_right
  intro _
  cases verdict value with
  | undecodable => exact decide_eq_true_iff
  | unknown event => exact decide_eq_true_iff
  | known level event => exact decide_eq_true_iff

def logText (level : String) : Bytes :=
  ascii ("\x7b\"level\":\"" ++ level ++ "\",\"msg\":\"m\",\"service\":\"s\"\x7d")

/-- An information, a warning and a message of another level. -/
def mixedStream (_ : Unit) : List Bytes := [logText "information", logText "WARN", logText "DEBUG"]

def passOn (count : Nat) : List (Action Unit) :=
  .start (fun _ => true) :: (List.replicate count [.receive (), .hand ()]).flatten

def work (level : Level) : List (Action Unit) :=
  [.take level, .check level, .print level, .mark level]

/-- The workers and the claim mark in the order of the offsets. -/
theorem orderly_marks_handled :
    ∃ state : State Unit,
      Reachable (step newConsumerGroupHandler mixedStream) InOrder initial state ∧
        state.committed () = 3 ∧ ∀ offset < 3, Handled mixedStream state () offset := by
  have ran : (runActions (step newConsumerGroupHandler mixedStream) InOrder initial
      (passOn 2 ++ work .info ++ work .warn ++ [.receive (), .skip ()])).any
        (fun state => state.committed () = 3) = true := by
    decide +kernel
  rcases (Option.any_eq_true _ _).mp ran with ⟨state, reached, position⟩
  have reachable := reachable_run_actions reachable_start reached
  have three := of_decide_eq_true position
  refine ⟨state, reachable, three, ?_⟩
  intro offset less
  exact committed_messages_handled mixedStream state reachable () offset (three.symm ▸ less)

/-- The worker for warnings is ahead of the one for information, and the process dies.
The next session starts behind a message that nobody has printed. -/
theorem overtaken_message_lost :
    ∃ state : State Unit,
      Reachable (step newConsumerGroupHandler mixedStream) anyStep initial state ∧
        state.live = true ∧ state.claims () = .selecting 2 ∧ 0 < state.committed () ∧
        (∀ level, held state level = []) ∧ ¬ Handled mixedStream state () 0 := by
  have ran : (runActions (step newConsumerGroupHandler mixedStream) anyStep initial
      (passOn 2 ++ work .warn ++ [.crash, .start fun _ => true])).any
        (fun state => decide (state.live = true ∧ state.claims () = .selecting 2 ∧
          0 < state.committed () ∧ (∀ level ∈ levels, held state level = []) ∧
          isHandled mixedStream state () 0 = false)) = true := by
    decide +kernel
  rcases (Option.any_eq_true _ _).mp ran with ⟨state, reached, checked⟩
  rcases of_decide_eq_true checked with ⟨live, claim, position, jobs, unhandled⟩
  refine ⟨state, reachable_run_actions reachable_start reached, live, claim, position, ?_, ?_⟩
  · intro level
    exact jobs level (mem_levels level)
  · intro handled
    cases unhandled.symm.trans ((handled_iff _ _ _ _).mpr handled)

end Samples

end ChatScale.LogConsumerOffsets
