import ChatScale.OutboxRelayModel
import Mathlib.Data.List.Flatten

/-!
# One cycle of the outbox relay

`processBatch` with a context that is not cancelled, as a function of what the
publisher and the repository answer. The answers to an entry are given with it:
one for each publish attempt and one for `MarkPublished`. The result is the list
of the calls made, in their order, and the errors joined.
-/

namespace ChatScale.RelayBatch

open ChatScale.ByteText ChatScale.OutboxRelayModel

set_option autoImplicit false

/-- The other fields of the configuration that `New` accepts, durations in
nanoseconds. -/
structure BatchConfig extends RelayConfig where
  topic : Bytes
  retryBackoff : Int
  topicNamed : topic ≠ []
  backoffPositive : 0 < retryBackoff

/-- The partition and the offset of a published record. -/
structure Receipt where
  partition : Int
  offset : Int

/-- What is answered to the calls for an entry. Attempts count from 1. -/
structure Answers (Error : Type) where
  publish : Nat → Except Error Receipt
  mark : Except Error Unit

inductive Call where
  | publish (topic key value : Bytes)
  | wait (delay : Int)
  | mark (messageID : Bytes)
  deriving DecidableEq

/-- "Kafka publish failed after %d attempts: %w" has the error of the last attempt,
if there was one. -/
inductive BatchError (Error : Type) where
  | fetch (error : Error)
  | invalid (message : String)
  | publish (attempts : Nat) (last : Option Error)
  | mark (error : Error)

structure Cycle (Error : Type) where
  calls : List Call
  errors : List (BatchError Error)

variable {Error : Type}

def maxDelay : Int := 5000000000

/-- Durations are 64-bit integers. -/
def int64 (value : Int) : Int := value.bmod (2 ^ 64)

def retryDelay (config : BatchConfig) (attempt : Nat) : Int :=
  let delay := int64 (config.retryBackoff * int64 (2 ^ (attempt - 1)))
  if maxDelay < delay then maxDelay else delay

def publishCall (config : BatchConfig) (entry : Entry) : Call :=
  .publish config.topic entry.roomID entry.event

/-- The loop over the attempts, of which `remaining` are left. -/
def publishLoop (config : BatchConfig) (entry : Entry) (answers : Answers Error) :
    Nat → Nat → Option Error → List Call × Except (BatchError Error) Receipt
  | 0, _, lastErr => ([], .error (.publish config.maxRetries lastErr))
  | remaining + 1, attempt, _ =>
      match answers.publish attempt with
      | .ok receipt => ([publishCall config entry], .ok receipt)
      | .error error =>
          if attempt = config.maxRetries then
            ([publishCall config entry], .error (.publish config.maxRetries (some error)))
          else
            let later := publishLoop config entry answers remaining (attempt + 1) (some error)
            (publishCall config entry :: .wait (retryDelay config attempt) :: later.1, later.2)

def publishWithRetry (config : BatchConfig) (entry : Entry) (answers : Answers Error) :
    List Call × Except (BatchError Error) Receipt :=
  publishLoop config entry answers config.maxRetries 1 none

/-- The body of the loop over the entries. -/
def processEntry (config : BatchConfig) (entry : Entry) (answers : Answers Error) : Cycle Error :=
  match validateEntry entry with
  | .error message => ⟨[], [.invalid message]⟩
  | .ok () =>
      match publishWithRetry config entry answers with
      | (calls, .error error) => ⟨calls, [error]⟩
      | (calls, .ok _) =>
          match answers.mark with
          | .error error => ⟨calls ++ [.mark entry.messageID], [.mark error]⟩
          | .ok () => ⟨calls ++ [.mark entry.messageID], []⟩

def processItem (config : BatchConfig) (cycle : Cycle Error) (item : Entry × Answers Error) :
    Cycle Error :=
  let next := processEntry config item.1 item.2
  ⟨cycle.calls ++ next.calls, cycle.errors ++ next.errors⟩

/-- A cycle returns nil if it has joined no error. -/
def processBatch (config : BatchConfig) (fetched : Except Error (List (Entry × Answers Error))) :
    Cycle Error :=
  match fetched with
  | .error error => ⟨[], [.fetch error]⟩
  | .ok items => items.foldl (processItem config) ⟨[], []⟩

section Specification

/-- The first of `count` attempts from `first` on that succeeds. -/
def firstSuccess (answers : Answers Error) (first count : Nat) : Option Nat :=
  (List.range' first count).find? fun attempt => (answers.publish attempt).isOk

/-- So many attempts, with a wait before each but the first. -/
def attempts (config : BatchConfig) (entry : Entry) : Nat → Nat → List Call
  | _, 0 => []
  | _, 1 => [publishCall config entry]
  | first, count + 2 => publishCall config entry :: .wait (retryDelay config first) ::
      attempts config entry (first + 1) (count + 1)

/-- What should be done for an entry, from its own answers alone. -/
def entryCalls (config : BatchConfig) (entry : Entry) (answers : Answers Error) : List Call :=
  match validateEntry entry, firstSuccess answers 1 config.maxRetries with
  | .error _, _ => []
  | .ok (), none => attempts config entry 1 config.maxRetries
  | .ok (), some attempt => attempts config entry 1 attempt ++ [.mark entry.messageID]

/-- The entry was valid, published and marked. -/
structure Relayed (config : BatchConfig) (entry : Entry) (answers : Answers Error) : Prop where
  valid : validateEntry entry = .ok ()
  published : ∃ attempt, 1 ≤ attempt ∧ attempt ≤ config.maxRetries ∧
    (answers.publish attempt).isOk = true
  marked : answers.mark = .ok ()

def Call.isPublish : Call → Bool
  | .publish _ _ _ => true
  | _ => false

def Call.isMark : Call → Bool
  | .mark _ => true
  | _ => false

/-- An attempt succeeds and those before it fail. -/
structure SucceedsAt (config : BatchConfig) (answers : Answers Error) (attempt : Nat) : Prop where
  made : 1 ≤ attempt ∧ attempt ≤ config.maxRetries
  succeeds : (answers.publish attempt).isOk = true
  earlier : ∀ other, 1 ≤ other → other < attempt → (answers.publish other).isOk = false

/-- The calls for one entry: an invalid one is left alone; a valid one is published
under its room until the first success, and then marked, as the last call for it;
without a success it is published `MaxRetries` times and not marked. -/
structure Treated (config : BatchConfig) (entry : Entry) (answers : Answers Error)
    (calls : List Call) : Prop where
  invalid : validateEntry entry ≠ .ok () → calls = []
  succeeded : validateEntry entry = .ok () → ∀ attempt, SucceedsAt config answers attempt →
    calls.filter Call.isPublish = List.replicate attempt (publishCall config entry) ∧
      calls.filter Call.isMark = [.mark entry.messageID] ∧
      calls.getLast? = some (.mark entry.messageID)
  failed : validateEntry entry = .ok () →
    (∀ attempt, 1 ≤ attempt → attempt ≤ config.maxRetries →
      (answers.publish attempt).isOk = false) →
    calls.filter Call.isPublish = List.replicate config.maxRetries (publishCall config entry) ∧
      calls.filter Call.isMark = []

end Specification

section Entries

variable {config : BatchConfig} {entry : Entry} {answers : Answers Error}

theorem first_success_here {first count : Nat} (ok : (answers.publish first).isOk = true) :
    firstSuccess answers first (count + 1) = some first := by
  rw [firstSuccess, List.range'_succ]
  exact List.find?_cons_of_pos ok

theorem first_success_later {first count : Nat} (failed : (answers.publish first).isOk = false) :
    firstSuccess answers first (count + 1) = firstSuccess answers (first + 1) count := by
  rw [firstSuccess, List.range'_succ, List.find?_cons_of_neg (by simp [failed]), firstSuccess]

theorem first_success_bounds {first count attempt : Nat}
    (found : firstSuccess answers first count = some attempt) :
    first ≤ attempt ∧ attempt < first + count := by
  have member := List.mem_of_find?_eq_some found
  rw [List.mem_range'_1] at member
  exact member

theorem first_success_iff {first count : Nat} :
    (firstSuccess answers first count).isSome = true ↔
      ∃ attempt, first ≤ attempt ∧ attempt < first + count ∧
        (answers.publish attempt).isOk = true := by
  rw [firstSuccess, List.find?_isSome]
  constructor
  · intro found
    rcases found with ⟨attempt, member, ok⟩
    have bounds := List.mem_range'_1.mp member
    exact ⟨attempt, bounds.1, bounds.2, ok⟩
  · intro found
    rcases found with ⟨attempt, lower, upper, ok⟩
    exact ⟨attempt, List.mem_range'_1.mpr ⟨lower, upper⟩, ok⟩

theorem attempts_more (first count : Nat) :
    attempts config entry first (count + 2) = publishCall config entry ::
      .wait (retryDelay config first) :: attempts config entry (first + 1) (count + 1) := rfl

/-- The loop makes the attempts up to the first success, or all that are left. -/
theorem publish_loop_calls (remaining first : Nat) (lastErr : Option Error)
    (left : first + remaining = config.maxRetries + 1) :
    (publishLoop config entry answers remaining first lastErr).1 =
      match firstSuccess answers first remaining with
      | some attempt => attempts config entry first (attempt + 1 - first)
      | none => attempts config entry first remaining := by
  induction remaining generalizing first lastErr with
  | zero => rfl
  | succ remaining induction =>
      unfold publishLoop
      cases answered : answers.publish first with
      | ok receipt =>
          rw [first_success_here (by rw [answered]; rfl)]
          simp only [Nat.add_sub_cancel_left]
          rfl
      | error error =>
          rw [first_success_later (by rw [answered]; rfl)]
          dsimp only
          split_ifs with last
          · have none : remaining = 0 := by omega
            subst none
            rfl
          · have later := induction (first + 1) (some error) (by omega)
            dsimp only
            rw [later]
            rcases Nat.exists_eq_succ_of_ne_zero (show remaining ≠ 0 by omega) with ⟨further, rfl⟩
            cases found : firstSuccess answers (first + 1) (further + 1) with
            | none => rfl
            | some attempt =>
                have bounds := first_success_bounds found
                rcases Nat.exists_eq_add_of_le bounds.1 with ⟨extra, rfl⟩
                dsimp only
                rw [show first + 1 + extra + 1 - first = extra + 2 by omega,
                  show first + 1 + extra + 1 - (first + 1) = extra + 1 by omega, attempts_more]

theorem publish_loop_ok (remaining first : Nat) (lastErr : Option Error)
    (left : first + remaining = config.maxRetries + 1) :
    (publishLoop config entry answers remaining first lastErr).2.isOk =
      (firstSuccess answers first remaining).isSome := by
  induction remaining generalizing first lastErr with
  | zero => rfl
  | succ remaining induction =>
      unfold publishLoop
      cases answered : answers.publish first with
      | ok receipt =>
          rw [first_success_here (by rw [answered]; rfl)]
          rfl
      | error error =>
          rw [first_success_later (by rw [answered]; rfl)]
          dsimp only
          split_ifs with last
          · have none : remaining = 0 := by omega
            subst none
            rfl
          · exact induction (first + 1) (some error) (by omega)

theorem attempts_publish (first count : Nat) :
    (attempts config entry first count).filter Call.isPublish =
      List.replicate count (publishCall config entry) := by
  fun_induction attempts config entry first count with
  | case1 first => rfl
  | case2 first => rfl
  | case3 first count induction =>
      rw [List.replicate_succ, ← induction]
      rfl

theorem attempts_mark (first count : Nat) :
    (attempts config entry first count).filter Call.isMark = [] := by
  fun_induction attempts config entry first count with
  | case1 first => rfl
  | case2 first => rfl
  | case3 first count induction => exact induction

/-- The answers to the attempts decide where the first success is. -/
theorem first_success_of_succeeds {attempt : Nat} (success : SucceedsAt config answers attempt) :
    firstSuccess answers 1 config.maxRetries = some attempt := by
  apply List.find?_range'_eq_some.mpr
  refine ⟨success.succeeds, List.mem_range'_1.mpr ⟨success.made.1, ?_⟩, ?_⟩
  · exact Nat.lt_one_add_iff.mpr success.made.2
  · intro other lower earlier
    rw [success.earlier other lower earlier]
    rfl

theorem first_success_none
    (failed : ∀ attempt, 1 ≤ attempt → attempt ≤ config.maxRetries →
      (answers.publish attempt).isOk = false) :
    firstSuccess answers 1 config.maxRetries = none := by
  apply List.find?_eq_none.mpr
  intro attempt member
  have bounds := List.mem_range'_1.mp member
  rw [failed attempt bounds.1 (Nat.lt_one_add_iff.mp bounds.2)]
  exact Bool.false_ne_true

theorem publish_succeeds (entry : Entry) {attempt : Nat}
    (found : firstSuccess answers 1 config.maxRetries = some attempt) :
    ∃ receipt, publishWithRetry config entry answers =
      (attempts config entry 1 attempt, .ok receipt) := by
  have left : 1 + config.maxRetries = config.maxRetries + 1 := Nat.add_comm _ _
  have calls : (publishWithRetry config entry answers).1 = _ := publish_loop_calls _ _ none left
  have ok : (publishWithRetry config entry answers).2.isOk = _ := publish_loop_ok _ _ none left
  rw [found] at calls ok
  cases outcome : (publishWithRetry config entry answers).2 with
  | error error =>
      rw [outcome] at ok
      cases ok
  | ok receipt => exact ⟨receipt, Prod.ext calls outcome⟩

theorem publish_fails (entry : Entry)
    (allFailed : firstSuccess answers 1 config.maxRetries = none) :
    ∃ error, publishWithRetry config entry answers =
      (attempts config entry 1 config.maxRetries, .error error) := by
  have left : 1 + config.maxRetries = config.maxRetries + 1 := Nat.add_comm _ _
  have calls : (publishWithRetry config entry answers).1 = _ := publish_loop_calls _ _ none left
  have ok : (publishWithRetry config entry answers).2.isOk = _ := publish_loop_ok _ _ none left
  rw [allFailed] at calls ok
  cases outcome : (publishWithRetry config entry answers).2 with
  | ok receipt =>
      rw [outcome] at ok
      cases ok
  | error error => exact ⟨error, Prod.ext calls outcome⟩

/-- The loop body makes the calls of the specification, and reports no error exactly
if the entry was relayed. -/
theorem process_entry_spec :
    (processEntry config entry answers).calls = entryCalls config entry answers ∧
      ((processEntry config entry answers).errors = [] ↔ Relayed config entry answers) := by
  unfold processEntry entryCalls
  cases valid : validateEntry entry with
  | error message =>
      refine ⟨rfl, ?_⟩
      constructor
      · intro none
        cases none
      · intro relayed
        cases valid.symm.trans relayed.valid
  | ok _ =>
      cases found : firstSuccess answers 1 config.maxRetries with
      | none =>
          rcases publish_fails entry found with ⟨error, failed⟩
          rw [failed]
          refine ⟨rfl, ?_⟩
          constructor
          · intro none
            cases none
          · intro relayed
            rcases relayed.published with ⟨attempt, lower, upper, ok⟩
            have some := first_success_iff.mpr ⟨attempt, lower, Nat.lt_one_add_iff.mpr upper, ok⟩
            rw [found] at some
            cases some
      | some attempt =>
          rcases publish_succeeds entry found with ⟨receipt, succeeded⟩
          rw [succeeded]
          have some := first_success_iff.mp (Option.isSome_of_eq_some found)
          rcases some with ⟨success, lower, upper, ok⟩
          have published : ∃ attempt, 1 ≤ attempt ∧ attempt ≤ config.maxRetries ∧
              (answers.publish attempt).isOk = true :=
            ⟨success, lower, Nat.lt_one_add_iff.mp upper, ok⟩
          cases marked : answers.mark with
          | error error =>
              refine ⟨rfl, ?_⟩
              constructor
              · intro none
                cases none
              · intro relayed
                cases marked.symm.trans relayed.marked
          | ok _ =>
              exact ⟨rfl, fun _ => ⟨valid, published, marked⟩, fun _ => rfl⟩

theorem entry_calls_treated (config : BatchConfig) (entry : Entry) (answers : Answers Error) :
    Treated config entry answers (entryCalls config entry answers) where
  invalid := by
    intro invalid
    unfold entryCalls
    split
    · rfl
    · rename_i valid _
      exact absurd valid invalid
    · rename_i valid _
      exact absurd valid invalid
  succeeded := by
    intro valid attempt success
    rw [entryCalls, valid, first_success_of_succeeds success]
    dsimp only
    rw [List.filter_append, List.filter_append, attempts_publish, attempts_mark,
      List.getLast?_concat]
    exact ⟨List.append_nil _, rfl, rfl⟩
  failed := by
    intro valid failed
    rw [entryCalls, valid, first_success_none failed]
    exact ⟨attempts_publish _ _, attempts_mark _ _⟩

theorem entry_calls_mark :
    (entryCalls config entry answers).any Call.isMark = true ↔
      validateEntry entry = .ok () ∧ (firstSuccess answers 1 config.maxRetries).isSome = true := by
  have unmarked (first count : Nat) :
      (attempts config entry first count).any Call.isMark = false := by
    apply List.any_eq_false.mpr
    intro call member
    exact List.filter_eq_nil_iff.mp (attempts_mark first count) call member
  unfold entryCalls
  cases valid : validateEntry entry with
  | error message => simp
  | ok _ =>
      cases found : firstSuccess answers 1 config.maxRetries with
      | none => simp [unmarked]
      | some attempt => simp [Call.isMark]

end Entries

section Batch

variable {config : BatchConfig}

/-- The accumulators of the loop only grow by what an entry adds. -/
theorem loop_calls (items : List (Entry × Answers Error)) (cycle : Cycle Error) :
    (items.foldl (processItem config) cycle).calls =
      cycle.calls ++ items.flatMap fun item => entryCalls config item.1 item.2 := by
  induction items generalizing cycle with
  | nil => exact (List.append_nil _).symm
  | cons item items induction =>
      rw [List.foldl_cons, induction, List.flatMap_cons, ← List.append_assoc]
      apply congrArg (· ++ _)
      exact congrArg (cycle.calls ++ ·) process_entry_spec.1

theorem loop_errors (items : List (Entry × Answers Error)) (cycle : Cycle Error) :
    (items.foldl (processItem config) cycle).errors = [] ↔
      cycle.errors = [] ∧ ∀ item ∈ items, Relayed config item.1 item.2 := by
  induction items generalizing cycle with
  | nil => simp
  | cons item items induction =>
      rw [List.foldl_cons, induction, List.forall_mem_cons, ← and_assoc]
      apply and_congr_left'
      exact List.append_eq_nil_iff.trans (and_congr_right' process_entry_spec.2)

/-- The calls of a cycle are those for its entries one after the other, each set by
the entry and its own answers; the cycle returns nil exactly if every entry was
valid, published and marked. -/
theorem entries_treated_apart (config : BatchConfig) (items : List (Entry × Answers Error)) :
    (processBatch config (.ok items)).calls =
        items.flatMap (fun item => entryCalls config item.1 item.2) ∧
      (∀ item ∈ items, Treated config item.1 item.2 (entryCalls config item.1 item.2)) ∧
      ((processBatch config (.ok items)).errors = [] ↔
        ∀ item ∈ items, Relayed config item.1 item.2) := by
  refine ⟨loop_calls items ⟨[], []⟩, ?_, ?_⟩
  · intro item _
    exact entry_calls_treated config item.1 item.2
  · exact (loop_errors items ⟨[], []⟩).trans (and_iff_right rfl)

end Batch

end ChatScale.RelayBatch
