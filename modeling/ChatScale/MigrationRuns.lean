import ChatScale.MigrationModel

/-!
# What holds of the migrations in every reachable state

The versions recorded are those of the first files of the directory, in their
order, and the statements committed are exactly theirs. The lock makes this
true between instances: from the check of a version to the commit of its
migration nobody else records anything. Whether the order of the names is the
order of the versions is another matter: it is that of the texts.
-/

namespace ChatScale.MigrationRuns

open ChatScale.ByteText ChatScale.MigrationFiles ChatScale.MigrationModel
open ChatScale.TransitionSystem

set_option autoImplicit false

/-- The statements of a migration under its version. -/
def tagged (file : Migration) : List (Int × Bytes) :=
  file.statements.map fun statement => (file.version, statement)

/-- The files in the order in which they are taken; none if the directory is not
accepted. -/
def listedFiles (directory : Directory) : List Migration :=
  match directory.migrations with
  | .error _ => []
  | .ok files => files

section Calls

variable {directory : Directory} {applied : List Migration}

/-- The call is at a file, and the files before it are applied. -/
def At (directory : Directory) (applied : List Migration) (file : Migration)
    (rest : List Migration) : Prop :=
  ∃ done, directory.migrations = .ok (done ++ file :: rest) ∧ done <+: applied

def StageSound (directory : Directory) (applied : List Migration) : Stage → Prop
  | .start => True
  | .next rest => ∃ done, directory.migrations = .ok (done ++ rest) ∧ done <+: applied
  | .begin file rest => At directory applied file rest
  | .lock file rest => At directory applied file rest
  | .createTable file rest => At directory applied file rest
  | .check file rest => At directory applied file rest
  | .finishCheck file rest =>
      ∃ done, directory.migrations = .ok (done ++ file :: rest) ∧ done ++ [file] <+: applied
  | .execute file _ rest => At directory applied file rest
  | .record file rest => At directory applied file rest
  | .commit file rest => At directory applied file rest
  | .closing _ => True
  | .returned none => ∃ files, directory.migrations = .ok files ∧ files <+: applied
  | .returned (some _) => True
  | .dead => True

/-- What the open transaction of a call has done. From the check on it holds the
lock, and the file it is at is not applied. -/
def TxSound (applied : List Migration) : Stage → Transaction → Prop
  | .lock _ _, tx => tx = emptyTransaction
  | .createTable _ _, tx => tx = { emptyTransaction with locked := true }
  | .check _ _, tx => tx = { emptyTransaction with locked := true, created := true }
  | .finishCheck _ _, tx => tx = { emptyTransaction with locked := true, created := true }
  | .execute file remaining _, tx => file ∉ applied ∧ tx.locked = true ∧ tx.recorded = none ∧
      tx.executed ++ remaining.map (fun statement => (file.version, statement)) = tagged file
  | .record file _, tx => file ∉ applied ∧ tx.locked = true ∧ tx.recorded = none ∧
      tx.executed = tagged file
  | .commit file _, tx => file ∉ applied ∧ tx.locked = true ∧ tx.recorded = some file.key ∧
      tx.executed = tagged file
  | _, _ => True

structure CallSound (directory : Directory) (applied : List Migration) (call : Call) : Prop where
  stage : StageSound directory applied call.stage
  tx : ∀ tx, call.tx = some tx → TxSound applied call.stage tx

theorem at_grows {file other : Migration} {rest : List Migration}
    (place : At directory applied file rest) : At directory (applied ++ [other]) file rest := by
  rcases place with ⟨done, files, passed⟩
  exact ⟨done, files, passed.trans (List.prefix_append _ _)⟩

/-- What a call has passed stays applied. -/
theorem stage_sound_grows {stage : Stage} (other : Migration)
    (sound : StageSound directory applied stage) :
    StageSound directory (applied ++ [other]) stage := by
  have longer : applied <+: applied ++ [other] := List.prefix_append _ _
  cases stage with
  | start => exact trivial
  | next rest =>
      rcases sound with ⟨done, files, passed⟩
      exact ⟨done, files, passed.trans longer⟩
  | begin file rest => exact at_grows sound
  | lock file rest => exact at_grows sound
  | createTable file rest => exact at_grows sound
  | check file rest => exact at_grows sound
  | finishCheck file rest =>
      rcases sound with ⟨done, files, passed⟩
      exact ⟨done, files, passed.trans longer⟩
  | execute file remaining rest => exact at_grows sound
  | record file rest => exact at_grows sound
  | commit file rest => exact at_grows sound
  | closing error => exact trivial
  | returned error =>
      cases error with
      | none =>
          rcases sound with ⟨files, listed, passed⟩
          exact ⟨files, listed, passed.trans longer⟩
      | some error => exact trivial
  | dead => exact trivial

/-- Without the lock a transaction has written nothing that depends on what is
applied. -/
theorem tx_sound_unlocked {stage : Stage} {tx : Transaction} (other : List Migration)
    (sound : TxSound applied stage tx) (unlocked : tx.locked = false) : TxSound other stage tx := by
  cases stage with
  | execute file remaining rest =>
      rw [sound.2.1] at unlocked
      cases unlocked
  | record file rest =>
      rw [sound.2.1] at unlocked
      cases unlocked
  | commit file rest =>
      rw [sound.2.1] at unlocked
      cases unlocked
  | _ => exact sound

theorem listed_of_accepted {files : List Migration} (accepted : directory.migrations = .ok files) :
    listedFiles directory = files := by
  rw [listedFiles, accepted]

/-- The files applied end before the file of a call or after it. -/
theorem at_cases {file : Migration} {rest : List Migration}
    (initial : applied <+: listedFiles directory) (place : At directory applied file rest) :
    directory.migrations = .ok (applied ++ file :: rest) ∨
      ∃ done, directory.migrations = .ok (done ++ file :: rest) ∧ done ++ [file] <+: applied := by
  rcases place with ⟨done, files, further, rfl⟩
  rw [listed_of_accepted files, List.prefix_append_right_inj] at initial
  cases further with
  | nil =>
      rw [List.append_nil]
      exact .inl files
  | cons next further =>
      rw [List.cons_prefix_cons] at initial
      refine .inr ⟨done, files, ?_⟩
      rw [initial.1, List.prefix_append_right_inj, List.cons_prefix_cons]
      exact ⟨rfl, List.nil_prefix⟩

theorem mem_of_at {done : List Migration} {file : Migration}
    (passed : done ++ [file] <+: applied) : file ∈ applied :=
  passed.subset (List.mem_append_right _ List.mem_cons_self)

/-- A version is recorded exactly if its file is applied. -/
theorem is_recorded_iff {db : Database} (recorded : db.recorded = applied.map Migration.key)
    (initial : applied <+: listedFiles directory) {file : Migration} {rest : List Migration}
    (place : At directory applied file rest) :
    isRecorded db file.version = true ↔ file ∈ applied := by
  rw [isRecorded, recorded, List.any_map, List.any_eq_true]
  constructor
  · rintro ⟨other, listed, same⟩
    rcases place with ⟨done, files, _⟩
    have distinct := (migrations_listed files).distinct
    rw [listed_of_accepted files] at initial
    have member : file ∈ done ++ file :: rest := List.mem_append_right _ List.mem_cons_self
    have equal := List.inj_on_of_nodup_map distinct (initial.subset listed) member
      (beq_iff_eq.mp same)
    exact equal ▸ listed
  · intro listed
    exact ⟨file, listed, beq_self_eq_true _⟩

/-- What a move of a call can do: it commits nothing, or it commits the migration
after those applied, and had the lock. -/
inductive Effect (directory : Directory) (applied : List Migration) (db : Database)
    (lockHeld : Bool) (call : Call) : Database → Call → Prop where
  | quiet {after : Database} {next : Call} (recorded : after.recorded = db.recorded)
      (executed : after.executed = db.executed) (sound : CallSound directory applied next)
      (lock : next.holdsLock = true → call.holdsLock = true ∨ lockHeld = false) :
      Effect directory applied db lockHeld call after next
  | commits {after : Database} {next : Call} (file : Migration) (held : call.holdsLock = true)
      (listed : applied ++ [file] <+: listedFiles directory)
      (recorded : after.recorded = db.recorded ++ [file.key])
      (executed : after.executed = db.executed ++ tagged file)
      (sound : CallSound directory (applied ++ [file]) next) (ended : next.tx = none) :
      Effect directory applied db lockHeld call after next

/-- A call without a transaction holds no lock. -/
theorem quiet_without {db : Database} {lockHeld : Bool} {call : Call} {stage : Stage}
    (sound : StageSound directory applied stage) :
    Effect directory applied db lockHeld call db ⟨stage, none⟩ := by
  apply Effect.quiet rfl rfl
  · exact ⟨sound, fun tx opened => by cases opened⟩
  · intro held
    cases held

/-- A call goes on in the same transaction, and takes no lock. -/
theorem quiet_within {db : Database} {lockHeld : Bool} {stage next : Stage} {tx new : Transaction}
    (lock : new.locked = tx.locked) (sound : StageSound directory applied next)
    (written : TxSound applied next new) :
    Effect directory applied db lockHeld ⟨stage, some tx⟩ db ⟨next, some new⟩ := by
  apply Effect.quiet rfl rfl
  · refine ⟨sound, ?_⟩
    intro other same
    cases same
    exact written
  · intro held
    exact .inl (lock.symm.trans held)

variable {db after : Database} {lockHeld : Bool} {call next : Call}

theorem start_sound : StageSound directory applied (startCall directory) := by
  unfold startCall
  split
  · exact trivial
  · rename_i files accepted
    exact ⟨[], accepted, List.nil_prefix⟩

/-- The commit of a check, with or without its reply. -/
theorem finish_check_effect {stage resumed : Stage} {tx : Transaction}
    (written : tx = { emptyTransaction with locked := true, created := true })
    (sound : StageSound directory applied resumed) :
    Effect directory applied db lockHeld ⟨stage, some tx⟩ (applyTransaction db tx)
      ⟨resumed, none⟩ := by
  subst written
  apply Effect.quiet
  · exact List.append_nil _
  · exact List.append_nil _
  · exact ⟨sound, fun tx opened => by cases opened⟩
  · intro held
    cases held

/-- The commit of a migration, with or without its reply. -/
theorem commit_effect {file : Migration} {rest : List Migration} {resumed : Stage}
    {tx : Transaction} (initial : applied <+: listedFiles directory)
    (place : At directory applied file rest) (written : TxSound applied (.commit file rest) tx)
    (sound : directory.migrations = .ok (applied ++ file :: rest) →
      StageSound directory (applied ++ [file]) resumed) :
    Effect directory applied db lockHeld ⟨.commit file rest, some tx⟩ (applyTransaction db tx)
      ⟨resumed, none⟩ := by
  rcases written with ⟨fresh, locked, recorded, executed⟩
  rcases at_cases initial place with files | ⟨done, _, passed⟩
  · apply Effect.commits file
    · exact locked
    · rw [listed_of_accepted files, List.prefix_append_right_inj, List.cons_prefix_cons]
      exact ⟨rfl, List.nil_prefix⟩
    · rw [applyTransaction, recorded]
      rfl
    · rw [applyTransaction, executed]
    · exact ⟨sound files, fun tx opened => by cases opened⟩
    · rfl
  · exact absurd (mem_of_at passed) fresh

/-- A call leaves its transaction as it is and does not use it any more. -/
theorem quiet_beside {stage resumed : Stage} {tx : Option Transaction}
    (sound : StageSound directory applied resumed) (free : ∀ tx, TxSound applied resumed tx) :
    Effect directory applied db lockHeld ⟨stage, tx⟩ db ⟨resumed, tx⟩ :=
  .quiet rfl rfl ⟨sound, fun tx _ => free tx⟩ .inl

theorem start_free (tx : Transaction) : TxSound applied (startCall directory) tx := by
  unfold startCall
  split
  · exact trivial
  · exact trivial

theorem lock_effect {file : Migration} {rest : List Migration} {tx : Transaction}
    (place : At directory applied file rest) (written : tx = emptyTransaction)
    (free : lockHeld = false) :
    Effect directory applied db lockHeld ⟨.lock file rest, some tx⟩ db
      ⟨.createTable file rest, some { tx with locked := true }⟩ := by
  apply Effect.quiet rfl rfl
  · refine ⟨place, ?_⟩
    intro other same
    cases same
    rw [written]
    exact rfl
  · intro _
    exact .inr free

theorem check_effect {file : Migration} {rest : List Migration} {tx : Transaction}
    (recorded : db.recorded = applied.map Migration.key)
    (initial : applied <+: listedFiles directory) (place : At directory applied file rest)
    (written : tx = { emptyTransaction with locked := true, created := true })
    (ran : (if isRecorded db file.version then some (db, ⟨.finishCheck file rest, some tx⟩)
      else some (db, ⟨.execute file file.statements rest, some tx⟩)) = some (after, next)) :
    Effect directory applied db lockHeld ⟨.check file rest, some tx⟩ after next := by
  have known := is_recorded_iff recorded initial place
  split_ifs at ran with present
  · cases ran
    rcases at_cases initial place with files | passed
    · -- The file is applied, so it is not the one after those applied.
      have distinct := (migrations_listed files).distinct.of_map
      rw [List.nodup_append] at distinct
      exact absurd rfl (distinct.2.2 file (known.mp present) file List.mem_cons_self)
    · exact quiet_within rfl passed written
  · cases ran
    refine quiet_within rfl place ⟨fun listed => present (known.mpr listed), ?_, ?_, ?_⟩
    · rw [written]
    · rw [written]
      rfl
    · rw [written]
      rfl

theorem execute_effect {file : Migration} {statement : Bytes} {remaining : List Bytes}
    {rest : List Migration} {tx : Transaction} (place : At directory applied file rest)
    (written : TxSound applied (.execute file (statement :: remaining) rest) tx) :
    Effect directory applied db lockHeld ⟨.execute file (statement :: remaining) rest, some tx⟩ db
      ⟨.execute file remaining rest,
        some { tx with executed := tx.executed ++ [(file.version, statement)] }⟩ := by
  rcases written with ⟨fresh, locked, nothing, executed⟩
  refine quiet_within rfl place ⟨fresh, locked, nothing, ?_⟩
  rw [← executed, List.append_assoc]
  rfl

theorem record_effect {file : Migration} {rest : List Migration} {tx : Transaction}
    (place : At directory applied file rest) (written : TxSound applied (.record file rest) tx)
    (ran : (if isRecorded db file.version then some (db, ⟨.closing (.record file.name), some tx⟩)
      else some (db, ⟨.commit file rest, some { tx with recorded := some file.key }⟩)) =
        some (after, next)) :
    Effect directory applied db lockHeld ⟨.record file rest, some tx⟩ after next := by
  rcases written with ⟨fresh, locked, _, executed⟩
  split_ifs at ran
  · cases ran
    exact quiet_within rfl trivial trivial
  · cases ran
    exact quiet_within rfl place ⟨fresh, locked, rfl, executed⟩

theorem run_effect (recorded : db.recorded = applied.map Migration.key)
    (initial : applied <+: listedFiles directory) (sound : CallSound directory applied call)
    (ran : runStatement directory db lockHeld call = some (after, next)) :
    Effect directory applied db lockHeld call after next := by
  rcases call with ⟨stage, tx⟩
  have place := sound.stage
  have written := sound.tx
  dsimp only at place written
  unfold runStatement at ran
  dsimp only at ran
  split at ran
  · cases ran
    exact quiet_beside start_sound start_free
  · cases ran
    rcases place with ⟨done, files, passed⟩
    rw [List.append_nil] at files
    exact quiet_beside ⟨done, files, passed⟩ fun _ => trivial
  · cases ran
    exact quiet_beside place fun _ => trivial
  · cases ran
    apply Effect.quiet rfl rfl
    · refine ⟨place, ?_⟩
      intro other same
      cases same
      exact rfl
    · intro held
      cases held
  · split_ifs at ran with held
    cases ran
    exact lock_effect place (written _ rfl) (Bool.eq_false_iff.mpr held)
  · cases ran
    apply quiet_within
    · rfl
    · exact place
    · rw [written _ rfl]
      exact rfl
  · exact check_effect recorded initial place (written _ rfl) ran
  · cases ran
    apply finish_check_effect (written _ rfl)
    rcases place with ⟨done, files, passed⟩
    exact ⟨done ++ [_], by rw [List.append_assoc]; exact files, passed⟩
  · cases ran
    exact execute_effect place (written _ rfl)
  · cases ran
    rcases written _ rfl with ⟨fresh, locked, nothing, executed⟩
    rw [List.map_nil, List.append_nil] at executed
    exact quiet_within rfl place ⟨fresh, locked, nothing, executed⟩
  · exact record_effect place (written _ rfl) ran
  · cases ran
    apply commit_effect initial place (written _ rfl)
    intro files
    exact ⟨applied ++ [_], by rw [List.append_assoc]; exact files, List.prefix_rfl⟩
  · cases ran
    exact quiet_without trivial
  · cases ran

theorem fail_effect (failed : failStatement directory call = some next) :
    Effect directory applied db lockHeld call db next := by
  rcases call with ⟨stage, tx⟩
  unfold failStatement at failed
  dsimp only at failed
  split at failed
  case h_12 => cases failed
  all_goals
      cases failed
      exact quiet_beside trivial fun _ => trivial

theorem lost_commit_effect (initial : applied <+: listedFiles directory)
    (sound : CallSound directory applied call) (lost : lostCommit db call = some (after, next)) :
    Effect directory applied db lockHeld call after next := by
  rcases call with ⟨stage, tx⟩
  have place := sound.stage
  have written := sound.tx
  dsimp only at place written
  unfold lostCommit at lost
  dsimp only at lost
  split at lost
  · cases lost
    exact finish_check_effect (written _ rfl) trivial
  · cases lost
    exact commit_effect initial place (written _ rfl) fun _ => trivial
  · cases lost

theorem move_effect {move : Move} (recorded : db.recorded = applied.map Migration.key)
    (initial : applied <+: listedFiles directory) (sound : CallSound directory applied call)
    (moved : moveEffect directory db lockHeld call move = some (after, next)) :
    Effect directory applied db lockHeld call after next := by
  cases move with
  | run => exact run_effect recorded initial sound moved
  | fail =>
      rcases Option.map_eq_some_iff.mp moved with ⟨failed, found, same⟩
      cases same
      exact fail_effect found
  | loseCommit => exact lost_commit_effect initial sound moved
  | abort =>
      rw [moveEffect] at moved
      split_ifs at moved
      cases moved
      exact quiet_without sound.stage
  | crash =>
      cases moved
      exact quiet_beside trivial fun _ => trivial

end Calls

section System

variable {Runner : Type} {directory : Directory} {applied : List Migration}
  {state after : State Runner}

structure MigrationsSound (directory : Directory) (state : State Runner)
    (applied : List Migration) : Prop where
  initial : applied <+: listedFiles directory
  recorded : state.db.recorded = applied.map Migration.key
  executed : state.db.executed = applied.flatMap tagged
  calls : ∀ runner, CallSound directory applied (state.calls runner)
  exclusive : ∀ left right, (state.calls left).holdsLock = true →
    (state.calls right).holdsLock = true → left = right

theorem initial_migrations_sound :
    MigrationsSound directory (initial : State Runner) [] where
  initial := List.nil_prefix
  recorded := rfl
  executed := rfl
  calls := fun _ => ⟨trivial, fun _ opened => by cases opened⟩
  exclusive := by
    intro left right held
    cases held

/-- A commit of the one that holds the lock changes nothing for the others. -/
theorem other_call_grows {call : Call} (file : Migration) (sound : CallSound directory applied call)
    (unlocked : call.holdsLock = false) : CallSound directory (applied ++ [file]) call where
  stage := stage_sound_grows file sound.stage
  tx := by
    intro tx opened
    apply tx_sound_unlocked _ (sound.tx tx opened)
    rw [Call.holdsLock, opened] at unlocked
    exact unlocked

variable [DecidableEq Runner]

theorem calls_update {runner : Runner} {next : Call} {now : List Migration}
    (own : CallSound directory now next)
    (others : ∀ other, other ≠ runner → CallSound directory now (state.calls other))
    (other : Runner) : CallSound directory now (Function.update state.calls runner next other) := by
  by_cases same : other = runner
  · rw [same, Function.update_self]
    exact own
  · rw [Function.update_of_ne same]
    exact others other same

variable [Fintype Runner]

theorem lock_free_iff {runner : Runner} :
    lockHeldByOther state.calls runner = false ↔
      ∀ other, other ≠ runner → (state.calls other).holdsLock = false := by
  rw [lockHeldByOther, decide_eq_false_iff_not]
  constructor
  · intro free other differ
    exact Bool.eq_false_iff.mpr fun held => free ⟨other, differ, held⟩
  · rintro free ⟨other, differ, held⟩
    rw [free other differ] at held
    cases held

/-- Nobody takes the lock from another one. -/
theorem exclusive_update {runner : Runner} {next : Call}
    (exclusive : ∀ left right, (state.calls left).holdsLock = true →
      (state.calls right).holdsLock = true → left = right)
    (lock : next.holdsLock = true → (state.calls runner).holdsLock = true ∨
      lockHeldByOther state.calls runner = false) (left right : Runner)
    (leftHeld : (Function.update state.calls runner next left).holdsLock = true)
    (rightHeld : (Function.update state.calls runner next right).holdsLock = true) :
    left = right := by
  have alone {other : Runner} (differ : other ≠ runner)
      (held : (state.calls other).holdsLock = true) : next.holdsLock = false := by
    apply Bool.eq_false_iff.mpr
    intro taken
    rcases lock taken with before | free
    · exact differ (exclusive other runner held before)
    · rw [lock_free_iff.mp free other differ] at held
      cases held
  by_cases leftSame : left = runner
  · by_cases rightSame : right = runner
    · rw [leftSame, rightSame]
    · rw [leftSame, Function.update_self] at leftHeld
      rw [Function.update_of_ne rightSame] at rightHeld
      rw [alone rightSame rightHeld] at leftHeld
      cases leftHeld
  · rw [Function.update_of_ne leftSame] at leftHeld
    by_cases rightSame : right = runner
    · rw [rightSame, Function.update_self, alone leftSame leftHeld] at rightHeld
      cases rightHeld
    · rw [Function.update_of_ne rightSame] at rightHeld
      exact exclusive left right leftHeld rightHeld

theorem effect_sound {runner : Runner} {db : Database} {next : Call}
    (sound : MigrationsSound directory state applied)
    (effect : Effect directory applied state.db (lockHeldByOther state.calls runner)
      (state.calls runner) db next) :
    ∃ now, MigrationsSound directory ⟨db, Function.update state.calls runner next⟩ now := by
  cases effect with
  | quiet recorded executed fine lock =>
      exact ⟨applied, sound.initial, recorded.trans sound.recorded,
        executed.trans sound.executed, calls_update fine fun other _ => sound.calls other,
        exclusive_update sound.exclusive lock⟩
  | commits file held listed recorded executed fine ended =>
      have others : ∀ other, other ≠ runner →
          CallSound directory (applied ++ [file]) (state.calls other) := by
        intro other differ
        apply other_call_grows file (sound.calls other)
        apply Bool.eq_false_iff.mpr
        intro theirs
        exact differ (sound.exclusive other runner theirs held)
      refine ⟨applied ++ [file], listed, ?_, ?_, calls_update fine others,
        exclusive_update sound.exclusive fun _ => .inl held⟩
      · rw [recorded, sound.recorded, List.map_append, List.map_singleton]
      · rw [executed, sound.executed, List.flatMap_append, List.flatMap_singleton]

theorem step_migrations_sound {action : Action Runner}
    (sound : MigrationsSound directory state applied)
    (stepped : step directory state action = some after) :
    ∃ now, MigrationsSound directory after now := by
  rcases Option.map_eq_some_iff.mp stepped with ⟨⟨db, next⟩, moved, rfl⟩
  exact effect_sound sound
    (move_effect sound.recorded sound.initial (sound.calls action.runner) moved)

theorem reachable_migrations_sound {allowed : State Runner → Action Runner → Prop}
    (reached : Reachable (step directory) allowed initial state) :
    ∃ applied, MigrationsSound directory state applied := by
  apply reachable_invariant (fun state => ∃ applied, MigrationsSound directory state applied)
    ⟨[], initial_migrations_sound⟩ _ reached
  rintro before action next ⟨applied, sound⟩ _ stepped
  exact step_migrations_sound sound stepped

/-- The rows of `message_schema_migrations` are those of the first migrations of
the sorted list, the statements committed are exactly theirs, each once and in
order, and when a call has returned nil every up migration is recorded. -/
theorem migrations_recorded_in_order (directory : Directory) (state : State Runner)
    (reached : Reachable (step directory) anyStep initial state) :
    ∃ applied, applied <+: listedFiles directory ∧
      state.db.recorded = applied.map Migration.key ∧
      state.db.executed = applied.flatMap tagged ∧
      ∀ runner, (state.calls runner).stage = .returned none →
        ∀ entry ∈ directory.entries, isUpMigration entry = true →
          ∃ version, migrationVersion entry.name = .ok version ∧
            (version, entry.name) ∈ state.db.recorded := by
  rcases reachable_migrations_sound reached with ⟨applied, sound⟩
  refine ⟨applied, sound.initial, sound.recorded, sound.executed, ?_⟩
  intro runner returned entry member isUp
  have passed := (sound.calls runner).stage
  rw [returned] at passed
  rcases passed with ⟨files, accepted, all⟩
  rcases (migrations_listed accepted).present entry member isUp with ⟨file, listed, name, _⟩
  refine ⟨file.version, name ▸ file.named, ?_⟩
  rw [sound.recorded, ← name]
  exact List.mem_map_of_mem (all.subset listed)

def firstStatements : Bytes := ascii "CREATE TABLE rooms (id TEXT); CREATE TABLE users (id TEXT);"

/-- A first migration of two statements, and a second one. -/
def sampleDirectory : Directory :=
  ⟨ascii "migrations", [⟨ascii "000001_rooms.down.sql", false, ascii "DROP TABLE rooms"⟩,
    ⟨ascii "000001_rooms.up.sql", false, firstStatements⟩,
    ⟨ascii "000002_posts.up.sql", false, ascii "CREATE TABLE posts (id TEXT)"⟩]⟩

def instanceRuns (runner : Bool) (count : Nat) : List (Action Bool) :=
  List.replicate count ⟨runner, .run⟩

/-- One instance dies in the second statement of the first migration; the other one
gets the lock when the server has dropped its transaction, and applies both. -/
def crashedInstance : List (Action Bool) :=
  instanceRuns false 7 ++ instanceRuns true 3 ++ [⟨false, .crash⟩, ⟨false, .abort⟩] ++
    instanceRuns true 18

theorem crashed_instance_recorded :
    ∃ state : State Bool, Reachable (step sampleDirectory) anyStep initial state ∧
      (state.calls true).stage = .returned none ∧
      state.db.recorded.map Prod.fst = [1, 2] ∧ state.db.executed.length = 3 ∧
      ∃ applied, applied <+: listedFiles sampleDirectory ∧
        state.db.executed = applied.flatMap tagged := by
  have ends : (runActions (step sampleDirectory) anyStep initial crashedInstance).any
      (fun state => (state.calls true).stage = .returned none ∧
        state.db.recorded.map Prod.fst = [1, 2] ∧ state.db.executed.length = 3) = true := by
    decide +kernel
  rcases (Option.any_eq_true _ _).mp ends with ⟨state, ran, checked⟩
  have facts := of_decide_eq_true checked
  have reached := reachable_run_actions reachable_start ran
  rcases migrations_recorded_in_order sampleDirectory state reached with
    ⟨applied, initial, _, executed, _⟩
  exact ⟨state, reached, facts.1, facts.2.1, facts.2.2, applied, initial, executed⟩

end System

end ChatScale.MigrationRuns
