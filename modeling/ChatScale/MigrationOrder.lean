import ChatScale.MigrationRuns
import Mathlib.Data.List.Pairwise

/-!
# The order in which migrations are applied

One instance on an empty database whose statements all succeed. It comes to an
end and applies every file, in the order of the names. That is the order of the
versions exactly if a smaller version always has the smaller name, which numbers
of different widths need not: `10_` stands before `9_`.
-/

namespace ChatScale.MigrationOrder

open ChatScale.ByteText ChatScale.MigrationFiles ChatScale.MigrationModel
open ChatScale.MigrationRuns ChatScale.TransitionSystem

set_option autoImplicit false

/-- Every statement succeeds. -/
def succeeds : State Unit → Action Unit → Prop := fun _ action => action.move = .run

instance (state : State Unit) (action : Action Unit) : Decidable (succeeds state action) :=
  inferInstanceAs (Decidable (action.move = .run))

/-- The state of the database and of the one call. -/
def lone (db : Database) (call : Call) : State Unit := ⟨db, fun _ => call⟩

/-- The states of a run in which nothing fails. -/
def Succeeding (directory : Directory) (state : State Unit) : Prop :=
  Reachable (step directory) succeeds initial state

section LoneRun

variable {directory : Directory}

theorem lone_lock_free (calls : Unit → Call) : lockHeldByOther calls () = false := by
  apply decide_eq_false
  intro held
  rcases held with ⟨other, apart, _⟩
  exact apart rfl

/-- One statement of the lone call, which never waits for the lock. -/
theorem succeeding_step {db after : Database} {call next : Call}
    (reached : Succeeding directory (lone db call))
    (ran : runStatement directory db false call = some (after, next)) :
    Succeeding directory (lone after next) := by
  have stepped : step directory (lone db call) ⟨(), .run⟩ = some (lone after next) := by
    rw [step, lone_lock_free]
    change (runStatement directory db false call).map _ = _
    rw [ran]
    exact congrArg (fun calls => some (State.mk after calls)) (funext fun _ => rfl)
  have runs : succeeds (lone db call) ⟨(), .run⟩ := rfl
  exact reachable_step reached runs stepped

theorem check_statement (db : Database) (file : Migration) (rest : List Migration)
    (tx : Transaction) :
    runStatement directory db false ⟨.check file rest, some tx⟩ =
      if isRecorded db file.version then some (db, ⟨.finishCheck file rest, some tx⟩)
      else some (db, ⟨.execute file file.statements rest, some tx⟩) := rfl

theorem record_statement (db : Database) (file : Migration) (rest : List Migration)
    (tx : Transaction) :
    runStatement directory db false ⟨.record file rest, some tx⟩ =
      if isRecorded db file.version then some (db, ⟨.closing (.record file.name), some tx⟩)
      else some (db, ⟨.commit file rest, some { tx with recorded := some file.key }⟩) := rfl

/-- The statements of a migration are executed one after another. -/
theorem execute_all {db : Database} {file : Migration} {rest : List Migration}
    (remaining : List Bytes) (tx : Transaction)
    (reached : Succeeding directory (lone db ⟨.execute file remaining rest, some tx⟩)) :
    ∃ after, Succeeding directory (lone db ⟨.record file rest, some after⟩) := by
  induction remaining generalizing tx with
  | nil => exact ⟨tx, succeeding_step reached rfl⟩
  | cons statement remaining induction => exact induction _ (succeeding_step reached rfl)

/-- A file that is reached is passed. -/
theorem pass_file {db : Database} {file : Migration} {rest : List Migration}
    (reached : Succeeding directory (lone db ⟨.next (file :: rest), none⟩)) :
    ∃ after, Succeeding directory (lone after ⟨.next rest, none⟩) := by
  have begun := succeeding_step (succeeding_step reached rfl) rfl
  have locked := succeeding_step begun rfl
  have checking := succeeding_step locked rfl
  by_cases known : isRecorded db file.version = true
  · have checked := succeeding_step checking ((check_statement _ _ _ _).trans (if_pos known))
    exact ⟨_, succeeding_step checked rfl⟩
  · have checked := succeeding_step checking ((check_statement _ _ _ _).trans (if_neg known))
    rcases execute_all file.statements _ checked with ⟨tx, executed⟩
    have recorded := succeeding_step executed ((record_statement _ _ _ _).trans (if_neg known))
    exact ⟨_, succeeding_step recorded rfl⟩

theorem pass_files (rest : List Migration) (db : Database)
    (reached : Succeeding directory (lone db ⟨.next rest, none⟩)) :
    ∃ after, Succeeding directory (lone after ⟨.returned none, none⟩) := by
  induction rest generalizing db with
  | nil => exact ⟨db, succeeding_step reached rfl⟩
  | cons file rest induction =>
      rcases pass_file reached with ⟨after, passed⟩
      exact induction after passed

/-- An accepted directory on which every statement succeeds is migrated. -/
theorem lone_run_returns {files : List Migration} (accepted : directory.migrations = .ok files) :
    ∃ db, Succeeding directory (lone db ⟨.returned none, none⟩) := by
  have start : Succeeding directory (lone emptyDatabase newCall) := reachable_start
  have listed : Succeeding directory (lone emptyDatabase ⟨.next files, none⟩) := by
    apply succeeding_step start
    change some (emptyDatabase, Call.mk (startCall directory) none) = _
    rw [startCall, accepted]
  exact pass_files files emptyDatabase listed

/-- A call that has returned nil has applied every file, in the order of the list. -/
theorem returned_applied_all {state : State Unit} {files : List Migration}
    (accepted : directory.migrations = .ok files) (reached : Succeeding directory state)
    (returned : (state.calls ()).stage = .returned none) :
    state.db.recorded = files.map Migration.key := by
  have anyRun : Reachable (step directory) anyStep initial state :=
    reachable_weaken (fun _ _ _ => trivial) reached
  rcases reachable_migrations_sound anyRun with ⟨applied, sound⟩
  have passed := (sound.calls ()).stage
  rw [returned] at passed
  rcases passed with ⟨others, again, all⟩
  cases accepted.symm.trans again
  have shorter := sound.initial
  rw [listed_of_accepted accepted] at shorter
  rw [sound.recorded, shorter.eq_of_length_le all.length_le]

end LoneRun

section Orders

/-- The entry of a smaller version has the smaller name. -/
def NamesFollowVersions (directory : Directory) : Prop :=
  ∀ left ∈ directory.entries, ∀ right ∈ directory.entries,
    isUpMigration left = true → isUpMigration right = true →
    ∀ smaller larger, migrationVersion left.name = .ok smaller →
      migrationVersion right.name = .ok larger → smaller < larger → left.name < right.name

theorem migrations_sorted {directory : Directory} {files : List Migration}
    (accepted : directory.migrations = .ok files) : files.Pairwise byName := by
  rcases migrations_loop accepted with ⟨unsorted, _, rfl⟩
  have total : Std.Total byName := ⟨fun left right => List.le_total left.name right.name⟩
  have transitive : IsTrans Migration byName := ⟨fun _ _ _ => List.le_trans⟩
  exact List.pairwise_insertionSort byName unsorted

/-- Two versions of one name are equal. -/
theorem version_of_name {left right : Migration} (same : left.name = right.name) :
    left.version = right.version := by
  have named := left.named
  rw [same, right.named] at named
  exact (Except.ok.inj named).symm

theorem names_follow_versions_iff {directory : Directory} {files : List Migration}
    (accepted : directory.migrations = .ok files) :
    NamesFollowVersions directory ↔
      ∀ left ∈ files, ∀ right ∈ files, left.version < right.version → left.name < right.name := by
  have known := migrations_listed accepted
  constructor
  · intro follow left leftListed right rightListed smaller
    rcases known.listed left leftListed with ⟨first, firstEntry, firstUp, firstName, _⟩
    rcases known.listed right rightListed with ⟨second, secondEntry, secondUp, secondName, _⟩
    rw [firstName, secondName]
    exact follow first firstEntry second secondEntry firstUp secondUp _ _
      (firstName ▸ left.named) (secondName ▸ right.named) smaller
  · intro follow first firstEntry second secondEntry firstUp secondUp smaller larger
      firstVersion secondVersion less
    rcases known.present first firstEntry firstUp with ⟨left, leftListed, leftName, _⟩
    rcases known.present second secondEntry secondUp with ⟨right, rightListed, rightName, _⟩
    rw [← leftName, left.named] at firstVersion
    rw [← rightName, right.named] at secondVersion
    cases firstVersion
    cases secondVersion
    rw [← leftName, ← rightName]
    exact follow left leftListed right rightListed less

/-- The two orders do not contradict each other on two files. -/
def Agree (left right : Migration) : Prop :=
  (left.version < right.version → left.name < right.name) ∧
    (right.version < left.version → right.name < left.name)

/-- Files sorted by their names are sorted by their versions exactly if the two
orders agree on them. -/
theorem sorted_versions_iff {files : List Migration} (sorted : files.Pairwise byName)
    (distinct : (files.map Migration.version).Nodup) :
    (files.map Migration.version).Pairwise (· < ·) ↔
      ∀ left ∈ files, ∀ right ∈ files, left.version < right.version →
        left.name < right.name := by
  constructor
  · intro increasing left leftListed right rightListed smaller
    have both := sorted.and (List.pairwise_map.mp increasing)
    have agree : files.Pairwise Agree := by
      apply both.imp
      intro first second known
      have apart : first.name ≠ second.name := by
        intro same
        exact absurd (version_of_name same) known.2.ne
      refine ⟨?_, ?_⟩
      · intro _
        apply List.not_le.mp
        intro above
        exact apart (List.le_antisymm known.1 above)
      · intro more
        exact absurd more known.2.not_gt
    have symmetric : Std.Symm Agree := ⟨fun _ _ known => ⟨known.2, known.1⟩⟩
    have self : ∀ file ∈ files, Agree file file := by
      intro file _
      exact ⟨fun less => absurd less (lt_irrefl _), fun less => absurd less (lt_irrefl _)⟩
    exact (agree.forall_of_forall self leftListed rightListed).1 smaller
  · intro follow
    apply List.pairwise_map.mpr
    have apart := List.pairwise_map.mp distinct
    apply (sorted.and apart).imp_of_mem
    intro first second firstListed secondListed known
    rcases lt_trichotomy first.version second.version with less | same | more
    · exact less
    · exact absurd same known.2
    · exact absurd (follow second secondListed first firstListed more) (List.not_lt.mpr known.1)

end Orders

section VersionOrder

/-- The run of an accepted directory on an empty database ends, and what it applied
is in the order of the versions exactly if the names are. -/
theorem applied_in_version_order_iff (directory : Directory) (files : List Migration)
    (accepted : directory.migrations = .ok files) :
    (∃ state, Succeeding directory state ∧ (state.calls ()).stage = .returned none) ∧
      ∀ state, Succeeding directory state → (state.calls ()).stage = .returned none →
        ((state.db.recorded.map Prod.fst).Pairwise (· < ·) ↔ NamesFollowVersions directory) := by
  refine ⟨?_, ?_⟩
  · rcases lone_run_returns accepted with ⟨db, reached⟩
    exact ⟨_, reached, rfl⟩
  · intro state reached returned
    have versions : state.db.recorded.map Prod.fst = files.map Migration.version := by
      rw [returned_applied_all accepted reached returned, List.map_map]
      exact List.map_congr_left fun _ _ => rfl
    rw [versions, names_follow_versions_iff accepted]
    exact sorted_versions_iff (migrations_sorted accepted) (migrations_listed accepted).distinct

theorem padded_names_follow : NamesFollowVersions sampleDirectory := by
  have checked : ∀ left ∈ sampleDirectory.entries, ∀ right ∈ sampleDirectory.entries,
      (match migrationVersion left.name, migrationVersion right.name with
        | .ok smaller, .ok larger => decide (smaller < larger → left.name < right.name)
        | _, _ => true) = true := by
    decide +kernel
  intro left leftListed right rightListed _ _ smaller larger leftVersion rightVersion less
  have follows := checked left leftListed right rightListed
  rw [leftVersion, rightVersion] at follows
  exact of_decide_eq_true follows less

/-- Names whose numbers have the same width. -/
theorem padded_directory_in_order :
    ∃ state, Succeeding sampleDirectory state ∧ (state.calls ()).stage = .returned none ∧
      (state.db.recorded.map Prod.fst).Pairwise (· < ·) := by
  have listed : sampleDirectory.migrations.toOption.isSome = true := by decide +kernel
  cases accepted : sampleDirectory.migrations with
  | error reason =>
      rw [accepted] at listed
      cases listed
  | ok files =>
      rcases applied_in_version_order_iff sampleDirectory files accepted with ⟨ends, order⟩
      rcases ends with ⟨state, reached, returned⟩
      exact ⟨state, reached, returned, (order state reached returned).mpr padded_names_follow⟩

/-- A ninth and a tenth migration whose numbers are not padded. -/
def unpaddedDirectory : Directory :=
  ⟨ascii "migrations", [⟨ascii "9_rooms.up.sql", false, ascii "CREATE TABLE rooms (id TEXT)"⟩,
    ⟨ascii "10_posts.up.sql", false, ascii "ALTER TABLE rooms ADD posts INT"⟩]⟩

/-- The tenth migration is applied before the ninth. -/
theorem tenth_before_ninth :
    ∃ state, Succeeding unpaddedDirectory state ∧ (state.calls ()).stage = .returned none ∧
      state.db.recorded.map Prod.fst = [10, 9] ∧
      ¬ (state.db.recorded.map Prod.fst).Pairwise (· < ·) := by
  have ends : (runActions (step unpaddedDirectory) succeeds initial
      (List.replicate 20 ⟨(), .run⟩)).any (fun state => (state.calls ()).stage = .returned none ∧
        state.db.recorded.map Prod.fst = [10, 9]) = true := by
    decide +kernel
  rcases (Option.any_eq_true _ _).mp ends with ⟨state, ran, checked⟩
  have facts := of_decide_eq_true checked
  refine ⟨state, reachable_run_actions reachable_start ran, facts.1, facts.2, ?_⟩
  rw [facts.2]
  decide

end VersionOrder

end ChatScale.MigrationOrder
