import ChatScale.MigrationFiles
import ChatScale.TransitionSystem
import Mathlib.Data.Fintype.Basic
import Mathlib.Data.Fintype.Sets
import Mathlib.Logic.Function.Basic

/-!
# Running the migrations

`RunMigrations` of any number of instances against one database under READ
COMMITTED. Each migration has its own transaction, which takes the advisory
lock, looks whether the version is recorded, and otherwise executes the
statements and records the version. The lock is held until the transaction
ends. A transaction keeps what it has written to itself until it commits. Every
statement may fail, the server may drop a transaction at any time, the reply to
a commit may be lost after the commit took effect, and an instance may die
anywhere; what its transaction holds then stays held until the server drops it.
-/

namespace ChatScale.MigrationModel

open ChatScale.ByteText ChatScale.MigrationFiles ChatScale.TransitionSystem

set_option autoImplicit false

/-- "read migration", "begin migration", "lock migrations", "create migration
table", "check migration", "finish migration check", "apply migration", "record
migration" and "commit migration". -/
inductive MigrationError where
  | listing (error : ListingError)
  | read (name : Bytes)
  | begin (name : Bytes)
  | lock
  | createTable
  | check (name : Bytes)
  | finishCheck (name : Bytes)
  | apply (name : Bytes)
  | record (name : Bytes)
  | commit (name : Bytes)
  deriving DecidableEq

/-- The committed state: whether `message_schema_migrations` exists, its rows, and
the statements of migrations that were committed, with the version of the
migration each belongs to, in the order of their execution. -/
structure Database where
  created : Bool
  recorded : List (Int × Bytes)
  executed : List (Int × Bytes)
  deriving DecidableEq

/-- What an open transaction has done. -/
structure Transaction where
  locked : Bool
  created : Bool
  executed : List (Int × Bytes)
  recorded : Option (Int × Bytes)
  deriving DecidableEq

def emptyDatabase : Database := ⟨false, [], []⟩

def emptyTransaction : Transaction := ⟨false, false, [], none⟩

def applyTransaction (db : Database) (tx : Transaction) : Database where
  created := db.created || tx.created
  recorded := db.recorded ++ tx.recorded.toList
  executed := db.executed ++ tx.executed

/-- The next statement of a call. `file` is the migration it is at and `rest` those
after it; `closing` is the deferred rollback, and `none` is the nil error. -/
inductive Stage where
  | start
  | next (rest : List Migration)
  | begin (file : Migration) (rest : List Migration)
  | lock (file : Migration) (rest : List Migration)
  | createTable (file : Migration) (rest : List Migration)
  | check (file : Migration) (rest : List Migration)
  | finishCheck (file : Migration) (rest : List Migration)
  | execute (file : Migration) (remaining : List Bytes) (rest : List Migration)
  | record (file : Migration) (rest : List Migration)
  | commit (file : Migration) (rest : List Migration)
  | closing (error : MigrationError)
  | returned (error : Option MigrationError)
  | dead
  deriving DecidableEq

/-- A call and, on the server, its open transaction. -/
structure Call where
  stage : Stage
  tx : Option Transaction
  deriving DecidableEq

def newCall : Call := ⟨.start, none⟩

def startCall (directory : Directory) : Stage :=
  match directory.migrations with
  | .error error => .returned (some (.listing error))
  | .ok files => .next files

/-- The versions that a `SELECT` sees. -/
def isRecorded (db : Database) (version : Int) : Bool :=
  db.recorded.any fun row => row.1 == version

/-- The next statement of a call; `none` when it has to wait, when its transaction
is gone, and when there is none. `lockHeld` says whether another transaction
holds the advisory lock. -/
def runStatement (directory : Directory) (db : Database) (lockHeld : Bool) (call : Call) :
    Option (Database × Call) :=
  match call.stage, call.tx with
  | .start, tx => some (db, ⟨startCall directory, tx⟩)
  | .next [], tx => some (db, ⟨.returned none, tx⟩)
  | .next (file :: rest), tx => some (db, ⟨.begin file rest, tx⟩)
  | .begin file rest, _ => some (db, ⟨.lock file rest, some emptyTransaction⟩)
  | .lock file rest, some tx =>
      if lockHeld then none
      else some (db, ⟨.createTable file rest, some { tx with locked := true }⟩)
  | .createTable file rest, some tx =>
      some (db, ⟨.check file rest, some { tx with created := true }⟩)
  | .check file rest, some tx =>
      if isRecorded db file.version then some (db, ⟨.finishCheck file rest, some tx⟩)
      else some (db, ⟨.execute file file.statements rest, some tx⟩)
  | .finishCheck _ rest, some tx => some (applyTransaction db tx, ⟨.next rest, none⟩)
  | .execute file (statement :: remaining) rest, some tx =>
      some (db, ⟨.execute file remaining rest,
        some { tx with executed := tx.executed ++ [(file.version, statement)] }⟩)
  | .execute file [] rest, some tx => some (db, ⟨.record file rest, some tx⟩)
  | .record file rest, some tx =>
      -- The version is the primary key.
      if isRecorded db file.version then some (db, ⟨.closing (.record file.name), some tx⟩)
      else some (db, ⟨.commit file rest, some { tx with recorded := some file.key }⟩)
  | .commit _ rest, some tx => some (applyTransaction db tx, ⟨.next rest, none⟩)
  | .closing error, _ => some (db, ⟨.returned (some error), none⟩)
  | _, _ => none

/-- How a call goes on after a statement that fails for a reason of its own. The
error of the rollback is ignored. -/
def failStatement (directory : Directory) (call : Call) : Option Call :=
  match call.stage with
  | .start => some ⟨.returned (some (.listing (.readDirectory directory.path))), call.tx⟩
  | .next (file :: _) => some ⟨.returned (some (.read file.name)), call.tx⟩
  | .begin file _ => some ⟨.returned (some (.begin file.name)), call.tx⟩
  | .lock _ _ => some ⟨.closing .lock, call.tx⟩
  | .createTable _ _ => some ⟨.closing .createTable, call.tx⟩
  | .check file _ => some ⟨.closing (.check file.name), call.tx⟩
  | .finishCheck file _ => some ⟨.closing (.finishCheck file.name), call.tx⟩
  | .execute file _ _ => some ⟨.closing (.apply file.name), call.tx⟩
  | .record file _ => some ⟨.closing (.record file.name), call.tx⟩
  | .commit file _ => some ⟨.closing (.commit file.name), call.tx⟩
  | .closing error => some ⟨.returned (some error), call.tx⟩
  | _ => none

/-- The error of a commit whose reply is lost. -/
def lostCommit (db : Database) (call : Call) : Option (Database × Call) :=
  match call.stage, call.tx with
  | .finishCheck file _, some tx =>
      some (applyTransaction db tx, ⟨.closing (.finishCheck file.name), none⟩)
  | .commit file _, some tx => some (applyTransaction db tx, ⟨.closing (.commit file.name), none⟩)
  | _, _ => none

inductive Move where
  | run
  | fail
  | loseCommit
  | abort
  | crash
  deriving DecidableEq

def moveEffect (directory : Directory) (db : Database) (lockHeld : Bool) (call : Call) :
    Move → Option (Database × Call)
  | .run => runStatement directory db lockHeld call
  | .fail => (failStatement directory call).map fun call => (db, call)
  | .loseCommit => lostCommit db call
  | .abort => if call.tx.isSome then some (db, { call with tx := none }) else none
  | .crash => some (db, { call with stage := .dead })

structure State (Runner : Type) where
  db : Database
  calls : Runner → Call

structure Action (Runner : Type) where
  runner : Runner
  move : Move

variable {Runner : Type} [Fintype Runner] [DecidableEq Runner]

def initial : State Runner := ⟨emptyDatabase, fun _ => newCall⟩

def Call.holdsLock (call : Call) : Bool := call.tx.any Transaction.locked

def lockHeldByOther (calls : Runner → Call) (runner : Runner) : Bool :=
  decide (∃ other, other ≠ runner ∧ (calls other).holdsLock = true)

def step (directory : Directory) (state : State Runner) (action : Action Runner) :
    Option (State Runner) :=
  (moveEffect directory state.db (lockHeldByOther state.calls action.runner)
    (state.calls action.runner) action.move).map fun effect =>
      ⟨effect.1, Function.update state.calls action.runner effect.2⟩

end ChatScale.MigrationModel
