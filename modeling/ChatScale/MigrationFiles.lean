import ChatScale.ByteEncodings
import Mathlib.Data.List.Sort

/-!
# Migration files

`RunMigrations` takes the `*.up.sql` files of a directory. The version of a file
is the number before the first underscore of its name; no two files may share
one. The files are then sorted by their names, as texts.
-/

namespace ChatScale.MigrationFiles

open ChatScale.ByteText ChatScale.ByteEncodings

set_option autoImplicit false

/-- An entry of the directory, with what `ReadFile` gives for it. -/
structure DirEntry where
  name : Bytes
  isDir : Bool
  contents : Bytes

structure Directory where
  path : Bytes
  entries : List DirEntry

/-- "migration directory is required", "read migration directory", "migration name
must start with a numeric version and underscore", "migration name has invalid
version", "migrations share version" and "no up migrations found". -/
inductive ListingError where
  | directoryRequired
  | readDirectory (path : Bytes)
  | noVersion (name : Bytes)
  | invalidVersion (name : Bytes)
  | sharedVersion (previous name : Bytes) (version : Int)
  | noMigrations (path : Bytes)
  deriving DecidableEq

def underscore : UInt8 := 0x5F

def semicolon : UInt8 := 0x3B

def upSuffix : Bytes := ascii ".up.sql"

def isUpMigration (entry : DirEntry) : Bool := !entry.isDir && upSuffix.isSuffixOf entry.name

def migrationVersion (name : Bytes) : Except ListingError Int :=
  if name.contains underscore then
    match parseInt64 (name.takeWhile fun byte => byte != underscore) with
    | none => .error (.invalidVersion name)
    | some version => if version < 1 then .error (.invalidVersion name) else .ok version
  else .error (.noVersion name)

/-- A file of the list, with the version of its name. -/
structure Migration where
  version : Int
  name : Bytes
  contents : Bytes
  named : migrationVersion name = .ok version
  deriving DecidableEq

/-- What `message_schema_migrations` keeps of a migration. -/
def Migration.key (migration : Migration) : Int × Bytes := (migration.version, migration.name)

/-- The texts between the semicolons, without the empty ones. -/
def Migration.statements (migration : Migration) : List Bytes :=
  ((migration.contents.splitOn semicolon).map trimSpace).filter fun statement => statement != []

/-- The loop over the entries. -/
def addEntry (files : List Migration) (entry : DirEntry) : Except ListingError (List Migration) :=
  if isUpMigration entry then
    match named : migrationVersion entry.name with
    | .error error => .error error
    | .ok version =>
        match files.find? fun file => file.version == version with
        | some previous => .error (.sharedVersion previous.name entry.name version)
        | none => .ok (files ++ [⟨version, entry.name, entry.contents, named⟩])
  else .ok files

def byName (left right : Migration) : Prop := left.name ≤ right.name

instance : DecidableRel byName :=
  fun left right => inferInstanceAs (Decidable (left.name ≤ right.name))

/-- The migrations in the order in which `RunMigrations` takes them. -/
def Directory.migrations (directory : Directory) : Except ListingError (List Migration) :=
  if isBlank directory.path then .error .directoryRequired
  else
    match directory.entries.foldlM addEntry [] with
    | .error error => .error error
    | .ok files =>
        if files = [] then .error (.noMigrations directory.path)
        else .ok (files.insertionSort byName)

section Listing

/-- What the loop keeps: no two versions are equal, and the files are those of the
entries it has seen. -/
structure Listed (entries : List DirEntry) (files : List Migration) : Prop where
  distinct : (files.map Migration.version).Nodup
  present : ∀ entry ∈ entries, isUpMigration entry = true →
    ∃ file ∈ files, file.name = entry.name ∧ file.contents = entry.contents
  listed : ∀ file ∈ files, ∃ entry ∈ entries, isUpMigration entry = true ∧
    file.name = entry.name ∧ file.contents = entry.contents

theorem add_entry_listed {entries : List DirEntry} {files after : List Migration}
    {entry : DirEntry} (known : Listed entries files) (added : addEntry files entry = .ok after) :
    Listed (entries ++ [entry]) after := by
  unfold addEntry at added
  split_ifs at added with up
  · split at added
    · cases added
    · rename_i version named
      split at added
      · cases added
      · rename_i fresh
        cases added
        have unknown : version ∉ files.map Migration.version := by
          intro listed
          rcases List.mem_map.mp listed with ⟨file, member, same⟩
          have apart := List.find?_eq_none.mp fresh file member
          exact apart (beq_iff_eq.mpr same)
        refine ⟨?_, ?_, ?_⟩
        · rw [List.map_append, List.map_singleton, ← List.concat_eq_append, List.nodup_concat]
          exact ⟨unknown, known.distinct⟩
        · intro other member isUp
          rcases List.mem_append.mp member with before | last
          · rcases known.present other before isUp with ⟨file, kept, same⟩
            exact ⟨file, List.mem_append_left _ kept, same⟩
          · rw [List.mem_singleton.mp last]
            exact ⟨_, List.mem_append_right _ List.mem_cons_self, rfl, rfl⟩
        · intro file member
          rcases List.mem_append.mp member with before | last
          · rcases known.listed file before with ⟨other, kept, same⟩
            exact ⟨other, List.mem_append_left _ kept, same⟩
          · rw [List.mem_singleton.mp last]
            exact ⟨entry, List.mem_append_right _ List.mem_cons_self, up, rfl, rfl⟩
  · cases added
    refine ⟨known.distinct, ?_, ?_⟩
    · intro other member isUp
      rcases List.mem_append.mp member with before | last
      · exact known.present other before isUp
      · rw [List.mem_singleton.mp last] at isUp
        exact absurd isUp up
    · intro file member
      rcases known.listed file member with ⟨other, kept, same⟩
      exact ⟨other, List.mem_append_left _ kept, same⟩

theorem loop_listed {before entries : List DirEntry} {files after : List Migration}
    (known : Listed before files) (looped : entries.foldlM addEntry files = .ok after) :
    Listed (before ++ entries) after := by
  induction entries generalizing before files with
  | nil =>
      cases looped
      rw [List.append_nil]
      exact known
  | cons entry entries induction =>
      rw [List.foldlM_cons] at looped
      cases added : addEntry files entry with
      | error reason =>
          rw [added] at looped
          cases looped
      | ok middle =>
          rw [added] at looped
          have listed := induction (add_entry_listed known added) looped
          rw [List.append_assoc] at listed
          exact listed

theorem empty_listed : Listed [] [] := by
  refine ⟨List.nodup_nil, ?_, ?_⟩
  · intro entry member
    cases member
  · intro file member
    cases member

theorem migrations_loop {directory : Directory} {files : List Migration}
    (accepted : directory.migrations = .ok files) :
    ∃ unsorted, Listed directory.entries unsorted ∧ files = unsorted.insertionSort byName := by
  unfold Directory.migrations at accepted
  split_ifs at accepted
  split at accepted
  · cases accepted
  · rename_i unsorted looped
    split_ifs at accepted
    cases accepted
    exact ⟨unsorted, loop_listed empty_listed looped, rfl⟩

theorem migrations_listed {directory : Directory} {files : List Migration}
    (accepted : directory.migrations = .ok files) : Listed directory.entries files := by
  rcases migrations_loop accepted with ⟨unsorted, known, rfl⟩
  have sorted := List.perm_insertionSort byName unsorted
  refine ⟨(sorted.map Migration.version).nodup_iff.mpr known.distinct, ?_, ?_⟩
  · intro entry member isUp
    rcases known.present entry member isUp with ⟨file, kept, same⟩
    exact ⟨file, sorted.mem_iff.mpr kept, same⟩
  · intro file member
    exact known.listed file (sorted.mem_iff.mp member)

end Listing

end ChatScale.MigrationFiles
