import ChatScale.KeysetPaging
import ChatScale.RoomRows

/-!
# Walking back through the history of a room

`GET /rooms/ID/messages` answers with a page of the room's messages, newest first,
below a cursor; the cursor 0 means from the newest. A client follows the pages
with the last id of each as the next cursor, until one is shorter than the limit.
Messages keep being committed meanwhile. Their ids come from a `bigserial` column
and are seen from the commit on, so a new row may have any id that is not in use,
also one below the cursor or between ids already shown.
-/

namespace ChatScale.RoomHistory

open ChatScale.ByteText ChatScale.ByteEncodings ChatScale.KeysetPaging
open ChatScale.TransitionSystem
open ChatScale.RoomOutboxModel (ChatMessage Columns MessageRow)
open ChatScale.RoomOutboxHandover (canonicalColumns greeting lobby sentAt)

set_option autoImplicit false

section History

/-- A row as `rows.Scan` reads it. -/
def rowMessage (row : MessageRow) : ChatMessage :=
  ⟨row.id, row.roomID, row.userID, row.body, row.createdAt.toTime⟩

/-- `WHERE room_id = room AND (before = 0 OR id < before)`. -/
def isOlder (room : Bytes) (before : Int) (row : MessageRow) : Bool :=
  row.roomID == room && (before == 0 || decide ((row.id : Int) < before))

/-- `Store.History`; `none` is a room id that is not a UUID. -/
def history (columns : Columns) (table : List MessageRow) (roomID : Bytes) (before : Int)
    (limit : Nat) : Option (List ChatMessage) :=
  (columns.uuid roomID).map fun room =>
    (page MessageRow.id limit (table.filter (isOlder room before))).map rowMessage

def defaultHistoryLimit : Nat := 50

def maxHistoryLimit : Nat := 200

/-- The `before` parameter; the empty text is a missing one. -/
def readBefore (text : Bytes) : Option Int :=
  if text = [] then some 0
  else (parseInt64 text).filter fun before => !decide (before < 0)

def readLimit (text : Bytes) : Option Nat :=
  if text = [] then some defaultHistoryLimit
  else ((parseInt64 text).filter fun limit =>
    !(decide (limit ≤ 0) || decide ((maxHistoryLimit : Int) < limit))).map Int.toNat

inductive Response where
  | error (status : Nat) (message : String)
  | messages (page : List ChatMessage)
  deriving DecidableEq

def handleHistory (columns : Columns) (table : List MessageRow) (roomID before limit : Bytes) :
    Response :=
  match readBefore before with
  | none => .error 400 "invalid before cursor"
  | some before =>
      match readLimit limit with
      | none => .error 400 "invalid limit (1..200)"
      | some limit =>
          match history columns table roomID before limit with
          | none => .error 500 "history failed"
          | some page => .messages page

theorem read_before_format {before : Int} (lower : 0 ≤ before) (upper : before ≤ maxInt64) :
    readBefore (formatInt before) = some before := by
  have nonempty : formatInt before ≠ [] := by
    cases before with
    | ofNat value => exact format_nat_ne_nil value
    | negSucc value => exact List.cons_ne_nil _ _
  have smallest : minInt64 ≤ before := Int.le_trans (by decide) lower
  rw [readBefore, if_neg nonempty, parse_int_format before smallest upper, Option.filter_some,
    if_pos (by simpa using lower)]

theorem read_limit_format {limit : Nat} (lower : 1 ≤ limit) (upper : limit ≤ maxHistoryLimit) :
    readLimit (formatInt limit) = some limit := by
  have nonempty : formatInt (limit : Int) ≠ [] := format_nat_ne_nil limit
  have bounds : minInt64 ≤ (limit : Int) ∧ (limit : Int) ≤ maxInt64 := by
    simp only [minInt64, maxInt64, maxHistoryLimit] at *
    omega
  have inside : (!(decide ((limit : Int) ≤ 0) || decide ((maxHistoryLimit : Int) < limit))) =
      true := by
    simp only [Bool.not_eq_true', Bool.or_eq_false_iff, decide_eq_false_iff_not]
    omega
  rw [readLimit, if_neg nonempty, parse_int_format _ bounds.1 bounds.2, Option.filter_some,
    if_pos inside, Option.map_some, Int.toNat_natCast]

/-- The handler answers a request the client spells in decimal with the page. -/
theorem handle_history_page {columns : Columns} {roomID room : Bytes}
    (denotes : columns.uuid roomID = some room) (table : List MessageRow) {before : Int}
    (lower : 0 ≤ before) (upper : before ≤ maxInt64) {limit : Nat} (positive : 1 ≤ limit)
    (allowed : limit ≤ maxHistoryLimit) :
    handleHistory columns table roomID (formatInt before) (formatInt limit) =
      .messages ((page MessageRow.id limit (table.filter (isOlder room before))).map
        rowMessage) := by
  rw [handleHistory, read_before_format lower upper, read_limit_format positive allowed]
  simp only [history, denotes, Option.map_some]

end History

section Walk

/-- The rows of `messages`: ids of a `bigserial` primary key. -/
structure TableSound (table : List MessageRow) : Prop where
  unique : (table.map MessageRow.id).Nodup
  serial : ∀ row ∈ table, 1 ≤ row.id ∧ (row.id : Int) ≤ maxInt64

/-- The committed rows and how far the client has come. `atFirst` holds the rows
that were committed when the first page was read. -/
structure Walk where
  table : List MessageRow
  atFirst : List MessageRow
  cursor : Int
  pages : List (List ChatMessage)
  ended : Bool

inductive Action where
  | commit (row : MessageRow)
  | request

def opened (table : List MessageRow) : Walk := ⟨table, [], 0, [], false⟩

/-- The messages the client has been shown. -/
def Walk.shown (walk : Walk) : List ChatMessage := walk.pages.flatten

def Walk.turn (walk : Walk) (limit : Nat) (page : List ChatMessage) : Walk where
  table := walk.table
  atFirst := if walk.pages = [] then walk.table else walk.atFirst
  cursor := (page.getLast?.map ChatMessage.id).getD walk.cursor
  pages := walk.pages ++ [page]
  ended := decide (page.length < limit)

def step (columns : Columns) (roomID : Bytes) (limit : Nat) (walk : Walk) :
    Action → Option Walk
  | .commit row =>
      if 1 ≤ row.id ∧ (row.id : Int) ≤ maxInt64 ∧ row.id ∉ walk.table.map MessageRow.id then
        some { walk with table := walk.table ++ [row] }
      else none
  | .request =>
      if walk.ended then none
      else match handleHistory columns walk.table roomID (formatInt walk.cursor)
          (formatInt limit) with
        | .error _ _ => none
        | .messages page => some (walk.turn limit page)

/-- A request that is answered turns the page. -/
theorem request_turns {columns : Columns} {roomID : Bytes} {limit : Nat} {walk turned : Walk}
    (stepped : step columns roomID limit walk .request = some turned) :
    ∃ page, turned = walk.turn limit page := by
  simp only [step, Option.ite_none_left_eq_some] at stepped
  obtain ⟨_, answered⟩ := stepped
  split at answered
  · cases answered
  · exact ⟨_, (Option.some.inj answered).symm⟩

end Walk

section Invariant

/-- The largest id of a room. -/
def newestID (room : Bytes) (rows : List MessageRow) : Nat :=
  ((rows.filter fun row => row.roomID == room).map MessageRow.id).max?.getD 0

/-- What the rows shown so far have to do with the cursor and with the rows that
were there at the first request. -/
structure RowsSound (room : Bytes) (limit : Nat) (walk : Walk) (rows : List MessageRow) :
    Prop where
  decreasing : Decreasing MessageRow.id rows
  stored : ∀ row ∈ rows, row ∈ walk.table ∧ row.roomID = room
  above : walk.ended = false → ∀ row ∈ rows, isOlder room walk.cursor row = false
  newest : ∀ row ∈ rows, row.id ≤ newestID room walk.atFirst
  covered : walk.pages ≠ [] → ∀ row ∈ walk.atFirst, row.roomID = room →
    row ∈ rows ∨ walk.ended = false ∧ isOlder room walk.cursor row = true
  full : limit * walk.pages.length ≤ rows.length + if walk.ended then limit else 0

structure WalkSound (room : Bytes) (limit : Nat) (walk : Walk) : Prop where
  table : TableSound walk.table
  known : ∀ row ∈ walk.atFirst, row ∈ walk.table
  fresh : walk.pages = [] → walk.cursor = 0 ∧ walk.ended = false
  cursor : walk.ended = false → walk.pages ≠ [] →
    ∃ row ∈ walk.table, (row.id : Int) = walk.cursor ∧ row.id ≤ newestID room walk.atFirst
  shows : ∃ rows, walk.shown = rows.map rowMessage ∧ RowsSound room limit walk rows

variable {columns : Columns} {roomID room : Bytes} {limit : Nat} {walk next : Walk}

theorem le_newest_id {rows : List MessageRow} {row : MessageRow} (listed : row ∈ rows)
    (same : row.roomID = room) : row.id ≤ newestID room rows :=
  List.le_max?_getD_of_mem
    (List.mem_map_of_mem (List.mem_filter.mpr ⟨listed, beq_iff_eq.mpr same⟩))

theorem opened_sound {table : List MessageRow} (sound : TableSound table) :
    WalkSound room limit (opened table) where
  table := sound
  known := by simp [opened]
  fresh := fun _ => ⟨rfl, rfl⟩
  cursor := by simp [opened]
  shows := by
    refine ⟨[], rfl, ?_, ?_, ?_, ?_, ?_, ?_⟩
    · exact List.Pairwise.nil
    all_goals simp [opened]

/-- The cursor can be spelled and read back. -/
theorem cursor_range (sound : WalkSound room limit walk) (going : walk.ended = false) :
    0 ≤ walk.cursor ∧ walk.cursor ≤ maxInt64 := by
  by_cases first : walk.pages = []
  · rw [(sound.fresh first).1]
    decide
  · obtain ⟨row, listed, same, _⟩ := sound.cursor going first
    have serial := sound.table.serial row listed
    omega

theorem commit_sound (sound : WalkSound room limit walk) {row : MessageRow}
    (committed : step columns roomID limit walk (.commit row) = some next) :
    WalkSound room limit next := by
  simp only [step, Option.ite_none_right_eq_some, Option.some.injEq] at committed
  obtain ⟨⟨lower, upper, unused⟩, rfl⟩ := committed
  have grows : ∀ other ∈ walk.table, other ∈ walk.table ++ [row] :=
    fun other => List.mem_append_left _
  refine ⟨⟨?_, ?_⟩, fun other listed => grows other (sound.known other listed), sound.fresh, ?_, ?_⟩
  · rw [List.map_append, List.map_singleton, ← List.concat_eq_append, List.nodup_concat]
    exact ⟨unused, sound.table.unique⟩
  · intro other listed
    rcases List.mem_append.mp listed with earlier | last
    · exact sound.table.serial other earlier
    · rw [List.mem_singleton.mp last]
      exact ⟨lower, upper⟩
  · intro going started
    obtain ⟨other, listed, same⟩ := sound.cursor going started
    exact ⟨other, grows other listed, same⟩
  · obtain ⟨rows, shown, known⟩ := sound.shows
    refine ⟨rows, shown, known.decreasing, ?_, known.above, known.newest, known.covered, known.full⟩
    intro other listed
    exact ⟨grows other (known.stored other listed).1, (known.stored other listed).2⟩

/-- The rows the next request reads. -/
def nextRows (room : Bytes) (limit : Nat) (walk : Walk) : List MessageRow :=
  page MessageRow.id limit (walk.table.filter (isOlder room walk.cursor))

theorem request_answered (denotes : columns.uuid roomID = some room) (positive : 1 ≤ limit)
    (allowed : limit ≤ maxHistoryLimit) (sound : WalkSound room limit walk)
    (going : walk.ended = false) :
    step columns roomID limit walk .request =
      some (walk.turn limit ((nextRows room limit walk).map rowMessage)) := by
  obtain ⟨lower, upper⟩ := cursor_range sound going
  simp only [step, going, Bool.false_eq_true, if_false,
    handle_history_page denotes walk.table lower upper positive allowed]
  rfl

theorem is_older_iff {before : Int} {row : MessageRow} :
    isOlder room before row = true ↔
      row.roomID = room ∧ (before = 0 ∨ (row.id : Int) < before) := by
  simp [isOlder]

theorem next_rows_older {row : MessageRow} (listed : row ∈ nextRows room limit walk) :
    row ∈ walk.table ∧ isOlder room walk.cursor row = true :=
  List.mem_filter.mp (mem_of_page listed)

theorem older_unique (sound : TableSound walk.table) :
    ((walk.table.filter (isOlder room walk.cursor)).map MessageRow.id).Nodup :=
  (List.filter_sublist.map MessageRow.id).nodup sound.unique

/-- A page that does not end the walk is full and leaves its last id as the
cursor. -/
theorem turn_cursor (positive : 1 ≤ limit)
    (going : (walk.turn limit ((nextRows room limit walk).map rowMessage)).ended = false) :
    limit ≤ (nextRows room limit walk).length ∧
      ∃ last, (nextRows room limit walk).getLast? = some last ∧
        (walk.turn limit ((nextRows room limit walk).map rowMessage)).cursor = last.id := by
  simp only [Walk.turn, List.length_map, decide_eq_false_iff_not, Nat.not_lt] at going
  have nonempty : nextRows room limit walk ≠ [] := by
    rw [← List.length_pos_iff]
    omega
  refine ⟨going, _, List.getLast?_eq_some_getLast nonempty, ?_⟩
  simp [Walk.turn, List.getLast?_map, List.getLast?_eq_some_getLast nonempty, rowMessage]

/-- No page has a row that is newer than those of the first. -/
theorem next_row_newest (sound : WalkSound room limit walk) (going : walk.ended = false)
    (page : List ChatMessage) {row : MessageRow} (listed : row ∈ nextRows room limit walk) :
    row.id ≤ newestID room (walk.turn limit page).atFirst := by
  obtain ⟨stored, older⟩ := next_rows_older listed
  rw [is_older_iff] at older
  by_cases first : walk.pages = []
  · simp only [Walk.turn, if_pos first]
    exact le_newest_id stored older.1
  · simp only [Walk.turn, if_neg first]
    obtain ⟨last, lastStored, same, newest⟩ := sound.cursor going first
    have serial := sound.table.serial last lastStored
    omega

/-- The rows of the next page come after all that were shown. -/
theorem turned_decreasing (sound : WalkSound room limit walk) (going : walk.ended = false)
    {rows : List MessageRow} (known : RowsSound room limit walk rows) :
    Decreasing MessageRow.id (rows ++ nextRows room limit walk) := by
  refine List.pairwise_append.mpr ⟨known.decreasing, page_decreasing (older_unique sound.table), ?_⟩
  intro row listed later laterListed
  have older := is_older_iff.mp (next_rows_older laterListed).2
  have above := known.above going row listed
  have sameRoom := (known.stored row listed).2
  rw [← Bool.not_eq_true, is_older_iff] at above
  have apart : ¬(walk.cursor = 0 ∨ (row.id : Int) < walk.cursor) :=
    fun holds => above ⟨sameRoom, holds⟩
  omega

/-- A row of the first request is shown, or the next request looks for it. -/
theorem first_row_pending (sound : WalkSound room limit walk) {rows : List MessageRow}
    (known : RowsSound room limit walk rows) (page : List ChatMessage) {row : MessageRow}
    (listed : row ∈ (walk.turn limit page).atFirst) (sameRoom : row.roomID = room) :
    row ∈ rows ∨ row ∈ walk.table ∧ isOlder room walk.cursor row = true := by
  by_cases first : walk.pages = []
  · simp only [Walk.turn, if_pos first] at listed
    exact .inr ⟨listed, is_older_iff.mpr ⟨sameRoom, .inl (sound.fresh first).1⟩⟩
  · simp only [Walk.turn, if_neg first] at listed
    rcases known.covered first row listed sameRoom with done | ⟨_, older⟩
    · exact .inl done
    · exact .inr ⟨sound.known row listed, older⟩

/-- A row the request looks for is on its page, or the next request looks for it. -/
theorem next_rows_cover (positive : 1 ≤ limit) (sound : WalkSound room limit walk)
    {row : MessageRow} (stored : row ∈ walk.table) (older : isOlder room walk.cursor row = true) :
    row ∈ nextRows room limit walk ∨
      (walk.turn limit ((nextRows room limit walk).map rowMessage)).ended = false ∧
        isOlder room (walk.turn limit ((nextRows room limit walk).map rowMessage)).cursor row =
          true := by
  rcases page_covers (older_unique sound.table) positive (List.mem_filter.mpr ⟨stored, older⟩) with
    added | ⟨full, last, ends, below⟩
  · exact .inl added
  · right
    have goesOn : (walk.turn limit ((nextRows room limit walk).map rowMessage)).ended = false := by
      simp [Walk.turn, nextRows, full]
    obtain ⟨_, same, sameEnds, cursor⟩ := turn_cursor positive goesOn
    cases ends.symm.trans sameEnds
    refine ⟨goesOn, is_older_iff.mpr ⟨(is_older_iff.mp older).1, .inr ?_⟩⟩
    rw [cursor]
    omega

theorem turn_rows_sound (positive : 1 ≤ limit) (sound : WalkSound room limit walk)
    (going : walk.ended = false) {rows : List MessageRow}
    (shown : walk.shown = rows.map rowMessage) (known : RowsSound room limit walk rows) :
    RowsSound room limit (walk.turn limit ((nextRows room limit walk).map rowMessage))
      (rows ++ nextRows room limit walk) where
  decreasing := turned_decreasing sound going known
  stored := by
    intro row listed
    rcases List.mem_append.mp listed with earlier | added
    · exact known.stored row earlier
    · obtain ⟨stored, older⟩ := next_rows_older added
      exact ⟨stored, (is_older_iff.mp older).1⟩
  above := by
    intro goesOn row listed
    obtain ⟨full, last, ends, cursor⟩ := turn_cursor positive goesOn
    have least := last_least (turned_decreasing sound going known)
      (by rw [List.getLast?_append, ends, Option.some_or]) listed
    have serial := sound.table.serial last (next_rows_older (List.mem_of_getLast? ends)).1
    rw [← Bool.not_eq_true, is_older_iff, cursor]
    omega
  newest := by
    intro row listed
    rcases List.mem_append.mp listed with earlier | added
    · have started : walk.pages ≠ [] := by
        intro first
        rw [Walk.shown, first, List.flatten_nil] at shown
        rw [List.map_eq_nil_iff.mp shown.symm] at earlier
        cases earlier
      simp only [Walk.turn, if_neg started]
      exact known.newest row earlier
    · exact next_row_newest sound going _ added
  covered := by
    intro _ row listed sameRoom
    rcases first_row_pending sound known _ listed sameRoom with done | ⟨stored, older⟩
    · exact .inl (List.mem_append_left _ done)
    · rcases next_rows_cover positive sound stored older with added | left
      · exact .inl (List.mem_append_right _ added)
      · exact .inr left
  full := by
    have before := known.full
    simp only [going, Bool.false_eq_true, if_false, Nat.add_zero] at before
    simp only [Walk.turn, List.length_append, List.length_singleton, List.length_map,
      decide_eq_true_eq, Nat.mul_add, Nat.mul_one]
    split_ifs with short <;> omega

theorem turn_sound (positive : 1 ≤ limit) (sound : WalkSound room limit walk)
    (going : walk.ended = false) :
    WalkSound room limit (walk.turn limit ((nextRows room limit walk).map rowMessage)) where
  table := sound.table
  known := by
    intro row listed
    simp only [Walk.turn] at listed
    split_ifs at listed
    · exact listed
    · exact sound.known row listed
  fresh := by simp [Walk.turn]
  cursor := by
    intro goesOn _
    obtain ⟨_, last, ends, cursor⟩ := turn_cursor positive goesOn
    have listed := List.mem_of_getLast? ends
    exact ⟨last, (next_rows_older listed).1, cursor.symm, next_row_newest sound going _ listed⟩
  shows := by
    obtain ⟨rows, shown, known⟩ := sound.shows
    refine ⟨rows ++ nextRows room limit walk, ?_, turn_rows_sound positive sound going shown known⟩
    rw [Walk.shown] at shown
    simp [Walk.shown, Walk.turn, shown]

theorem reachable_walk (denotes : columns.uuid roomID = some room) (positive : 1 ≤ limit)
    (allowed : limit ≤ maxHistoryLimit) {table : List MessageRow} (sound : TableSound table)
    (reached : Reachable (step columns roomID limit) anyStep (opened table) walk) :
    WalkSound room limit walk := by
  apply reachable_invariant (WalkSound room limit) (opened_sound sound) _ reached
  intro before action after known _ stepped
  cases action with
  | commit row => exact commit_sound known stepped
  | request =>
      cases going : before.ended with
      | true => simp [step, going] at stepped
      | false =>
          rw [request_answered denotes positive allowed known going] at stepped
          cases stepped
          exact turn_sound positive known going

end Invariant

section Store

/-- A walk next to the calls and relays that work on the tables. -/
structure StoreWalk (Writer Relay : Type) where
  store : RoomOutboxModel.State Writer Relay
  walk : Walk

inductive StoreAction (Writer Relay : Type) where
  | store (action : RoomOutboxModel.Action Writer Relay)
  | request

variable {Writer Relay : Type} [DecidableEq Writer] [Fintype Relay] [DecidableEq Relay]

def storeStep (variant : RoomHubModel.Variant) (columns : Columns)
    (requests : Writer → RoomOutboxModel.Request) (roomID : Bytes) (limit : Nat)
    (system : StoreWalk Writer Relay) : StoreAction Writer Relay → Option (StoreWalk Writer Relay)
  | .store action =>
      (RoomOutboxModel.step variant columns requests system.store action).map fun next =>
        ⟨next, { system.walk with table := next.db.messages }⟩
  | .request =>
      (step columns roomID limit system.walk .request).map fun walk => ⟨system.store, walk⟩

def storeStart : StoreWalk Writer Relay :=
  ⟨RoomOutboxModel.started RoomOutboxModel.emptyDatabase, opened []⟩

variable {variant : RoomHubModel.Variant} {columns : Columns}
  {requests : Writer → RoomOutboxModel.Request} {state next : RoomOutboxModel.State Writer Relay}
  {roomID : Bytes} {limit : Nat}

/-- What the store does to the table of messages, whatever its calls and relays
do, is nothing or a commit of the walk. -/
theorem store_step_walks (sound : RoomRows.RowsSound columns requests state)
    {action : RoomOutboxModel.Action Writer Relay}
    (stepped : RoomOutboxModel.step variant columns requests state action = some next)
    {walk : Walk} (same : walk.table = state.db.messages) :
    next.db.messages = state.db.messages ∨ ∃ row,
      step columns roomID limit walk (.commit row) =
        some { walk with table := next.db.messages } := by
  cases action with
  | relay relay move =>
      obtain ⟨effect, _, rfl⟩ := Option.map_eq_some_iff.mp stepped
      exact .inl rfl
  | writer writer move =>
      obtain ⟨⟨after, stage⟩, moved, rfl⟩ := Option.map_eq_some_iff.mp stepped
      rcases RoomRows.moves_tables (RoomRows.writer_step_moves moved) with
        ⟨messages, _⟩ | ⟨row, event, at_, _, messages, _⟩
      · exact .inl messages
      · right
        have held : RoomRows.heldIds state.writers writer = some row.id := by
          rw [RoomRows.heldIds, at_]
          rfl
        have known := sound.stages writer
        rw [at_] at known
        obtain ⟨lower, _, unused⟩ := sound.sequence.fresh writer row.id held
        have serial := known.1.serial
        have upper : (row.id : Int) ≤ maxInt64 := by
          simp only [RoomOutboxModel.maxSerial, maxInt64] at *
          omega
        refine ⟨row, ?_⟩
        rw [← same] at unused
        rw [step, if_pos ⟨lower, upper, unused⟩, same]
        simp only [messages]

/-- Next to the store, a walk is a walk: the calls of `HandleIncoming` commit the
messages, and their failures and the relays are not seen. -/
theorem store_walk_reachable (keeps : RoomRows.ColumnsKeep columns)
    {system : StoreWalk Writer Relay}
    (reached : Reachable (storeStep variant columns requests roomID limit) anyStep storeStart
      system) :
    RoomRows.RowsSound columns requests system.store ∧
      system.walk.table = system.store.db.messages ∧
      Reachable (step columns roomID limit) anyStep (opened []) system.walk := by
  apply reachable_invariant (fun system : StoreWalk Writer Relay =>
    RoomRows.RowsSound columns requests system.store ∧
      system.walk.table = system.store.db.messages ∧
      Reachable (step columns roomID limit) anyStep (opened []) system.walk)
    ⟨RoomRows.started_rows_sound columns requests, rfl, reachable_start⟩ _ reached
  rintro before action after ⟨rows, same, walked⟩ _ stepped
  cases action with
  | store action =>
      obtain ⟨next, moved, rfl⟩ := Option.map_eq_some_iff.mp stepped
      refine ⟨RoomRows.step_rows_sound keeps rows moved, rfl, ?_⟩
      rcases store_step_walks rows moved same with unchanged | ⟨row, commits⟩
      · rw [unchanged, ← same]
        exact walked
      · exact reachable_step walked trivial commits
  | request =>
      obtain ⟨walk, moved, rfl⟩ := Option.map_eq_some_iff.mp stepped
      obtain ⟨page, rfl⟩ := request_turns moved
      exact ⟨rows, same, reachable_step walked trivial moved⟩

end Store

section Results

variable {columns : Columns} {roomID room : Bytes} {limit : Nat} {walk later : Walk}

theorem first_request_kept (started : walk.pages ≠ [])
    (reached : Reachable (step columns roomID limit) anyStep walk later) :
    later.pages ≠ [] ∧ later.atFirst = walk.atFirst := by
  apply reachable_invariant (fun other : Walk => other.pages ≠ [] ∧ other.atFirst = walk.atFirst)
    ⟨started, rfl⟩ _ reached
  intro before action after known _ stepped
  cases action with
  | commit row =>
      simp only [step, Option.ite_none_right_eq_some, Option.some.injEq] at stepped
      obtain ⟨_, rfl⟩ := stepped
      exact known
  | request =>
      obtain ⟨page, rfl⟩ := request_turns stepped
      exact ⟨List.append_ne_nil_of_right_ne_nil _ (List.cons_ne_nil _ _),
        (if_neg known.1).trans known.2⟩

theorem pages_bounded (sound : WalkSound room limit walk) :
    limit * walk.pages.length ≤ newestID room walk.atFirst + limit := by
  obtain ⟨rows, _, known⟩ := sound.shows
  have short := decreasing_length known.decreasing fun row listed =>
    ⟨(sound.table.serial row (known.stored row listed).1).1, known.newest row listed⟩
  have full := known.full
  split_ifs at full <;> omega

def lobbyRow (id : Nat) : MessageRow :=
  ⟨id, lobby, greeting.incoming.userID, ascii "hi", sentAt.time⟩

/-- A page of two, then messages with ids in between and below the cursor, then
the rest. -/
def lobbyWalk : List Action :=
  [.request, .commit (lobbyRow 4), .commit (lobbyRow 1), .request, .request]

end Results

end ChatScale.RoomHistory
