import ChatScale.UrlQuery

/-!
# The rooms of a connection in its URL

The client puts its id and its rooms into the query of the endpoint, the rooms
joined by commas, and the server takes them out again and splits at the commas.
The client gets its rooms from a list of its own, where blanks, empty parts and
repetitions are allowed.
-/

namespace ChatScale.RoomQuery

open ChatScale.ByteText ChatScale.UrlQuery

set_option autoImplicit false

section Client

def comma : UInt8 := 44

/-- `strings.Split(text, ",")`. -/
def splitCommas (text : Bytes) : List Bytes := text.splitOn comma

/-- `strings.Join(texts, ",")`. -/
def joinCommas (texts : List Bytes) : Bytes := [comma].intercalate texts

/-- The loop of `splitRooms` over the parts, with the rooms found so far. -/
def collectRooms (rooms seen : List Bytes) : List Bytes → List Bytes
  | [] => rooms
  | part :: parts =>
      let roomID := trimSpace part
      if roomID = [] then collectRooms rooms seen parts
      else if seen.contains roomID then collectRooms rooms seen parts
      else collectRooms (rooms ++ [roomID]) (roomID :: seen) parts

def splitRooms (value : Bytes) : List Bytes := collectRooms [] [] (splitCommas value)

def clientIDKey : Bytes := ascii "client_id"

def roomIDsKey : Bytes := ascii "room_ids"

/-- The query of an endpoint with the two parameters set. -/
def connectionQuery (query : Values) (clientID : Bytes) (roomIDs : List Bytes) : Values :=
  (query.set clientIDKey clientID).set roomIDsKey (joinCommas roomIDs)

def websocketURL (reader : Reader) (endpoint clientID : Bytes) (roomIDs : List Bytes) :
    Except String Bytes :=
  match reader.parse endpoint with
  | none => .error "parse WebSocket URL"
  | some parsed =>
      if (parsed.front.scheme ≠ ascii "ws" ∧ parsed.front.scheme ≠ ascii "wss") ∨
          parsed.front.host = [] then
        .error "WebSocket URL must use ws or wss and include a host"
      else if isBlank clientID = true ∨ roomIDs = [] then
        .error "client ID and at least one room are required"
      else
        let query := connectionQuery (parseQuery parsed.rawQuery) clientID roomIDs
        .ok { parsed with rawQuery := query.encode }.text

end Client

section Server

def getParams (query : Values) : Except String (Bytes × List Bytes) :=
  let clientID := query.get clientIDKey
  if clientID = [] then .error "client_id is required"
  else
    let roomParam := query.get roomIDsKey
    if roomParam = [] then .error "room_ids is required"
    else .ok (clientID, splitCommas roomParam)

end Server

section Rooms

/-- What the parts of a list come to, with repetitions. -/
def candidates (value : Bytes) : List Bytes :=
  ((splitCommas value).map trimSpace).filter fun roomID => roomID != []

/-- The elements of a list without repetition, in the order in which they first
occur there. -/
structure FirstOccurrences (all rooms : List Bytes) : Prop where
  same : ∀ roomID, roomID ∈ rooms ↔ roomID ∈ all
  ordered : rooms.Pairwise fun left right => all.idxOf left < all.idxOf right

theorem first_occurrences_nodup {all rooms : List Bytes} (first : FirstOccurrences all rooms) :
    rooms.Nodup := by
  apply first.ordered.imp
  rintro left right before rfl
  exact Nat.lt_irrefl _ before

/-- One round of the loop. -/
theorem first_occurrences_append {all rooms : List Bytes} (roomID : Bytes)
    (first : FirstOccurrences all rooms) :
    FirstOccurrences (all ++ [roomID]) (if roomID ∈ rooms then rooms else rooms ++ [roomID]) := by
  have before : ∀ other ∈ rooms, (all ++ [roomID]).idxOf other = all.idxOf other :=
    fun other listed => List.idxOf_append_of_mem ((first.same other).mp listed)
  have kept : rooms.Pairwise fun left right =>
      (all ++ [roomID]).idxOf left < (all ++ [roomID]).idxOf right := by
    apply first.ordered.imp_of_mem
    intro left right leftListed rightListed
    rw [before left leftListed, before right rightListed]
    exact id
  split_ifs with listed
  · refine ⟨?_, kept⟩
    intro other
    rw [List.mem_append, List.mem_singleton, ← first.same]
    constructor
    · exact .inl
    · rintro (found | rfl)
      · exact found
      · exact listed
  · refine ⟨?_, ?_⟩
    · intro other
      rw [List.mem_append, List.mem_append, first.same]
    · rw [List.pairwise_append]
      refine ⟨kept, List.pairwise_singleton _ _, ?_⟩
      intro left leftListed right rightListed
      rw [List.mem_singleton.mp rightListed, before left leftListed,
        List.idxOf_append_of_notMem fun found => listed ((first.same _).mpr found)]
      have inside := List.idxOf_lt_length_iff.mpr ((first.same left).mp leftListed)
      omega

/-- The loop keeps to the first occurrences. -/
theorem collect_rooms_first {all rooms seen : List Bytes} (parts : List Bytes)
    (same : ∀ roomID, roomID ∈ seen ↔ roomID ∈ rooms) (first : FirstOccurrences all rooms) :
    FirstOccurrences (all ++ (parts.map trimSpace).filter fun roomID => roomID != [])
      (collectRooms rooms seen parts) := by
  induction parts generalizing all rooms seen with
  | nil => simpa [collectRooms] using first
  | cons part parts induction =>
      rw [collectRooms]
      by_cases blank : trimSpace part = []
      · simpa [blank] using induction same first
      · have next := first_occurrences_append (trimSpace part) first
        have split : all ++ ((part :: parts).map trimSpace).filter (fun roomID => roomID != []) =
            all ++ [trimSpace part] ++ (parts.map trimSpace).filter fun roomID => roomID != [] := by
          simp [blank]
        rw [split]
        by_cases known : trimSpace part ∈ seen
        · rw [if_pos ((same _).mp known)] at next
          simpa [blank, known] using induction same next
        · rw [if_neg fun found => known ((same _).mpr found)] at next
          have grown : ∀ roomID, roomID ∈ trimSpace part :: seen ↔
              roomID ∈ rooms ++ [trimSpace part] := by
            intro roomID
            simp [same, or_comm]
          simpa [blank, known] using induction grown next

theorem split_rooms_first (value : Bytes) :
    FirstOccurrences (candidates value) (splitRooms value) :=
  collect_rooms_first (splitCommas value) (fun _ => Iff.rfl)
    ⟨fun _ => Iff.rfl, List.Pairwise.nil⟩

theorem split_commas_free {value part : Bytes} (listed : part ∈ splitCommas value) :
    comma ∉ part := by
  induction value generalizing part with
  | nil =>
      rw [splitCommas, List.splitOn_nil, List.mem_singleton] at listed
      simp [listed]
  | cons byte value induction =>
      rw [splitCommas, List.splitOn, List.splitOnP_cons_eq_if_modifyHead, ← List.splitOn,
        ← splitCommas] at listed
      split_ifs at listed with separator
      · rcases List.mem_cons.mp listed with rfl | later
        · exact List.not_mem_nil
        · exact induction later
      · cases pieces : splitCommas value with
        | nil => exact absurd pieces (List.splitOn_ne_nil _ _)
        | cons piece others =>
            rw [pieces, List.modifyHead_cons, List.mem_cons] at listed
            rcases listed with rfl | later
            · have free := induction (pieces ▸ List.mem_cons_self : piece ∈ splitCommas value)
              rw [List.mem_cons, not_or]
              exact ⟨fun same => separator (beq_iff_eq.mpr same.symm), free⟩
            · exact induction (pieces ▸ List.mem_cons_of_mem _ later)

/-- A room id as `splitRooms` leaves it. -/
structure CleanRoom (roomID : Bytes) : Prop where
  nonempty : roomID ≠ []
  trimmed : trimSpace roomID = roomID
  commaFree : comma ∉ roomID

theorem split_rooms_clean {value roomID : Bytes} (listed : roomID ∈ splitRooms value) :
    CleanRoom roomID := by
  have candidate := ((split_rooms_first value).same roomID).mp listed
  obtain ⟨trimmed, nonempty⟩ := List.mem_filter.mp candidate
  obtain ⟨part, present, rfl⟩ := List.mem_map.mp trimmed
  exact ⟨bne_iff_ne.mp nonempty, trim_space_idempotent part,
    fun found => split_commas_free present (trim_space_subset found)⟩

/-- The loop leaves a list of clean rooms without repetition as it is. -/
theorem collect_rooms_clean {rooms seen : List Bytes} (parts : List Bytes)
    (clean : ∀ roomID ∈ parts, CleanRoom roomID) (distinct : parts.Nodup)
    (fresh : ∀ roomID ∈ parts, roomID ∉ seen) :
    collectRooms rooms seen parts = rooms ++ parts := by
  induction parts generalizing rooms seen with
  | nil => rw [collectRooms, List.append_nil]
  | cons part parts induction =>
      have known := clean part List.mem_cons_self
      have unseen := fresh part List.mem_cons_self
      rw [List.nodup_cons] at distinct
      rw [collectRooms]
      simp only [known.trimmed, if_neg known.nonempty, List.contains_iff_mem, if_neg unseen]
      rw [induction (fun roomID listed => clean roomID (List.mem_cons_of_mem _ listed)) distinct.2,
        List.append_assoc, List.singleton_append]
      intro roomID listed
      rw [List.mem_cons, not_or]
      exact ⟨fun same => distinct.1 (same ▸ listed), fresh roomID (List.mem_cons_of_mem _ listed)⟩

theorem split_join {rooms : List Bytes} (clean : ∀ roomID ∈ rooms, CleanRoom roomID)
    (nonempty : rooms ≠ []) : splitCommas (joinCommas rooms) = rooms :=
  List.splitOn_intercalate comma (fun roomID listed => (clean roomID listed).commaFree) nonempty

theorem split_rooms_join (value : Bytes) :
    splitRooms (joinCommas (splitRooms value)) = splitRooms value := by
  by_cases none : splitRooms value = []
  · rw [none]
    decide
  · rw [splitRooms, split_join (fun roomID => split_rooms_clean) none]
    exact collect_rooms_clean _ (fun roomID => split_rooms_clean)
      (first_occurrences_nodup (split_rooms_first value)) (fun _ _ => List.not_mem_nil)

theorem join_nonempty {rooms : List Bytes} (clean : ∀ roomID ∈ rooms, CleanRoom roomID)
    (given : rooms ≠ []) : joinCommas rooms ≠ [] := by
  intro empty
  have pieces := split_join clean given
  rw [empty, splitCommas, List.splitOn_nil] at pieces
  exact (clean [] (pieces ▸ List.mem_cons_self)).nonempty rfl

end Rooms

section Results

/-- The endpoints that `websocketURL` takes. -/
def AcceptsEndpoint (reader : Reader) (endpoint : Bytes) : Prop :=
  ∃ parsed, reader.parse endpoint = some parsed ∧
    (parsed.front.scheme = ascii "ws" ∨ parsed.front.scheme = ascii "wss") ∧
    parsed.front.host ≠ []

/-- The parameters that are set are read back, whatever else is in the query. -/
theorem get_params_encoded (values : Values) {clientID : Bytes} {rooms : List Bytes}
    (client : clientID ≠ []) (clean : ∀ roomID ∈ rooms, CleanRoom roomID) (given : rooms ≠ []) :
    getParams (parseQuery (connectionQuery values clientID rooms).encode) =
      .ok (clientID, rooms) := by
  have apart : clientIDKey ≠ roomIDsKey := by decide
  have clientRead : Values.get (parseQuery (connectionQuery values clientID rooms).encode)
      clientIDKey = clientID := by
    apply get_encoded
    · exact mem_set.mpr (.inl ⟨mem_set.mpr (.inr rfl), apart⟩)
    · intro pair listed same
      rcases mem_set.mp listed with ⟨earlier, _⟩ | rfl
      · rcases mem_set.mp earlier with ⟨_, other⟩ | rfl
        · exact absurd same other
        · rfl
      · exact absurd same.symm apart
  have roomsRead : Values.get (parseQuery (connectionQuery values clientID rooms).encode)
      roomIDsKey = joinCommas rooms := by
    apply get_encoded
    · exact mem_set.mpr (.inr rfl)
    · intro pair listed same
      rcases mem_set.mp listed with ⟨_, other⟩ | rfl
      · exact absurd same other
      · rfl
  simp only [getParams, clientRead, roomsRead, if_neg client, if_neg (join_nonempty clean given),
    split_join clean given]

theorem encode_set_nonempty (values : Values) (key value : Bytes) :
    (values.set key value).encode ≠ [] := by
  intro empty
  have read := parse_query_encode (values.set key value)
  rw [empty] at read
  have listed : (key, value) ∈ (values.set key value).sorted :=
    (List.mem_insertionSort _).mpr (mem_set.mpr (.inr rfl))
  rw [← read] at listed
  cases listed

theorem websocket_url_read {reader : Reader} {endpoint clientID : Bytes} {rooms : List Bytes}
    (accepts : AcceptsEndpoint reader endpoint) (client : isBlank clientID = false)
    (clean : ∀ roomID ∈ rooms, CleanRoom roomID) (given : rooms ≠ []) :
    ∃ url, websocketURL reader endpoint clientID rooms = .ok url ∧
      getParams (parseQuery (rawQueryOf url)) = .ok (clientID, rooms) := by
  obtain ⟨parsed, read, scheme, host⟩ := accepts
  have endpointOk : ¬((parsed.front.scheme ≠ ascii "ws" ∧ parsed.front.scheme ≠ ascii "wss") ∨
      parsed.front.host = []) := by
    rintro (neither | missing)
    · exact scheme.elim neither.1 neither.2
    · exact host missing
  have idsOk : ¬(isBlank clientID = true ∨ rooms = []) := by
    simp [client, given]
  have clientGiven : clientID ≠ [] := by
    rintro rfl
    cases client
  let query := connectionQuery (parseQuery parsed.rawQuery) clientID rooms
  refine ⟨({ parsed with rawQuery := query.encode } : Url).text, ?_, ?_⟩
  · simp only [websocketURL, read, if_neg endpointOk, if_neg idsOk]
    rfl
  · rw [raw_query_text (encode_set_nonempty _ _ _)
      (encode_separator_free (by decide) (by decide) (by decide) _)]
    exact get_params_encoded _ clientGiven clean given

/-- For every endpoint that is accepted, with any query, a client id that is not
blank and a list with a room in it: the server reads the id and the rooms of the
client out of the URL. For every list, what `splitRooms` makes of it is not
changed by joining and splitting again; its elements are not empty, trimmed and
free of commas, and each stands once, in the order of the first occurrences. -/
theorem room_query_round_trip (reader : Reader) (endpoint clientID value : Bytes) :
    (AcceptsEndpoint reader endpoint → isBlank clientID = false → splitRooms value ≠ [] →
      ∃ url, websocketURL reader endpoint clientID (splitRooms value) = .ok url ∧
        getParams (parseQuery (rawQueryOf url)) = .ok (clientID, splitRooms value)) ∧
      splitRooms (joinCommas (splitRooms value)) = splitRooms value ∧
      (∀ roomID ∈ splitRooms value, CleanRoom roomID) ∧ (splitRooms value).Nodup ∧
      FirstOccurrences (candidates value) (splitRooms value) := by
  have first := split_rooms_first value
  refine ⟨?_, split_rooms_join value, fun roomID => split_rooms_clean,
    first_occurrences_nodup first, first⟩
  intro accepts client given
  exact websocket_url_read accepts client (fun roomID => split_rooms_clean) given

/-- A reader for the fronts of plain endpoints: `scheme://host/path`. -/
def plainReader : Reader where
  front text :=
    if plain : questionMark ∉ text ∧ hash ∉ text then
      some ⟨text.takeWhile (fun byte => byte != 58),
        ((text.dropWhile fun byte => byte != 58).drop 3).takeWhile (fun byte => byte != 47),
        text, plain⟩
    else none
  fragment := some

example : websocketURL plainReader (ascii "wss://chat.example/ws?token=abc") (ascii "client 1")
    [ascii "room-1", ascii "room-2"] = .ok (ascii
      "wss://chat.example/ws?client_id=client+1&room_ids=room-1%2Croom-2&token=abc") := by
  decide +kernel

theorem token_kept_rooms_read :
    splitRooms (ascii " a b,,x&y , a b") = [ascii "a b", ascii "x&y"] ∧
      ∃ url, websocketURL plainReader (ascii "ws://host/ws?token=1&room_ids=z#top")
          (ascii "Ann, 1") (splitRooms (ascii " a b,,x&y , a b")) = .ok url ∧
        getParams (parseQuery (rawQueryOf url)) =
          .ok (ascii "Ann, 1", splitRooms (ascii " a b,,x&y , a b")) := by
  have rooms : splitRooms (ascii " a b,,x&y , a b") = [ascii "a b", ascii "x&y"] := by
    decide +kernel
  have accepts : AcceptsEndpoint plainReader (ascii "ws://host/ws?token=1&room_ids=z#top") := by
    have parsed : (plainReader.parse (ascii "ws://host/ws?token=1&room_ids=z#top")).map
        (fun url => (url.front.scheme, url.front.host)) = some (ascii "ws", ascii "host") := by
      decide +kernel
    obtain ⟨url, read, fields⟩ := Option.map_eq_some_iff.mp parsed
    rw [Prod.mk.injEq] at fields
    exact ⟨url, read, .inl fields.1, fields.2 ▸ (by decide)⟩
  exact ⟨rooms, (room_query_round_trip plainReader _ (ascii "Ann, 1") _).1 accepts
    (by decide +kernel) (by rw [rooms]; exact List.cons_ne_nil _ _)⟩

end Results

end ChatScale.RoomQuery
