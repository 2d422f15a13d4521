import ChatScale.ByteEncodings
import Mathlib.Data.List.Sort

/-!
# Query strings

The parts of `net/url` that concern the query of a URL: the escapes of a
component, `Values` with `Get`, `Set`, `Encode` and `ParseQuery`, and where the
query stands in the text of a URL. `ParseQuery` reads what `Encode` writes back.
What the package makes of the text in front of the query and of a fragment is a
parameter.
-/

namespace ChatScale.UrlQuery

open ChatScale.ByteText ChatScale.ByteEncodings

set_option autoImplicit false

section Escapes

def percent : UInt8 := 37

def plus : UInt8 := 43

def space : UInt8 := 32

def upperHexDigit (value : Nat) : UInt8 :=
  if value < 10 then UInt8.ofNat (48 + value) else UInt8.ofNat (55 + value)

/-- The bytes a query component keeps: letters, digits and `-`, `_`, `.`, `~`. -/
def isUnreserved (byte : UInt8) : Bool :=
  (97 ≤ byte && byte ≤ 122) || (65 ≤ byte && byte ≤ 90) || (48 ≤ byte && byte ≤ 57) ||
    byte == 45 || byte == 95 || byte == 46 || byte == 126

def escapeByte (byte : UInt8) : Bytes :=
  if isUnreserved byte then [byte]
  else if byte = space then [plus]
  else [percent, upperHexDigit (byte.toNat / 16), upperHexDigit (byte.toNat % 16)]

/-- `url.QueryEscape`. -/
def queryEscape (text : Bytes) : Bytes := text.flatMap escapeByte

/-- `url.QueryUnescape`. -/
def queryUnescape : Bytes → Option Bytes
  | [] => some []
  | byte :: rest =>
      if byte = percent then
        match rest with
        | high :: low :: after =>
            match fromHex high, fromHex low with
            | some high, some low =>
                (queryUnescape after).map fun text => UInt8.ofNat (16 * high + low) :: text
            | _, _ => none
        | _ => none
      else (queryUnescape rest).map fun text => (if byte = plus then space else byte) :: text

/-- What an escaped component consists of. -/
def isEscaped (byte : UInt8) : Bool := isUnreserved byte || byte == percent || byte == plus

theorem upper_hex_read (value : Nat) (bound : value < 16) :
    fromHex (upperHexDigit value) = some value ∧ isUnreserved (upperHexDigit value) = true := by
  interval_cases value <;> decide

theorem query_unescape_cons {byte : UInt8} (other : byte ≠ percent) (rest : Bytes) :
    queryUnescape (byte :: rest) =
      (queryUnescape rest).map fun text => (if byte = plus then space else byte) :: text := by
  rw [queryUnescape.eq_def]
  simp only [if_neg other]

theorem query_unescape_byte (byte : UInt8) (rest : Bytes) :
    queryUnescape (escapeByte byte ++ rest) =
      (queryUnescape rest).map fun text => byte :: text := by
  unfold escapeByte
  split_ifs with unreserved blank
  · have kept : byte ≠ percent ∧ byte ≠ plus := by
      constructor <;> rintro rfl <;> cases unreserved
    rw [List.singleton_append, query_unescape_cons kept.1, if_neg kept.2]
  · rw [List.singleton_append, query_unescape_cons (by decide), if_pos rfl, blank]
  · have small := byte_lt byte
    have high := (upper_hex_read (byte.toNat / 16) (by omega)).1
    have low := (upper_hex_read (byte.toNat % 16) (by omega)).1
    have whole : 16 * (byte.toNat / 16) + byte.toNat % 16 = byte.toNat := by omega
    simp [queryUnescape, high, low, whole]

theorem query_unescape_escape (text : Bytes) : queryUnescape (queryEscape text) = some text := by
  induction text with
  | nil => rfl
  | cons byte text induction =>
      rw [queryEscape, List.flatMap_cons, ← queryEscape, query_unescape_byte, induction]
      rfl

theorem query_escape_escaped {text : Bytes} {byte : UInt8} (listed : byte ∈ queryEscape text) :
    isEscaped byte = true := by
  obtain ⟨original, _, written⟩ := List.mem_flatMap.mp listed
  have small := byte_lt original
  have high := (upper_hex_read (original.toNat / 16) (by omega)).2
  have low := (upper_hex_read (original.toNat % 16) (by omega)).2
  unfold escapeByte at written
  split_ifs at written with unreserved blank
  · rw [List.mem_singleton.mp written, isEscaped, unreserved]
    rfl
  · rw [List.mem_singleton.mp written]
    decide
  · simp only [List.mem_cons, List.not_mem_nil, or_false] at written
    rcases written with rfl | rfl | rfl
    · decide
    · simp [isEscaped, high]
    · simp [isEscaped, low]

end Escapes

section Values

def ampersand : UInt8 := 38

def equalsSign : UInt8 := 61

def semicolon : UInt8 := 59

/-- `strings.Cut` at one byte; the second part is empty if there is none. -/
def cut (separator : UInt8) (text : Bytes) : Bytes × Bytes :=
  (text.takeWhile fun byte => byte != separator,
    (text.dropWhile fun byte => byte != separator).tail)

/-- `url.Values` as its pairs of a key and a value; those of one key are in their
order. -/
abbrev Values := List (Bytes × Bytes)

def Values.get (values : Values) (key : Bytes) : Bytes :=
  ((values.find? fun pair => pair.1 == key).map Prod.snd).getD []

def Values.set (values : Values) (key value : Bytes) : Values :=
  values.filter (fun pair => pair.1 != key) ++ [(key, value)]

def encodePair (pair : Bytes × Bytes) : Bytes :=
  queryEscape pair.1 ++ equalsSign :: queryEscape pair.2

/-- The pairs in the order `Encode` writes them. -/
def Values.sorted (values : Values) : Values :=
  values.insertionSort fun left right => left.1 ≤ right.1

def Values.encode (values : Values) : Bytes :=
  [ampersand].intercalate (values.sorted.map encodePair)

/-- One piece between two ampersands; a piece that cannot be read is skipped. -/
def readPair (piece : Bytes) : Option (Bytes × Bytes) :=
  if semicolon ∈ piece then none
  else if piece = [] then none
  else do
    let key ← queryUnescape (cut equalsSign piece).1
    let value ← queryUnescape (cut equalsSign piece).2
    some (key, value)

/-- `URL.Query` of a raw query. -/
def parseQuery (text : Bytes) : Values := (text.splitOn ampersand).filterMap readPair

theorem bytes_before_cut {separator : UInt8} {text : Bytes} (absent : separator ∉ text) :
    ∀ byte ∈ text, (byte != separator) = true := by
  intro byte listed
  rw [bne_iff_ne]
  rintro rfl
  exact absent listed

theorem cut_append {separator : UInt8} {front : Bytes} (absent : separator ∉ front)
    (back : Bytes) : cut separator (front ++ separator :: back) = (front, back) := by
  have others := bytes_before_cut absent
  rw [cut, List.takeWhile_append_of_pos others, List.dropWhile_append_of_pos others]
  simp

theorem cut_absent {separator : UInt8} {text : Bytes} (absent : separator ∉ text) :
    cut separator text = (text, []) := by
  have others := bytes_before_cut absent
  rw [cut, List.takeWhile_eq_self_iff.mpr others, List.dropWhile_eq_nil_iff.mpr others]
  rfl

/-- No separator of a query or a URL is in an escaped component. -/
theorem escape_separator_free {separator : UInt8} (reserved : isEscaped separator = false)
    (text : Bytes) : separator ∉ queryEscape text := by
  intro listed
  rw [query_escape_escaped listed] at reserved
  cases reserved

theorem encode_pair_separator_free {separator : UInt8} (reserved : isEscaped separator = false)
    (other : separator ≠ equalsSign) (pair : Bytes × Bytes) : separator ∉ encodePair pair := by
  simp [encodePair, escape_separator_free reserved, other]

theorem read_pair_encoded (pair : Bytes × Bytes) : readPair (encodePair pair) = some pair := by
  have plain := encode_pair_separator_free (by decide : isEscaped semicolon = false)
    (by decide) pair
  have nonempty : encodePair pair ≠ [] := by simp [encodePair]
  rw [readPair, if_neg plain, if_neg nonempty, encodePair,
    cut_append (escape_separator_free (by decide) _)]
  simp [query_unescape_escape]

/-- `Encode` is undone by reading the query. -/
theorem parse_query_encode (values : Values) : parseQuery values.encode = values.sorted := by
  have pairs : (values.sorted.map encodePair).filterMap readPair = values.sorted := by
    have each : readPair ∘ encodePair = some := funext read_pair_encoded
    rw [List.filterMap_map, each, List.filterMap_some]
  by_cases empty : values.sorted = []
  · rw [parseQuery, Values.encode, empty]
    decide
  · rw [parseQuery, Values.encode, List.splitOn_intercalate, pairs]
    · intro piece listed
      obtain ⟨pair, _, rfl⟩ := List.mem_map.mp listed
      exact encode_pair_separator_free (by decide) (by decide) pair
    · rwa [ne_eq, List.map_eq_nil_iff]

theorem encode_separator_free {separator : UInt8} (reserved : isEscaped separator = false)
    (notEquals : separator ≠ equalsSign) (notAmpersand : separator ≠ ampersand)
    (values : Values) : separator ∉ values.encode := by
  have pieces : ∀ pairs : List (Bytes × Bytes),
      separator ∉ [ampersand].intercalate (pairs.map encodePair) := by
    intro pairs
    induction pairs with
    | nil => simp
    | cons pair pairs induction =>
        have first := encode_pair_separator_free reserved notEquals pair
        cases pairs with
        | nil => simpa using first
        | cons next others =>
            rw [List.map_cons, List.map_cons, List.intercalate_cons_cons]
            simp only [List.map_cons] at induction
            simp [first, notAmpersand, induction]
  exact pieces values.sorted

theorem mem_set {values : Values} {key value : Bytes} {pair : Bytes × Bytes} :
    pair ∈ values.set key value ↔ pair ∈ values ∧ pair.1 ≠ key ∨ pair = (key, value) := by
  simp [Values.set, List.mem_filter]

/-- A key with one value is read wherever its pair stands. -/
theorem get_of_only {values : Values} {key value : Bytes} (listed : (key, value) ∈ values)
    (only : ∀ pair ∈ values, pair.1 = key → pair.2 = value) : values.get key = value := by
  rw [Values.get]
  cases found : values.find? fun pair => pair.1 == key with
  | none =>
      have absent := List.find?_eq_none.mp found _ listed
      simp at absent
  | some pair =>
      have same := List.find?_some found
      exact only pair (List.mem_of_find?_eq_some found) (eq_of_beq same)

theorem get_encoded (values : Values) {key value : Bytes} (listed : (key, value) ∈ values)
    (only : ∀ pair ∈ values, pair.1 = key → pair.2 = value) :
    Values.get (parseQuery values.encode) key = value := by
  have members : ∀ pair, pair ∈ values.sorted ↔ pair ∈ values :=
    fun pair => List.mem_insertionSort _
  rw [parse_query_encode]
  apply get_of_only ((members _).mpr listed)
  intro pair found
  exact only pair ((members pair).mp found)

end Values

section Urls

def questionMark : UInt8 := 63

def hash : UInt8 := 35

/-- What is in front of the query: the scheme and the host as they were read, and
the text as it is written, in which both separators are escaped. -/
structure Front where
  scheme : Bytes
  host : Bytes
  text : Bytes
  plain : questionMark ∉ text ∧ hash ∉ text

/-- How the front and a fragment are read; `none` is an error. A fragment is given
as it is written. -/
structure Reader where
  front : Bytes → Option Front
  fragment : Bytes → Option Bytes

structure Url where
  front : Front
  forceQuery : Bool
  rawQuery : Bytes
  fragment : Bytes

def isControl (byte : UInt8) : Bool := byte < 32 || byte == 127

/-- `url.Parse`. -/
def Reader.parse (reader : Reader) (text : Bytes) : Option Url :=
  let main := (cut hash text).1
  let fragment := (cut hash text).2
  if main.any isControl then none
  else do
    let front ← reader.front (cut questionMark main).1
    let fragment ← if fragment = [] then some [] else reader.fragment fragment
    some ⟨front, main.count questionMark == 1 && main.getLast? == some questionMark,
      (cut questionMark main).2, fragment⟩

/-- `URL.String`. -/
def Url.text (url : Url) : Bytes :=
  url.front.text ++
    (if url.forceQuery || url.rawQuery != [] then questionMark :: url.rawQuery else []) ++
    (if url.fragment = [] then [] else hash :: url.fragment)

/-- The raw query of the text of a URL. -/
def rawQueryOf (text : Bytes) : Bytes := (cut questionMark (cut hash text).1).2

theorem raw_query_text {url : Url} (given : url.rawQuery ≠ []) (plain : hash ∉ url.rawQuery) :
    rawQueryOf url.text = url.rawQuery := by
  have written : (url.forceQuery || url.rawQuery != []) = true := by
    simp [bne_iff_ne.mpr given]
  have main : (cut hash url.text).1 = url.front.text ++ questionMark :: url.rawQuery := by
    have free : hash ∉ url.front.text ++ questionMark :: url.rawQuery := by
      simp [url.front.plain.2, plain, (by decide : hash ≠ questionMark)]
    simp only [Url.text, written, if_true]
    split_ifs
    · rw [List.append_nil, cut_absent free]
    · rw [cut_append free]
  rw [rawQueryOf, main, cut_append url.front.plain.1]

end Urls

end ChatScale.UrlQuery
