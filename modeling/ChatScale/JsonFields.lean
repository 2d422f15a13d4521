import Mathlib.Data.List.AList
import ChatScale.CivilTime
import ChatScale.JsonValue

/-!
# Struct fields in JSON texts

How `encoding/json` fills the fields of a struct from a text, and what it
writes for them. A member belongs to a field when their names agree up to
simple case folding, a later member overwrites an earlier one, `null` leaves a
field as it is, and a value of the wrong type is an error of the whole text.
-/

namespace ChatScale.JsonFields

open ChatScale.ByteText ChatScale.ByteEncodings ChatScale.CivilTime
open ChatScale.JsonLiterals ChatScale.JsonTokens ChatScale.JsonText ChatScale.JsonValue

set_option autoImplicit false

section Decoding

/-- The two characters beyond ASCII that fold to a letter are U+017F and
U+212A. -/
def foldRune : Rune → Bytes
  | .ascii byte _ => if 0x61 ≤ byte ∧ byte ≤ 0x7A then [byte - 0x20] else [byte]
  | .multi sequence _ =>
      if sequence = [0xC5, 0xBF] then [0x53]
      else if sequence = [0xE2, 0x84, 0xAA] then [0x4B]
      else sequence
  | .stray byte _ => [byte]

def foldName (name : Bytes) : Bytes := (runes name).flatMap foldRune

def fieldMembers (name : Bytes) (members : List Member) : List Member :=
  members.filter fun member => foldName member.key.value == foldName name

/-- What a member does to the value of its field; `none` is an error. -/
abbrev Decoder (Field : Type) := Member → Field → Option Field

def decodeField {Field : Type} (decode : Decoder Field) (zero : Field) (name : Bytes)
    (members : List Member) : Option Field :=
  (fieldMembers name members).foldlM (fun value member => decode member value) zero

def decodeString : Decoder Bytes
  | member, old =>
      match member.value with
      | .word .null => some old
      | .string literal => some literal.value
      | _ => none

def decodeInt : Decoder Int
  | member, old =>
      match member.value with
      | .word .null => some old
      | .number literal => parseInt64 literal.text
      | _ => none

/-- A `json.RawMessage` takes the text of any value, `null` included. -/
def decodeRaw : Decoder Bytes
  | member, _ => some (spell member.raw)

/-- Times are read from the literal as it is spelled. -/
def decodeTime : Decoder Time
  | member, old =>
      match member.value with
      | .word .null => some old
      | .string literal => parseTime literal.text
      | _ => none

def decodeByte : Json → Option UInt8
  | .word .null => some 0
  | .number literal => do
      let value ← parseInt64 literal.text
      if 0 ≤ value ∧ value < 256 then some (UInt8.ofNat value.toNat) else none
  | _ => none

/-- A byte slice is base64 text or an array of small numbers. -/
def decodeByteSlice : Decoder Bytes
  | member, _ =>
      match member.value with
      | .word .null => some []
      | .string literal => decodeBase64 literal.value
      | .array elements => elements.mapM decodeByte
      | _ => none

def decodeHeader : StringLiteral × Json → Option (Bytes × Bytes)
  | (name, .word .null) => some (name.value, [])
  | (name, .string literal) => some (name.value, literal.value)
  | _ => none

/-- A `map[string]string`. -/
abbrev StringMap := AList fun _ : Bytes => Bytes

def setEntry (map : StringMap) (entry : Bytes × Bytes) : StringMap := map.insert entry.1 entry.2

/-- A map keeps the entries it has and gets those of the object; `null` makes it
nil. -/
def decodeHeaders : Decoder (Option StringMap)
  | member, old =>
      match member.value with
      | .word .null => some none
      | .object members =>
          (members.mapM decodeHeader).map fun entries => some (entries.foldl setEntry (old.getD ∅))
      | _ => none

/-- The members that fill a struct: those of an object; `null` has none. -/
def structMembers (text : Bytes) : Option (List Member) :=
  match parse text with
  | some (.object _) => parseMembers text
  | some (.word .null) => some []
  | _ => none

theorem decode_field_single {Field : Type} (decode : Decoder Field) (zero : Field) {name : Bytes}
    {members : List Member} {member : Member} (only : fieldMembers name members = [member]) :
    decodeField decode zero name members = decode member zero := by
  rw [decodeField, only, List.foldlM_cons]
  cases decode member zero <;> rfl

theorem decode_field_absent {Field : Type} (decode : Decoder Field) (zero : Field) {name : Bytes}
    {members : List Member} (absent : fieldMembers name members = []) :
    decodeField decode zero name members = some zero := by
  rw [decodeField, absent]
  rfl

/-- No member folds to the name of a field without being spelled like it. -/
def Unfolded (members : List Member) (name : Bytes) : Prop :=
  ∀ member ∈ members, foldName member.key.value = foldName name → member.key.value = name

theorem field_members_none {members : List Member} {name : Bytes} (spelled : Unfolded members name)
    (absent : lastMember (members.map Member.entry) name = none) :
    fieldMembers name members = [] := by
  induction members with
  | nil => rfl
  | cons first others induction =>
      rw [List.map_cons, Member.entry, lastMember] at absent
      have tail : lastMember (others.map Member.entry) name = none := by
        cases found : lastMember (others.map Member.entry) name with
        | none => rfl
        | some value => rw [found] at absent; cases absent
      rw [tail] at absent
      have different : first.key.value ≠ name := by
        intro same
        rw [if_pos same] at absent
        cases absent
      have unfolded : foldName first.key.value ≠ foldName name :=
        fun same => different (spelled first (by simp) same)
      have rest := induction (fun member listed => spelled member (by simp [listed])) tail
      rw [fieldMembers, List.filter_cons_of_neg (by simpa using unfolded)]
      exact rest

theorem last_member_absent {members : List Member} {name : Bytes}
    (absent : name ∉ members.map fun member => member.key.value) :
    lastMember (members.map Member.entry) name = none := by
  induction members with
  | nil => rfl
  | cons first others induction =>
      rw [List.map_cons, List.mem_cons, not_or] at absent
      rw [List.map_cons, Member.entry, lastMember, induction absent.2, if_neg (Ne.symm absent.1)]

theorem last_member_mem {entries : List (StringLiteral × Json)} {name : Bytes} {value : Json}
    (found : lastMember entries name = some value) :
    ∃ entry ∈ entries, entry.1.value = name := by
  induction entries with
  | nil => cases found
  | cons first others induction =>
      obtain ⟨key, tree⟩ := first
      rw [lastMember] at found
      cases tail : lastMember others name with
      | some later =>
          rw [tail] at found
          obtain ⟨entry, listed, same⟩ := induction (tail.trans found)
          exact ⟨entry, by simp [listed], same⟩
      | none =>
          rw [tail] at found
          by_cases same : key.value = name
          · exact ⟨(key, tree), by simp, same⟩
          · simp [same] at found

theorem last_member_present {entries : List (StringLiteral × Json)}
    {entry : StringLiteral × Json} (listed : entry ∈ entries) :
    (lastMember entries entry.1.value).isSome = true := by
  induction entries with
  | nil => cases listed
  | cons first others induction =>
      obtain ⟨key, tree⟩ := first
      rw [lastMember]
      cases tail : lastMember others entry.1.value with
      | some later => rfl
      | none =>
          rcases List.mem_cons.mp listed with rfl | listed
          · simp
          · rw [tail] at induction
            cases induction listed

/-- Among members of distinct keys, a field is filled by the one member of its
name. -/
theorem field_members_one {members : List Member} {name : Bytes} {value : Json}
    (distinct : (members.map fun member => member.key.value).Nodup)
    (spelled : Unfolded members name)
    (found : lastMember (members.map Member.entry) name = some value) :
    ∃ member ∈ members, fieldMembers name members = [member] ∧ member.value = value := by
  induction members with
  | nil => cases found
  | cons first others induction =>
      rw [List.map_cons, List.nodup_cons] at distinct
      have exactTail : Unfolded others name :=
        fun member listed => spelled member (by simp [listed])
      rw [List.map_cons, Member.entry, lastMember] at found
      by_cases same : first.key.value = name
      · have absent := last_member_absent (same ▸ distinct.1)
        rw [absent, if_pos same] at found
        cases found
        have rest := field_members_none exactTail absent
        refine ⟨first, by simp, ?_, rfl⟩
        rw [fieldMembers, List.filter_cons_of_pos (by simp [same])]
        exact congrArg (first :: ·) rest
      · have unfolded : foldName first.key.value ≠ foldName name :=
          fun folded => same (spelled first (by simp) folded)
        rw [if_neg same] at found
        cases tail : lastMember (others.map Member.entry) name with
        | none => rw [tail] at found; cases found
        | some other =>
            rw [tail] at found
            cases found
            obtain ⟨member, listed, only, holds⟩ := induction distinct.2 exactTail tail
            refine ⟨member, by simp [listed], ?_, holds⟩
            rw [fieldMembers, List.filter_cons_of_neg (by simpa using unfolded)]
            exact only

end Decoding

section Encoding

theorem plain_byte {byte : UInt8} (plain : isPlainByte byte = true) :
    byte < 0x80 ∧ byte ≠ backslash ∧ byte ≠ quoteMark ∧ ¬byte < 0x20 := by
  grind [isPlainByte]

/-- Plain text is spelled as it is and reads as it is spelled. -/
theorem plain_text {text : Bytes} (plain : isPlainText text = true) :
    isLiteral text = true ∧ unescape text = text ∧ isValidUtf8 text = true := by
  induction text with
  | nil => exact ⟨rfl, rfl, rfl⟩
  | cons byte text induction =>
      rw [isPlainText, List.all_cons, Bool.and_eq_true] at plain
      obtain ⟨small, notEscape, notQuote, printable⟩ := plain_byte plain.1
      obtain ⟨literal, read, valid⟩ := induction plain.2
      refine ⟨?_, ?_, ?_⟩
      · rw [is_literal_plain text notEscape notQuote printable, literal]
      · rw [unescape_plain text notEscape, read]
      · rw [isValidUtf8, runes_ascii_append small]
        exact valid

def plainLiteral (text : Bytes) (plain : isPlainText text = true) : StringLiteral :=
  ⟨text, (plain_text plain).1⟩

theorem value_plain_literal {text : Bytes} (plain : isPlainText text = true) :
    (plainLiteral text plain).value = text := by
  obtain ⟨_, read, valid⟩ := plain_text plain
  rw [StringLiteral.value, plainLiteral, read, to_valid_utf8_of_valid valid]

theorem digit_plain {byte : UInt8} (digit : isDigit byte = true) : isPlainByte byte = true := by
  have notQuote : byte ≠ quoteMark := by
    rintro rfl
    cases digit
  have notEscape : byte ≠ backslash := by
    rintro rfl
    cases digit
  grind [isPlainByte, isDigit]

theorem digits_plain {text : Bytes} (digits : text.all isDigit = true) :
    isPlainText text = true :=
  List.all_eq_true.mpr fun byte member => digit_plain (List.all_eq_true.mp digits byte member)

theorem plain_append {left right : Bytes} :
    isPlainText (left ++ right) = (isPlainText left && isPlainText right) := List.all_append

theorem plain_cons {byte : UInt8} {rest : Bytes} :
    isPlainText (byte :: rest) = (isPlainByte byte && isPlainText rest) := List.all_cons

theorem fixed_digits_plain (width value : Nat) : isPlainText (fixedDigits width value) = true :=
  digits_plain (fixed_digits_all width value)

theorem format_fraction_plain (nanos : Nat) : isPlainText (formatFraction nanos) = true := by
  unfold formatFraction
  split_ifs
  · rfl
  · have digits := List.all_eq_true.mp (fixed_digits_plain 9 nanos)
    rw [plain_cons, Bool.and_eq_true]
    refine ⟨by decide, List.all_eq_true.mpr fun byte member => digits byte ?_⟩
    exact (List.rdropWhile_prefix _ _).subset member

theorem format_zone_plain (offset : Int) : isPlainText (formatZone offset) = true := by
  unfold formatZone
  split_ifs
  · decide
  all_goals
    rw [List.cons_append, plain_cons, plain_append, plain_cons, fixed_digits_plain,
      fixed_digits_plain]
    decide

theorem format_time_plain (time : Time) : isPlainText time.format = true := by
  simp only [Time.format, plain_append, plain_cons, fixed_digits_plain, format_fraction_plain,
    format_zone_plain]
  decide

theorem base64_plain (bytes : Bytes) : isPlainText (encodeBase64 bytes) = true := by
  refine List.all_eq_true.mpr fun byte member => ?_
  obtain ⟨lower, upper, notEscape⟩ := encode_base64_printable bytes byte member
  have notQuote : byte ≠ quoteMark := by
    rintro rfl
    exact absurd lower (by decide)
  grind [isPlainByte, backslash]

theorem format_nat_literal (value : Nat) :
    isUnsigned (formatNat value) = true ∧ (formatNat value).head? ≠ some 0x2D ∧
      (formatNat value).all isNumberByte = true := by
  have digits := format_nat_digits value
  have all : (formatNat value).all isNumberByte = true :=
    List.all_eq_true.mpr fun byte member => by
      simp [isNumberByte, List.all_eq_true.mp digits byte member]
  obtain ⟨first, rest, same, digit⟩ := format_nat_head_digit value
  refine ⟨?_, ?_, all⟩
  · rcases Nat.eq_zero_or_pos value with rfl | positive
    · decide +kernel
    · obtain ⟨head, tail, headPositive, headBound, spelled⟩ := format_nat_head value positive
      rw [spelled, List.all_cons, Bool.and_eq_true] at digits
      have notZero : decimalDigit head ≠ 0x30 := by
        interval_cases head <;> decide
      have rest : tail.dropWhile isDigit = [] :=
        List.dropWhile_eq_nil_iff.mpr (List.all_eq_true.mp digits.2)
      rw [spelled, isUnsigned, if_neg notZero, digits.1, rest]
      rfl
  · rw [same]
    intro minus
    cases minus
    cases digit

theorem format_int_literal (value : Int) :
    isNumberLiteral (formatInt value) = true ∧ isPlainInteger (formatInt value) = true := by
  have signed {text : Bytes} (notMinus : text.head? ≠ some 0x2D)
      (unsigned : isUnsigned text = true) : isSigned text = true := by
    cases text with
    | nil => cases unsigned
    | cons first rest =>
        rw [isSigned, if_neg (fun same => notMinus (by rw [same]; rfl)), unsigned]
  cases value with
  | ofNat value =>
      obtain ⟨unsigned, notMinus, all⟩ := format_nat_literal value
      obtain ⟨first, rest, same, digit⟩ := format_nat_head_digit value
      constructor
      · rw [formatInt, isNumberLiteral, all, signed notMinus unsigned]
        rfl
      · have notSign : ¬(first = 0x2B ∨ first = 0x2D) := by
          rintro (rfl | rfl) <;> cases digit
        have digits := format_nat_digits value
        rw [same] at digits
        have notMinusZero : (first :: rest != ascii "-0") = true := by
          rw [bne_iff_ne]
          intro minusZero
          exact notSign (.inr (List.cons_eq_cons.mp minusZero).1)
        rw [formatInt, isPlainInteger, same, dropSign, if_neg notSign, digits, notMinusZero]
        rfl
  | negSucc value =>
      obtain ⟨unsigned, _, all⟩ := format_nat_literal (value + 1)
      constructor
      · rw [formatInt, isNumberLiteral, List.all_cons, all, isSigned, if_pos rfl, unsigned]
        rfl
      · have notMinusZero : (0x2D :: formatNat (value + 1) != ascii "-0") = true := by
          rw [bne_iff_ne]
          intro minusZero
          have read := congrArg readDigits (List.cons_eq_cons.mp minusZero).2
          rw [read_digits_format_nat] at read
          exact absurd read (Nat.succ_ne_zero value)
        rw [formatInt, isPlainInteger, dropSign, if_pos (by decide), format_nat_digits,
          notMinusZero]
        rfl

def encodeString (text : Bytes) : Json := .string (StringLiteral.ofBytes text)

def encodeInt (value : Int) : Json := .number ⟨formatInt value, (format_int_literal value).1⟩

/-- The text of a time that `MarshalJSON` does not refuse. -/
def encodeTime (time : Time) : Json := .string (plainLiteral time.format (format_time_plain time))

def encodeByteSlice (bytes : Bytes) : Json :=
  .string (plainLiteral (encodeBase64 bytes) (base64_plain bytes))

/-- A raw message is compacted; it has to be one JSON value. -/
def encodeRaw (raw : Bytes) : Option Json := (parse raw).map htmlEscaped

/-- A nil map is `null`; the keys of a map are sorted. -/
def encodeHeaders : Option StringMap → Json
  | none => .word .null
  | some headers =>
      .object ((headers.entries.mergeSort fun left right => decide (left.1 ≤ right.1)).map
        fun header => (StringLiteral.ofBytes header.1, encodeString header.2))

def fieldName (name : String) : StringLiteral := StringLiteral.ofBytes (ascii name)

end Encoding

section Structs

/-- The object `json.Marshal` writes for a struct. -/
def structTree (fields : List (String × Json)) : Json :=
  .object (fields.map fun field => (fieldName field.1, field.2))

/-- Names of fields that case folding keeps apart. -/
def FoldDistinct (names : List Bytes) : Prop :=
  ∀ left ∈ names, ∀ right ∈ names, foldName left = foldName right → left = right

instance (names : List Bytes) : Decidable (FoldDistinct names) := by
  unfold FoldDistinct
  infer_instance

/-- A text with an object whose keys are distinct and all in `names`. -/
structure Fills (text : Bytes) (names : List Bytes) (entries : List (StringLiteral × Json)) :
    Prop where
  parsed : parse text = some (.object entries)
  distinct : (entries.map fun entry => entry.1.value).Nodup
  known : ∀ entry ∈ entries, entry.1.value ∈ names

/-- A member that alone decides its field. -/
structure Decides (members : List Member) (name : Bytes) (member : Member) (tree : Json) :
    Prop where
  only : fieldMembers name members = [member]
  value : member.value = tree
  raw : parse (spell member.raw) = some tree

theorem value_of_valid {text : Bytes} (valid : isValidUtf8 text = true) :
    (StringLiteral.ofBytes text).value = text := by
  rw [value_of_bytes, to_valid_utf8_of_valid valid]

/-- Looking a name up among distinct names finds the field in its place. -/
theorem last_member_at (entries : List (StringLiteral × Json)) (index : Nat)
    (entry : StringLiteral × Json) (placed : entries[index]? = some entry)
    (distinct : (entries.map fun entry => entry.1.value).Nodup) :
    lastMember entries entry.1.value = some entry.2 := by
  induction entries generalizing index with
  | nil => cases placed
  | cons first others induction =>
      rw [List.map_cons, List.nodup_cons] at distinct
      cases index with
      | zero =>
          have same : first = entry := by simpa using placed
          subst same
          have later : lastMember others first.1.value = none := by
            cases found : lastMember others first.1.value with
            | none => rfl
            | some value =>
                obtain ⟨entry, listed, same⟩ := last_member_mem found
                exact absurd (same ▸ List.mem_map_of_mem listed) distinct.1
          obtain ⟨key, tree⟩ := first
          rw [lastMember, later]
          simp
      | succ index =>
          obtain ⟨key, tree⟩ := first
          rw [lastMember, induction index placed distinct.2]

theorem struct_entry_names {fields : List (String × Json)} {names : List String}
    (named : fields.map Prod.fst = names)
    (valid : ∀ name ∈ names, isValidUtf8 (ascii name) = true) :
    ((fields.map fun field => (fieldName field.1, field.2)).map fun entry => entry.1.value) =
      names.map ascii := by
  subst named
  rw [List.map_map, List.map_map]
  apply List.map_congr_left
  intro field listed
  exact value_of_valid (valid field.1 (List.mem_map_of_mem listed))

/-- Every field of a struct is found under its name. -/
theorem struct_member {fields : List (String × Json)} {names : List String}
    (named : fields.map Prod.fst = names)
    (valid : ∀ name ∈ names, isValidUtf8 (ascii name) = true)
    (distinct : (names.map ascii).Nodup) (index : Nat) {name : String} {value : Json}
    (placed : fields[index]? = some (name, value)) :
    lastMember (fields.map fun field => (fieldName field.1, field.2)) (ascii name) =
      some value := by
  have listed : name ∈ names := by
    rw [← named]
    exact List.mem_map_of_mem (List.mem_of_getElem? placed)
  have found := last_member_at (fields.map fun field => (fieldName field.1, field.2)) index
    (fieldName name, value) (by rw [List.getElem?_map, placed]; rfl)
    (by rw [struct_entry_names named valid]; exact distinct)
  have same : (fieldName name).value = ascii name := value_of_valid (valid name listed)
  rw [← same]
  exact found

theorem struct_fills {fields : List (String × Json)} {names : List String}
    (named : fields.map Prod.fst = names)
    (valid : ∀ name ∈ names, isValidUtf8 (ascii name) = true)
    (distinct : (names.map ascii).Nodup) :
    Fills (render (structTree fields)) (names.map ascii)
      (fields.map fun field => (fieldName field.1, field.2)) where
  parsed := parse_render _
  distinct := by
    rw [struct_entry_names named valid]
    exact distinct
  known := by
    intro entry listed
    rw [← struct_entry_names named valid]
    exact List.mem_map_of_mem listed

theorem struct_members_object {text : Bytes} {entries : List (StringLiteral × Json)}
    (parsed : parse text = some (.object entries)) :
    ∃ members, structMembers text = some members ∧ members.map Member.entry = entries ∧
      ∀ member ∈ members, parse (spell member.raw) = some member.value := by
  obtain ⟨members, found, same⟩ := members_of_parse parsed
  exact ⟨members, by rw [structMembers, parsed, found], same, parse_member_raw found⟩

theorem entry_keys (members : List Member) :
    (members.map Member.entry).map (fun entry => entry.1.value) =
      members.map fun member => member.key.value := by
  rw [List.map_map]
  rfl

/-- Every field whose name the object has is decided by one member. -/
theorem fills_members {text : Bytes} {names : List Bytes}
    {entries : List (StringLiteral × Json)} (fills : Fills text names entries)
    (apart : FoldDistinct names) :
    ∃ members, structMembers text = some members ∧
      (∀ name ∈ names, ∀ value, lastMember entries name = some value →
        ∃ member, Decides members name member value) ∧
      ∀ name, (∀ other ∈ names, foldName other ≠ foldName name) →
        fieldMembers name members = [] := by
  obtain ⟨members, found, rfl, raw⟩ := struct_members_object fills.parsed
  have distinct := fills.distinct
  rw [entry_keys] at distinct
  have known (member : Member) (listed : member ∈ members) : member.key.value ∈ names :=
    fills.known member.entry (List.mem_map_of_mem listed)
  refine ⟨members, found, ?_, ?_⟩
  · intro name named value last
    have spelled : Unfolded members name := fun member listed folded =>
      apart _ (known member listed) name named folded
    obtain ⟨member, listed, only, same⟩ := field_members_one distinct spelled last
    exact ⟨member, only, same, same ▸ raw member listed⟩
  · intro name different
    refine List.filter_eq_nil_iff.mpr fun member listed => ?_
    simpa using different _ (known member listed)

/-- Decoding a marshalled struct, each field is decided by what was written for
it. -/
theorem struct_decides {fields : List (String × Json)} {names : List String}
    (named : fields.map Prod.fst = names)
    (valid : ∀ name ∈ names, isValidUtf8 (ascii name) = true)
    (distinct : (names.map ascii).Nodup) (apart : FoldDistinct (names.map ascii)) :
    ∃ members, structMembers (render (structTree fields)) = some members ∧
      ∀ (index : Nat) (name : String) (value : Json), fields[index]? = some (name, value) →
        ∃ member, Decides members (ascii name) member value := by
  obtain ⟨members, found, decides, _⟩ := fills_members (struct_fills named valid distinct) apart
  refine ⟨members, found, ?_⟩
  intro index name value placed
  apply decides (ascii name) _ value (struct_member named valid distinct index placed)
  rw [← named]
  exact List.mem_map_of_mem (List.mem_map_of_mem (List.mem_of_getElem? placed))

/-- A stored object still has distinct keys out of the same names. -/
theorem fills_stored {text : Bytes} {names : List Bytes}
    {entries stored : List (StringLiteral × Json)} (parsed : parse text = some (.object stored))
    (kept : StoredAs (.object entries) (.object stored))
    (known : ∀ entry ∈ entries, entry.1.value ∈ names) : Fills text names stored := by
  cases kept with
  | object _ _ distinct keys each =>
      refine ⟨parsed, distinct, fun entry listed => ?_⟩
      have present := keys entry.1.value
      rw [last_member_present listed] at present
      obtain ⟨value, found⟩ := Option.isSome_iff_exists.mp present.symm
      obtain ⟨other, otherListed, same⟩ := last_member_mem found
      rw [← same]
      exact known other otherListed

end Structs

end ChatScale.JsonFields
