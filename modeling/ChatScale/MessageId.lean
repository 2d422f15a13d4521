import ChatScale.MessageContract

/-!
# Message ids

Sixteen bytes, stamped as a random UUID and spelled in lower-case hexadecimal
in five groups. The database spells its `uuid` values the same way.
-/

namespace ChatScale.MessageId

open ChatScale.ByteText ChatScale.ByteEncodings ChatScale.JsonValue ChatScale.JsonFields

set_option autoImplicit false

structure Uuid where
  bytes : Bytes
  length : bytes.length = 16
  deriving DecidableEq

def hyphen : UInt8 := 0x2D

/-- The canonical spelling, also what `message_id::text` gives. -/
def Uuid.text (id : Uuid) : Bytes :=
  encodeHex (id.bytes.take 4) ++ hyphen :: (encodeHex ((id.bytes.drop 4).take 2) ++
    hyphen :: (encodeHex ((id.bytes.drop 6).take 2) ++
      hyphen :: (encodeHex ((id.bytes.drop 8).take 2) ++ hyphen :: encodeHex (id.bytes.drop 10))))

/-- Version and variant bits over sixteen random bytes. -/
def stamped (random : Uuid) : Uuid where
  bytes := (random.bytes.modify 6 fun byte => byte &&& 0x0F ||| 0x40).modify 8
    fun byte => byte &&& 0x3F ||| 0x80
  length := by rw [List.length_modify, List.length_modify, random.length]

def newMessageID (random : Uuid) : Bytes := (stamped random).text

def parseMessageID (value : Bytes) : Option Uuid := do
  let raw ← decodeHex (value.filter fun byte => byte != hyphen)
  if length : raw.length = 16 then some ⟨raw, length⟩ else none

/-- The `uuid` input of the database, for the canonical spelling. -/
def castUuid (text : Bytes) : Option Uuid :=
  (parseMessageID text).filter fun id => id.text == text

theorem hex_digit_range (value : Nat) (bound : value < 16) :
    hexDigit value ≠ hyphen ∧ isPlainByte (hexDigit value) = true ∧
      32 < hexDigit value ∧ hexDigit value < 0x80 := by
  interval_cases value <;> decide

theorem encode_hex_range (bytes : Bytes) :
    ∀ byte ∈ encodeHex bytes,
      byte ≠ hyphen ∧ isPlainByte byte = true ∧ 32 < byte ∧ byte < 0x80 := by
  intro byte member
  obtain ⟨source, _, spelled⟩ := List.mem_flatMap.mp member
  have small := byte_lt source
  rcases List.mem_pair.mp spelled with rfl | rfl
  · exact hex_digit_range _ (by omega)
  · exact hex_digit_range _ (by omega)

theorem encode_hex_no_hyphen (bytes : Bytes) :
    (encodeHex bytes).filter (fun byte => byte != hyphen) = encodeHex bytes := by
  apply List.filter_eq_self.mpr
  intro byte member
  simpa using (encode_hex_range bytes byte member).1

theorem encode_hex_append (left right : Bytes) :
    encodeHex (left ++ right) = encodeHex left ++ encodeHex right := List.flatMap_append

/-- Without its hyphens the canonical spelling is the hexadecimal of the bytes. -/
theorem text_without_hyphens (id : Uuid) :
    id.text.filter (fun byte => byte != hyphen) = encodeHex id.bytes := by
  have pieces : id.bytes = id.bytes.take 4 ++ ((id.bytes.drop 4).take 2 ++
      ((id.bytes.drop 6).take 2 ++ ((id.bytes.drop 8).take 2 ++ id.bytes.drop 10))) := by
    have cut (count next : Nat) : id.bytes.drop count =
        (id.bytes.drop count).take next ++ id.bytes.drop (count + next) := by
      rw [← List.drop_drop, List.take_append_drop]
    rw [← cut 8 2, ← cut 6 2, ← cut 4 2, List.take_append_drop]
  have drop (rest : Bytes) : (hyphen :: rest).filter (fun byte => byte != hyphen) =
      rest.filter fun byte => byte != hyphen := by simp
  rw [Uuid.text, List.filter_append, drop, List.filter_append, drop, List.filter_append, drop,
    List.filter_append, drop]
  simp only [encode_hex_no_hyphen]
  rw [← encode_hex_append, ← encode_hex_append, ← encode_hex_append, ← encode_hex_append, ← pieces]

theorem parse_message_id_text (id : Uuid) : parseMessageID id.text = some id := by
  simp only [parseMessageID, text_without_hyphens, decode_hex_encode, Option.bind_eq_bind,
    Option.bind_some, id.length, dif_pos]

theorem cast_uuid_text (id : Uuid) : castUuid id.text = some id := by
  rw [castUuid, parse_message_id_text, Option.filter_some]
  simp

theorem cast_uuid_some {text : Bytes} {id : Uuid} (cast : castUuid text = some id) :
    id.text = text := by
  have checked := (Option.filter_eq_some_iff.mp cast).2
  exact eq_of_beq checked

theorem text_injective {left right : Uuid} (same : left.text = right.text) : left = right := by
  have parsed := parse_message_id_text left
  rw [same, parse_message_id_text] at parsed
  exact (Option.some.inj parsed).symm

theorem text_plain (id : Uuid) : isPlainText id.text = true := by
  have hex (bytes : Bytes) : isPlainText (encodeHex bytes) = true :=
    List.all_eq_true.mpr fun byte member => (encode_hex_range bytes byte member).2.1
  have mark : isPlainByte hyphen = true := by decide
  simp only [Uuid.text, plain_append, plain_cons, hex, mark, Bool.and_self]

theorem text_length (id : Uuid) : id.text.length = 36 := by
  have hex (bytes : Bytes) : (encodeHex bytes).length = 2 * bytes.length := by
    induction bytes with
    | nil => rfl
    | cons byte rest induction =>
        rw [encodeHex, List.flatMap_cons, List.length_append, ← encodeHex, induction]
        simp only [List.length_cons, List.length_nil]
        omega
  simp only [Uuid.text, List.length_append, List.length_cons, hex, List.length_take,
    List.length_drop, id.length]
  decide

theorem text_not_blank (id : Uuid) : isBlank id.text = false := by
  obtain ⟨bytes, length⟩ := id
  match bytes, length with
  | first :: rest, length =>
      have small := byte_lt first
      obtain ⟨_, _, printable, ascii⟩ := hex_digit_range (first.toNat / 16) (by omega)
      exact not_blank_of_head printable ascii

end ChatScale.MessageId
