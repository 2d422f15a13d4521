import ChatScale.DeliveryPipeline

/-!
# What an id says about its random bytes

`newMessageID` overwrites the version nibble and the two variant bits and keeps
every other bit. The id can be read back, so two ids are equal exactly if the
random bytes agree in the bits that are kept. The event in an outbox row names
the id of the row, and the relay compares the two spellings.
-/

namespace ChatScale.MessageIdentity

open ChatScale.ByteText ChatScale.ByteEncodings ChatScale.TransitionSystem
open ChatScale.MessageContract ChatScale.MessageId ChatScale.MessageStoreModel
open ChatScale.MessageStoreContents ChatScale.OutboxRelayModel ChatScale.DeliveryPipeline

set_option autoImplicit false

section Bits

/-- How many of the low bits of a byte the stamp keeps. -/
def freeBits (index : Nat) : Nat := if index = 6 then 4 else if index = 8 then 6 else 8

/-- The version nibble 4 and the variant bits 10, in their places. -/
def fixedBits (index : Nat) : Nat := if index = 6 then 0x40 else if index = 8 then 0x80 else 0

def byteAt (id : Uuid) (index : Fin 16) : UInt8 := id.bytes.get (index.cast id.length.symm)

/-- An id as its random bytes with the fixed bits put in. -/
def Stamps (random id : Uuid) : Prop :=
  ∀ index : Fin 16,
    (byteAt id index).toNat = fixedBits index + (byteAt random index).toNat % 2 ^ freeBits index

/-- Agreement in every bit the stamp does not fix. -/
def AgreeOutside (left right : Uuid) : Prop :=
  ∀ index : Fin 16, ∀ bit < freeBits index,
    (byteAt left index).toNat.testBit bit = (byteAt right index).toNat.testBit bit

theorem bytes_ext {left right : Uuid} (same : ∀ index, byteAt left index = byteAt right index) :
    left = right := by
  obtain ⟨leftBytes, leftLength⟩ := left
  obtain ⟨rightBytes, rightLength⟩ := right
  have equal : leftBytes = rightBytes := by
    apply List.ext_getElem (leftLength.trans rightLength.symm)
    intro index inside _
    exact same ⟨index, leftLength ▸ inside⟩
  subst equal
  rfl

theorem version_byte : ∀ value < 256,
    (UInt8.ofNat value &&& 0x0F ||| 0x40).toNat = 0x40 + value % 2 ^ 4 := by
  decide +kernel

theorem variant_byte : ∀ value < 256,
    (UInt8.ofNat value &&& 0x3F ||| 0x80).toNat = 0x80 + value % 2 ^ 6 := by
  decide +kernel

theorem stamped_byte (random : Uuid) (index : Fin 16) :
    byteAt (stamped random) index =
      if index.val = 6 then byteAt random index &&& 0x0F ||| 0x40
      else if index.val = 8 then byteAt random index &&& 0x3F ||| 0x80
      else byteAt random index := by
  simp only [byteAt, stamped, List.get_eq_getElem, List.getElem_modify, Fin.val_cast]
  grind

theorem stamped_stamps (random : Uuid) : Stamps random (stamped random) := by
  intro index
  have small := byte_lt (byteAt random index)
  have version := version_byte _ small
  have variant := variant_byte _ small
  rw [byte_of_nat] at version variant
  rw [stamped_byte, fixedBits, freeBits]
  split_ifs
  · exact version
  · exact variant
  · rw [Nat.zero_add]
    exact (Nat.mod_eq_of_lt small).symm

theorem low_bits_equal {left right count : Nat} :
    left % 2 ^ count = right % 2 ^ count ↔
      ∀ bit < count, left.testBit bit = right.testBit bit := by
  constructor
  · intro same bit inside
    have equal := congrArg (fun value => value.testBit bit) same
    simpa [Nat.testBit_mod_two_pow, inside] using equal
  · intro same
    apply Nat.eq_of_testBit_eq
    intro bit
    rw [Nat.testBit_mod_two_pow, Nat.testBit_mod_two_pow]
    by_cases inside : bit < count
    · rw [same bit inside]
    · simp [inside]

theorem stamped_eq_iff (left right : Uuid) :
    stamped left = stamped right ↔ AgreeOutside left right := by
  constructor
  · intro same index
    have leftByte := stamped_stamps left index
    rw [same, stamped_stamps right index, Nat.add_left_cancel_iff] at leftByte
    exact low_bits_equal.mp leftByte.symm
  · intro agree
    apply bytes_ext
    intro index
    apply UInt8.toNat_inj.mp
    rw [stamped_stamps, stamped_stamps, low_bits_equal.mpr (agree index)]

end Bits

section Spelling

/-- The characters of a canonical id: hyphens and lower-case hexadecimal. -/
def isIdByte (byte : UInt8) : Bool :=
  byte == hyphen || (48 ≤ byte && byte ≤ 57) || (97 ≤ byte && byte ≤ 102)

theorem hex_digit_id (value : Nat) (bound : value < 16) : isIdByte (hexDigit value) = true := by
  interval_cases value <;> decide

theorem encode_hex_id (bytes : Bytes) : (encodeHex bytes).all isIdByte = true := by
  induction bytes with
  | nil => rfl
  | cons byte bytes induction =>
      have small := byte_lt byte
      have high := hex_digit_id (byte.toNat / 16) (by omega)
      have low := hex_digit_id (byte.toNat % 16) (by omega)
      rw [encodeHex, List.flatMap_cons, ← encodeHex]
      simp [high, low, induction]

theorem text_id_bytes (id : Uuid) : id.text.all isIdByte = true := by
  have mark : isIdByte hyphen = true := by decide
  simp only [Uuid.text, List.all_append, List.all_cons, encode_hex_id, mark, Bool.and_self]

end Spelling

section Results

variable {Caller Relay : Type} [Fintype Caller] [DecidableEq Caller] [DecidableEq Relay]

/-- The event of a row spells the id of the row. -/
theorem entry_names_row {columns : Columns} {input : Input} {message : MessageRow}
    {row : OutboxRow} {event : Event} (keeps : KeepsJson columns)
    (writes : Writes columns input message (entryOf row) event) :
    ∃ random decoded, unmarshalEvent row.event = some decoded ∧
      decoded.messageID = newMessageID random ∧ decoded.messageID = row.messageID.text := by
  obtain ⟨raw, decoded, _⟩ := stored_event_decoded keeps writes
  obtain ⟨_, _, _, _, entry⟩ := writes.entry
  obtain ⟨_, _, drafted, _⟩ := writes.message
  obtain ⟨_, random, _, made⟩ := drafted.made
  have named : row.messageID.text = event.messageID := congrArg Entry.messageID entry
  refine ⟨random, _, decoded, ?_, named.symm⟩
  rw [made]
  rfl

/-- An id has 36 lower-case characters, `parseMessageID` reads it as the random
bytes with version 4 and variant 10, and these are spelled the same again. Two
ids are equal exactly if the random bytes agree outside the six fixed bits. In
every state the store and its relays can reach, the event of each outbox row
names an id that `newMessageID` made, and it is the `message_id::text` of the
row. -/
theorem message_ids_identify (environment : Environment Relay) (inputs : Caller → Input)
    (system : System Caller Relay) (keeps : KeepsJson environment.columns)
    (reached : Reachable (step environment inputs) anyStep initial system) :
    (∀ random, (newMessageID random).length = 36 ∧ (newMessageID random).all isIdByte = true ∧
      ∃ id, parseMessageID (newMessageID random) = some id ∧ Stamps random id ∧
        id.text = newMessageID random) ∧
    (∀ left right, newMessageID left = newMessageID right ↔ AgreeOutside left right) ∧
    ∀ row ∈ system.store.db.outbox, ∃ random decoded,
      unmarshalEvent (entryOf row).event = some decoded ∧
      decoded.messageID = newMessageID random ∧
      decoded.messageID = (entryOf row).messageID := by
  refine ⟨?_, ?_, ?_⟩
  · intro random
    exact ⟨text_length _, text_id_bytes _, stamped random, parse_message_id_text _,
      stamped_stamps random, rfl⟩
  · intro left right
    rw [← stamped_eq_iff]
    constructor
    · exact text_injective
    · intro same
      rw [newMessageID, newMessageID, same]
  · intro row listed
    obtain ⟨_, _, _, _, writes⟩ := (reachable_contents reached).rows row listed
    exact entry_names_row keeps writes

theorem repeated_key_identified :
    ∃ system : System Unit Unit, Reachable (step jsonRelay repeatedKey) anyStep initial system ∧
      ∃ row ∈ system.store.db.outbox, ∃ random decoded,
        unmarshalEvent (entryOf row).event = some decoded ∧
        decoded.messageID = newMessageID random ∧
        decoded.messageID = (entryOf row).messageID := by
  obtain ⟨system, reachable, row, listed⟩ := repeated_key_stored
  exact ⟨system, reachable, row, listed, (message_ids_identify jsonRelay repeatedKey system
    json_columns_keep reachable).2.2 row listed⟩

end Results

end ChatScale.MessageIdentity
