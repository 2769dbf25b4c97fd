import EdoproServer.Lib.Utf8
import EdoproServer.Messages.MessageProcessor

namespace EdoproServer.Messages
open Lib

/-- What a read or a write of a buffer gives, or the exception it raises. -/
abbrev Raises := Except RangeError

namespace Buffer

/-! ## Reading -/

/-- Raises past the end. -/
def readUInt8 (buffer : Buffer) (offset : Nat) : Raises UInt8 :=
  match buffer[offset]? with
  | some byte => .ok byte
  | none => .error .outOfRange

def readUInt16LE (buffer : Buffer) (offset : Nat) : Raises Nat := do
  let low ← buffer.readUInt8 offset
  let high ← buffer.readUInt8 (offset + 1)
  return low.toNat + 0x100 * high.toNat

def readUInt32LE (buffer : Buffer) (offset : Nat) : Raises Nat := do
  let low ← buffer.readUInt16LE offset
  let high ← buffer.readUInt16LE (offset + 2)
  return low + 0x10000 * high

/-- `buffer.toString("utf8")` -/
def utf8ToString (buffer : Buffer) : String := String.ofList (Utf8.decode buffer)

/-! ## Writing -/

/-- `Buffer.from(text, "utf8")` -/
def ofUtf8 (text : String) : Buffer := Utf8.encode text.toList

/-- `Buffer.from([value])`, which keeps the low byte only. -/
def ofByte (value : Nat) : Buffer := [UInt8.ofNat value]

def bytes16 (value : Nat) : Buffer := [UInt8.ofNat (value % 0x100), UInt8.ofNat (value / 0x100)]

def bytes32 (value : Nat) : Buffer := bytes16 (value % 0x10000) ++ bytes16 (value / 0x10000)

/-- Raises if the number takes more than two bytes. -/
def writeUInt16LE (value : Nat) : Raises Buffer :=
  if value < 0x10000 then .ok (bytes16 value) else .error .outOfRange

def writeUInt32LE (value : Nat) : Raises Buffer :=
  if value < 0x100000000 then .ok (bytes32 value) else .error .outOfRange

/-! ## Reading what was written -/

@[simp] theorem length_bytes16 (value : Nat) : (bytes16 value).length = 2 := rfl

@[simp] theorem length_bytes32 (value : Nat) : (bytes32 value).length = 4 := rfl

theorem writeUInt16LE_of_lt {value : Nat} (h : value < 0x10000) :
    writeUInt16LE value = .ok (bytes16 value) := if_pos h

theorem writeUInt32LE_of_lt {value : Nat} (h : value < 0x100000000) :
    writeUInt32LE value = .ok (bytes32 value) := if_pos h

@[simp] theorem readUInt8_cons_zero (byte : UInt8) (rest : Buffer) :
    readUInt8 (byte :: rest) 0 = .ok byte := rfl

@[simp] theorem readUInt8_cons_succ (byte : UInt8) (rest : Buffer) (offset : Nat) :
    readUInt8 (byte :: rest) (offset + 1) = readUInt8 rest offset := by
  rw [readUInt8, readUInt8, List.getElem?_cons_succ]

/-- A read past a first part is a read of the rest. -/
theorem readUInt8_skip {before : Buffer} {length : Nat} (h : before.length = length)
    (rest : Buffer) (offset : Nat) :
    readUInt8 (before ++ rest) (length + offset) = readUInt8 rest offset := by
  rw [readUInt8, readUInt8, List.getElem?_append_right (by omega), h, Nat.add_sub_cancel_left]

theorem readUInt16LE_skip {before : Buffer} {length : Nat} (h : before.length = length)
    (rest : Buffer) (offset : Nat) :
    readUInt16LE (before ++ rest) (length + offset) = readUInt16LE rest offset := by
  rw [readUInt16LE, readUInt16LE, readUInt8_skip h, Nat.add_assoc, readUInt8_skip h]

theorem readUInt32LE_skip {before : Buffer} {length : Nat} (h : before.length = length)
    (rest : Buffer) (offset : Nat) :
    readUInt32LE (before ++ rest) (length + offset) = readUInt32LE rest offset := by
  rw [readUInt32LE, readUInt32LE, readUInt16LE_skip h, Nat.add_assoc, readUInt16LE_skip h]

theorem readUInt16LE_bytes16 {value : Nat} (h : value < 0x10000) (rest : Buffer) :
    readUInt16LE (bytes16 value ++ rest) 0 = .ok value := by
  have hlow : (UInt8.ofNat (value % 0x100)).toNat = value % 0x100 := by
    rw [UInt8.toNat_ofNat']
    omega
  have hhigh : (UInt8.ofNat (value / 0x100)).toNat = value / 0x100 := by
    rw [UInt8.toNat_ofNat']
    omega
  change Except.ok ((UInt8.ofNat (value % 0x100)).toNat +
    0x100 * (UInt8.ofNat (value / 0x100)).toNat) = _
  rw [hlow, hhigh, Nat.mod_add_div]

theorem readUInt32LE_bytes32 {value : Nat} (h : value < 0x100000000) (rest : Buffer) :
    readUInt32LE (bytes32 value ++ rest) 0 = .ok value := by
  have hlow : readUInt16LE (bytes32 value ++ rest) 0 = .ok (value % 0x10000) := by
    rw [bytes32, List.append_assoc]
    exact readUInt16LE_bytes16 (by omega) _
  have hhigh : readUInt16LE (bytes32 value ++ rest) (0 + 2) = .ok (value / 0x10000) := by
    rw [bytes32, List.append_assoc, Nat.add_comm,
      readUInt16LE_skip (length_bytes16 (value % 0x10000))]
    exact readUInt16LE_bytes16 (by omega) _
  rw [readUInt32LE, hlow, hhigh]
  change Except.ok (value % 0x10000 + 0x10000 * (value / 0x10000)) = _
  rw [Nat.mod_add_div]

/-- Two bytes are the bytes of the number they make. -/
theorem bytes16_of_bytes (low high : UInt8) :
    bytes16 (low.toNat + 0x100 * high.toNat) = [low, high] := by
  have hlow := low.toNat_lt
  have hhigh := high.toNat_lt
  have hmod : (low.toNat + 0x100 * high.toNat) % 0x100 = low.toNat := by omega
  have hdiv : (low.toNat + 0x100 * high.toNat) / 0x100 = high.toNat := by omega
  rw [bytes16, hmod, hdiv, UInt8.ofNat_toNat, UInt8.ofNat_toNat]

/-- The number of four bytes. -/
def word (a b c d : UInt8) : Nat :=
  a.toNat + 0x100 * b.toNat + 0x10000 * (c.toNat + 0x100 * d.toNat)

theorem word_lt (a b c d : UInt8) : word a b c d < 0x100000000 := by
  have ha := a.toNat_lt
  have hb := b.toNat_lt
  have hc := c.toNat_lt
  have hd := d.toNat_lt
  unfold word
  omega

theorem bytes32_word (a b c d : UInt8) : bytes32 (word a b c d) = [a, b, c, d] := by
  have ha := a.toNat_lt
  have hb := b.toNat_lt
  have hmod : word a b c d % 0x10000 = a.toNat + 0x100 * b.toNat := by
    unfold word
    omega
  have hdiv : word a b c d / 0x10000 = c.toNat + 0x100 * d.toNat := by
    unfold word
    omega
  rw [bytes32, hmod, hdiv, bytes16_of_bytes, bytes16_of_bytes]
  rfl

theorem exists_word {value : Nat} (h : value < 0x100000000) :
    ∃ a b c d, bytes32 value = [a, b, c, d] ∧ word a b c d = value := by
  have hread := readUInt32LE_bytes32 h []
  exact ⟨_, _, _, _, rfl, Except.ok.inj hread⟩

/-- Text comes back from its bytes. -/
@[simp] theorem utf8ToString_ofUtf8 (text : String) : (ofUtf8 text).utf8ToString = text := by
  rw [utf8ToString, ofUtf8, Utf8.decode_encode, String.ofList_toList]

end Buffer

end EdoproServer.Messages
