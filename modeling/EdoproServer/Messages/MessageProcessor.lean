import Mathlib.Data.List.Basic

namespace EdoproServer.Messages

abbrev Buffer := List UInt8

/-- `buffer.subarray(start, end)`: both ends are clamped to the buffer. -/
def Buffer.subarray (buffer : Buffer) (start stop : Nat) : Buffer :=
  (buffer.take stop).drop start

/-- The unsigned 16-bit number in the first two bytes. -/
def Buffer.readUint16LE : Buffer → Nat
  | low :: high :: _ => low.toNat + 256 * high.toNat
  | _ => 0

/-- The same two bytes read as a signed number. -/
def Buffer.readInt16LE (buffer : Buffer) : Int :=
  if buffer.readUint16LE < 0x8000 then buffer.readUint16LE else buffer.readUint16LE - 0x10000

structure ClientMessage where
  raw : Buffer
  data : Buffer
  previousMessage : Option Buffer
  previousRawMessage : Option Buffer
  size : Nat
  command : UInt8
  deriving DecidableEq, Repr

/-- The fields of the last message are unset until the first one; nothing reads them before. -/
structure MessageProcessor where
  buffer : Buffer := []
  size : Nat := 0
  command : UInt8 := 0
  data : Buffer := []
  raw : Buffer := []
  previousMessage : Option Buffer := none
  previousRawMessage : Option Buffer := none
  deriving DecidableEq, Repr

inductive RangeError where
  | outOfRange
  deriving DecidableEq, Repr

namespace MessageProcessor

def read (p : MessageProcessor) (data : Buffer) : MessageProcessor :=
  { p with buffer := p.buffer ++ data }

def isMessageReady (p : MessageProcessor) : Bool :=
  if p.buffer.length < 2 then false
  else (p.buffer.length : Int) - 2 ≥ p.buffer.readInt16LE

/-- What the next message will carry as the previous one. -/
def keepPrevious (p : MessageProcessor) : MessageProcessor :=
  if p.data.length ≠ 0 then
    { p with previousMessage := some p.data, previousRawMessage := some p.raw }
  else p

/-- Takes one message off the buffer. Reading the command of a buffer that holds nothing but a
size raises, with the previous message and the size already updated. -/
def process (p : MessageProcessor) : MessageProcessor × Option RangeError :=
  if p.isMessageReady then
    let p := p.keepPrevious
    let p := { p with size := p.buffer.readUint16LE }
    match p.buffer.drop 2 with
    | [] => (p, some .outOfRange)
    | command :: _ =>
      ({ p with
          command := command
          data := p.buffer.subarray 3 (p.size + 2)
          raw := p.buffer.subarray 0 (p.size + 2)
          buffer := p.buffer.drop (p.size + 2) }, none)
  else (p, none)

def payload (p : MessageProcessor) : ClientMessage :=
  { raw := p.raw
    data := p.data
    size := p.size
    command := p.command
    previousMessage := p.previousMessage
    previousRawMessage := p.previousRawMessage }

@[simp] theorem read_buffer (p : MessageProcessor) (data : Buffer) :
    (p.read data).buffer = p.buffer ++ data := rfl

@[simp] theorem keepPrevious_buffer (p : MessageProcessor) :
    p.keepPrevious.buffer = p.buffer := by
  unfold keepPrevious
  split <;> rfl

theorem ready_length {p : MessageProcessor} (h : p.isMessageReady = true) :
    2 ≤ p.buffer.length := by
  unfold isMessageReady at h
  split at h
  · cases h
  · omega

/-- Every message taken off shortens the buffer, whatever size it declares. -/
theorem process_shrinks {p p' : MessageProcessor} (hready : p.isMessageReady = true)
    (h : p.process = (p', none)) : p'.buffer.length < p.buffer.length := by
  have hlength := ready_length hready
  simp only [process, hready, if_true, keepPrevious_buffer] at h
  split at h
  · simp at h
  · obtain ⟨rfl, -⟩ := Prod.mk.inj h
    simp only [List.length_drop]
    omega

end MessageProcessor

/-! ## The emitter -/

/-- What one call of the emitter leaves: the processor, the messages it processed in order and
the exception that ended it, if any. -/
structure Emission where
  processor : MessageProcessor
  messages : List ClientMessage
  error : Option RangeError
  deriving DecidableEq, Repr

namespace MessageEmitter
open MessageProcessor

/-- Processes messages until the buffer holds no complete one. -/
def processMessage (p : MessageProcessor) : Emission :=
  if _hready : p.isMessageReady = true then
    match _hprocess : p.process with
    | (p', some error) => { processor := p', messages := [], error := some error }
    | (p', none) =>
      let rest := processMessage p'
      { rest with messages := p'.payload :: rest.messages }
  else { processor := p, messages := [], error := none }
termination_by p.buffer.length
decreasing_by exact process_shrinks _hready _hprocess

def handleMessage (p : MessageProcessor) (data : Buffer) : Emission :=
  processMessage (p.read data)

/-- Delivers chunks one by one. An exception ends one delivery only: the process-wide handler
logs it and the next chunk finds the processor as the exception left it. -/
def deliver (p : MessageProcessor) : List Buffer → MessageProcessor × List ClientMessage
  | [] => (p, [])
  | chunk :: chunks =>
    let emission := handleMessage p chunk
    let rest := deliver emission.processor chunks
    (rest.1, emission.messages ++ rest.2)

end MessageEmitter

end EdoproServer.Messages
