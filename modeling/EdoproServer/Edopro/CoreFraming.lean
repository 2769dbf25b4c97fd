import EdoproServer.Edopro.Delivery
import EdoproServer.Messages.Buffers

namespace EdoproServer.Edopro
open Lib Messages

/-! ## Messages on the standard output of the core -/

/-- `Duel::send_message` -/
def sendMessage (message : String) : Buffer :=
  Buffer.bytes32 (Buffer.ofUtf8 message).length ++ Buffer.ofUtf8 message

def stdout (messages : List String) : Buffer := messages.flatMap sendMessage

structure JSONMessageProcessor where
  buffer : Buffer
  size : Nat
  data : String

namespace JSONMessageProcessor

def new : JSONMessageProcessor := { buffer := [], size := 0, data := "" }

variable (processor : JSONMessageProcessor)

def read (data : Buffer) : JSONMessageProcessor :=
  { processor with buffer := processor.buffer ++ data }

def isMessageReady : Bool :=
  if processor.buffer.length < 4 then false
  else
    match processor.buffer.readUInt32LE 0 with
    | .ok messageSize => messageSize + 4 ≤ processor.buffer.length
    | .error _ => false

def process : JSONMessageProcessor :=
  if !processor.isMessageReady then processor
  else
    match processor.buffer.readUInt32LE 0 with
    | .ok size =>
      { buffer := processor.buffer.drop (size + 4)
        size := size
        data := (processor.buffer.subarray 4 (size + 4)).utf8ToString }
    | .error _ => processor

def clear (_ : JSONMessageProcessor) : JSONMessageProcessor := new

end JSONMessageProcessor

/-! ## The dueling state as the reader of the core -/

/-- How the handler of a message ends. FINISH clears the processor, whatever the room has seen. -/
inductive HandlerEnd where
  | done
  | finished
  | raised
  deriving DecidableEq, Repr

/-- What a message does, given those before it. -/
abbrev Handler := List String → String → HandlerEnd

inductive DuelFinish where
  | finish
  | surrender
  deriving DecidableEq, Repr

/-- `handed` are the messages the dueling state was handed until the duel ended, `late` those after
that, and `deferred` counts the continuations that the event loop has not run yet. -/
structure CoreReader where
  processor : JSONMessageProcessor
  deferred : Nat
  ended : Option DuelFinish
  handed : List String
  late : List String

/-- What happens to the reader: bytes of the core, a turn of the event loop, a SURRENDER. -/
inductive ReaderEvent where
  | data (chunk : Buffer)
  | immediate
  | surrender
  deriving DecidableEq

namespace CoreReader

def new : CoreReader :=
  { processor := .new, deferred := 0, ended := none, handed := [], late := [] }

/-- The processor has a message and the dueling state is handed it. -/
def hand (reader : CoreReader) : CoreReader :=
  let processor := reader.processor.process
  if reader.ended.isNone then
    { reader with processor := processor, handed := reader.handed ++ [processor.data] }
  else { reader with processor := processor, late := reader.late ++ [processor.data] }

/-- Both FINISH and SURRENDER clear the processor. The first of them ends the duel. -/
def finish (how : DuelFinish) (reader : CoreReader) : CoreReader :=
  { reader with processor := reader.processor.clear, ended := reader.ended.or (some how) }

def MAX_MESSAGES_PER_TICK : Nat := 1000

section

variable (handler : Handler)

/-- At most `limit` messages are processed. The flag tells whether a handler raised. -/
def processMessages : Nat → CoreReader → CoreReader × Bool
  | 0, reader => (reader, false)
  | limit + 1, reader =>
    if reader.processor.isMessageReady then
      match handler (reader.handed ++ reader.late) reader.processor.process.data with
      | .done => processMessages limit reader.hand
      | .finished => processMessages limit (reader.hand.finish .finish)
      | .raised => (reader.hand, true)
    else (reader, false)

/-- What remains after a batch is deferred, unless a handler raised. -/
def processMessage (reader : CoreReader) : CoreReader :=
  let (processed, raised) := processMessages handler MAX_MESSAGES_PER_TICK reader
  if !raised && processed.processor.isMessageReady then
    { processed with deferred := processed.deferred + 1 }
  else processed

/-- Exceptions end in the log, in a turn of the event loop as well. -/
def step (reader : CoreReader) : ReaderEvent → CoreReader
  | .data chunk =>
    processMessage handler { reader with processor := reader.processor.read chunk }
  | .immediate =>
    if reader.deferred = 0 then reader
    else processMessage handler { reader with deferred := reader.deferred - 1 }
  | .surrender => reader.finish .surrender

def run (events : List ReaderEvent) (reader : CoreReader) : CoreReader :=
  events.foldl (step handler) reader

end

end CoreReader

def ReaderEvent.bytes : ReaderEvent → Buffer
  | .data chunk => chunk
  | _ => []

/-- The bytes that arrived in a run. -/
def received (events : List ReaderEvent) : Buffer := events.flatMap ReaderEvent.bytes

/-- The messages up to the one that finishes the duel. -/
def upToFinish (handler : Handler) : List String → List String → List String
  | _, [] => []
  | before, message :: messages =>
    if handler before message = .finished then [message]
    else message :: upToFinish handler (before ++ [message]) messages

/-! ## One frame at the head of the buffer -/

theorem readUInt32LE_sendMessage {message : String} (h : (Buffer.ofUtf8 message).length < 2 ^ 32)
    (rest : Buffer) :
    Buffer.readUInt32LE (sendMessage message ++ rest) 0 =
      .ok (Buffer.ofUtf8 message).length := by
  rw [sendMessage, List.append_assoc]
  exact Buffer.readUInt32LE_bytes32 h _

@[simp] theorem length_sendMessage (message : String) :
    (sendMessage message).length = (Buffer.ofUtf8 message).length + 4 := by
  rw [sendMessage, List.length_append, Buffer.length_bytes32, Nat.add_comm]

/-- The size can be read as soon as its four bytes are there. -/
theorem readUInt32LE_append {part : Buffer} (h : 4 ≤ part.length) (rest : Buffer) :
    Buffer.readUInt32LE (part ++ rest) 0 = Buffer.readUInt32LE part 0 := by
  match part, h with
  | a :: b :: c :: d :: part, _ => rfl

namespace JSONMessageProcessor

variable {processor : JSONMessageProcessor} {message : String} {tail rest : Buffer}

theorem isMessageReady_of_frame (hsize : (Buffer.ofUtf8 message).length < 2 ^ 32)
    (h : processor.buffer = sendMessage message ++ tail) : processor.isMessageReady = true := by
  have hlength : processor.buffer.length = (Buffer.ofUtf8 message).length + 4 + tail.length := by
    simp [h]
  have hread := readUInt32LE_sendMessage hsize tail
  rw [← h] at hread
  rw [isMessageReady, if_neg (by omega), hread]
  exact decide_eq_true (by omega)

theorem process_frame (hsize : (Buffer.ofUtf8 message).length < 2 ^ 32)
    (h : processor.buffer = sendMessage message ++ tail) :
    processor.process.buffer = tail ∧ processor.process.data = message := by
  have hread := readUInt32LE_sendMessage hsize tail
  rw [← h] at hread
  have hdrop : processor.buffer.drop ((Buffer.ofUtf8 message).length + 4) = tail := by
    rw [h, List.drop_left' (length_sendMessage message)]
  have hdata : processor.buffer.subarray 4 ((Buffer.ofUtf8 message).length + 4) =
      Buffer.ofUtf8 message := by
    rw [h, Buffer.subarray, List.take_left' (length_sendMessage message), sendMessage,
      List.drop_left' (Buffer.length_bytes32 _)]
  simp only [process, isMessageReady_of_frame hsize h, hread, hdrop, hdata, Bool.not_true,
    Bool.false_eq_true, if_false, Buffer.utf8ToString_ofUtf8, and_self]

/-- An incomplete frame is not ready. -/
theorem not_ready_of_part (hsize : (Buffer.ofUtf8 message).length < 2 ^ 32)
    (h : processor.buffer ++ rest = sendMessage message) (hrest : rest ≠ []) :
    processor.isMessageReady = false := by
  have hlength : processor.buffer.length + rest.length = (Buffer.ofUtf8 message).length + 4 := by
    rw [← List.length_append, h, length_sendMessage]
  have hpos := List.length_pos_iff.mpr hrest
  unfold isMessageReady
  split
  · rfl
  · rename_i hfour
    have hread := readUInt32LE_sendMessage hsize []
    rw [List.append_nil, ← h, readUInt32LE_append (by omega)] at hread
    rw [hread]
    exact decide_eq_false (by omega)

/-- What is buffered of a stream of frames is ready exactly when its first frame is complete. -/
theorem ready_iff {messages : List String} {future : Buffer}
    (hsize : ∀ m ∈ messages, (Buffer.ofUtf8 m).length < 2 ^ 32)
    (h : processor.buffer ++ future = stdout messages) :
    processor.isMessageReady = true ↔
      ∃ message rest tail, messages = message :: rest ∧
        processor.buffer = sendMessage message ++ tail ∧ tail ++ future = stdout rest := by
  constructor
  · intro hready
    cases messages with
    | nil =>
      have hempty : processor.buffer = [] := (List.append_eq_nil_iff.mp h).1
      simp [isMessageReady, hempty] at hready
    | cons message rest =>
      rcases List.append_eq_append_iff.mp h with ⟨missing, hframe, hfuture⟩ | ⟨tail, hbuffer, htail⟩
      · by_cases hmissing : missing = []
        · refine ⟨message, rest, [], rfl, ?_, ?_⟩
          · rw [List.append_nil, hframe, hmissing, List.append_nil]
          · rw [hfuture, hmissing]
            rfl
        · rw [not_ready_of_part (hsize message (by simp)) hframe.symm hmissing] at hready
          cases hready
      · exact ⟨message, rest, tail, rfl, hbuffer, htail.symm⟩
  · rintro ⟨message, rest, tail, rfl, hbuffer, _⟩
    exact isMessageReady_of_frame (hsize message (by simp)) hbuffer

end JSONMessageProcessor

/-! ## What the dueling state is handed -/

/-- No handler raises up to the end of the duel. -/
def Quiet (handler : Handler) (messages : List String) : Prop :=
  ∀ before message after, upToFinish handler [] messages = before ++ message :: after →
    handler before message ≠ .raised

namespace CoreReader

/-- Up to the end of the duel the reader was handed the first messages, and `future` is what is
still to come of their bytes. -/
structure Faithful (handler : Handler) (messages : List String) (future : Buffer)
    (reader : CoreReader) : Prop where
  reading : reader.ended = none → reader.late = [] ∧ ∃ rest, messages = reader.handed ++ rest ∧
    reader.processor.buffer ++ future = stdout rest ∧
      upToFinish handler [] messages = reader.handed ++ upToFinish handler reader.handed rest
  finished : reader.ended = some .finish → reader.handed = upToFinish handler [] messages
  surrendered : reader.ended = some .surrender →
    reader.handed <+: upToFinish handler [] messages

/-- A complete message in the buffer has a turn of the event loop to come. -/
def Scheduled (reader : CoreReader) : Prop :=
  reader.ended = none → reader.processor.isMessageReady = true → 0 < reader.deferred

variable {handler : Handler} {messages : List String} {future : Buffer} {reader : CoreReader}

/-- What comes after the end of the duel changes nothing. -/
theorem Faithful.after {reader' : CoreReader} (h : Faithful handler messages future reader)
    (hended : reader.ended ≠ none) (hsame : reader'.ended = reader.ended)
    (hhanded : reader'.handed = reader.handed) (future' : Buffer) :
    Faithful handler messages future' reader' where
  reading := fun hnone => absurd (hsame.symm.trans hnone) hended
  finished := fun hfinish => by rw [hhanded, h.finished (hsame.symm.trans hfinish)]
  surrendered := fun hsurrender => by
    rw [hhanded]
    exact h.surrendered (hsame.symm.trans hsurrender)

theorem Faithful.handed_prefix (h : Faithful handler messages future reader) :
    reader.handed <+: upToFinish handler [] messages := by
  cases hended : reader.ended with
  | none =>
    obtain ⟨_, rest, _, _, hmessages⟩ := h.reading hended
    exact ⟨_, hmessages.symm⟩
  | some how =>
    cases how with
    | finish =>
      rw [h.finished hended]
    | surrender => exact h.surrendered hended

theorem Faithful.surrender (h : Faithful handler messages future reader) (future' : Buffer) :
    Faithful handler messages future' (reader.finish .surrender) := by
  cases hended : reader.ended with
  | none =>
    refine ⟨?_, ?_, fun _ => h.handed_prefix⟩
    · intro hnone
      simp [finish, hended] at hnone
    · intro hfinish
      simp [finish, hended] at hfinish
  | some how =>
    have hsame : (reader.finish .surrender).ended = reader.ended := by simp [finish, hended]
    exact h.after (by simp [hended]) hsame rfl future'

/-- One message of the stream is handed over. -/
theorem hand_reading (hsize : ∀ m ∈ messages, (Buffer.ofUtf8 m).length < 2 ^ 32)
    (h : Faithful handler messages future reader) (hended : reader.ended = none)
    (hready : reader.processor.isMessageReady = true) :
    ∃ message rest, messages = reader.handed ++ message :: rest ∧
      reader.processor.process.data = message ∧
      reader.processor.process.buffer ++ future = stdout rest ∧
      upToFinish handler [] messages =
        reader.handed ++ upToFinish handler reader.handed (message :: rest) := by
  obtain ⟨_, rest, hmessages, hbuffer, hupTo⟩ := h.reading hended
  have hrest : ∀ m ∈ rest, (Buffer.ofUtf8 m).length < 2 ^ 32 := by
    intro m hm
    exact hsize m (by simp [hmessages, hm])
  obtain ⟨message, rest', tail, rfl, hframe, htail⟩ :=
    (JSONMessageProcessor.ready_iff hrest hbuffer).mp hready
  obtain ⟨hprocess, hdata⟩ := JSONMessageProcessor.process_frame (hrest message (by simp)) hframe
  exact ⟨message, rest', hmessages, hdata, by rw [hprocess, htail], hupTo⟩

theorem processMessages_faithful (hsize : ∀ m ∈ messages, (Buffer.ofUtf8 m).length < 2 ^ 32)
    (hquiet : Quiet handler messages) (limit : Nat)
    (h : Faithful handler messages future reader) :
    Faithful handler messages future (processMessages handler limit reader).1 ∧
      ((processMessages handler limit reader).1.ended = none →
        (processMessages handler limit reader).2 = false) := by
  induction limit generalizing reader with
  | zero => exact ⟨h, fun _ => rfl⟩
  | succ limit ih =>
    unfold processMessages
    split
    · rename_i hready
      cases hended : reader.ended with
      | none =>
        obtain ⟨message, rest, hmessages, hdata, hbuffer, hupTo⟩ :=
          hand_reading hsize h hended hready
        have hlate := (h.reading hended).1
        have hhand : reader.hand = { reader with
            processor := reader.processor.process, handed := reader.handed ++ [message] } := by
          simp [hand, hended, hdata]
        rw [hdata, hlate, List.append_nil, hhand]
        cases houtcome : handler reader.handed message with
        | done =>
          apply ih
          refine ⟨fun _ => ⟨hlate, rest, ?_, hbuffer, ?_⟩, ?_, ?_⟩
          · rw [hmessages, List.append_assoc]
            rfl
          · rw [hupTo, upToFinish, houtcome, if_neg (by simp), List.append_assoc]
            rfl
          · intro hfinish
            simp [hended] at hfinish
          · intro hsurrender
            simp [hended] at hsurrender
        | finished =>
          apply ih
          refine ⟨?_, ?_, ?_⟩
          · intro hnone
            simp [finish, hended] at hnone
          · intro _
            rw [hupTo, upToFinish, houtcome, if_pos rfl]
            rfl
          · intro hsurrender
            simp [finish, hended] at hsurrender
        | raised =>
          rw [upToFinish, houtcome, if_neg (by simp)] at hupTo
          exact absurd houtcome (hquiet _ _ _ hupTo)
      | some how =>
        have hne : reader.ended ≠ none := by simp [hended]
        have hhand : Faithful handler messages future reader.hand :=
          h.after hne (by simp [hand, hended]) (by simp [hand, hended]) future
        have hhanded : reader.hand.ended = some how := by simp [hand, hended]
        split
        · exact ih hhand
        · have hsame : (reader.hand.finish .finish).ended = reader.hand.ended := by
            simp [finish, hhanded]
          exact ih (hhand.after (by simp [hhanded]) hsame rfl future)
        · refine ⟨hhand, ?_⟩
          intro hnone
          simp [hhanded] at hnone
    · exact ⟨h, fun _ => rfl⟩

/-- After a batch the rest is scheduled. -/
theorem processMessage_faithful (hsize : ∀ m ∈ messages, (Buffer.ofUtf8 m).length < 2 ^ 32)
    (hquiet : Quiet handler messages) (h : Faithful handler messages future reader) :
    Faithful handler messages future (processMessage handler reader) ∧
      Scheduled (processMessage handler reader) := by
  obtain ⟨hfaithful, hraised⟩ := processMessages_faithful hsize hquiet MAX_MESSAGES_PER_TICK h
  unfold processMessage
  dsimp only
  split
  · exact ⟨⟨hfaithful.reading, hfaithful.finished, hfaithful.surrendered⟩,
      fun _ _ => Nat.succ_pos _⟩
  · rename_i hidle
    refine ⟨hfaithful, ?_⟩
    intro hended hready
    rw [hraised hended, hready] at hidle
    exact absurd rfl hidle

theorem processMessages_not_surrendered (limit : Nat) (h : reader.ended ≠ some .surrender) :
    (processMessages handler limit reader).1.ended ≠ some .surrender := by
  induction limit generalizing reader with
  | zero => exact h
  | succ limit ih =>
    have hhand : reader.hand.ended = reader.ended := by
      unfold hand
      dsimp only
      split
      · rfl
      · rfl
    unfold processMessages
    split
    · split
      · exact ih (hhand ▸ h)
      · apply ih
        cases hended : reader.ended with
        | none => simp [finish, hhand, hended]
        | some how => simpa [finish, hhand, hended] using h
      · exact hhand ▸ h
    · exact h

theorem processMessage_not_surrendered (h : reader.ended ≠ some .surrender) :
    (processMessage handler reader).ended ≠ some .surrender := by
  have hprocessed : (processMessages handler MAX_MESSAGES_PER_TICK reader).1.ended ≠
      some .surrender := processMessages_not_surrendered MAX_MESSAGES_PER_TICK h
  unfold processMessage
  dsimp only
  split
  · exact hprocessed
  · exact hprocessed

/-! ## Every run -/

theorem step_faithful (hsize : ∀ m ∈ messages, (Buffer.ofUtf8 m).length < 2 ^ 32)
    (hquiet : Quiet handler messages) {event : ReaderEvent}
    (h : Faithful handler messages (event.bytes ++ future) reader) (hscheduled : Scheduled reader) :
    Faithful handler messages future (step handler reader event) ∧
      Scheduled (step handler reader event) := by
  cases event with
  | data chunk =>
    apply processMessage_faithful hsize hquiet
    refine ⟨?_, h.finished, h.surrendered⟩
    intro hnone
    obtain ⟨hlate, rest, hmessages, hbuffer, hupTo⟩ := h.reading hnone
    refine ⟨hlate, rest, hmessages, ?_, hupTo⟩
    rw [← hbuffer, JSONMessageProcessor.read, List.append_assoc]
    rfl
  | immediate =>
    rw [step]
    split
    · exact ⟨h, hscheduled⟩
    · exact processMessage_faithful hsize hquiet ⟨h.reading, h.finished, h.surrendered⟩
  | surrender =>
    refine ⟨h.surrender future, ?_⟩
    intro hnone
    cases hended : reader.ended <;> simp [step, finish, hended] at hnone

theorem run_faithful (hsize : ∀ m ∈ messages, (Buffer.ofUtf8 m).length < 2 ^ 32)
    (hquiet : Quiet handler messages) (events : List ReaderEvent)
    (h : Faithful handler messages (received events ++ future) reader)
    (hscheduled : Scheduled reader) :
    Faithful handler messages future (run handler events reader) ∧
      Scheduled (run handler events reader) := by
  induction events generalizing reader with
  | nil => exact ⟨h, hscheduled⟩
  | cons event events ih =>
    have hbytes : received (event :: events) ++ future =
        event.bytes ++ (received events ++ future) := by
      rw [received, List.flatMap_cons, List.append_assoc]
      rfl
    rw [hbytes] at h
    obtain ⟨h', hscheduled'⟩ := step_faithful hsize hquiet h hscheduled
    exact ih h' hscheduled'

theorem run_not_surrendered {events : List ReaderEvent} (hevents : .surrender ∉ events)
    (h : reader.ended ≠ some .surrender) : (run handler events reader).ended ≠ some .surrender := by
  induction events generalizing reader with
  | nil => exact h
  | cons event events ih =>
    refine ih (fun hmem => hevents (List.mem_cons_of_mem _ hmem)) ?_
    cases event with
    | data chunk => exact processMessage_not_surrendered h
    | immediate =>
      rw [step]
      split
      · exact h
      · exact processMessage_not_surrendered h
    | surrender => simp at hevents

theorem new_faithful (handler : Handler) (messages : List String) :
    Faithful handler messages (stdout messages) new where
  reading := fun _ => ⟨rfl, messages, rfl, rfl, rfl⟩
  finished := fun h => by cases h
  surrendered := fun h => by cases h

end CoreReader

/-- However the stream is cut, the dueling state is handed the first messages up to the end of the
duel, and all of them once the stream has arrived, nothing is deferred and nobody surrendered. -/
def HandedOver (handler : Handler) (messages : List String) (events : List ReaderEvent) : Prop :=
  (CoreReader.run handler events .new).handed <+: upToFinish handler [] messages ∧
    (received events = stdout messages → (CoreReader.run handler events .new).deferred = 0 →
      .surrender ∉ events →
        (CoreReader.run handler events .new).handed = upToFinish handler [] messages)

/-- When no handler raises and every size fits its four bytes, every run over a chunking of the
stream hands over its messages. -/
theorem handedOver_of_quiet (handler : Handler) (messages : List String)
    (events : List ReaderEvent) (hquiet : Quiet handler messages)
    (hsize : ∀ message ∈ messages, (Buffer.ofUtf8 message).length < 2 ^ 32)
    (hchunks : received events <+: stdout messages) : HandedOver handler messages events := by
  obtain ⟨future, hfuture⟩ := hchunks
  have hnew := CoreReader.new_faithful handler messages
  rw [← hfuture] at hnew
  obtain ⟨hfaithful, hscheduled⟩ := CoreReader.run_faithful hsize hquiet events hnew
    (fun _ hready => by cases hready)
  refine ⟨hfaithful.handed_prefix, ?_⟩
  intro hall hidle hevents
  rw [hall] at hfuture
  have hnothing : future = [] := by simpa using hfuture
  cases hended : (CoreReader.run handler events .new).ended with
  | none =>
    obtain ⟨_, rest, hmessages, hbuffer, hupTo⟩ := hfaithful.reading hended
    cases rest with
    | nil => rw [hupTo, upToFinish, List.append_nil]
    | cons message rest =>
      rw [hnothing, List.append_nil] at hbuffer
      have hready := JSONMessageProcessor.isMessageReady_of_frame
        (hsize message (by simp [hmessages])) hbuffer
      have hpos := hscheduled hended hready
      omega
  | some how =>
    cases how with
    | finish => exact hfaithful.finished hended
    | surrender =>
      exact absurd hended (CoreReader.run_not_surrendered hevents (by simp [CoreReader.new]))

def finishMessage : String := "\x7b\"reason\":0,\"type\":\"FINISH\",\"winner\":0\x7d"

/-- The handler of FINISH, and of messages that change nothing. -/
def finishHandler : Handler := fun _ message =>
  if message = finishMessage then .finished else .done

/-- The size of the last message arrives in two chunks. -/
theorem handedOver_cut : HandedOver finishHandler [finishMessage]
    [.data ((stdout [finishMessage]).take 3), .data ((stdout [finishMessage]).drop 3),
      .immediate] := by
  apply handedOver_of_quiet
  · intro before message after _
    unfold finishHandler
    split
    · simp
    · simp
  · intro message hmessage
    rw [List.mem_singleton.mp hmessage]
    decide +kernel
  · refine ⟨[], ?_⟩
    simp [received, ReaderEvent.bytes]

/-! ## A message whose handler raises -/

/-- What follows such a message in the last chunk stays in the buffer for good. -/
theorem raised_strands {handler : Handler} {message : String} (next : String)
    (hsize : (Buffer.ofUtf8 message).length < 2 ^ 32) (hraises : handler [] message = .raised) :
    (CoreReader.run handler [.data (stdout [message, next])] .new).handed = [message] ∧
      (CoreReader.run handler [.data (stdout [message, next])] .new).deferred = 0 := by
  have hbuffer : (JSONMessageProcessor.new.read (stdout [message, next])).buffer =
      sendMessage message ++ stdout [next] := rfl
  have hready := JSONMessageProcessor.isMessageReady_of_frame hsize hbuffer
  obtain ⟨_, hdata⟩ := JSONMessageProcessor.process_frame hsize hbuffer
  have hbatch : CoreReader.processMessages handler CoreReader.MAX_MESSAGES_PER_TICK
      { CoreReader.new with processor := JSONMessageProcessor.new.read (stdout [message, next]) } =
        (CoreReader.hand { CoreReader.new with
          processor := JSONMessageProcessor.new.read (stdout [message, next]) }, true) := by
    rw [CoreReader.MAX_MESSAGES_PER_TICK, CoreReader.processMessages, if_pos hready, hdata]
    simp only [CoreReader.new, List.append_nil, hraises]
  have hrun : CoreReader.run handler [.data (stdout [message, next])] .new =
      CoreReader.hand { CoreReader.new with
        processor := JSONMessageProcessor.new.read (stdout [message, next]) } := by
    rw [CoreReader.run, List.foldl_cons, List.foldl_nil, CoreReader.step,
      CoreReader.processMessage]
    have hstart : CoreReader.new.processor.read (stdout [message, next]) =
        JSONMessageProcessor.new.read (stdout [message, next]) := rfl
    rw [hstart, hbatch]
    rfl
  rw [hrun]
  refine ⟨?_, rfl⟩
  change [(JSONMessageProcessor.new.read (stdout [message, next])).process.data] = [message]
  rw [hdata]

def hexDigit (n : Nat) : Char := Nat.digitChar n

/-- A REPLAY message with its data in hexadecimal digits. -/
def replayMessage (data : List UInt8) : String :=
  "\x7b\"data\":\"" ++
    String.ofList (data.flatMap (fun b => [hexDigit (b.toNat / 16), hexDigit (b.toNat % 16)])) ++
      "\",\"type\":\"REPLAY\"\x7d"

/-- The update of a deck of several hundred cards in a room that allows it. -/
def largeUpdate : List UInt8 := List.replicate 65536 0

/-- The handlers of these two messages. The payload of a replay message starts with its length in
two bytes. -/
def replayHandler : Handler := fun _ message =>
  if message = replayMessage largeUpdate then
    if (decimalToBytesBuffer largeUpdate.length 2).isNone then .raised else .done
  else if message = finishMessage then .finished
  else .done

theorem replayHandler_raises : replayHandler [] (replayMessage largeUpdate) = .raised := by
  have hdoes_not_fit : (decimalToBytesBuffer largeUpdate.length 2).isNone = true := by
    rw [largeUpdate, List.length_replicate]
    decide
  rw [replayHandler, if_pos rfl, if_pos hdoes_not_fit]

theorem length_encode_le (text : List Char) : (Utf8.encode text).length ≤ 4 * text.length := by
  induction text with
  | nil => rfl
  | cons c text ih =>
    have hc := c.utf8Size_le_four
    rw [Utf8.encode_cons, List.length_append, String.length_utf8EncodeChar, List.length_cons]
    omega

theorem length_replayMessage (data : List UInt8) :
    (replayMessage data).toList.length = 2 * data.length + 27 := by
  have hdigits : (data.flatMap (fun b =>
      [hexDigit (b.toNat / 16), hexDigit (b.toNat % 16)])).length = 2 * data.length := by
    rw [List.length_flatMap, Nat.mul_comm]
    simp
  simp only [replayMessage, String.toList_append, String.toList_ofList, List.length_append, hdigits]
  have hbefore : "\x7b\"data\":\"".toList.length = 9 := by decide
  have hafter : "\",\"type\":\"REPLAY\"\x7d".toList.length = 18 := by decide
  omega

theorem replayMessage_size : (Buffer.ofUtf8 (replayMessage largeUpdate)).length < 2 ^ 32 := by
  have hle := length_encode_le (replayMessage largeUpdate).toList
  rw [length_replayMessage, largeUpdate, List.length_replicate] at hle
  exact Nat.lt_of_le_of_lt hle (by decide)

/-- The message before FINISH does not fit, and FINISH is never handed over. -/
theorem finish_stranded : ¬HandedOver replayHandler [replayMessage largeUpdate, finishMessage]
    [.data (stdout [replayMessage largeUpdate, finishMessage])] := by
  rintro ⟨_, hall⟩
  obtain ⟨hhanded, hidle⟩ := raised_strands finishMessage replayMessage_size
    replayHandler_raises
  have hfinish := hall (List.append_nil _) hidle (by simp)
  rw [hhanded, upToFinish, replayHandler_raises, if_neg (by simp)] at hfinish
  simp [upToFinish] at hfinish

end EdoproServer.Edopro
