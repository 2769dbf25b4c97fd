import EdoproServer.Messages.MessageProcessor

namespace EdoproServer.Messages
open MessageEmitter

/-- A well-formed client frame: a command and a payload the 16-bit size can count. -/
structure Frame where
  command : UInt8
  payload : Buffer
  fits : payload.length + 1 ≤ 65535

namespace Frame

/-- The size a frame declares: its command byte and its payload. -/
def size (f : Frame) : Nat := f.payload.length + 1

def bytes (f : Frame) : Buffer :=
  UInt8.ofNat (f.size % 256) :: UInt8.ofNat (f.size / 256) :: f.command :: f.payload

@[simp] theorem length_bytes (f : Frame) : f.bytes.length = f.size + 2 := by
  simp [bytes, size]

theorem size_pos (f : Frame) : 0 < f.size := Nat.succ_pos _

theorem size_le (f : Frame) : f.size ≤ 65535 := f.fits

end Frame

/-- The bytes a list of frames puts on the wire. -/
def wire (frames : List Frame) : Buffer := frames.flatMap Frame.bytes

@[simp] theorem wire_nil : wire [] = [] := rfl

@[simp] theorem wire_cons (f : Frame) (frames : List Frame) :
    wire (f :: frames) = f.bytes ++ wire frames := rfl

/-- The data and the raw bytes a message carries of an earlier one. -/
abbrev Previous := Option Buffer × Option Buffer

/-- Only a frame with a payload becomes the previous message of the frames after it. -/
def Frame.becomesPrevious (f : Frame) (previous : Previous) : Previous :=
  if f.payload.length ≠ 0 then (some f.payload, some f.bytes) else previous

def Frame.message (f : Frame) (previous : Previous) : ClientMessage :=
  { raw := f.bytes
    data := f.payload
    size := f.size
    command := f.command
    previousMessage := previous.1
    previousRawMessage := previous.2 }

/-- The messages of a list of frames, each once and in order. -/
def messagesOf : Previous → List Frame → List ClientMessage
  | _, [] => []
  | previous, f :: frames => f.message previous :: messagesOf (f.becomesPrevious previous) frames

/-- Where the bookkeeping of previous messages stands. -/
def MessageProcessor.previous (p : MessageProcessor) : Previous :=
  (p.keepPrevious.previousMessage, p.keepPrevious.previousRawMessage)

@[simp] theorem MessageProcessor.read_previous (p : MessageProcessor) (data : Buffer) :
    (p.read data).previous = p.previous := by
  by_cases hdata : p.data.length = 0
  · simp [MessageProcessor.previous, MessageProcessor.keepPrevious, MessageProcessor.read, hdata]
  · simp [MessageProcessor.previous, MessageProcessor.keepPrevious, MessageProcessor.read, hdata]

/-! ## One frame at the head of the buffer -/

theorem readUint16LE_bytes (f : Frame) (tail : Buffer) :
    Buffer.readUint16LE (f.bytes ++ tail) = f.size := by
  have hsize := f.size_le
  simp only [Frame.bytes, List.cons_append, Buffer.readUint16LE, UInt8.toNat_ofNat']
  omega

/-- The size is readable as soon as its two bytes are there. -/
theorem readUint16LE_prefix {f : Frame} {part rest : Buffer} (h : part ++ rest = f.bytes)
    (hlength : 2 ≤ part.length) : Buffer.readUint16LE part = f.size := by
  match part, hlength with
  | low :: high :: part, _ =>
    have hread := readUint16LE_bytes f []
    rw [List.append_nil, ← h] at hread
    exact hread

theorem ready_of_frame {p : MessageProcessor} {f : Frame} {tail : Buffer}
    (h : p.buffer = f.bytes ++ tail) : p.isMessageReady = true := by
  have hread := readUint16LE_bytes f tail
  have hlength : p.buffer.length = f.size + 2 + tail.length := by simp [h]
  rw [← h] at hread
  have hsigned : p.buffer.readInt16LE ≤ f.size := by
    unfold Buffer.readInt16LE
    split <;> omega
  unfold MessageProcessor.isMessageReady
  rw [if_neg (by omega)]
  exact decide_eq_true (by omega)

theorem process_frame {p : MessageProcessor} {f : Frame} {tail : Buffer}
    (h : p.buffer = f.bytes ++ tail) :
    ∃ p', p.process = (p', none) ∧ p'.payload = f.message p.previous ∧ p'.buffer = tail ∧
      p'.previous = f.becomesPrevious p.previous := by
  have hread := readUint16LE_bytes f tail
  have hdrop : (f.bytes ++ tail).drop 2 = f.command :: (f.payload ++ tail) := rfl
  have hdata : Buffer.subarray (f.bytes ++ tail) 3 (f.size + 2) = f.payload := by
    rw [Buffer.subarray, List.take_left' f.length_bytes]
    rfl
  have hraw : Buffer.subarray (f.bytes ++ tail) 0 (f.size + 2) = f.bytes := by
    rw [Buffer.subarray, List.take_left' f.length_bytes, List.drop_zero]
  have htail : (f.bytes ++ tail).drop (f.size + 2) = tail := List.drop_left' f.length_bytes
  refine ⟨{ p.keepPrevious with
      size := f.size, command := f.command, data := f.payload, raw := f.bytes, buffer := tail },
    ?_, rfl, rfl, ?_⟩
  · simp only [MessageProcessor.process, ready_of_frame h, if_true,
      MessageProcessor.keepPrevious_buffer, h, hread, hdrop, hdata, hraw, htail]
  · simp only [MessageProcessor.previous, MessageProcessor.keepPrevious, Frame.becomesPrevious]
    split <;> rfl

theorem processMessage_frame {p : MessageProcessor} {f : Frame} {tail : Buffer}
    (h : p.buffer = f.bytes ++ tail) :
    ∃ p', p'.buffer = tail ∧ p'.previous = f.becomesPrevious p.previous ∧
      processMessage p = { processMessage p' with
        messages := f.message p.previous :: (processMessage p').messages } := by
  obtain ⟨p', hprocess, hpayload, hbuffer, hprevious⟩ := process_frame h
  refine ⟨p', hbuffer, hprevious, ?_⟩
  rw [processMessage, dif_pos (ready_of_frame h)]
  split
  · rename_i heq
    rw [hprocess] at heq
    simp at heq
  · rename_i q heq
    rw [hprocess] at heq
    obtain ⟨rfl, -⟩ := Prod.mk.inj heq
    rw [← hpayload]

/-! ## An incomplete frame at the head of the buffer -/

/-- A size from `0x8000` on is negative when read as a signed number. -/
def Frame.large (f : Frame) : Prop := 0x8000 ≤ f.size

theorem waits {p : MessageProcessor} {f : Frame} {rest : Buffer} (h : p.buffer ++ rest = f.bytes)
    (hrest : rest ≠ []) (hwait : p.buffer.length < 2 ∨ ¬ f.large) :
    p.isMessageReady = false := by
  have hlength : p.buffer.length + rest.length = f.size + 2 := by
    rw [← List.length_append, h, f.length_bytes]
  have hpos : 0 < rest.length := List.length_pos_iff.mpr hrest
  unfold MessageProcessor.isMessageReady
  by_cases hshort : p.buffer.length < 2
  · rw [if_pos hshort]
  · have hsmall : ¬ f.large := hwait.resolve_left hshort
    unfold Frame.large at hsmall
    have hread := readUint16LE_prefix h (by omega)
    have hsigned : p.buffer.readInt16LE = f.size := by
      unfold Buffer.readInt16LE
      rw [if_pos (by omega), hread]
    rw [if_neg hshort]
    exact decide_eq_false (by omega)

theorem large_ready {p : MessageProcessor} {f : Frame} {rest : Buffer}
    (h : p.buffer ++ rest = f.bytes) (hlength : 2 ≤ p.buffer.length) (hlarge : f.large) :
    p.isMessageReady = true := by
  have hread := readUint16LE_prefix h hlength
  have hsize := f.size_le
  unfold Frame.large at hlarge
  have hsigned : p.buffer.readInt16LE < 0 := by
    unfold Buffer.readInt16LE
    rw [if_neg (by omega)]
    omega
  unfold MessageProcessor.isMessageReady
  rw [if_neg (by omega)]
  exact decide_eq_true (by omega)

theorem processMessage_waits {p : MessageProcessor} (h : p.isMessageReady = false) :
    processMessage p = { processor := p, messages := [], error := none } := by
  rw [processMessage, dif_neg (by simp [h])]

/-- With the size alone in the buffer a large frame raises, and stays in the buffer. -/
theorem processMessage_raises {p : MessageProcessor} {f : Frame} {rest : Buffer}
    (h : p.buffer ++ rest = f.bytes) (hlength : p.buffer.length = 2) (hlarge : f.large) :
    ∃ p', p'.buffer = p.buffer ∧ p'.previous = p.previous ∧
      processMessage p = { processor := p', messages := [], error := some .outOfRange } := by
  have hready := large_ready h (by omega) hlarge
  have hdrop : p.buffer.drop 2 = [] := List.drop_eq_nil_of_le (by omega)
  have hprocess : p.process =
      ({ p.keepPrevious with size := p.buffer.readUint16LE }, some .outOfRange) := by
    simp only [MessageProcessor.process, hready, if_true, MessageProcessor.keepPrevious_buffer,
      hdrop]
  refine ⟨{ p.keepPrevious with size := p.buffer.readUint16LE }, ?_, ?_, ?_⟩
  · simp
  · simp only [MessageProcessor.previous, MessageProcessor.keepPrevious]
    split <;> simp_all
  · rw [processMessage, dif_pos hready]
    split
    · rename_i heq
      rw [hprocess] at heq
      obtain ⟨rfl, herror⟩ := Prod.mk.inj heq
      rw [Option.some.inj herror]
    · rename_i heq
      rw [hprocess] at heq
      simp at heq

/-- With its command in the buffer a large frame is taken for complete. -/
theorem processMessage_truncates {p : MessageProcessor} {f : Frame} {rest : Buffer}
    (h : p.buffer ++ rest = f.bytes) (hlength : 3 ≤ p.buffer.length) (hlarge : f.large) :
    ∃ message messages, (processMessage p).messages = message :: messages ∧
      message.raw = p.buffer := by
  have hready := large_ready h (by omega) hlarge
  have hread := readUint16LE_prefix h (by omega)
  have hle : p.buffer.length ≤ f.size + 2 := by
    rw [← f.length_bytes, ← h, List.length_append]
    omega
  obtain ⟨command, data, hdrop⟩ : ∃ command data, p.buffer.drop 2 = command :: data := by
    cases hd : p.buffer.drop 2 with
    | nil =>
      have := List.drop_eq_nil_iff.mp hd
      omega
    | cons command data => exact ⟨command, data, rfl⟩
  have hraw : p.buffer.subarray 0 (f.size + 2) = p.buffer := by
    rw [Buffer.subarray, List.drop_zero, List.take_of_length_le hle]
  rw [processMessage, dif_pos hready]
  split
  · rename_i heq
    simp [MessageProcessor.process, hready, hdrop] at heq
  · rename_i p' heq
    refine ⟨p'.payload, _, rfl, ?_⟩
    simp only [MessageProcessor.process, hready, if_true, MessageProcessor.keepPrevious_buffer,
      hdrop] at heq
    obtain ⟨rfl, -⟩ := Prod.mk.inj heq
    simpa [MessageProcessor.payload, hread] using hraw

/-! ## Cutting the stream -/

/-- The bookkeeping after a list of frames. -/
def previousAfter (previous : Previous) (frames : List Frame) : Previous :=
  frames.foldl (fun previous f => f.becomesPrevious previous) previous

theorem messagesOf_append (frames frames' : List Frame) :
    ∀ previous, messagesOf previous (frames ++ frames') =
      messagesOf previous frames ++ messagesOf (previousAfter previous frames) frames' := by
  induction frames with
  | nil => intro previous; rfl
  | cons f frames ih =>
    intro previous
    simp only [List.cons_append, messagesOf, ih]
    rfl

/-- Position `pos` of the wire lies inside a large frame whose command has already gone by. -/
def insideLarge : Nat → List Frame → Prop
  | _, [] => False
  | pos, f :: frames =>
    (f.large ∧ 3 ≤ pos ∧ pos < f.size + 2) ∨
      (f.size + 2 ≤ pos ∧ insideLarge (pos - (f.size + 2)) frames)

/-- Some chunk, the first of which starts at `pos`, ends inside a large frame. -/
def cutsLarge : Nat → List Buffer → List Frame → Prop
  | _, [], _ => False
  | pos, chunk :: chunks, frames =>
    insideLarge (pos + chunk.length) frames ∨ cutsLarge (pos + chunk.length) chunks frames

theorem insideLarge_cons (f : Frame) (frames : List Frame) (pos : Nat) :
    insideLarge (f.size + 2 + pos) (f :: frames) ↔ insideLarge pos frames := by
  have hsub : f.size + 2 + pos - (f.size + 2) = pos := Nat.add_sub_cancel_left _ _
  simp only [insideLarge, hsub]
  constructor
  · rintro (⟨-, -, hlt⟩ | ⟨-, h⟩)
    · omega
    · exact h
  · intro h
    exact .inr ⟨Nat.le_add_right _ _, h⟩

theorem insideLarge_append (done frames : List Frame) (pos : Nat) :
    insideLarge ((wire done).length + pos) (done ++ frames) ↔ insideLarge pos frames := by
  induction done with
  | nil => simp
  | cons f done ih =>
    rw [wire_cons, List.length_append, f.length_bytes, List.cons_append, Nat.add_assoc,
      insideLarge_cons, ih]

theorem cutsLarge_append (chunks : List Buffer) (done frames : List Frame) :
    ∀ pos, cutsLarge ((wire done).length + pos) chunks (done ++ frames) ↔
      cutsLarge pos chunks frames := by
  induction chunks with
  | nil => simp [cutsLarge]
  | cons chunk chunks ih =>
    intro pos
    simp only [cutsLarge, Nat.add_assoc, insideLarge_append, ih]

/-- What a drained buffer holds is less than the next frame. -/
def ShortOf (buffer : Buffer) (frames : List Frame) : Prop :=
  ∀ f rest, frames = f :: rest → buffer.length < f.size + 2

/-- Draining a buffer outside the large frames processes the frames it holds and keeps the
beginning of the next one. -/
structure Drained (p : MessageProcessor) (frames : List Frame) (future : Buffer)
    (done rest : List Frame) : Prop where
  split : frames = done ++ rest
  messages : (processMessage p).messages = messagesOf p.previous done
  ahead : (processMessage p).processor.buffer ++ future = wire rest
  previous : (processMessage p).processor.previous = previousAfter p.previous done
  short : ShortOf (processMessage p).processor.buffer rest
  position : p.buffer.length = (wire done).length + (processMessage p).processor.buffer.length

/-- Draining stops at an incomplete frame that emits nothing. -/
theorem Drained.stop {p q : MessageProcessor} {f : Frame} {frames : List Frame} {future : Buffer}
    {error : Option RangeError}
    (hahead : p.buffer ++ future = wire (f :: frames)) (hshort : p.buffer.length < f.size + 2)
    (hbuffer : q.buffer = p.buffer) (hprevious : q.previous = p.previous)
    (h : processMessage p = { processor := q, messages := [], error := error }) :
    Drained p (f :: frames) future [] (f :: frames) where
  split := rfl
  messages := by rw [h]; rfl
  ahead := by rw [h]; simpa [hbuffer] using hahead
  previous := by rw [h]; exact hprevious
  short := by
    rintro g rest hrest
    rw [h]
    cases hrest
    simpa [hbuffer] using hshort
  position := by rw [h]; simp [hbuffer]

theorem Drained.cons {p p' : MessageProcessor} {f : Frame} {frames done rest : List Frame}
    {future : Buffer} (hbuffer : p.buffer = f.bytes ++ p'.buffer)
    (hprevious : p'.previous = f.becomesPrevious p.previous)
    (h : processMessage p = { processMessage p' with
      messages := f.message p.previous :: (processMessage p').messages })
    (hd : Drained p' frames future done rest) :
    Drained p (f :: frames) future (f :: done) rest where
  split := by rw [hd.split]; rfl
  messages := by rw [h, hd.messages, hprevious]; rfl
  ahead := by rw [h]; exact hd.ahead
  previous := by rw [h, hd.previous, hprevious]; rfl
  short := by rw [h]; exact hd.short
  position := by
    rw [h, hbuffer, List.length_append, hd.position, wire_cons, List.length_append]
    exact (Nat.add_assoc _ _ _).symm

/-- Draining a buffer that ends inside a large frame processes something that is no frame. -/
theorem drain (frames : List Frame) : ∀ (p : MessageProcessor) (future : Buffer),
    p.buffer ++ future = wire frames →
      (insideLarge p.buffer.length frames →
        ¬ (processMessage p).messages <+: messagesOf p.previous frames) ∧
      (¬ insideLarge p.buffer.length frames → ∃ done rest, Drained p frames future done rest) := by
  induction frames with
  | nil =>
    intro p future h
    have hempty : p.buffer = [] := (List.append_eq_nil_iff.mp h).1
    have hwait : p.isMessageReady = false := by simp [MessageProcessor.isMessageReady, hempty]
    refine ⟨fun hcut => hcut.elim, fun _ => ⟨[], [], ?_⟩⟩
    exact {
      split := rfl
      messages := by rw [processMessage_waits hwait]; rfl
      ahead := by rw [processMessage_waits hwait]; exact h
      previous := by rw [processMessage_waits hwait]; rfl
      short := by rintro g rest hrest; cases hrest
      position := by rw [processMessage_waits hwait]; simp }
  | cons f frames ih =>
    intro p future h
    rw [wire_cons] at h
    by_cases hcomplete : f.size + 2 ≤ p.buffer.length
    · obtain ⟨tail, htail⟩ : ∃ tail, p.buffer = f.bytes ++ tail := by
        rcases List.append_eq_append_iff.mp h with ⟨rest, hrest, -⟩ | ⟨tail, htail, -⟩
        · have hlen := congrArg List.length hrest
          rw [List.length_append, f.length_bytes] at hlen
          have hnil : rest = [] := List.length_eq_zero_iff.mp (by omega)
          exact ⟨[], by rw [hrest, hnil, List.append_nil, List.append_nil]⟩
        · exact ⟨tail, htail⟩
      have hfuture : tail ++ future = wire frames := by
        rw [htail, List.append_assoc] at h
        exact List.append_cancel_left h
      obtain ⟨p', hbuffer, hprevious, hprocess⟩ := processMessage_frame htail
      rw [← hbuffer] at htail hfuture
      have hposition : p.buffer.length = f.size + 2 + p'.buffer.length := by
        rw [htail, List.length_append, f.length_bytes]
      obtain ⟨hinside, hdrained⟩ := ih p' future hfuture
      rw [hposition, insideLarge_cons]
      constructor
      · intro hcut hprefix
        apply hinside hcut
        rw [hprocess, hprevious.symm.subst (motive := fun previous =>
          messagesOf p.previous (f :: frames) = f.message p.previous :: messagesOf previous frames)
          rfl] at hprefix
        exact (List.cons_prefix_cons.mp hprefix).2
      · intro hcut
        obtain ⟨done, rest, hd⟩ := hdrained hcut
        exact ⟨f :: done, rest, hd.cons htail hprevious hprocess⟩
    · obtain ⟨rest, hrest⟩ : ∃ rest, p.buffer ++ rest = f.bytes := by
        rcases List.append_eq_append_iff.mp h with ⟨rest, hrest, -⟩ | ⟨tail, htail, -⟩
        · exact ⟨rest, hrest.symm⟩
        · have hlen := congrArg List.length htail
          rw [List.length_append, f.length_bytes] at hlen
          omega
      have hpart : rest ≠ [] := by
        rintro rfl
        rw [List.append_nil] at hrest
        rw [hrest, f.length_bytes] at hcomplete
        exact hcomplete (Nat.le_refl _)
      have hshort : p.buffer.length < f.size + 2 := Nat.lt_of_not_le hcomplete
      by_cases hlarge : f.large
      · by_cases htwo : p.buffer.length = 2
        · obtain ⟨q, hbuffer, hprevious, hq⟩ := processMessage_raises hrest htwo hlarge
          have houtside : ¬ insideLarge p.buffer.length (f :: frames) := by
            simp only [insideLarge]
            omega
          exact ⟨fun hcut => absurd hcut houtside,
            fun _ => ⟨[], f :: frames, .stop h hshort hbuffer hprevious hq⟩⟩
        · by_cases hthree : 3 ≤ p.buffer.length
          · obtain ⟨message, messages, hmessages, hraw⟩ :=
              processMessage_truncates hrest hthree hlarge
            refine ⟨?_, fun houtside => absurd (.inl ⟨hlarge, hthree, hshort⟩) houtside⟩
            intro _ hprefix
            rw [hmessages] at hprefix
            have hsame := (List.cons_prefix_cons.mp hprefix).1
            have hlen := congrArg (fun m => m.raw.length) hsame
            simp only [hraw, Frame.message, Frame.length_bytes] at hlen
            omega
          · have hq := processMessage_waits (waits hrest hpart (.inl (by omega)))
            have houtside : ¬ insideLarge p.buffer.length (f :: frames) := by
              simp only [insideLarge]
              omega
            exact ⟨fun hcut => absurd hcut houtside,
              fun _ => ⟨[], f :: frames, .stop h hshort rfl rfl hq⟩⟩
      · have hq := processMessage_waits (waits hrest hpart (.inr hlarge))
        have houtside : ¬ insideLarge p.buffer.length (f :: frames) := by
          simp only [insideLarge, hlarge, false_and, false_or]
          omega
        exact ⟨fun hcut => absurd hcut houtside,
          fun _ => ⟨[], f :: frames, .stop h hshort rfl rfl hq⟩⟩

theorem deliver_iff (chunks : List Buffer) : ∀ (p : MessageProcessor) (frames : List Frame),
    p.buffer ++ chunks.flatten = wire frames → ShortOf p.buffer frames →
      (((deliver p chunks).2 = messagesOf p.previous frames ∧ (deliver p chunks).1.buffer = []) ↔
        ¬ cutsLarge p.buffer.length chunks frames) := by
  induction chunks with
  | nil =>
    intro p frames h hshort
    rw [List.flatten_nil, List.append_nil] at h
    cases frames with
    | nil => simpa [deliver, cutsLarge, messagesOf] using h
    | cons f frames =>
      have hlt := hshort f frames rfl
      rw [h, wire_cons, List.length_append, f.length_bytes] at hlt
      omega
  | cons chunk chunks ih =>
    intro p frames h _
    have hread : (p.read chunk).buffer ++ chunks.flatten = wire frames := by
      rw [MessageProcessor.read_buffer, List.append_assoc]
      exact h
    have hlength : (p.read chunk).buffer.length = p.buffer.length + chunk.length := by simp
    obtain ⟨hinside, hdrained⟩ := drain frames (p.read chunk) chunks.flatten hread
    rw [hlength] at hinside hdrained
    simp only [deliver, handleMessage, cutsLarge]
    by_cases hcut : insideLarge (p.buffer.length + chunk.length) frames
    · simp only [hcut, true_or, not_true_eq_false, iff_false, not_and]
      intro hmessages
      rw [MessageProcessor.read_previous] at hinside
      exact absurd ⟨_, hmessages⟩ (hinside hcut)
    · obtain ⟨done, rest, hd⟩ := hdrained hcut
      have hih := ih _ rest hd.ahead hd.short
      rw [hd.previous, MessageProcessor.read_previous] at hih
      simp only [hcut, false_or]
      rw [hd.messages, MessageProcessor.read_previous, hd.split, messagesOf_append,
        List.append_cancel_left_eq, hih,
        ← hlength, hd.position, cutsLarge_append]

/-- A chat frame with `n` zero bytes of text. -/
def zeroChat (n : Nat) (fits : n + 1 ≤ 65535) : Frame where
  command := 22
  payload := List.replicate n 0
  fits := by rwa [List.length_replicate]

theorem zeroChat_size (n : Nat) (fits : n + 1 ≤ 65535) : (zeroChat n fits).size = n + 1 := by
  rw [Frame.size, zeroChat, List.length_replicate]

/-- The smallest frame whose size is negative as a signed number. -/
def largeFrame : Frame := zeroChat 32767 (by decide)

theorem cut_flatten (f : Frame) : [f.bytes.take 3, f.payload].flatten = wire [f] := rfl

/-- A large frame cut after its command is processed without its payload. -/
theorem Frame.large.truncated {f : Frame} (hlarge : f.large) :
    ∃ chunks : List Buffer, (∀ chunk ∈ chunks, chunk ≠ []) ∧ chunks.flatten = wire [f] ∧
      ¬ ((deliver {} chunks).2 = messagesOf (none, none) [f] ∧
        (deliver {} chunks).1.buffer = []) := by
  unfold Frame.large at hlarge
  have hinside : insideLarge 3 [f] := .inl ⟨hlarge, Nat.le_refl 3, by omega⟩
  have hpayload : f.payload ≠ [] := by
    intro hempty
    simp [Frame.size, hempty] at hlarge
  refine ⟨[f.bytes.take 3, f.payload], ?_, cut_flatten f, ?_⟩
  · intro chunk hchunk
    rcases List.mem_pair.mp hchunk with rfl | rfl
    · exact List.cons_ne_nil _ _
    · exact hpayload
  · intro h
    exact (deliver_iff [f.bytes.take 3, f.payload] {} [f] (cut_flatten f)
      (fun _ _ _ => Nat.succ_pos _)).mp h (.inl hinside)

end EdoproServer.Messages
