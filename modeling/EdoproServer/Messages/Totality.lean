import EdoproServer.Messages.MessageProcessor

namespace EdoproServer.Messages
open MessageProcessor MessageEmitter

/-! ## What a data event leaves unread -/

/-- The frame at the head of a buffer is taken for complete: all of it is there, or its size is
negative when read as a signed number. -/
def Buffer.complete (buffer : Buffer) : Prop :=
  0x8000 ≤ buffer.readUint16LE ∨ buffer.readUint16LE + 2 ≤ buffer.length

instance (buffer : Buffer) : Decidable buffer.complete :=
  inferInstanceAs (Decidable (_ ∨ _))

/-- What is left of a buffer when the complete frames with a command byte are taken off. -/
def unread (buffer : Buffer) : Buffer :=
  if 3 ≤ buffer.length ∧ buffer.complete then unread (buffer.drop (buffer.readUint16LE + 2))
  else buffer
termination_by buffer.length
decreasing_by
  rename_i h
  rw [List.length_drop]
  omega

/-- Two bytes and no third that declare no size, or one that is negative as a signed number. -/
def Strands (buffer : Buffer) : Prop :=
  buffer.length = 2 ∧ (buffer.readUint16LE = 0 ∨ 0x8000 ≤ buffer.readUint16LE)

/-- The bytes left unread after each of the chunks. -/
def unreadOver (buffer : Buffer) : List Buffer → List Buffer
  | [] => []
  | chunk :: chunks =>
    unread (buffer ++ chunk) :: unreadOver (unread (buffer ++ chunk)) chunks

/-- What each of the data events leaves. -/
def emissions (p : MessageProcessor) : List Buffer → List Emission
  | [] => []
  | chunk :: chunks =>
    let emission := handleMessage p chunk
    emission :: emissions emission.processor chunks

section Events

variable {p : MessageProcessor}

theorem readInt16LE_le_iff {buffer : Buffer} (hlength : 2 ≤ buffer.length) :
    buffer.readInt16LE ≤ (buffer.length : Int) - 2 ↔ buffer.complete := by
  have hread : buffer.readUint16LE < 0x10000 := by
    match buffer, hlength with
    | low :: high :: _, _ =>
      have hlow := low.toNat_lt
      have hhigh := high.toNat_lt
      simp only [Buffer.readUint16LE]
      omega
  unfold Buffer.readInt16LE Buffer.complete
  split <;> omega

theorem isMessageReady_iff :
    p.isMessageReady = true ↔ 2 ≤ p.buffer.length ∧ p.buffer.complete := by
  unfold isMessageReady
  split
  · rename_i hshort
    exact iff_of_false Bool.false_ne_true (fun h => absurd h.1 (by omega))
  · rename_i hlong
    rw [decide_eq_true_eq, ge_iff_le, readInt16LE_le_iff (by omega)]
    exact ⟨fun h => ⟨by omega, h⟩, And.right⟩

theorem strands_iff {buffer : Buffer} (hlength : buffer.length = 2) :
    Strands buffer ↔ buffer.complete := by
  unfold Strands Buffer.complete
  omega

/-- A complete frame is taken off if its command is there, and raises if it is not. -/
theorem process_ready (hready : p.isMessageReady = true) :
    (3 ≤ p.buffer.length ∧ ∃ p', p.process = (p', none) ∧
      p'.buffer = p.buffer.drop (p.buffer.readUint16LE + 2)) ∨
    (p.buffer.length = 2 ∧ ∃ p', p.process = (p', some .outOfRange) ∧ p'.buffer = p.buffer) := by
  have hlength := ready_length hready
  unfold process
  rw [if_pos hready]
  simp only [keepPrevious_buffer]
  cases hdrop : p.buffer.drop 2 with
  | nil =>
    have hshort := List.drop_eq_nil_iff.mp hdrop
    exact Or.inr ⟨by omega, _, rfl, by simp⟩
  | cons command data =>
    have hlong : 3 ≤ p.buffer.length := by
      have hlen := congrArg List.length hdrop
      rw [List.length_drop, List.length_cons] at hlen
      omega
    exact Or.inl ⟨hlong, _, rfl, rfl⟩

theorem unread_of_short {buffer : Buffer} (h : buffer.length < 3) : unread buffer = buffer := by
  rw [unread, if_neg (by omega)]

theorem unread_of_incomplete {buffer : Buffer} (h : ¬ buffer.complete) :
    unread buffer = buffer := by
  rw [unread, if_neg (fun hand => h hand.2)]

/-- A data event leaves the unread bytes, and raises exactly when these are stranded. -/
theorem processMessage_spec (p : MessageProcessor) :
    (processMessage p).processor.buffer = unread p.buffer ∧
      ((processMessage p).error = none ↔ ¬ Strands (unread p.buffer)) := by
  induction hn : p.buffer.length using Nat.strongRecOn generalizing p with
  | ind n ih =>
    by_cases hready : p.isMessageReady = true
    · obtain ⟨hlength, hcomplete⟩ := isMessageReady_iff.mp hready
      rcases process_ready hready with ⟨hlong, p', hprocess, hbuffer⟩ |
        ⟨hshort, p', hprocess, hbuffer⟩
      · have hunread : unread p.buffer = unread p'.buffer := by
          rw [unread, if_pos ⟨hlong, hcomplete⟩, hbuffer]
        have hshrinks := process_shrinks hready hprocess
        obtain ⟨hleft, herror⟩ := ih p'.buffer.length (hn ▸ hshrinks) p' rfl
        have hstep : processMessage p = { processMessage p' with
            messages := p'.payload :: (processMessage p').messages } := by
          rw [processMessage, dif_pos hready]
          split
          · rename_i heq
            simp [hprocess] at heq
          · rename_i q heq
            rw [hprocess] at heq
            obtain ⟨rfl, -⟩ := Prod.mk.inj heq
            rfl
        rw [hstep, hunread]
        exact ⟨hleft, herror⟩
      · have hstranded : Strands (unread p.buffer) := by
          rw [unread_of_short (by omega)]
          exact (strands_iff hshort).mpr hcomplete
        have hstep : processMessage p =
            { processor := p', messages := [], error := some .outOfRange } := by
          rw [processMessage, dif_pos hready]
          split
          · rename_i q error heq
            rw [hprocess] at heq
            obtain ⟨rfl, herror⟩ := Prod.mk.inj heq
            rw [Option.some.inj herror]
          · rename_i heq
            simp [hprocess] at heq
        rw [hstep]
        refine ⟨hbuffer.trans (unread_of_short (by omega)).symm, ?_⟩
        simp [hstranded]
    · have hwaits : processMessage p = { processor := p, messages := [], error := none } := by
        rw [processMessage, dif_neg hready]
      have hunread : unread p.buffer = p.buffer := by
        by_cases hshort : p.buffer.length < 2
        · exact unread_of_short (by omega)
        · exact unread_of_incomplete
            (fun hcomplete => hready (isMessageReady_iff.mpr ⟨by omega, hcomplete⟩))
      have hnot : ¬ Strands p.buffer := by
        intro hstrands
        have hlength : p.buffer.length = 2 := hstrands.1
        exact hready (isMessageReady_iff.mpr
          ⟨by omega, (strands_iff hlength).mp hstrands⟩)
      rw [hwaits, hunread]
      exact ⟨rfl, iff_of_true rfl hnot⟩

theorem unread_incomplete (buffer : Buffer) :
    (unread buffer).length < 3 ∨ ¬ (unread buffer).complete := by
  induction buffer using unread.induct with
  | case1 buffer h ih =>
    rw [unread, if_pos h]
    exact ih
  | case2 buffer h =>
    rw [unread, if_neg h]
    by_cases hshort : buffer.length < 3
    · exact Or.inl hshort
    · exact Or.inr (fun hcomplete => h ⟨by omega, hcomplete⟩)

/-- What is unread and not stranded waits for more bytes. -/
theorem not_ready_of_unread {buffer : Buffer} (hbuffer : p.buffer = unread buffer)
    (h : ¬ Strands p.buffer) :
    p.isMessageReady = false := by
  rw [← Bool.not_eq_true, isMessageReady_iff]
  intro ⟨hlength, hcomplete⟩
  rcases unread_incomplete buffer with hshort | hnot
  · rw [← hbuffer] at hshort
    exact h ((strands_iff (by omega)).mpr hcomplete)
  · exact hnot (hbuffer ▸ hcomplete)

end Events

/-! ## Whole streams -/

/-- A data event ends without raising, and no complete frame waits. -/
def Emission.settled (emission : Emission) : Prop :=
  emission.error = none ∧ emission.processor.isMessageReady = false

theorem deliver_emissions (chunks : List Buffer) (p : MessageProcessor) :
    (deliver p chunks).2 = (emissions p chunks).flatMap Emission.messages := by
  induction chunks generalizing p with
  | nil => rfl
  | cons chunk chunks ih => simp [deliver, emissions, ih]

theorem emissions_settled_iff (chunks : List Buffer) (p : MessageProcessor) :
    (∀ emission ∈ emissions p chunks, emission.settled) ↔
      ∀ left ∈ unreadOver p.buffer chunks, ¬ Strands left := by
  induction chunks generalizing p with
  | nil => simp [emissions, unreadOver]
  | cons chunk chunks ih =>
    obtain ⟨hbuffer, herror⟩ := processMessage_spec (p.read chunk)
    rw [read_buffer] at hbuffer herror
    have hfirst : (handleMessage p chunk).settled ↔ ¬ Strands (unread (p.buffer ++ chunk)) := by
      constructor
      · intro h
        exact herror.mp h.1
      · intro h
        exact ⟨herror.mpr h, not_ready_of_unread hbuffer (hbuffer ▸ h)⟩
    have hrest := ih (handleMessage p chunk).processor
    rw [handleMessage, hbuffer] at hrest
    simp only [emissions, unreadOver, List.forall_mem_cons, hfirst]
    exact and_congr_right (fun _ => hrest)

end EdoproServer.Messages
