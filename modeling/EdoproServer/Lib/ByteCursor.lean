import EdoproServer.Lib.Codec

namespace EdoproServer.Lib

/-! ## A pointer into a buffer that is changed in place -/

/-- The bytes behind a pointer and those ahead of it. -/
structure Cursor where
  behind : Bytes
  ahead : Bytes
  deriving DecidableEq, Repr

namespace Cursor

def start (bytes : Bytes) : Cursor := { behind := [], ahead := bytes }

/-- The buffer, wherever the pointer stands. -/
def data (c : Cursor) : Bytes := c.behind ++ c.ahead

/-- The cursor in a buffer with more bytes on both sides. -/
def within (c : Cursor) (p s : Bytes) : Cursor :=
  { behind := p ++ c.behind, ahead := c.ahead ++ s }

theorem within_within (c : Cursor) (p s p' s' : Bytes) :
    (c.within p s).within p' s' = c.within (p' ++ p) (s ++ s') := by
  simp [within]

theorem data_within (c : Cursor) (p s : Bytes) : (c.within p s).data = p ++ c.data ++ s := by
  simp [data, within]

@[simp] theorem within_nil (c : Cursor) : c.within [] [] = c := by simp [within]

end Cursor

/-- Nothing is defined past the ends of the buffer. -/
abbrev Walk (α : Type) := StateT Cursor Option α

namespace Walk

/-- `ptr += n`. -/
def advance (n : Nat) : Walk PUnit := fun c =>
  if n ≤ c.ahead.length then
    some (⟨⟩, { behind := c.behind ++ c.ahead.take n, ahead := c.ahead.drop n })
  else none

/-- `ptr -= n`. -/
def retreat (n : Nat) : Walk PUnit := fun c =>
  if n ≤ c.behind.length then
    let left := c.behind.length - n
    some (⟨⟩, { behind := c.behind.take left, ahead := c.behind.drop left ++ c.ahead })
  else none

/-- Reads `n` bytes and goes past them. -/
def fetch (n : Nat) : Walk Bytes := fun c =>
  if n ≤ c.ahead.length then
    some (c.ahead.take n, { behind := c.behind ++ c.ahead.take n, ahead := c.ahead.drop n })
  else none

/-- Writes bytes over the next ones and goes past them. -/
def store (bytes : Bytes) : Walk PUnit := fun c =>
  if bytes.length ≤ c.ahead.length then
    some (⟨⟩, { behind := c.behind ++ bytes, ahead := c.ahead.drop bytes.length })
  else none

/-- A loop over a count. -/
def times (n : Nat) (x : Walk PUnit) : Walk PUnit :=
  match n with
  | 0 => pure ⟨⟩
  | n + 1 => do
    x
    times n x

def readUInt8 : Walk UInt8 := (fun bytes => UInt8.ofNat (fromLittleEndian bytes)) <$> fetch 1

def readUInt32 : Walk UInt32 := (fun bytes => UInt32.ofNat (fromLittleEndian bytes)) <$> fetch 4

def writeUInt32 (value : UInt32) : Walk PUnit := store (Lib.writeUInt32 value)

end Walk

/-! ## What a walk does to a window of the buffer -/

/-- In every buffer around the window, the walk takes it from `before` to `after`, leaves the bytes
around it as they are, and returns `a`. -/
def Moves {α : Type} (x : Walk α) (before after : Cursor) (a : α) : Prop :=
  ∀ p s, x (before.within p s) = some (a, after.within p s)

namespace Moves

variable {α β : Type} {x : Walk α} {b m c : Cursor} {a : α} {w w' : Bytes} {n : Nat}

theorem pure (a : α) (c : Cursor) : Moves (Pure.pure a) c c a := fun _ _ => rfl

theorem bind {f : α → Walk β} {v : β} (hx : Moves x b m a) (hf : Moves (f a) m c v) :
    Moves (x >>= f) b c v := by
  intro p s
  simp only [Bind.bind, StateT.bind, hx p s, Option.bind_some, hf p s]

theorem map (f : α → β) (hx : Moves x b c a) : Moves (f <$> x) b c (f a) := by
  intro p s
  simp only [Functor.map, StateT.map, Bind.bind, hx p s, Option.bind_some]
  rfl

/-- What a walk does to a window it does in a larger one. -/
theorem frame (hx : Moves x b c a) (p s : Bytes) : Moves x (b.within p s) (c.within p s) a := by
  intro p' s'
  rw [Cursor.within_within, Cursor.within_within]
  exact hx (p' ++ p) (s ++ s')

/-- A walk over the bytes ahead, behind those it has already gone past. -/
theorem after (hx : Moves x ⟨[], w⟩ ⟨w', []⟩ a) (p s : Bytes) :
    Moves x ⟨p, w ++ s⟩ ⟨p ++ w', s⟩ a := by
  have hframe := hx.frame p s
  simpa [Cursor.within] using hframe

/-- Two walks over bytes that follow each other. -/
theorem step {f : α → Walk β} {v : β} {s s' : Bytes} (hx : Moves x ⟨[], w⟩ ⟨w', []⟩ a)
    (hf : Moves (f a) ⟨[], s⟩ ⟨s', []⟩ v) :
    Moves (x >>= f) ⟨[], w ++ s⟩ ⟨w' ++ s', []⟩ v := by
  have hfirst := hx.after [] s
  have hrest := hf.after w' []
  rw [List.append_nil] at hrest
  exact hfirst.bind hrest

/-- A walk that ends by returning what it has read. -/
theorem bindPure (f : α → β) (hx : Moves x b c a) :
    Moves (x >>= fun v => Pure.pure (f v)) b c (f a) :=
  hx.bind (.pure (f a) c)

theorem advance (h : w.length = n) : Moves (Walk.advance n) ⟨[], w⟩ ⟨w, []⟩ ⟨⟩ := by
  intro p s
  simp [Walk.advance, Cursor.within, ← h]

theorem retreat (h : w.length = n) : Moves (Walk.retreat n) ⟨w, []⟩ ⟨[], w⟩ ⟨⟩ := by
  intro p s
  simp [Walk.retreat, Cursor.within, ← h]

theorem fetch (h : w.length = n) : Moves (Walk.fetch n) ⟨[], w⟩ ⟨w, []⟩ w := by
  intro p s
  simp [Walk.fetch, Cursor.within, ← h]

theorem store (h : w'.length = w.length) : Moves (Walk.store w') ⟨[], w⟩ ⟨w', []⟩ ⟨⟩ := by
  intro p s
  simp [Walk.store, Cursor.within, h]

theorem readUInt8 (value : UInt8) :
    Moves Walk.readUInt8 ⟨[], writeUInt8 value⟩ ⟨writeUInt8 value, []⟩ value := by
  have hread := (fetch (length_writeUInt8 value)).map
    (fun bytes => UInt8.ofNat (fromLittleEndian bytes))
  rwa [writeUInt8, fromLittleEndian_littleEndian value.toNat_lt, UInt8.ofNat_toNat] at hread

theorem readUInt32 (value : UInt32) :
    Moves Walk.readUInt32 ⟨[], writeUInt32 value⟩ ⟨writeUInt32 value, []⟩ value := by
  have hread := (fetch (length_writeUInt32 value)).map
    (fun bytes => UInt32.ofNat (fromLittleEndian bytes))
  rwa [writeUInt32, fromLittleEndian_littleEndian value.toNat_lt, UInt32.ofNat_toNat] at hread

theorem overwriteUInt32 (value value' : UInt32) :
    Moves (Walk.writeUInt32 value') ⟨[], writeUInt32 value⟩ ⟨writeUInt32 value', []⟩ ⟨⟩ :=
  store (by rw [length_writeUInt32, length_writeUInt32])

/-- A loop whose turns each rewrite one entry of a list. -/
theorem times {l : List β} {g g' : β → Bytes} {x : Walk PUnit}
    (h : ∀ b ∈ l, Moves x ⟨[], g b⟩ ⟨g' b, []⟩ ⟨⟩) :
    Moves (Walk.times l.length x) ⟨[], l.flatMap g⟩ ⟨l.flatMap g', []⟩ ⟨⟩ := by
  induction l with
  | nil => exact Moves.pure PUnit.unit _
  | cons b l ih =>
    rw [List.length_cons, Walk.times, List.flatMap_cons, List.flatMap_cons]
    exact (h b List.mem_cons_self).step (ih (fun c hc => h c (List.mem_cons_of_mem b hc)))

/-- Goes back over a number that was read and writes another one. -/
theorem patch (value value' : UInt32) (h : n = 4 + w.length) :
    Moves (do Walk.retreat n; Walk.writeUInt32 value') ⟨writeUInt32 value ++ w, []⟩
      ⟨writeUInt32 value', w⟩ ⟨⟩ := by
  have hback : Moves (Walk.retreat n) ⟨writeUInt32 value ++ w, []⟩ ⟨[], writeUInt32 value ++ w⟩ ⟨⟩ :=
    retreat (by rw [List.length_append, length_writeUInt32, h])
  have hwrite := (overwriteUInt32 value value').after [] w
  exact hback.bind hwrite

end Moves

/-! ## What a walk leaves of a buffer -/

/-- The walk turns the bytes into others, in every buffer that begins with them. -/
def Leaves (x : Walk PUnit) (w w' : Bytes) : Prop :=
  ∃ c, Moves x ⟨[], w⟩ c ⟨⟩ ∧ c.data = w'

namespace Leaves

variable {α : Type} {x : Walk PUnit} {c : Cursor} {w w' v v' : Bytes}

theorem skip (w : Bytes) : Leaves (pure ⟨⟩) w w := ⟨_, .pure PUnit.unit _, rfl⟩

theorem of_moves (h : Moves x ⟨[], w⟩ c ⟨⟩) (hdata : c.data = w') : Leaves x w w' := ⟨c, h, hdata⟩

theorem of_end (h : Moves x ⟨[], w⟩ ⟨w', []⟩ ⟨⟩) : Leaves x w w' :=
  of_moves h (List.append_nil w')

/-- The bytes behind those a walk is about stay as they are. -/
theorem before (h : Leaves x w w') (s : Bytes) : Leaves x (w ++ s) (w' ++ s) := by
  obtain ⟨c, hmoves, hdata⟩ := h
  refine of_moves (hmoves.frame [] s) ?_
  rw [Cursor.data_within, hdata, List.nil_append]

/-- What was gone past first stays behind. -/
theorem step {y : Walk α} {a : α} {f : α → Walk PUnit} (hy : Moves y ⟨[], w⟩ ⟨w', []⟩ a)
    (h : Leaves (f a) v v') : Leaves (y >>= f) (w ++ v) (w' ++ v') := by
  obtain ⟨c, hmoves, hdata⟩ := h
  have hfirst := hy.after [] v
  have hrest := hmoves.frame w' []
  simp only [Cursor.within, List.append_nil] at hfirst hrest
  refine of_moves (hfirst.bind hrest) ?_
  rw [← hdata, Cursor.data, Cursor.data, List.append_assoc]

/-- The buffer at the end of a walk that starts at its head. -/
theorem data (h : Leaves x w w') : (x (.start w)).map (fun r => r.2.data) = some w' := by
  obtain ⟨c, hmoves, hdata⟩ := h
  have hwhole := hmoves [] []
  rw [Cursor.within_nil, Cursor.within_nil] at hwhole
  rw [Cursor.start, hwhole, Option.map_some, hdata]

end Leaves

end EdoproServer.Lib
