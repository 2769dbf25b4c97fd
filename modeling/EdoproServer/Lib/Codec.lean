import Mathlib

namespace EdoproServer.Lib

abbrev Bytes := List UInt8

/-! ## Numbers in little-endian bytes -/

/-- The lowest `n` bytes of a number, the lowest first. -/
def littleEndian : Nat → Nat → Bytes
  | 0, _ => []
  | n + 1, value => UInt8.ofNat value :: littleEndian n (value / 256)

def fromLittleEndian (bytes : Bytes) : Nat := bytes.foldr (fun b value => b.toNat + 256 * value) 0

@[simp] theorem length_littleEndian (n value : Nat) : (littleEndian n value).length = n := by
  induction n generalizing value with
  | zero => rfl
  | succ n ih => rw [littleEndian, List.length_cons, ih]

theorem fromLittleEndian_littleEndian {n value : Nat} (h : value < 256 ^ n) :
    fromLittleEndian (littleEndian n value) = value := by
  induction n generalizing value with
  | zero =>
    rw [Nat.pow_zero, Nat.lt_one_iff] at h
    rw [h]
    rfl
  | succ n ih =>
    have hdiv : value / 256 < 256 ^ n := by
      rw [Nat.div_lt_iff_lt_mul (by decide)]
      exact h
    have htail := ih hdiv
    simp only [fromLittleEndian] at htail
    rw [littleEndian, fromLittleEndian, List.foldr_cons, htail, UInt8.toNat_ofNat']
    omega

theorem fromLittleEndian_lt (bytes : Bytes) : fromLittleEndian bytes < 256 ^ bytes.length := by
  induction bytes with
  | nil => exact Nat.one_pos
  | cons b bytes ih =>
    have hb := b.toNat_lt
    simp only [fromLittleEndian] at ih
    rw [fromLittleEndian, List.foldr_cons, List.length_cons, Nat.pow_succ]
    omega

/-! ## Writing into a buffer of fixed size -/

/-- The first bytes of an allocated buffer are written, the others are still zero. -/
structure BoundedBuffer where
  size : Nat
  written : Bytes
  deriving DecidableEq, Repr

inductive WriteError where
  | outOfRange
  deriving DecidableEq, Repr

abbrev Write := EStateM WriteError BoundedBuffer PUnit

namespace BoundedBuffer

def alloc (size : Nat) : BoundedBuffer := { size := size, written := [] }

def data (buffer : BoundedBuffer) : Bytes :=
  buffer.written ++ List.replicate (buffer.size - buffer.written.length) 0

def append (buffer : BoundedBuffer) (bytes : Bytes) : BoundedBuffer :=
  { buffer with written := buffer.written ++ bytes }

theorem append_append (buffer : BoundedBuffer) (w w' : Bytes) :
    (buffer.append w).append w' = buffer.append (w ++ w') := by
  simp [append]

end BoundedBuffer

/-- Raises past the end of the buffer. -/
def put (bytes : Bytes) : Write := fun buffer =>
  if buffer.written.length + bytes.length ≤ buffer.size then .ok ⟨⟩ (buffer.append bytes)
  else .error .outOfRange buffer

/-- Raises if the number does not fit `n` bytes. -/
def putNumber (n : Nat) (value : Int) : Write :=
  if 0 ≤ value ∧ value < 256 ^ n then put (littleEndian n value.toNat) else throw .outOfRange

theorem ok_bind {ε α β : Type} (a : α) (f : α → Except ε β) : (Except.ok a >>= f) = f a := rfl

/-- If `ok`, the writer appends `bytes` to every buffer with room for them, and it raises if not. -/
structure Fills (x : Write) (ok : Prop) (bytes : Bytes) : Prop where
  writes : ok → ∀ buffer, buffer.written.length + bytes.length ≤ buffer.size →
    x buffer = .ok ⟨⟩ (buffer.append bytes)
  raises : ¬ok → ∀ buffer, ∃ e buffer', x buffer = .error e buffer'

namespace Fills

variable {x y : Write} {p q : Prop} {w w' : Bytes} {α : Type}

theorem put (bytes : Bytes) : Fills (put bytes) True bytes where
  writes := fun _ _ hroom => if_pos hroom
  raises := fun h => absurd trivial h

theorem skip : Fills (pure ⟨⟩) True [] where
  writes := by
    intro _ buffer _
    rw [BoundedBuffer.append, List.append_nil]
    rfl
  raises := fun h => absurd trivial h

theorem putNumber (n : Nat) (value : Int) :
    Fills (putNumber n value) (0 ≤ value ∧ value < 256 ^ n) (littleEndian n value.toNat) where
  writes := by
    intro hfits buffer hroom
    rw [Lib.putNumber, if_pos hfits]
    exact if_pos hroom
  raises := by
    intro hfits buffer
    rw [Lib.putNumber, if_neg hfits]
    exact ⟨_, _, rfl⟩

theorem putNat (n value : Nat) :
    Fills (Lib.putNumber n value) (value < 256 ^ n) (littleEndian n value) where
  writes := by
    intro hfits
    have hint : (value : Int) < 256 ^ n := by exact_mod_cast hfits
    exact (putNumber n value).writes ⟨Int.natCast_nonneg value, hint⟩
  raises := by
    intro hfits
    apply (putNumber n value).raises
    rintro ⟨_, hint⟩
    exact hfits (by exact_mod_cast hint)

theorem congr (h : Fills x p w) (hp : p ↔ q) : Fills x q w where
  writes := fun hq => h.writes (hp.mpr hq)
  raises := fun hq => h.raises (fun hp' => hq (hp.mp hp'))

theorem seq (hx : Fills x p w) (hy : Fills y q w') :
    Fills (x >>= fun _ => y) (p ∧ q) (w ++ w') where
  writes := by
    intro hok buffer hroom
    rw [List.length_append] at hroom
    have hfirst := hx.writes hok.1 buffer (by omega)
    have hsecond := hy.writes hok.2 (buffer.append w)
      (by simp only [BoundedBuffer.append, List.length_append]; omega)
    rw [BoundedBuffer.append_append] at hsecond
    simp only [Bind.bind, EStateM.bind, hfirst, hsecond]
  raises := by
    intro hok buffer
    cases hfirst : x buffer with
    | error e buffer' =>
      refine ⟨e, buffer', ?_⟩
      simp only [Bind.bind, EStateM.bind, hfirst]
    | ok _ buffer' =>
      have hp : p := by
        by_contra hp
        obtain ⟨e, buffer'', hraises⟩ := hx.raises hp buffer
        rw [hfirst] at hraises
        cases hraises
      obtain ⟨e, buffer'', hraises⟩ := hy.raises (fun hq => hok ⟨hp, hq⟩) buffer'
      refine ⟨e, buffer'', ?_⟩
      simp only [Bind.bind, EStateM.bind, hfirst, hraises]

theorem loop {f : α → Write} {ok : α → Prop} {g : α → Bytes}
    (h : ∀ a, Fills (f a) (ok a) (g a)) (l : List α) :
    Fills (forM l f) (∀ a ∈ l, ok a) (l.flatMap g) := by
  induction l with
  | nil => exact skip.congr (by simp)
  | cons a l ih =>
    rw [List.forM_cons, List.flatMap_cons]
    exact ((h a).seq ih).congr (by simp)

/-- A writer whose bytes are as many as were allocated fills its buffer, or raises. -/
theorem alloc_iff (h : Fills x p w) :
    x (.alloc w.length) = .ok ⟨⟩ { size := w.length, written := w } ↔ p := by
  constructor
  · intro hx
    by_contra hp
    obtain ⟨e, buffer, hraises⟩ := h.raises hp (.alloc w.length)
    rw [hx] at hraises
    cases hraises
  · intro hp
    exact h.writes hp (.alloc w.length) (by simp [BoundedBuffer.alloc])

end Fills

/-! ## Reading -/

/-- A reader takes a value off the front of the bytes. -/
abbrev Reader (α : Type) := StateT Bytes Option α

/-- Whatever follows the bytes, the reader takes exactly them and returns the value. -/
def Reads {α : Type} (r : Reader α) (bytes : Bytes) (a : α) : Prop :=
  ∀ rest, r (bytes ++ rest) = some (a, rest)

def takeBytes (n : Nat) : Reader Bytes := fun bytes =>
  if n ≤ bytes.length then some (bytes.take n, bytes.drop n) else none

def number (n : Nat) : Reader Nat := fromLittleEndian <$> takeBytes n

def times {α : Type} (r : Reader α) : Nat → Reader (List α)
  | 0 => pure []
  | n + 1 => do
    let a ← r
    let rest ← times r n
    return a :: rest

/-- Reads values as long as there are bytes, at most one for each of them. -/
def untilEnd {α : Type} (r : Reader α) : Nat → Bytes → Option (List α)
  | _, [] => some []
  | 0, _ :: _ => none
  | n + 1, bytes => do
    let (a, rest) ← r bytes
    let values ← untilEnd r n rest
    return a :: values

namespace Reads

variable {α β γ : Type} {r : Reader α} {w w' : Bytes} {a : α}

theorem pure (a : α) : Reads (Pure.pure a) [] a := fun _ => rfl

theorem bind {f : α → Reader β} {b : β} (hr : Reads r w a) (hf : Reads (f a) w' b) :
    Reads (r >>= f) (w ++ w') b := by
  intro rest
  rw [List.append_assoc]
  simp only [Bind.bind, StateT.bind, hr (w' ++ rest), Option.bind_some]
  exact hf rest

theorem map (f : α → β) (hr : Reads r w a) : Reads (f <$> r) w (f a) := by
  intro rest
  simp only [Functor.map, StateT.map, Bind.bind, hr rest, Option.bind_some]
  rfl

theorem mapTo {f : α → β} {b : β} (hr : Reads r w a) (h : f a = b) : Reads (f <$> r) w b :=
  h ▸ hr.map f

/-- A reader that ends by returning what it has read. -/
theorem bindPure {f : α → β} (hr : Reads r w a) :
    Reads (r >>= fun x => Pure.pure (f x)) w (f a) := by
  intro rest
  simp only [Bind.bind, StateT.bind, hr rest, Option.bind_some]
  rfl

theorem takeBytes {n : Nat} (h : w.length = n) : Reads (takeBytes n) w w := by
  intro rest
  rw [Lib.takeBytes, if_pos (by simp [h]), List.take_left' h, List.drop_left' h]

theorem number {n value : Nat} (h : value < 256 ^ n) :
    Reads (number n) (littleEndian n value) value := by
  have hmap := (takeBytes (length_littleEndian n value)).map fromLittleEndian
  rwa [fromLittleEndian_littleEndian h] at hmap

theorem times {l : List β} {f : β → α} {g : β → Bytes} (h : ∀ b ∈ l, Reads r (g b) (f b)) :
    Reads (times r l.length) (l.flatMap g) (l.map f) := by
  induction l with
  | nil => exact .pure []
  | cons b l ih =>
    rw [List.length_cons, Lib.times, List.flatMap_cons, List.map_cons]
    have hrest := ih (fun c hc => h c (List.mem_cons_of_mem b hc))
    have hreturn := hrest.bind (f := fun rest => Pure.pure (f b :: rest))
      (.pure (f b :: l.map f))
    rw [List.append_nil] at hreturn
    exact (h b List.mem_cons_self).bind hreturn

/-- Values of at least one byte each are read up to the end. -/
theorem untilEnd {l : List β} {f : β → α} {g : β → Bytes} (h : ∀ b ∈ l, Reads r (g b) (f b))
    (hne : ∀ b ∈ l, g b ≠ []) {fuel : Nat} (hfuel : l.length ≤ fuel) :
    untilEnd r fuel (l.flatMap g) = some (l.map f) := by
  induction l generalizing fuel with
  | nil => cases fuel <;> rfl
  | cons b l ih =>
    obtain ⟨byte, bytes, hcons⟩ := List.exists_cons_of_ne_nil (hne b List.mem_cons_self)
    cases fuel with
    | zero => simp at hfuel
    | succ fuel =>
      have hrest := ih (fun c hc => h c (List.mem_cons_of_mem b hc))
        (fun c hc => hne c (List.mem_cons_of_mem b hc)) (Nat.le_of_succ_le_succ hfuel)
      have hread := h b List.mem_cons_self (l.flatMap g)
      rw [List.flatMap_cons, List.map_cons]
      rw [hcons] at hread ⊢
      rw [List.cons_append] at hread ⊢
      rw [Lib.untilEnd, hread]
      · simp only [Bind.bind, Option.bind_some, hrest]
        rfl
      · simp

end Reads

/-! ## Items before a bound -/

section Before

variable {α : Type} (size : α → Nat)

/-- The items that begin before so many bytes. -/
def beginBefore : Nat → List α → List α
  | _, [] => []
  | 0, _ :: _ => []
  | left + 1, a :: l => a :: beginBefore (left + 1 - size a) l

variable {size} {l : List α} {left : Nat}

theorem beginBefore_initial (left : Nat) (l : List α) : beginBefore size left l <+: l := by
  fun_induction beginBefore size left l with
  | case1 => exact List.prefix_rfl
  | case2 => exact List.nil_prefix
  | case3 left a l ih => exact (List.prefix_cons_inj a).mpr ih

/-- None is left out when the last one begins before the bound. -/
theorem beginBefore_eq_self_iff (hpos : ∀ a ∈ l, 0 < size a) (hleft : left ≤ (l.map size).sum) :
    beginBefore size left l = l ↔
      ∀ last, l.getLast? = some last → (l.map size).sum - left < size last := by
  fun_induction beginBefore size left l with
  | case1 => simp
  | case2 a l =>
    refine ⟨fun h => absurd h (List.cons_ne_nil a l).symm, fun h => ?_⟩
    have hlast := h _ (List.getLast?_eq_some_getLast (List.cons_ne_nil a l))
    have hle : size ((a :: l).getLast (List.cons_ne_nil a l)) ≤ ((a :: l).map size).sum :=
      List.single_le_sum (fun _ _ => Nat.zero_le _) _
        (List.mem_map_of_mem (List.getLast_mem (List.cons_ne_nil a l)))
    omega
  | case3 left a l ih =>
    have hpos' : ∀ b ∈ l, 0 < size b := fun b hb => hpos b (List.mem_cons_of_mem a hb)
    have ha := hpos a List.mem_cons_self
    rw [List.map_cons, List.sum_cons] at hleft ⊢
    have hih := ih hpos' (by omega)
    rw [List.cons_inj_right, hih]
    cases l with
    | nil => simp; omega
    | cons b l =>
      rw [List.getLast?_cons_cons]
      have hlast := List.getLast?_eq_some_getLast (List.cons_ne_nil b l)
      have hle : size ((b :: l).getLast (List.cons_ne_nil b l)) ≤ ((b :: l).map size).sum :=
        List.single_le_sum (fun _ _ => Nat.zero_le _) _
          (List.mem_map_of_mem (List.getLast_mem (List.cons_ne_nil b l)))
      rw [hlast]
      simp only [Option.some_inj, forall_eq']
      omega

end Before

/-! ## Machine integers -/

def writeUInt8 (value : UInt8) : Bytes := littleEndian 1 value.toNat

def writeUInt32 (value : UInt32) : Bytes := littleEndian 4 value.toNat

def writeUInt64 (value : UInt64) : Bytes := littleEndian 8 value.toNat

def writeInt32 (value : Int32) : Bytes := writeUInt32 value.toUInt32

def readUInt8 : Reader UInt8 := UInt8.ofNat <$> number 1

def readUInt32 : Reader UInt32 := UInt32.ofNat <$> number 4

def readUInt64 : Reader UInt64 := UInt64.ofNat <$> number 8

def readInt32 : Reader Int32 := UInt32.toInt32 <$> readUInt32

@[simp] theorem length_writeUInt8 (value : UInt8) : (writeUInt8 value).length = 1 :=
  length_littleEndian 1 _

@[simp] theorem length_writeUInt32 (value : UInt32) : (writeUInt32 value).length = 4 :=
  length_littleEndian 4 _

@[simp] theorem length_writeUInt64 (value : UInt64) : (writeUInt64 value).length = 8 :=
  length_littleEndian 8 _

@[simp] theorem length_writeInt32 (value : Int32) : (writeInt32 value).length = 4 :=
  length_writeUInt32 _

namespace Reads

theorem readUInt8 (value : UInt8) : Reads readUInt8 (writeUInt8 value) value := by
  have hnumber := (number (n := 1) value.toNat_lt).map UInt8.ofNat
  rwa [UInt8.ofNat_toNat] at hnumber

theorem readUInt32 (value : UInt32) : Reads readUInt32 (writeUInt32 value) value := by
  have hnumber := (number (n := 4) value.toNat_lt).map UInt32.ofNat
  rwa [UInt32.ofNat_toNat] at hnumber

theorem readUInt64 (value : UInt64) : Reads readUInt64 (writeUInt64 value) value := by
  have hnumber := (number (n := 8) value.toNat_lt).map UInt64.ofNat
  rwa [UInt64.ofNat_toNat] at hnumber

theorem readInt32 (value : Int32) : Reads readInt32 (writeInt32 value) value :=
  (readUInt32 value.toUInt32).map UInt32.toInt32

end Reads

end EdoproServer.Lib
