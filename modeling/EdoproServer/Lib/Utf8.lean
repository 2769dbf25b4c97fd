import Mathlib.Data.List.Basic

namespace EdoproServer.Lib.Utf8

/-! ## Text as bytes -/

def encode (text : List Char) : List UInt8 := text.flatMap String.utf8EncodeChar

@[simp] theorem encode_nil : encode [] = [] := rfl

@[simp] theorem encode_cons (c : Char) (text : List Char) :
    encode (c :: text) = String.utf8EncodeChar c ++ encode text := rfl

@[simp] theorem encode_append (text text' : List Char) :
    encode (text ++ text') = encode text ++ encode text' := List.flatMap_append

/-- A scalar value is no surrogate. -/
theorem scalar (c : Char) : c.val.toNat < 0xD800 ∨ 0xDFFF < c.val.toNat ∧ c.val.toNat < 0x110000 :=
  c.valid

/-! ## Bytes as text -/

/-- Stands for bytes that are not the encoding of anything. -/
def replacement : Char := Char.ofNat 0xFFFD

/-- A character begun: how many bytes it still needs, its code point so far and the bounds of its
next byte. -/
structure Pending where
  needed : Nat
  codePoint : Nat
  lower : Nat
  upper : Nat

/-- What a byte adds to the text and what is pending after it. -/
structure Read where
  text : List Char
  pending : Option Pending

/-- A byte between characters. The bounds exclude overlong forms, surrogates and what lies past
the last code point. -/
def readFirst (byte : Nat) : Read :=
  if byte ≤ 0x7F then { text := [Char.ofNat byte], pending := none }
  else if 0xC2 ≤ byte ∧ byte ≤ 0xDF then
    { text := []
      pending := some { needed := 1, codePoint := byte - 0xC0, lower := 0x80, upper := 0xBF } }
  else if 0xE0 ≤ byte ∧ byte ≤ 0xEF then
    { text := []
      pending := some { needed := 2, codePoint := byte - 0xE0
                        lower := if byte = 0xE0 then 0xA0 else 0x80
                        upper := if byte = 0xED then 0x9F else 0xBF } }
  else if 0xF0 ≤ byte ∧ byte ≤ 0xF4 then
    { text := []
      pending := some { needed := 3, codePoint := byte - 0xF0
                        lower := if byte = 0xF0 then 0x90 else 0x80
                        upper := if byte = 0xF4 then 0x8F else 0xBF } }
  else { text := [replacement], pending := none }

/-- A byte within the bounds of a pending character. -/
def readNext (pending : Pending) (byte : Nat) : Read :=
  let codePoint := pending.codePoint * 64 + (byte - 0x80)
  if pending.needed = 1 then { text := [Char.ofNat codePoint], pending := none }
  else
    { text := []
      pending := some { needed := pending.needed - 1, codePoint := codePoint, lower := 0x80,
                        upper := 0xBF } }

/-- A byte out of bounds ends the pending character and is read again between characters. -/
def read (pending : Option Pending) (byte : Nat) : Read :=
  match pending with
  | none => readFirst byte
  | some p =>
    if p.lower ≤ byte ∧ byte ≤ p.upper then readNext p byte
    else { readFirst byte with text := replacement :: (readFirst byte).text }

def decodeFrom : Option Pending → List UInt8 → List Char
  | none, [] => []
  | some _, [] => [replacement]
  | pending, byte :: bytes =>
    (read pending byte.toNat).text ++ decodeFrom (read pending byte.toNat).pending bytes

/-- Every maximal run of bytes that begins no character becomes one replacement. -/
def decode (bytes : List UInt8) : List Char := decodeFrom none bytes

theorem decodeFrom_cons (pending : Option Pending) (byte : UInt8) (bytes : List UInt8) :
    decodeFrom pending (byte :: bytes) =
      (read pending byte.toNat).text ++ decodeFrom (read pending byte.toNat).pending bytes := by
  cases pending with
  | _ => rfl

/-- A byte that leaves a character pending adds no text. -/
theorem decodeFrom_more {pending : Option Pending} {p : Pending} {byte : Nat} (h : byte < 256)
    (hread : read pending byte = { text := [], pending := some p }) (bytes : List UInt8) :
    decodeFrom pending (UInt8.ofNat byte :: bytes) = decodeFrom (some p) bytes := by
  have hbyte : (UInt8.ofNat byte).toNat = byte := by
    rw [UInt8.toNat_ofNat']
    omega
  rw [decodeFrom_cons, hbyte, hread, List.nil_append]

theorem decodeFrom_done {pending : Option Pending} {c : Char} {byte : Nat} (h : byte < 256)
    (hread : read pending byte = { text := [c], pending := none }) (bytes : List UInt8) :
    decodeFrom pending (UInt8.ofNat byte :: bytes) = c :: decodeFrom none bytes := by
  have hbyte : (UInt8.ofNat byte).toNat = byte := by
    rw [UInt8.toNat_ofNat']
    omega
  rw [decodeFrom_cons, hbyte, hread, List.cons_append, List.nil_append]

theorem read_one {byte : Nat} (h : byte ≤ 0x7F) :
    read none byte = { text := [Char.ofNat byte], pending := none } := if_pos h

theorem read_two {lead : Nat} (hlow : 2 ≤ lead) (hhigh : lead < 32) :
    read none (lead + 0xC0) =
      { text := []
        pending := some { needed := 1, codePoint := lead, lower := 0x80, upper := 0xBF } } := by
  rw [read, readFirst, if_neg (by omega), if_pos (by omega), Nat.add_sub_cancel]

theorem read_three {lead : Nat} (hhigh : lead < 16) :
    read none (lead + 0xE0) =
      { text := []
        pending := some { needed := 2, codePoint := lead
                          lower := if lead = 0 then 0xA0 else 0x80
                          upper := if lead = 13 then 0x9F else 0xBF } } := by
  rw [read, readFirst, if_neg (by omega), if_neg (by omega), if_pos (by omega),
    Nat.add_sub_cancel]
  simp

theorem read_four {lead : Nat} (hhigh : lead < 5) :
    read none (lead + 0xF0) =
      { text := []
        pending := some { needed := 3, codePoint := lead
                          lower := if lead = 0 then 0x90 else 0x80
                          upper := if lead = 4 then 0x8F else 0xBF } } := by
  rw [read, readFirst, if_neg (by omega), if_neg (by omega), if_neg (by omega),
    if_pos (by omega), Nat.add_sub_cancel]
  simp

/-- A byte within bounds adds its six bits. -/
theorem read_tail {needed codePoint lower upper tail : Nat} (hlow : lower ≤ tail + 0x80)
    (hhigh : tail + 0x80 ≤ upper) :
    read (some { needed := needed + 2, codePoint := codePoint, lower := lower, upper := upper })
        (tail + 0x80) =
      { text := []
        pending := some { needed := needed + 1, codePoint := codePoint * 64 + tail,
                          lower := 0x80, upper := 0xBF } } := by
  rw [read, if_pos ⟨hlow, hhigh⟩, readNext, Nat.add_sub_cancel, if_neg (by simp)]
  rfl

theorem read_last {codePoint tail : Nat} (h : tail < 64) :
    read (some { needed := 1, codePoint := codePoint, lower := 0x80, upper := 0xBF })
        (tail + 0x80) =
      { text := [Char.ofNat (codePoint * 64 + tail)], pending := none } := by
  have hbounds : 0x80 ≤ tail + 0x80 ∧ tail + 0x80 ≤ 0xBF := by omega
  rw [read, if_pos hbounds, readNext, Nat.add_sub_cancel, if_pos rfl]

/-- The encoding of a character is read as that character, whatever follows. -/
theorem decodeFrom_char (c : Char) (bytes : List UInt8) :
    decodeFrom none (String.utf8EncodeChar c ++ bytes) = c :: decodeFrom none bytes := by
  have hscalar := scalar c
  have hc : Char.ofNat c.val.toNat = c := Char.ofNat_toNat c
  unfold String.utf8EncodeChar
  generalize c.val.toNat = v at hscalar hc
  dsimp only
  split
  · rename_i h7
    rw [List.cons_append, List.nil_append, decodeFrom_done (by omega) (read_one h7), hc]
  · split
    · have hv : v / 64 % 32 * 64 + v % 64 = v := by omega
      simp only [List.cons_append, List.nil_append]
      rw [decodeFrom_more (by omega) (read_two (by omega) (by omega)),
        decodeFrom_done (by omega) (read_last (by omega)), hv, hc]
    · split
      · have hv : (v / 4096 % 16 * 64 + v / 64 % 64) * 64 + v % 64 = v := by omega
        simp only [List.cons_append, List.nil_append]
        rw [decodeFrom_more (by omega) (read_three (by omega)),
          decodeFrom_more (by omega) (read_tail (by split <;> omega) (by split <;> omega)),
          decodeFrom_done (by omega) (read_last (by omega)), hv, hc]
      · have hv : ((v / 262144 % 8 * 64 + v / 4096 % 64) * 64 + v / 64 % 64) * 64 + v % 64 = v := by
          omega
        simp only [List.cons_append, List.nil_append]
        rw [decodeFrom_more (by omega) (read_four (by omega)),
          decodeFrom_more (by omega) (read_tail (by split <;> omega) (by split <;> omega)),
          decodeFrom_more (by omega) (read_tail (by omega) (by omega)),
          decodeFrom_done (by omega) (read_last (by omega)), hv, hc]

theorem decode_encode (text : List Char) : decode (encode text) = text := by
  induction text with
  | nil => rfl
  | cons c text ih =>
    rw [decode, encode_cons, decodeFrom_char]
    exact congrArg (c :: ·) ih

/-! ## Where characters begin -/

/-- A byte that begins no character. -/
def isContinuation (byte : UInt8) : Bool := byte &&& 0xC0 = 0x80

theorem isContinuation_ofNat : ∀ n < 256,
    isContinuation (UInt8.ofNat n) = (decide (0x80 ≤ n) && decide (n < 0xC0)) := by
  decide +kernel

/-- A character has at most four bytes, of which exactly the first begins it. -/
theorem utf8EncodeChar_eq (c : Char) : ∃ first tail, String.utf8EncodeChar c = first :: tail ∧
    isContinuation first = false ∧ (∀ byte ∈ tail, isContinuation byte = true) ∧
      tail.length < 4 := by
  have hscalar := scalar c
  have hlead : ∀ n < 256, n < 0x80 ∨ 0xC0 ≤ n → isContinuation (UInt8.ofNat n) = false := by
    intro n hn h
    rw [isContinuation_ofNat n hn, Bool.and_eq_false_iff, decide_eq_false_iff_not,
      decide_eq_false_iff_not]
    omega
  have htail : ∀ n, isContinuation (UInt8.ofNat (n % 64 + 0x80)) = true := by
    intro n
    rw [isContinuation_ofNat _ (by omega), Bool.and_eq_true, decide_eq_true_eq, decide_eq_true_eq]
    omega
  unfold String.utf8EncodeChar
  generalize c.val.toNat = v at hscalar
  dsimp only
  split
  · exact ⟨_, _, rfl, hlead _ (by omega) (by omega), by simp, by simp⟩
  · split
    · refine ⟨_, _, rfl, hlead _ (by omega) (by omega), ?_, by simp⟩
      simp [-UInt8.ofNat_add, htail]
    · split
      · refine ⟨_, _, rfl, hlead _ (by omega) (by omega), ?_, by simp⟩
        simp [-UInt8.ofNat_add, htail]
      · refine ⟨_, _, rfl, hlead _ (by omega) (by omega), ?_, by simp⟩
        simp [-UInt8.ofNat_add, htail]

/-- A prefix that fits into so many bytes, and is as long as any that does. -/
structure IsLongestPrefix (maxBytes : Nat) (text taken : List Char) : Prop where
  isPrefix : taken <+: text
  fits : (encode taken).length ≤ maxBytes
  longest : ∀ other, other <+: text → (encode other).length ≤ maxBytes → other <+: taken

theorem IsLongestPrefix.self {maxBytes : Nat} {text : List Char}
    (h : (encode text).length ≤ maxBytes) : IsLongestPrefix maxBytes text text :=
  ⟨List.prefix_rfl, h, fun _ hother _ => hother⟩

/-- Where the next character no longer fits, the prefix is the longest. -/
theorem IsLongestPrefix.of_overflow {maxBytes : Nat} {taken rest : List Char} {c : Char}
    (hfits : (encode taken).length ≤ maxBytes)
    (hover : maxBytes < (encode taken).length + (String.utf8EncodeChar c).length) :
    IsLongestPrefix maxBytes (taken ++ c :: rest) taken := by
  refine ⟨List.prefix_append _ _, hfits, ?_⟩
  intro other hother hlength
  cases List.prefix_or_prefix_of_prefix hother (List.prefix_append taken (c :: rest)) with
  | inl h => exact h
  | inr h =>
    obtain ⟨more, rfl⟩ := h
    cases more with
    | nil => simp
    | cons d more =>
      rw [List.prefix_append_right_inj, List.cons_prefix_cons] at hother
      obtain ⟨rfl, _⟩ := hother
      simp only [encode_append, encode_cons, List.length_append] at hlength
      omega

/-- A text that does not fit has a next character that overflows. -/
theorem exists_overflow {maxBytes : Nat} {text : List Char}
    (h : maxBytes < (encode text).length) : ∃ taken c rest, text = taken ++ c :: rest ∧
      (encode taken).length ≤ maxBytes ∧
      maxBytes < (encode taken).length + (String.utf8EncodeChar c).length := by
  induction text generalizing maxBytes with
  | nil => cases h
  | cons c text ih =>
    by_cases hc : maxBytes < (String.utf8EncodeChar c).length
    · exact ⟨[], c, text, rfl, by simp, by simpa using hc⟩
    · have hrest : maxBytes - (String.utf8EncodeChar c).length < (encode text).length := by
        simp only [encode_cons, List.length_append] at h
        omega
      obtain ⟨taken, d, rest, rfl, hfits, hover⟩ := ih hrest
      refine ⟨c :: taken, d, rest, rfl, ?_, ?_⟩
      · simp only [encode_cons, List.length_append]
        omega
      · simp only [encode_cons, List.length_append]
        omega

/-- Inside a text, the bytes of a character past its first are continuations. -/
theorem isContinuation_inside (taken : List Char) (c : Char) (rest : List Char) {i : Nat}
    (hlow : (encode taken).length < i)
    (hhigh : i < (encode taken).length + (String.utf8EncodeChar c).length) :
    ((encode (taken ++ c :: rest))[i]?).any isContinuation = true := by
  obtain ⟨first, tail, hc, _, htail, _⟩ := utf8EncodeChar_eq c
  rw [hc, List.length_cons] at hhigh
  obtain ⟨k, rfl⟩ := Nat.exists_eq_add_of_lt hlow
  have hk : k < tail.length := by omega
  have hindex : (encode taken).length + k + 1 - (encode taken).length = k + 1 := by omega
  rw [encode_append, encode_cons, hc, List.getElem?_append_right (by omega), hindex,
    List.cons_append, List.getElem?_cons_succ, List.getElem?_append_left hk,
    List.getElem?_eq_getElem hk, Option.any_some]
  exact htail _ (List.getElem_mem hk)

theorem isContinuation_first (taken : List Char) (c : Char) (rest : List Char) :
    ((encode (taken ++ c :: rest))[(encode taken).length]?).any isContinuation = false := by
  obtain ⟨first, tail, hc, hfirst, _⟩ := utf8EncodeChar_eq c
  rw [encode_append, encode_cons, hc, List.getElem?_append_right (Nat.le_refl _), Nat.sub_self,
    List.cons_append, List.getElem?_cons_zero, Option.any_some, hfirst]

end EdoproServer.Lib.Utf8
