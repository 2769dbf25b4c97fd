import EdoproServer.Lib.Double

/-! Reading the decimal texts of whole numbers as doubles, the ones with an exponent included. -/

namespace EdoproServer.Lib.Double

/-- A whole number that is a double. -/
structure Whole where
  value : Int
  exact : ofNat value.natAbs = some value.natAbs
  deriving DecidableEq

/-! ## Reading -/

/-- What digits stand for; nothing but digits does. -/
def readDigits (text : List Char) : Option Nat :=
  if text ≠ [] ∧ text.all Char.isDigit = true then some (Nat.ofDigitChars 10 text 0) else none

/-- The exponent of what follows the digits. -/
def readExponent : List Char → Option Int
  | [] => some 0
  | _ :: '+' :: digits => (readDigits digits).map Int.ofNat
  | _ :: '-' :: digits => (readDigits digits).map (fun n : Nat => -Int.ofNat n)
  | _ :: digits => (readDigits digits).map Int.ofNat

/-- A number moved by a power of ten, where that leaves it whole. -/
def scale (n : Nat) (power : Int) : Option Nat :=
  if 0 ≤ power then some (n * 10 ^ power.toNat)
  else if 10 ^ (-power).toNat ∣ n then some (n / 10 ^ (-power).toNat) else none

/-- What stands before the exponent: digits without a zero in front, and digits after a point. -/
def readMantissa (mantissa : List Char) : Option (Nat × Nat) :=
  let whole := mantissa.takeWhile (· ≠ '.')
  let point := mantissa.dropWhile (· ≠ '.')
  if whole.head? = some '0' ∧ whole ≠ ['0'] then none
  else
    match readDigits whole, point with
    | some n, [] => some (n, 0)
    | some _, _ :: fraction =>
      if (readDigits fraction).isSome then
        some (Nat.ofDigitChars 10 (whole ++ fraction) 0, fraction.length)
      else none
    | none, _ => none

/-- The double a text without a sign stands for, if it is whole. -/
def readNatural (text : List Char) : Option Nat := do
  let (digits, places) ← readMantissa (text.takeWhile (fun c => c ≠ 'e' && c ≠ 'E'))
  let exponent ← readExponent (text.dropWhile (fun c => c ≠ 'e' && c ≠ 'E'))
  ofNat (← scale digits (exponent - places))

def readWhole (text : List Char) : Option Whole :=
  match text with
  | '-' :: text => (readNatural text).bind fun n =>
    if h : ofNat n = some n then some ⟨-(n : Int), by simpa using h⟩ else none
  | text => (readNatural text).bind fun n =>
    if h : ofNat n = some n then some ⟨n, by simpa using h⟩ else none

/-! ## The shortest digits -/

/-- The nearest of two neighbours is one of them. -/
theorem roundTo_cases (unit m : Nat) :
    roundTo unit m = m / unit * unit ∨ roundTo unit m = m / unit * unit + unit := by
  unfold roundTo
  split
  · exact Or.inl rfl
  · exact Or.inr (Nat.succ_mul _ _)

theorem ofNat_shortestFrom (m zeros : Nat) : ofNat (shortestFrom m zeros) = ofNat m := by
  induction zeros with
  | zero => rfl
  | succ zeros ih =>
    unfold shortestFrom
    dsimp only
    split
    · rename_i hboth
      rcases roundTo_cases (10 ^ (zeros + 1)) m with hround | hround
      · rw [hround]
        exact hboth.1
      · rw [hround]
        exact hboth.2
    · split
      · rename_i hlow
        exact hlow
      · split
        · rename_i hhigh
          exact hhigh
        · exact ih

/-- The digits that are written stand for the same double. -/
theorem ofNat_shortest (m : Nat) : ofNat (shortest m) = ofNat m := ofNat_shortestFrom m _

/-! ## Reading what was written -/

theorem toDigits_isDigit {n : Nat} : (Nat.toDigits 10 n).all Char.isDigit = true :=
  List.all_eq_true.mpr fun _ hc => Nat.isDigit_of_mem_toDigits (by norm_num) (by norm_num) hc

theorem readDigits_toDigits (n : Nat) : readDigits (Nat.toDigits 10 n) = some n := by
  rw [readDigits, if_pos ⟨Nat.toDigits_ne_nil, toDigits_isDigit⟩, Nat.ofDigitChars_ten_toDigits]

/-- No digits of a number but those of zero start with a zero. -/
theorem head_toDigits {n : Nat} (h : 0 < n) : (Nat.toDigits 10 n).head? ≠ some '0' := by
  induction n using Nat.strongRecOn with
  | ind n ih =>
    by_cases hsmall : n < 10
    · rw [Nat.toDigits_of_lt_base hsmall]
      interval_cases n <;> decide
    · rw [Nat.toDigits_of_base_le (by norm_num) (by omega), List.head?_append_of_ne_nil]
      · exact ih (n / 10) (by omega) (by omega)
      · exact Nat.toDigits_ne_nil

theorem no_leading_zero (n : Nat) :
    ¬ ((Nat.toDigits 10 n).head? = some '0' ∧ Nat.toDigits 10 n ≠ ['0']) := by
  rintro ⟨hhead, hne⟩
  by_cases hn : n = 0
  · exact hne (by rw [hn]; rfl)
  · exact head_toDigits (Nat.pos_of_ne_zero hn) hhead

theorem digit_ne {c : Char} (h : c.isDigit = true) : c ≠ '.' ∧ c ≠ 'e' ∧ c ≠ 'E' := by
  refine ⟨?_, ?_, ?_⟩
  · rintro rfl
    exact absurd h (by decide)
  · rintro rfl
    exact absurd h (by decide)
  · rintro rfl
    exact absurd h (by decide)

/-- Digits are read to their end. -/
theorem span_digits (p : Char → Bool) (digits rest : List Char)
    (hdigits : ∀ c ∈ digits, p c = true) (hrest : ∀ c ∈ rest.head?, p c = false) :
    (digits ++ rest).takeWhile p = digits ∧ (digits ++ rest).dropWhile p = rest := by
  have hstop : rest.takeWhile p = [] ∧ rest.dropWhile p = rest := by
    cases rest with
    | nil => exact ⟨rfl, rfl⟩
    | cons c rest =>
      have hc := hrest c rfl
      exact ⟨List.takeWhile_cons_of_neg (by rw [hc]; exact Bool.false_ne_true),
        List.dropWhile_cons_of_neg (by rw [hc]; exact Bool.false_ne_true)⟩
  exact ⟨by rw [List.takeWhile_append_of_pos hdigits, hstop.1, List.append_nil],
    by rw [List.dropWhile_append_of_pos hdigits, hstop.2]⟩

theorem readMantissa_digits {digits : List Char} (hne : digits ≠ [])
    (hall : digits.all Char.isDigit = true)
    (hlead : ¬ (digits.head? = some '0' ∧ digits ≠ ['0'])) :
    readMantissa digits = some (Nat.ofDigitChars 10 digits 0, 0) := by
  have hspan := span_digits (fun c => decide (c ≠ '.')) digits []
    (fun c hc => by simpa using (digit_ne (List.all_eq_true.mp hall c hc)).1) (by simp)
  rw [List.append_nil] at hspan
  simp only [readMantissa, hspan.1, hspan.2, if_neg hlead, readDigits, if_pos (And.intro hne hall)]

/-- One digit, a point and more digits. -/
theorem readMantissa_point {digit : Char} {digits : List Char} (hdigit : digit.isDigit = true)
    (hne : digits ≠ []) (hall : digits.all Char.isDigit = true) :
    readMantissa (digit :: '.' :: digits) =
      some (Nat.ofDigitChars 10 (digit :: digits) 0, digits.length) := by
  have hspan := span_digits (fun c => decide (c ≠ '.')) [digit] ('.' :: digits)
    (fun c hc => by
      rw [List.mem_singleton.mp hc]
      simpa using (digit_ne hdigit).1)
    (by simp)
  rw [List.singleton_append] at hspan
  have hlead : ¬ ([digit].head? = some '0' ∧ [digit] ≠ ['0']) := by
    rintro ⟨hhead, hother⟩
    exact hother (by rw [Option.some.inj hhead])
  have hone : [digit] ≠ [] ∧ [digit].all Char.isDigit = true := ⟨by simp, by simpa using hdigit⟩
  simp only [readMantissa, hspan.1, hspan.2, if_neg hlead, readDigits, if_pos hone,
    if_pos (And.intro hne hall), Option.isSome_some, if_true, List.singleton_append]

theorem readNatural_eq {mantissa : List Char} (exponent : List Char) {digits places : Nat}
    (power : Int) (hno : ∀ c ∈ mantissa, c ≠ 'e' ∧ c ≠ 'E') (hmark : ∀ c ∈ exponent.head?, c = 'e')
    (hmantissa : readMantissa mantissa = some (digits, places))
    (hexponent : readExponent exponent = some power) :
    readNatural (mantissa ++ exponent) = (scale digits (power - places)).bind ofNat := by
  have hspan := span_digits (fun c => c ≠ 'e' && c ≠ 'E') mantissa exponent
    (fun c hc => by simpa using hno c hc)
    (fun c hc => by rw [hmark c hc]; rfl)
  unfold readNatural
  rw [hspan.1, hspan.2, hmantissa, hexponent]
  rfl

theorem scale_zero (n : Nat) : scale n 0 = some n := by
  rw [scale, if_pos (le_refl 0), Int.toNat_zero, Nat.pow_zero, Nat.mul_one]

/-- Digits without their last zeros, moved back. -/
theorem ofDigitChars_zeros {digits stripped zeros : List Char} (hsplit : stripped ++ zeros = digits)
    (hzeros : ∀ c ∈ zeros, c = '0') :
    Nat.ofDigitChars 10 stripped 0 * 10 ^ zeros.length = Nat.ofDigitChars 10 digits 0 := by
  rw [← hsplit, Nat.ofDigitChars_append, List.eq_replicate_of_mem hzeros,
    Nat.ofDigitChars_replicate_zero, List.length_replicate, Nat.mul_comm]

/-- An exponent one less than the number of digits moves the point behind the last of them. -/
theorem readNatural_exponent {mantissa : List Char} {digits stripped zeros : List Char}
    (hsplit : stripped ++ zeros = digits) (hzeros : ∀ c ∈ zeros, c = '0')
    (hno : ∀ c ∈ mantissa, c ≠ 'e' ∧ c ≠ 'E') (hsome : stripped ≠ [])
    (hmantissa : readMantissa mantissa =
      some (Nat.ofDigitChars 10 stripped 0, stripped.length - 1)) :
    readNatural (mantissa ++ 'e' :: '+' :: Nat.toDigits 10 (digits.length - 1)) =
      ofNat (Nat.ofDigitChars 10 digits 0) := by
  have hpos := List.length_pos_of_ne_nil hsome
  have hlength : digits.length = stripped.length + zeros.length := by
    rw [← hsplit, List.length_append]
  have hexponent : readExponent ('e' :: '+' :: Nat.toDigits 10 (digits.length - 1)) =
      some ((digits.length - 1 : Nat) : Int) := by
    rw [readExponent, readDigits_toDigits]
    rfl
  have hpower : ((digits.length - 1 : Nat) : Int) - ((stripped.length - 1 : Nat) : Int) =
      zeros.length := by omega
  rw [readNatural_eq _ _ hno (by simp) hmantissa hexponent, hpower, scale,
    if_pos (Int.natCast_nonneg _), Int.toNat_natCast, ofDigitChars_zeros hsplit hzeros,
    Option.bind_some]

/-- Digits with a point after the first one, if there are more. -/
def mantissaText (digit : Char) (digits : List Char) : List Char :=
  if digits = [] then [digit] else digit :: '.' :: digits

/-- A long text leaves out the zeros at the end, a short one does not. -/
theorem naturalText_cases (m : Nat) :
    naturalText m = Nat.toDigits 10 (shortest m) ∨
      ∃ digit digits zeros, digit :: digits ++ zeros = Nat.toDigits 10 (shortest m) ∧
        (∀ c ∈ zeros, c = '0') ∧ naturalText m = mantissaText digit digits ++
          'e' :: '+' :: Nat.toDigits 10 ((Nat.toDigits 10 (shortest m)).length - 1) := by
  have hvalue : Nat.ofDigitChars 10 (Nat.toDigits 10 (shortest m)) 0 = shortest m :=
    Nat.ofDigitChars_ten_toDigits
  have hsplit := List.rdropWhile_append_rtakeWhile (p := fun c => decide (c = '0'))
    (l := Nat.toDigits 10 (shortest m))
  have hzeros : ∀ c ∈ (Nat.toDigits 10 (shortest m)).rtakeWhile (fun c => decide (c = '0')),
      c = '0' := fun c hc => by simpa using List.mem_rtakeWhile_imp hc
  unfold naturalText
  dsimp only
  split
  · exact Or.inl rfl
  · rename_i hlong
    split
    · -- all digits are zeros only for zero itself, which is short
      rename_i hnil
      have hzero : shortest m = 0 := by
        rw [← hvalue, ← ofDigitChars_zeros hsplit hzeros, hnil, Nat.ofDigitChars_nil,
          Nat.zero_mul]
      rw [hzero] at hlong
      exact absurd (by decide) hlong
    · rename_i digit hdigit
      rw [hdigit] at hsplit
      exact Or.inr ⟨digit, [], _, hsplit, hzeros, rfl⟩
    · rename_i digit digits hmore hdigits
      rw [hdigits] at hsplit
      exact Or.inr ⟨digit, digits, _, hsplit, hzeros, by rw [mantissaText, if_neg hmore]⟩

theorem readMantissa_mantissaText {digit : Char} {digits : List Char}
    (hall : ∀ c ∈ digit :: digits, c.isDigit = true) :
    readMantissa (mantissaText digit digits) =
      some (Nat.ofDigitChars 10 (digit :: digits) 0, (digit :: digits).length - 1) := by
  have hdigit := hall digit List.mem_cons_self
  by_cases hnone : digits = []
  · have hlead : ¬ ([digit].head? = some '0' ∧ [digit] ≠ ['0']) := by
      rintro ⟨hhead, hother⟩
      exact hother (by rw [Option.some.inj hhead])
    rw [hnone, mantissaText, if_pos rfl]
    exact readMantissa_digits (by simp) (by simpa using hdigit) hlead
  · rw [mantissaText, if_neg hnone]
    exact readMantissa_point hdigit hnone
      (List.all_eq_true.mpr fun c hc => hall c (List.mem_cons_of_mem _ hc))

/-- The digits and the point of a mantissa. -/
theorem mantissaText_all {p : Char → Prop} {digit : Char} {digits : List Char}
    (hall : ∀ c ∈ digit :: digits, p c) (hpoint : p '.') :
    ∀ c ∈ mantissaText digit digits, p c := by
  intro c hc
  unfold mantissaText at hc
  split at hc
  · rw [List.mem_singleton.mp hc]
    exact hall digit List.mem_cons_self
  · rcases List.mem_cons.mp hc with rfl | hc
    · exact hall _ List.mem_cons_self
    · rcases List.mem_cons.mp hc with rfl | hc
      · exact hpoint
      · exact hall c (List.mem_cons_of_mem _ hc)

/-- The text of a number is read as the double nearest to it. -/
theorem readNatural_naturalText (m : Nat) : readNatural (naturalText m) = ofNat m := by
  have hall := List.all_eq_true.mp (toDigits_isDigit (n := shortest m))
  have hvalue : Nat.ofDigitChars 10 (Nat.toDigits 10 (shortest m)) 0 = shortest m :=
    Nat.ofDigitChars_ten_toDigits
  rcases naturalText_cases m with htext | ⟨digit, digits, zeros, hsplit, hzeros, htext⟩
  · have hread := readNatural_eq [] 0
      (fun c hc => (digit_ne (hall c hc)).2) (by simp)
      (readMantissa_digits Nat.toDigits_ne_nil (List.all_eq_true.mpr hall)
        (no_leading_zero (shortest m))) rfl
    rw [List.append_nil] at hread
    rw [htext, hread, hvalue]
    change (scale (shortest m) 0).bind ofNat = ofNat m
    rw [scale_zero, Option.bind_some, ofNat_shortest]
  · have hkept : ∀ c ∈ digit :: digits, c.isDigit = true := fun c hc =>
      hall c (hsplit ▸ List.mem_append_left _ hc)
    have hno := mantissaText_all (p := fun c => c ≠ 'e' ∧ c ≠ 'E')
      (fun c hc => (digit_ne (hkept c hc)).2) (by decide)
    have hread := readNatural_exponent hsplit hzeros hno (by simp)
      (readMantissa_mantissaText hkept)
    rw [htext, hread, hvalue, ofNat_shortest]

/-- The letters of the text of a whole number. -/
def isNumberChar (c : Char) : Bool :=
  c.isDigit || c = '-' || c = '+' || c = '.' || c = 'e' || c = 'E'

theorem naturalText_chars (m : Nat) : ∀ c ∈ naturalText m, isNumberChar c = true := by
  have hdigits : ∀ n, ∀ c ∈ Nat.toDigits 10 n, isNumberChar c = true := by
    intro n c hc
    simp [isNumberChar, List.all_eq_true.mp (toDigits_isDigit (n := n)) c hc]
  rcases naturalText_cases m with htext | ⟨digit, digits, zeros, hsplit, hzeros, htext⟩
  · rw [htext]
    exact hdigits _
  · have hkept : ∀ c ∈ digit :: digits, isNumberChar c = true := fun c hc =>
      hdigits _ c (hsplit ▸ List.mem_append_left _ hc)
    intro c hc
    rw [htext] at hc
    rcases List.mem_append.mp hc with hc | hc
    · exact mantissaText_all hkept (by decide) c hc
    · rcases List.mem_cons.mp hc with rfl | hc
      · decide
      · rcases List.mem_cons.mp hc with rfl | hc
        · decide
        · exact hdigits _ c hc

theorem naturalText_head (m : Nat) : ∃ c rest, naturalText m = c :: rest ∧ c.isDigit = true := by
  have hall := List.all_eq_true.mp (toDigits_isDigit (n := shortest m))
  rcases naturalText_cases m with htext | ⟨digit, digits, zeros, hsplit, hzeros, htext⟩
  · obtain ⟨c, rest, hdigits⟩ := List.exists_cons_of_ne_nil
      (Nat.toDigits_ne_nil (n := shortest m) (b := 10))
    exact ⟨c, rest, by rw [htext, hdigits], hall c (hdigits ▸ List.mem_cons_self)⟩
  · have hdigit := hall digit (hsplit ▸ List.mem_append_left _ List.mem_cons_self)
    unfold mantissaText at htext
    split at htext
    · exact ⟨digit, _, htext, hdigit⟩
    · exact ⟨digit, _, htext, hdigit⟩

theorem integerText_chars (z : Int) : ∀ c ∈ integerText z, isNumberChar c = true := by
  intro c hc
  unfold integerText at hc
  split at hc
  · rcases List.mem_cons.mp hc with rfl | hc
    · decide
    · exact naturalText_chars _ c hc
  · exact naturalText_chars _ c hc

/-- A whole number begins with its sign or with a digit. -/
theorem integerText_head (z : Int) :
    ∃ c rest, integerText z = c :: rest ∧ (c = '-' ∨ c.isDigit = true) := by
  unfold integerText
  split
  · exact ⟨'-', _, rfl, Or.inl rfl⟩
  · obtain ⟨c, rest, htext, hdigit⟩ := naturalText_head z.toNat
    exact ⟨c, rest, htext, Or.inr hdigit⟩

/-- The text of a whole number is read as it. -/
theorem readWhole_integerText (n : Whole) : readWhole (integerText n.value) = some n := by
  obtain ⟨z, hexact⟩ := n
  dsimp only
  unfold integerText
  split
  · have habs : (-z).toNat = z.natAbs := by omega
    have hneg : -(z.natAbs : Int) = z := by omega
    simp only [readWhole, readNatural_naturalText, habs, hexact, Option.bind_some, dif_pos,
      hneg]
  · have habs : z.toNat = z.natAbs := by omega
    have hpos : (z.natAbs : Int) = z := by omega
    unfold readWhole
    split
    · rename_i rest htext
      obtain ⟨c, _, hhead, hdigit⟩ := naturalText_head z.toNat
      rw [htext] at hhead
      cases hhead
      exact absurd hdigit (by decide)
    · simp only [readNatural_naturalText, habs, hexact, Option.bind_some, dif_pos, hpos]

end EdoproServer.Lib.Double
