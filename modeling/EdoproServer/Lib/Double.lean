import Mathlib

/-! Numbers in double precision, as far as texts of them go: a natural number that is read is
rounded to 53 bits, and one that is written shows the fewest digits that read back as it. -/

namespace EdoproServer.Lib.Double

/-- The nearest multiple of a unit, of two as near the even one. -/
def roundTo (unit m : Nat) : Nat :=
  if 2 * (m % unit) < unit ∨ 2 * (m % unit) = unit ∧ m / unit % 2 = 0 then m / unit * unit
  else (m / unit + 1) * unit

/-- How far apart the doubles around a natural number lie. -/
def spacing (m : Nat) : Nat := 2 ^ (Nat.log 2 m - 52)

def MAX_EXPONENT : Nat := 1024

/-- Past all doubles. -/
def overflow : Nat := 2 ^ MAX_EXPONENT

theorem lt_overflow {m : Nat} (h : m < 2 ^ 53) : m < overflow := by
  have hpow : 2 ^ 53 < overflow := Nat.pow_lt_pow_right Nat.one_lt_two (by decide)
  exact Nat.lt_trans h hpow

/-- The double nearest to a natural number; `none` is infinity. -/
def ofNat (m : Nat) : Option Nat :=
  if roundTo (spacing m) m < overflow then some (roundTo (spacing m) m) else none

theorem roundTo_one (m : Nat) : roundTo 1 m = m := by
  simp [roundTo, Nat.mod_one]

theorem dvd_roundTo (unit m : Nat) : unit ∣ roundTo unit m := by
  unfold roundTo
  split
  · exact Nat.dvd_mul_left _ _
  · exact Nat.dvd_mul_left _ _

theorem div_mul_le_roundTo (unit m : Nat) : m / unit * unit ≤ roundTo unit m := by
  unfold roundTo
  split
  · exact Nat.le_refl _
  · exact Nat.mul_le_mul_right _ (Nat.le_succ _)

/-- Below 2^53 every natural number is a double. -/
theorem ofNat_exact {m : Nat} (h : m < 2 ^ 53) : ofNat m = some m := by
  have hlog : Nat.log 2 m - 52 = 0 := by
    have hlt : Nat.log 2 m < 53 := by
      by_cases hm : m = 0
      · subst hm
        simp
      · exact (Nat.log_lt_iff_lt_pow (by norm_num) hm).mpr h
    omega
  have hround : roundTo (spacing m) m = m := by
    rw [spacing, hlog, Nat.pow_zero, roundTo_one]
  rw [ofNat, hround, if_pos (lt_overflow h)]

theorem log_ge {m : Nat} (h : 2 ^ 53 ≤ m) : 53 ≤ Nat.log 2 m :=
  Nat.le_log_of_pow_le (by norm_num) h

theorem two_dvd_spacing {m : Nat} (h : 2 ^ 53 ≤ m) : 2 ∣ spacing m := by
  have hlog := log_ge h
  exact dvd_pow_self 2 (by omega)

/-- A number has 53 bits above its spacing, so rounding down keeps its top bit. -/
theorem le_div_mul_spacing {m : Nat} (h : 2 ^ 53 ≤ m) : 2 ^ 53 ≤ m / spacing m * spacing m := by
  have hlog := log_ge h
  have hsplit : Nat.log 2 m = 52 + (Nat.log 2 m - 52) := by omega
  have hpow : 2 ^ Nat.log 2 m = 2 ^ 52 * spacing m := by
    rw [spacing, ← Nat.pow_add, ← hsplit]
  have hle : 2 ^ Nat.log 2 m ≤ m := Nat.pow_log_le_self 2 (by omega)
  have hspace : 0 < spacing m := Nat.two_pow_pos _
  have hdiv : 2 ^ 52 ≤ m / spacing m := by
    rw [Nat.le_div_iff_mul_le hspace, ← hpow]
    exact hle
  calc 2 ^ 53 ≤ 2 ^ Nat.log 2 m := Nat.pow_le_pow_right (by norm_num) hlog
    _ = 2 ^ 52 * spacing m := hpow
    _ ≤ m / spacing m * spacing m := Nat.mul_le_mul_right _ hdiv

/-- From 2^53 on there are only even doubles. -/
theorem ofNat_even {m n : Nat} (h : 2 ^ 53 ≤ m) (hn : ofNat m = some n) :
    n % 2 = 0 ∧ 2 ^ 53 ≤ n := by
  unfold ofNat at hn
  split at hn
  · cases hn
    exact ⟨Nat.mod_eq_zero_of_dvd (Nat.dvd_trans (two_dvd_spacing h) (dvd_roundTo _ _)),
      Nat.le_trans (le_div_mul_spacing h) (div_mul_le_roundTo _ _)⟩
  · cases hn

/-! ## Digits -/

/-- Of the numbers that read as `m`, one with the fewest digits before its zeros, tried from the
most zeros down. -/
def shortestFrom (m : Nat) : Nat → Nat
  | 0 => m
  | zeros + 1 =>
    let unit := 10 ^ (zeros + 1)
    let low := m / unit * unit
    let high := low + unit
    if ofNat low = ofNat m ∧ ofNat high = ofNat m then roundTo unit m
    else if ofNat low = ofNat m then low
    else if ofNat high = ofNat m then high
    else shortestFrom m zeros

def shortest (m : Nat) : Nat := shortestFrom m (Nat.toDigits 10 m).length

/-- A number of more than 21 digits is written with an exponent. -/
def naturalText (m : Nat) : List Char :=
  let digits := Nat.toDigits 10 (shortest m)
  if digits.length ≤ 21 then digits
  else
    let exponent := 'e' :: '+' :: Nat.toDigits 10 (digits.length - 1)
    match digits.rdropWhile (· = '0') with
    | [] => exponent
    | [digit] => digit :: exponent
    | digit :: digits => digit :: '.' :: digits ++ exponent

def integerText (z : Int) : List Char :=
  if z < 0 then '-' :: naturalText (-z).toNat else naturalText z.toNat

/-- The letters a number is written with. -/
def numberLetters : List Char :=
  ['0', '1', '2', '3', '4', '5', '6', '7', '8', '9', '-', '+', '.', 'e', 'N', 'a', 'I', 'n', 'f',
    'i', 't', 'y']

theorem toDigits_letters {m : Nat} : ∀ c ∈ Nat.toDigits 10 m, c ∈ numberLetters := by
  intro c hc
  have hdigit := Nat.isDigit_of_mem_toDigits (by norm_num) (by norm_num) hc
  have hrange : 48 ≤ c.toNat ∧ c.toNat ≤ 57 := by
    simpa [Char.isDigit, UInt32.le_iff_toNat_le] using hdigit
  have hback : c = Char.ofNat c.toNat := (Char.ofNat_toNat c).symm
  generalize c.toNat = n at hrange hback
  obtain ⟨hlow, hhigh⟩ := hrange
  subst hback
  interval_cases n <;> decide

theorem naturalText_letters {m : Nat} : ∀ c ∈ naturalText m, c ∈ numberLetters := by
  intro c hc
  have hexponent : ∀ n, ∀ c ∈ 'e' :: '+' :: Nat.toDigits 10 n, c ∈ numberLetters := by
    intro n c hc
    rcases List.mem_cons.mp hc with rfl | hc
    · decide
    · rcases List.mem_cons.mp hc with rfl | hc
      · decide
      · exact toDigits_letters c hc
  have hkept : ∀ c ∈ (Nat.toDigits 10 (shortest m)).rdropWhile (· = '0'), c ∈ numberLetters := by
    intro c hc
    exact toDigits_letters c ((List.rdropWhile_prefix _ _).subset hc)
  unfold naturalText at hc
  simp only at hc
  split at hc
  · exact toDigits_letters c hc
  · split at hc
    · exact hexponent _ c hc
    · rename_i digit hdigit
      rcases List.mem_cons.mp hc with rfl | hc
      · exact hkept _ (hdigit ▸ List.mem_cons_self)
      · exact hexponent _ c hc
    · rename_i digit digits hdigits
      rcases List.mem_cons.mp hc with rfl | hc
      · exact hkept _ (hdigits ▸ List.mem_cons_self)
      · rcases List.mem_append.mp hc with hc | hc
        · rcases List.mem_cons.mp hc with rfl | hc
          · decide
          · exact hkept _ (hdigits ▸ List.mem_cons_of_mem _ hc)
        · exact hexponent _ c hc

theorem integerText_letters {z : Int} : ∀ c ∈ integerText z, c ∈ numberLetters := by
  intro c hc
  unfold integerText at hc
  split at hc
  · rcases List.mem_cons.mp hc with rfl | hc
    · decide
    · exact naturalText_letters c hc
  · exact naturalText_letters c hc

end EdoproServer.Lib.Double

namespace EdoproServer.Lib

/-- What a variable of the one number type can hold. -/
inductive Number where
  | nan
  | infinity (negative : Bool)
  | finite (value : ℚ)
  deriving DecidableEq

namespace Number

def abs : Number → Number
  | nan => nan
  | infinity _ => infinity false
  | finite value => finite |value|

/-- Whether it is at least 0, which no comparison with a number that is none is. -/
def nonneg : Number → Bool
  | nan => false
  | infinity negative => !negative
  | finite value => 0 ≤ value

/-- The text of a number rounded to the nearest integer, halves up. -/
def roundText : Number → List Char
  | nan => ['N', 'a', 'N']
  | infinity true => ['-', 'I', 'n', 'f', 'i', 'n', 'i', 't', 'y']
  | infinity false => ['I', 'n', 'f', 'i', 'n', 'i', 't', 'y']
  | finite value => Double.integerText ⌊value + 1 / 2⌋

theorem roundText_letters (x : Number) : ∀ c ∈ x.roundText, c ∈ Double.numberLetters := by
  cases x with
  | nan => simp [roundText, Double.numberLetters]
  | infinity negative => cases negative <;> simp [roundText, Double.numberLetters]
  | finite value => exact Double.integerText_letters

end Number

end EdoproServer.Lib
