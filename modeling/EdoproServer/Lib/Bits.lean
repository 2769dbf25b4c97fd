import Mathlib

/-! The 32-bit operators of a language with one number type: each takes the low 32 bits of its
numbers and gives back a number, signed or not. Below them, what a word of any width loses
under a shift folded into it or a multiplication: nothing. -/

namespace EdoproServer.Lib.Bits

/-- The low 32 bits of a number. -/
def word (x : Int) : BitVec 32 := BitVec.ofInt 32 x

/-- A shift count is taken modulo 32. -/
def count (n : Int) : Nat := (word n).toNat % 32

def xor (x y : Int) : Int := (word x ^^^ word y).toInt
def or (x y : Int) : Int := (word x ||| word y).toInt
def and (x y : Int) : Int := (word x &&& word y).toInt
def shl (x n : Int) : Int := (word x <<< count n).toInt

/-- The shift that keeps the sign. -/
def sar (x n : Int) : Int := ((word x).sshiftRight (count n)).toInt

/-- The shift that fills with zeros; its result is not negative. -/
def shr (x n : Int) : Int := ((word x >>> count n).toNat : Int)

def imul (x y : Int) : Int := (word x * word y).toInt

/-- A number as an unsigned 32-bit integer. -/
def toUint32 (x : Int) : Int := shr x 0

@[simp] theorem word_toInt (w : BitVec 32) : word w.toInt = w := BitVec.ofInt_toInt

@[simp] theorem word_toNat (w : BitVec 32) : word (w.toNat : Int) = w := by
  rw [word, BitVec.ofInt_natCast, BitVec.ofNat_toNat, BitVec.setWidth_eq]

@[simp] theorem word_xor (x y : Int) : word (xor x y) = word x ^^^ word y := word_toInt _
@[simp] theorem word_or (x y : Int) : word (or x y) = word x ||| word y := word_toInt _
@[simp] theorem word_and (x y : Int) : word (and x y) = word x &&& word y := word_toInt _
@[simp] theorem word_shl (x n : Int) : word (shl x n) = word x <<< count n := word_toInt _
@[simp] theorem word_imul (x y : Int) : word (imul x y) = word x * word y := word_toInt _
@[simp] theorem word_shr (x n : Int) : word (shr x n) = word x >>> count n := word_toNat _

@[simp] theorem word_sar (x n : Int) : word (sar x n) = (word x).sshiftRight (count n) :=
  word_toInt _

theorem word_eq_iff {x y : Int} : word x = word y ↔ x % 2 ^ 32 = y % 2 ^ 32 := by
  rw [word, word, ← BitVec.toNat_inj, BitVec.toNat_ofInt, BitVec.toNat_ofInt]
  omega

theorem toUint32_eq (x : Int) : toUint32 x = x % 2 ^ 32 := by
  have hcount : count 0 = 0 := by decide
  rw [toUint32, shr, hcount, BitVec.ushiftRight_zero, word, BitVec.toNat_ofInt]
  omega

/-- A mask of low bits takes a number modulo a power of two. -/
theorem and_mask {k : Nat} (hk : k ≤ 31) (x : Int) : and x (2 ^ k - 1) = x % 2 ^ k := by
  have hpow : (2 : Nat) ^ k ≤ 2 ^ 31 := Nat.pow_le_pow_right (by decide) hk
  have hpos : 0 < (2 : Nat) ^ k := Nat.two_pow_pos k
  have hmask : ((2 : Int) ^ k - 1) = ((2 ^ k - 1 : Nat) : Int) := by
    rw [Nat.cast_sub hpos]
    simp
  have hdvd : (2 : Nat) ^ k ∣ 2 ^ 32 := Nat.pow_dvd_pow 2 (by omega)
  have hnat : (word x &&& word (2 ^ k - 1)).toNat = (x % 2 ^ 32).toNat % 2 ^ k := by
    rw [BitVec.toNat_and, hmask, word, word, BitVec.ofInt_natCast, BitVec.toNat_ofInt,
      BitVec.toNat_ofNat, Nat.mod_eq_of_lt (by omega), Nat.and_two_pow_sub_one_eq_mod]
    rfl
  have hlt : (x % 2 ^ 32).toNat % 2 ^ k < 2 ^ k := Nat.mod_lt _ hpos
  rw [and, BitVec.toInt_eq_toNat_of_lt (by omega), hnat, Int.natCast_mod,
    Int.toNat_of_nonneg (by omega)]
  have hdvd' : ((2 ^ k : Nat) : Int) ∣ 2 ^ 32 := by exact_mod_cast hdvd
  rw [Int.emod_emod_of_dvd _ hdvd']
  push_cast
  rfl

theorem shl_one {x : Int} (hx : 0 ≤ x) (hlt : x < 2 ^ 30) : shl x 1 = 2 * x := by
  have hcount : count 1 = 1 := by decide
  have hword : word x <<< 1 = BitVec.ofInt 32 (2 * x) := by
    apply BitVec.eq_of_toNat_eq
    rw [BitVec.toNat_shiftLeft, word, BitVec.toNat_ofInt, BitVec.toNat_ofInt, Nat.shiftLeft_eq]
    omega
  rw [shl, hcount, hword, BitVec.toInt_ofInt]
  exact Int.bmod_eq_of_le (by omega) (by omega)

section Mixing

variable {w : Nat}

/-- Folding a word shifted right into itself loses nothing. -/
theorem xorShift_injective {k : Nat} (hk : 0 < k) :
    Function.Injective (fun x : BitVec w => x ^^^ (x >>> k)) := by
  intro x y h
  simp only at h
  -- the difference of the two equals its own shift, so it is zero from the top bit down
  have hbit : ∀ n i, w ≤ i + n → x.getLsbD i = y.getLsbD i := by
    intro n
    induction n with
    | zero =>
      intro i hi
      rw [BitVec.getLsbD_of_ge x i (by omega), BitVec.getLsbD_of_ge y i (by omega)]
    | succ n ih =>
      intro i hi
      have hhigh : x.getLsbD (k + i) = y.getLsbD (k + i) := ih (k + i) (by omega)
      have hi := congrArg (fun z => z.getLsbD i) h
      simp only [BitVec.getLsbD_xor, BitVec.getLsbD_ushiftRight, hhigh] at hi
      exact (Bool.xor_left_inj).mp hi
  apply BitVec.eq_of_getLsbD_eq
  intro i _
  exact hbit w i (by omega)

/-- Nor does folding a word shifted left into itself. -/
theorem xorShiftLeft_injective {k : Nat} (hk : 0 < k) :
    Function.Injective (fun x : BitVec w => x ^^^ (x <<< k)) := by
  intro x y h
  simp only at h
  have hbit : ∀ n i, i < n → x.getLsbD i = y.getLsbD i := by
    intro n
    induction n with
    | zero => exact fun i hi => absurd hi (Nat.not_lt_zero i)
    | succ n ih =>
      intro i hi
      by_cases hw : i < w
      · have hlow : x.getLsbD (i - k) = y.getLsbD (i - k) ∨ i < k := by
          by_cases hik : i < k
          · exact Or.inr hik
          · exact Or.inl (ih (i - k) (by omega))
        have hi := congrArg (fun z => z.getLsbD i) h
        simp only [BitVec.getLsbD_xor, BitVec.getLsbD_shiftLeft, hw, decide_true,
          Bool.true_and] at hi
        rcases hlow with hlow | hlow
        · rw [hlow] at hi
          exact Bool.xor_left_inj.mp hi
        · simpa only [hlow, decide_true, Bool.not_true, Bool.false_and, Bool.xor_false] using hi
      · rw [BitVec.getLsbD_of_ge x i (by omega), BitVec.getLsbD_of_ge y i (by omega)]
  apply BitVec.eq_of_getLsbD_eq
  intro i hi
  exact hbit w i hi

/-- Nor does a rotation. -/
theorem rotate_injective {k : Nat} (hk : k ≤ w) :
    Function.Injective (fun x : BitVec w => (x <<< k) ||| (x >>> (w - k))) := by
  intro x y h
  simp only at h
  -- bit i goes to bit i + k, or past the end to bit i + k - w
  apply BitVec.eq_of_getLsbD_eq
  intro i hi
  by_cases hwrap : i + k < w
  · have hb := congrArg (fun z => z.getLsbD (i + k)) h
    have hnot : ¬ i + k < k := by omega
    have hpast : w ≤ w - k + (i + k) := by omega
    simpa only [BitVec.getLsbD_or, BitVec.getLsbD_shiftLeft, BitVec.getLsbD_ushiftRight, hwrap,
      hnot, Nat.add_sub_cancel, decide_true, decide_false, Bool.not_false, Bool.true_and,
      BitVec.getLsbD_of_ge x _ hpast, BitVec.getLsbD_of_ge y _ hpast, Bool.or_false] using hb
  · have hb := congrArg (fun z => z.getLsbD (i + k - w)) h
    have hlow : i + k - w < k := by omega
    have hfrom : w - k + (i + k - w) = i := by omega
    simpa only [BitVec.getLsbD_or, BitVec.getLsbD_shiftLeft, BitVec.getLsbD_ushiftRight, hlow,
      hfrom, decide_true, Bool.not_true, Bool.and_false, Bool.false_and, Bool.false_or] using hb

/-- A factor with an inverse loses nothing. -/
theorem mul_injective {a b : BitVec w} (unit : a * b = 1#w) :
    Function.Injective (fun x : BitVec w => x * a) := by
  intro x y h
  have hb := congrArg (fun z => z * b) h
  simpa only [BitVec.mul_assoc, unit, BitVec.mul_one] using hb

theorem add_injective (a : BitVec w) : Function.Injective (fun x : BitVec w => x + a) := by
  intro x y h
  exact BitVec.add_left_inj a |>.mp h

end Mixing

end EdoproServer.Lib.Bits
