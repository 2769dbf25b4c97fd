import Mathlib

/-! Texts as their 16-bit units. A unit of a surrogate pair may stand alone. -/

namespace EdoproServer.Lib

abbrev Utf16 := List UInt16

namespace Utf16

def unit (c : Char) : UInt16 := UInt16.ofNat c.toNat

/-- The units of a text of the basic plane. -/
def units (text : String) : Utf16 := text.toList.map unit

def isWhitespace (c : UInt16) : Bool :=
  c ∈ [0x9, 0xa, 0xb, 0xc, 0xd, 0x20, 0xa0, 0x1680, 0x2000, 0x2001, 0x2002, 0x2003, 0x2004,
    0x2005, 0x2006, 0x2007, 0x2008, 0x2009, 0x200a, 0x2028, 0x2029, 0x202f, 0x205f, 0x3000, 0xfeff]

def isHighSurrogate (c : UInt16) : Bool := 0xd800 ≤ c ∧ c ≤ 0xdbff

def isLowSurrogate (c : UInt16) : Bool := 0xdc00 ≤ c ∧ c ≤ 0xdfff

theorem not_low_of_high {c : UInt16} (h : isHighSurrogate c = true) :
    isLowSurrogate c = false := by
  simp only [isHighSurrogate, isLowSurrogate, decide_eq_true_eq, decide_eq_false_iff_not,
    UInt16.le_iff_toNat_le] at h ⊢
  have hhigh : (0xdbff : UInt16).toNat = 56319 := rfl
  have hlow : (0xdc00 : UInt16).toNat = 56320 := rfl
  omega

def trim (text : Utf16) : Utf16 :=
  ((text.dropWhile isWhitespace).reverse.dropWhile isWhitespace).reverse

theorem mem_trim {c : UInt16} {text : Utf16} (h : c ∈ trim text) : c ∈ text := by
  have hleft := List.mem_reverse.mp h
  have hright := List.mem_reverse.mp ((List.dropWhile_sublist _).subset hleft)
  exact (List.dropWhile_sublist _).subset hright

/-! ## Characters of two units -/

/-- A character of a text, or a unit that is half of no pair. -/
inductive Item where
  | char (c : Char)
  | lone (u : UInt16)

/-- The character of a surrogate pair. -/
def pairChar (high low : UInt16) : Char :=
  Char.ofNat (0x10000 + (high.toNat - 0xd800) * 0x400 + (low.toNat - 0xdc00))

def single (u : UInt16) : Item :=
  if isHighSurrogate u || isLowSurrogate u then .lone u else .char (Char.ofNat u.toNat)

def items : Utf16 → List Item
  | [] => []
  | [u] => [single u]
  | high :: low :: rest =>
    if isHighSurrogate high && isLowSurrogate low then .char (pairChar high low) :: items rest
    else single high :: items (low :: rest)

def charUnits (c : Char) : Utf16 :=
  if c.toNat < 0x10000 then [UInt16.ofNat c.toNat]
  else [UInt16.ofNat (0xd800 + (c.toNat - 0x10000) / 0x400),
    UInt16.ofNat (0xdc00 + (c.toNat - 0x10000) % 0x400)]

def Item.units : Item → Utf16
  | char c => charUnits c
  | lone u => [u]

theorem isHighSurrogate_iff {u : UInt16} :
    isHighSurrogate u = true ↔ 0xd800 ≤ u.toNat ∧ u.toNat ≤ 0xdbff := by
  simp only [isHighSurrogate, decide_eq_true_eq, UInt16.le_iff_toNat_le]
  exact Iff.rfl

theorem isLowSurrogate_iff {u : UInt16} :
    isLowSurrogate u = true ↔ 0xdc00 ≤ u.toNat ∧ u.toNat ≤ 0xdfff := by
  simp only [isLowSurrogate, decide_eq_true_eq, UInt16.le_iff_toNat_le]
  exact Iff.rfl

/-- A scalar value keeps its number as a character. -/
theorem toNat_ofNat {n : Nat} (h : n < 0xd800 ∨ 0xdfff < n ∧ n < 0x110000) :
    (Char.ofNat n).toNat = n := by
  have hvalid : n.isValidChar := h
  rw [Char.ofNat, dif_pos hvalid]
  exact Char.toNat_ofNatAux hvalid

theorem units_single (u : UInt16) : (single u).units = [u] := by
  have hlt := u.toNat_lt
  unfold single
  split
  · rfl
  · rename_i hnot
    rw [Bool.or_eq_true, isHighSurrogate_iff, isLowSurrogate_iff] at hnot
    have hnat : (Char.ofNat u.toNat).toNat = u.toNat := toNat_ofNat (by omega)
    rw [Item.units, charUnits, hnat, if_pos (by omega), UInt16.ofNat_toNat]

theorem units_pair {high low : UInt16} (hhigh : isHighSurrogate high = true)
    (hlow : isLowSurrogate low = true) : charUnits (pairChar high low) = [high, low] := by
  rw [isHighSurrogate_iff] at hhigh
  rw [isLowSurrogate_iff] at hlow
  have hnat : (pairChar high low).toNat =
      0x10000 + (high.toNat - 0xd800) * 0x400 + (low.toNat - 0xdc00) := toNat_ofNat (by omega)
  have hfirst : 0xd800 + ((pairChar high low).toNat - 0x10000) / 0x400 = high.toNat := by omega
  have hsecond : 0xdc00 + ((pairChar high low).toNat - 0x10000) % 0x400 = low.toNat := by omega
  rw [charUnits, if_neg (by omega), hfirst, hsecond, UInt16.ofNat_toNat, UInt16.ofNat_toNat]

/-- The units of its characters make up the text. -/
theorem flatMap_units_items (text : Utf16) : (items text).flatMap Item.units = text := by
  induction text using items.induct with
  | case1 => rfl
  | case2 u => rw [items, List.flatMap_singleton, units_single]
  | case3 high low rest hpair ih =>
    rw [Bool.and_eq_true] at hpair
    rw [items, if_pos (Bool.and_eq_true _ _ ▸ hpair), List.flatMap_cons, ih, Item.units,
      units_pair hpair.1 hpair.2]
    rfl
  | case4 high low rest hpair ih =>
    rw [items, if_neg hpair, List.flatMap_cons, ih, units_single]
    rfl

end Utf16

end EdoproServer.Lib
