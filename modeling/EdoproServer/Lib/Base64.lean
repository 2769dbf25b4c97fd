import EdoproServer.Lib.Codec

/-! Bytes as letters of six bits, three bytes in four letters, the last group filled up. -/

namespace EdoproServer.Lib.Base64

def letter (n : Nat) : Char :=
  if n < 26 then Char.ofNat (n + 65)
  else if n < 52 then Char.ofNat (n + 71)
  else if n < 62 then Char.ofNat (n - 4)
  else if n = 62 then '+'
  else '/'

/-- The six bits of a letter. -/
def bits (c : Char) : Option Nat :=
  if 65 ≤ c.toNat ∧ c.toNat ≤ 90 then some (c.toNat - 65)
  else if 97 ≤ c.toNat ∧ c.toNat ≤ 122 then some (c.toNat - 71)
  else if 48 ≤ c.toNat ∧ c.toNat ≤ 57 then some (c.toNat + 4)
  else if c = '+' then some 62
  else if c = '/' then some 63
  else none

def encode : Bytes → List Char
  | [] => []
  | [a] => [letter (a.toNat / 4), letter (a.toNat % 4 * 16), '=', '=']
  | [a, b] =>
    [letter (a.toNat / 4), letter (a.toNat % 4 * 16 + b.toNat / 16), letter (b.toNat % 16 * 4), '=']
  | a :: b :: c :: rest =>
    letter (a.toNat / 4) :: letter (a.toNat % 4 * 16 + b.toNat / 16) ::
      letter (b.toNat % 16 * 4 + c.toNat / 64) :: letter (c.toNat % 64) :: encode rest

/-- The bytes of a group of which so many letters are no filling. -/
def groupBytes (p q r s : Nat) : Bytes :=
  [UInt8.ofNat (p * 4 + q / 16), UInt8.ofNat (q % 16 * 16 + r / 4), UInt8.ofNat (r % 4 * 64 + s)]

def decode : List Char → Option Bytes
  | [] => some []
  | [p, q, '=', '='] => do
    return (groupBytes (← bits p) (← bits q) 0 0).take 1
  | [p, q, r, '='] => do
    return (groupBytes (← bits p) (← bits q) (← bits r) 0).take 2
  | p :: q :: r :: s :: rest => do
    return groupBytes (← bits p) (← bits q) (← bits r) (← bits s) ++ (← decode rest)
  | _ => none

theorem bits_letter : ∀ n < 64, bits (letter n) = some n := by decide

theorem letter_ne_filling : ∀ n < 64, letter n ≠ '=' := by decide

/-- Three bytes are put together again from their four letters. -/
theorem groupBytes_eq (a b c : UInt8) :
    groupBytes (a.toNat / 4) (a.toNat % 4 * 16 + b.toNat / 16) (b.toNat % 16 * 4 + c.toNat / 64)
      (c.toNat % 64) = [a, b, c] := by
  have ha := a.toNat_lt
  have hb := b.toNat_lt
  have hc := c.toNat_lt
  have hfirst : a.toNat / 4 * 4 + (a.toNat % 4 * 16 + b.toNat / 16) / 16 = a.toNat := by omega
  have hsecond : (a.toNat % 4 * 16 + b.toNat / 16) % 16 * 16 +
      (b.toNat % 16 * 4 + c.toNat / 64) / 4 = b.toNat := by omega
  have hthird : (b.toNat % 16 * 4 + c.toNat / 64) % 4 * 64 + c.toNat % 64 = c.toNat := by omega
  rw [groupBytes, hfirst, hsecond, hthird, UInt8.ofNat_toNat, UInt8.ofNat_toNat, UInt8.ofNat_toNat]

theorem decode_encode (bytes : Bytes) : decode (encode bytes) = some bytes := by
  induction bytes using encode.induct with
  | case1 => rfl
  | case2 a =>
    have ha := a.toNat_lt
    have hgroup := groupBytes_eq a 0 0
    simp only [UInt8.toNat_zero, Nat.zero_div, Nat.zero_mod, Nat.zero_mul, Nat.add_zero] at hgroup
    simp only [encode, decode, bits_letter _ (show a.toNat / 4 < 64 by omega),
      bits_letter _ (show a.toNat % 4 * 16 < 64 by omega), hgroup, Option.pure_def,
      Option.bind_eq_bind, Option.bind_some]
    rfl
  | case3 a b =>
    have ha := a.toNat_lt
    have hb := b.toNat_lt
    have hgroup := groupBytes_eq a b 0
    simp only [UInt8.toNat_zero, Nat.zero_div, Nat.zero_mod, Nat.add_zero] at hgroup
    have hne := letter_ne_filling (b.toNat % 16 * 4) (by omega)
    rw [encode, decode]
    · simp only [bits_letter _ (show a.toNat / 4 < 64 by omega),
        bits_letter _ (show a.toNat % 4 * 16 + b.toNat / 16 < 64 by omega),
        bits_letter _ (show b.toNat % 16 * 4 < 64 by omega), hgroup, Option.pure_def,
        Option.bind_eq_bind, Option.bind_some]
      rfl
    · exact hne
  | case4 a b c rest ih =>
    have ha := a.toNat_lt
    have hb := b.toNat_lt
    have hc := c.toNat_lt
    have hne := letter_ne_filling (c.toNat % 64) (by omega)
    rw [encode, decode]
    · simp only [bits_letter _ (show a.toNat / 4 < 64 by omega),
        bits_letter _ (show a.toNat % 4 * 16 + b.toNat / 16 < 64 by omega),
        bits_letter _ (show b.toNat % 16 * 4 + c.toNat / 64 < 64 by omega),
        bits_letter _ (show c.toNat % 64 < 64 by omega), groupBytes_eq, ih, Option.pure_def,
        Option.bind_eq_bind, Option.bind_some]
      rfl
    · intro _ hs _
      exact hne hs
    · intro hs _
      exact hne hs

end EdoproServer.Lib.Base64
