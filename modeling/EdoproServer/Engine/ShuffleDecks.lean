import EdoproServer.Lib.Bits

namespace EdoproServer.Engine
open Lib

def UINT32_RANGE : Nat := 0x100000000

/-- The sections of a deck as the engine loads them. -/
structure YGOProDeck where
  main : List Nat
  extra : List Nat
  side : List Nat
  name : Option String
  deriving DecidableEq, Repr

def splitMix64 (value : BitVec 64) : BitVec 64 :=
  let z := value + 0x9e3779b97f4a7c15#64
  let z := (z ^^^ (z >>> 30)) * 0xbf58476d1ce4e5b9#64
  let z := (z ^^^ (z >>> 27)) * 0x94d049bb133111eb#64
  z ^^^ (z >>> 31)

def rotl64 (x : BitVec 64) (k : Nat) : BitVec 64 := (x <<< k) ||| (x >>> (64 - k))

/-- The four lanes of the generator. -/
structure RngState where
  s0 : BitVec 64
  s1 : BitVec 64
  s2 : BitVec 64
  s3 : BitVec 64
  deriving DecidableEq, Repr

namespace RngState

def zero : RngState := ⟨0, 0, 0, 0⟩

/-- A word of the seed; a missing one is 0. -/
def seedWord (seed : List Int) (index : Nat) : BitVec 64 :=
  BitVec.ofInt 64 (Bits.shr (seed[index]?.getD 0) 0)

/-- Two words of the seed make one lane. -/
def unmixedLane (seed : List Int) (index : Nat) : BitVec 64 :=
  (seedWord seed (index * 2 + 1) <<< 32) ||| seedWord seed (index * 2)

def lane (seed : List Int) (index : Nat) : BitVec 64 := splitMix64 (unmixedLane seed index)

def lanes (seed : List Int) : RngState := ⟨lane seed 0, lane seed 1, lane seed 2, lane seed 3⟩

/-- The state a seed starts the generator in. -/
def createSeededRng (seed : List Int) : RngState :=
  if lanes seed = zero then { lanes seed with s0 := 0x9e3779b97f4a7c15#64 } else lanes seed

/-- The number drawn, 32 bits of it. -/
def result (s : RngState) : Nat := ((rotl64 (s.s1 * 5#64) 7 * 9#64) >>> 32).toNat

def step (s : RngState) : RngState :=
  let t := s.s1 <<< 17
  let s2 := s.s2 ^^^ s.s0
  let s3 := s.s3 ^^^ s.s1
  let s1 := s.s1 ^^^ s2
  let s0 := s.s0 ^^^ s3
  let s2 := s2 ^^^ t
  let s3 := rotl64 s3 45
  ⟨s0, s1, s2, s3⟩

end RngState

/-- Draws until a number falls below the bound; the fuel bounds the draws. -/
def drawBelow (bound : Nat) : Nat → RngState → Option (Nat × RngState)
  | 0, _ => none
  | fuel + 1, s =>
    if bound ≤ s.result then drawBelow bound fuel s.step else some (s.result, s.step)

def nextInt (fuel maxExclusive : Nat) (s : RngState) : Option (Nat × RngState) :=
  if maxExclusive ≤ 1 then some (0, s)
  else
    (drawBelow (UINT32_RANGE - UINT32_RANGE % maxExclusive) fuel s).map
      (fun drawn => (drawn.1 % maxExclusive, drawn.2))

section Shuffle

variable {α : Type}

def swap (main : List α) (i j : Nat) : List α :=
  if h : i < main.length ∧ j < main.length then
    (main.set i (main.get ⟨j, h.2⟩)).set j (main.get ⟨i, h.1⟩)
  else main

/-- The swaps of the loop from an index down to 1. -/
def shuffleFrom (fuel : Nat) : Nat → List α → RngState → Option (List α × RngState)
  | 0, main, s => some (main, s)
  | i + 1, main, s =>
    match nextInt fuel (i + 2) s with
    | none => none
    | some (j, s) => shuffleFrom fuel i (swap main (i + 1) j) s

def shuffleMainDeck (fuel : Nat) (main : List α) (s : RngState) : Option (List α × RngState) :=
  shuffleFrom fuel (main.length - 1) main s

end Shuffle

/-- The decks in their order, one stream of numbers through all of them. `clone` is the copy the
deck library makes of a deck. -/
def shuffleDecks (fuel : Nat) (clone : YGOProDeck → YGOProDeck) :
    List YGOProDeck → RngState → Option (List YGOProDeck)
  | [], _ => some []
  | deck :: rest, s =>
    match shuffleMainDeck fuel (clone deck).main s with
    | none => none
    | some (main, s) =>
      (shuffleDecks fuel clone rest s).map
        (fun shuffled => { clone deck with main := main } :: shuffled)

def shuffleDecksBySeed (fuel : Nat) (clone : YGOProDeck → YGOProDeck) (decks : List YGOProDeck)
    (seed : List Int) : Option (List YGOProDeck) :=
  shuffleDecks fuel clone decks (RngState.createSeededRng seed)

/-! ## The seed -/

theorem splitMix64_injective : Function.Injective splitMix64 := by
  have h30 := Bits.xorShift_injective (w := 64) (k := 30) (by decide)
  have h27 := Bits.xorShift_injective (w := 64) (k := 27) (by decide)
  have h31 := Bits.xorShift_injective (w := 64) (k := 31) (by decide)
  have hfirst := Bits.mul_injective (a := 0xbf58476d1ce4e5b9#64) (b := 0x96de1b173f119089#64)
    (by decide)
  have hsecond := Bits.mul_injective (a := 0x94d049bb133111eb#64) (b := 0x319642b2d24d8ec3#64)
    (by decide)
  have hadd := Bits.add_injective (0x9e3779b97f4a7c15#64)
  exact h31.comp (hsecond.comp (h27.comp (hfirst.comp (h30.comp hadd))))

theorem splitMix64_bijective : Function.Bijective splitMix64 := by
  have hfinite : Finite (BitVec 64) :=
    Finite.of_injective BitVec.toFin (fun _ _ h => BitVec.toFin_inj.mp h)
  exact Finite.injective_iff_bijective.mp splitMix64_injective

namespace RngState

/-- What a lane keeps of its two words: everything. -/
theorem lane_words {high low high' low' : BitVec 64} (hh : high.toNat < 2 ^ 32)
    (hl : low.toNat < 2 ^ 32) (hh' : high'.toNat < 2 ^ 32) (hl' : low'.toNat < 2 ^ 32)
    (h : (high <<< 32) ||| low = (high' <<< 32) ||| low') : high = high' ∧ low = low' := by
  have hpack : ∀ {a b : BitVec 64}, a.toNat < 2 ^ 32 → b.toNat < 2 ^ 32 →
      ((a <<< 32) ||| b).toNat = a.toNat * 2 ^ 32 + b.toNat := by
    intro a b ha hb
    have hfit : a.toNat * 2 ^ 32 < 2 ^ 64 := by omega
    rw [BitVec.toNat_or, BitVec.toNat_shiftLeft, Nat.shiftLeft_eq, Nat.mod_eq_of_lt hfit,
      ← Nat.shiftLeft_eq, Nat.shiftLeft_add_eq_or_of_lt hb]
  have hn := congrArg BitVec.toNat h
  rw [hpack hh hl, hpack hh' hl'] at hn
  have hhigh : high.toNat = high'.toNat := by omega
  have hlow : low.toNat = low'.toNat := by omega
  exact ⟨BitVec.toNat_inj.mp hhigh, BitVec.toNat_inj.mp hlow⟩

theorem seedWord_toNat (seed : List Int) (index : Nat) :
    ((seedWord seed index).toNat : Int) = seed[index]?.getD 0 % 2 ^ 32 := by
  have hshr : Bits.shr (seed[index]?.getD 0) 0 = seed[index]?.getD 0 % 2 ^ 32 :=
    Bits.toUint32_eq _
  rw [seedWord, hshr, BitVec.toNat_ofInt]
  omega

theorem seedWord_lt (seed : List Int) (index : Nat) : (seedWord seed index).toNat < 2 ^ 32 := by
  have h := seedWord_toNat seed index
  omega

/-- Seeds with the same lanes have the same eight words. -/
theorem words_of_lanes {seed seed' : List Int} (h : lanes seed = lanes seed') :
    ∀ index < 8, seedWord seed index = seedWord seed' index := by
  have hlane : ∀ index < 4, lane seed index = lane seed' index := by
    intro index hi
    obtain ⟨h0, h1, h2, h3⟩ := RngState.mk.inj h
    have hcases : index = 0 ∨ index = 1 ∨ index = 2 ∨ index = 3 := by omega
    rcases hcases with rfl | rfl | rfl | rfl
    · exact h0
    · exact h1
    · exact h2
    · exact h3
  intro index hi
  have hwords := lane_words (seedWord_lt seed _) (seedWord_lt seed _) (seedWord_lt seed' _)
    (seedWord_lt seed' _) (splitMix64_injective (hlane (index / 2) (by omega)))
  rcases Nat.mod_two_eq_zero_or_one index with heven | hodd
  · have he : index / 2 * 2 = index := by omega
    exact he ▸ hwords.2
  · have he : index / 2 * 2 + 1 = index := by omega
    exact he ▸ hwords.1

/-- Two seeds of eight words that differ start the generator in different states, unless a
state was zero and replaced. -/
theorem createSeededRng_distinct {seed seed' : List Int} (length : seed.length = 8)
    (length' : seed'.length = 8) (words : ∀ x ∈ seed, 0 ≤ x ∧ x < 2 ^ 32)
    (words' : ∀ x ∈ seed', 0 ≤ x ∧ x < 2 ^ 32) (distinct : seed ≠ seed')
    (mixed : lanes seed ≠ zero) (mixed' : lanes seed' ≠ zero) :
    createSeededRng seed ≠ createSeededRng seed' := by
  intro h
  rw [createSeededRng, if_neg mixed, createSeededRng, if_neg mixed'] at h
  have hw := words_of_lanes h
  apply distinct
  apply List.ext_getElem (length.trans length'.symm)
  intro index hi hi'
  have hword := congrArg (fun w => (w.toNat : Int)) (hw index (length ▸ hi))
  simp only [seedWord_toNat, List.getElem?_eq_getElem hi, List.getElem?_eq_getElem hi',
    Option.getD_some] at hword
  have hx := words _ (List.getElem_mem hi)
  have hx' := words' _ (List.getElem_mem hi')
  omega

/-! ## The state -/

/-- A step loses nothing of the state. -/
theorem step_injective : Function.Injective step := by
  intro s s' h
  obtain ⟨h0, h1, h2, h3⟩ := RngState.mk.inj h
  have hs3 : s.s3 ^^^ s.s1 = s'.s3 ^^^ s'.s1 :=
    Bits.rotate_injective (w := 64) (k := 45) (by decide) h3
  have hs0 : s.s0 = s'.s0 := by
    rw [hs3] at h0
    exact (BitVec.xor_left_inj _).mp h0
  -- the new lanes 1 and 2 together hold the old lane 1 and its shift
  have hs1 : s.s1 = s'.s1 := by
    have hcancel : ∀ a b t : BitVec 64, (a ^^^ b) ^^^ (b ^^^ t) = a ^^^ t := by
      intro a b t
      rw [BitVec.xor_assoc, ← BitVec.xor_assoc b b t, BitVec.xor_self, BitVec.zero_xor]
    have hsum := congrArg₂ (fun a b => a ^^^ b) h1 h2
    rw [hcancel, hcancel] at hsum
    exact Bits.xorShiftLeft_injective (w := 64) (k := 17) (by decide) hsum
  have hs2 : s.s2 = s'.s2 := by
    rw [hs1, hs0] at h1
    exact (BitVec.xor_left_inj _).mp ((BitVec.xor_right_inj _).mp h1)
  have hs3' : s.s3 = s'.s3 := by
    rw [hs1] at hs3
    exact (BitVec.xor_left_inj _).mp hs3
  cases s
  cases s'
  cases hs0
  cases hs1
  cases hs2
  cases hs3'
  rfl

theorem step_zero : step zero = zero := by decide

/-- The generator never stands still at zero. -/
theorem steps_ne_zero (seed : List Int) (n : Nat) : step^[n] (createSeededRng seed) ≠ zero := by
  induction n with
  | zero =>
    intro h
    rw [Function.iterate_zero_apply, createSeededRng] at h
    split at h
    · have hs0 := congrArg RngState.s0 h
      have hgolden : (0x9e3779b97f4a7c15#64) ≠ 0 := by decide
      exact hgolden hs0
    · rename_i hlanes
      exact hlanes h
  | succ n ih =>
    intro h
    rw [Function.iterate_succ_apply'] at h
    exact ih (step_injective (h.trans step_zero.symm))

end RngState

/-! ## The shuffle -/

section Shuffle

variable {α : Type}

theorem swap_perm (main : List α) (i j : Nat) : (swap main i j).Perm main := by
  unfold swap
  split
  · rename_i h
    exact List.set_set_perm h.1 h.2
  · exact List.Perm.refl main

theorem shuffleFrom_perm {fuel i : Nat} {main shuffled : List α} {s s' : RngState}
    (h : shuffleFrom fuel i main s = some (shuffled, s')) : shuffled.Perm main := by
  induction i generalizing main s with
  | zero =>
    cases h
    exact List.Perm.refl _
  | succ i ih =>
    simp only [shuffleFrom] at h
    split at h
    · cases h
    · exact (ih h).trans (swap_perm _ _ _)

end Shuffle

/-! ## The fuel

A shuffle that ends draws the same numbers however much more it may draw. -/

theorem drawBelow_more {bound fuel more : Nat} {s : RngState} {drawn : Nat × RngState}
    (h : drawBelow bound fuel s = some drawn) (le : fuel ≤ more) :
    drawBelow bound more s = some drawn := by
  induction fuel generalizing more s with
  | zero => cases h
  | succ fuel ih =>
    cases more with
    | zero => exact absurd le (Nat.not_succ_le_zero fuel)
    | succ more =>
      simp only [drawBelow] at h ⊢
      split at h
      · rename_i hbound
        rw [if_pos hbound]
        exact ih h (Nat.le_of_succ_le_succ le)
      · rename_i hbound
        rw [if_neg hbound]
        exact h

theorem nextInt_more {fuel more maxExclusive : Nat} {s : RngState} {drawn : Nat × RngState}
    (h : nextInt fuel maxExclusive s = some drawn) (le : fuel ≤ more) :
    nextInt more maxExclusive s = some drawn := by
  unfold nextInt at h ⊢
  split at h
  · rename_i hmax
    rw [if_pos hmax]
    exact h
  · rename_i hmax
    obtain ⟨raw, hraw, rfl⟩ := Option.map_eq_some_iff.mp h
    rw [if_neg hmax, drawBelow_more hraw le, Option.map_some]

theorem shuffleFrom_more {α : Type} {fuel more i : Nat} {main : List α} {s : RngState}
    {shuffled : List α × RngState} (h : shuffleFrom fuel i main s = some shuffled)
    (le : fuel ≤ more) : shuffleFrom more i main s = some shuffled := by
  induction i generalizing main s with
  | zero => exact h
  | succ i ih =>
    simp only [shuffleFrom] at h ⊢
    split at h
    · cases h
    · rename_i j s' hnext
      rw [nextInt_more hnext le]
      exact ih h

theorem shuffleDecks_more {fuel more : Nat} {clone : YGOProDeck → YGOProDeck}
    {decks result : List YGOProDeck} {s : RngState}
    (h : shuffleDecks fuel clone decks s = some result) (le : fuel ≤ more) :
    shuffleDecks more clone decks s = some result := by
  induction decks generalizing s result with
  | nil => exact h
  | cons deck rest ih =>
    simp only [shuffleDecks] at h ⊢
    split at h
    · cases h
    · rename_i main s' hmain
      obtain ⟨shuffled, hrest, rfl⟩ := Option.map_eq_some_iff.mp h
      rw [shuffleMainDeck, shuffleFrom_more hmain le]
      simp only [ih hrest, Option.map_some]

/-- What a shuffle may change of a deck: the order of its main section. -/
structure Shuffled (deck shuffled : YGOProDeck) : Prop where
  main : shuffled.main.Perm deck.main
  extra : shuffled.extra = deck.extra
  side : shuffled.side = deck.side

/-- A copy has the sections of its deck. -/
structure Copies (clone : YGOProDeck → YGOProDeck) : Prop where
  main : ∀ deck, (clone deck).main = deck.main
  extra : ∀ deck, (clone deck).extra = deck.extra
  side : ∀ deck, (clone deck).side = deck.side

theorem shuffleDecks_shuffled {fuel : Nat} {clone : YGOProDeck → YGOProDeck}
    (copies : Copies clone) {decks result : List YGOProDeck} {s : RngState}
    (h : shuffleDecks fuel clone decks s = some result) : List.Forall₂ Shuffled decks result := by
  induction decks generalizing s result with
  | nil =>
    cases h
    exact List.Forall₂.nil
  | cons deck rest ih =>
    simp only [shuffleDecks] at h
    split at h
    · cases h
    · rename_i main s' hmain
      obtain ⟨shuffled, hrest, rfl⟩ := Option.map_eq_some_iff.mp h
      refine List.Forall₂.cons ⟨?_, copies.extra deck, copies.side deck⟩ (ih hrest)
      exact copies.main deck ▸ shuffleFrom_perm hmain

/-- A shuffle that ends gives back the decks in their order, each with its main section permuted
and its other sections as they were, and the same ones whatever the fuel. Mixing a seed loses
nothing, so seeds of eight words that differ start the generator in different states, unless all
lanes of one mixed to zero; and the generator's state never is zero. -/
theorem seeded_shuffle {clone : YGOProDeck → YGOProDeck} (copies : Copies clone) :
    (∀ fuel decks seed result, shuffleDecksBySeed fuel clone decks seed = some result →
        List.Forall₂ Shuffled decks result ∧
          ∀ more, fuel ≤ more → shuffleDecksBySeed more clone decks seed = some result) ∧
      Function.Bijective splitMix64 ∧
      (∀ seed seed' : List Int, seed.length = 8 → seed'.length = 8 →
        (∀ x ∈ seed, 0 ≤ x ∧ x < 2 ^ 32) → (∀ x ∈ seed', 0 ≤ x ∧ x < 2 ^ 32) →
        seed ≠ seed' → RngState.lanes seed ≠ .zero → RngState.lanes seed' ≠ .zero →
        RngState.createSeededRng seed ≠ RngState.createSeededRng seed') ∧
      ∀ seed n, RngState.step^[n] (RngState.createSeededRng seed) ≠ .zero := by
  refine ⟨?_, splitMix64_bijective, ?_, RngState.steps_ne_zero⟩
  · intro fuel decks seed result h
    exact ⟨shuffleDecks_shuffled copies h, fun more le => shuffleDecks_more h le⟩
  · intro seed seed' length length' words words' distinct mixed mixed'
    exact RngState.createSeededRng_distinct length length' words words' distinct mixed mixed'

def smallDeck : YGOProDeck := ⟨[1, 2, 3, 4, 5], [6], [7], none⟩

/-- The five cards come back in another order. -/
theorem seeded_shuffle_small :
    shuffleDecksBySeed 8 id [smallDeck] [1, 2, 3, 4, 5, 6, 7, 8] =
        some [{ smallDeck with main := [5, 3, 2, 1, 4] }] ∧
      List.Forall₂ Shuffled [smallDeck] [{ smallDeck with main := [5, 3, 2, 1, 4] }] := by
  have hrun : shuffleDecksBySeed 8 id [smallDeck] [1, 2, 3, 4, 5, 6, 7, 8] =
      some [{ smallDeck with main := [5, 3, 2, 1, 4] }] := by decide +kernel
  have hcopies : Copies id := ⟨fun _ => rfl, fun _ => rfl, fun _ => rfl⟩
  exact ⟨hrun, ((seeded_shuffle hcopies).1 _ _ _ _ hrun).1⟩

end EdoproServer.Engine
