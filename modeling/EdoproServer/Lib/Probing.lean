import Mathlib.Logic.Function.Iterate
import Mathlib.Data.Nat.Find
import Mathlib.Tactic

/-! Open addressing with linear probing. A key lives in the first free slot from its home on,
around the end of the table; as long as one slot stays free every probe ends, and it ends at the
key if the table holds it. -/

namespace EdoproServer.Lib.Probing

/-- The first slot on the way that stops the probe; the fuel bounds the steps. -/
def seek (stops : Nat → Prop) [DecidablePred stops] (next : Nat → Nat) : Nat → Nat → Option Nat
  | 0, _ => none
  | fuel + 1, slot => if stops slot then some slot else seek stops next fuel (next slot)

theorem seek_of_first {stops : Nat → Prop} [DecidablePred stops] {next : Nat → Nat}
    {fuel slot d : Nat} (hd : d < fuel) (hstop : stops (next^[d] slot))
    (hbefore : ∀ e < d, ¬ stops (next^[e] slot)) :
    seek stops next fuel slot = some (next^[d] slot) := by
  induction d generalizing fuel slot with
  | zero =>
    cases fuel with
    | zero => exact absurd hd (Nat.not_lt_zero 0)
    | succ fuel => exact if_pos hstop
  | succ d ih =>
    cases fuel with
    | zero => exact absurd hd (Nat.not_lt_zero _)
    | succ fuel =>
      have hnot : ¬ stops slot := hbefore 0 (Nat.zero_lt_succ d)
      rw [seek, if_neg hnot, Function.iterate_succ_apply]
      exact ih (Nat.lt_of_succ_lt_succ hd) hstop
        (fun e he => hbefore (e + 1) (Nat.succ_lt_succ he))

theorem seek_congr {stops stops' : Nat → Prop} [DecidablePred stops] [DecidablePred stops']
    {next next' : Nat → Nat} (hstops : ∀ slot, stops slot ↔ stops' slot)
    (hnext : ∀ slot, next slot = next' slot) (fuel slot : Nat) :
    seek stops next fuel slot = seek stops' next' fuel slot := by
  induction fuel generalizing slot with
  | zero => rfl
  | succ fuel ih => simp only [seek, hstops, hnext, ih]

/-- The next slot, around the end. -/
def around (capacity slot : Nat) : Nat := (slot + 1) % capacity

theorem around_iterate {capacity slot : Nat} (hslot : slot < capacity) (d : Nat) :
    (around capacity)^[d] slot = (slot + d) % capacity := by
  induction d with
  | zero => exact (Nat.mod_eq_of_lt hslot).symm
  | succ d ih => rw [Function.iterate_succ_apply', ih, around, Nat.mod_add_mod, Nat.add_assoc]

variable {κ : Type*} {capacity : Nat} {home : κ → Nat} {table : Nat → Option κ}

/-- A probe for a key stops at a free slot and at the key. -/
def Stops (table : Nat → Option κ) (k : κ) (slot : Nat) : Prop :=
  table slot = none ∨ table slot = some k

instance [DecidableEq κ] (table : Nat → Option κ) (k : κ) : DecidablePred (Stops table k) :=
  fun slot => inferInstanceAs (Decidable (table slot = none ∨ table slot = some k))

/-- The slot `d` steps from the home of a key is the first at which its probe stops. -/
structure FirstStop (capacity : Nat) (home : κ → Nat) (table : Nat → Option κ) (k : κ)
    (d : Nat) : Prop where
  stops : Stops table k ((home k + d) % capacity)
  before : ∀ e < d, ¬ Stops table k ((home k + e) % capacity)

/-- From the home of a key to its place every slot is taken by another key. -/
def Chained (capacity : Nat) (home : κ → Nat) (table : Nat → Option κ) : Prop :=
  ∀ slot < capacity, ∀ k, table slot = some k →
    ∃ d, slot = (home k + d) % capacity ∧
      ∀ e < d, ∃ k', table ((home k + e) % capacity) = some k' ∧ k' ≠ k

theorem chained_empty : Chained capacity home (fun _ => none) := by
  intro slot _ k h
  cases h

/-- One free slot ends every probe within one round. -/
theorem exists_firstStop {k : κ} (hhome : home k < capacity) {free : Nat}
    (hfree : free < capacity) (hnone : table free = none) :
    ∃ d < capacity, FirstStop capacity home table k d := by
  classical
  have hat : (home k + (capacity - home k + free) % capacity) % capacity = free := by
    rw [Nat.add_mod_mod, ← Nat.add_assoc, Nat.add_sub_cancel' (Nat.le_of_lt hhome),
      Nat.add_mod_left, Nat.mod_eq_of_lt hfree]
  have hreached : Stops table k ((home k + (capacity - home k + free) % capacity) % capacity) := by
    rw [hat]
    exact Or.inl hnone
  have hround : ∃ d, Stops table k ((home k + d) % capacity) := ⟨_, hreached⟩
  refine ⟨Nat.find hround, ?_, Nat.find_spec hround, fun e he => Nat.find_min hround he⟩
  have hpos : 0 < capacity := Nat.lt_of_le_of_lt (Nat.zero_le _) hfree
  exact Nat.lt_of_le_of_lt (Nat.find_min' hround hreached) (Nat.mod_lt _ hpos)

theorem FirstStop.seek_eq [DecidableEq κ] {k : κ} {d fuel : Nat}
    (h : FirstStop capacity home table k d) (hhome : home k < capacity) (hd : d < fuel) :
    seek (Stops table k) (around capacity) fuel (home k) = some ((home k + d) % capacity) := by
  rw [← around_iterate hhome]
  apply seek_of_first hd
  · rw [around_iterate hhome]
    exact h.stops
  · intro e he
    rw [around_iterate hhome]
    exact h.before e he

/-- In a chained table a probe that stops stops at the key, if the table holds it. -/
theorem Chained.found_iff {k : κ} {d : Nat} (hchain : Chained capacity home table)
    (h : FirstStop capacity home table k d) (hcapacity : 0 < capacity) :
    table ((home k + d) % capacity) = some k ↔ ∃ slot < capacity, table slot = some k := by
  constructor
  · intro hk
    exact ⟨_, Nat.mod_lt _ hcapacity, hk⟩
  · rintro ⟨slot, hslot, hk⟩
    obtain ⟨d', hd', hbefore⟩ := hchain slot hslot k hk
    rcases Nat.lt_trichotomy d d' with hlt | heq | hgt
    · obtain ⟨k', hk', hne⟩ := hbefore d hlt
      rcases h.stops with hstop | hstop
      · rw [hk'] at hstop
        cases hstop
      · rw [hk'] at hstop
        exact absurd (Option.some.inj hstop) hne
    · rw [heq, ← hd']
      exact hk
    · rw [hd'] at hk
      exact absurd (Or.inr hk) (h.before d' hgt)

/-- A key has one place. -/
theorem Chained.place_unique {k : κ} {slot slot' : Nat} (hchain : Chained capacity home table)
    (hslot : slot < capacity) (hslot' : slot' < capacity) (hk : table slot = some k)
    (hk' : table slot' = some k) : slot = slot' := by
  obtain ⟨d, hd, hbefore⟩ := hchain slot hslot k hk
  obtain ⟨d', hd', hbefore'⟩ := hchain slot' hslot' k hk'
  rcases Nat.lt_trichotomy d d' with hlt | heq | hgt
  · obtain ⟨k'', hk'', hne⟩ := hbefore' d hlt
    rw [← hd, hk] at hk''
    exact absurd (Option.some.inj hk'').symm hne
  · rw [hd, hd', heq]
  · obtain ⟨k'', hk'', hne⟩ := hbefore d' hgt
    rw [← hd', hk'] at hk''
    exact absurd (Option.some.inj hk'').symm hne

/-- Putting a key where its probe stops at a free slot keeps the chains. -/
theorem Chained.insert {k : κ} {d : Nat} (hchain : Chained capacity home table)
    (h : FirstStop capacity home table k d)
    (hfree : table ((home k + d) % capacity) = none) :
    Chained capacity home (Function.update table ((home k + d) % capacity) (some k)) := by
  -- no slot passed on the way to a key is the one that was free
  have hkept : ∀ slot k', table slot = some k' →
      Function.update table ((home k + d) % capacity) (some k) slot = some k' := by
    intro slot k' hk'
    have hne : slot ≠ (home k + d) % capacity := by
      intro he
      rw [he, hfree] at hk'
      cases hk'
    rw [Function.update_of_ne hne]
    exact hk'
  intro slot hslot k' hk'
  by_cases he : slot = (home k + d) % capacity
  · rw [he, Function.update_self] at hk'
    obtain rfl := Option.some.inj hk'
    refine ⟨d, he, ?_⟩
    intro e hlt
    have hpassed := h.before e hlt
    cases hthere : table ((home k + e) % capacity) with
    | none => exact absurd (Or.inl hthere) hpassed
    | some k'' =>
      refine ⟨k'', hkept _ _ hthere, ?_⟩
      rintro rfl
      exact hpassed (Or.inr hthere)
  · rw [Function.update_of_ne he] at hk'
    obtain ⟨d', hd', hbefore⟩ := hchain slot hslot k' hk'
    refine ⟨d', hd', ?_⟩
    intro e hlt
    obtain ⟨k'', hk'', hne⟩ := hbefore e hlt
    exact ⟨k'', hkept _ _ hk'', hne⟩

end EdoproServer.Lib.Probing
