import EdoproServer.Lib.StableOrder
import EdoproServer.Matchmaking.TickRefinement

namespace EdoproServer.Matchmaking
open Lib

variable {newMatchId : Nat → String}

/-! ## What is formed of a list of candidates -/

def Match.isHuman (m : Match) : Bool := m.opponentKind = .human

def Match.isBot (m : Match) : Bool := m.opponentKind = .bot

/-- Those who wait longest, an even number of them, are paired two by two, and at most the one that
is left over meets a bot, if it asked for one and has waited for it. -/
structure FifoWithFallback (candidates ordered : List Participant) (now : Int)
    (formed : List Match) : Prop where
  order : StableOrder Participant.enqueuedAt candidates ordered
  pairs : (formed.filter Match.isHuman).map Match.participants =
    pairsOf (ordered.take (2 * (candidates.length / 2)))
  matched : (formed.filter Match.isHuman).flatMap Match.participants =
    ordered.take (2 * (candidates.length / 2))
  leftover : (ordered.drop (2 * (candidates.length / 2))).length ≤ 1
  oneBot : (formed.filter Match.isBot).length ≤ 1
  bots : ∀ m ∈ formed, m.isBot = true →
    m.participants = ordered.drop (2 * (candidates.length / 2)) ∧
      ∀ p ∈ m.participants, ∃ delay, p.botFallbackAfterMs = some delay ∧
        clampBotFallbackDelay delay ≤ now - p.enqueuedAt
  kinds : ∀ m ∈ formed, m.isHuman = true ∨ m.isBot = true

section Policies

variable {ordered candidates : List Participant} {now : Int} {m : Match}

theorem pairUp_pairs (drawn : Nat) (ordered : List Participant) :
    (FifoPairingPolicy.pairUp newMatchId drawn ordered).map Match.participants =
      pairsOf ordered := by
  induction ordered using pairsOf.induct generalizing drawn with
  | case1 first second rest ih => simp [FifoPairingPolicy.pairUp, pairsOf, ih]
  | case2 ordered hshort =>
    cases ordered with
    | nil => simp [FifoPairingPolicy.pairUp, pairsOf]
    | cons first rest =>
      cases rest with
      | nil => simp [FifoPairingPolicy.pairUp, pairsOf]
      | cons second rest => exact absurd rfl (hshort first second rest)

theorem pairUp_human (drawn : Nat) (ordered : List Participant) :
    ∀ m ∈ FifoPairingPolicy.pairUp newMatchId drawn ordered, m.opponentKind = .human := by
  fun_induction FifoPairingPolicy.pairUp newMatchId drawn ordered with
  | case1 drawn first second rest ih => exact List.forall_mem_cons.mpr ⟨rfl, ih⟩
  | case2 => exact fun m hm => absurd hm List.not_mem_nil

/-- Every bot match is that of one overdue candidate. -/
theorem fallBack_spec (drawn : Nat) (candidates : List Participant) :
    ∀ m ∈ BotFallbackPolicy.fallBack newMatchId now drawn candidates, m.opponentKind = .bot ∧
      ∃ p ∈ candidates, m.participants = [p] ∧ BotFallbackPolicy.overdue now p = true := by
  fun_induction BotFallbackPolicy.fallBack newMatchId now drawn candidates with
  | case1 => exact fun m hm => absurd hm List.not_mem_nil
  | case2 drawn participant rest hoverdue ih =>
    refine List.forall_mem_cons.mpr ⟨⟨rfl, participant, List.mem_cons_self, rfl, hoverdue⟩, ?_⟩
    intro m hm
    obtain ⟨hbot, p, hp, hparts, hover⟩ := ih m hm
    exact ⟨hbot, p, List.mem_cons_of_mem _ hp, hparts, hover⟩
  | case3 drawn participant rest _ ih =>
    intro m hm
    obtain ⟨hbot, p, hp, hparts, hover⟩ := ih m hm
    exact ⟨hbot, p, List.mem_cons_of_mem _ hp, hparts, hover⟩

theorem length_fallBack (drawn : Nat) (candidates : List Participant) :
    (BotFallbackPolicy.fallBack newMatchId now drawn candidates).length ≤ candidates.length := by
  fun_induction BotFallbackPolicy.fallBack newMatchId now drawn candidates with
  | case1 => exact Nat.le_refl 0
  | case2 drawn participant rest _ ih => exact Nat.succ_le_succ ih
  | case3 drawn participant rest _ ih => exact Nat.le_succ_of_le ih

theorem overdue_waited {p : Participant} (h : BotFallbackPolicy.overdue now p = true) :
    ∃ delay, p.botFallbackAfterMs = some delay ∧
      clampBotFallbackDelay delay ≤ now - p.enqueuedAt := by
  unfold BotFallbackPolicy.overdue at h
  cases hdelay : p.botFallbackAfterMs with
  | none => simp [hdelay] at h
  | some delay =>
    simp only [hdelay, not_le, decide_eq_true_eq] at h
    exact ⟨delay, rfl, h.le⟩

/-- Once the pairs are taken out of the candidates, those in the rest of their order remain. -/
theorem remaining_perm (hids : (candidates.map Participant.id).Nodup)
    (horder : ordered.Perm candidates) (n : Nat) {ids : List String}
    (htaken : ids = (ordered.take n).map Participant.id) :
    (candidates.filter (fun p => p.id ∉ ids)).Perm (ordered.drop n) := by
  have hordered : ((ordered.take n ++ ordered.drop n).map Participant.id).Nodup := by
    rw [List.take_append_drop]
    exact (horder.map Participant.id).nodup_iff.mpr hids
  rw [List.map_append] at hordered
  have hsplit : ordered.filter (fun p => p.id ∉ ids) = ordered.drop n := by
    conv_lhs => rw [← List.take_append_drop n ordered]
    rw [List.filter_append]
    have htake : (ordered.take n).filter (fun p => p.id ∉ ids) = [] := by
      rw [List.filter_eq_nil_iff]
      intro p hp
      simpa [htaken] using List.mem_map_of_mem (f := Participant.id) hp
    have hdrop : (ordered.drop n).filter (fun p => p.id ∉ ids) = ordered.drop n := by
      rw [List.filter_eq_self]
      intro p hp
      rw [decide_eq_true_eq, htaken]
      intro hin
      exact (List.nodup_append.mp hordered).2.2 _ hin _ (List.mem_map_of_mem hp) rfl
    rw [htake, hdrop, List.nil_append]
  rw [← hsplit]
  exact (horder.filter _).symm

variable {W : Type} {deps : MatchmakingPoolDeps W}

theorem pairingPolicy_fifo (botAvailable : Bool) (drawn : Nat)
    (hids : (candidates.map Participant.id).Nodup) :
    ∃ ordered, FifoWithFallback candidates ordered now
      (deps.pairingPolicy botAvailable drawn candidates now) := by
  have hcandidates : candidates.Nodup := hids.of_map
  have horder := stableOrder_insertionSort Participant.enqueuedAt hcandidates
  generalize hordered : candidates.insertionSort (fun a b => a.enqueuedAt ≤ b.enqueuedAt) =
    ordered at horder
  have hlength : ordered.length = candidates.length := horder.perm.length_eq
  generalize hpairs : FifoPairingPolicy.pairUp deps.newMatchId drawn ordered = pairs
  have hparts : pairs.flatMap Match.participants =
      ordered.take (2 * (candidates.length / 2)) := by
    rw [List.flatMap_def, ← hpairs, pairUp_pairs, flatten_pairsOf, hlength]
  have htaken : CompositePairingPolicy.matchedIds pairs =
      (ordered.take (2 * (candidates.length / 2))).map Participant.id := by
    rw [← hparts, List.map_flatMap]
    rfl
  have hremaining := remaining_perm hids horder.perm (2 * (candidates.length / 2)) htaken
  generalize hrest : candidates.filter
    (fun p => p.id ∉ CompositePairingPolicy.matchedIds pairs) = remaining at hremaining
  have hleft : (ordered.drop (2 * (candidates.length / 2))).length ≤ 1 := by
    rw [List.length_drop, hlength]
    omega
  have hsame : remaining = ordered.drop (2 * (candidates.length / 2)) :=
    eq_of_perm_of_length_le_one hleft hremaining
  generalize hbots : BotFallbackPolicy.pair deps.newMatchId botAvailable
    (drawn + pairs.length) remaining now = bots
  have hspec : ∀ m ∈ bots, m.opponentKind = .bot ∧
      ∃ p ∈ remaining, m.participants = [p] ∧ BotFallbackPolicy.overdue now p = true := by
    rw [← hbots]
    cases botAvailable with
    | false => exact fun m hm => absurd hm List.not_mem_nil
    | true => exact fallBack_spec _ remaining
  have hcount : bots.length ≤ remaining.length := by
    rw [← hbots]
    cases botAvailable with
    | false => exact Nat.zero_le _
    | true => exact length_fallBack _ remaining
  have hformed : deps.pairingPolicy botAvailable drawn candidates now = pairs ++ bots := by
    simp only [MatchmakingPoolDeps.pairingPolicy, CompositePairingPolicy.pair,
      FifoPairingPolicy.pair, hordered, hpairs, hrest, hbots, List.append_nil]
  have hhuman : ∀ m ∈ pairs, m.isHuman = true := by
    intro m hm
    exact decide_eq_true (pairUp_human drawn ordered m (hpairs ▸ hm))
  have hbot : ∀ m ∈ bots, m.isBot = true := fun m hm => decide_eq_true (hspec m hm).1
  have hhumans : (pairs ++ bots).filter Match.isHuman = pairs := by
    rw [List.filter_append, List.filter_eq_self.mpr hhuman, List.filter_eq_nil_iff.mpr,
      List.append_nil]
    intro m hm
    simp [Match.isHuman, (hspec m hm).1]
  have hallBots : (pairs ++ bots).filter Match.isBot = bots := by
    rw [List.filter_append, List.filter_eq_self.mpr hbot, List.filter_eq_nil_iff.mpr,
      List.nil_append]
    intro m hm
    have hkind : m.opponentKind = .human := of_decide_eq_true (hhuman m hm)
    simp [Match.isBot, hkind]
  rw [hformed]
  refine ⟨ordered, horder, ?_, by rw [hhumans, hparts], hleft, ?_, ?_, ?_⟩
  · rw [hhumans, ← hpairs, pairUp_pairs, ← hlength, pairsOf_take]
  · rw [hallBots]
    exact hcount.trans (hsame ▸ hleft)
  · intro m hm hisBot
    have hin : m ∈ bots := by
      rw [← hallBots]
      exact List.mem_filter.mpr ⟨hm, hisBot⟩
    obtain ⟨-, p, hp, hone, hoverdue⟩ := hspec m hin
    rw [hsame] at hp
    constructor
    · rw [hone, eq_singleton_of_length_le_one hleft hp]
    · intro q hq
      rw [hone, List.mem_singleton] at hq
      rw [hq]
      exact overdue_waited hoverdue
  · intro m hm
    rcases List.mem_append.mp hm with hpair | hfallback
    · exact Or.inl (hhuman m hpair)
    · exact Or.inr (hbot m hfallback)

end Policies

end EdoproServer.Matchmaking
