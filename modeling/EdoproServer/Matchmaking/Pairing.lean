import Mathlib.Data.List.Sort
import Mathlib.Data.List.Perm.Subperm
import EdoproServer.Matchmaking.Participant

namespace EdoproServer.Matchmaking

/-- A pairing strategy. It is told how many match ids were drawn before, and every match it
forms draws the next one. -/
abbrev PairingPolicy := Nat → List Participant → Int → List Match

namespace FifoPairingPolicy

variable (newMatchId : Nat → String)

def pairUp : Nat → List Participant → List Match
  | drawn, first :: second :: rest =>
    { id := newMatchId drawn
      format := first.format
      mode := first.mode
      rated := true
      opponentKind := .human
      participants := [first, second] } :: pairUp (drawn + 1) rest
  | _, _ => []

/-- Pairs candidates two at a time, earliest `enqueuedAt` first. -/
def pair : PairingPolicy := fun drawn candidates _ =>
  pairUp newMatchId drawn (candidates.insertionSort (fun a b => a.enqueuedAt ≤ b.enqueuedAt))

end FifoPairingPolicy

namespace BotFallbackPolicy

variable (newMatchId : Nat → String)

/-- Whether the participant carries a fallback delay and has waited longer than it. -/
def overdue (now : Int) (participant : Participant) : Bool :=
  match participant.botFallbackAfterMs with
  | none => false
  | some requestedMs => ¬ now - participant.enqueuedAt ≤ clampBotFallbackDelay requestedMs

def fallBack (now : Int) : Nat → List Participant → List Match
  | _, [] => []
  | drawn, participant :: rest =>
    if overdue now participant then
      { id := newMatchId drawn
        format := participant.format
        mode := participant.mode
        rated := false
        opponentKind := .bot
        participants := [participant] } :: fallBack now (drawn + 1) rest
    else fallBack now drawn rest

/-- Pairs every overdue candidate with an unrated bot. No-op while no bot is available. -/
def pair (botAvailable : Bool) : PairingPolicy := fun drawn candidates now =>
  if botAvailable then fallBack newMatchId now drawn candidates else []

end BotFallbackPolicy

namespace CompositePairingPolicy

def matchedIds (formed : List Match) : List String := formed.flatMap Match.ids

/-- Runs each policy in order, feeding the next only the participants still unmatched. -/
def pair : List PairingPolicy → PairingPolicy
  | [], _, _, _ => []
  | policy :: policies, drawn, remaining, now =>
    let policyMatches := policy drawn remaining now
    policyMatches ++ pair policies (drawn + policyMatches.length)
      (remaining.filter (fun p => p.id ∉ matchedIds policyMatches)) now

end CompositePairingPolicy

/-- No policy pairs a participant twice or invents one, and every match draws a fresh id. -/
structure PairingPolicy.Sound (newMatchId : Nat → String) (policy : PairingPolicy) : Prop where
  participants : ∀ drawn candidates now,
    ((policy drawn candidates now).flatMap Match.participants).Subperm candidates
  ids : ∀ drawn candidates now, (policy drawn candidates now).map Match.id =
    (List.range' drawn (policy drawn candidates now).length).map newMatchId

variable {newMatchId : Nat → String}

theorem pairUp_participants (drawn : Nat) (ordered : List Participant) :
    ((FifoPairingPolicy.pairUp newMatchId drawn ordered).flatMap Match.participants).Sublist
      ordered := by
  fun_induction FifoPairingPolicy.pairUp newMatchId drawn ordered with
  | case1 drawn first second rest ih =>
    simp only [List.flatMap_cons, List.cons_append, List.nil_append]
    exact (ih.cons_cons second).cons_cons first
  | case2 => exact List.nil_sublist _

theorem pairUp_ids (drawn : Nat) (ordered : List Participant) :
    (FifoPairingPolicy.pairUp newMatchId drawn ordered).map Match.id =
      (List.range' drawn (FifoPairingPolicy.pairUp newMatchId drawn ordered).length).map
        newMatchId := by
  fun_induction FifoPairingPolicy.pairUp newMatchId drawn ordered with
  | case1 drawn first second rest ih => simp only [List.map_cons, List.length_cons, ih,
      List.range'_succ]
  | case2 => rfl

theorem fifo_sound : PairingPolicy.Sound newMatchId (FifoPairingPolicy.pair newMatchId) where
  participants drawn candidates _ :=
    (pairUp_participants drawn _).subperm.trans (List.perm_insertionSort _ candidates).subperm
  ids drawn _ _ := pairUp_ids drawn _

theorem fallBack_participants (now : Int) (drawn : Nat) (candidates : List Participant) :
    ((BotFallbackPolicy.fallBack newMatchId now drawn candidates).flatMap
      Match.participants).Sublist candidates := by
  fun_induction BotFallbackPolicy.fallBack newMatchId now drawn candidates with
  | case1 => exact List.nil_sublist _
  | case2 drawn participant rest _ ih =>
    simp only [List.flatMap_cons, List.cons_append, List.nil_append]
    exact ih.cons_cons participant
  | case3 drawn participant rest _ ih => exact ih.cons participant

theorem fallBack_ids (now : Int) (drawn : Nat) (candidates : List Participant) :
    (BotFallbackPolicy.fallBack newMatchId now drawn candidates).map Match.id =
      (List.range' drawn (BotFallbackPolicy.fallBack newMatchId now drawn candidates).length).map
        newMatchId := by
  fun_induction BotFallbackPolicy.fallBack newMatchId now drawn candidates with
  | case1 => rfl
  | case2 drawn participant rest _ ih => simp only [List.map_cons, List.length_cons, ih,
      List.range'_succ]
  | case3 drawn participant rest _ ih => exact ih

theorem botFallback_sound (botAvailable : Bool) :
    PairingPolicy.Sound newMatchId (BotFallbackPolicy.pair newMatchId botAvailable) where
  participants drawn candidates now := by
    cases botAvailable with
    | false => exact List.nil_subperm
    | true => exact (fallBack_participants now drawn candidates).subperm
  ids drawn candidates now := by
    cases botAvailable with
    | false => rfl
    | true => exact fallBack_ids now drawn candidates

open CompositePairingPolicy in
theorem composite_participants {policies : List PairingPolicy}
    (sound : ∀ policy ∈ policies, policy.Sound newMatchId) (drawn : Nat)
    (candidates : List Participant) (now : Int) :
    ((pair policies drawn candidates now).flatMap Match.participants).Subperm candidates := by
  induction policies generalizing drawn candidates with
  | nil => exact List.nil_subperm
  | cons policy policies ih =>
    simp only [pair, List.flatMap_append]
    generalize hms : policy drawn candidates now = ms
    have hfirst := (sound policy List.mem_cons_self).participants drawn candidates now
    rw [hms] at hfirst
    have hrest := ih (fun q hq => sound q (List.mem_cons_of_mem _ hq)) (drawn + ms.length)
      (candidates.filter (fun p => p.id ∉ matchedIds ms))
    have hkept : (ms.flatMap Match.participants).filter (fun p => p.id ∈ matchedIds ms) =
        ms.flatMap Match.participants := by
      apply List.filter_eq_self.mpr
      intro p hp
      obtain ⟨m, hm, hpm⟩ := List.mem_flatMap.mp hp
      exact decide_eq_true (List.mem_flatMap.mpr ⟨m, hm, List.mem_map_of_mem hpm⟩)
    have hfiltered := hfirst.filter (fun p => p.id ∈ matchedIds ms)
    rw [hkept] at hfiltered
    have hsplit := List.filter_append_perm (fun p : Participant => decide (p.id ∈ matchedIds ms))
      candidates
    simp only [← decide_not] at hsplit
    exact (List.Subperm.append hfiltered hrest).trans hsplit.subperm

open CompositePairingPolicy in
theorem composite_ids {policies : List PairingPolicy}
    (sound : ∀ policy ∈ policies, policy.Sound newMatchId) (drawn : Nat)
    (candidates : List Participant) (now : Int) :
    (pair policies drawn candidates now).map Match.id =
      (List.range' drawn (pair policies drawn candidates now).length).map newMatchId := by
  induction policies generalizing drawn candidates with
  | nil => rfl
  | cons policy policies ih =>
    simp only [pair, List.map_append, List.length_append]
    rw [(sound policy List.mem_cons_self).ids,
      ih (fun q hq => sound q (List.mem_cons_of_mem _ hq)), ← List.map_append,
      List.range'_append_1]

theorem composite_sound {policies : List PairingPolicy}
    (sound : ∀ policy ∈ policies, policy.Sound newMatchId) :
    PairingPolicy.Sound newMatchId (CompositePairingPolicy.pair policies) where
  participants := composite_participants sound
  ids := composite_ids sound

end EdoproServer.Matchmaking
