import EdoproServer.Lib.Effect
import EdoproServer.Room.Runs

namespace EdoproServer.Room
open Decks Lib

/-! ## What TRY_START sends and does -/

structure DeckCount where
  main : Nat
  extra : Nat
  side : Nat
  deriving DecidableEq, Repr

/-- The effects of a start in the order of the handler. -/
inductive StartEffect where
  | duelStart (c : ClientRef)
  | deckCount (c : ClientRef) (player0 player1 : DeckCount)
  | reconnectionToken (c : ClientRef)
  | captain (c : ClientRef)
  | selectHand (c : ClientRef)
  | createMatch
  | matchStarting
  | rps
  deriving DecidableEq, Repr

/-- A team without players has no first player whose deck could be read. -/
inductive StartError where
  | noFirstPlayer
  deriving DecidableEq, Repr

abbrev Start := EStateM StartError (List StartEffect)

def emit (effects : List StartEffect) : Start PUnit := modify (· ++ effects)

def toDeckCount : Option Deck → DeckCount
  | none => { main := 0, extra := 0, side := 0 }
  | some deck =>
    { main := deck.main.length, extra := deck.extra.length, side := deck.side.length }

/-- What an effect changes in the room. Frames change nothing. -/
def StartEffect.calls (born : Nat) : StartEffect → List Call
  | .reconnectionToken c => [.issue c]
  | .captain c => [.flag c .captain]
  | .rps => [.startMatch born]
  | _ => []

namespace YGOProRoom

section

variable (cfg : RoomConfig) (room : YGOProRoom)

/-- The counts a client is shown, those of its own team first. A spectator sees none. -/
def deckCounts (c first second : ClientRef) : DeckCount × DeckCount :=
  match (room.client c).team with
  | .player => (toDeckCount (room.client first).deck, toDeckCount (room.client second).deck)
  | .opponent => (toDeckCount (room.client second).deck, toDeckCount (room.client first).deck)
  | .spectator => (toDeckCount none, toDeckCount none)

def sendDeckCountMessage (c : ClientRef) : Start PUnit :=
  match room.getTeamPlayers .player, room.getTeamPlayers .opponent with
  | first :: _, second :: _ =>
    emit [.deckCount c (room.deckCounts c first second).1 (room.deckCounts c first second).2]
  | _, _ => throw .noFirstPlayer

def sendToRPS : Start PUnit :=
  match room.getTeamPlayers .player, room.getTeamPlayers .opponent with
  | first :: _, second :: _ =>
    emit [.captain first, .captain second, .selectHand first, .selectHand second]
  | _, _ => pure ⟨⟩

def sendTokens : Start PUnit :=
  if room.noReconnect then pure ⟨⟩
  else forM room.players (fun c => emit [.reconnectionToken c])

def sendStartMatch : Start PUnit := do
  forM room.clients (fun c => do
    emit [.duelStart c]
    room.sendDeckCountMessage c)
  room.sendTokens
  room.sendToRPS
  emit [.createMatch, .matchStarting, .rps]

/-- Whether TRY_START of a client gets past the checks of the handler. -/
def mayStart (sender : ClientRef) : Bool :=
  !cfg.reservedDuel.isSome && (room.client sender).host && room.allPlayersReady

def sendTryStart (sender : ClientRef) : Start PUnit :=
  if cfg.reservedDuel.isSome then pure ⟨⟩
  else if !(room.client sender).host then pure ⟨⟩
  else if !room.allPlayersReady then pure ⟨⟩
  else room.sendStartMatch

end

/-! ## When every lookup succeeds -/

variable {cfg : RoomConfig} {room : YGOProRoom}

/-- What a start writes when both teams have a player. -/
def startLog (room : YGOProRoom) (first second : ClientRef) : List StartEffect :=
  room.clients.flatMap (fun c => [StartEffect.duelStart c,
      StartEffect.deckCount c (room.deckCounts c first second).1
        (room.deckCounts c first second).2]) ++
    ((if room.noReconnect then []
        else room.players.flatMap (fun c => [StartEffect.reconnectionToken c])) ++
      ([StartEffect.captain first, StartEffect.captain second, StartEffect.selectHand first,
          StartEffect.selectHand second] ++
        [StartEffect.createMatch, StartEffect.matchStarting, StartEffect.rps]))

theorem sendStartMatch_writes {first second : ClientRef} {rest rest' : List ClientRef}
    (hfirst : room.getTeamPlayers .player = first :: rest)
    (hsecond : room.getTeamPlayers .opponent = second :: rest') :
    Lib.Writes room.sendStartMatch (room.startLog first second) := by
  have hcounts : ∀ c, Lib.Writes (room.sendDeckCountMessage c)
      [.deckCount c (room.deckCounts c first second).1 (room.deckCounts c first second).2] := by
    intro c
    simp only [sendDeckCountMessage, hfirst, hsecond]
    exact .append _
  have hrps : Lib.Writes room.sendToRPS
      [.captain first, .captain second, .selectHand first, .selectHand second] := by
    simp only [sendToRPS, hfirst, hsecond]
    exact .append _
  have htokens : Lib.Writes room.sendTokens
      (if room.noReconnect then []
        else room.players.flatMap (fun c => [.reconnectionToken c])) := by
    unfold sendTokens
    split
    · exact .skip
    · exact .loop (fun _ => .append _) _
  refine Lib.Writes.seq (.loop (fun c => ?_) _) (htokens.seq (hrps.seq (.append _)))
  exact Lib.Writes.seq (.append [StartEffect.duelStart c]) (hcounts c)

/-! ## What the effects change in the room -/

theorem issueTokens_calls (born : Nat) :
    (if room.noReconnect then [] else room.players.flatMap (fun c =>
      [StartEffect.reconnectionToken c])).flatMap (StartEffect.calls born) = room.issueTokens := by
  unfold issueTokens
  split
  · rfl
  · rw [List.flatMap_assoc, List.map_eq_flatMap]
    rfl

theorem startLog_calls (born : Nat) {first second : ClientRef} :
    (room.startLog first second).flatMap (StartEffect.calls born) =
      room.issueTokens ++ [.flag first .captain, .flag second .captain] ++ [.startMatch born] := by
  have hclients : (room.clients.flatMap (fun c => [StartEffect.duelStart c,
      .deckCount c (room.deckCounts c first second).1 (room.deckCounts c first second).2])).flatMap
        (StartEffect.calls born) = [] := by
    simp [List.flatMap_assoc, StartEffect.calls]
  rw [startLog, List.flatMap_append, List.flatMap_append, hclients, issueTokens_calls,
    List.nil_append, List.append_assoc]
  rfl

theorem deckCountRaises_iff : room.deckCountRaises = true ↔
    room.getTeamPlayers .player = [] ∨ room.getTeamPlayers .opponent = [] := by
  simp [deckCountRaises]

theorem firstPlayers_of_not_raises (h : room.deckCountRaises = false) :
    ∃ first rest second rest', room.getTeamPlayers .player = first :: rest ∧
      room.getTeamPlayers .opponent = second :: rest' := by
  rw [← Bool.not_eq_true, deckCountRaises_iff, not_or] at h
  obtain ⟨first, rest, hfirst⟩ := List.exists_cons_of_ne_nil h.1
  obtain ⟨second, rest', hsecond⟩ := List.exists_cons_of_ne_nil h.2
  exact ⟨first, rest, second, rest', hfirst, hsecond⟩

theorem sendDeckCountMessage_raises (h : room.deckCountRaises = true) (c : ClientRef) :
    room.sendDeckCountMessage c = throw .noFirstPlayer := by
  rw [deckCountRaises_iff] at h
  unfold sendDeckCountMessage
  cases hfirst : room.getTeamPlayers .player with
  | nil => rfl
  | cons first rest =>
    cases hsecond : room.getTeamPlayers .opponent with
    | nil => rfl
    | cons second rest' => simp [hfirst, hsecond] at h

/-- Without both first players the first client is told that the duel starts, and no more. -/
theorem sendStartMatch_raises (h : room.deckCountRaises = true) {c : ClientRef}
    {rest : List ClientRef} (hclients : room.clients = c :: rest) :
    room.sendStartMatch [] = .error .noFirstPlayer [.duelStart c] := by
  unfold sendStartMatch
  apply bind_raises
  rw [hclients, List.forM_cons, sendDeckCountMessage_raises h]
  rfl

/-- An empty room would start a match without captains. -/
theorem sendStartMatch_alone (hclients : room.clients = []) :
    room.sendStartMatch [] = .ok ⟨⟩ [.createMatch, .matchStarting, .rps] := by
  have hplayers : room.players = [] := (List.append_eq_nil_iff.mp hclients).1
  have htokens : Lib.Writes room.sendTokens [] := by
    unfold sendTokens
    split
    · exact .skip
    · rw [hplayers]
      exact .skip
  have hrps : Lib.Writes room.sendToRPS [] := by
    simp only [sendToRPS, getTeamPlayers, hplayers, List.filter_nil, List.insertionSort_nil]
    exact .skip
  have hall : Lib.Writes room.sendStartMatch [.createMatch, .matchStarting, .rps] := by
    unfold sendStartMatch
    rw [hclients]
    exact Lib.Writes.seq .skip (htokens.seq (hrps.seq (.append _)))
  exact hall []

/-- The effects of TRY_START are the calls of the room. -/
theorem sendTryStart_calls (sender : ClientRef) :
    (stateAfter (room.sendTryStart cfg sender [])).flatMap (StartEffect.calls room.epoch) =
      room.handleTryStart cfg sender := by
  unfold sendTryStart handleTryStart
  split
  · rfl
  · split
    · rfl
    · split
      · rfl
      · unfold startMatch
        cases hraises : room.deckCountRaises with
        | true =>
          cases hclients : room.clients with
          | nil =>
            have hplayers : room.players = [] := (List.append_eq_nil_iff.mp hclients).1
            have htokens : room.issueTokens = [] := by simp [issueTokens, hplayers]
            have hrps : room.toRPS = [] := by simp [toRPS, getTeamPlayers, hplayers]
            rw [sendStartMatch_alone hclients, htokens, hrps]
            rfl
          | cons c rest =>
            rw [sendStartMatch_raises hraises hclients]
            simp [stateAfter, StartEffect.calls]
        | false =>
          obtain ⟨first, rest, second, rest', hfirst, hsecond⟩ :=
            firstPlayers_of_not_raises hraises
          have hrps : room.toRPS = [.flag first .captain, .flag second .captain] := by
            simp [toRPS, hfirst, hsecond]
          rw [sendStartMatch_writes hfirst hsecond [], stateAfter, List.nil_append, startLog_calls,
            hrps]
          simp

/-! ## All or nothing -/

/-- Somebody ready sits on every seat of both teams, and neither team is empty. -/
structure EverySeatReady (cfg : RoomConfig) (room : YGOProRoom) : Prop where
  team0 : ∀ position ∈ cfg.t0Positions, ∃ c ∈ room.players,
    (room.client c).team = .player ∧ (room.client c).position = position ∧
      (room.client c).isReady = true
  team1 : ∀ position ∈ cfg.t1Positions, ∃ c ∈ room.players,
    (room.client c).team = .opponent ∧ (room.client c).position = position ∧
      (room.client c).isReady = true

/-- A start does nothing at all, or starts a match on full seats. -/
def AllOrNothing (cfg : RoomConfig) (room : YGOProRoom) (sender : ClientRef) : Prop :=
  room.sendTryStart cfg sender [] = .ok ⟨⟩ [] ∨
    ∃ log, room.sendTryStart cfg sender [] = .ok ⟨⟩ log ∧ .createMatch ∈ log ∧ .rps ∈ log ∧
      EverySeatReady cfg room

theorem sendTryStart_ignored {sender : ClientRef} (h : room.mayStart cfg sender = false) :
    room.sendTryStart cfg sender [] = .ok ⟨⟩ [] := by
  unfold sendTryStart
  split
  · rfl
  · split
    · rfl
    · split
      · rfl
      · rename_i hreserved hhost hready
        simp_all [mayStart]

theorem sendTryStart_started {sender : ClientRef} (h : room.mayStart cfg sender = true) :
    room.sendTryStart cfg sender = room.sendStartMatch := by
  simp only [mayStart, Bool.and_eq_true, Bool.not_eq_true'] at h
  simp [sendTryStart, h.1.1, h.1.2, h.2]

/-- TRY_START is all or nothing exactly when the sender may not start, or both teams have a player
and every seat is taken by a ready one. -/
theorem start_all_or_nothing_iff (cfg : RoomConfig) (room : YGOProRoom) (sender : ClientRef)
    (hsender : sender ∈ room.clients) :
    AllOrNothing cfg room sender ↔
      room.mayStart cfg sender = false ∨
        room.getTeamPlayers .player ≠ [] ∧ room.getTeamPlayers .opponent ≠ [] ∧
          EverySeatReady cfg room := by
  obtain ⟨c, rest, hclients⟩ := List.exists_cons_of_ne_nil (List.ne_nil_of_mem hsender)
  constructor
  · intro h
    cases hmay : room.mayStart cfg sender with
    | false => exact Or.inl rfl
    | true =>
      right
      rw [AllOrNothing, sendTryStart_started hmay] at h
      cases hraises : room.deckCountRaises with
      | true =>
        rw [sendStartMatch_raises hraises hclients] at h
        rcases h with h | ⟨log, h, _⟩
        · cases h
        · cases h
      | false =>
        obtain ⟨first, rest, second, rest', hfirst, hsecond⟩ :=
          firstPlayers_of_not_raises hraises
        rw [sendStartMatch_writes hfirst hsecond []] at h
        rcases h with h | ⟨log, _, _, _, hseats⟩
        · simp [startLog] at h
        · exact ⟨by simp [hfirst], by simp [hsecond], hseats⟩
  · rintro (hmay | ⟨hfirst, hsecond, hseats⟩)
    · exact Or.inl (sendTryStart_ignored hmay)
    · cases hmay : room.mayStart cfg sender with
      | false => exact Or.inl (sendTryStart_ignored hmay)
      | true =>
        obtain ⟨first, rest, hfirst⟩ := List.exists_cons_of_ne_nil hfirst
        obtain ⟨second, rest', hsecond⟩ := List.exists_cons_of_ne_nil hsecond
        refine Or.inr ⟨[] ++ room.startLog first second, ?_, ?_, ?_, hseats⟩
        · rw [sendTryStart_started hmay, sendStartMatch_writes hfirst hsecond []]
        · simp [startLog]
        · simp [startLog]

/-- Two guests who are ready start their match. -/
theorem start_all_or_nothing_guests :
    AllOrNothing casualRoom (after casualRoom guestsReady) 0 := by
  refine (start_all_or_nothing_iff casualRoom (after casualRoom guestsReady) 0
    (by decide +kernel)).mpr (Or.inr ⟨by decide +kernel, by decide +kernel, ?_, ?_⟩)
  · decide +kernel
  · decide +kernel

/-- The host is alone in its room and shows its deck. -/
def hostReady : List RoomInput :=
  joining 0 "A" ++ [.message 0 (.updateDeck [] []), .settled 0 (.built (some emptyDeck)), .grant]

/-- It presses start, is told that the duel starts, and the handler raises. -/
theorem hostReady_not_all_or_nothing :
    (after casualRoom hostReady).sendTryStart casualRoom 0 [] =
        .error .noFirstPlayer [.duelStart 0] ∧
      ¬AllOrNothing casualRoom (after casualRoom hostReady) 0 := by
  have hraised : (after casualRoom hostReady).sendTryStart casualRoom 0 [] =
      .error .noFirstPlayer [.duelStart 0] := by
    have hclients : (after casualRoom hostReady).clients = [0] := by decide +kernel
    rw [sendTryStart_started (by decide +kernel)]
    exact sendStartMatch_raises (by decide +kernel) hclients
  refine ⟨hraised, ?_⟩
  rw [AllOrNothing, hraised]
  rintro (h | ⟨log, h, _⟩)
  · cases h
  · cases h

end YGOProRoom

end EdoproServer.Room
