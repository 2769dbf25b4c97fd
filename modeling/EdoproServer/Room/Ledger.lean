import EdoproServer.Room.Score
import EdoproServer.Room.Settlement

namespace EdoproServer.Room
open Decks Lib Stats

/-! ## Whose ids, win reasons and games a room holds -/

/-- Where a game of a match comes from: from its n-th duel, or from an award. -/
inductive Origin where
  | played (matchId duel : Nat)
  | awarded (matchId index : Nat)
  deriving DecidableEq, Repr

/-- The win reason of a game: what the end of a duel wrote on a record, or "disconnect". -/
inductive WinReason where
  | winType (writer : Origin)
  | disconnect
  deriving DecidableEq, Repr

/-- An awarded game has no win type. -/
def Origin.winReason : Origin → WinReason
  | .played matchId duel => .winType (.played matchId duel)
  | .awarded _ _ => .disconnect

/-- `waiting` says whose Duel objects wait for the mutex, `ids` whose the duel ids are, `records`
whose end wrote the win reason of each record and `games` whose results the games are. -/
structure Ledger where
  waiting : List Origin
  ids : List (Origin × DuelId)
  records : List (Option Origin)
  games : List (Origin × Winner)

/-- A GAME_OVER as it is published, with the ledger of that moment. -/
structure PublishedMatch where
  matchId : Nat
  duelIds : List DuelId
  players : List PlayerData
  ledger : Ledger

/-- A room whose ledger is kept, and what it has published. -/
structure Account where
  room : YGOProRoom
  ledger : Ledger
  published : List PublishedMatch

namespace YGOProRoom

/-- How many games a forfeit awards. -/
def awarded (room : YGOProRoom) (winner : Team) : Nat :=
  match room.currentMatch with
  | none => 0
  | some m => (m.forfeit (some winner) room.connections).2

def matchPlayersHistory (room : YGOProRoom) : List PlayerData :=
  (room.currentMatch.map Match.playersHistory).getD []

end YGOProRoom

namespace Ledger

def winReasonAt (ledger : Ledger) (index : Nat) : WinReason :=
  match ledger.records[index]? with
  | some (some writer) => .winType writer
  | _ => .disconnect

/-- The win reason of every game in the order of the duel ids. -/
def duelWinReasons (ledger : Ledger) : List WinReason :=
  (List.range ledger.ids.length).map ledger.winReasonAt

/-- The id that is pushed belongs to the duel that has waited longest. -/
def createDuel (ledger : Ledger) (id : DuelId) : Ledger :=
  { ledger with
    waiting := ledger.waiting.tail
    ids := ledger.ids ++ (ledger.waiting.head?.map (fun origin => (origin, id))).toList }

/-- The end of a duel writes on the last record. -/
def score (ledger : Ledger) (duel : Core) (winner : Winner) : Ledger :=
  { ledger with
    records := ledger.records.modify (ledger.records.length - 1)
      (fun _ => some (.played duel.matchId duel.duel))
    games := ledger.games ++ [(.played duel.matchId duel.duel, winner)] }

def award (ledger : Ledger) (room : YGOProRoom) (winner : Team) : Ledger :=
  { ledger with
    ids := ledger.ids ++ (List.range (room.awarded winner)).map
      (fun index => (.awarded room.matchId index, room.nextDuelId + index))
    games := ledger.games ++ (List.range (room.awarded winner)).map
      (fun index => (.awarded room.matchId index, some winner)) }

/-- What a call of a room enters into its ledger. -/
def perform (room : YGOProRoom) (ledger : Ledger) : Call → Ledger
  | .startMatch _ => { ledger with ids := [], games := [] }
  | .dueling _ =>
    { ledger with waiting := ledger.waiting ++ [.played room.matchId (room.duels + 1)] }
  | .createDuel => ledger.createDuel room.nextDuelId
  | .addDuelRecord _ _ => { ledger with records := ledger.records ++ [none] }
  | .processDuelEnd duel winner _ => ledger.score duel winner
  | .endByAbandon _ team => ledger.award room team.other
  | _ => ledger

end Ledger

namespace Account

def create (cfg : RoomConfig) (outside : Outside) : Account :=
  { room := YGOProRoom.create cfg outside
    ledger := { waiting := [], ids := [], records := [], games := [] }
    published := [] }

/-- What a call publishes. -/
def publishes (account : Account) : Call → List PublishedMatch
  | .publishGameOver _ =>
    [{ matchId := account.room.matchId, duelIds := account.room.duelIds,
       players := account.room.matchPlayersHistory, ledger := account.ledger }]
  | _ => []

def perform (cfg : RoomConfig) (call : Call) (account : Account) : Account :=
  { room := account.room.perform cfg call
    ledger := account.ledger.perform account.room call
    published := account.published ++ account.publishes call }

def step (cfg : RoomConfig) (account : Account) (input : RoomInput) : Account :=
  performAll (perform cfg) account (account.room.calls cfg input)

/-- The accounts of a created room and what it becomes by inputs whose calls all meet `ok`. -/
def Runs (cfg : RoomConfig) (ok : YGOProRoom → Call → Prop) : Account → Prop :=
  Reached (fun account => ∃ outside, account = create cfg outside) (step cfg)
    (fun account input =>
      Allows (YGOProRoom.perform cfg) ok account.room (account.room.calls cfg input))

/-- The account after a list of inputs. -/
def after (cfg : RoomConfig) (inputs : List RoomInput) : Account :=
  inputs.foldl (step cfg) (create cfg { closedSockets := [], tokens := .empty, minted := 0 })

variable {cfg : RoomConfig} {ok : YGOProRoom → Call → Prop}

theorem perform_room (account : Account) (call : Call) :
    (account.perform cfg call).room = account.room.perform cfg call := rfl

theorem step_room (account : Account) (input : RoomInput) :
    (account.step cfg input).room = account.room.step cfg input :=
  performAll_map Account.room perform_room account _

/-- Keeping the ledger changes nothing of the room. -/
theorem Runs.room {account : Account} (h : Runs cfg ok account) :
    YGOProRoom.Runs cfg ok account.room := by
  unfold YGOProRoom.Runs
  refine Reached.map Account.room ?_ step_room h
  intro first hfirst
  obtain ⟨outside, rfl⟩ := hfirst
  exact ⟨outside, rfl⟩

/-- A ledger can be kept of every run of a room. -/
theorem exists_account {room : YGOProRoom} (h : YGOProRoom.Runs cfg ok room) :
    ∃ account, Runs cfg ok account ∧ account.room = room := by
  apply Reached.lift Account.room _ step_room h
  intro s hs
  obtain ⟨outside, rfl⟩ := hs
  exact ⟨create cfg outside, ⟨outside, rfl⟩, rfl⟩

theorem Runs.after {inputs : List RoomInput}
    (h : Allows (fun input account => step cfg account input)
      (fun account input =>
        Allows (YGOProRoom.perform cfg) ok account.room (account.room.calls cfg input))
      (create cfg { closedSockets := [], tokens := .empty, minted := 0 }) inputs) :
    Runs cfg ok (after cfg inputs) :=
  Reached.inputs (.start ⟨_, rfl⟩) h

/-- An account can be kept of any inputs. -/
theorem runs_after (cfg : RoomConfig) (inputs : List RoomInput) :
    Runs cfg (fun _ _ => True) (after cfg inputs) :=
  Runs.after (.of_forall (fun _ _ _ => .of_forall (fun _ _ _ => trivial)))

/-- What holds of a created room's account and is kept by every guarded call holds in every run. -/
theorem Runs.invariant {P : Account → Prop}
    (hstart : ∀ outside, P (create cfg outside))
    (hcall : ∀ (pre : Account) (input : RoomInput) (account : Account) (call : Call), P pre →
      P account → YGOProRoom.Guarded cfg pre.room input account.room call →
      ok account.room call → P (account.perform cfg call))
    {account : Account} (h : Runs cfg ok account) : P account := by
  apply Reached.invariant _ _ h
  · intro s hs
    obtain ⟨outside, rfl⟩ := hs
    exact hstart outside
  · intro s input hs hok
    have hallowed := (YGOProRoom.calls_guarded cfg s.room input).and hok
    have hlifted : Allows (perform cfg) (fun account call =>
        YGOProRoom.Guarded cfg s.room input account.room call ∧ ok account.room call) s
        (s.room.calls cfg input) := hallowed.comap Account.room perform_room
    exact hlifted.preserves
      (fun account call ha hg => hcall s input account call hs ha hg.1 hg.2) hs

end Account

/-! ## Calls that leave the ledger alone -/

/-- Calls that enter something into the ledger. -/
def Call.entersLedger : Call → Bool
  | .startMatch _ | .dueling _ | .createDuel | .addDuelRecord _ _ | .processDuelEnd _ _ _
  | .endByAbandon _ _ => true
  | _ => false

namespace YGOProRoom

variable {cfg : RoomConfig} {room pre : YGOProRoom} {input : RoomInput}

/-- The same match with the same duels and records. What waited to follow a result still does. -/
structure SameBooks (room room' : YGOProRoom) : Prop where
  matchId : room'.matchId = room.matchId
  duels : room'.duels = room.duels
  currentMatch : room'.currentMatch = room.currentMatch
  duelIds : room'.duelIds = room.duelIds
  duelRecords : room'.duelRecords = room.duelRecords
  pendingDuels : room'.pendingDuels = room.pendingDuels
  scored : scoredDuels room'.log = scoredDuels room.log
  object : room.currentDuel.isSome = true → room'.currentDuel.isSome = true
  finished : room.isFinished = true → room'.isFinished = true
  pending : 0 < room'.pendingScores + room'.pendingEndings →
    0 < room.pendingScores + room.pendingEndings

theorem perform_books {call : Call} (h : call.entersLedger = false) :
    (room.perform cfg call).currentMatch = room.currentMatch ∧
      (room.perform cfg call).duelRecords = room.duelRecords := by
  cases call with
  | enter born target =>
    have hcontest := enterPhase_toContest room cfg born target
    exact ⟨congrArg Contest.currentMatch hcontest, congrArg Contest.duelRecords hcontest⟩
  | leaveSideDecking born target =>
    have hcontest := enterPhase_toContest (room.note (.sided born)) cfg born target
    exact ⟨congrArg Contest.currentMatch hcontest, congrArg Contest.duelRecords hcontest⟩
  | finalize abandon =>
    have hcontest := finalize_toContest room cfg abandon
    exact ⟨congrArg Contest.currentMatch hcontest, congrArg Contest.duelRecords hcontest⟩
  | clearTimer born position =>
    rw [perform]
    split
    · exact ⟨rfl, rfl⟩
    · exact ⟨rfl, rfl⟩
  | clearTimers born =>
    rw [perform]
    split
    · exact ⟨rfl, rfl⟩
    · exact ⟨rfl, rfl⟩
  | removeAllListener born =>
    rw [perform]
    split
    · exact ⟨rfl, rfl⟩
    · exact ⟨rfl, rfl⟩
  | startMatch born => cases h
  | dueling born => cases h
  | createDuel => cases h
  | addDuelRecord core decks => cases h
  | processDuelEnd duel winner engine => cases h
  | endByAbandon born team => cases h
  | _ => exact ⟨rfl, rfl⟩

/-- An ending that begins follows a result that waited for it. -/
theorem perform_pending {call : Call} (hguard : Guarded cfg pre input room call)
    (h : call.entersLedger = false)
    (hpos : 0 < (room.perform cfg call).pendingScores + (room.perform cfg call).pendingEndings) :
    0 < room.pendingScores + room.pendingEndings := by
  cases htouches : call.touchesEnds with
  | false =>
    obtain ⟨hscores, hendings⟩ := pending_perform hguard htouches
    omega
  | true =>
    cases call with
    | beginEnding index engine =>
      obtain ⟨_, k, hk, hprocessing⟩ := hguard
      have hscores : 0 < room.pendingScores :=
        List.countP_pos_iff.mpr ⟨k, List.mem_of_getElem? hk, hprocessing⟩
      omega
    | publishGameOver index =>
      obtain ⟨k, hk, _⟩ := hguard
      obtain ⟨hscores, hendings⟩ := pending_erase hk
      change 0 < (room.suspended.eraseIdx index).countP _ +
        (room.suspended.eraseIdx index).countP _ at hpos
      omega
    | finalize abandon =>
      unfold pendingScores pendingEndings at hpos ⊢
      rwa [perform_suspended] at hpos
    | startMatch born => cases h
    | dueling born => cases h
    | createDuel => cases h
    | processDuelEnd duel winner engine => cases h
    | endByAbandon born team => cases h
    | _ => cases htouches

theorem logged_noScore {call : Call} (h : call.entersLedger = false) :
    scoredDuels (room.logged cfg call) = [] := by
  cases call with
  | processDuelEnd duel winner engine => cases h
  | finalize abandon =>
    unfold logged abandons
    dsimp only
    split_ifs
    all_goals rfl
  | _ => rfl

theorem perform_sameBooks {call : Call} (hguard : Guarded cfg pre input room call)
    (h : call.entersLedger = false) : SameBooks room (room.perform cfg call) := by
  obtain ⟨hmatch, hrecords⟩ := @perform_books cfg room call h
  have hscored : scoredDuels (room.perform cfg call).log = scoredDuels room.log := by
    rw [perform_log, scoredDuels_append, logged_noScore h, List.append_nil]
  have hpending := perform_pending hguard h
  cases htouches : call.touchesDuels with
  | false =>
    have hsame := perform_sameDuels hguard htouches
    have hobject : room.currentDuel.isSome = true →
        (room.perform cfg call).currentDuel.isSome = true := by
      rw [hsame.currentDuel]
      exact fun h => h
    have hfinished : room.isFinished = true → (room.perform cfg call).isFinished = true := by
      unfold isFinished
      rw [hsame.currentDuel]
      exact fun h => h
    exact ⟨hsame.matchId, hsame.duels, hmatch, hsame.duelIds, hrecords, hsame.pendingDuels,
      hscored, hobject, hfinished, hpending⟩
  | true =>
    cases call with
    | update duel change =>
      have hobject : room.currentDuel.isSome = true →
          (room.update duel change).currentDuel.isSome = true := by
        rw [update, Option.isSome_map]
        exact fun h => h
      exact ⟨rfl, rfl, hmatch, rfl, hrecords, rfl, hscored, hobject,
        update_isFinished duel change, hpending⟩
    | startMatch born => cases h
    | dueling born => cases h
    | createDuel => cases h
    | processDuelEnd duel winner engine => cases h
    | endByAbandon born team => cases h
    | _ => cases htouches

section

variable (room : YGOProRoom) (winner : Team)

theorem matchForfeit_duelIds : (room.matchForfeit winner).duelIds =
    room.duelIds ++ (List.range (room.awarded winner)).map (room.nextDuelId + ·) := by
  unfold matchForfeit awarded
  cases hmatch : room.currentMatch with
  | none => simp
  | some m => simp

theorem matchForfeit_duelRecords : (room.matchForfeit winner).duelRecords = room.duelRecords := by
  unfold matchForfeit
  split
  · rfl
  · rfl

theorem matchForfeit_currentMatch : (room.matchForfeit winner).currentMatch =
    room.currentMatch.map (fun m => (m.forfeit (some winner) room.connections).1) := by
  unfold matchForfeit
  split
  · rename_i hmatch
    rw [hmatch]
    rfl
  · rename_i m hmatch
    rw [hmatch]
    rfl

end

end YGOProRoom

namespace Ledger

theorem perform_quiet (ledger : Ledger) (room : YGOProRoom) {call : Call}
    (h : call.entersLedger = false) : ledger.perform room call = ledger := by
  cases call with
  | startMatch born => cases h
  | dueling born => cases h
  | createDuel => cases h
  | addDuelRecord core decks => cases h
  | processDuelEnd duel winner engine => cases h
  | endByAbandon born team => cases h
  | _ => rfl

/-! ## What a ledger says of its room -/

/-- The results of a team. -/
def results (ledger : Ledger) (team : Team) : List GameResult :=
  ledger.games.map (fun game => Match.resultFor game.2 team)

@[simp] theorem results_score (ledger : Ledger) (duel : Core) (winner : Winner) (team : Team) :
    (ledger.score duel winner).results team =
      ledger.results team ++ [Match.resultFor winner team] := by
  simp [results, score]

@[simp] theorem results_award (ledger : Ledger) (room : YGOProRoom) (winner team : Team) :
    (ledger.award room winner).results team = ledger.results team ++
      List.replicate (room.awarded winner) (Match.resultFor (some winner) team) := by
  simp [results, award, Function.comp_def]

/-- The entries of a ledger stand where what they are about stands in the room. -/
structure Tells (room : YGOProRoom) (ledger : Ledger) : Prop where
  waiting : ledger.waiting.length = room.pendingDuels
  ids : ledger.ids.map Prod.snd = room.duelIds
  records : ledger.records.map Option.isSome =
    room.duelRecords.map (fun record => record.winPosition.isSome)
  games : ∀ m, room.currentMatch = some m → ∀ player ∈ m.players,
    player.games.map Game.result = ledger.results player.team

variable {cfg : RoomConfig} {room pre : YGOProRoom} {input : RoomInput} {ledger : Ledger}

theorem Tells.idsLength (h : Tells room ledger) : ledger.ids.length = room.duelIds.length := by
  rw [← h.ids, List.length_map]

theorem Tells.recordsLength (h : Tells room ledger) :
    ledger.records.length = room.duelRecords.length := by
  have hlength := congrArg List.length h.records
  rwa [List.length_map, List.length_map] at hlength

theorem Tells.same {room' : YGOProRoom} (h : Tells room ledger)
    (hs : YGOProRoom.SameBooks room room') : Tells room' ledger where
  waiting := h.waiting.trans hs.pendingDuels.symm
  ids := h.ids.trans hs.duelIds.symm
  records := by
    rw [hs.duelRecords]
    exact h.records
  games := by
    rw [hs.currentMatch]
    exact h.games

theorem tells_startMatch (h : Tells room ledger) (born : Nat) :
    Tells (room.perform cfg (.startMatch born)) (ledger.perform room (.startMatch born)) where
  waiting := h.waiting
  ids := rfl
  records := h.records
  games := by
    intro m hm player hplayer
    have hnew : (Match.create cfg.bestOf).initializeHistoricalData room.matchPlayers = m :=
      Option.some.inj hm
    subst hnew
    obtain ⟨before, _, rfl⟩ := List.mem_map.mp hplayer
    rfl

theorem tells_dueling (h : Tells room ledger) (born : Nat) :
    Tells (room.dueling cfg born) (ledger.perform room (.dueling born)) where
  waiting := by
    have hpending : (room.dueling cfg born).pendingDuels = room.pendingDuels + 1 := by
      simp [YGOProRoom.pendingDuels, YGOProRoom.dueling, YGOProRoom.enqueue, YGOProRoom.enter,
        Work.createsDuel]
    rw [hpending, ← h.waiting]
    exact List.length_append
  ids := h.ids
  records := h.records
  games := h.games

theorem tells_createDuel (h : Tells room ledger)
    (hhead : ∃ work ∈ room.queue.head?, work.work.createsDuel = true) :
    Tells (room.createDuel cfg) (ledger.createDuel room.nextDuelId) := by
  have hpending := YGOProRoom.pendingDuels_createDuel cfg hhead
  have hwaiting := h.waiting
  cases horigins : ledger.waiting with
  | nil =>
    rw [horigins, List.length_nil] at hwaiting
    omega
  | cons first rest =>
    rw [horigins, List.length_cons] at hwaiting
    refine ⟨?_, ?_, h.records, h.games⟩
    · simp only [createDuel, horigins, List.tail_cons]
      omega
    · simp [createDuel, horigins, YGOProRoom.createDuel, h.ids]

/-- Two lists whose entries agree still do when one entry of both is replaced. -/
theorem map_modify {α β γ : Type} {f : α → γ} {g : β → γ} {c : γ} {l : List α} {l' : List β}
    (h : l.map f = l'.map g) (index : Nat) {x : α → α} {y : β → β} (hx : ∀ a, f (x a) = c)
    (hy : ∀ b, g (y b) = c) : (l.modify index x).map f = (l'.modify index y).map g := by
  apply List.ext_getElem?
  intro i
  have hi := congrArg (fun entries => entries[i]?) h
  simp only [List.getElem?_map] at hi
  simp only [List.getElem?_map, List.getElem?_modify]
  by_cases he : index = i
  · cases hl : l[i]? with
    | none =>
      rw [hl] at hi
      simp [Option.map_eq_none_iff.mp hi.symm]
    | some a =>
      rw [hl] at hi
      obtain ⟨b, hb, _⟩ := Option.map_eq_some_iff.mp hi.symm
      simp [he, hb, hx, hy]
  · simpa [he] using hi

theorem tells_processDuelEnd (h : Tells room ledger) (duel : Core) (winner : Winner)
    (engine : Bool) :
    Tells (room.processDuelEnd duel winner engine) (ledger.score duel winner) where
  waiting := h.waiting
  ids := h.ids
  records := by
    simp only [score, YGOProRoom.processDuelEnd, YGOProRoom.recordWin, h.recordsLength]
    exact map_modify h.records _ (fun _ => rfl) (fun _ => rfl)
  games := by
    intro m hm player hplayer
    obtain ⟨before, hbefore, rfl⟩ := Option.map_eq_some_iff.mp hm
    have hresult := Match.duelWinner_results (h.games before hbefore) winner room.turn
      room.connections player hplayer
    rw [hresult, results_score]

theorem tells_endByAbandon (h : Tells room ledger) (born : Nat) (team : Team) :
    Tells (room.perform cfg (.endByAbandon born team)) (ledger.award room team.other) := by
  have hwaiting : ledger.waiting.length =
      (room.perform cfg (.endByAbandon born team)).pendingDuels :=
    h.waiting.trans (YGOProRoom.endByAbandon_awarded born team).pendingDuels.symm
  have hsame : ∀ forfeited : YGOProRoom,
      (forfeited.markGameOver.suspend { born := born, work := .abandonEnding }).toContest =
        forfeited.toContest := fun _ => rfl
  refine ⟨hwaiting, ?_, ?_, ?_⟩
  all_goals rw [YGOProRoom.perform, hsame]
  · rw [YGOProRoom.matchForfeit_duelIds, ← h.ids]
    simp [award, Function.comp_def]
  · rw [YGOProRoom.matchForfeit_duelRecords]
    exact h.records
  · intro m hm player hplayer
    rw [YGOProRoom.matchForfeit_currentMatch] at hm
    obtain ⟨before, hbefore, rfl⟩ := Option.map_eq_some_iff.mp hm
    have hresults := Match.award_results (some team.other) room.connections before.bestOf.toNat
      (h.games before hbefore) player hplayer
    have hcount : room.awarded team.other =
        (before.forfeit (some team.other) room.connections).2 := by
      simp [YGOProRoom.awarded, hbefore]
    rw [hresults, results_award, hcount]
    rfl

/-- A ledger keeps telling what its room holds, whatever the calls are. -/
theorem tells_perform {call : Call} (h : Tells room ledger)
    (hguard : YGOProRoom.Guarded cfg pre input room call) :
    Tells (room.perform cfg call) (ledger.perform room call) := by
  cases henters : call.entersLedger with
  | false =>
    rw [perform_quiet ledger room henters]
    exact h.same (YGOProRoom.perform_sameBooks hguard henters)
  | true =>
    cases call with
    | startMatch born => exact tells_startMatch h born
    | dueling born => exact tells_dueling h born
    | createDuel => exact tells_createDuel h hguard
    | addDuelRecord core decks =>
      refine ⟨h.waiting, h.ids, ?_, h.games⟩
      simp only [perform, YGOProRoom.perform, YGOProRoom.addDuelRecord, List.map_append, h.records]
      rfl
    | processDuelEnd duel winner engine => exact tells_processDuelEnd h duel winner engine
    | endByAbandon born team => exact tells_endByAbandon h born team
    | _ => cases henters

end Ledger

/-- The ledger of a GAME_OVER stands beside its duel ids and its games. -/
structure PublishedMatch.Told (ended : PublishedMatch) : Prop where
  ids : ended.ledger.ids.map Prod.snd = ended.duelIds
  games : ∀ player ∈ ended.players,
    player.games.map Game.result = ended.ledger.results player.team

namespace Account

variable {cfg : RoomConfig} {ok : YGOProRoom → Call → Prop} {account : Account}

theorem publishes_told {call : Call} (h : Ledger.Tells account.room account.ledger) :
    ∀ ended ∈ account.publishes call, ended.Told := by
  intro ended hended
  cases call with
  | publishGameOver index =>
    rw [List.mem_singleton.mp hended]
    refine ⟨h.ids, ?_⟩
    intro player hplayer
    change player ∈ (account.room.currentMatch.map Match.playersHistory).getD [] at hplayer
    cases hmatch : account.room.currentMatch with
    | none =>
      rw [hmatch] at hplayer
      cases hplayer
    | some m =>
      rw [hmatch] at hplayer
      obtain ⟨before, hbefore, rfl⟩ := List.mem_map.mp hplayer
      exact h.games m hmatch before hbefore
  | _ => cases hended

/-- Every ledger tells what its room holds, also when the match is published. -/
theorem Runs.told (h : Runs cfg ok account) :
    Ledger.Tells account.room account.ledger ∧ ∀ ended ∈ account.published, ended.Told := by
  apply Runs.invariant _ _ h
  · intro outside
    refine ⟨⟨rfl, rfl, rfl, ?_⟩, ?_⟩
    · simp [create, YGOProRoom.create]
    · simp [create]
  · intro pre input account call _ ha hguard _
    obtain ⟨htells, htold⟩ := ha
    refine ⟨Ledger.tells_perform htells hguard, ?_⟩
    intro ended hended
    cases List.mem_append.mp hended with
    | inl hold => exact htold ended hold
    | inr hnew => exact publishes_told htells ended hnew

theorem publishes_gameOvers (account : Account) (call : Call) :
    (account.publishes call).map PublishedMatch.matchId =
      gameOvers (account.room.logged cfg call) := by
  cases call with
  | finalize abandon =>
    unfold YGOProRoom.logged YGOProRoom.abandons
    dsimp only
    split_ifs
    all_goals rfl
  | _ => rfl

/-- What an account has published are the game overs of its room. -/
theorem Runs.published (h : Runs cfg ok account) :
    account.published.map PublishedMatch.matchId = gameOvers account.room.log := by
  apply Runs.invariant _ _ h
  · intro outside
    rfl
  · intro pre input account call _ ha _ _
    change (account.published ++ account.publishes call).map _ =
      gameOvers (account.room.perform cfg call).log
    rw [List.map_append, YGOProRoom.perform_log, gameOvers_append, ha, publishes_gameOvers]

end Account

end EdoproServer.Room
