import EdoproServer.Room.Ledger

namespace EdoproServer.Room
open Decks Lib Stats

/-! ## Records that line up with the results -/

/-- By position, the duel ids and the win reasons of a match belong to the duels whose results its
games are. -/
structure PublishedMatch.LinesUp (ended : PublishedMatch) : Prop where
  length : ∀ player ∈ ended.players, ended.duelIds.length = player.games.length
  ids : ended.ledger.ids.map Prod.fst = ended.ledger.games.map Prod.fst
  reasons : ended.ledger.duelWinReasons = ended.ledger.games.map (fun game => game.1.winReason)

namespace Ledger

variable (ledger : Ledger)

theorem winReasonAt_unwritten {index : Nat} (h : ledger.records.length ≤ index) :
    ledger.winReasonAt index = .disconnect := by
  rw [winReasonAt, List.getElem?_eq_none h]

/-- A new record has no win reason. -/
theorem winReasonAt_addRecord (index : Nat) :
    { ledger with records := ledger.records ++ [none] }.winReasonAt index =
      ledger.winReasonAt index := by
  by_cases h : index < ledger.records.length
  · rw [winReasonAt, List.getElem?_append_left h, winReasonAt]
  · have hle := Nat.le_of_not_lt h
    rw [ledger.winReasonAt_unwritten hle, winReasonAt, List.getElem?_append_right hle]
    cases index - ledger.records.length with
    | zero => rfl
    | succ n => rfl

/-- The end of a duel writes the last win reason only. -/
theorem winReasonAt_score (duel : Core) (winner : Winner) {index : Nat}
    (h : index ≠ ledger.records.length - 1) :
    (ledger.score duel winner).winReasonAt index = ledger.winReasonAt index := by
  rw [winReasonAt, score, List.getElem?_modify_ne _ _ (Ne.symm h), winReasonAt]

theorem winReasonAt_scored (duel : Core) (winner : Winner) (h : 0 < ledger.records.length) :
    (ledger.score duel winner).winReasonAt (ledger.records.length - 1) =
      .winType (.played duel.matchId duel.duel) := by
  have hlast : ledger.records.length - 1 < ledger.records.length := by omega
  rw [winReasonAt, score, List.getElem?_modify_eq, List.getElem?_eq_getElem hlast]
  rfl

end Ledger

namespace YGOProRoom

variable {cfg : RoomConfig} {room pre : YGOProRoom} {input : RoomInput}

/-- Engines play duels that have started. -/
structure EnginesStarted (room : YGOProRoom) : Prop where
  playing : room.duelState = .dueling → 0 < room.duels
  cores : ∀ core ∈ room.cores, 0 < core.duel
  initialized : ∀ k ∈ room.suspended, ∀ core decks, k.work = .initialized core decks → 0 < core.duel

theorem playing_perform {call : Call} (h : EnginesStarted room)
    (hguard : Guarded cfg pre input room call) :
    (room.perform cfg call).duelState = .dueling → 0 < (room.perform cfg call).duels := by
  cases htouches : call.touchesDuels with
  | false =>
    have hsame := perform_sameDuels hguard htouches
    rw [hsame.duels]
    exact fun hstate => h.playing (hsame.playing hstate)
  | true =>
    cases call with
    | startMatch born =>
      intro hstate
      cases hstate
    | dueling born => exact fun _ => Nat.succ_pos _
    | endByAbandon born team =>
      have hawarded := @endByAbandon_awarded cfg room born team
      rw [hawarded.playing, hawarded.duels]
      exact h.playing
    | createDuel => exact h.playing
    | update duel change => exact h.playing
    | processDuelEnd duel winner engine => exact h.playing
    | _ => cases htouches

theorem EnginesStarted.perform {call : Call} (hpre : EnginesStarted pre) (h : EnginesStarted room)
    (hguard : Guarded cfg pre input room call) : EnginesStarted (room.perform cfg call) where
  playing := playing_perform h hguard
  cores := cores_perform hpre.initialized h.cores hguard
  initialized := initialized_perform h.initialized hguard

/-- The newest duel of the match was scored. -/
def NewestScored (room : YGOProRoom) : Prop := (room.matchId, room.duels) ∈ scoredDuels room.log

/-- Every duel that the match has started was scored. -/
def AllScored (room : YGOProRoom) : Prop := room.duels = 0 ∨ room.NewestScored

instance (room : YGOProRoom) : Decidable room.NewestScored :=
  inferInstanceAs (Decidable (_ ∈ _))

instance (room : YGOProRoom) : Decidable room.AllScored :=
  inferInstanceAs (Decidable (_ ∨ _))

/-- A match starts when no Duel object waits to be created, a duel when the one before was scored
and nothing that follows its score is pending. A duel is scored when it is the newest, has its id
and has pushed the record at the place of that id. A match is abandoned when its newest duel was
scored. -/
def RecordsInStep (room : YGOProRoom) : Call → Prop
  | .startMatch _ => room.pendingDuels = 0
  | .dueling _ => room.pendingScores = 0 ∧ room.pendingEndings = 0 ∧ room.AllScored
  | .processDuelEnd duel _ _ => duel.matchId = room.matchId ∧ duel.duel = room.duels ∧
      room.pendingDuels = 0 ∧ room.duelRecords.length = room.duelIds.length
  | .endByAbandon _ _ => room.NewestScored
  | _ => True

/-- The ids are those of the games, and of the newest duel while it is not scored. `unwritten` says
that no record was written past the games. -/
structure BooksInvariant (room : YGOProRoom) (ledger : Ledger) : Prop where
  tells : Ledger.Tells room ledger
  engines : EnginesStarted room
  scored : room.AllScored →
    ledger.waiting = [] ∧ ledger.ids.map Prod.fst = ledger.games.map Prod.fst
  unscored : ¬ room.AllScored → ledger.ids.map Prod.fst ++ ledger.waiting =
    ledger.games.map Prod.fst ++ [.played room.matchId room.duels]
  reasons : ∀ index origin, (ledger.games.map Prod.fst)[index]? = some origin →
    ledger.winReasonAt index = origin.winReason
  unwritten : room.NewestScored → ∀ index, ledger.games.length ≤ index →
    ledger.winReasonAt index = .disconnect
  scoredLe : ∀ m n, (m, n) ∈ scoredDuels room.log →
    m < room.matchId ∨ m = room.matchId ∧ n ≤ room.duels
  finished : room.NewestScored → room.isFinished = true
  object : room.pendingDuels = 0 → 0 < room.duels → room.currentDuel.isSome = true
  ending : 0 < room.pendingScores + room.pendingEndings → room.AllScored

variable {ledger : Ledger}

theorem SameBooks.newestScored {room' : YGOProRoom} (hs : SameBooks room room') :
    room'.NewestScored ↔ room.NewestScored := by
  rw [NewestScored, NewestScored, hs.matchId, hs.duels, hs.scored]

theorem SameBooks.allScored {room' : YGOProRoom} (hs : SameBooks room room') :
    room'.AllScored ↔ room.AllScored := by
  rw [AllScored, AllScored, hs.duels, hs.newestScored]

theorem BooksInvariant.same {room' : YGOProRoom} (h : BooksInvariant room ledger)
    (hs : SameBooks room room') (hengines : EnginesStarted room') :
    BooksInvariant room' ledger where
  tells := h.tells.same hs
  engines := hengines
  scored := by
    rw [hs.allScored]
    exact h.scored
  unscored := by
    rw [hs.allScored, hs.matchId, hs.duels]
    exact h.unscored
  reasons := h.reasons
  unwritten := by
    rw [hs.newestScored]
    exact h.unwritten
  scoredLe := by
    rw [hs.scored, hs.matchId, hs.duels]
    exact h.scoredLe
  finished := by
    rw [hs.newestScored]
    exact fun hscored => hs.finished (h.finished hscored)
  object := by
    rw [hs.pendingDuels, hs.duels]
    exact fun hpending hpos => hs.object (h.object hpending hpos)
  ending := by
    rw [hs.allScored]
    exact fun hpos => h.ending (hs.pending hpos)

theorem BooksInvariant.waiting_nil (h : BooksInvariant room ledger)
    (hpending : room.pendingDuels = 0) : ledger.waiting = [] :=
  List.eq_nil_of_length_eq_zero (h.tells.waiting.trans hpending)

/-- A match that was just started has no ids and no games. -/
theorem booksInvariant_startMatch (h : BooksInvariant room ledger) (born : Nat)
    (htells : Ledger.Tells (room.perform cfg (.startMatch born))
      (ledger.perform room (.startMatch born)))
    (hengines : EnginesStarted (room.perform cfg (.startMatch born)))
    (hpending : room.pendingDuels = 0) :
    BooksInvariant (room.perform cfg (.startMatch born))
      (ledger.perform room (.startMatch born)) := by
  have hlog : scoredDuels (room.perform cfg (.startMatch born)).log = scoredDuels room.log := by
    rw [perform_log, scoredDuels_append]
    exact List.append_nil _
  have hnew : ¬ (room.perform cfg (.startMatch born)).NewestScored := by
    intro hscored
    rw [NewestScored, hlog] at hscored
    have hle := h.scoredLe _ _ hscored
    change room.matchId + 1 < room.matchId ∨ room.matchId + 1 = room.matchId ∧ 0 ≤ room.duels at hle
    omega
  exact
    { tells := htells
      engines := hengines
      scored := fun _ => ⟨h.waiting_nil hpending, rfl⟩
      unscored := fun hopen => absurd (.inl rfl) hopen
      reasons := by
        intro index origin hgame
        cases hgame
      unwritten := fun hscored => absurd hscored hnew
      scoredLe := by
        rw [hlog]
        intro m n hmem
        change m < room.matchId + 1 ∨ m = room.matchId + 1 ∧ n ≤ 0
        have hle := h.scoredLe m n hmem
        omega
      finished := fun hscored => absurd hscored hnew
      object := fun _ hpos => absurd hpos (Nat.lt_irrefl 0)
      ending := fun _ => .inl rfl }

/-- A duel that has just started is the only one without a result. -/
theorem booksInvariant_dueling (h : BooksInvariant room ledger) (born : Nat)
    (htells : Ledger.Tells (room.dueling cfg born) (ledger.perform room (.dueling born)))
    (hengines : EnginesStarted (room.dueling cfg born)) (hscores : room.pendingScores = 0)
    (hendings : room.pendingEndings = 0) (hall : room.AllScored) :
    BooksInvariant (room.dueling cfg born) (ledger.perform room (.dueling born)) := by
  have hlog : scoredDuels (room.dueling cfg born).log = scoredDuels room.log := by
    change scoredDuels (room.perform cfg (.dueling born)).log = _
    rw [perform_log, scoredDuels_append]
    exact List.append_nil _
  have hnew : ¬ (room.dueling cfg born).NewestScored := by
    intro hscored
    rw [NewestScored, hlog] at hscored
    have hle := h.scoredLe _ _ hscored
    change room.matchId < room.matchId ∨
      room.matchId = room.matchId ∧ room.duels + 1 ≤ room.duels at hle
    omega
  have hopen : ¬ (room.dueling cfg born).AllScored := by
    intro hscored
    cases hscored with
    | inl hzero => exact absurd hzero (Nat.succ_ne_zero _)
    | inr hscored => exact hnew hscored
  obtain ⟨hwaiting, hids⟩ := h.scored hall
  exact
    { tells := htells
      engines := hengines
      scored := fun hscored => absurd hscored hopen
      unscored := by
        intro _
        simp only [Ledger.perform, hwaiting, hids, List.nil_append]
        rfl
      reasons := h.reasons
      unwritten := fun hscored => absurd hscored hnew
      scoredLe := by
        rw [hlog]
        intro m n hmem
        change m < room.matchId ∨ m = room.matchId ∧ n ≤ room.duels + 1
        have hle := h.scoredLe m n hmem
        omega
      finished := fun hscored => absurd hscored hnew
      object := by
        intro hzero
        have hwait := htells.waiting
        rw [hzero] at hwait
        simp [Ledger.perform] at hwait
      ending := by
        intro hpos
        change 0 < room.pendingScores + room.pendingEndings at hpos
        omega }

/-- The Duel object that is created is that of the duel without a result. -/
theorem booksInvariant_createDuel (h : BooksInvariant room ledger)
    (htells : Ledger.Tells (room.createDuel cfg) (ledger.createDuel room.nextDuelId))
    (hengines : EnginesStarted (room.createDuel cfg))
    (hhead : ∃ work ∈ room.queue.head?, work.work.createsDuel = true) :
    BooksInvariant (room.createDuel cfg) (ledger.createDuel room.nextDuelId) := by
  have hpending := YGOProRoom.pendingDuels_createDuel cfg hhead
  have hwaits := h.tells.waiting
  have hopen : ¬ room.AllScored := by
    intro hscored
    rw [(h.scored hscored).1, List.length_nil] at hwaits
    omega
  have hnew : ¬ room.NewestScored := fun hscored => hopen (.inr hscored)
  exact
    { tells := htells
      engines := hengines
      scored := fun hscored => absurd hscored hopen
      unscored := by
        intro _
        have hids := h.unscored hopen
        cases horigins : ledger.waiting with
        | nil =>
          rw [horigins, List.length_nil] at hwaits
          omega
        | cons first rest =>
          rw [horigins] at hids
          simpa [Ledger.createDuel, YGOProRoom.createDuel, horigins] using hids
      reasons := h.reasons
      unwritten := fun hscored => absurd hscored hnew
      scoredLe := h.scoredLe
      finished := fun hscored => absurd hscored hnew
      object := fun _ _ => rfl
      ending := h.ending }

/-- A new record waits for its win reason. -/
theorem booksInvariant_addDuelRecord (h : BooksInvariant room ledger) {core : Core}
    {decks : List (ClientRef × Deck)}
    (htells : Ledger.Tells (room.addDuelRecord core decks)
      (ledger.perform room (.addDuelRecord core decks)))
    (hengines : EnginesStarted (room.addDuelRecord core decks)) :
    BooksInvariant (room.addDuelRecord core decks)
      (ledger.perform room (.addDuelRecord core decks)) where
  tells := htells
  engines := hengines
  scored := h.scored
  unscored := h.unscored
  reasons := by
    intro index origin hgame
    rw [Ledger.perform, ledger.winReasonAt_addRecord]
    exact h.reasons index origin hgame
  unwritten := by
    intro hscored index hle
    rw [Ledger.perform, ledger.winReasonAt_addRecord]
    exact h.unwritten hscored index hle
  scoredLe := h.scoredLe
  finished := h.finished
  object := h.object
  ending := h.ending

/-- The duel without a result gets its result, and its record the win reason. -/
theorem booksInvariant_processDuelEnd (h : BooksInvariant room ledger) {duel : Core}
    (winner : Winner) (engine : Bool)
    (htells : Ledger.Tells (room.processDuelEnd duel winner engine) (ledger.score duel winner))
    (hengines : EnginesStarted (room.processDuelEnd duel winner engine))
    (hguard : Guarded cfg pre input room (.processDuelEnd duel winner engine))
    (hok : RecordsInStep room (.processDuelEnd duel winner engine)) :
    BooksInvariant (room.processDuelEnd duel winner engine) (ledger.score duel winner) := by
  obtain ⟨hmatch, hduel, hpending, hplace⟩ := hok
  have hpos : 0 < room.duels := by
    cases hguard.2 with
    | inl hcore => exact hduel ▸ h.engines.cores duel hcore
    | inr hplaying => exact h.engines.playing hplaying.1
  have hopen : ¬ room.AllScored := by
    intro hscored
    cases hscored with
    | inl hzero => omega
    | inr hscored =>
      have hfinished := h.finished hscored
      rw [hguard.1] at hfinished
      cases hfinished
  have hwaiting := h.waiting_nil hpending
  have hids : ledger.ids.map Prod.fst =
      (ledger.games ++ [(Origin.played duel.matchId duel.duel, winner)]).map Prod.fst := by
    have hunscored := h.unscored hopen
    rw [hwaiting, List.append_nil] at hunscored
    rw [hunscored, hmatch, hduel, List.map_append]
    rfl
  -- the record that is written stands where the game comes
  have hlast : ledger.records.length = ledger.games.length + 1 := by
    have hlength := congrArg List.length hids
    simp only [List.length_map, List.length_append, List.length_cons, List.length_nil] at hlength
    rw [h.tells.recordsLength, hplace, ← h.tells.idsLength, hlength]
  have hlog : scoredDuels (room.processDuelEnd duel winner engine).log =
      scoredDuels room.log ++ [(room.matchId, room.duels)] := by
    change scoredDuels (room.perform cfg (.processDuelEnd duel winner engine)).log = _
    rw [perform_log, scoredDuels_append]
    simp [logged, scoredDuels, hmatch, hduel]
  have hscored : (room.processDuelEnd duel winner engine).NewestScored := by
    rw [NewestScored, hlog]
    exact List.mem_append_right _ (List.mem_singleton_self _)
  have hobject := h.object hpending hpos
  exact
    { tells := htells
      engines := hengines
      scored := fun _ => ⟨hwaiting, hids⟩
      unscored := fun hopen => absurd (.inr hscored) hopen
      reasons := by
        intro index origin hgame
        rw [Ledger.score, List.map_append] at hgame
        by_cases hindex : index < ledger.games.length
        · rw [List.getElem?_append_left (by simpa using hindex)] at hgame
          rw [ledger.winReasonAt_score duel winner (by omega)]
          exact h.reasons index origin hgame
        · have hlt := (List.getElem?_eq_some_iff.mp hgame).1
          simp only [List.length_append, List.length_map, List.length_cons,
            List.length_nil] at hlt
          obtain rfl : index = ledger.records.length - 1 := by omega
          rw [List.getElem?_append_right (by simpa using Nat.le_of_not_lt hindex)] at hgame
          simp only [List.length_map, hlast, Nat.add_sub_cancel, Nat.sub_self, List.map_cons,
            List.map_nil, List.getElem?_cons_zero, Option.some.injEq] at hgame
          rw [ledger.winReasonAt_scored duel winner (by omega), ← hgame]
          rfl
      unwritten := by
        intro _ index hle
        apply Ledger.winReasonAt_unwritten
        simp only [Ledger.score, List.length_modify, List.length_append, List.length_cons,
          List.length_nil] at hle ⊢
        omega
      scoredLe := by
        rw [hlog]
        intro m n hmem
        cases List.mem_append.mp hmem with
        | inl hold => exact h.scoredLe m n hold
        | inr hnew =>
          obtain ⟨rfl, rfl⟩ := Prod.mk.inj (List.mem_singleton.mp hnew)
          exact .inr ⟨rfl, le_refl _⟩
      finished := by
        intro _
        obtain ⟨current, hcurrent⟩ := Option.isSome_iff_exists.mp hobject
        simp [isFinished, YGOProRoom.processDuelEnd, YGOProRoom.update, hcurrent,
          DuelUpdate.apply, Duel.finish]
      object := by
        intro _ _
        change (room.currentDuel.map (DuelUpdate.apply .finished)).isSome = true
        rw [Option.isSome_map]
        exact hobject
      ending := fun _ => .inr hscored }

/-- Every awarded game comes with its id, and no record has a win reason for it. -/
theorem booksInvariant_endByAbandon (h : BooksInvariant room ledger) (born : Nat) (team : Team)
    (htells : Ledger.Tells (room.perform cfg (.endByAbandon born team))
      (ledger.award room team.other))
    (hengines : EnginesStarted (room.perform cfg (.endByAbandon born team)))
    (hscored : room.NewestScored) :
    BooksInvariant (room.perform cfg (.endByAbandon born team))
      (ledger.award room team.other) := by
  have hawarded := @endByAbandon_awarded cfg room born team
  have hnewest : (room.perform cfg (.endByAbandon born team)).NewestScored := by
    rw [NewestScored, hawarded.matchId, hawarded.duels, hawarded.log]
    exact hscored
  obtain ⟨hwaiting, hids⟩ := h.scored (.inr hscored)
  exact
    { tells := htells
      engines := hengines
      scored := by
        intro _
        refine ⟨hwaiting, ?_⟩
        simp [Ledger.award, hids, Function.comp_def]
      unscored := fun hopen => absurd (.inr hnewest) hopen
      reasons := by
        intro index origin hgame
        rw [Ledger.award, List.map_append] at hgame
        by_cases hindex : index < ledger.games.length
        · rw [List.getElem?_append_left (by simpa using hindex)] at hgame
          exact h.reasons index origin hgame
        · have hle := Nat.le_of_not_lt hindex
          rw [List.getElem?_append_right (by simpa using hle)] at hgame
          obtain ⟨game, hmem, rfl⟩ := List.mem_map.mp (List.mem_of_getElem? hgame)
          obtain ⟨n, _, rfl⟩ := List.mem_map.mp hmem
          exact h.unwritten hscored index hle
      unwritten := by
        intro _ index hle
        simp only [Ledger.award, List.length_append] at hle
        exact h.unwritten hscored index (by omega)
      scoredLe := by
        rw [hawarded.log, hawarded.matchId, hawarded.duels]
        exact h.scoredLe
      finished := by
        intro _
        rw [isFinished, hawarded.currentDuel]
        exact h.finished hscored
      object := by
        rw [hawarded.pendingDuels, hawarded.duels, hawarded.currentDuel]
        exact h.object
      ending := fun _ => .inr hnewest }

theorem booksInvariant_perform {preLedger : Ledger} {call : Call}
    (hpre : BooksInvariant pre preLedger) (h : BooksInvariant room ledger)
    (hguard : Guarded cfg pre input room call) (hok : RecordsInStep room call) :
    BooksInvariant (room.perform cfg call) (ledger.perform room call) := by
  have htells := Ledger.tells_perform h.tells hguard
  have hengines := EnginesStarted.perform hpre.engines h.engines hguard
  cases henters : call.entersLedger with
  | false =>
    rw [Ledger.perform_quiet ledger room henters]
    exact h.same (perform_sameBooks hguard henters) hengines
  | true =>
    cases call with
    | startMatch born => exact booksInvariant_startMatch h born htells hengines hok
    | dueling born =>
      obtain ⟨hscores, hendings, hall⟩ := hok
      exact booksInvariant_dueling h born htells hengines hscores hendings hall
    | createDuel => exact booksInvariant_createDuel h htells hengines hguard
    | addDuelRecord core decks => exact booksInvariant_addDuelRecord h htells hengines
    | processDuelEnd duel winner engine =>
      exact booksInvariant_processDuelEnd h winner engine htells hengines hguard hok
    | endByAbandon born team => exact booksInvariant_endByAbandon h born team htells hengines hok
    | _ => cases henters

theorem create_booksInvariant (outside : Outside) :
    BooksInvariant (create cfg outside) (Account.create cfg outside).ledger where
  tells := ⟨rfl, rfl, rfl, by simp [create]⟩
  engines := ⟨by simp [create], by simp [create], by simp [create]⟩
  scored := fun _ => ⟨rfl, rfl⟩
  unscored := fun hopen => absurd (.inl rfl) hopen
  reasons := by simp [Account.create]
  unwritten := by simp [NewestScored, create, scoredDuels]
  scoredLe := by simp [create, scoredDuels]
  finished := by simp [NewestScored, create, scoredDuels]
  object := by simp [create]
  ending := fun _ => .inl rfl

end YGOProRoom

/-! ## Runs -/

namespace Account

open YGOProRoom (BooksInvariant RecordsInStep casualRoom matchAbandoned reservedRoom reservedBegins)

variable {cfg : RoomConfig} {account : Account}

/-- What is published while every duel of the match is scored lines up. -/
theorem publishes_linesUp (h : BooksInvariant account.room account.ledger)
    {call : Call} {pre : YGOProRoom} {input : RoomInput}
    (hguard : YGOProRoom.Guarded cfg pre input account.room call) :
    ∀ ended ∈ account.publishes call, ended.LinesUp := by
  intro ended hended
  have htold := publishes_told h.tells ended hended
  cases call with
  | publishGameOver index =>
    obtain ⟨k, hk, hpublishing⟩ := hguard
    have hending : k.work.isEnding = true := by
      cases hwork : k.work with
      | ending stage engine => rfl
      | abandonEnding => rfl
      | _ =>
        rw [hwork] at hpublishing
        cases hpublishing
    have hendings : 0 < account.room.pendingEndings :=
      List.countP_pos_iff.mpr ⟨k, List.mem_of_getElem? hk, hending⟩
    obtain ⟨_, hids⟩ := h.scored (h.ending (by omega))
    obtain rfl := List.mem_singleton.mp hended
    have hlength : account.ledger.ids.length = account.ledger.games.length := by
      have hlength := congrArg List.length hids
      rwa [List.length_map, List.length_map] at hlength
    refine ⟨?_, hids, ?_⟩
    · intro player hplayer
      have hresults := congrArg List.length (htold.games player hplayer)
      rw [List.length_map, Ledger.results, List.length_map] at hresults
      rw [← htold.ids, List.length_map, hresults]
      exact hlength
    · apply List.ext_getElem
      · simp [Ledger.duelWinReasons, hlength]
      · intro index hreason hgame
        have hlt : index < account.ledger.games.length := by simpa using hgame
        have hmatch := h.reasons index (account.ledger.games[index]).1 (by simp [hlt])
        simpa [Ledger.duelWinReasons] using hmatch
  | _ => cases hended

/-- In a run in which duels are scored one after the other, each with its own record, all that is
published lines up. -/
theorem records_line_up (cfg : RoomConfig) (account : Account)
    (h : Runs cfg RecordsInStep account) :
    ∀ ended ∈ account.published, ended.LinesUp := by
  have hinvariant : BooksInvariant account.room account.ledger ∧
      ∀ ended ∈ account.published, ended.LinesUp := by
    apply Runs.invariant _ _ h
    · intro outside
      exact ⟨YGOProRoom.create_booksInvariant outside, by simp [create]⟩
    · intro pre input account call hpre ha hguard hok
      refine ⟨YGOProRoom.booksInvariant_perform hpre.1 ha.1 hguard hok, ?_⟩
      intro ended hended
      cases List.mem_append.mp hended with
      | inl hold => exact ha.2 ended hold
      | inr hnew => exact publishes_linesUp ha.1 hguard ended hnew
  exact hinvariant.2

instance (room : YGOProRoom) (call : Call) : Decidable (RecordsInStep room call) := by
  apply Call.casesOn (motive := fun call => Decidable (RecordsInStep room call)) call
  case startMatch =>
    intro born
    show Decidable (_ = 0)
    infer_instance
  case dueling =>
    intro born
    show Decidable (_ = 0 ∧ _ = 0 ∧ room.AllScored)
    infer_instance
  case processDuelEnd =>
    intro duel winner engine
    show Decidable (_ ∧ _ ∧ _ ∧ _)
    infer_instance
  case endByAbandon =>
    intro born team
    show Decidable room.NewestScored
    infer_instance
  all_goals
    intros
    exact instDecidableTrue

/-- A match of one played and one awarded game is published. -/
theorem records_line_up_abandoned :
    (after casualRoom matchAbandoned).published.length = 1 ∧
      ∀ ended ∈ (after casualRoom matchAbandoned).published, ended.LinesUp :=
  ⟨by decide +kernel,
    records_line_up casualRoom _ (Runs.after (by decide +kernel))⟩

/-- A player of a reserved duel surrenders while its engine is still being set up. -/
def surrendersEarly : List RoomInput :=
  reservedBegins.take 16 ++
    [.message 0 .surrender, .settled 1 .done, .settled 1 .done, .settled 1 .done,
      .settled 1 .done, .settled 1 .done]

theorem surrendersEarly_disconnect :
    (after reservedRoom surrendersEarly).published.map (fun ended =>
        (ended.ledger.duelWinReasons, ended.ledger.games.map (fun game => game.1.winReason))) =
      [([.disconnect], [.winType (.played 1 1)])] := by
  decide +kernel

theorem records_not_line_up : ∃ account,
    Runs reservedRoom (fun _ _ => True) account ∧
      ∃ ended ∈ account.published, ¬ ended.LinesUp := by
  refine ⟨_, runs_after _ surrendersEarly, ?_⟩
  obtain ⟨ended, hended, hlists⟩ := List.mem_map.mp
    (surrendersEarly_disconnect ▸ List.mem_singleton_self _)
  refine ⟨ended, hended, ?_⟩
  intro h
  obtain ⟨hwritten, hgames⟩ := Prod.mk.inj hlists
  have hreasons := h.reasons
  rw [hwritten, hgames] at hreasons
  cases hreasons

end Account

end EdoproServer.Room
