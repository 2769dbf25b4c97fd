import EdoproServer.Room.Homes

namespace EdoproServer.Room
open Decks Lib

/-! ## What follows a WIN -/

/-- What waits for a scored duel to be acted on, or for its match to be ended. -/
def Continuation.followsWin : Continuation → Bool
  | .duelProcessed _ _ => true
  | .ending _ _ => true
  | _ => false

/-- How what follows a WIN may settle. When the ending of a match raises, only the handler that
the engine called closes the room. -/
def Continuation.keepsWin : Continuation → Settled → Bool
  | .duelProcessed _ _, .done => true
  | .duelProcessed _ _, _ => false
  | .ending _ _, .done => true
  | .ending _ engine, .raised => engine
  | .ending _ _, .built _ => false
  | _, _ => true

namespace YGOProRoom

variable {cfg : RoomConfig} {room pre : YGOProRoom} {input : RoomInput}

/-- The room is out of the duel, or gets out of it as soon as what it waits for has settled,
however that settles. -/
inductive LeavesDueling (cfg : RoomConfig) : YGOProRoom → Prop where
  | left {room : YGOProRoom} (h : room.duelState ≠ .dueling) : LeavesDueling cfg room
  | closed {room : YGOProRoom} (h : room.finalizing = true) : LeavesDueling cfg room
  | follows {room : YGOProRoom} (index : Nat) (k : Deferred Continuation)
      (hk : room.suspended[index]? = some k) (hfollows : k.work.followsWin = true)
      (h : ∀ result, k.work.keepsWin result = true →
        LeavesDueling cfg (room.step cfg (.settled index result))) : LeavesDueling cfg room

/-- Something is still to follow a WIN. -/
def FollowsUp (room : YGOProRoom) : Prop := ∃ k ∈ room.suspended, k.work.followsWin = true

theorem step_settled {index : Nat} {k : Deferred Continuation} (h : room.suspended[index]? = some k)
    (result : Settled) : room.step cfg (.settled index result) =
      performAll (perform cfg) room (room.continueWith cfg index k.born k.work result) := by
  simp [step, calls, h]

/-- An ending that raises in a handler of the engine closes the room. -/
theorem ending_raised {index born : Nat} {stage : EndingStage}
    (h : room.suspended[index]? = some { born := born, work := .ending stage true }) :
    (room.step cfg (.settled index .raised)).finalizing = true := by
  rw [step_settled h]
  exact finalize_finalizing _ cfg none

theorem suspended_advance (cfg : RoomConfig) {index : Nat} {k : Deferred Continuation}
    {stage : EndingStage} {engine : Bool} (h : room.suspended[index]? = some k) :
    (room.perform cfg (.advance index stage engine)).suspended[index]? =
      some { k with work := .ending stage engine } := by
  rw [perform_suspended, suspendedAfter, List.getElem?_modify_eq, h]
  rfl

/-- The ending of a match gets a stage further, and closes the room in the end. -/
theorem ending_done (cfg : RoomConfig) {index born : Nat} {stage : EndingStage} {engine : Bool}
    (h : room.suspended[index]? = some { born := born, work := .ending stage engine }) :
    (room.step cfg (.settled index .done)).suspended[index]? =
        (match stage with
          | .runEnding => some { born := born, work := .ending .sendAllReplays engine }
          | .sendAllReplays => some { born := born, work := .ending .sendAllEvrp engine }
          | .sendAllEvrp => some { born := born, work := .ending .finalizeWithReplays engine }
          | .finalizeWithReplays =>
            (room.step cfg (.settled index .done)).suspended[index]?) ∧
      (stage = .finalizeWithReplays →
        (room.step cfg (.settled index .done)).finalizing = true) := by
  rw [step_settled h]
  cases stage with
  | runEnding =>
    refine ⟨?_, by simp⟩
    have hbefore : (performAll (perform cfg) room
        [.removeAllListener born, .disposeCore born]).suspended = room.suspended := by
      simp [perform_suspended, suspendedAfter]
    exact suspended_advance cfg (hbefore ▸ h)
  | sendAllReplays => exact ⟨suspended_advance cfg h, by simp⟩
  | sendAllEvrp => exact ⟨suspended_advance cfg h, by simp⟩
  | finalizeWithReplays => exact ⟨rfl, fun _ => finalize_finalizing _ cfg none⟩

/-- The ending of a match takes the room out of the duel, by induction on how many of its stages
are left. -/
theorem ending_leaves {index born : Nat} {stage : EndingStage} {engine : Bool}
    (h : room.suspended[index]? = some { born := born, work := .ending stage engine }) :
    LeavesDueling cfg room := by
  have hstage : ∀ {room : YGOProRoom} {stage : EndingStage},
      room.suspended[index]? = some { born := born, work := .ending stage engine } →
      LeavesDueling cfg (room.step cfg (.settled index .done)) → LeavesDueling cfg room := by
    intro room stage hk hdone
    refine .follows index _ hk rfl ?_
    intro result hkeeps
    cases result with
    | done => exact hdone
    | built deck => cases hkeeps
    | raised =>
      have hengine : engine = true := hkeeps
      subst hengine
      exact .closed (ending_raised hk)
  have hlast : ∀ {room : YGOProRoom}, room.suspended[index]? =
      some { born := born, work := .ending .finalizeWithReplays engine } →
      LeavesDueling cfg room :=
    fun hk => hstage hk (.closed ((ending_done cfg hk).2 rfl))
  have hevrp : ∀ {room : YGOProRoom}, room.suspended[index]? =
      some { born := born, work := .ending .sendAllEvrp engine } → LeavesDueling cfg room :=
    fun hk => hstage hk (hlast (ending_done cfg hk).1)
  have hreplays : ∀ {room : YGOProRoom}, room.suspended[index]? =
      some { born := born, work := .ending .sendAllReplays engine } → LeavesDueling cfg room :=
    fun hk => hstage hk (hevrp (ending_done cfg hk).1)
  cases stage with
  | runEnding => exact hstage h (hreplays (ending_done cfg h).1)
  | sendAllReplays => exact hreplays h
  | sendAllEvrp => exact hevrp h
  | finalizeWithReplays => exact hlast h

theorem assignSideDeckChoice_enters (winner : Winner) :
    ∀ call ∈ room.assignSideDeckChoice cfg winner, call.enters = false := by
  intro call hcall
  cases winner with
  | none =>
    rw [assignSideDeckChoice, List.mem_singleton] at hcall
    rw [hcall]
    rfl
  | some winner =>
    simp only [assignSideDeckChoice, List.mem_cons, Option.mem_toList,
      Option.map_eq_some_iff] at hcall
    obtain rfl | ⟨c, _, rfl⟩ := hcall
    · rfl
    · rfl

/-- Calls that enter no phase stay in the one there is. -/
theorem performAll_stays {calls : List Call} (h : ∀ call ∈ calls, call.enters = false) :
    (performAll (perform cfg) room calls).epoch = room.epoch ∧
      (performAll (perform cfg) room calls).duelState = room.duelState := by
  induction calls generalizing room with
  | nil => exact ⟨rfl, rfl⟩
  | cons call calls ih =>
    have hcall := @perform_stays cfg room call (h call (by simp))
    have hcalls := @ih (room.perform cfg call) (fun c hc => h c (List.mem_cons_of_mem call hc))
    rw [performAll_cons]
    exact ⟨hcalls.1.trans hcall.1, hcalls.2.trans hcall.2⟩

/-- A scored duel is followed by side decking or by the ending of the match. -/
theorem duelProcessed_done (cfg : RoomConfig) {index born : Nat} {winner : Winner} {engine : Bool}
    (h : room.suspended[index]? = some { born := born, work := .duelProcessed winner engine }) :
    (room.step cfg (.settled index .done)).duelState = .sideDecking ∨
      (room.step cfg (.settled index .done)).suspended[index]? =
        some { born := born, work := .ending .runEnding engine } := by
  rw [step_settled h]
  simp only [continueWith, determineNextPhase]
  split
  · right
    simp [perform_suspended, suspendedAfter, h]
  · left
    rw [performAll_append, (performAll_stays (assignSideDeckChoice_enters winner)).2]
    rfl

/-- Whatever follows a WIN takes the room out of the duel. -/
theorem FollowsUp.leaves (h : FollowsUp room) : LeavesDueling cfg room := by
  obtain ⟨k, hk, hfollows⟩ := h
  obtain ⟨index, hindex⟩ := List.mem_iff_getElem?.mp hk
  obtain ⟨born, work⟩ := k
  cases work with
  | duelProcessed winner engine =>
    refine .follows index _ hindex rfl ?_
    intro result hkeeps
    cases result with
    | done =>
      cases duelProcessed_done cfg hindex with
      | inl hsiding => exact .left (by rw [hsiding]; simp)
      | inr hending => exact ending_leaves hending
    | built deck => cases hkeeps
    | raised => cases hkeeps
  | ending stage engine => exact ending_leaves hindex
  | _ => cases hfollows

/-- What follows a WIN settles: the room is out of the duel, or more is still to follow. -/
theorem settled_follows {index : Nat} {k : Deferred Continuation}
    (h : room.suspended[index]? = some k) (hfollows : k.work.followsWin = true) {result : Settled}
    (hkeeps : k.work.keepsWin result = true) :
    (room.step cfg (.settled index result)).duelState ≠ .dueling ∨
      (room.step cfg (.settled index result)).finalizing = true ∨
      FollowsUp (room.step cfg (.settled index result)) := by
  obtain ⟨born, work⟩ := k
  cases work with
  | duelProcessed winner engine =>
    cases result with
    | done =>
      cases duelProcessed_done cfg h with
      | inl hsiding => exact .inl (by rw [hsiding]; simp)
      | inr hending => exact .inr (.inr ⟨_, List.mem_of_getElem? hending, rfl⟩)
    | built deck => cases hkeeps
    | raised => cases hkeeps
  | ending stage engine =>
    cases result with
    | done =>
      have hdone := ending_done cfg h
      cases stage with
      | finalizeWithReplays => exact .inr (.inl (hdone.2 rfl))
      | _ => exact .inr (.inr ⟨_, List.mem_of_getElem? hdone.1, rfl⟩)
    | raised =>
      have hengine : engine = true := hkeeps
      subst hengine
      exact .inr (.inl (ending_raised h))
    | built deck => cases hkeeps
  | _ => cases hfollows

/-- What may not follow a WIN is dropped. -/
theorem settled_dropped {index : Nat} {k : Deferred Continuation}
    (h : room.suspended[index]? = some k) {result : Settled}
    (hdrops : k.work.keepsWin result = false) :
    room.step cfg (.settled index result) = room.perform cfg (.resume index) := by
  rw [step_settled h]
  obtain ⟨born, work⟩ := k
  cases work with
  | duelProcessed winner engine =>
    cases result with
    | done => cases hdrops
    | built deck => rfl
    | raised => rfl
  | ending stage engine =>
    cases result with
    | done => cases hdrops
    | built deck => rfl
    | raised =>
      have hengine : engine = false := hdrops
      subst hengine
      rfl
  | _ => cases hdrops

/-- What is to follow a WIN stays so, unless it is resumed. -/
theorem followsUp_perform {call : Call} (h : FollowsUp room)
    (hcause : Caused cfg pre input room call)
    (hother : ∀ index result, input = .settled index result → ∀ k ∈ pre.suspended[index]?,
      k.work.followsWin = false) : FollowsUp (room.perform cfg call) := by
  obtain ⟨k, hk, hfollows⟩ := h
  unfold FollowsUp
  rw [perform_suspended]
  have hkept : ∀ index result, input = .settled index result → room.suspended = pre.suspended →
      k ∈ room.suspended.eraseIdx index := by
    intro index result hinput hsame
    obtain ⟨place, hplace⟩ := List.mem_iff_getElem?.mp hk
    refine List.mem_eraseIdx_iff_getElem?.mpr ⟨place, ?_, hplace⟩
    intro hindex
    subst hindex
    rw [hother place result hinput k (hsame ▸ hplace)] at hfollows
    cases hfollows
  have hreplaced : ∀ index stage engine, ∃ k' ∈ room.suspended.modify index
      (fun k => { k with work := .ending stage engine }), k'.work.followsWin = true := by
    intro index stage engine
    obtain ⟨place, hplace⟩ := List.mem_iff_getElem?.mp hk
    refine ⟨if index = place then { k with work := .ending stage engine } else k, ?_, ?_⟩
    · apply @List.mem_of_getElem? _ _ place
      rw [List.getElem?_modify, hplace]
      split
      · rfl
      · rfl
    · split
      · rfl
      · exact hfollows
  cases call with
  | resume index =>
    obtain ⟨⟨result, hinput⟩, hsame⟩ := hcause
    exact ⟨k, hkept index result hinput hsame, hfollows⟩
  | publishGameOver index =>
    obtain ⟨⟨result, hinput⟩, hsame⟩ := hcause
    exact ⟨k, hkept index result hinput hsame, hfollows⟩
  | advance index stage engine => exact hreplaced index stage engine
  | beginEnding index engine => exact hreplaced index .runEnding engine
  | suspend other => exact ⟨k, List.mem_append_left _ hk, hfollows⟩
  | processDuelEnd duel winner engine => exact ⟨k, List.mem_append_left _ hk, hfollows⟩
  | endByAbandon born team => exact ⟨k, List.mem_append_left _ hk, hfollows⟩
  | _ => exact ⟨k, hk, hfollows⟩

/-! ## A room without a match -/

/-- Only the start of a match gives a room its first match. -/
theorem currentMatch_perform {call : Call} (h : (room.perform cfg call).currentMatch = none) :
    room.currentMatch = none ∧ ∀ born, call ≠ .startMatch born := by
  cases call with
  | startMatch born => cases h
  | enter born target => exact ⟨by simpa [perform] using h, by simp⟩
  | leaveSideDecking born target => exact ⟨by simpa [perform, note] using h, by simp⟩
  | processDuelEnd duel winner engine => exact ⟨Option.map_eq_none_iff.mp h, by simp⟩
  | finalize abandon => exact ⟨by simpa [perform] using h, by simp⟩
  | endByAbandon born team =>
    refine ⟨?_, by simp⟩
    rw [perform, matchForfeit] at h
    split at h
    · assumption
    · cases h
  | clearTimer born position =>
    rw [perform] at h
    split at h
    · exact ⟨h, by simp⟩
    · exact ⟨h, by simp⟩
  | clearTimers born =>
    rw [perform] at h
    split at h
    · exact ⟨h, by simp⟩
    · exact ⟨h, by simp⟩
  | removeAllListener born =>
    rw [perform] at h
    split at h
    · exact ⟨h, by simp⟩
    · exact ⟨h, by simp⟩
  | _ => exact ⟨h, by simp⟩

theorem AtHome.only_waiting (h : AtHome room) (hepoch : room.epoch = 0) {born : Nat}
    {phase : DuelState} (hphase : (phases room.log)[born]? = some phase) : phase = .waiting := by
  obtain ⟨hlt, _⟩ := List.getElem?_eq_some_iff.mp hphase
  rw [h.length, hepoch] at hlt
  have hborn : born = 0 := by omega
  rw [hborn] at hphase
  exact (Option.some.inj hphase).symm

/-- A room in its first waiting state goes on by the start of a match only. -/
theorem first_enters (h : AtHome pre) (hepoch : pre.epoch = 0) {call : Call}
    (hcause : Caused cfg pre input room call) (henters : call.enters = true) :
    ∃ born, call = .startMatch born := by
  have hwaiting : pre.duelState = .waiting := h.only_waiting hepoch h.phase
  have hresumes : ∀ {kind : Continuation → Prop} {result : Settled} (phase : DuelState),
      Resumes pre kind result input → (∀ k, kind k → k.home = some phase) → phase = .waiting := by
    intro kind result phase hresumes hkind
    obtain ⟨index, _, k, hk, hwork⟩ := hresumes
    exact h.only_waiting hepoch
      (h.suspended k (List.mem_of_getElem? hk) phase (hkind _ hwork))
  cases call with
  | startMatch born => exact ⟨born, rfl⟩
  | enter born target =>
    obtain ⟨_, sender, result, hshows, _⟩ | ⟨_, hraised⟩ | ⟨_, hdone⟩ := hcause
    · have hrps := hshows.2.2.1
      rw [hwaiting] at hrps
      cases hrps
    · cases hresumes .dueling hraised (by intro k hk; rw [hk]; rfl)
    · cases hresumes .dueling hdone (by
        intro k hk
        obtain ⟨winner, engine, rfl⟩ := hk
        rfl)
  | leaveSideDecking born target =>
    obtain ⟨_, ⟨index, c, deck, _, k, hk, hwork, _⟩, _⟩ := hcause
    cases h.only_waiting hepoch
      (h.suspended k (List.mem_of_getElem? hk) .sideDecking (by rw [hwork]; rfl))
  | dueling born =>
    obtain ⟨sender, first, _, _, hchoosing⟩ := hcause
    rw [hwaiting] at hchoosing
    cases hchoosing
  | _ => cases henters

end YGOProRoom

/-! ## Engines that fail -/

/-- What comes to a room, and the failure of an engine while it advances. -/
inductive PlayInput where
  | room (input : RoomInput)
  | advanceFails (core : Core)

/-- A WIN that was sent to the players, and the room state they were in. -/
structure ShownWin where
  duel : Core
  epoch : Nat
  deriving DecidableEq, Repr

/-- A result that was entered in a match, and the room state that entered it. -/
structure RecordedWin where
  duel : Core
  matchId : Nat
  epoch : Nat
  deriving DecidableEq, Repr

/-- A room with the engines that were told to advance and what became of its duels. -/
structure Play where
  room : YGOProRoom
  advanced : List Core
  shown : List ShownWin
  recorded : List RecordedWin

namespace Play

def create (cfg : RoomConfig) (outside : Outside) : Play :=
  { room := YGOProRoom.create cfg outside, advanced := [], shown := [], recorded := [] }

section

variable (cfg : RoomConfig) (p : Play)

/-- The WIN that a call sends. -/
def shows : Call → List ShownWin
  | .processDuelEnd duel _ _ => [{ duel := duel, epoch := p.room.epoch }]
  | _ => []

/-- The result that a call enters in the match. -/
def records : Call → List RecordedWin
  | .processDuelEnd duel _ _ =>
    if p.room.currentMatch.isSome then
      [{ duel := duel, matchId := p.room.matchId, epoch := p.room.epoch }]
    else []
  | _ => []

def perform (call : Call) : Play :=
  { p with
    room := p.room.perform cfg call
    shown := p.shown ++ p.shows call
    recorded := p.recorded ++ p.records call }

/-- The engine is disposed of, and the players are sent a draw that no handler sees. -/
def handleAdvanceError (core : Core) : Play :=
  { p with
    room := p.room.perform cfg (.disposeCore core.state)
    shown := p.shown ++ [{ duel := core, epoch := p.room.epoch }] }

/-- The engines that run were told to advance. -/
def advance : Play :=
  { p with advanced := p.advanced ++ p.room.cores.filter p.room.engineRuns }

def step : PlayInput → Play
  | .room input =>
    (performAll (fun call p => perform cfg p call) p (p.room.calls cfg input)).advance
  | .advanceFails core => if core ∈ p.advanced then p.handleAdvanceError cfg core else p

end

/-- A WIN of an engine that counts is of the match being played. What follows a WIN is not dropped
in the duel. An engine fails only after its duel is in the score of its match, and not in a duel
that nobody has won yet. -/
def WinsKept (p : Play) : PlayInput → Prop
  | .room (.engine core (.win _)) => p.room.engineRuns core = true →
    p.room.isFinished = false → core.matchId = p.room.matchId
  | .room (.settled index result) => p.room.duelState = .dueling →
    ∀ k ∈ p.room.suspended[index]?, k.work.keepsWin result = true
  | .advanceFails core => core ∈ p.advanced →
    (∃ result ∈ p.recorded, result.duel = core ∧ result.matchId = core.matchId) ∧
      (p.room.duelState = .dueling → ∃ result ∈ p.recorded, result.epoch = p.room.epoch)
  | _ => True

/-- The plays that a created room goes through by inputs that meet `ok`. -/
def Runs (cfg : RoomConfig) (ok : Play → PlayInput → Prop) : Play → Prop :=
  Reached (fun p => ∃ outside, p = create cfg outside) (step cfg) ok

/-- The play after a list of inputs. -/
def after (cfg : RoomConfig) (inputs : List PlayInput) : Play :=
  inputs.foldl (step cfg) (create cfg { closedSockets := [], tokens := .empty, minted := 0 })

theorem Runs.after {cfg : RoomConfig} {ok : Play → PlayInput → Prop} {inputs : List PlayInput}
    (h : Allows (fun input p => step cfg p input) ok
      (create cfg { closedSockets := [], tokens := .empty, minted := 0 }) inputs) :
    Runs cfg ok (after cfg inputs) :=
  Reached.inputs (.start ⟨_, rfl⟩) h

/-- Any inputs run a room, if no condition is put on them. -/
theorem runs_after (cfg : RoomConfig) (inputs : List PlayInput) :
    Runs cfg (fun _ _ => True) (after cfg inputs) :=
  Runs.after (.of_forall (fun _ _ _ => trivial))

/-- The players were sent a WIN for the duel. -/
def Shown (p : Play) (duel : Core) : Prop := ∃ win ∈ p.shown, win.duel = duel

/-- The result of the duel is in the score of its match. -/
def Recorded (p : Play) (duel : Core) : Prop :=
  ∃ result ∈ p.recorded, result.duel = duel ∧ result.matchId = duel.matchId

/-- The duels whose players were sent a WIN are those whose results are recorded, and every room
state in which a WIN was sent is left, or is no duel, or leaves the duel. -/
structure WinsSettled (cfg : RoomConfig) (p : Play) : Prop where
  recorded : ∀ duel, Shown p duel ↔ Recorded p duel
  leaves : ∀ win ∈ p.shown, win.epoch < p.room.epoch ∨
    win.epoch = p.room.epoch ∧ p.room.LeavesDueling cfg

/-! ### What one call keeps -/

variable {cfg : RoomConfig} {p pre : Play} {input : RoomInput}

/-- The room is out of the duel in which a WIN was sent, for good. -/
def Gone (room : YGOProRoom) (win : ShownWin) : Prop :=
  win.epoch < room.epoch ∨ room.duelState ≠ .dueling ∨ room.finalizing = true

/-- What holds of a play between two calls. -/
structure Kept (p : Play) : Prop where
  atHome : p.room.AtHome
  started : p.room.currentMatch = none → p.room.epoch = 0
  epochs : ∀ win ∈ p.shown, win.epoch ≤ p.room.epoch
  recorded : ∀ duel, Shown p duel ↔ Recorded p duel
  sent : ∀ result ∈ p.recorded, ∃ win ∈ p.shown, win.epoch = result.epoch

/-- Every WIN that was sent is settled or about to be. -/
def Followed (p : Play) : Prop := ∀ win ∈ p.shown, Gone p.room win ∨ p.room.FollowsUp

theorem Gone.perform {room : YGOProRoom} {win : ShownWin} (h : Gone room win)
    (hle : win.epoch ≤ room.epoch) (call : Call) : Gone (room.perform cfg call) win := by
  cases henters : call.enters with
  | true =>
    have hepoch := @YGOProRoom.enters_epoch cfg room call henters
    exact .inl (by omega)
  | false =>
    obtain ⟨hepoch, hphase⟩ := @YGOProRoom.perform_stays cfg room call henters
    obtain hgone | hphase' | hfinal := h
    · exact .inl (hepoch ▸ hgone)
    · exact .inr (.inl (hphase ▸ hphase'))
    · exact .inr (.inr (YGOProRoom.finalizing_perform call hfinal))

/-- Whose duel is scored plays in a match. -/
theorem currentMatch_isSome (h : Kept p) {duel : Core}
    (hduel : duel ∈ p.room.cores ∨ p.room.duelState = .dueling ∧ duel = p.room.currentCore) :
    p.room.currentMatch.isSome = true := by
  cases hmatch : p.room.currentMatch with
  | some m => rfl
  | none =>
    have hepoch := h.started hmatch
    cases hduel with
    | inl hcore => cases h.atHome.only_waiting hepoch (h.atHome.cores duel hcore)
    | inr hdueling =>
      have hphase := h.atHome.phase
      rw [hdueling.1] at hphase
      cases h.atHome.only_waiting hepoch hphase

theorem kept_perform {call : Call} (hpre : Kept pre) (hlog : pre.room.log <+: p.room.log)
    (hnone : p.room.currentMatch = none → pre.room.currentMatch = none) (h : Kept p)
    (hguard : YGOProRoom.Guarded cfg pre.room input p.room call)
    (hcause : YGOProRoom.Caused cfg pre.room input p.room call)
    (hwins : ∀ duel winner, input = .engine duel (.win winner) →
      duel.matchId = pre.room.matchId) : Kept (p.perform cfg call) where
  atHome := YGOProRoom.atHome_perform hpre.atHome hlog h.atHome hguard hcause
  started := by
    intro hmatch
    obtain ⟨hbefore, hother⟩ := YGOProRoom.currentMatch_perform hmatch
    have hepoch := h.started hbefore
    cases henters : call.enters with
    | true =>
      obtain ⟨born, hcall⟩ := YGOProRoom.first_enters hpre.atHome (hpre.started (hnone hbefore))
        hcause henters
      exact absurd hcall (hother born)
    | false => exact (YGOProRoom.perform_stays henters).1.trans hepoch
  epochs := by
    intro win hwin
    have hle := @YGOProRoom.epoch_le cfg p.room call
    cases List.mem_append.mp hwin with
    | inl hold => exact (h.epochs win hold).trans hle
    | inr hnew =>
      cases call with
      | processDuelEnd duel winner engine =>
        rw [List.mem_singleton.mp hnew]
        exact hle
      | _ => cases hnew
  recorded := by
    intro duel
    cases call with
    | processDuelEnd scored winner engine =>
      have hmatch : scored.matchId = p.room.matchId := by
        obtain ⟨hsame, ⟨winner, hinput⟩ | rfl⟩ := hcause
        · exact (hwins scored winner hinput).trans hsame.symm
        · exact hsame.symm
      have hrecords : p.records (.processDuelEnd scored winner engine) =
          [{ duel := scored, matchId := p.room.matchId, epoch := p.room.epoch }] := by
        rw [records, if_pos (currentMatch_isSome h hguard.2)]
      have hshown : Shown (p.perform cfg (.processDuelEnd scored winner engine)) duel ↔
          Shown p duel ∨ scored = duel := by
        simp [Shown, perform, shows, or_and_right, exists_or]
      have hrecorded : Recorded (p.perform cfg (.processDuelEnd scored winner engine)) duel ↔
          Recorded p duel ∨ scored = duel ∧ p.room.matchId = duel.matchId := by
        simp [Recorded, perform, hrecords, or_and_right, exists_or]
      rw [hshown, hrecorded, h.recorded duel]
      constructor
      · intro hduel
        cases hduel with
        | inl hold => exact .inl hold
        | inr hnew => exact .inr ⟨hnew, by rw [← hnew, hmatch]⟩
      · intro hduel
        cases hduel with
        | inl hold => exact .inl hold
        | inr hnew => exact .inr hnew.1
    | _ => simpa [Shown, Recorded, perform, shows, records] using h.recorded duel
  sent := by
    intro result hresult
    cases List.mem_append.mp hresult with
    | inl hold =>
      obtain ⟨win, hwin, hepoch⟩ := h.sent result hold
      exact ⟨win, List.mem_append_left _ hwin, hepoch⟩
    | inr hnew =>
      cases call with
      | processDuelEnd duel winner engine =>
        refine ⟨{ duel := duel, epoch := p.room.epoch },
          List.mem_append_right _ (List.mem_singleton.mpr rfl), ?_⟩
        simp only [records] at hnew
        split at hnew
        · rw [List.mem_singleton.mp hnew]
        · cases hnew
      | _ => cases hnew

/-- A call settles what it sends, or leaves it to what is to follow. -/
theorem followed_perform {call : Call} (hkept : Kept p) (h : Followed p)
    (hcause : YGOProRoom.Caused cfg pre.room input p.room call)
    (hother : ∀ index result, input = .settled index result →
      ∀ k ∈ pre.room.suspended[index]?, k.work.followsWin = false) :
    Followed (p.perform cfg call) := by
  intro win hwin
  cases List.mem_append.mp hwin with
  | inl hold =>
    cases h win hold with
    | inl hgone => exact .inl (hgone.perform (hkept.epochs win hold) call)
    | inr hfollows => exact .inr (YGOProRoom.followsUp_perform hfollows hcause hother)
  | inr hnew =>
    cases call with
    | processDuelEnd duel winner engine =>
      exact .inr ⟨{ born := duel.state, work := .duelProcessed winner engine },
        List.mem_append_right _ (List.mem_singleton.mpr rfl), rfl⟩
    | _ => cases hnew

/-! ### What one input keeps -/

/-- What holds in the middle of an input. -/
structure Midway (pre p : Play) : Prop where
  kept : Kept p
  log : pre.room.log <+: p.room.log
  unmatched : p.room.currentMatch = none → pre.room.currentMatch = none

theorem midway_perform {call : Call} (hpre : Kept pre) (h : Midway pre p)
    (hguard : YGOProRoom.Guarded cfg pre.room input p.room call)
    (hcause : YGOProRoom.Caused cfg pre.room input p.room call)
    (hwins : ∀ duel winner, input = .engine duel (.win winner) →
      duel.matchId = pre.room.matchId) : Midway pre (p.perform cfg call) where
  kept := kept_perform hpre h.log h.unmatched h.kept hguard hcause hwins
  log := h.log.trans (YGOProRoom.log_prefix_perform call)
  unmatched := fun hmatch => h.unmatched (YGOProRoom.currentMatch_perform hmatch).1

/-- The calls of an input, with what holds when they are made. -/
theorem calls_allowed (cfg : RoomConfig) (p : Play) (input : RoomInput) :
    Allows (fun call p => perform cfg p call) (fun q call =>
      YGOProRoom.Guarded cfg p.room input q.room call ∧
        YGOProRoom.Caused cfg p.room input q.room call) p (p.room.calls cfg input) :=
  ((YGOProRoom.calls_guarded cfg p.room input).and
    (YGOProRoom.calls_caused cfg p.room input)).comap Play.room (fun _ _ => rfl)

theorem step_room (p : Play) (input : RoomInput) :
    (p.step cfg (.room input)).room = p.room.step cfg input :=
  performAll_map Play.room (fun _ _ => rfl) p _

/-- A WIN of an engine is of the match being played, or does nothing. -/
theorem wins_or_nothing (cfg : RoomConfig) (hok : WinsKept p (.room input)) :
    (∀ duel winner, input = .engine duel (.win winner) → duel.matchId = p.room.matchId) ∨
      p.room.calls cfg input = [] := by
  by_cases hwin : ∃ duel winner, input = .engine duel (.win winner)
  · obtain ⟨duel, winner, rfl⟩ := hwin
    simp only [YGOProRoom.calls, YGOProRoom.handleEngine, YGOProRoom.engineReports,
      YGOProRoom.handleWinCondition]
    split
    · rename_i hruns
      split
      · exact .inr rfl
      · rename_i hopen
        left
        intro other winner hinput
        cases hinput
        exact hok hruns (by simpa using hopen)
    · exact .inr rfl
  · left
    intro duel winner hinput
    exact absurd ⟨duel, winner, hinput⟩ hwin

/-- An input without calls only lets engines advance. -/
theorem step_nothing (h : p.room.calls cfg input = []) :
    p.step cfg (.room input) = p.advance := by
  simp only [step, h, performAll_nil]

theorem kept_step (h : Kept p) (hok : WinsKept p (.room input)) :
    Kept (p.step cfg (.room input)) := by
  obtain hwins | hnothing := wins_or_nothing cfg hok
  swap
  · rw [step_nothing hnothing]
    exact ⟨h.atHome, h.started, h.epochs, h.recorded, h.sent⟩
  have hall : Midway p (performAll (fun call p => perform cfg p call) p (p.room.calls cfg input)) :=
    (calls_allowed cfg p input).preserves
      (fun _ _ hq hcall => midway_perform h hq hcall.1 hcall.2 hwins)
      ⟨h, List.prefix_rfl, id⟩
  exact ⟨hall.kept.atHome, hall.kept.started, hall.kept.epochs, hall.kept.recorded, hall.kept.sent⟩

/-- Nothing that follows a WIN is resumed: what was to follow still is. -/
theorem followed_quiet (h : Kept p) (hfollowed : Followed p) (hok : WinsKept p (.room input))
    (hother : ∀ index result, input = .settled index result →
      ∀ k ∈ p.room.suspended[index]?, k.work.followsWin = false) :
    Followed (p.step cfg (.room input)) := by
  obtain hwins | hnothing := wins_or_nothing cfg hok
  swap
  · rw [step_nothing hnothing]
    exact hfollowed
  have hall := (calls_allowed cfg p input).preserves
    (P := fun q : Play => Midway p q ∧ Followed q)
    (fun q call hq hcall => ⟨midway_perform h hq.1 hcall.1 hcall.2 hwins,
      followed_perform hq.1.kept hq.2 hcall.2 hother⟩)
    ⟨⟨h, List.prefix_rfl, id⟩, hfollowed⟩
  exact hall.2

/-- Something that follows a WIN is resumed: the room gets out of the duel, or is about to. -/
theorem followed_resumed (hok : WinsKept p (.room input)) {index : Nat} {result : Settled}
    (hinput : input = .settled index result) {k : Deferred Continuation}
    (hk : p.room.suspended[index]? = some k) (hfollows : k.work.followsWin = true) :
    Followed (p.step cfg (.room input)) := by
  have hroom : (p.step cfg (.room input)).room = p.room.step cfg (.settled index result) := by
    rw [step_room, hinput]
  have hphase : (p.room.step cfg (.settled index result)).duelState ≠ .dueling ∨
      (p.room.step cfg (.settled index result)).finalizing = true ∨
      YGOProRoom.FollowsUp (p.room.step cfg (.settled index result)) := by
    cases hkeeps : k.work.keepsWin result with
    | true => exact YGOProRoom.settled_follows hk hfollows hkeeps
    | false =>
      -- dropping it is harmless, since the room is in no duel
      left
      intro hdueling
      rw [YGOProRoom.settled_dropped hk hkeeps] at hdueling
      rw [hinput] at hok
      rw [hok hdueling k hk] at hkeeps
      cases hkeeps
  intro win _
  rw [hroom]
  obtain hleft | hfinal | hmore := hphase
  · exact .inl (.inr (.inl hleft))
  · exact .inl (.inr (.inr hfinal))
  · exact .inr hmore

theorem followed_step (h : Kept p) (hfollowed : Followed p) (hok : WinsKept p (.room input)) :
    Followed (p.step cfg (.room input)) := by
  by_cases hresumes : ∃ index result k, input = .settled index result ∧
      p.room.suspended[index]? = some k ∧ k.work.followsWin = true
  · obtain ⟨index, result, k, hinput, hk, hfollows⟩ := hresumes
    exact followed_resumed hok hinput hk hfollows
  · apply followed_quiet h hfollowed hok
    intro index result hinput k hk
    by_contra hfollows
    exact hresumes ⟨index, result, k, hinput, hk, by simpa using hfollows⟩

/-- An engine that fails late shows a WIN that is settled already. -/
theorem failed_step (h : Kept p) (hfollowed : Followed p) {core : Core}
    (hok : WinsKept p (.advanceFails core)) :
    Kept (p.step cfg (.advanceFails core)) ∧ Followed (p.step cfg (.advanceFails core)) := by
  simp only [step]
  split
  · rename_i hadvanced
    obtain ⟨hrecorded, hscored⟩ := hok hadvanced
    have hcores : ∀ core' ∈ (p.handleAdvanceError cfg core).room.cores, core' ∈ p.room.cores :=
      fun _ hcore => List.mem_of_mem_filter hcore
    refine ⟨⟨⟨h.atHome.length, h.atHome.phase, h.atHome.queue, h.atHome.held, h.atHome.suspended,
      h.atHome.initialized, fun c hc => h.atHome.cores c (hcores c hc)⟩, h.started, ?_, ?_, ?_⟩, ?_⟩
    · intro win hwin
      cases List.mem_append.mp hwin with
      | inl hold => exact h.epochs win hold
      | inr hnew => exact le_of_eq (by rw [List.mem_singleton.mp hnew]; rfl)
    · intro duel
      have hshown : Shown (p.handleAdvanceError cfg core) duel ↔ Shown p duel ∨ core = duel := by
        simp [Shown, handleAdvanceError, or_and_right, exists_or]
      have hsame : Recorded (p.handleAdvanceError cfg core) duel ↔ Recorded p duel := Iff.rfl
      rw [hshown, hsame, h.recorded duel]
      constructor
      · intro hduel
        cases hduel with
        | inl hold => exact hold
        | inr hnew => exact hnew ▸ hrecorded
      · exact .inl
    · intro result hresult
      obtain ⟨win, hwin, hepoch⟩ := h.sent result hresult
      exact ⟨win, List.mem_append_left _ hwin, hepoch⟩
    · intro win hwin
      have hold : ∀ win ∈ p.shown, Gone p.room win ∨ p.room.FollowsUp := hfollowed
      cases List.mem_append.mp hwin with
      | inl hmem => exact hold win hmem
      | inr hnew =>
        rw [List.mem_singleton.mp hnew]
        by_cases hdueling : p.room.duelState = .dueling
        · obtain ⟨result, hresult, hepoch⟩ := hscored hdueling
          obtain ⟨earlier, hearlier, hsame⟩ := h.sent result hresult
          cases hold earlier hearlier with
          | inl hgone =>
            have hnow : earlier.epoch = p.room.epoch := hsame.trans hepoch
            obtain hpast | hphase := hgone
            · omega
            · exact .inl (.inr hphase)
          | inr hfollows => exact .inr hfollows
        · exact .inl (.inr (.inl hdueling))
  · exact ⟨h, hfollowed⟩

/-! ### Runs -/

theorem create_kept (outside : Outside) : Kept (create cfg outside) where
  atHome := YGOProRoom.create_atHome outside
  started := fun _ => rfl
  epochs := by simp [create]
  recorded := by simp [Shown, Recorded, create]
  sent := by simp [create]

/-- While no engine fails in a duel that is not scored, and nothing that follows a WIN is dropped,
every WIN the players see is settled. -/
theorem wins_settled (cfg : RoomConfig) (p : Play) (h : Runs cfg WinsKept p) :
    WinsSettled cfg p := by
  have hboth : Kept p ∧ Followed p := by
    apply Reached.invariant (P := fun p => Kept p ∧ Followed p) _ _ h
    · intro s hs
      obtain ⟨outside, rfl⟩ := hs
      exact ⟨create_kept outside, by simp [Followed, create]⟩
    · intro s input hs hok
      cases input with
      | room input => exact ⟨kept_step hs.1 hok, followed_step hs.1 hs.2 hok⟩
      | advanceFails core => exact failed_step hs.1 hs.2 hok
  refine ⟨hboth.1.recorded, ?_⟩
  intro win hwin
  have hle := hboth.1.epochs win hwin
  cases hboth.2 win hwin with
  | inl hgone =>
    obtain hpast | hphase | hfinal := hgone
    · exact .inl hpast
    · exact hle.lt_or_eq.imp id (fun he => ⟨he, .left hphase⟩)
    · exact hle.lt_or_eq.imp id (fun he => ⟨he, .closed hfinal⟩)
  | inr hfollows => exact hle.lt_or_eq.imp id (fun he => ⟨he, hfollows.leaves⟩)

instance (p : Play) : (input : PlayInput) → Decidable (WinsKept p input)
  | .advanceFails _ => inferInstanceAs (Decidable (_ → _ ∧ (_ → _)))
  | .room (.engine _ (.win _)) => inferInstanceAs (Decidable (_ → _ → _))
  | .room (.settled index _) =>
    inferInstanceAs (Decidable (_ → ∀ k ∈ p.room.suspended[index]?, _))
  | .room (.join _) | .room (.matchAdmit _) | .room (.botJoin _) | .room (.expressReconnect _ _)
  | .room (.message _ _) | .room .grant | .room (.answered _) | .room .lookupFailed
  | .room (.engine _ (.newTurn _)) | .room (.engine _ (.damage _ _))
  | .room (.engine _ (.recover _ _)) | .room (.engine _ (.payLpCost _ _))
  | .room (.finishDuelByTimeout _) | .room (.sideTimeout _) | .room (.graceOver _)
  | .room (.disconnect _) | .room .lobbyTimeout | .room .closeRoom =>
    inferInstanceAs (Decidable True)

/-- The first duel of a match of two guests. -/
def firstDuel : Core := { state := 3, matchId := 1, duel := 1 }

def duelRuns : List PlayInput :=
  (YGOProRoom.guestsReady ++ YGOProRoom.duelBegins).map PlayInput.room

/-- The engine reports a WIN, and fails once its duel is scored. -/
def winReported : List PlayInput :=
  duelRuns ++ [.room (.engine firstDuel (.win (some .player))), .room (.settled 0 .done),
    .advanceFails firstDuel]

theorem wins_settled_reported :
    WinsSettled YGOProRoom.casualRoom (after YGOProRoom.casualRoom winReported) ∧
      (after YGOProRoom.casualRoom winReported).shown =
        [{ duel := firstDuel, epoch := 3 }, { duel := firstDuel, epoch := 4 }] :=
  ⟨wins_settled YGOProRoom.casualRoom _ (Runs.after (by decide +kernel)), by decide +kernel⟩

/-- The engine fails while the duel is played. -/
def engineFails : List PlayInput := duelRuns ++ [.advanceFails firstDuel]

theorem engineFails_ends :
    (after YGOProRoom.casualRoom engineFails).shown = [{ duel := firstDuel, epoch := 3 }] ∧
      (after YGOProRoom.casualRoom engineFails).recorded = [] ∧
      (after YGOProRoom.casualRoom engineFails).room.duelState = .dueling ∧
      (after YGOProRoom.casualRoom engineFails).room.suspended.isEmpty = true := by
  decide +kernel

/-- The players see a WIN that is recorded nowhere, and nothing takes the room out of the duel. -/
theorem wins_not_settled : ∃ p, Runs YGOProRoom.casualRoom (fun _ _ => True) p ∧
    ¬ WinsSettled YGOProRoom.casualRoom p ∧ p.room.duelState = .dueling ∧
      p.room.suspended.isEmpty = true := by
  have hends := engineFails_ends
  refine ⟨_, runs_after _ engineFails, ?_, hends.2.2⟩
  intro h
  have hshown : Shown (after YGOProRoom.casualRoom engineFails) firstDuel := by
    refine ⟨{ duel := firstDuel, epoch := 3 }, ?_, rfl⟩
    rw [hends.1]
    exact List.mem_singleton.mpr rfl
  obtain ⟨result, hresult, _⟩ := (h.recorded firstDuel).mp hshown
  rw [hends.2.1] at hresult
  cases hresult

end Play

end EdoproServer.Room
