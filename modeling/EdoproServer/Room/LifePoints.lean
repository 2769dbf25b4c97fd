import EdoproServer.Engine.OCGCore
import EdoproServer.Room.Match

namespace EdoproServer.Room
open Engine

/-! ## What the engine says about life points -/

/-- The events of the engine that change the life points of a side. -/
inductive LpEvent where
  | damage (player : Side) (value : Nat)
  | recover (player : Side) (value : Nat)
  | payLpCost (player : Side) (cost : Nat)
  deriving DecidableEq, Repr

/-- The life points the engine keeps for its sides. They may fall below zero. -/
abbrev EngineLps := Side → Int

namespace EngineLps

def startDuel (startLp : Nat) : EngineLps := fun _ => startLp

def add (lps : EngineLps) (side : Side) (amount : Int) : EngineLps :=
  fun s => if s = side then lps s + amount else lps s

def apply (lps : EngineLps) : LpEvent → EngineLps
  | .damage player value => lps.add player (-value)
  | .recover player value => lps.add player value
  | .payLpCost player cost => lps.add player (-cost)

end EngineLps

/-! ## What the room keeps -/

theorem side_eq_zero_or_one : ∀ side : Side, side = 0 ∨ side = 1 := by decide

/-- A side read as a team, by its number. -/
def teamOfNumber (side : Side) : Team := if side = 0 then .player else .opponent

/-- The side a team plays. Only the two playing teams have one. -/
def getTeamSide (table : DuelTable) (team : Team) : Side :=
  let side : Side := if team = .player then 0 else 1
  if table.isPositionSwapped then 1 - side else side

/-- The team whose life points an event of a side changes. -/
def resolveTeam (table : DuelTable) (side : Side) : Team :=
  if table.isTag then teamOfNumber side else table.getSideTeam side

namespace Duel

def lps (duel : Duel) : Team → Nat
  | .player => duel.playerLps
  | _ => duel.opponentLps

/-- The life-point handlers of the dueling state. -/
def handleLpEvent (table : DuelTable) (duel : Duel) : LpEvent → Duel
  | .damage player value => duel.decreaseLps (resolveTeam table player) value
  | .recover player value => duel.increaseLps (resolveTeam table player) value
  | .payLpCost player cost => duel.decreaseLps (resolveTeam table player) cost

/-- Every team shows the life points of the side it plays, clamped at zero. -/
def ShowsLps (table : DuelTable) (duel : Duel) (engine : EngineLps) : Prop :=
  ∀ team, team ≠ .spectator → duel.lps team = (engine (getTeamSide table team)).toNat

/-- The room shows the life points of the engine after every event of a sequence. -/
def Tracks (table : DuelTable) (duel : Duel) (engine : EngineLps) (events : List LpEvent) : Prop :=
  ∀ n ≤ events.length,
    ShowsLps table ((events.take n).foldl (handleLpEvent table) duel)
      ((events.take n).foldl EngineLps.apply engine)

end Duel

/-! ## When the two agree -/

namespace LpEvent

def side : LpEvent → Side
  | .damage player _ => player
  | .recover player _ => player
  | .payLpCost player _ => player

def amount : LpEvent → Nat
  | .damage _ value => value
  | .recover _ value => value
  | .payLpCost _ cost => cost

def isRecover : LpEvent → Bool
  | .recover _ _ => true
  | _ => false

/-- A recovery finds its side at zero or above. In a tag duel with swapped positions nothing
changes: there is nothing to lose on either side. -/
def Followed (table : DuelTable) (engine : EngineLps) (event : LpEvent) : Prop :=
  event.amount = 0 ∨
    (event.isRecover = true → 0 ≤ engine event.side) ∧
      (table.isTag = true → table.isPositionSwapped = true →
        event.isRecover = false ∧ ∀ s, engine s ≤ 0)

/-- Every event of a sequence is followed, in the state the engine is in by then. -/
def AllFollowed (table : DuelTable) : EngineLps → List LpEvent → Prop
  | _, [] => True
  | engine, event :: events =>
    event.Followed table engine ∧ AllFollowed table (engine.apply event) events

end LpEvent

namespace Duel

variable {table : DuelTable} {duel : Duel} {engine : EngineLps}

theorem tracks_nil : Tracks table duel engine [] ↔ ShowsLps table duel engine := by
  simp [Tracks]

theorem tracks_cons {event : LpEvent} {events : List LpEvent} :
    Tracks table duel engine (event :: events) ↔
      ShowsLps table duel engine ∧
        Tracks table (duel.handleLpEvent table event) (engine.apply event) events := by
  constructor
  · intro h
    refine ⟨h 0 (Nat.zero_le _), ?_⟩
    intro n hn
    exact h (n + 1) (Nat.succ_le_succ hn)
  · intro h n hn
    cases n with
    | zero => exact h.1
    | succ n => exact h.2 n (Nat.le_of_succ_le_succ hn)

/-- The two sides as the two teams show them. -/
theorem showsLps_iff :
    ShowsLps table duel engine ↔
      duel.playerLps = (engine (getTeamSide table .player)).toNat ∧
        duel.opponentLps = (engine (getTeamSide table .opponent)).toNat := by
  constructor
  · intro h
    exact ⟨h .player (by decide), h .opponent (by decide)⟩
  · intro h team hteam
    cases team with
    | player => exact h.1
    | opponent => exact h.2
    | spectator => exact absurd rfl hteam

theorem showsLps_startDuel (table : DuelTable) (duelId : DuelId) (startLp : Nat) :
    ShowsLps table (Duel.create duelId startLp) (EngineLps.startDuel startLp) := by
  rw [showsLps_iff]
  simp [Duel.create, EngineLps.startDuel]

/-- A loss reaches the team that plays the side, unless the positions of a tag duel are swapped. -/
theorem showsLps_decreaseLps (h : ShowsLps table duel engine) (side : Side) (value : Nat) :
    ShowsLps table (duel.decreaseLps (resolveTeam table side) value) (engine.add side (-value)) ↔
      value = 0 ∨
        (table.isTag = true → table.isPositionSwapped = true → ∀ s, engine s ≤ 0) := by
  obtain ⟨players, isTag, isPositionSwapped, hasTimeLimit⟩ := table
  rw [showsLps_iff] at h ⊢
  have hsides := side_eq_zero_or_one side
  -- The team that loses and the team that plays the side, in the four kinds of room.
  cases hsides with
  | inl hside =>
    subst hside
    cases isTag <;> cases isPositionSwapped <;>
      simp_all [resolveTeam, teamOfNumber, DuelTable.getSideTeam, getTeamSide, decreaseLps,
        EngineLps.add, Fin.forall_fin_two] <;> omega
  | inr hside =>
    subst hside
    cases isTag <;> cases isPositionSwapped <;>
      simp_all [resolveTeam, teamOfNumber, DuelTable.getSideTeam, getTeamSide, decreaseLps,
        EngineLps.add, Fin.forall_fin_two] <;> omega

/-- A gain is shown as it is only on top of life points that are shown as they are. -/
theorem showsLps_increaseLps (h : ShowsLps table duel engine) (side : Side) (value : Nat) :
    ShowsLps table (duel.increaseLps (resolveTeam table side) value) (engine.add side value) ↔
      value = 0 ∨ 0 ≤ engine side ∧ ¬(table.isTag = true ∧ table.isPositionSwapped = true) := by
  obtain ⟨players, isTag, isPositionSwapped, hasTimeLimit⟩ := table
  rw [showsLps_iff] at h ⊢
  have hsides := side_eq_zero_or_one side
  cases hsides with
  | inl hside =>
    subst hside
    cases isTag <;> cases isPositionSwapped <;>
      simp_all [resolveTeam, teamOfNumber, DuelTable.getSideTeam, getTeamSide, increaseLps,
        EngineLps.add] <;> omega
  | inr hside =>
    subst hside
    cases isTag <;> cases isPositionSwapped <;>
      simp_all [resolveTeam, teamOfNumber, DuelTable.getSideTeam, getTeamSide, increaseLps,
        EngineLps.add] <;> omega

/-- One event keeps the room in step exactly when it is followed. -/
theorem showsLps_step (h : ShowsLps table duel engine) (event : LpEvent) :
    ShowsLps table (duel.handleLpEvent table event) (engine.apply event) ↔
      event.Followed table engine := by
  cases event with
  | damage player value =>
    rw [handleLpEvent, EngineLps.apply, showsLps_decreaseLps h]
    simp [LpEvent.Followed, LpEvent.amount, LpEvent.isRecover]
  | recover player value =>
    rw [handleLpEvent, EngineLps.apply, showsLps_increaseLps h]
    simp [LpEvent.Followed, LpEvent.amount, LpEvent.isRecover, LpEvent.side]
  | payLpCost player cost =>
    rw [handleLpEvent, EngineLps.apply, showsLps_decreaseLps h]
    simp [LpEvent.Followed, LpEvent.amount, LpEvent.isRecover]

theorem tracks_iff (h : ShowsLps table duel engine) (events : List LpEvent) :
    Tracks table duel engine events ↔ LpEvent.AllFollowed table engine events := by
  induction events generalizing duel engine with
  | nil => simp [tracks_nil, LpEvent.AllFollowed, h]
  | cons event events ih =>
    rw [tracks_cons, LpEvent.AllFollowed]
    constructor
    · intro ht
      have hstep : ShowsLps table (duel.handleLpEvent table event) (engine.apply event) :=
        ht.2 0 (Nat.zero_le _)
      exact ⟨(showsLps_step h event).mp hstep, (ih hstep).mp ht.2⟩
    · intro hf
      have hstep := (showsLps_step h event).mpr hf.1
      exact ⟨h, (ih hstep).mpr hf.2⟩

/-- The life points the room keeps in a duel are those of the engine, after every event, exactly
when every event is followed. -/
theorem lps_track_engine_iff (table : DuelTable) (duelId : DuelId) (startLp : Nat)
    (events : List LpEvent) :
    Tracks table (Duel.create duelId startLp) (EngineLps.startDuel startLp) events ↔
      LpEvent.AllFollowed table (EngineLps.startDuel startLp) events :=
  tracks_iff (showsLps_startDuel table duelId startLp) events

/-- A tag duel that the second team opens: damage to the side of the first engine player is taken
off the wrong team. -/
theorem swappedTag_damage :
    ¬Tracks { players := [], isTag := true, isPositionSwapped := true, hasTimeLimit := true }
      (Duel.create 0 16000) (EngineLps.startDuel 16000) [.damage 0 1000] := by
  rw [tracks_iff (showsLps_startDuel _ 0 16000)]
  intro h
  have hlast := h.1
  simp [LpEvent.Followed, LpEvent.amount, EngineLps.startDuel, LpEvent.isRecover] at hlast

end Duel

end EdoproServer.Room
