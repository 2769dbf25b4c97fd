import EdoproServer.Lib.Actions
import EdoproServer.Stats.History

namespace EdoproServer.Stats
open Lib

/-! ## What is announced of a match -/

structure MatchContextPlayer where
  id : Option UserId
  team : Team
  name : String
  winner : Bool
  deriving DecidableEq, Repr

/-- `room` is the room that `announce` reaches. Its number `roomId` is used again once it closed,
and a `matchId`, which is a UUID, never is. -/
structure MatchContext where
  room : Nat
  roomId : Nat
  matchId : Nat
  ranked : Bool
  banListName : String
  season : Int
  players : List MatchContextPlayer
  deriving DecidableEq, Repr

structure MatchRatingSnapshot where
  ratings : InsertionMap UserId Rating
  rankId : String
  season : Int

def MatchRatingSnapshot.ratingFor (snapshot : MatchRatingSnapshot) (userId : UserId) :
    Option Rating := snapshot.ratings.get userId

structure RatingAnnouncementEntry where
  name : String
  rating : Int
  deriving DecidableEq, Repr

structure RatingAnnouncementDeltaEntry extends RatingAnnouncementEntry where
  delta : Int
  deriving DecidableEq, Repr

/-- The first team always comes before the second. -/
def TEAM_ORDER : List Team := [.player, .opponent]

def groupByTeam {α : Type} (players : List RatedMatchPlayer) (mapEntry : RatedMatchPlayer → α) :
    List (List α) :=
  TEAM_ORDER.map (fun team => (players.filter (fun player => player.team = team)).map mapEntry)

def startTeams (snapshot : MatchRatingSnapshot) (players : List RatedMatchPlayer) :
    List (List RatingAnnouncementEntry) :=
  groupByTeam players (fun player =>
    { name := player.name, rating := ((snapshot.ratingFor player.id).getD Rating.initial).value })

/-- The delta is the one that the rating floor lets through. Without opponents it is no number. -/
def endTeams (curve : EloCurve) (snapshot : MatchRatingSnapshot)
    (players : List RatedMatchPlayer) :
    Except String (List (List RatingAnnouncementDeltaEntry)) := do
  let ratedPlayers := players.map (fun player =>
    { id := player.id, team := player.team, winner := player.winner : RatedPlayer })
  let startRatings := InsertionMap.ofList (players.map (fun player =>
    (player.id, (snapshot.ratingFor player.id).getD Rating.initial)))
  let deltas ← EloCalculator.deltasFor curve ratedPlayers startRatings
  let deltaByUserId := InsertionMap.ofList (deltas.map (fun delta => (delta.userId, delta)))
  return groupByTeam players (fun player =>
    let delta := deltaByUserId.get player.id
    let startRating := (startRatings.get player.id).getD Rating.initial
    let magnitude := (delta.map (fun delta => startRating.effectiveDelta delta.delta)).getD 0
    { name := player.name,
      rating := (delta.map RatingDelta.previousRating).getD 0 + magnitude, delta := magnitude })

/-- The players of an eligible match. -/
def MatchContext.eligible (ctx : MatchContext) : Option (String × List RatedMatchPlayer) :=
  let eligibility := evaluateRatingEligibility
    { matchId := toString ctx.matchId, ranked := ctx.ranked, banListName := ctx.banListName,
      players := ctx.players.map (fun player =>
        { id := player.id, name := player.name, team := player.team, winner := player.winner,
          games := [] }) }
  match eligibility with
  | .eligible banListName players => some (banListName, players)
  | _ => none

/-! ## The announcer -/

/-- The alias-resolved name of a list and the groups it feeds. It may raise. -/
abbrev RankGroups := String → Option (String × List RankName)

/-- A rating lookup under way. A rank that belongs to a group is looked up as one. -/
structure RatingLookup where
  ctx : MatchContext
  players : List RatedMatchPlayer
  rankName : RankName
  isGroup : Bool
  deriving DecidableEq, Repr

inductive AnnouncerEntry where
  | start (ctx : MatchContext) (snapshot : MatchRatingSnapshot)
    (teams : List (List RatingAnnouncementEntry))
  | ending (ctx : MatchContext)
    (teams : Except String (List (List RatingAnnouncementDeltaEntry)))
  | warned (roomId : Nat)
  | closed (room : Nat)

/-- `lookups` are the lookups under way, and `log` is what was announced. -/
structure RatingAnnouncer where
  snapshots : InsertionMap Nat MatchRatingSnapshot
  matchIdByRoom : InsertionMap Nat Nat
  lookups : List RatingLookup
  log : List AnnouncerEntry

namespace RatingAnnouncer

def new : RatingAnnouncer :=
  { snapshots := .empty, matchIdByRoom := .empty, lookups := [], log := [] }

def write (entry : AnnouncerEntry) (announcer : RatingAnnouncer) : RatingAnnouncer :=
  { announcer with log := announcer.log ++ [entry] }

/-- A match that reuses the number of a room discards the match before it. -/
def discardOther (roomId : Nat) (announcer : RatingAnnouncer) : RatingAnnouncer :=
  match announcer.matchIdByRoom.get roomId with
  | none => announcer
  | some trackedMatchId =>
    { announcer with
      snapshots := announcer.snapshots.delete trackedMatchId
      matchIdByRoom := announcer.matchIdByRoom.delete roomId }

/-- The claim of a room's number is released if it is the match's own. -/
def release (roomId : Nat) (matchId : Nat) (announcer : RatingAnnouncer) : RatingAnnouncer :=
  if announcer.matchIdByRoom.get roomId = some matchId then
    { announcer with matchIdByRoom := announcer.matchIdByRoom.delete roomId }
  else announcer

def lookupFailed (ctx : MatchContext) (announcer : RatingAnnouncer) : RatingAnnouncer :=
  (announcer.write (.warned ctx.roomId)).release ctx.roomId ctx.matchId

/-- The room's number is claimed before the ratings are looked up. -/
def lookUp (groups : RankGroups) (ctx : MatchContext) (announcer : RatingAnnouncer) :
    RatingAnnouncer :=
  match ctx.eligible with
  | none => announcer
  | some (banListName, players) =>
    let announcer :=
      { announcer with matchIdByRoom := announcer.matchIdByRoom.set ctx.roomId ctx.matchId }
    match groups banListName with
    | none => announcer.lookupFailed ctx
    | some (banListName, groups) =>
      { announcer with
        lookups := announcer.lookups ++
          [{ ctx := ctx, players := players, rankName := groups.head?.getD banListName,
             isGroup := groups.head?.isSome }] }

def onMatchStarted (groups : RankGroups) (ctx : MatchContext) (announcer : RatingAnnouncer) :
    RatingAnnouncer :=
  if announcer.matchIdByRoom.get ctx.roomId = some ctx.matchId then announcer
  else (announcer.discardOther ctx.roomId).lookUp groups ctx

/-- The ratings of a lookup, or none if it failed. -/
abbrev LookupResult := Option (String × InsertionMap UserId Rating)

/-- What the lookup is for may have closed or moved on. -/
def lookupSettled (lookup : RatingLookup) (result : LookupResult) (announcer : RatingAnnouncer) :
    RatingAnnouncer :=
  match result with
  | none => announcer.lookupFailed lookup.ctx
  | some (rankId, ratings) =>
    if announcer.matchIdByRoom.get lookup.ctx.roomId ≠ some lookup.ctx.matchId then announcer
    else
      let snapshot : MatchRatingSnapshot :=
        { ratings := ratings, rankId := rankId, season := lookup.ctx.season }
      ({ announcer with
          snapshots := announcer.snapshots.set lookup.ctx.matchId snapshot }).write
        (.start lookup.ctx snapshot (startTeams snapshot lookup.players))

def onMatchEnding (curve : EloCurve) (ctx : MatchContext) (announcer : RatingAnnouncer) :
    RatingAnnouncer :=
  let snapshot := announcer.snapshots.get ctx.matchId
  let announcer := ({ announcer with
    snapshots := announcer.snapshots.delete ctx.matchId }).release ctx.roomId ctx.matchId
  match snapshot with
  | none => announcer
  | some snapshot =>
    match ctx.eligible with
    | none => announcer
    | some (_, players) => announcer.write (.ending ctx (endTeams curve snapshot players))

def onRoomClosed (roomId : Nat) (matchId : Nat) (announcer : RatingAnnouncer) :
    RatingAnnouncer :=
  ({ announcer with snapshots := announcer.snapshots.delete matchId }).release roomId matchId

/-- The lookup at the place settles. -/
def settle (k : Nat) (result : LookupResult) (announcer : RatingAnnouncer) : RatingAnnouncer :=
  match announcer.lookups[k]? with
  | none => announcer
  | some lookup =>
    ({ announcer with lookups := announcer.lookups.eraseIdx k }).lookupSettled lookup result

end RatingAnnouncer

/-! ## Rooms and their matches -/

structure AnnouncedRoom where
  roomId : Nat
  matchId : Nat
  live : Bool
  ended : Bool
  deriving DecidableEq, Repr

structure MatchDetails where
  ranked : Bool
  banListName : String
  season : Int
  players : List MatchContextPlayer
  deriving DecidableEq, Repr

structure AnnouncedRooms extends RatingAnnouncer where
  rooms : List AnnouncedRoom
  nextMatchId : Nat

inductive RoomEvent where
  | opened (roomId : Nat)
  | newMatch (room : Nat) (details : MatchDetails) (groups : RankGroups)
  | started (room : Nat) (details : MatchDetails) (groups : RankGroups)
  | ending (room : Nat) (details : MatchDetails)
  | closed (room : Nat)
  | settled (lookup : Nat) (result : RatingAnnouncer.LookupResult)

def AnnouncedRoom.context (r : AnnouncedRoom) (room : Nat) (details : MatchDetails) :
    MatchContext :=
  { room := room, roomId := r.roomId, matchId := r.matchId, ranked := details.ranked,
    banListName := details.banListName, season := details.season, players := details.players }

namespace AnnouncedRooms

def new : AnnouncedRooms := { RatingAnnouncer.new with rooms := [], nextMatchId := 0 }

def hook (f : RatingAnnouncer → RatingAnnouncer) (rooms : AnnouncedRooms) : AnnouncedRooms :=
  { rooms with toRatingAnnouncer := f rooms.toRatingAnnouncer }

/-- A room's number is not that of a live room. -/
def opened (roomId : Nat) (rooms : AnnouncedRooms) : AnnouncedRooms :=
  if rooms.rooms.any (fun r => r.live && r.roomId = roomId) then rooms
  else
    { rooms with
      rooms := rooms.rooms ++
        [{ roomId := roomId, matchId := rooms.nextMatchId, live := true, ended := false }]
      nextMatchId := rooms.nextMatchId + 1 }

def setRoom (room : Nat) (r : AnnouncedRoom) (rooms : AnnouncedRooms) : AnnouncedRooms :=
  { rooms with rooms := rooms.rooms.set room r }

/-- A new match has its start announced at once. -/
def newMatch (room : Nat) (r : AnnouncedRoom) (details : MatchDetails) (groups : RankGroups)
    (rooms : AnnouncedRooms) : AnnouncedRooms :=
  let r := { r with matchId := rooms.nextMatchId, ended := false }
  ({ rooms with nextMatchId := rooms.nextMatchId + 1 }.setRoom room r).hook
    (.onMatchStarted groups (r.context room details))

def ending (curve : EloCurve) (room : Nat) (r : AnnouncedRoom) (details : MatchDetails)
    (rooms : AnnouncedRooms) : AnnouncedRooms :=
  (rooms.setRoom room { r with ended := true }).hook
    (.onMatchEnding curve (r.context room details))

def closed (room : Nat) (r : AnnouncedRoom) (rooms : AnnouncedRooms) : AnnouncedRooms :=
  ((rooms.setRoom room { r with live := false }).hook (.onRoomClosed r.roomId r.matchId)).hook
    (.write (.closed room))

/-- What happens in a room that there is. -/
def inRoom (room : Nat) (f : AnnouncedRoom → AnnouncedRooms → AnnouncedRooms)
    (rooms : AnnouncedRooms) : AnnouncedRooms :=
  match rooms.rooms[room]? with
  | none => rooms
  | some r => f r rooms

def step (curve : EloCurve) : RoomEvent → AnnouncedRooms → AnnouncedRooms
  | .opened roomId => opened roomId
  | .newMatch room details groups =>
    inRoom room (fun r => newMatch room r details groups)
  | .started room details groups =>
    inRoom room (fun r => hook (.onMatchStarted groups (r.context room details)))
  | .ending room details => inRoom room (fun r => ending curve room r details)
  | .closed room => inRoom room (closed room)
  | .settled lookup result => hook (.settle lookup result)

/-- A match is started while its room is live and it has not ended. -/
def Orderly (rooms : AnnouncedRooms) : RoomEvent → Prop
  | .newMatch room _ _ => ∀ r ∈ rooms.rooms[room]?, r.live = true
  | .started room _ _ => ∀ r ∈ rooms.rooms[room]?, r.live = true ∧ r.ended = false
  | _ => True

instance (rooms : AnnouncedRooms) : ∀ event, Decidable (rooms.Orderly event)
  | .opened _ => inferInstanceAs (Decidable True)
  | .newMatch room _ _ => inferInstanceAs (Decidable (∀ r ∈ rooms.rooms[room]?, r.live = true))
  | .started room _ _ =>
    inferInstanceAs (Decidable (∀ r ∈ rooms.rooms[room]?, r.live = true ∧ r.ended = false))
  | .ending _ _ => inferInstanceAs (Decidable True)
  | .closed _ => inferInstanceAs (Decidable True)
  | .settled _ _ => inferInstanceAs (Decidable True)

end AnnouncedRooms

/-! ## What is announced -/

namespace AnnouncerEntry

def isStartOf (matchId : Nat) : AnnouncerEntry → Bool
  | .start ctx _ _ => ctx.matchId = matchId
  | _ => false

/-- The room that an announcement reaches. -/
def announcedIn : AnnouncerEntry → Option Nat
  | .start ctx _ _ => some ctx.room
  | .ending ctx _ => some ctx.room
  | _ => none

end AnnouncerEntry

def startsOf (log : List AnnouncerEntry) (matchId : Nat) : Nat :=
  log.countP (AnnouncerEntry.isStartOf matchId)

/-- One start for each match, an end from the ratings that its start took, and nothing in a room
after it closed. -/
structure Announced (curve : EloCurve) (log : List AnnouncerEntry) : Prop where
  once : ∀ matchId, startsOf log matchId ≤ 1
  own : ∀ before ctx teams after, log = before ++ .ending ctx teams :: after →
    ∃ ctx' snapshot teams' banListName players, .start ctx' snapshot teams' ∈ before ∧
      ctx'.matchId = ctx.matchId ∧ ctx.eligible = some (banListName, players) ∧
        teams = endTeams curve snapshot players
  silent : ∀ before room after, log = before ++ .closed room :: after →
    ∀ entry ∈ after, entry.announcedIn ≠ some room

section

variable {curve : EloCurve} {log : List AnnouncerEntry} {entry : AnnouncerEntry}

theorem startsOf_concat (log : List AnnouncerEntry) (entry : AnnouncerEntry) (matchId : Nat) :
    startsOf (log ++ [entry]) matchId = startsOf log matchId + (entry.isStartOf matchId).toNat := by
  rw [startsOf, startsOf, List.countP_append, List.countP_singleton]
  cases entry.isStartOf matchId <;> rfl

theorem Announced.concat (h : Announced curve log)
    (honce : ∀ matchId, entry.isStartOf matchId = true → startsOf log matchId = 0)
    (hown : ∀ ctx teams, entry = .ending ctx teams →
      ∃ ctx' snapshot teams' banListName players, .start ctx' snapshot teams' ∈ log ∧
        ctx'.matchId = ctx.matchId ∧ ctx.eligible = some (banListName, players) ∧
          teams = endTeams curve snapshot players)
    (hsilent : ∀ room, .closed room ∈ log → entry.announcedIn ≠ some room) :
    Announced curve (log ++ [entry]) where
  once := by
    intro matchId
    rw [startsOf_concat]
    cases hstart : entry.isStartOf matchId with
    | true =>
      rw [honce matchId hstart]
      decide
    | false => exact h.once matchId
  own := by
    intro before ctx teams after hsplit
    rcases split_concat hsplit with ⟨_, rfl, hlast⟩ | ⟨after', _, hlog⟩
    · exact hown ctx teams hlast
    · exact h.own before ctx teams after' hlog
  silent := by
    intro before room after hsplit entry' hentry'
    rcases split_concat hsplit with ⟨rfl, _, _⟩ | ⟨after', rfl, hlog⟩
    · cases hentry'
    · rcases List.mem_append.mp hentry' with hentry' | hentry'
      · exact h.silent before room after' hlog entry' hentry'
      · rw [List.mem_singleton.mp hentry']
        apply hsilent room
        rw [hlog]
        simp

end

/-! ## Rooms, claims and lookups -/

/-- The match of the room can still be announced. -/
def AnnouncedRoom.Active (r : AnnouncedRoom) : Prop := r.live = true ∧ r.ended = false

/-- Live rooms have numbers of their own, and no two rooms have had the same match. -/
structure Registered (rooms : List AnnouncedRoom) (nextMatchId : Nat) : Prop where
  ids : ∀ (i j : Nat) (r q : AnnouncedRoom), rooms[i]? = some r → rooms[j]? = some q →
    r.live = true → q.live = true → r.roomId = q.roomId → i = j
  matchIds : ∀ (i j : Nat) (r q : AnnouncedRoom), rooms[i]? = some r → rooms[j]? = some q →
    r.matchId = q.matchId → i = j
  fresh : ∀ (i : Nat) (r : AnnouncedRoom), rooms[i]? = some r → r.matchId < nextMatchId

namespace Registered

variable {rooms : List AnnouncedRoom} {nextMatchId : Nat} {i j : Nat} {r r' q : AnnouncedRoom}

theorem getElem?_set_iff (hi : rooms[i]? = some r) :
    (rooms.set i r')[j]? = some q ↔ j = i ∧ q = r' ∨ j ≠ i ∧ rooms[j]? = some q := by
  by_cases hji : j = i
  · subst hji
    rw [List.getElem?_set_self (List.getElem?_eq_some_iff.mp hi).1]
    simp [eq_comm]
  · rw [List.getElem?_set_ne (Ne.symm hji)]
    simp [hji]

/-- A room that closes or whose match ends. -/
theorem set (h : Registered rooms nextMatchId) (hi : rooms[i]? = some r)
    (hroomId : r'.roomId = r.roomId) (hmatchId : r'.matchId = r.matchId)
    (hlive : r'.live = true → r.live = true) : Registered (rooms.set i r') nextMatchId where
  ids := by
    intro j k q q' hj hk hq hq' hids
    rcases (getElem?_set_iff hi).mp hj with ⟨rfl, rfl⟩ | ⟨_, hold⟩
    · rcases (getElem?_set_iff hi).mp hk with ⟨rfl, rfl⟩ | ⟨_, hold'⟩
      · rfl
      · exact h.ids _ _ _ _ hi hold' (hlive hq) hq' (hroomId ▸ hids)
    · rcases (getElem?_set_iff hi).mp hk with ⟨rfl, rfl⟩ | ⟨_, hold'⟩
      · exact h.ids _ _ _ _ hold hi hq (hlive hq') (hroomId ▸ hids)
      · exact h.ids _ _ _ _ hold hold' hq hq' hids
  matchIds := by
    intro j k q q' hj hk hids
    rcases (getElem?_set_iff hi).mp hj with ⟨rfl, rfl⟩ | ⟨_, hold⟩
    · rcases (getElem?_set_iff hi).mp hk with ⟨rfl, rfl⟩ | ⟨_, hold'⟩
      · rfl
      · exact h.matchIds _ _ _ _ hi hold' (hmatchId ▸ hids)
    · rcases (getElem?_set_iff hi).mp hk with ⟨rfl, rfl⟩ | ⟨_, hold'⟩
      · exact h.matchIds _ _ _ _ hold hi (hmatchId ▸ hids)
      · exact h.matchIds _ _ _ _ hold hold' hids
  fresh := by
    intro j q hj
    rcases (getElem?_set_iff hi).mp hj with ⟨rfl, rfl⟩ | ⟨_, hold⟩
    · rw [hmatchId]
      exact h.fresh _ _ hi
    · exact h.fresh _ _ hold

theorem newMatch (h : Registered rooms nextMatchId) (hi : rooms[i]? = some r)
    (hroomId : r'.roomId = r.roomId) (hmatchId : r'.matchId = nextMatchId)
    (hlive : r.live = true) : Registered (rooms.set i r') (nextMatchId + 1) where
  ids := by
    intro j k q q' hj hk hq hq' hids
    rcases (getElem?_set_iff hi).mp hj with ⟨rfl, rfl⟩ | ⟨_, hold⟩
    · rcases (getElem?_set_iff hi).mp hk with ⟨rfl, rfl⟩ | ⟨_, hold'⟩
      · rfl
      · exact h.ids _ _ _ _ hi hold' hlive hq' (hroomId ▸ hids)
    · rcases (getElem?_set_iff hi).mp hk with ⟨rfl, rfl⟩ | ⟨_, hold'⟩
      · exact h.ids _ _ _ _ hold hi hq hlive (hroomId ▸ hids)
      · exact h.ids _ _ _ _ hold hold' hq hq' hids
  matchIds := by
    intro j k q q' hj hk hids
    rcases (getElem?_set_iff hi).mp hj with ⟨rfl, rfl⟩ | ⟨_, hold⟩
    · rcases (getElem?_set_iff hi).mp hk with ⟨rfl, rfl⟩ | ⟨_, hold'⟩
      · rfl
      · have hlt := h.fresh _ _ hold'
        omega
    · rcases (getElem?_set_iff hi).mp hk with ⟨rfl, rfl⟩ | ⟨_, hold'⟩
      · have hlt := h.fresh _ _ hold
        omega
      · exact h.matchIds _ _ _ _ hold hold' hids
  fresh := by
    intro j q hj
    rcases (getElem?_set_iff hi).mp hj with ⟨rfl, rfl⟩ | ⟨_, hold⟩
    · omega
    · have hlt := h.fresh _ _ hold
      omega

theorem getElem?_concat_iff :
    (rooms ++ [r])[j]? = some q ↔ rooms[j]? = some q ∨ j = rooms.length ∧ q = r := by
  rcases Nat.lt_trichotomy j rooms.length with hlt | rfl | hgt
  · rw [List.getElem?_append_left hlt]
    simp [Nat.ne_of_lt hlt]
  · simp [eq_comm]
  · have hnone : (rooms ++ [r])[j]? = none := by
      apply List.getElem?_eq_none
      simp only [List.length_append, List.length_singleton]
      omega
    rw [hnone, List.getElem?_eq_none (Nat.le_of_lt hgt)]
    simp [Nat.ne_of_gt hgt]

theorem opened (h : Registered rooms nextMatchId) (hmatchId : r.matchId = nextMatchId)
    (hfree : ∀ (i : Nat) (q : AnnouncedRoom), rooms[i]? = some q → q.live = true →
      q.roomId ≠ r.roomId) :
    Registered (rooms ++ [r]) (nextMatchId + 1) where
  ids := by
    intro j k q q' hj hk hq hq' hids
    rcases getElem?_concat_iff.mp hj with hold | ⟨rfl, rfl⟩
    · rcases getElem?_concat_iff.mp hk with hold' | ⟨rfl, rfl⟩
      · exact h.ids _ _ _ _ hold hold' hq hq' hids
      · exact absurd hids (hfree _ _ hold hq)
    · rcases getElem?_concat_iff.mp hk with hold' | ⟨rfl, rfl⟩
      · exact absurd hids.symm (hfree _ _ hold' hq')
      · rfl
  matchIds := by
    intro j k q q' hj hk hids
    rcases getElem?_concat_iff.mp hj with hold | ⟨rfl, rfl⟩
    · rcases getElem?_concat_iff.mp hk with hold' | ⟨rfl, rfl⟩
      · exact h.matchIds _ _ _ _ hold hold' hids
      · have hlt := h.fresh _ _ hold
        omega
    · rcases getElem?_concat_iff.mp hk with hold' | ⟨rfl, rfl⟩
      · have hlt := h.fresh _ _ hold'
        omega
      · rfl
  fresh := by
    intro j q hj
    rcases getElem?_concat_iff.mp hj with hold | ⟨rfl, rfl⟩
    · have hlt := h.fresh _ _ hold
      omega
    · omega

end Registered

def lookupsOf (lookups : List RatingLookup) (matchId : Nat) : Nat :=
  lookups.countP (fun lookup => lookup.ctx.matchId = matchId)

theorem lookupsOf_concat (lookups : List RatingLookup) (lookup : RatingLookup) (matchId : Nat) :
    lookupsOf (lookups ++ [lookup]) matchId =
      lookupsOf lookups matchId + if lookup.ctx.matchId = matchId then 1 else 0 := by
  rw [lookupsOf, lookupsOf, List.countP_append, List.countP_singleton]
  simp

theorem lookupsOf_eraseIdx {lookups : List RatingLookup} {k : Nat} {lookup : RatingLookup}
    (hk : lookups[k]? = some lookup) (matchId : Nat) :
    lookupsOf lookups matchId =
      lookupsOf (lookups.eraseIdx k) matchId + if lookup.ctx.matchId = matchId then 1 else 0 := by
  obtain ⟨hlt, rfl⟩ := List.getElem?_eq_some_iff.mp hk
  have hperm := (List.getElem_cons_eraseIdx_perm hlt).countP_eq
    (fun lookup : RatingLookup => decide (lookup.ctx.matchId = matchId))
  rw [lookupsOf, ← hperm, List.countP_cons, lookupsOf]
  simp

/-- A number is claimed by the match of its live room, a snapshot is that of a claimed match whose
start was announced, and a claimed match is either looked up or announced, once. -/
structure Tracked (curve : EloCurve) (s : AnnouncedRooms) : Prop where
  registered : Registered s.rooms s.nextMatchId
  claims : ∀ n m, s.matchIdByRoom.get n = some m →
    ∃ (i : Nat) (r : AnnouncedRoom), s.rooms[i]? = some r ∧ r.Active ∧ r.roomId = n ∧
      r.matchId = m
  snapshots : ∀ m snapshot, s.snapshots.get m = some snapshot →
    (∃ n, s.matchIdByRoom.get n = some m) ∧ lookupsOf s.lookups m = 0 ∧
      ∃ ctx teams, .start ctx snapshot teams ∈ s.log ∧ ctx.matchId = m
  pending : ∀ (i : Nat) (r : AnnouncedRoom), s.rooms[i]? = some r → r.Active →
    lookupsOf s.lookups r.matchId + startsOf s.log r.matchId =
      if s.matchIdByRoom.get r.roomId = some r.matchId then 1 else 0
  owners : ∀ lookup ∈ s.lookups, ∀ (i : Nat) (r : AnnouncedRoom), s.rooms[i]? = some r →
    r.matchId = lookup.ctx.matchId → i = lookup.ctx.room ∧ r.roomId = lookup.ctx.roomId
  lookupsFresh : ∀ lookup ∈ s.lookups, lookup.ctx.matchId < s.nextMatchId
  startsFresh : ∀ m, s.nextMatchId ≤ m → startsOf s.log m = 0
  closed : ∀ room, .closed room ∈ s.log →
    ∃ r : AnnouncedRoom, s.rooms[room]? = some r ∧ r.live = false
  announced : Announced curve s.log

namespace Tracked

open RatingAnnouncer AnnouncedRooms

variable {curve : EloCurve} {s : AnnouncedRooms} {i : Nat} {r r' : AnnouncedRoom}

/-- The number of a live room is claimed by its own match or by none. -/
theorem claim_eq (h : Tracked curve s) (hi : s.rooms[i]? = some r) (hlive : r.live = true)
    {m : Nat} (hclaim : s.matchIdByRoom.get r.roomId = some m) :
    m = r.matchId ∧ r.Active := by
  obtain ⟨j, q, hj, hactive, hroomId, rfl⟩ := h.claims _ _ hclaim
  have hji := h.registered.ids _ _ _ _ hj hi hactive.1 hlive hroomId
  subst hji
  rw [hi, Option.some_inj] at hj
  subst hj
  exact ⟨rfl, hactive⟩

/-- The match of a claim, a snapshot's too, is that of the room with the match. -/
theorem claimed_active (h : Tracked curve s) (hi : s.rooms[i]? = some r) {n : Nat}
    (hclaim : s.matchIdByRoom.get n = some r.matchId) : r.Active ∧ r.roomId = n := by
  obtain ⟨j, q, hj, hactive, hroomId, hmatchId⟩ := h.claims _ _ hclaim
  have hji := h.registered.matchIds _ _ _ _ hj hi hmatchId
  subst hji
  rw [hi, Option.some_inj] at hj
  subst hj
  exact ⟨hactive, hroomId⟩

theorem release_get (a : RatingAnnouncer) (roomId : Nat) (matchId : Nat) (n : Nat) :
    (a.release roomId matchId).matchIdByRoom.get n =
      if n = roomId ∧ a.matchIdByRoom.get n = some matchId then none
      else a.matchIdByRoom.get n := by
  unfold RatingAnnouncer.release
  by_cases hclaim : a.matchIdByRoom.get roomId = some matchId
  · rw [if_pos hclaim, InsertionMap.get_delete]
    by_cases hn : n = roomId
    · subst hn
      simp [hclaim]
    · simp [hn]
  · rw [if_neg hclaim]
    by_cases hn : n = roomId
    · subst hn
      simp [hclaim]
    · simp [hn]

@[simp] theorem release_snapshots (a : RatingAnnouncer) (roomId : Nat) (matchId : Nat) :
    (a.release roomId matchId).snapshots = a.snapshots := by
  unfold RatingAnnouncer.release
  split <;> rfl

@[simp] theorem release_lookups (a : RatingAnnouncer) (roomId : Nat) (matchId : Nat) :
    (a.release roomId matchId).lookups = a.lookups := by
  unfold RatingAnnouncer.release
  split <;> rfl

@[simp] theorem release_log (a : RatingAnnouncer) (roomId : Nat) (matchId : Nat) :
    (a.release roomId matchId).log = a.log := by
  unfold RatingAnnouncer.release
  split <;> rfl

theorem release_write (a : RatingAnnouncer) (entry : AnnouncerEntry) (roomId matchId : Nat) :
    (a.write entry).release roomId matchId = (a.release roomId matchId).write entry := by
  by_cases hclaim : a.matchIdByRoom.get roomId = some matchId
  · have hreleased : a.release roomId matchId =
        { a with matchIdByRoom := a.matchIdByRoom.delete roomId } := if_pos hclaim
    rw [hreleased]
    exact if_pos hclaim
  · have hkept : a.release roomId matchId = a := if_neg hclaim
    rw [hkept]
    exact if_neg hclaim

/-- A match that ended or whose room closed leaves nothing behind. -/
theorem released (h : Tracked curve s) (hi : s.rooms[i]? = some r) (r' : AnnouncedRoom)
    (hroomId : r'.roomId = r.roomId) (hmatchId : r'.matchId = r.matchId)
    (hlive : r'.live = true → r.live = true) (hinactive : ¬r'.Active) :
    Tracked curve ((s.setRoom i r').hook (.onRoomClosed r.roomId r.matchId)) := by
  have hget : ∀ n m, (s.toRatingAnnouncer.onRoomClosed r.roomId r.matchId).matchIdByRoom.get n =
      some m → s.matchIdByRoom.get n = some m ∧ m ≠ r.matchId := by
    intro n m hm
    rw [onRoomClosed, release_get] at hm
    split at hm
    · cases hm
    · rename_i hkept
      refine ⟨hm, ?_⟩
      rintro rfl
      exact hkept ⟨(h.claimed_active hi hm).2.symm, hm⟩
  have hkeep : ∀ n m, s.matchIdByRoom.get n = some m → m ≠ r.matchId →
      (s.toRatingAnnouncer.onRoomClosed r.roomId r.matchId).matchIdByRoom.get n = some m := by
    intro n m hm hne
    rw [onRoomClosed, release_get, if_neg]
    · exact hm
    · rintro ⟨_, hsame⟩
      exact hne (Option.some_inj.mp (hm.symm.trans hsame))
  constructor
  · exact h.registered.set hi hroomId hmatchId hlive
  · intro n m hm
    obtain ⟨hm, hne⟩ := hget n m hm
    obtain ⟨j, q, hj, hactive, hroom, hmatch⟩ := h.claims n m hm
    refine ⟨j, q, (Registered.getElem?_set_iff hi).mpr (.inr ⟨?_, hj⟩), hactive, hroom, hmatch⟩
    rintro rfl
    rw [hi, Option.some_inj] at hj
    exact hne (hj ▸ hmatch.symm)
  · intro m snapshot hm
    simp only [hook, onRoomClosed, release_snapshots, release_lookups, release_log,
      InsertionMap.get_delete, setRoom] at hm ⊢
    split at hm
    · cases hm
    · rename_i hne
      obtain ⟨⟨n, hn⟩, hlookups, hlog⟩ := h.snapshots m snapshot hm
      exact ⟨⟨n, hkeep n m hn hne⟩, hlookups, hlog⟩
  · intro j q hj hactive
    rcases (Registered.getElem?_set_iff hi).mp hj with ⟨_, rfl⟩ | ⟨hji, hj⟩
    · exact absurd hactive hinactive
    · have hpending := h.pending j q hj hactive
      have hne : q.matchId ≠ r.matchId := fun heq =>
        hji (h.registered.matchIds _ _ _ _ hj hi heq)
      have hsame : (s.toRatingAnnouncer.onRoomClosed r.roomId r.matchId).matchIdByRoom.get
          q.roomId = some q.matchId ↔ s.matchIdByRoom.get q.roomId = some q.matchId :=
        ⟨fun hm => (hget _ _ hm).1, fun hm => hkeep _ _ hm hne⟩
      simp only [hook, setRoom, hsame]
      simp only [onRoomClosed, release_lookups, release_log]
      exact hpending
  · intro lookup hlookup j q hj hmatch
    simp only [hook, onRoomClosed, release_lookups, setRoom] at hlookup
    rcases (Registered.getElem?_set_iff hi).mp hj with ⟨rfl, rfl⟩ | ⟨_, hj⟩
    · rw [hroomId]
      exact h.owners lookup hlookup _ r hi (hmatchId ▸ hmatch)
    · exact h.owners lookup hlookup j q hj hmatch
  · simp only [hook, onRoomClosed, release_lookups, setRoom]
    exact h.lookupsFresh
  · simp only [hook, onRoomClosed, release_log, setRoom]
    exact h.startsFresh
  · intro room hroom
    simp only [hook, onRoomClosed, release_log, setRoom] at hroom
    obtain ⟨q, hq, hdead⟩ := h.closed room hroom
    by_cases hri : room = i
    · subst hri
      rw [hi, Option.some_inj] at hq
      subst hq
      refine ⟨r', (Registered.getElem?_set_iff hi).mpr (.inl ⟨rfl, rfl⟩), ?_⟩
      rw [← Bool.not_eq_true]
      intro hlive'
      rw [hlive hlive'] at hdead
      cases hdead
    · exact ⟨q, (Registered.getElem?_set_iff hi).mpr (.inr ⟨hri, hq⟩), hdead⟩
  · simp only [hook, onRoomClosed, release_log, setRoom]
    exact h.announced

/-- An entry that starts nothing and is rightly announced. -/
theorem write (h : Tracked curve s) {entry : AnnouncerEntry}
    (hstart : ∀ m, entry.isStartOf m = false)
    (hclosed : ∀ room, .closed room = entry →
      ∃ r : AnnouncedRoom, s.rooms[room]? = some r ∧ r.live = false)
    (hannounced : Announced curve (s.log ++ [entry])) :
    Tracked curve (s.hook (.write entry)) := by
  have hstarts : ∀ m, startsOf (s.log ++ [entry]) m = startsOf s.log m := by
    intro m
    rw [startsOf_concat, hstart m]
    rfl
  refine ⟨h.registered, h.claims, ?_, ?_, h.owners, h.lookupsFresh, ?_, ?_, hannounced⟩
  · intro m snapshot hm
    obtain ⟨hclaim, hlookups, ctx, teams, hmem, hmatch⟩ := h.snapshots m snapshot hm
    exact ⟨hclaim, hlookups, ctx, teams, List.mem_append_left _ hmem, hmatch⟩
  · intro j q hj hactive
    have hpending := h.pending j q hj hactive
    simp only [hook, RatingAnnouncer.write, hstarts]
    exact hpending
  · intro m hm
    simp only [hook, RatingAnnouncer.write, hstarts]
    exact h.startsFresh m hm
  · intro room hroom
    rcases List.mem_append.mp hroom with hroom | hroom
    · exact h.closed room hroom
    · exact hclosed room (List.mem_singleton.mp hroom)

theorem warned (h : Tracked curve s) (roomId : Nat) :
    Tracked curve (s.hook (.write (.warned roomId))) := by
  apply h.write
  · intro m
    rfl
  · intro room hroom
    cases hroom
  · apply h.announced.concat
    · intro m hm
      cases hm
    · intro ctx teams heq
      cases heq
    · intro room _ heq
      cases heq

/-- A match without a claim claims the number of its room, and its ratings are looked up. -/
theorem claimed (h : Tracked curve s) (hi : s.rooms[i]? = some r) (hactive : r.Active)
    (hnone : s.matchIdByRoom.get r.roomId = none) {lookup : RatingLookup}
    (hroom : lookup.ctx.room = i) (hroomId : lookup.ctx.roomId = r.roomId)
    (hmatch : lookup.ctx.matchId = r.matchId) :
    Tracked curve (s.hook (fun a =>
      { a with matchIdByRoom := a.matchIdByRoom.set r.roomId r.matchId,
               lookups := a.lookups ++ [lookup] })) := by
  have hunclaimed : ∀ n, s.matchIdByRoom.get n ≠ some r.matchId := by
    intro n hn
    rw [← (h.claimed_active hi hn).2, hnone] at hn
    cases hn
  have hpending := h.pending i r hi hactive
  rw [if_neg (hunclaimed _)] at hpending
  refine ⟨h.registered, ?_, ?_, ?_, ?_, ?_, h.startsFresh, h.closed, h.announced⟩
  · intro n m hm
    simp only [hook, InsertionMap.get_set] at hm
    split at hm
    · rename_i hn
      rw [Option.some_inj] at hm
      exact ⟨i, r, hi, hactive, hn.symm, hm⟩
    · exact h.claims n m hm
  · intro m snapshot hm
    obtain ⟨⟨n, hn⟩, hlookups, hlog⟩ := h.snapshots m snapshot hm
    have hne : r.matchId ≠ m := by
      rintro rfl
      exact hunclaimed n hn
    have hother : n ≠ r.roomId := by
      rintro rfl
      rw [hnone] at hn
      cases hn
    refine ⟨⟨n, ?_⟩, ?_, hlog⟩
    · simp only [hook, InsertionMap.get_set, if_neg hother]
      exact hn
    · simp only [hook, lookupsOf_concat, hmatch, if_neg hne]
      exact hlookups
  · intro j q hj hq
    simp only [hook, lookupsOf_concat, hmatch, InsertionMap.get_set]
    by_cases hji : j = i
    · subst hji
      have hqr : q = r := Option.some_inj.mp (hj.symm.trans hi)
      subst hqr
      simp only [if_true]
      omega
    · have hmatchId : r.matchId ≠ q.matchId := fun heq =>
        hji (h.registered.matchIds _ _ _ _ hj hi heq.symm)
      have hother : q.roomId ≠ r.roomId := fun heq =>
        hji (h.registered.ids _ _ _ _ hj hi hq.1 hactive.1 heq)
      rw [if_neg hmatchId, if_neg hother]
      exact h.pending j q hj hq
  · intro lookup' hlookup' j q hj hq
    rcases List.mem_append.mp hlookup' with hlookup' | hlookup'
    · exact h.owners lookup' hlookup' j q hj hq
    · rw [List.mem_singleton.mp hlookup', hmatch] at hq
      have hji := h.registered.matchIds _ _ _ _ hj hi hq
      subst hji
      rw [List.mem_singleton.mp hlookup', hroom, hroomId]
      have hqr : q = r := Option.some_inj.mp (hj.symm.trans hi)
      exact ⟨rfl, by rw [hqr]⟩
  · intro lookup' hlookup'
    rcases List.mem_append.mp hlookup' with hlookup' | hlookup'
    · exact h.lookupsFresh lookup' hlookup'
    · rw [List.mem_singleton.mp hlookup', hmatch]
      exact h.registered.fresh i r hi

/-- A failed lookup gives its claim back. -/
theorem failed (h : Tracked curve s) {k : Nat} {lookup : RatingLookup}
    (hk : s.lookups[k]? = some lookup) :
    Tracked curve (s.hook (fun a =>
      ({ a with lookups := a.lookups.eraseIdx k }).release lookup.ctx.roomId
        lookup.ctx.matchId)) := by
  have hmem := List.mem_of_getElem? hk
  have hcount := lookupsOf_eraseIdx hk
  have hget : ∀ n m, (({ s.toRatingAnnouncer with lookups := s.lookups.eraseIdx k }).release
      lookup.ctx.roomId lookup.ctx.matchId).matchIdByRoom.get n = some m →
        s.matchIdByRoom.get n = some m := by
    intro n m hm
    rw [release_get] at hm
    split at hm
    · cases hm
    · exact hm
  refine ⟨h.registered, ?_, ?_, ?_, ?_, ?_, ?_, ?_, ?_⟩
  · intro n m hm
    exact h.claims n m (hget n m hm)
  · intro m snapshot hm
    simp only [hook, release_snapshots, release_lookups, release_log] at hm ⊢
    obtain ⟨⟨n, hn⟩, hlookups, hlog⟩ := h.snapshots m snapshot hm
    have hne : lookup.ctx.matchId ≠ m := by
      rintro rfl
      rw [hcount, if_pos rfl] at hlookups
      omega
    refine ⟨⟨n, ?_⟩, ?_, hlog⟩
    · rw [release_get, if_neg]
      · exact hn
      · rintro ⟨_, hsame⟩
        exact hne (Option.some_inj.mp (hsame.symm.trans hn))
    · have hle := hcount m
      omega
  · intro j q hj hq
    have hpending := h.pending j q hj hq
    rw [hcount] at hpending
    simp only [hook, release_lookups, release_log, release_get]
    by_cases hmatch : lookup.ctx.matchId = q.matchId
    · rw [if_pos hmatch] at hpending
      have hclaim : s.matchIdByRoom.get q.roomId = some q.matchId := by
        by_contra hclaim
        rw [if_neg hclaim] at hpending
        omega
      rw [if_pos hclaim] at hpending
      have hroomId := (h.owners lookup hmem j q hj hmatch.symm).2
      have hgone : (if q.roomId = lookup.ctx.roomId ∧
          s.matchIdByRoom.get q.roomId = some lookup.ctx.matchId then none
          else s.matchIdByRoom.get q.roomId) = none := if_pos ⟨hroomId, by rw [hclaim, hmatch]⟩
      rw [hgone, if_neg (by simp)]
      omega
    · rw [if_neg hmatch] at hpending
      by_cases hstale : q.roomId = lookup.ctx.roomId ∧
          s.matchIdByRoom.get q.roomId = some lookup.ctx.matchId
      · exact absurd (h.claim_eq hj hq.1 hstale.2).1 hmatch
      · rw [if_neg hstale]
        exact hpending
  · simp only [hook, release_lookups]
    intro lookup' hlookup'
    exact h.owners lookup' (List.mem_of_mem_eraseIdx hlookup')
  · simp only [hook, release_lookups]
    intro lookup' hlookup'
    exact h.lookupsFresh lookup' (List.mem_of_mem_eraseIdx hlookup')
  · simp only [hook, release_log]
    exact h.startsFresh
  · simp only [hook, release_log]
    exact h.closed
  · simp only [hook, release_log]
    exact h.announced

/-- What is no longer claimed is dropped. -/
theorem dropped (h : Tracked curve s) {k : Nat} {lookup : RatingLookup}
    (hk : s.lookups[k]? = some lookup)
    (hclaim : s.matchIdByRoom.get lookup.ctx.roomId ≠ some lookup.ctx.matchId) :
    Tracked curve (s.hook (fun a => { a with lookups := a.lookups.eraseIdx k })) := by
  have hsame : ({ s.toRatingAnnouncer with lookups := s.lookups.eraseIdx k }).release
      lookup.ctx.roomId lookup.ctx.matchId =
        { s.toRatingAnnouncer with lookups := s.lookups.eraseIdx k } := if_neg hclaim
  have hfailed := h.failed hk
  simp only [hook, hsame] at hfailed
  exact hfailed

/-- The ratings of a match that is still claimed are kept and announced. -/
theorem resolved (h : Tracked curve s) {k : Nat} {lookup : RatingLookup}
    (hk : s.lookups[k]? = some lookup)
    (hclaim : s.matchIdByRoom.get lookup.ctx.roomId = some lookup.ctx.matchId)
    (snapshot : MatchRatingSnapshot) (teams : List (List RatingAnnouncementEntry)) :
    Tracked curve (s.hook (fun a => ({ a with
      lookups := a.lookups.eraseIdx k,
      snapshots := a.snapshots.set lookup.ctx.matchId snapshot }).write
        (.start lookup.ctx snapshot teams))) := by
  have hmem := List.mem_of_getElem? hk
  have hcount := lookupsOf_eraseIdx hk
  obtain ⟨i, r, hi, hactive, hroomId, hmatchId⟩ := h.claims _ _ hclaim
  obtain ⟨hroom, _⟩ := h.owners lookup hmem i r hi hmatchId
  have hstart : ∀ m, startsOf (s.log ++ [.start lookup.ctx snapshot teams]) m =
      startsOf s.log m + if lookup.ctx.matchId = m then 1 else 0 := by
    intro m
    rw [startsOf_concat]
    by_cases hm : lookup.ctx.matchId = m
    · simp [AnnouncerEntry.isStartOf, hm]
    · simp [AnnouncerEntry.isStartOf, hm]
  have hpending := h.pending i r hi hactive
  rw [hcount, hmatchId, if_pos rfl, hroomId, if_pos hclaim] at hpending
  refine ⟨h.registered, h.claims, ?_, ?_, ?_, ?_, ?_, ?_, ?_⟩
  · intro m snapshot' hm
    simp only [hook, RatingAnnouncer.write, InsertionMap.get_set] at hm ⊢
    by_cases hmatch : m = lookup.ctx.matchId
    · rw [if_pos hmatch, Option.some_inj] at hm
      subst hmatch hm
      refine ⟨⟨_, hclaim⟩, by omega, lookup.ctx, teams, ?_, rfl⟩
      exact List.mem_append_right _ (List.mem_singleton_self _)
    · rw [if_neg hmatch] at hm
      obtain ⟨hn, hlookups, ctx, teams', hlog, hctx⟩ := h.snapshots m snapshot' hm
      have hle := hcount m
      exact ⟨hn, by omega, ctx, teams', List.mem_append_left _ hlog, hctx⟩
  · intro j q hj hq
    simp only [hook, RatingAnnouncer.write, hstart]
    refine Eq.trans ?_ (h.pending j q hj hq)
    rw [hcount]
    omega
  · intro lookup' hlookup'
    exact h.owners lookup' (List.mem_of_mem_eraseIdx hlookup')
  · intro lookup' hlookup'
    exact h.lookupsFresh lookup' (List.mem_of_mem_eraseIdx hlookup')
  · intro m hm
    have hlt := h.lookupsFresh lookup hmem
    have hne : lookup.ctx.matchId ≠ m := Nat.ne_of_lt (Nat.lt_of_lt_of_le hlt hm)
    simp only [hook, RatingAnnouncer.write, hstart, if_neg hne]
    exact h.startsFresh m hm
  · intro room hroom'
    rcases List.mem_append.mp hroom' with hroom' | hroom'
    · exact h.closed room hroom'
    · cases List.mem_singleton.mp hroom'
  · apply h.announced.concat
    · intro m hm
      have hmatch : lookup.ctx.matchId = m := by simpa [AnnouncerEntry.isStartOf] using hm
      rw [← hmatch]
      omega
    · intro ctx teams' heq
      cases heq
    · intro room hclosed heq
      obtain ⟨q, hq, hdead⟩ := h.closed room hclosed
      have hroom' : lookup.ctx.room = room := Option.some_inj.mp heq
      rw [← hroom', ← hroom, hi, Option.some_inj] at hq
      rw [← hq, hactive.1] at hdead
      cases hdead

/-- A new match of a live room drops what the room's last match has left. -/
theorem newMatch_discarded (h : Tracked curve s) (hi : s.rooms[i]? = some r)
    (hlive : r.live = true) :
    Tracked curve (({ s with nextMatchId := s.nextMatchId + 1 }.setRoom i
      { r with matchId := s.nextMatchId, ended := false }).hook (.discardOther r.roomId)) := by
  have hget : ∀ n, (s.toRatingAnnouncer.discardOther r.roomId).matchIdByRoom.get n =
      if n = r.roomId then none else s.matchIdByRoom.get n := by
    intro n
    unfold discardOther
    split
    · rename_i hnone
      by_cases hn : n = r.roomId
      · rw [if_pos hn, hn, hnone]
      · rw [if_neg hn]
    · exact InsertionMap.get_delete _ _ _
  have hsnapshots : ∀ m snapshot,
      (s.toRatingAnnouncer.discardOther r.roomId).snapshots.get m = some snapshot →
        s.snapshots.get m = some snapshot ∧ s.matchIdByRoom.get r.roomId ≠ some m := by
    intro m snapshot hm
    unfold discardOther at hm
    split at hm
    · rename_i hnone
      refine ⟨hm, ?_⟩
      rw [hnone]
      simp
    · rename_i tracked htracked
      simp only [InsertionMap.get_delete] at hm
      split at hm
      · cases hm
      · rename_i hne
        refine ⟨hm, ?_⟩
        rw [htracked, ne_eq, Option.some_inj]
        exact fun heq => hne heq.symm
  have hlookups : (s.toRatingAnnouncer.discardOther r.roomId).lookups = s.lookups := by
    unfold discardOther
    split <;> rfl
  have hlog : (s.toRatingAnnouncer.discardOther r.roomId).log = s.log := by
    unfold discardOther
    split <;> rfl
  refine ⟨h.registered.newMatch hi rfl rfl hlive, ?_, ?_, ?_, ?_, ?_, ?_, ?_, ?_⟩
  · intro n m hm
    simp only [hook, setRoom, hget] at hm
    split at hm
    · cases hm
    · rename_i hn
      obtain ⟨j, q, hj, hactive, hroomId, hmatchId⟩ := h.claims n m hm
      refine ⟨j, q, (Registered.getElem?_set_iff hi).mpr (.inr ⟨?_, hj⟩), hactive, hroomId,
        hmatchId⟩
      rintro rfl
      rw [hi, Option.some_inj] at hj
      exact hn (hj ▸ hroomId.symm)
  · intro m snapshot hm
    obtain ⟨hm, hother⟩ := hsnapshots m snapshot hm
    obtain ⟨⟨n, hn⟩, hcount, hstart⟩ := h.snapshots m snapshot hm
    simp only [hook, setRoom, hlookups, hlog, hget]
    refine ⟨⟨n, ?_⟩, hcount, hstart⟩
    rw [if_neg]
    · exact hn
    · rintro rfl
      exact hother hn
  · intro j q hj hq
    simp only [hook, setRoom, hlookups, hlog, hget]
    rcases (Registered.getElem?_set_iff hi).mp hj with ⟨_, rfl⟩ | ⟨hji, hold⟩
    · have hstarts := h.startsFresh s.nextMatchId (Nat.le_refl _)
      have hnone : lookupsOf s.lookups s.nextMatchId = 0 := by
        rw [lookupsOf, List.countP_eq_zero]
        intro lookup hlookup
        have hlt := h.lookupsFresh lookup hlookup
        simpa using Nat.ne_of_lt hlt
      simp only [if_true]
      rw [if_neg (by simp)]
      omega
    · have hother : q.roomId ≠ r.roomId := fun heq =>
        hji (h.registered.ids _ _ _ _ hold hi hq.1 hlive heq)
      rw [if_neg hother]
      exact h.pending j q hold hq
  · intro lookup hlookup j q hj hq
    simp only [hook, setRoom, hlookups] at hlookup
    rcases (Registered.getElem?_set_iff hi).mp hj with ⟨_, rfl⟩ | ⟨_, hold⟩
    · have hlt := h.lookupsFresh lookup hlookup
      exact absurd hq (Nat.ne_of_gt hlt)
    · exact h.owners lookup hlookup j q hold hq
  · intro lookup hlookup
    simp only [hook, setRoom, hlookups] at hlookup
    exact Nat.lt_succ_of_lt (h.lookupsFresh lookup hlookup)
  · intro m hm
    simp only [hook, setRoom, hlog]
    exact h.startsFresh m (Nat.le_of_succ_le hm)
  · intro room hroom
    simp only [hook, setRoom, hlog] at hroom
    obtain ⟨q, hq, hdead⟩ := h.closed room hroom
    refine ⟨q, (Registered.getElem?_set_iff hi).mpr (.inr ⟨?_, hq⟩), hdead⟩
    rintro rfl
    rw [hi, Option.some_inj] at hq
    rw [← hq, hlive] at hdead
    cases hdead
  · simp only [hook, setRoom, hlog]
    exact h.announced

theorem opened (h : Tracked curve s) (roomId : Nat) : Tracked curve (s.opened roomId) := by
  unfold AnnouncedRooms.opened
  split
  · exact h
  · rename_i hfree
    have hnew : ∀ (j : Nat) (q : AnnouncedRoom), s.rooms[j]? = some q → q.live = true →
        q.roomId ≠ roomId := by
      intro j q hj hlive heq
      apply hfree
      rw [List.any_eq_true]
      exact ⟨q, List.mem_of_getElem? hj, by simp [hlive, heq]⟩
    have hkept : ∀ {j : Nat} {q : AnnouncedRoom} (r : AnnouncedRoom), s.rooms[j]? = some q →
        (s.rooms ++ [r])[j]? = some q :=
      fun r hj => Registered.getElem?_concat_iff.mpr (.inl hj)
    refine ⟨h.registered.opened rfl hnew, ?_, h.snapshots, ?_, ?_, ?_, ?_, ?_, h.announced⟩
    · intro n m hm
      obtain ⟨j, q, hj, hq⟩ := h.claims n m hm
      exact ⟨j, q, hkept _ hj, hq⟩
    · intro j q hj hq
      rcases Registered.getElem?_concat_iff.mp hj with hold | ⟨_, rfl⟩
      · exact h.pending j q hold hq
      · have hstarts := h.startsFresh s.nextMatchId (Nat.le_refl _)
        have hnone : lookupsOf s.lookups s.nextMatchId = 0 := by
          rw [lookupsOf, List.countP_eq_zero]
          intro lookup hlookup
          have hlt := h.lookupsFresh lookup hlookup
          simpa using Nat.ne_of_lt hlt
        have hunclaimed : s.matchIdByRoom.get roomId ≠ some s.nextMatchId := by
          intro hclaim
          obtain ⟨k, q, hk, _, _, hmatchId⟩ := h.claims _ _ hclaim
          have hlt := h.registered.fresh k q hk
          omega
        dsimp only
        rw [if_neg hunclaimed]
        omega
    · intro lookup hlookup j q hj hq
      rcases Registered.getElem?_concat_iff.mp hj with hold | ⟨_, rfl⟩
      · exact h.owners lookup hlookup j q hold hq
      · have hlt := h.lookupsFresh lookup hlookup
        exact absurd hq (Nat.ne_of_gt hlt)
    · intro lookup hlookup
      exact Nat.lt_succ_of_lt (h.lookupsFresh lookup hlookup)
    · intro m hm
      exact h.startsFresh m (Nat.le_of_succ_le hm)
    · intro room hroom
      obtain ⟨q, hq, hdead⟩ := h.closed room hroom
      exact ⟨q, hkept _ hq, hdead⟩

/-- A match without a claim is looked up if it is eligible. -/
theorem lookedUp (h : Tracked curve s) (hi : s.rooms[i]? = some r) (hactive : r.Active)
    (hnone : s.matchIdByRoom.get r.roomId = none) (groups : RankGroups) (ctx : MatchContext)
    (hroom : ctx.room = i) (hroomId : ctx.roomId = r.roomId) (hmatchId : ctx.matchId = r.matchId) :
    Tracked curve (s.hook (.lookUp groups ctx)) := by
  unfold lookUp
  split
  · exact h
  · rename_i banListName players _
    rw [hroomId, hmatchId]
    split
    · -- The claim is given back at once.
      have hback : (s.matchIdByRoom.set r.roomId r.matchId).delete r.roomId = s.matchIdByRoom := by
        rw [InsertionMap.delete_set, InsertionMap.delete_of_absent hnone]
      have hsame : RatingAnnouncer.lookupFailed ctx { s.toRatingAnnouncer with
          matchIdByRoom := s.matchIdByRoom.set r.roomId r.matchId } =
            s.toRatingAnnouncer.write (.warned ctx.roomId) := by
        rw [lookupFailed, release, hroomId, hmatchId, RatingAnnouncer.write, if_pos]
        · dsimp only
          rw [hback]
          rfl
        · simp
      rw [hook, hsame]
      exact h.warned ctx.roomId
    · exact h.claimed hi hactive hnone hroom hroomId hmatchId

theorem started (h : Tracked curve s) (hi : s.rooms[i]? = some r) (hactive : r.Active)
    (groups : RankGroups) (details : MatchDetails) :
    Tracked curve (s.hook (.onMatchStarted groups (r.context i details))) := by
  by_cases hclaim : s.matchIdByRoom.get r.roomId = some r.matchId
  · have hsame : s.toRatingAnnouncer.onMatchStarted groups (r.context i details) =
        s.toRatingAnnouncer := if_pos hclaim
    rw [hook, hsame]
    exact h
  · have hnone : s.matchIdByRoom.get r.roomId = none := by
      cases hget : s.matchIdByRoom.get r.roomId with
      | none => rfl
      | some m =>
        rw [(h.claim_eq hi hactive.1 hget).1] at hget
        exact absurd hget hclaim
    have hdiscard : s.toRatingAnnouncer.discardOther r.roomId = s.toRatingAnnouncer := by
      unfold discardOther
      rw [hnone]
    have hstart : s.toRatingAnnouncer.onMatchStarted groups (r.context i details) =
        (s.toRatingAnnouncer.discardOther r.roomId).lookUp groups (r.context i details) :=
      if_neg hclaim
    rw [hook, hstart, hdiscard]
    exact h.lookedUp hi hactive hnone groups _ rfl rfl rfl

theorem newMatch (h : Tracked curve s) (hi : s.rooms[i]? = some r) (hlive : r.live = true)
    (groups : RankGroups) (details : MatchDetails) :
    Tracked curve (s.newMatch i r details groups) := by
  have hdiscarded := h.newMatch_discarded hi hlive
  have hfresh : s.matchIdByRoom.get r.roomId ≠ some s.nextMatchId := by
    intro hclaim
    obtain ⟨j, q, hj, _, _, hmatchId⟩ := h.claims _ _ hclaim
    have hlt := h.registered.fresh j q hj
    omega
  have hnone : (s.toRatingAnnouncer.discardOther r.roomId).matchIdByRoom.get r.roomId = none := by
    unfold discardOther
    split
    · assumption
    · simp
  have hlookedUp := hdiscarded.lookedUp
    (r := { r with matchId := s.nextMatchId, ended := false })
    ((Registered.getElem?_set_iff hi).mpr (.inl ⟨rfl, rfl⟩)) ⟨hlive, rfl⟩ hnone groups
    (AnnouncedRoom.context { r with matchId := s.nextMatchId, ended := false } i details)
    rfl rfl rfl
  have hstart : s.toRatingAnnouncer.onMatchStarted groups
      (AnnouncedRoom.context { r with matchId := s.nextMatchId, ended := false } i details) =
        (s.toRatingAnnouncer.discardOther r.roomId).lookUp groups
          (AnnouncedRoom.context { r with matchId := s.nextMatchId, ended := false } i details) :=
    if_neg hfresh
  simp only [AnnouncedRooms.newMatch, hook, setRoom, hstart]
  exact hlookedUp

theorem ending (h : Tracked curve s) (hi : s.rooms[i]? = some r) (details : MatchDetails) :
    Tracked curve (s.ending curve i r details) := by
  have hreleased := h.released hi { r with ended := true } rfl rfl id (by
    rintro ⟨_, hended⟩
    cases hended)
  have hlog : (s.toRatingAnnouncer.onRoomClosed r.roomId r.matchId).log = s.log := by
    simp [onRoomClosed]
  unfold AnnouncedRooms.ending onMatchEnding
  change Tracked curve { s.setRoom i { r with ended := true } with toRatingAnnouncer := _ }
  dsimp only [hook, setRoom, AnnouncedRoom.context]
  split
  · exact hreleased
  · rename_i snapshot hsnapshot
    split
    · exact hreleased
    · rename_i banListName players heligible
      apply hreleased.write
      · intro m
        rfl
      · intro room hroom
        cases hroom
      · obtain ⟨⟨n, hn⟩, _, ctx', teams', hstart, hmatch⟩ := h.snapshots _ _ hsnapshot
        rw [hook, setRoom]
        dsimp only
        rw [hlog]
        apply h.announced.concat
        · intro m hm
          cases hm
        · intro ctx teams heq
          cases heq
          exact ⟨ctx', snapshot, teams', banListName, players, hstart, hmatch, heligible, rfl⟩
        · intro room hclosed heq
          obtain ⟨q, hq, hdead⟩ := h.closed room hclosed
          have hroom : i = room := Option.some_inj.mp heq
          rw [← hroom, hi, Option.some_inj] at hq
          rw [← hq, (h.claimed_active hi hn).1.1] at hdead
          cases hdead

theorem roomClosed (h : Tracked curve s) (hi : s.rooms[i]? = some r) :
    Tracked curve (AnnouncedRooms.closed i r s) := by
  have hreleased := h.released hi { r with live := false } rfl rfl
    (fun hlive => absurd hlive (by simp)) (by
      rintro ⟨hlive, _⟩
      cases hlive)
  apply hreleased.write
  · intro m
    rfl
  · intro room hroom
    cases hroom
    exact ⟨_, (Registered.getElem?_set_iff hi).mpr (.inl ⟨rfl, rfl⟩), rfl⟩
  · apply hreleased.announced.concat
    · intro m hm
      cases hm
    · intro ctx teams heq
      cases heq
    · intro room _ heq
      cases heq

theorem settled (h : Tracked curve s) (k : Nat) (result : LookupResult) :
    Tracked curve (s.hook (.settle k result)) := by
  unfold settle
  cases hk : s.lookups[k]? with
  | none =>
    simp only [hook, hk]
    exact h
  | some lookup =>
    simp only [hook, hk]
    cases result with
    | none =>
      simp only [lookupSettled, lookupFailed, release_write]
      exact (h.failed hk).warned lookup.ctx.roomId
    | some found =>
      obtain ⟨rankId, ratings⟩ := found
      by_cases hclaim : s.matchIdByRoom.get lookup.ctx.roomId = some lookup.ctx.matchId
      · simp only [lookupSettled]
        rw [if_neg (not_not.mpr hclaim)]
        exact h.resolved hk hclaim _ _
      · simp only [lookupSettled]
        rw [if_pos hclaim]
        exact h.dropped hk hclaim

/-- Every event that is in order. -/
theorem step (h : Tracked curve s) {event : RoomEvent} (hok : s.Orderly event) :
    Tracked curve (AnnouncedRooms.step curve event s) := by
  cases event with
  | opened roomId => exact h.opened roomId
  | settled lookup result => exact h.settled lookup result
  | newMatch room details groups =>
    simp only [AnnouncedRooms.step, inRoom]
    split
    · exact h
    · rename_i r hi
      exact h.newMatch hi (hok r hi) groups details
  | started room details groups =>
    simp only [AnnouncedRooms.step, inRoom]
    split
    · exact h
    · rename_i r hi
      exact h.started hi (hok r hi) groups details
  | ending room details =>
    simp only [AnnouncedRooms.step, inRoom]
    split
    · exact h
    · rename_i r hi
      exact h.ending hi details
  | closed room =>
    simp only [AnnouncedRooms.step, inRoom]
    split
    · exact h
    · rename_i r hi
      exact h.roomClosed hi

theorem new (curve : EloCurve) : Tracked curve .new where
  registered := by
    refine ⟨?_, ?_, ?_⟩
    · intro i j r q hi
      cases hi
    · intro i j r q hi
      cases hi
    · intro i r hi
      cases hi
  claims := by
    intro n m hm
    cases hm
  snapshots := by
    intro m snapshot hm
    cases hm
  pending := by
    intro i r hi
    cases hi
  owners := by
    intro lookup hlookup
    cases hlookup
  lookupsFresh := by
    intro lookup hlookup
    cases hlookup
  startsFresh := fun _ _ => rfl
  closed := by
    intro room hroom
    cases hroom
  announced := by
    refine ⟨fun _ => Nat.zero_le _, ?_, ?_⟩
    · intro before ctx teams after hsplit
      simp [AnnouncedRooms.new, RatingAnnouncer.new] at hsplit
    · intro before room after hsplit
      simp [AnnouncedRooms.new, RatingAnnouncer.new] at hsplit

/-- Once every room has closed no entry is left. -/
theorem empty_of_closed (h : Tracked curve s) (hclosed : ∀ r ∈ s.rooms, r.live = false) :
    s.snapshots = .empty ∧ s.matchIdByRoom = .empty := by
  have hclaims : ∀ n m, s.matchIdByRoom.get n ≠ some m := by
    intro n m hm
    obtain ⟨i, r, hi, hactive, _⟩ := h.claims n m hm
    have hdead := hclosed r (List.mem_of_getElem? hi)
    rw [hactive.1] at hdead
    cases hdead
  refine ⟨InsertionMap.eq_empty ?_, InsertionMap.eq_empty hclaims⟩
  intro m snapshot hm
  obtain ⟨n, hn⟩ := (h.snapshots m snapshot hm).1
  exact hclaims n m hn

end Tracked

namespace AnnouncedRooms

/-- Announcements are rightly made, and once every room has closed no entry is left. -/
structure Settles (curve : EloCurve) (rooms : AnnouncedRooms) : Prop where
  announced : Announced curve rooms.log
  empty : (∀ r ∈ rooms.rooms, r.live = false) →
    rooms.snapshots = .empty ∧ rooms.matchIdByRoom = .empty

/-- While no match is started once it has ended or its room has closed: a match is announced once
when it starts, and when it ends from the ratings that its start took, nothing is announced in a
room that closed, and once all rooms have closed no entry is left. -/
theorem settles_of_orderly (curve : EloCurve) (events : List RoomEvent)
    (h : Allows (step curve) Orderly .new events) :
    Settles curve (performAll (step curve) .new events) := by
  have htracked : Tracked curve (performAll (step curve) .new events) :=
    h.preserves (P := Tracked curve) (fun s event hs hok => hs.step hok) (Tracked.new curve)
  exact ⟨htracked.announced, htracked.empty_of_closed⟩

def rankedDetails : MatchDetails :=
  { ranked := true, banListName := "2026.04 TCG", season := 6,
    players := [
      { id := some "ana", team := .player, name := "Ana", winner := true },
      { id := some "ben", team := .opponent, name := "Ben", winner := false }] }

/-- A list without groups. -/
def ungrouped : RankGroups := fun banListName => some (banListName, [])

/-- The number of a room is used again while a lookup of the room before it is under way. -/
def reusedRoom : List RoomEvent :=
  [.opened 7, .newMatch 0 rankedDetails ungrouped, .settled 0 (some ("tcg", .empty)),
    .started 0 rankedDetails ungrouped, .ending 0 rankedDetails,
    .newMatch 0 rankedDetails ungrouped, .closed 0, .opened 7,
    .newMatch 1 rankedDetails ungrouped, .settled 0 (some ("tcg", .empty)), .settled 0 none,
    .started 1 rankedDetails ungrouped, .closed 1]

theorem reusedRoom_settles :
    Settles (fun _ _ _ _ => 10) (performAll (step (fun _ _ _ _ => 10)) .new reusedRoom) :=
  settles_of_orderly _ reusedRoom (by decide)

/-- A match that is started once it has ended. -/
def startedAgain : List RoomEvent :=
  [.opened 7, .newMatch 0 rankedDetails ungrouped, .settled 0 (some ("tcg", .empty)),
    .ending 0 rankedDetails, .started 0 rankedDetails ungrouped, .settled 0 (some ("tcg", .empty))]

/-- A match that is started once its room has closed. -/
def startedLate : List RoomEvent :=
  [.opened 7, .newMatch 0 rankedDetails ungrouped, .settled 0 (some ("tcg", .empty)), .closed 0,
    .started 0 rankedDetails ungrouped, .settled 0 (some ("tcg", .empty))]

/-- Its start is announced twice, or its claim and its snapshot stay. -/
theorem startedAgain_announced_twice :
    ¬Settles (fun _ _ _ _ => 10) (performAll (step (fun _ _ _ _ => 10)) .new startedAgain) ∧
      ¬Settles (fun _ _ _ _ => 10) (performAll (step (fun _ _ _ _ => 10)) .new startedLate) := by
  constructor
  · intro h
    exact absurd (h.announced.once 1) (by decide)
  · intro h
    have hempty := (h.empty (by decide)).2
    have hkeys := congrArg InsertionMap.keys hempty
    exact absurd hkeys (by decide)

end AnnouncedRooms

end EdoproServer.Stats
