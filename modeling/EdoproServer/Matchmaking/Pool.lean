import EdoproServer.Lib.Effect
import EdoproServer.Matchmaking.Pairing
import EdoproServer.Matchmaking.PendingMatches
import EdoproServer.Matchmaking.PoolStore

namespace EdoproServer.Matchmaking
open Lib

/-- A client's or the timer's request to the pool. -/
inductive PoolRequest where
  | add (participant : Participant)
  | remove (id : String)
  | dequeueBySocketId (socketId : String)
  | accept (matchId participantId : String)
  | decline (matchId participantId : String)
  | tick
  deriving DecidableEq, Repr

/-- What the pool did, newest first in its log: the structured log lines, the calls of the match
handler, and the requests it has answered. -/
inductive PoolEvent where
  | entered (participant : Participant)
  | exit (participant : Participant) (outcome : QueueExitOutcome) (waitedMs : Int)
  | proposed (m : Match) (deadline : Int)
  | accepted (matchId participantId : String) (time : Int)
  | abandoned (m : Match) (leaving : List Participant) (store : List Participant)
  | handled (m : Match)
  | handedBack (m : Match) (participant : Participant)
  | asked (request : PoolRequest) (time : Int)
  deriving DecidableEq, Repr

structure RequeueRecord where
  ids : List String
  openUntil : Int

/-- `drawn` and `reads` count the match ids drawn and the clock readings taken so far; `world`
is everything outside the pool. -/
structure PoolState (W : Type) where
  store : InMemoryPoolStore
  pending : PendingMatches
  requeuedByMatchId : InsertionMap String RequeueRecord
  drawn : Nat
  reads : Nat
  log : List PoolEvent
  world : W

def PoolState.initial {W : Type} (world : W) : PoolState W :=
  { store := .empty, pending := .empty, requeuedByMatchId := .empty, drawn := 0, reads := 0,
    log := [], world := world }

/-- What the pool is given: the successive clock readings and match ids, the channels of the
participants, and a match handler, which changes the world and may hand participants back. -/
structure MatchmakingPoolDeps (W : Type) where
  now : Nat → Int
  newMatchId : Nat → String
  botAvailable : W → Bool
  isAlive : W → Participant → Int → Bool
  call : Participant → ChannelCall → W → W
  handle : Match → W → W × List Participant

/-- The first-in-first-out policy, then the bot fallback. -/
def MatchmakingPoolDeps.pairingPolicy {W : Type} (deps : MatchmakingPoolDeps W)
    (botAvailable : Bool) : PairingPolicy :=
  CompositePairingPolicy.pair [FifoPairingPolicy.pair deps.newMatchId,
    BotFallbackPolicy.pair deps.newMatchId botAvailable]

abbrev PoolM (W : Type) := EStateM DuplicateQueueEntryError (PoolState W)

namespace MatchmakingPool

variable {W : Type} (deps : MatchmakingPoolDeps W)

def now : PoolM W Int :=
  modifyGet fun s => (deps.now s.reads, { s with reads := s.reads + 1 })

def emit (event : PoolEvent) : PoolM W Unit :=
  modify fun s => { s with log := event :: s.log }

def call (participant : Participant) (message : ChannelCall) : PoolM W Unit :=
  modify fun s => { s with world := deps.call participant message s.world }

def storeAdd (participant : Participant) : PoolM W Unit :=
  modify fun s => { s with store := s.store.add participant }

def storeRemove (id : String) : PoolM W Bool :=
  modifyGet fun s => ((s.store.remove id).1, { s with store := (s.store.remove id).2 })

def logExit (outcome : QueueExitOutcome) (participant : Participant) : PoolM W Unit := do
  let time ← now deps
  emit (.exit participant outcome (time - participant.enqueuedAt))

def removeAndLog (participant : Participant) (outcome : QueueExitOutcome) : PoolM W Bool := do
  let removed ← storeRemove participant.id
  if removed then
    logExit deps outcome participant
  return removed

def removeByIdAndLog (id : String) (outcome : QueueExitOutcome) : PoolM W Bool := do
  match (← get).store.get id with
  | none => return false
  | some participant => removeAndLog deps participant outcome

/-- The participants of an abandoned match that do not leave. -/
def requeued (pending : PendingMatch) (leaving : List Participant) : List Participant :=
  pending.pairing.participants.filter (fun p => p ∉ leaving)

def rememberRequeued (pending : PendingMatch) (leaving : List Participant) : PoolM W Unit :=
  modify fun s =>
    if requeued pending leaving = [] then s
    else
      let record : RequeueRecord :=
        { ids := (requeued pending leaving).map Participant.id, openUntil := pending.deadline }
      { s with requeuedByMatchId := s.requeuedByMatchId.set pending.pairing.id record }

def requeue (add : Participant → PoolM W Bool) (time : Int) (participant : Participant) :
    PoolM W Unit := do
  let _ ← add participant
  call deps participant (.status .searching (time - participant.enqueuedAt) none)

/-- Drops a pending match: `leaving` exit the queue, everyone else goes back through `add` and
is told it is searching again. -/
def abandonWith (add : Participant → PoolM W Bool) (pending : PendingMatch)
    (leaving : List Participant) (outcome : QueueExitOutcome) : PoolM W Unit := do
  modify fun s => { s with pending := s.pending.delete pending.pairing.id }
  forM leaving (logExit deps outcome)
  let time ← now deps
  rememberRequeued pending leaving
  forM (requeued pending leaving) (requeue deps add time)
  modify fun s =>
    { s with log := .abandoned pending.pairing leaving s.store.participants :: s.log }

/-- `add` and `abandon` call each other; the fuel bounds how deep. -/
def addWith : Nat → Participant → PoolM W Bool
  | 0, _ => return false
  | fuel + 1, participant => do
    let s ← get
    let queued := s.store.findByUserId participant.userId
    let pending := if queued.isSome then none else s.pending.findByUserId participant.userId
    match queued.or (pending.map PendingParticipant.participant) with
    | none =>
      storeAdd participant
      return false
    | some existing =>
      if participant.presence = .poll then
        throw { userId := participant.userId }
      match pending with
      | some found => abandonWith deps (addWith fuel) found.pending [existing] .replaced
      | none => discard (removeAndLog deps existing .replaced)
      call deps existing (.close .replacedByNewConnection)
      storeAdd participant
      return true

/-- Every level deeper has dropped one more pending match, so there are never more levels than
pending matches. Returns `true` when this arrival replaced a participant of the same user. -/
def add (participant : Participant) : PoolM W Bool := do
  addWith deps ((← get).pending.size + 1) participant

def abandon (pending : PendingMatch) (leaving : List Participant)
    (outcome : QueueExitOutcome) : PoolM W Unit :=
  abandonWith deps (add deps) pending leaving outcome

def leavePending (id : String) (outcome : QueueExitOutcome) : PoolM W Bool := do
  match (← get).pending.findByParticipantId id with
  | none => return false
  | some found =>
    abandon deps found.pending [found.participant] outcome
    return true

def remove (id : String) : PoolM W Unit := do
  if !(← removeByIdAndLog deps id .cancelled) then
    discard (leavePending deps id .cancelled)

def dequeueBySocketId (socketId : String) : PoolM W Bool := do
  if ← removeByIdAndLog deps socketId .dequeued then
    return true
  leavePending deps socketId .declined

def findLivePending (matchId participantId : String) : PoolM W (Option PendingMatch) := do
  match (← get).pending.get matchId with
  | none => return none
  | some pending =>
    let time ← now deps
    return if time < pending.deadline ∧ participantId ∈ pending.pairing.ids then some pending
      else none

def wasRequeuedFrom (matchId participantId : String) : PoolM W Bool := do
  match (← get).requeuedByMatchId.get matchId with
  | none => return false
  | some record =>
    let time ← now deps
    return time < record.openUntil ∧ participantId ∈ record.ids

/-- Calls the match handler, which may hand participants back through `add`. -/
def handle (m : Match) : PoolM W Unit := do
  let back ← modifyGet fun s =>
    ((deps.handle m s.world).2,
      { s with world := (deps.handle m s.world).1, log := .handled m :: s.log })
  forM back fun participant => do
    let _ ← add deps participant
    emit (.handedBack m participant)

def dispatch (m : Match) : PoolM W Unit := do
  forM m.participants (logExit deps .matchedHuman)
  handle deps m

/-- Records an ACCEPT. Once every participant accepted, the match is dispatched. -/
def accept (matchId participantId : String) : PoolM W MatchResponseOutcome := do
  match ← findLivePending deps matchId participantId with
  | none =>
    return if ← wasRequeuedFrom deps matchId participantId then .requeued else .unknownMatch
  | some pending =>
    let pending := pending.accept participantId
    modify fun s =>
      { s with
        pending := s.pending.set matchId pending
        log := .accepted matchId participantId (deps.now (s.reads - 1)) :: s.log }
    if pending.complete then
      modify fun s => { s with pending := s.pending.delete matchId }
      dispatch deps pending.pairing
    return .accepted

/-- Deletes the participant from the record of the requeued, where there is one. -/
def forgetRequeued (matchId participantId : String) : PoolM W Unit :=
  modify fun s =>
    match s.requeuedByMatchId.get matchId with
    | none => s
    | some record =>
      let record := { record with ids := record.ids.filter (fun id => id ≠ participantId) }
      { s with requeuedByMatchId := s.requeuedByMatchId.set matchId record }

/-- A DECLINE that arrives after the opponent already abandoned the match still takes the
participant out of the queue, wherever the requeue put it. -/
def declineAfterRequeue (matchId participantId : String) : PoolM W MatchResponseOutcome := do
  if !(← wasRequeuedFrom deps matchId participantId) then
    return .unknownMatch
  forgetRequeued matchId participantId
  let s ← get
  match (s.store.get participantId).or
      ((s.pending.findByParticipantId participantId).map PendingParticipant.participant) with
  | none => return .unknownMatch
  | some participant =>
    if !(← removeByIdAndLog deps participantId .declined) then
      discard (leavePending deps participantId .declined)
    call deps participant (.close .declined)
    return .declined

/-- Records a DECLINE: the decliner leaves the queue and the others return to the pool. -/
def decline (matchId participantId : String) : PoolM W MatchResponseOutcome := do
  match ← findLivePending deps matchId participantId with
  | none => declineAfterRequeue deps matchId participantId
  | some pending =>
    match pending.pairing.participants.find? (fun p => p.id = participantId) with
    | none => return .declined
    | some decliner =>
      abandon deps pending [decliner] .declined
      call deps decliner (.close .declined)
      return .declined

def poolKeys : List (MatchmakingFormat × MatchmakingMode) :=
  MATCHMAKING_FORMATS.flatMap (fun format => MATCHMAKING_MODES.map (fun mode => (format, mode)))

/-- Visits every participant, each pool key's list read when its turn comes. -/
def forEveryParticipant (visit : Participant → PoolM W Unit) : PoolM W Unit :=
  forM poolKeys fun key => do
    forM ((← get).store.all key.1 key.2) visit

def sweepDead (time : Int) : PoolM W Unit :=
  forEveryParticipant fun participant => do
    if !deps.isAlive (← get).world participant time then
      discard (removeAndLog deps participant .expired)

/-- A dead participant abandons its pending match like a decline. Past the deadline, every
participant that has not accepted times out. -/
def resolve (time : Int) (pending : PendingMatch) : PoolM W Unit := do
  let world := (← get).world
  let dead := pending.pairing.participants.filter (fun p => !deps.isAlive world p time)
  if dead ≠ [] then
    abandon deps pending dead .expired
  else if pending.deadline ≤ time then
    let late := pending.pairing.participants.filter (fun p => p.id ∉ pending.accepted)
    abandon deps pending late .acceptTimeout
    forM late fun participant => call deps participant (.close .acceptTimeout)

def resolvePending (time : Int) : PoolM W Unit := do
  forM (← get).pending.all (resolve deps time)

def forgetClosedRequeues (time : Int) : PoolM W Unit :=
  modify fun s =>
    let records := s.requeuedByMatchId.entries.foldl
      (fun records e => if e.2.openUntil ≤ time then records.delete e.1 else records)
      s.requeuedByMatchId
    { s with requeuedByMatchId := records }

def propose (time : Int) (m : Match) : PoolM W Unit := do
  forM m.participants fun participant => discard (storeRemove participant.id)
  modify fun s => { s with pending := s.pending.add m (time + MATCH_ACCEPT_TIMEOUT_MS) }
  emit (.proposed m (time + MATCH_ACCEPT_TIMEOUT_MS))
  forM (m.participants.filter Participant.optedIn) fun participant =>
    call deps participant (.proposed m.id MATCH_ACCEPT_TIMEOUT_MS)

def handOver (m : Match) : PoolM W Unit := do
  forM m.participants fun participant =>
    discard (removeAndLog deps participant
      (if m.opponentKind = .bot then .matchedBot else .matchedHuman))
  handle deps m

def pairAndDispatch (time : Int) : PoolM W Unit :=
  forM poolKeys fun key => do
    let formed ← modifyGet fun s =>
      let candidates := s.store.all key.1 key.2
      let formed := if candidates = [] then []
        else deps.pairingPolicy (deps.botAvailable s.world) s.drawn candidates time
      (formed, { s with drawn := s.drawn + formed.length })
    forM formed fun m =>
      if requiresAcceptStep m then propose deps time m else handOver deps m

def publishStatus (time : Int) : PoolM W Unit :=
  forEveryParticipant fun participant =>
    call deps participant (.status .searching (time - participant.enqueuedAt) none)

/-- Sweeps dead participants, resolves pending matches, pairs the rest, then pushes status. -/
def tick : PoolM W Unit := do
  let time ← now deps
  sweepDead deps time
  resolvePending deps time
  forgetClosedRequeues time
  pairAndDispatch deps time
  publishStatus deps time

/-- Whether the id is searching in the store or waiting on a pending match. -/
def isQueued (s : PoolState W) (id : String) : Bool :=
  (s.store.get id).isSome || (s.pending.findByParticipantId id).isSome

/-- Players currently queued per format, every mode summed; formats nobody is queued in report
0. -/
def depthByFormat (s : PoolState W) : MatchmakingFormat → Nat :=
  poolKeys.foldl
    (fun depth key => Function.update depth key.1 (depth key.1 + s.store.depth key.1 key.2))
    (fun _ => 0)

/-- A request that was answered is logged with the reading the clock would have given first. -/
def asking (request : PoolRequest) (body : PoolM W Unit) : PoolM W Unit := do
  let s ← get
  body
  emit (.asked request (deps.now s.reads))

def perform : PoolRequest → PoolM W Unit
  | .add participant => do
    let _ ← add deps participant
    emit (.entered participant)
  | .remove id => asking deps (.remove id) (remove deps id)
  | .dequeueBySocketId id =>
    asking deps (.dequeueBySocketId id) (discard (dequeueBySocketId deps id))
  | .accept matchId id => asking deps (.accept matchId id) (discard (accept deps matchId id))
  | .decline matchId id => asking deps (.decline matchId id) (discard (decline deps matchId id))
  | .tick => asking deps .tick (tick deps)

end MatchmakingPool

end EdoproServer.Matchmaking
