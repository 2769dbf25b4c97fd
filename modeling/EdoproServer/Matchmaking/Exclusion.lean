import EdoproServer.Matchmaking.Bookkeeping
import EdoproServer.Matchmaking.Guarantees

namespace EdoproServer.Matchmaking
open Lib MatchmakingPool MatchmakingQueue

variable {deps : MatchmakingQueueDeps} {s s' : PoolState Lobby}

/-! ## What keeps the pool in step with the records -/

/-- A user who is let in over a socket has no room reserved. -/
def Unreserved (lobby : Lobby) (userId : UserId) : Prop := ¬ HoldsMatched lobby userId

/-- Nobody the queue does not know has a room reserved. -/
theorem unreserved_of_free {lobby : Lobby} (h : Books lobby) {userId : UserId}
    (free : lobby.usersInQueue.get userId = none) : ¬ HoldsMatched lobby userId := by
  rintro ⟨ticketId, record, hrecord, -, howner⟩
  obtain ⟨hlisted, hget⟩ := record_eq_some.mp hrecord
  obtain ⟨record', hget', huser⟩ := h.recorded ticketId hlisted
  cases hget.symm.trans hget'
  rw [howner, free] at huser
  cases huser

/-- The record that is registered is searching, so nobody gets a room with it. -/
theorem register_known {q : Participant} {lobby : Lobby} (h : Known q lobby) {input : EnqueueInput}
    {entry : QueueEntry} (hentry : lobby.entries.get input.ticketId = some entry)
    (searching : entry.state = .searching) : Known q (register input lobby) := by
  refine ⟨h.polled, h.connected, ?_⟩
  rintro ⟨ticketId, record, hrecord, hstate, howner⟩
  obtain ⟨hlisted, hget⟩ := record_eq_some.mp hrecord
  rcases (register_records input lobby ticketId).mp hlisted with hlisted | rfl
  · exact h.unreserved ⟨ticketId, record, record_eq_some.mpr ⟨hlisted, hget⟩, hstate, howner⟩
  · cases hentry.symm.trans hget
    rw [searching] at hstate
    cases hstate

section

variable (clean : CleanProvisioning deps)
include clean

/-- Whoever enqueues has a searching record and, unknown to the queue, no room reserved. -/
theorem enqueued_known (h : QueueSound deps s) (known : ∀ q ∈ s.ledger.held, Known q s.world)
    {ref : Nat} {input : EnqueueInput} {time : Int}
    (drafted : s.world.entries.get input.ticketId = some (newRecord input time))
    (free : s.world.usersInQueue.get input.userId = none)
    (arrives : EvictsAndEnters deps.pool s (pollParticipant ref input time) s') :
    ∀ q ∈ s'.ledger.held, Known q (register input s'.world) := by
  have hp : Known (pollParticipant ref input time) s.world :=
    ⟨fun _ => ⟨_, drafted, rfl, rfl⟩, fun hsocket => (by cases hsocket),
      unreserved_of_free h.books free⟩
  have hkept := arrives_world h (known_invariant clean) known hp arrives
  have hheld : pollParticipant ref input time ∈ s'.ledger.held := (arrives_respects arrives).held
  obtain ⟨entry, hentry, -, hsearching⟩ := (hkept _ hheld).polled rfl
  exact fun q hq => register_known (hkept q hq) hentry hsearching

theorem known_step (h : QueueSound deps s) (known : ∀ q ∈ s.ledger.held, Known q s.world)
    (move : QueueMove deps Unreserved s s') : ∀ q ∈ s'.ledger.held, Known q s'.world := by
  cases move with
  | outside reads closedSockets botUp =>
    exact fun q hq => ⟨(known q hq).polled, (known q hq).connected, (known q hq).unreserved⟩
  | followed hf =>
    exact moves_world (known_invariant clean) (queue_handsBack deps) h.sound.custody known hf.moves
  | drafted time noRecord noSession =>
    intro q hq
    refine setEntry_known (known q hq) ?_ ?_
    · intro old hold
      cases noRecord.symm.trans hold
    · intro _ hlisted
      obtain ⟨old, hold, -⟩ := h.books.recorded _ hlisted
      cases noRecord.symm.trans hold
  | enqueued unregistered drafted free arrives =>
    exact enqueued_known clean h known drafted free arrives
  | @refreshed entry time listed =>
    have hentry := (record_eq_some.mp listed).2
    intro q hq
    refine setEntry_known (known q hq) ?_ ?_
    · intro old hold
      rw [← Option.some.inj (hentry.symm.trans hold)]
      exact ⟨rfl, rfl⟩
    · intro hnone
      cases hentry.symm.trans hnone
  | released listed idle => exact fun q hq => removeRecord_known (known q hq) _
  | entered connected user admitted arrives =>
    intro q hq
    refine setSession_known ?_ (fun _ hu => hu)
    refine arrives_world h (known_invariant clean) known ?_ arrives q hq
    exact ⟨fun hpoll => (by cases hpoll), fun _ => ⟨_, connected, user⟩, admitted⟩
  | session free identity queueState =>
    exact fun q hq => setSession_known (known q hq) identity

/-- Every run in which users enter with care keeps the pool in step with the records. -/
theorem queueRun_keeps (freshIds : Function.Injective deps.newMatchId)
    (h : QueueRun deps (Careful deps) s) : QueueInvariant deps s := by
  obtain ⟨hs, hknown⟩ := queueRun_keep Unreserved
    (I := fun s => ∀ q ∈ s.ledger.held, Known q s.world)
    freshIds (fun _ _ _ _ userId careful hgate => careful userId hgate)
    (fun hs known move => known_step clean hs known move) (fun q hq => by cases hq) h
  exact ⟨hs.sound, hknown, hs.books⟩

end

/-! ## No user is active twice -/

/-- As long as nobody whose reserved room is still on the books enters over a socket, no user has a
matched record and a place in the pool. -/
theorem never_active_twice (clean : CleanProvisioning deps)
    (freshIds : Function.Injective deps.newMatchId) (h : QueueRun deps (Careful deps) s)
    (time : Int) (userId : UserId) : ¬ ActiveTwice s time userId := by
  have hinvariant := queueRun_keeps clean freshIds h
  rintro ⟨⟨ticketId, entry, hrecord, hstate, howner, -⟩, q, hq, huser⟩
  exact (hinvariant.known q hq).unreserved
    ⟨ticketId, entry, hrecord, hstate, howner.trans huser.symm⟩

instance (lobby : Lobby) (userId : UserId) : Decidable (HoldsMatched lobby userId) :=
  decidable_of_iff (∃ entry ∈ lobby.records.filterMap lobby.record,
    entry.state = .matched ∧ entry.userId = userId) <| by
  constructor
  · rintro ⟨entry, hentry, hstate, howner⟩
    obtain ⟨ticketId, -, hrecord⟩ := List.mem_filterMap.mp hentry
    exact ⟨ticketId, entry, hrecord, hstate, howner⟩
  · rintro ⟨ticketId, entry, hrecord, hstate, howner⟩
    exact ⟨entry, List.mem_filterMap.mpr ⟨ticketId, (record_eq_some.mp hrecord).1, hrecord⟩,
      hstate, howner⟩

/-- A queue whose rooms are always there, with a clock that ticks at every reading. -/
def openQueue : MatchmakingQueueDeps where
  now n := n
  newMatchId n := String.ofList (List.replicate n 'm')
  version := 1
  room _ := (7, "r7")
  raisesAfter _ := none

theorem openQueue_freshIds : Function.Injective openQueue.newMatchId := openPool_freshIds

theorem openQueue_clean : CleanProvisioning openQueue := fun _ _ h => by cases h

/-- The state of the open queue after the requests, the newest first. -/
def afterServing : List QueueRequest → PoolState Lobby
  | [] => PoolState.initial .empty
  | request :: earlier => stateAfter (serve openQueue request (afterServing earlier))

theorem afterServing_run {meets : PoolState Lobby → QueueRequest → Prop} {request : QueueRequest}
    {earlier : List QueueRequest} (h : QueueRun openQueue meets (afterServing earlier))
    (fresh : FreshNames (afterServing earlier) request)
    (condition : meets (afterServing earlier) request) :
    QueueRun openQueue meets (afterServing (request :: earlier)) := by
  rw [afterServing]
  exact .request h fresh condition

def poller (ticketId userId : String) : EnqueueInput :=
  { ticketId := ticketId, userId := userId, format := .tcg, displayName := none,
    botFallbackAfterMs := none }

def ranked : EnterMatchmakingInput :=
  { format := .tcg, mode := .ranked, clientVersion := 1, botFallbackAfterMs := none,
    supportsAcceptStep := none }

/-- Ana and Ben poll and are paired, then somebody connects. -/
def pairThenConnect (userId : UserId) : List QueueRequest :=
  [.capturePlayerInfo "socket", .authenticate "socket" userId none,
    .enqueue 1 (poller "ticket 2" "ben"), .enqueue 0 (poller "ticket 1" "ana")]

def pairThenEnter (userId : UserId) : List QueueRequest :=
  .enter 2 "socket" ranked :: pairThenConnect userId

/-- Only letting somebody in over the socket can break a condition on ENTER. -/
theorem pairThenEnter_run {meets : PoolState Lobby → QueueRequest → Prop} {userId : UserId}
    (visitor : userId = "ana" ∨ userId = "eve")
    (others : ∀ s request, (∀ ref socketId input, request ≠ .enter ref socketId input) →
      meets s request)
    (entering : meets (afterServing (pairThenConnect userId)) (.enter 2 "socket" ranked)) :
    QueueRun openQueue meets (afterServing (pairThenEnter userId)) := by
  have hpair : QueueRun openQueue meets (afterServing
      [.enqueue 1 (poller "ticket 2" "ben"), .enqueue 0 (poller "ticket 1" "ana")]) := by
    refine afterServing_run (afterServing_run .initial ?_ (others _ _ (by simp))) ?_
      (others _ _ (by simp))
    · exact ⟨by decide +kernel, by decide +kernel, by decide +kernel⟩
    · exact ⟨by decide +kernel, by decide +kernel, by decide +kernel⟩
  refine afterServing_run (afterServing_run (afterServing_run hpair ?_ (others _ _ (by simp))) ?_
    (others _ _ (by simp))) ?_ entering
  · change _ = none
    decide +kernel
  · change _ = none
    rcases visitor with rfl | rfl
    · decide +kernel
    · decide +kernel
  · change ∀ q ∈ entered (afterServing (pairThenConnect userId)).log, q.ref ≠ 2
    rcases visitor with rfl | rfl
    · decide +kernel
    · decide +kernel

/-- Ana and Ben have a room reserved and Eve waits in the pool, and nobody is active twice. -/
theorem never_active_twice_eve :
    HoldsMatched (afterServing (pairThenEnter "eve")).world "ana" ∧
    (afterServing (pairThenEnter "eve")).ledger.held.map Participant.userId = ["eve"] ∧
    ∀ userId, ¬ ActiveTwice (afterServing (pairThenEnter "eve")) 10 userId := by
  refine ⟨by decide +kernel, by decide +kernel, fun userId =>
    never_active_twice openQueue_clean openQueue_freshIds
      (pairThenEnter_run (Or.inr rfl) ?_ ?_) 10 userId⟩
  · intro s request h
    cases request with
    | enter ref socketId input => exact absurd rfl (h ref socketId input)
    | _ => trivial
  · intro userId hgate
    have hgate' : enterGate openQueue
        ((afterServing (pairThenConnect "eve")).world.session "socket") ranked = .ok "eve" := by
      decide +kernel
    cases hgate.symm.trans hgate'
    decide +kernel

/-- Ana has a room reserved with Ben, connects, enters, and waits in the pool as well. -/
theorem ana_active_twice :
    QueueRun openQueue (fun _ _ => True) (afterServing (pairThenEnter "ana")) ∧
      ActiveTwice (afterServing (pairThenEnter "ana")) 10 "ana" := by
  refine ⟨pairThenEnter_run (Or.inl rfl) (fun _ _ _ => trivial) trivial, ⟨"ticket 1",
    ((afterServing (pairThenEnter "ana")).world.record "ticket 1").get (by decide +kernel), ?_⟩, ?_⟩
  · exact ⟨(Option.some_get _).symm, by decide +kernel⟩
  · decide +kernel

end EdoproServer.Matchmaking
