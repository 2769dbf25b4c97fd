import EdoproServer.Matchmaking.Exclusion

namespace EdoproServer.Matchmaking
open Lib MatchmakingPool MatchmakingQueue

/-! ## Who has been sent FOUND -/

namespace ProvisionMatchRoom

/-- Those the provisioning of a match sends FOUND before it ends or raises. -/
def toldFound (deps : MatchmakingQueueDeps) (m : Match) : List Participant :=
  if missing m ≠ [] then []
  else
    match deps.raisesAfter m with
    | none => m.participants
    | some told => m.participants.take told

theorem handle_tells {deps : MatchmakingQueueDeps} {m : Match} (complete : missing m = [])
    (lobby : Lobby) : (handle deps m lobby).1 = tell deps m (toldFound deps m) lobby := by
  simp only [handle, toldFound, complete, ne_eq, not_true_eq_false, if_false]
  cases deps.raisesAfter m with
  | none => rfl
  | some told => rfl

end ProvisionMatchRoom

/-- A match of the log has sent FOUND to the connection. -/
def FoundSent (deps : MatchmakingQueueDeps) (log : List PoolEvent) (socketId : String) : Prop :=
  ∃ m ∈ handledMatches log, ∃ p ∈ ProvisionMatchRoom.toldFound deps m,
    p.presence = .socket ∧ p.id = socketId

instance (deps : MatchmakingQueueDeps) (log : List PoolEvent) (socketId : String) :
    Decidable (FoundSent deps log socketId) :=
  inferInstanceAs (Decidable (∃ m ∈ handledMatches log,
    ∃ p ∈ ProvisionMatchRoom.toldFound deps m, p.presence = .socket ∧ p.id = socketId))

/-! ## What an honest CANCEL is -/

section

variable (deps : MatchmakingQueueDeps) (s : PoolState Lobby) (socketId : String)

/-- The CANCEL is refused as too late and the session is not idle afterwards. -/
def CancelledTooLate : Prop :=
  ∃ s', cancelMatchmaking deps socketId s = .ok (some .cancelTooLate) s' ∧
    (s'.world.session socketId).queueState ≠ .idle

/-- The CANCEL is confirmed, and afterwards the connection has no participant in the pool and none
in a match that was handed over. -/
def Cancelled : Prop :=
  ∃ s', cancelMatchmaking deps socketId s = .ok none s' ∧
    (∀ q ∈ s'.ledger.held, q.presence = .socket → q.id ≠ socketId) ∧
    ¬ FoundSent deps s'.log socketId

/-- Whoever has been sent FOUND cancels too late, and everyone else cancels. -/
def CancelHonest : Prop :=
  (FoundSent deps s.log socketId → CancelledTooLate deps s socketId) ∧
    (¬ FoundSent deps s.log socketId → Cancelled deps s socketId)

end

/-! ## Only the match handler hands a match over -/

section

variable {W : Type} {pool : MatchmakingPoolDeps W}

/-- The matches handed over are these. -/
def HandedOver (given : List Match) (s : PoolState W) : Prop := handledMatches s.log = given

variable {given : List Match}

theorem logExit_keeps (outcome : QueueExitOutcome) (p : Participant) :
    Keeps (HandedOver given) (logExit pool outcome p) := fun _ h => h

theorem removeAndLog_keeps (p : Participant) (outcome : QueueExitOutcome) :
    Keeps (HandedOver given) (removeAndLog pool p outcome) := by
  refine Keeps.bind (Keeps.updateGet fun _ h => h) ?_
  intro removed
  split
  · exact Keeps.bind (logExit_keeps outcome p) (fun _ => Keeps.pure _)
  · exact Keeps.pure _

theorem removeByIdAndLog_keeps (id : String) (outcome : QueueExitOutcome) :
    Keeps (HandedOver given) (removeByIdAndLog pool id outcome) := by
  refine Keeps.bind Keeps.read ?_
  intro s
  split
  · exact Keeps.pure _
  · exact removeAndLog_keeps _ outcome

theorem abandonWith_keeps {add : Participant → PoolM W Bool}
    (adds : ∀ p, Keeps (HandedOver given) (add p)) (pending : PendingMatch)
    (leaving : List Participant) (outcome : QueueExitOutcome) :
    Keeps (HandedOver given) (abandonWith pool add pending leaving outcome) := by
  refine Keeps.bind (Keeps.update fun _ h => h) fun _ => ?_
  refine Keeps.bind (Keeps.loop (logExit_keeps outcome) leaving) fun _ => ?_
  refine Keeps.bind (Keeps.updateGet fun _ h => h) fun time => ?_
  refine Keeps.bind (Keeps.update ?_) fun _ => ?_
  · intro s h
    dsimp only
    split
    · exact h
    · exact h
  · refine Keeps.bind (Keeps.loop ?_ _) fun _ => Keeps.update fun _ h => h
    exact fun p => Keeps.bind (adds p) fun _ => Keeps.update fun _ h => h

/-- `add` moves participants and drops proposals, at every depth. -/
theorem addWith_keeps (fuel : Nat) (p : Participant) :
    Keeps (HandedOver given) (addWith pool fuel p) := by
  induction fuel generalizing p with
  | zero => exact Keeps.pure _
  | succ fuel ih =>
    have hstore : Keeps (HandedOver given) (storeAdd p : PoolM W Unit) :=
      Keeps.update fun _ h => h
    have hcall : ∀ existing message, Keeps (HandedOver given) (call pool existing message) :=
      fun _ _ => Keeps.update fun _ h => h
    unfold addWith
    refine Keeps.bind Keeps.read fun s => ?_
    dsimp only
    split
    · exact Keeps.bind hstore fun _ => Keeps.pure _
    · rename_i existing _
      have hreplaces : ∀ drop : PoolM W Unit, Keeps (HandedOver given) drop →
          Keeps (HandedOver given) (do
            drop
            call pool existing (.close .replacedByNewConnection)
            storeAdd p
            return true : PoolM W Bool) := by
        intro drop hdrop
        refine Keeps.bind hdrop fun _ => Keeps.bind (hcall _ _) fun _ => ?_
        exact Keeps.bind hstore fun _ => Keeps.pure _
      split
      · refine Keeps.bind (Keeps.raise _) fun _ => ?_
        split
        · exact hreplaces _ (abandonWith_keeps ih _ _ _)
        · exact hreplaces _ (removeAndLog_keeps _ _).discard
      · split
        · exact hreplaces _ (abandonWith_keeps ih _ _ _)
        · exact hreplaces _ (removeAndLog_keeps _ _).discard

theorem leavePending_keeps (id : String) (outcome : QueueExitOutcome) :
    Keeps (HandedOver given) (leavePending pool id outcome) := by
  refine Keeps.bind Keeps.read fun s => ?_
  split
  · exact Keeps.pure _
  · refine Keeps.bind (abandonWith_keeps ?_ _ _ outcome) fun _ => Keeps.pure _
    exact fun p => Keeps.bind Keeps.read fun _ => addWith_keeps _ p

theorem dequeueBySocketId_keeps (socketId : String) :
    Keeps (HandedOver given) (dequeueBySocketId pool socketId) := by
  refine Keeps.bind (removeByIdAndLog_keeps socketId .dequeued) fun removed => ?_
  split
  · exact Keeps.pure _
  · exact leavePending_keeps socketId .declined

theorem perform_dequeue_keeps (socketId : String) :
    Keeps (HandedOver given) (perform pool (.dequeueBySocketId socketId)) := by
  refine Keeps.bind Keeps.read fun s => ?_
  exact Keeps.bind (dequeueBySocketId_keeps socketId).discard fun _ => Keeps.update fun _ h => h

end

/-! ## What sessions know of the pool -/

variable {deps : MatchmakingQueueDeps} {s s' : PoolState Lobby}

/-- Whoever is in the pool over a socket has a queued session, and no session is ever matched. -/
structure Attending (s : PoolState Lobby) : Prop where
  queued : ∀ q ∈ s.ledger.held, q.presence = .socket →
    (s.world.session q.id).queueState = .queued
  unmatched : ∀ id, (s.world.session id).queueState ≠ .matched

theorem session_setSession (lobby : Lobby) (socketId id : String) (session : Session) :
    (lobby.setSession socketId session).session id =
      if id = socketId then session else lobby.session id := by
  unfold Lobby.session Lobby.setSession
  rw [InsertionMap.get_set]
  split
  · rfl
  · rfl

theorem session_respects {lobby lobby' : Lobby} (h : Respects lobby lobby') (id : String) :
    lobby'.session id = lobby.session id := by
  rw [Lobby.session, h.sessions, Lobby.session]

/-- Nothing in the pool changes a session. `exempt` are the ids of which nothing is said. -/
theorem queued_invariant (exempt : String → Prop) : WorldInvariant deps.pool (fun q lobby =>
    q.presence = .socket → exempt q.id ∨ (lobby.session q.id).queueState = .queued) := by
  refine respects_invariant ?_
  intro q lobby lobby' hr hq hsocket
  rw [session_respects hr]
  exact hq hsocket

theorem attending_step {admits : Lobby → UserId → Prop} (h : QueueSound deps s)
    (attending : Attending s) (move : QueueMove deps admits s s') : Attending s' := by
  obtain ⟨hqueued, hunmatched⟩ := attending
  have hknown : ∀ exempt : String → Prop, ∀ q ∈ s.ledger.held, q.presence = .socket →
      exempt q.id ∨ (s.world.session q.id).queueState = .queued :=
    fun _ q hq hsocket => Or.inr (hqueued q hq hsocket)
  cases move with
  | outside | drafted | refreshed | released => exact ⟨hqueued, hunmatched⟩
  | followed hf =>
    have hr : Respects s.world s'.world := moves_relates (pool_respects deps) hf.moves
    have hkept := moves_world (queued_invariant fun _ => False) (queue_handsBack deps)
      h.sound.custody (hknown fun _ => False) hf.moves
    refine ⟨fun q hq hsocket => (hkept q hq hsocket).resolve_left id, fun id => ?_⟩
    rw [session_respects hr]
    exact hunmatched id
  | @enqueued s' ref input time unregistered drafted free arrives =>
    have hkept := arrives_world h (queued_invariant fun _ => False) (hknown fun _ => False)
      (fun hsocket => by cases hsocket) arrives
    refine ⟨fun q hq hsocket => (hkept q hq hsocket).resolve_left id, fun id => ?_⟩
    change (s'.world.session id).queueState ≠ .matched
    rw [session_respects (arrives_respects arrives).respects]
    exact hunmatched id
  | @entered s' ref socketId userId input time connected user admitted arrives =>
    have hkept := arrives_world h (queued_invariant fun id => id = socketId)
      (hknown fun id => id = socketId) (fun _ => Or.inl rfl) arrives
    constructor
    · intro q hq hsocket
      rw [session_setSession]
      split
      · rfl
      · rename_i hother
        exact (hkept q hq hsocket).resolve_left hother
    · intro id
      rw [session_setSession]
      split
      · exact fun hmatched => by cases hmatched
      · rw [session_respects (arrives_respects arrives).respects]
        exact hunmatched id
  | @session socketId session free identity queueState =>
    constructor
    · intro q hq hsocket
      rw [session_setSession]
      split
      · rename_i hid
        rcases queueState with hsame | ⟨-, hgone⟩
        · rw [hsame, ← hid]
          exact hqueued q hq hsocket
        · exact absurd hid (hgone q hq)
      · exact hqueued q hq hsocket
    · intro id
      rw [session_setSession]
      split
      · rcases queueState with hsame | ⟨hidle, -⟩
        · rw [hsame]
          exact hunmatched socketId
        · rw [hidle]
          exact fun hmatched => by cases hmatched
      · exact hunmatched id

theorem initial_attending : Attending (PoolState.initial .empty) where
  queued := fun q hq => by cases hq
  unmatched := fun id hmatched => by cases hmatched

/-! ## Cancelling -/

theorem cancelMatchmaking_queued {socketId : String}
    (queued : (s.world.session socketId).queueState = .queued)
    (left : perform deps.pool (.dequeueBySocketId socketId) s = .ok ⟨⟩ s') :
    cancelMatchmaking deps socketId s = .ok none { s' with
      world := s'.world.setSession socketId
        { s'.world.session socketId with queueState := .idle } } := by
  simp only [cancelMatchmaking, bind, EStateM.bind, get, getThe, MonadStateOf.get, EStateM.get,
    queued, left]
  rfl

theorem cancelMatchmaking_idle {socketId : String}
    (idle : (s.world.session socketId).queueState = .idle) :
    cancelMatchmaking deps socketId s = .ok none s := by
  simp only [cancelMatchmaking, bind, EStateM.bind, get, getThe, MonadStateOf.get, EStateM.get,
    idle]
  rfl

/-- A queued connection leaves the pool, its session turns idle, and no match is handed over. -/
theorem cancel_queued (h : QueueSound deps s) {socketId : String}
    (queued : (s.world.session socketId).queueState = .queued)
    (unsent : ¬ FoundSent deps s.log socketId) : Cancelled deps s socketId := by
  obtain ⟨⟨⟩, s', hleft, -⟩ := perform_dequeue_runs (queue_handsBack deps) h.sound socketId
  have hgone := dequeue_gone (queue_handsBack deps) h.sound socketId
  have hgiven : HandedOver (handledMatches s.log)
      (stateAfter (perform deps.pool (.dequeueBySocketId socketId) s)) :=
    perform_dequeue_keeps socketId s rfl
  rw [hleft] at hgone hgiven
  refine ⟨_, cancelMatchmaking_queued queued hleft, fun q hq _ => hgone q hq, ?_⟩
  have hsame : handledMatches s'.log = handledMatches s.log := hgiven
  rintro ⟨m, hm, hsent⟩
  exact unsent ⟨m, hsame ▸ hm, hsent⟩

/-- An idle session has nobody in the pool. -/
theorem cancel_idle (attending : Attending s) {socketId : String}
    (idle : (s.world.session socketId).queueState = .idle)
    (unsent : ¬ FoundSent deps s.log socketId) : Cancelled deps s socketId := by
  refine ⟨s, cancelMatchmaking_idle idle, ?_, unsent⟩
  rintro q hq hsocket rfl
  cases idle.symm.trans (attending.queued q hq hsocket)

/-- Nobody is ever told that it is too late, so a CANCEL is honest exactly while the connection has
not been sent FOUND. -/
theorem cancel_honest_iff (freshIds : Function.Injective deps.newMatchId)
    (h : QueueRun deps (fun _ _ => True) s) (socketId : String) :
    CancelHonest deps s socketId ↔ ¬ FoundSent deps s.log socketId := by
  obtain ⟨hs, hattending⟩ := queueRun_keep (fun _ _ => True) freshIds
    (fun _ _ _ _ _ _ _ => trivial) attending_step initial_attending h
  constructor
  · intro honest hsent
    obtain ⟨s', hrun, -⟩ := honest.1 hsent
    cases hstate : (s.world.session socketId).queueState with
    | matched => exact hattending.unmatched socketId hstate
    | queued =>
      obtain ⟨⟨⟩, s₁, hleft, -⟩ := perform_dequeue_runs (queue_handsBack deps) hs.sound socketId
      cases (cancelMatchmaking_queued hstate hleft).symm.trans hrun
    | idle => cases (cancelMatchmaking_idle hstate).symm.trans hrun
  · intro unsent
    refine ⟨fun hsent => absurd hsent unsent, fun _ => ?_⟩
    cases hstate : (s.world.session socketId).queueState with
    | matched => exact absurd hstate (hattending.unmatched socketId)
    | queued => exact cancel_queued hs hstate unsent
    | idle => exact cancel_idle hattending hstate unsent

/-- Eve waits in the pool while Ana and Ben have their room, and can cancel. -/
theorem cancel_honest_eve :
    (∃ q ∈ (afterServing (pairThenEnter "eve")).ledger.held, q.id = "socket") ∧
      CancelHonest openQueue (afterServing (pairThenEnter "eve")) "socket" := by
  refine ⟨by decide +kernel, (cancel_honest_iff openQueue_freshIds
    (pairThenEnter_run (Or.inr rfl) (fun _ _ _ => trivial) trivial) "socket").mpr ?_⟩
  decide +kernel

/-- A connection of a user who has sent PLAYER_INFO and enters. -/
def connectAndEnter (ref : Nat) (socketId : String) : List QueueRequest :=
  [.enter ref socketId ranked, .capturePlayerInfo socketId, .authenticate socketId socketId none]

/-- Two connections enter and are paired. -/
def pairSockets : List QueueRequest := connectAndEnter 1 "ben" ++ connectAndEnter 0 "ana"

theorem pairSockets_run : QueueRun openQueue (fun _ _ => True) (afterServing pairSockets) := by
  refine afterServing_run (afterServing_run (afterServing_run (afterServing_run (afterServing_run
    (afterServing_run .initial ?_ trivial) ?_ trivial) ?_ trivial) ?_ trivial) ?_ trivial)
    ?_ trivial
  · change _ = none
    decide +kernel
  · change _ = none
    decide +kernel
  · change ∀ q : Participant, q ∈ _ → q.ref ≠ 0
    decide +kernel
  · change _ = none
    decide +kernel
  · change _ = none
    decide +kernel
  · change ∀ q : Participant, q ∈ _ → q.ref ≠ 1
    decide +kernel

/-- What CANCEL was answered. -/
def cancelAnswer (deps : MatchmakingQueueDeps) (s : PoolState Lobby) (socketId : String) :
    Option (Option RejectionReason) :=
  match cancelMatchmaking deps socketId s with
  | .ok reason _ => some reason
  | .error _ _ => none

/-- Ana has been sent FOUND for her match with Ben, and her CANCEL is confirmed all the same. -/
theorem cancel_dishonest_ana :
    QueueRun openQueue (fun _ _ => True) (afterServing pairSockets) ∧
      FoundSent openQueue (afterServing pairSockets).log "ana" ∧
      ¬ CancelHonest openQueue (afterServing pairSockets) "ana" := by
  have hsent : FoundSent openQueue (afterServing pairSockets).log "ana" := by decide +kernel
  refine ⟨pairSockets_run, hsent, ?_⟩
  intro honest
  obtain ⟨s', hrun, -⟩ := honest.1 hsent
  have hanswer : cancelAnswer openQueue (afterServing pairSockets) "ana" = some none := by
    decide +kernel
  rw [cancelAnswer, hrun] at hanswer
  cases hanswer

end EdoproServer.Matchmaking
