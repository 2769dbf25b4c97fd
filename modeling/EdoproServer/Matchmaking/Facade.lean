import EdoproServer.Matchmaking.Exclusion

namespace EdoproServer.Matchmaking
open Lib MatchmakingPool MatchmakingQueue

variable {deps : MatchmakingQueueDeps} {s s' : PoolState Lobby}

/-! ## The two maps -/

/-- A user has a ticket exactly when the record of the ticket is theirs. -/
def Inverse (lobby : Lobby) : Prop :=
  ∀ userId ticketId, lobby.usersInQueue.get userId = some ticketId ↔
    ∃ entry, lobby.record ticketId = some entry ∧ entry.userId = userId

theorem inverse_of_sound (h : QueueSound deps s) : Inverse s.world := by
  intro userId ticketId
  constructor
  · exact h.named userId ticketId
  · rintro ⟨entry, hrecord, rfl⟩
    obtain ⟨hlisted, hentry⟩ := record_eq_some.mp hrecord
    obtain ⟨own, hown, huser⟩ := h.books.recorded ticketId hlisted
    cases hentry.symm.trans hown
    exact huser

/-! ## The pool and the records -/

/-- Every searching record has its ticket in the pool, and every poll participant in the pool has a
searching record. -/
structure InStep (s : PoolState Lobby) : Prop where
  waiting : Reconciled s
  recorded : ∀ p ∈ s.ledger.held, p.presence = .poll →
    ∃ entry, s.world.record p.id = some entry ∧ entry.state = .searching

/-- What the records know of a poll participant. -/
structure Searching (p : Participant) (lobby : Lobby) : Prop where
  listed : p.presence = .poll → p.id ∈ lobby.records
  searching : p.presence = .poll → ∃ entry, lobby.entries.get p.id = some entry ∧
    entry.state = .searching

theorem found_entries {p : Participant} {ticketId : String} (hid : ticketId ≠ p.id)
    (notice : MatchFoundNotice) (lobby : Lobby) :
    (found notice lobby p).entries.get ticketId = lobby.entries.get ticketId := by
  unfold found
  split
  · rfl
  · split
    · rfl
    · rw [InsertionMap.get_set, if_neg hid]

/-- FOUND for others leaves a record as it is. -/
theorem tell_entries (m : Match) {told : List Participant} {ticketId : String}
    (others : ∀ p ∈ told, ticketId ≠ p.id) (lobby : Lobby) :
    (ProvisionMatchRoom.tell deps m told lobby).entries.get ticketId =
      lobby.entries.get ticketId := by
  unfold ProvisionMatchRoom.tell
  induction told generalizing lobby with
  | nil => rfl
  | cons p rest ih =>
    rw [List.foldl_cons, ih (fun q hq => others q (List.mem_cons_of_mem p hq)),
      found_entries (others p List.mem_cons_self)]

/-- With clean provisioning whoever stays in the pool keeps searching. -/
theorem searching_invariant (clean : CleanProvisioning deps) : WorldInvariant deps.pool
    (fun q lobby => q.presence = .poll → ∃ entry, lobby.entries.get q.id = some entry ∧
      entry.state = .searching) where
  call q lobby p message h := by
    obtain ⟨closed, he⟩ := call_eq lobby p message
    change q.presence = .poll → ∃ entry, (lobby.call p message).entries.get q.id = some entry ∧ _
    rw [he]
    exact h
  handle m others lobby ids users h := by
    change ∀ q ∈ (ProvisionMatchRoom.handle deps m lobby).2 ++ others, q.presence = .poll →
      ∃ entry, (ProvisionMatchRoom.handle deps m lobby).1.entries.get q.id = some entry ∧
        entry.state = .searching
    unfold ProvisionMatchRoom.handle
    split
    · obtain ⟨closed, he⟩ := reject_eq (ProvisionMatchRoom.missing m) lobby
      intro q hq
      rw [he]
      exact h q ((List.filter_sublist.append_right _).subset hq)
    · cases hraises : deps.raisesAfter m with
      | none =>
        intro q hq hpoll
        rw [List.map_append] at ids
        rw [tell_entries]
        · exact h q (List.mem_append_right _ hq) hpoll
        · intro p hp he
          exact (List.nodup_append.mp ids).2.2 _ (List.mem_map_of_mem hp) _
            (List.mem_map_of_mem hq) he.symm
      | some told =>
        simp only [tell_sockets deps m (clean m told hraises)]
        exact h

/-- Nothing in the pool changes which tickets the queue knows. `exempt` are the ids of which
nothing is said. -/
theorem listed_invariant (exempt : String → Prop) : WorldInvariant deps.pool
    (fun q lobby => q.presence = .poll → exempt q.id ∨ q.id ∈ lobby.records) := by
  refine respects_invariant ?_
  intro q lobby lobby' hr hq hpoll
  rw [hr.records]
  exact hq hpoll

section

variable (clean : CleanProvisioning deps)
include clean

theorem searching_step {admits : Lobby → UserId → Prop} (h : QueueSound deps s)
    (searching : ∀ q ∈ s.ledger.held, Searching q s.world)
    (move : QueueMove deps admits s s') : ∀ q ∈ s'.ledger.held, Searching q s'.world := by
  have hlisted : ∀ exempt : String → Prop, ∀ q ∈ s.ledger.held, q.presence = .poll →
      exempt q.id ∨ q.id ∈ s.world.records :=
    fun _ q hq hpoll => Or.inr ((searching q hq).listed hpoll)
  have hsearching : ∀ q ∈ s.ledger.held, q.presence = .poll →
      ∃ entry, s.world.entries.get q.id = some entry ∧ entry.state = .searching :=
    fun q hq => (searching q hq).searching
  cases move with
  | outside | session => exact fun q hq => ⟨(searching q hq).listed, (searching q hq).searching⟩
  | followed hf =>
    have hl := moves_world (listed_invariant fun _ => False) (queue_handsBack deps)
      h.sound.custody (hlisted fun _ => False) hf.moves
    have hk := moves_world (searching_invariant clean) (queue_handsBack deps)
      h.sound.custody hsearching hf.moves
    exact fun q hq => ⟨fun hpoll => (hl q hq hpoll).resolve_left id, hk q hq⟩
  | @drafted input time noRecord noSession =>
    intro q hq
    refine ⟨(searching q hq).listed, ?_⟩
    intro hpoll
    obtain ⟨entry, hentry, hstate⟩ := hsearching q hq hpoll
    refine ⟨entry, (setEntry_other ?_).trans hentry, hstate⟩
    intro hid
    cases noRecord.symm.trans (hid ▸ hentry)
  | @enqueued s' ref input time unregistered drafted free arrives =>
    have hl := arrives_world h (listed_invariant fun id => id = input.ticketId)
      (hlisted fun id => id = input.ticketId) (fun _ => Or.inl rfl) arrives
    have hk := arrives_world h (searching_invariant clean) hsearching
      (fun _ => ⟨_, drafted, rfl⟩) arrives
    intro q hq
    refine ⟨fun hpoll => ?_, hk q hq⟩
    exact (register_records input s'.world q.id).mpr (hl q hq hpoll).symm
  | @refreshed entry time known =>
    have hentry := (record_eq_some.mp known).2
    intro q hq
    refine ⟨(searching q hq).listed, ?_⟩
    intro hpoll
    obtain ⟨own, hown, hstate⟩ := hsearching q hq hpoll
    by_cases hid : q.id = entry.ticketId
    · rw [hid] at hown
      cases hentry.symm.trans hown
      refine ⟨{ entry with lastPollAt := time }, ?_, hstate⟩
      rw [hid]
      exact setEntry_own s.world { entry with lastPollAt := time }
    · refine ⟨own, (setEntry_other ?_).trans hown, hstate⟩
      exact hid
  | @released entry listed idle =>
    intro q hq
    refine ⟨?_, (searching q hq).searching⟩
    intro hpoll
    refine List.mem_filter.mpr ⟨(searching q hq).listed hpoll, decide_eq_true ?_⟩
    intro hid
    rcases idle with hgone | ⟨own, hown, hmatched⟩
    · exact hgone q hq hid
    · obtain ⟨entry', hentry', hstate⟩ := hsearching q hq hpoll
      rw [hid] at hentry'
      cases hown.symm.trans hentry'
      cases hmatched.symm.trans hstate
  | @entered s' ref socketId userId input time connected user admitted arrives =>
    have hl := arrives_world h (listed_invariant fun _ => False) (hlisted fun _ => False)
      (fun hpoll => by cases hpoll) arrives
    have hk := arrives_world h (searching_invariant clean) hsearching
      (fun hpoll => by cases hpoll) arrives
    exact fun q hq => ⟨fun hpoll => (hl q hq hpoll).resolve_left id, hk q hq⟩

end

/-! ## After a tick -/

theorem recorded_of_searching {p : Participant} {lobby : Lobby} (h : Searching p lobby)
    (polled : p.presence = .poll) :
    ∃ entry, lobby.record p.id = some entry ∧ entry.state = .searching := by
  obtain ⟨entry, hentry, hstate⟩ := h.searching polled
  exact ⟨entry, record_eq_some.mpr ⟨h.listed polled, hentry⟩, hstate⟩

/-- The requests that end with a tick of the queue, if they are not refused. -/
def Ticks : QueueRequest → Prop
  | .enqueue _ _ => True
  | .tick => True
  | _ => False

theorem ticks_reconcile (freshIds : Function.Injective deps.newMatchId) (h : QueueSound deps s)
    {request : QueueRequest} (fresh : FreshNames s request) (ticks : Ticks request)
    (served : serve deps request s = .ok ⟨⟩ s') : Reconciled s' := by
  cases request with
  | enqueue ref input =>
    rcases enqueue_ends (fun _ _ => True) freshIds h fresh with
      ⟨_, _, hrun, -, hreconciled⟩ | ⟨_, _, hraised, -⟩
    · cases served.symm.trans hrun
      exact hreconciled
    · cases served.symm.trans hraised
  | tick =>
    obtain ⟨_, _, hrun, -, hreconciled⟩ := tick_moves (fun _ _ => True) freshIds h
    cases served.symm.trans hrun
    exact hreconciled
  | _ => cases ticks

/-- Unless provisioning raises after a poll participant has been sent FOUND, the two maps are
inverse in every state of a run, and after every tick of the queue the records and the pool are in
step. -/
theorem facade_consistent (clean : CleanProvisioning deps)
    (freshIds : Function.Injective deps.newMatchId) (h : QueueRun deps (fun _ _ => True) s) :
    Inverse s.world ∧ ∀ request s', FreshNames s request → Ticks request →
      serve deps request s = .ok ⟨⟩ s' → InStep s' := by
  have hrun : ∀ {s}, QueueRun deps (fun _ _ => True) s →
      QueueSound deps s ∧ ∀ q ∈ s.ledger.held, Searching q s.world :=
    queueRun_keep (fun _ _ => True) (I := fun s => ∀ q ∈ s.ledger.held, Searching q s.world)
      freshIds (fun _ _ _ _ _ _ _ => trivial) (searching_step clean) (fun q hq => by cases hq)
  have hs := (hrun h).1
  refine ⟨inverse_of_sound hs, ?_⟩
  intro request s' hfresh hticks hserved
  have hnext := hrun (QueueRun.request h hfresh trivial)
  rw [hserved] at hnext
  refine ⟨ticks_reconcile freshIds hs hfresh hticks hserved, ?_⟩
  exact fun p hp hpoll => recorded_of_searching (hnext.2 p hp) hpoll

/-- Ana polls, and the tick after that leaves her record and her place in the pool in step. -/
theorem facade_consistent_ana :
    (afterServing [.enqueue 0 (poller "ticket 1" "ana")]).ledger.held.map Participant.id =
      ["ticket 1"] ∧
    Inverse (afterServing [.enqueue 0 (poller "ticket 1" "ana")]).world ∧
    ∀ s', serve openQueue .tick (afterServing [.enqueue 0 (poller "ticket 1" "ana")]) = .ok ⟨⟩ s' →
      InStep s' := by
  have hrun : QueueRun openQueue (fun _ _ => True)
      (afterServing [.enqueue 0 (poller "ticket 1" "ana")]) := by
    refine afterServing_run .initial ?_ trivial
    exact ⟨by decide +kernel, by decide +kernel, by decide +kernel⟩
  obtain ⟨hinverse, hticks⟩ := facade_consistent openQueue_clean openQueue_freshIds hrun
  exact ⟨by decide +kernel, hinverse, fun s' => hticks .tick s' trivial trivial⟩

/-- A queue whose provisioning raises when the second participant should be sent FOUND. -/
def raisingQueue : MatchmakingQueueDeps := { openQueue with raisesAfter := fun _ => some 1 }

def afterRaising : List QueueRequest → PoolState Lobby
  | [] => PoolState.initial .empty
  | request :: earlier => stateAfter (serve raisingQueue request (afterRaising earlier))

/-- Ana polls, Ben enters over a socket, and the two are paired. -/
def pollMeetsSocket : List QueueRequest :=
  [.enter 1 "ben" ranked, .capturePlayerInfo "ben", .authenticate "ben" "ben" none,
    .enqueue 0 (poller "ticket 1" "ana")]

theorem pollMeetsSocket_run :
    QueueRun raisingQueue (fun _ _ => True) (afterRaising pollMeetsSocket) := by
  refine .request (.request (.request (.request .initial ?_ trivial) ?_ trivial) ?_ trivial)
    ?_ trivial
  · exact ⟨by decide +kernel, by decide +kernel, by decide +kernel⟩
  · change _ = none
    decide +kernel
  · change _ = none
    decide +kernel
  · change ∀ q : Participant, q ∈ _ → q.ref ≠ 1
    decide +kernel

/-- Ana has been told of her room when the provisioning raises: she is back in the pool and her
record says matched. -/
theorem facade_inconsistent_ana :
    QueueRun raisingQueue (fun _ _ => True) (afterRaising pollMeetsSocket) ∧
      ∃ s', serve raisingQueue .tick (afterRaising pollMeetsSocket) = .ok ⟨⟩ s' ∧ ¬ InStep s' := by
  refine ⟨pollMeetsSocket_run, ?_⟩
  have hfresh : Function.Injective raisingQueue.newMatchId := openQueue_freshIds
  have hsound := queueRun_sound hfresh pollMeetsSocket_run
  obtain ⟨⟨⟩, s', hrun, -⟩ := tick_moves (fun _ _ => True) hfresh hsound
  refine ⟨s', hrun, ?_⟩
  have hafter : s' = stateAfter (tick raisingQueue (afterRaising pollMeetsSocket)) := by
    rw [hrun]
    rfl
  intro hstep
  obtain ⟨p, hp, hpoll, hmatched⟩ : ∃ p ∈ s'.ledger.held, p.presence = .poll ∧
      (s'.world.record p.id).map QueueEntry.state = some .matched := by
    rw [hafter]
    decide +kernel
  obtain ⟨entry, hrecord, hstate⟩ := hstep.recorded p hp hpoll
  rw [hrecord, Option.map_some, hstate] at hmatched
  cases hmatched

end EdoproServer.Matchmaking
