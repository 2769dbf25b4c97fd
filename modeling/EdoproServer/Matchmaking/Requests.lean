import EdoproServer.Matchmaking.Proposals
import EdoproServer.Matchmaking.TickRefinement

namespace EdoproServer.Matchmaking
open Lib MatchmakingPool

variable {W : Type}

/-- What callers of `add` promise: the object is a new one, and nobody of another user goes by
its id (a ticket id, or the id of a socket that authenticated as one user). -/
structure Arrival (s : PoolState W) (p : Participant) : Prop where
  newObject : ∀ q ∈ entered s.log, q.ref ≠ p.ref
  ownId : ∀ q ∈ s.ledger.held, q.id = p.id → q.userId = p.userId

def Admissible (s : PoolState W) : PoolRequest → Prop
  | .add p => Arrival s p
  | _ => True

variable {deps : MatchmakingPoolDeps W}

/-- A poll arrival of a user the pool holds is refused and changes nothing. -/
theorem perform_refused {s : PoolState W} {p : Participant} (hpoll : p.presence = .poll)
    (hexisting : (∃ existing, s.store.findByUserId p.userId = some existing) ∨
      s.store.findByUserId p.userId = none ∧
        ∃ found, s.pending.findByUserId p.userId = some found) :
    perform deps (.add p) s = .error { userId := p.userId } s := by
  have hrun : add deps p s = .error { userId := p.userId } s := by
    change addWith deps (s.pending.size + 1) p s = _
    rw [addWith]
    rcases hexisting with ⟨existing, hqueued⟩ | ⟨hnone, found, hfound⟩
    · simp [bind, EStateM.bind, get, getThe, MonadStateOf.get, EStateM.get, hqueued, hpoll, throw,
        throwThe, MonadExceptOf.throw, EStateM.throw]
    · simp [bind, EStateM.bind, get, getThe, MonadStateOf.get, EStateM.get, hnone, hfound, hpoll,
        throw, throwThe, MonadExceptOf.throw, EStateM.throw]
  exact bind_raises hrun

/-- `p` enters the store of a pool that holds nobody with its id or of its user. -/
structure Enters (s : PoolState W) (p : Participant) (s' : PoolState W) : Prop where
  state : s' = { s with store := s.store.add p, log := .entered p :: s.log }
  freshObject : ∀ q ∈ entered s.log, q.ref ≠ p.ref
  freshId : ∀ q ∈ s.ledger.held, q.id ≠ p.id
  freshUser : ∀ q ∈ s.ledger.held, q.userId ≠ p.userId

theorem Enters.ledger {s s' : PoolState W} {p : Participant} (h : Enters s p s')
    (hs : Sound deps s) : s'.ledger = { s.ledger with
      store := s.ledger.store ++ [p]
      log := .entered p :: s.ledger.log } := by
  rw [h.state]
  simp only [PoolState.ledger, InMemoryPoolStore.participants_add hs.store
    (fun q hq => h.freshId q (List.mem_append_left _ hq))]

theorem Enters.sound {s s' : PoolState W} {p : Participant} (h : Enters s p s')
    (hs : Sound deps s) : Sound deps s' where
  store := by
    rw [h.state]
    exact InMemoryPoolStore.add_valid hs.store
      (fun q hq => h.freshId q (List.mem_append_left _ hq))
      (fun q hq => h.freshUser q (List.mem_append_left _ hq))
  keyed := by
    rw [h.state]
    exact hs.keyed
  drawn := by
    rw [h.state]
    simpa [namedIds] using hs.drawn
  custody := by
    rw [h.ledger hs]
    exact enter_custody hs.custody h.freshObject h.freshId h.freshUser

theorem Enters.proposals {s s' : PoolState W} {p : Participant} (h : Enters s p s')
    (hs : Sound deps s) (hp : Proposals deps s.ledger) : Proposals deps s'.ledger := by
  rw [h.ledger hs]
  exact enter_proposals hp h.freshUser

/-- An arrival evicts whoever is there of its user, which only tells participants about it, and
enters. -/
def EvictsAndEnters (deps : MatchmakingPoolDeps W) (s : PoolState W) (p : Participant)
    (s' : PoolState W) : Prop :=
  ∃ s₁, Follows deps s s₁ ∧ Told deps s.world s₁.world ∧ Enters s₁ p s'

/-- An arrival is refused and changes nothing, or it enters. -/
def Arrives (deps : MatchmakingPoolDeps W) (s : PoolState W) (p : Participant) : Prop :=
  perform deps (.add p) s = .error { userId := p.userId } s ∨
    Runs (perform deps (.add p)) s (fun _ s' => EvictsAndEnters deps s p s')

section

variable (handsBack : HandsBack deps) {s : PoolState W} (h : Sound deps s)
include handsBack h

omit handsBack h in
/-- A participant whose user the pool does not hold any more enters. -/
theorem enters_of_follows {s' : PoolState W} {p : Participant} (hf : Follows deps s s')
    (told : Told deps s.world s'.world) (arrival : Arrival s p)
    (held : ∀ q ∈ s'.ledger.held, q ∈ s.ledger.held ∧ q.userId ≠ p.userId) :
    EvictsAndEnters deps s p
      { s' with store := s'.store.add p, log := .entered p :: s'.log } := by
  refine ⟨s', hf, told, rfl, ?_, ?_, fun q hq => (held q hq).2⟩
  · intro q hq
    have hentered : entered s'.log = entered s.log := moves_entered hf.moves
    exact arrival.newObject q (hentered ▸ hq)
  · intro q hq he
    exact (held q hq).2 (arrival.ownId q (held q hq).1 he)

/-- A user who is searching is replaced, or the poll arrival is refused. -/
theorem add_queued_arrives {p existing : Participant} (arrival : Arrival s p)
    (hfound : s.store.findByUserId p.userId = some existing) :
    Arrives deps s p := by
  obtain ⟨hexisting, huser⟩ := (InMemoryPoolStore.findByUserId_eq_some h.store).mp hfound
  by_cases hpoll : p.presence = .poll
  · exact Or.inl (perform_refused hpoll (Or.inl ⟨existing, hfound⟩))
  · refine Or.inr (Runs.bind (Runs.bind (Runs.read ?_)))
    rw [addWith]
    refine Runs.bind (Runs.read ?_)
    simp only [hfound, Option.isSome_some, if_true, Option.some_or, hpoll, if_false, Option.map]
    refine Runs.bind (Runs.discard (Runs.mono (removeAndLog_follows handsBack h hexisting rfl) ?_))
    rintro _ s₁ ⟨-, hf₁, hpending, hworld, hparts⟩
    refine Runs.bind (Runs.of_eq (call_run _ _ _) ?_)
    refine Runs.bind (Runs.update (Runs.pure (Runs.update ?_)))
    refine enters_of_follows (hf₁.trans (call_follows handsBack hf₁.sound _ _)) ?_ arrival ?_
    · rw [← hworld]
      exact Relation.ReflTransGen.single ⟨_, _, rfl⟩
    intro q hq
    have hheld : q ∈ s.ledger.held ∧ q ≠ existing := by
      rcases List.mem_append.mp hq with hq | hq
      · change q ∈ s₁.store.participants at hq
        rw [hparts] at hq
        obtain ⟨hq, hne⟩ := List.mem_filter.mp hq
        exact ⟨List.mem_append_left _ hq, fun he => of_decide_eq_true hne (he ▸ rfl)⟩
      · obtain ⟨pending, hp, hqp⟩ := List.mem_flatMap.mp hq
        change pending ∈ s₁.pending.all at hp
        rw [hpending] at hp
        exact ⟨participant_held hp hqp,
          fun he => not_searching h.custody hp hqp (he ▸ hexisting)⟩
    refine ⟨hheld.1, fun he => hheld.2 ?_⟩
    exact List.inj_on_of_nodup_map h.custody.users hheld.1 (List.mem_append_left _ hexisting)
      (he.trans huser.symm)

/-- A user whose match is pending is replaced and the match is dropped. -/
theorem add_pending_arrives {p : Participant} {found : PendingParticipant}
    (arrival : Arrival s p) (hnone : s.store.findByUserId p.userId = none)
    (hfound : s.pending.findByUserId p.userId = some found) :
    Arrives deps s p := by
  obtain ⟨hwaiting, hinside, huser⟩ := PendingMatches.find_eq_some hfound
  have huser := of_decide_eq_true huser
  by_cases hpoll : p.presence = .poll
  · exact Or.inl (perform_refused hpoll (Or.inr ⟨hnone, found, hfound⟩))
  · obtain ⟨n, hn⟩ : ∃ n, s.pending.size = n + 1 := by
      cases hsize : s.pending.size with
      | zero =>
        have hempty : s.pending.all = [] :=
          List.eq_nil_of_length_eq_zero ((InsertionMap.length_values s.pending).trans hsize)
        rw [hempty] at hwaiting
        cases hwaiting
      | succ n => exact ⟨n, rfl⟩
    refine Or.inr (Runs.bind (Runs.bind (Runs.read ?_)))
    rw [hn, addWith]
    refine Runs.bind (Runs.read ?_)
    simp only [hnone, hfound, Option.isSome_none, Bool.false_eq_true, if_false, Option.none_or,
      Option.map_some, hpoll]
    refine Runs.bind (Runs.mono (abandonWith_follows handsBack h (addWith_stores n) hwaiting
      (List.singleton_sublist.mpr hinside) rfl) ?_)
    rintro _ s₁ ⟨hf₁, hpending, hparts, htold⟩
    refine Runs.bind (Runs.of_eq (call_run _ _ _) ?_)
    refine Runs.bind (Runs.update (Runs.pure (Runs.update ?_)))
    refine enters_of_follows (hf₁.trans (call_follows handsBack hf₁.sound _ _))
      (htold.tail ⟨_, _, rfl⟩) arrival ?_
    intro q hq
    have hheld : q ∈ s.ledger.held ∧ q ≠ found.participant := by
      rcases List.mem_append.mp hq with hq | hq
      · change q ∈ s₁.store.participants at hq
        rw [hparts] at hq
        rcases List.mem_append.mp hq with hq | hq
        · exact ⟨List.mem_append_left _ hq,
            fun he => not_searching h.custody hwaiting hinside (he ▸ hq)⟩
        · obtain ⟨hq, hne⟩ := List.mem_filter.mp hq
          exact ⟨participant_held hwaiting hq,
            fun he => of_decide_eq_true hne (List.mem_singleton.mpr he)⟩
      · obtain ⟨pending, hp, hqp⟩ := List.mem_flatMap.mp hq
        change pending ∈ s₁.pending.all at hp
        rw [hpending, PendingMatches.all_delete h.keyed] at hp
        obtain ⟨hp, hne⟩ := List.mem_filter.mp hp
        exact ⟨participant_held hp hqp, fun he => not_in_other h.custody hwaiting hinside hp
          (of_decide_eq_true hne) (he ▸ hqp)⟩
    refine ⟨hheld.1, fun he => hheld.2 ?_⟩
    exact List.inj_on_of_nodup_map h.custody.users hheld.1 (participant_held hwaiting hinside)
      (he.trans huser.symm)

/-- Whoever arrives enters, or is refused and changes nothing. -/
theorem add_arrives {p : Participant} (arrival : Arrival s p) :
    Arrives deps s p := by
  cases hqueued : s.store.findByUserId p.userId with
  | some existing => exact add_queued_arrives handsBack h arrival hqueued
  | none =>
    cases hpending : s.pending.findByUserId p.userId with
    | some found => exact add_pending_arrives handsBack h arrival hqueued hpending
    | none =>
      have hstore := (InMemoryPoolStore.findByUserId_eq_none h.store).mp hqueued
      have hwait : ∀ pending ∈ s.pending.all, ∀ q ∈ pending.pairing.participants,
          q.userId ≠ p.userId := fun pending hp q hq =>
        of_decide_eq_false (PendingMatches.find_eq_none.mp hpending pending hp q hq)
      refine Or.inr (Runs.bind (Runs.bind (Runs.read ?_)))
      refine Runs.of_eq (addWith_absent _ h.store hstore hwait) (Runs.update ?_)
      refine enters_of_follows (Follows.refl h) Relation.ReflTransGen.refl arrival ?_
      intro q hq
      refine ⟨hq, ?_⟩
      rcases List.mem_append.mp hq with hq | hq
      · exact hstore q hq
      · obtain ⟨pending, hp, hqp⟩ := List.mem_flatMap.mp hq
        exact hwait pending hp q hqp

omit h in
/-- A request whose effect is there when it has been answered goes into the log. -/
theorem asking_runs {request : PoolRequest} {body : PoolM W Unit}
    (run : Runs body s (fun _ s' => Follows deps s s' ∧
      Answered s'.ledger request (deps.now s.reads))) :
    Runs (asking deps request body) s (fun _ s' => Follows deps s s') := by
  refine Runs.bind (Runs.read (Runs.bind (Runs.mono run ?_)))
  rintro _ s' ⟨hf, hanswered⟩
  refine Runs.update (hf.trans (Follows.move handsBack hf.sound ⟨hf.sound.store, hf.sound.keyed, ?_⟩
    (Move.answer s'.ledger (moves_reads hf.moves) hanswered)))
  simpa [namedIds] using hf.sound.drawn

omit h in
theorem asking_follows {request : PoolRequest} {body : PoolM W Unit}
    (run : Runs body s (fun _ s' => Follows deps s s' ∧
      Answered s'.ledger request (deps.now s.reads))) :
    Follows deps s (stateAfter (asking deps request body s)) :=
  (asking_runs handsBack run).after (Follows deps s) (fun _ _ hf => hf)

omit handsBack h in
/-- The answer to a request puts nobody back in the pool. -/
theorem asking_gone {request : PoolRequest} {body : PoolM W Unit} {id : String}
    (run : Runs body s (fun _ s' => Follows deps s s' ∧ Gone s' id)) :
    Gone (stateAfter (asking deps request body s)) id := by
  have hrun : Runs (asking deps request body) s (fun _ s' => Gone s' id) := by
    refine Runs.bind (Runs.read (Runs.bind (Runs.mono run ?_)))
    rintro _ s' ⟨-, hgone⟩
    exact Runs.update hgone
  exact hrun.after (fun s' => Gone s' id) (fun _ _ hgone => hgone)

theorem remove_gone (id : String) : Gone (stateAfter (perform deps (.remove id) s)) id :=
  asking_gone (remove_follows handsBack h id)

theorem dequeue_gone (id : String) :
    Gone (stateAfter (perform deps (.dequeueBySocketId id) s)) id :=
  asking_gone (Runs.discard (dequeueBySocketId_follows handsBack h id))

end

theorem perform_tick_runs (handsBack : HandsBack deps)
    (freshIds : Function.Injective deps.newMatchId) {s : PoolState W} (h : Sound deps s) :
    Runs (perform deps .tick) s (fun _ s' => Follows deps s s') := by
  refine asking_runs handsBack ?_
  exact (tick_follows handsBack freshIds h).mono (fun _ _ hf => ⟨hf, trivial⟩)

theorem perform_dequeue_runs (handsBack : HandsBack deps) {s : PoolState W} (h : Sound deps s)
    (id : String) :
    Runs (perform deps (.dequeueBySocketId id)) s (fun _ s' => Follows deps s s') := by
  refine asking_runs handsBack (Runs.discard ?_)
  refine (dequeueBySocketId_follows handsBack h id).mono ?_
  exact fun _ _ ⟨hf, hgone⟩ => ⟨hf, hgone.pending⟩

/-- Every request but an arrival is a sequence of moves of the ledger. -/
theorem perform_follows (handsBack : HandsBack deps)
    (freshIds : Function.Injective deps.newMatchId) {s : PoolState W} (h : Sound deps s)
    {request : PoolRequest} (noArrival : ∀ p, request ≠ .add p) :
    Follows deps s (stateAfter (perform deps request s)) := by
  cases request with
  | add p => exact absurd rfl (noArrival p)
  | remove id =>
    refine asking_follows handsBack ((remove_follows handsBack h id).mono ?_)
    exact fun _ _ ⟨hf, hgone⟩ => ⟨hf, hgone.pending⟩
  | dequeueBySocketId id =>
    exact (perform_dequeue_runs handsBack h id).after (Follows deps s) (fun _ _ hf => hf)
  | accept matchId id =>
    refine asking_follows handsBack (Runs.discard ?_)
    exact (accept_follows handsBack h matchId id).mono (fun _ _ hf => ⟨hf, trivial⟩)
  | decline matchId id =>
    exact asking_follows handsBack (Runs.discard (decline_follows handsBack h matchId id))
  | tick =>
    exact (perform_tick_runs handsBack freshIds h).after (Follows deps s) (fun _ _ hf => hf)

/-- Neither the clock nor the world has a part in soundness. -/
theorem Sound.outside {s : PoolState W} (h : Sound deps s) (reads : Nat) (world : W) :
    Sound deps { s with reads := reads, world := world } := by
  have hc := h.custody
  exact ⟨⟨h.store, h.keyed, h.drawn⟩,
    ⟨hc.matchIds, hc.named, hc.ids, hc.users, hc.objects, hc.accounts⟩⟩

/-- The pool after any number of requests, while the world outside changes as it likes between
them: sockets open and close, polls arrive, bots come and go. -/
inductive Reachable (deps : MatchmakingPoolDeps W) : PoolState W → Prop
  | initial (world : W) : Reachable deps (PoolState.initial world)
  | environment {s : PoolState W} (world : W) (h : Reachable deps s) :
      Reachable deps { s with world := world }
  | request {s : PoolState W} {request : PoolRequest} (h : Reachable deps s)
      (admissible : Admissible s request) : Reachable deps (stateAfter (perform deps request s))

theorem initial_sound (world : W) : Sound deps (PoolState.initial world) where
  store := InMemoryPoolStore.empty_valid
  keyed := PendingMatches.keyed_empty
  drawn := by simp [PoolState.initial, namedIds]
  custody := {
    matchIds := List.nodup_nil
    named := by simp [PoolState.ledger, PoolState.initial, PendingMatches.all]
    ids := List.nodup_nil
    users := List.nodup_nil
    objects := List.nodup_nil
    accounts := fun _ => rfl }

theorem initial_proposals (world : W) : Proposals deps (PoolState.initial world).ledger where
  standing := by simp [PoolState.ledger, PoolState.initial, PendingMatches.all]
  approved := by simp [PoolState.ledger, PoolState.initial]
  once := List.nodup_nil
  requeued := by simp [PoolState.ledger, PoolState.initial]
  clocked := by simp [PoolState.ledger, PoolState.initial]

/-- Soundness and the books of the proposals hold in every reachable state. -/
theorem reachable_invariant (handsBack : HandsBack deps)
    (freshIds : Function.Injective deps.newMatchId) {s : PoolState W} (h : Reachable deps s) :
    Sound deps s ∧ Proposals deps s.ledger := by
  induction h with
  | initial world => exact ⟨initial_sound world, initial_proposals world⟩
  | @environment s world _ ih =>
    obtain ⟨hsound, hproposals⟩ := ih
    exact ⟨hsound.outside s.reads world,
      ⟨hproposals.standing, hproposals.approved, hproposals.once, hproposals.requeued,
        hproposals.clocked⟩⟩
  | @request s request _ admissible ih =>
    obtain ⟨hsound, hproposals⟩ := ih
    by_cases harrival : ∃ p, request = .add p
    · obtain ⟨p, rfl⟩ := harrival
      rcases add_arrives handsBack hsound admissible with he | hruns
      · rw [he]
        exact ⟨hsound, hproposals⟩
      · refine hruns.after (fun s' => Sound deps s' ∧ Proposals deps s'.ledger) ?_
        rintro _ s' ⟨s₁, hf, -, henters⟩
        have hproposals₁ := moves_proposals handsBack hsound.custody hproposals hf.moves
        exact ⟨henters.sound hf.sound, henters.proposals hf.sound hproposals₁⟩
    · have hf := perform_follows handsBack freshIds hsound (fun p he => harrival ⟨p, he⟩)
      exact ⟨hf.sound, moves_proposals handsBack hsound.custody hproposals hf.moves⟩

end EdoproServer.Matchmaking
