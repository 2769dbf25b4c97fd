import EdoproServer.Matchmaking.Refinement

namespace EdoproServer.Matchmaking
open Lib

variable {W : Type} {deps : MatchmakingPoolDeps W}

namespace MatchmakingPool

/-- Distinct participants that are still searching. -/
structure Searching (s : PoolState W) (l : List Participant) : Prop where
  stored : ∀ p ∈ l, p ∈ s.store.participants
  distinct : (l.map Participant.id).Nodup

theorem Searching.tail {s s' : PoolState W} {p : Participant} {rest : List Participant}
    (h : Searching s (p :: rest))
    (kept : ∀ q ∈ s.store.participants, q.id ≠ p.id → q ∈ s'.store.participants) :
    Searching s' rest where
  stored := by
    intro q hq
    refine kept q (h.stored q (List.mem_cons_of_mem p hq)) ?_
    intro he
    have hd := h.distinct
    rw [List.map_cons] at hd
    exact (List.nodup_cons.mp hd).1 (he ▸ List.mem_map_of_mem hq)
  distinct := by
    have hd := h.distinct
    rw [List.map_cons] at hd
    exact (List.nodup_cons.mp hd).2

section

variable (handsBack : HandsBack deps) {s : PoolState W} (h : Sound deps s)
include h

omit handsBack in
theorem searching_all (key : MatchmakingFormat × MatchmakingMode) :
    Searching s (s.store.all key.1 key.2) := by
  rw [InMemoryPoolStore.all_eq h.store]
  exact ⟨fun p hp => (List.mem_filter.mp hp).1,
    (InMemoryPoolStore.ids_nodup h.store).sublist (List.filter_sublist.map _)⟩

omit handsBack in
theorem forEveryParticipant_follows {visit : Participant → PoolM W Unit}
    (turn : ∀ p rest s, Sound deps s → Searching s (p :: rest) →
      Runs (visit p) s (fun _ s' => Follows deps s s' ∧ Searching s' rest)) :
    Runs (forEveryParticipant visit) s (fun _ s' => Follows deps s s') := by
  unfold forEveryParticipant
  refine Runs.mono (Follows.loop (fun _ _ => True) poolKeys h trivial ?_) (fun _ _ hf => hf.1)
  intro key _ s hs _
  refine Runs.bind (Runs.read ?_)
  refine Runs.mono (Follows.loop (fun rest s' => Searching s' rest) _ hs (searching_all hs key)
    turn) ?_
  exact fun _ _ hf => ⟨hf.1, trivial⟩

include handsBack

theorem sweepDead_follows (time : Int) :
    Runs (sweepDead deps time) s (fun _ s' => Follows deps s s') := by
  refine forEveryParticipant_follows h ?_
  intro p rest s hs hsearching
  refine Runs.bind (Runs.read ?_)
  split
  · refine Runs.discard (Runs.mono (removeAndLog_follows handsBack hs
      (hsearching.stored p List.mem_cons_self) rfl) ?_)
    rintro _ s' ⟨-, hf, -, -, hparts⟩
    refine ⟨hf, hsearching.tail ?_⟩
    intro q hq hne
    rw [hparts]
    exact List.mem_filter.mpr ⟨hq, decide_eq_true hne⟩
  · exact Runs.pure ⟨Follows.refl hs, hsearching.tail (fun q hq _ => hq)⟩

theorem publishStatus_follows (time : Int) :
    Runs (publishStatus deps time) s (fun _ s' => Follows deps s s') := by
  refine forEveryParticipant_follows h ?_
  intro p rest s hs hsearching
  exact Runs.of_eq (call_run _ _ _)
    ⟨call_follows handsBack hs _ _, hsearching.tail (fun q hq _ => hq)⟩

theorem calls_follow (message : ChannelCall) (l : List Participant) :
    Runs (forM l (fun p => call deps p message)) s (fun _ s' => Follows deps s s' ∧
      s'.store = s.store ∧ s'.pending = s.pending ∧ s'.log = s.log ∧ s'.drawn = s.drawn) := by
  refine Runs.mono (Follows.loop (fun _ s' => s'.store = s.store ∧ s'.pending = s.pending ∧
    s'.log = s.log ∧ s'.drawn = s.drawn) l h ⟨rfl, rfl, rfl, rfl⟩ ?_) (fun _ _ hf => hf)
  intro p _ s₁ hs hI
  exact Runs.of_eq (call_run _ _ _) ⟨call_follows handsBack hs _ _, hI⟩

/-- Resolving a pending match leaves the other pending matches where they are. -/
theorem resolve_follows (time : Int) {pending : PendingMatch} (waiting : pending ∈ s.pending.all) :
    Runs (resolve deps time pending) s (fun _ s' => Follows deps s s' ∧
      ∀ other ∈ s.pending.all, other.pairing.id ≠ pending.pairing.id →
        other ∈ s'.pending.all) := by
  have hkept : ∀ s' : PoolState W, s'.pending = s.pending.delete pending.pairing.id →
      ∀ other ∈ s.pending.all, other.pairing.id ≠ pending.pairing.id → other ∈ s'.pending.all := by
    intro s' hp other hother hne
    rw [hp, PendingMatches.all_delete h.keyed]
    exact List.mem_filter.mpr ⟨hother, decide_eq_true hne⟩
  unfold resolve
  refine Runs.bind (Runs.read ?_)
  dsimp only
  split
  · refine Runs.mono (abandon_follows handsBack h waiting List.filter_sublist rfl) ?_
    rintro _ s' ⟨hf, hp, -⟩
    exact ⟨hf, hkept s' hp⟩
  · split
    · refine Runs.bind (Runs.mono (abandon_follows handsBack h waiting List.filter_sublist rfl) ?_)
      rintro _ s₁ ⟨hf₁, hp₁, -⟩
      refine Runs.mono (calls_follow handsBack hf₁.sound _ _) ?_
      rintro _ s₂ ⟨hf₂, -, hp₂, -⟩
      exact ⟨hf₁.trans hf₂, hkept s₂ (hp₂.trans hp₁)⟩
    · exact Runs.pure ⟨Follows.refl h, fun other hother _ => hother⟩

theorem resolvePending_follows (time : Int) :
    Runs (resolvePending deps time) s (fun _ s' => Follows deps s s') := by
  unfold resolvePending
  refine Runs.bind (Runs.read ?_)
  refine Runs.mono (Follows.loop (fun rest s' => (∀ pending ∈ rest, pending ∈ s'.pending.all) ∧
    (rest.map (fun pending => pending.pairing.id)).Nodup) _ h
    ⟨fun pending hp => hp, PendingMatches.ids_nodup h.keyed⟩ ?_) (fun _ _ hf => hf.1)
  rintro pending rest s₁ hs ⟨hmem, hdistinct⟩
  rw [List.map_cons] at hdistinct
  obtain ⟨hnot, hrest⟩ := List.nodup_cons.mp hdistinct
  refine Runs.mono (resolve_follows handsBack hs time (hmem pending List.mem_cons_self)) ?_
  rintro _ s₂ ⟨hf, hkept⟩
  refine ⟨hf, fun other hother => ?_, hrest⟩
  refine hkept other (hmem other (List.mem_cons_of_mem _ hother)) ?_
  exact fun he => hnot (List.mem_map.mpr ⟨other, hother, he⟩)

theorem forgetClosedRequeues_follows (time : Int) :
    Runs (forgetClosedRequeues time) s (fun _ s' => Follows deps s s') :=
  Runs.update (Follows.quiet handsBack h rfl rfl (Nat.le_refl _) rfl (Nat.le_refl _)
    Relation.ReflTransGen.refl)

end

/-! ## Pairing -/

theorem filter_absent_cons (l : List Participant) (p : Participant) (rest : List Participant) :
    (l.filter (fun q => q.id ≠ p.id)).filter (fun q => q.id ∉ rest.map Participant.id) =
      l.filter (fun q => q.id ∉ (p :: rest).map Participant.id) := by
  rw [List.filter_filter]
  apply List.filter_congr
  intro q _
  rw [Bool.eq_iff_iff]
  simp only [Bool.and_eq_true, decide_eq_true_eq, List.map_cons, List.mem_cons, not_or]
  exact and_comm

/-- Taking searching participants out of the store leaves everyone else in it. -/
theorem storeRemoves_run {s : PoolState W} {l : List Participant} (valid : s.store.Valid)
    (h : Searching s l) :
    Runs (forM l (fun p => discard (storeRemove p.id))) s (fun _ s' =>
      ∃ store, s' = { s with store := store } ∧ store.Valid ∧ store.participants =
        s.store.participants.filter (fun q => q.id ∉ l.map Participant.id)) := by
  induction l generalizing s with
  | nil => exact ⟨⟨⟩, s, rfl, s.store, rfl, valid, by simp⟩
  | cons p rest ih =>
    obtain ⟨-, hvalid, hparts⟩ :=
      InMemoryPoolStore.remove_present valid (h.stored p List.mem_cons_self)
    rw [List.forM_cons]
    refine Runs.bind (Runs.discard (Runs.updateGet ?_))
    refine Runs.mono (ih hvalid (h.tail ?_)) ?_
    · intro q hq hne
      exact hparts ▸ List.mem_filter.mpr ⟨hq, decide_eq_true hne⟩
    · rintro _ s' ⟨store, rfl, hvalid', hparts'⟩
      refine ⟨store, rfl, hvalid', ?_⟩
      rw [hparts']
      change (s.store.remove p.id).2.participants.filter _ = _
      rw [hparts, filter_absent_cons]

theorem removesAndLogs_run {s : PoolState W} {l : List Participant} (outcome : QueueExitOutcome)
    (valid : s.store.Valid) (h : Searching s l) :
    Runs (forM l (fun p => discard (removeAndLog deps p outcome))) s (fun _ s' =>
      ∃ store, s' = { s with
          store := store
          reads := s.reads + l.length
          log := exitEvents deps.now outcome s.reads l ++ s.log } ∧
        store.Valid ∧ store.participants =
          s.store.participants.filter (fun q => q.id ∉ l.map Participant.id)) := by
  induction l generalizing s with
  | nil => exact ⟨⟨⟩, s, rfl, s.store, rfl, valid, by simp⟩
  | cons p rest ih =>
    obtain ⟨hremoved, hvalid, hparts⟩ :=
      InMemoryPoolStore.remove_present valid (h.stored p List.mem_cons_self)
    rw [List.forM_cons]
    refine Runs.bind (Runs.discard ?_)
    unfold removeAndLog
    refine Runs.bind (Runs.updateGet ?_)
    rw [hremoved]
    refine Runs.bind (Runs.of_eq (logExit_run _ _ _) (Runs.pure ?_))
    refine Runs.mono (ih hvalid (h.tail ?_)) ?_
    · intro q hq hne
      exact hparts ▸ List.mem_filter.mpr ⟨hq, decide_eq_true hne⟩
    · rintro _ s' ⟨store, rfl, hvalid', hparts'⟩
      refine ⟨store, ?_, hvalid', ?_⟩
      · simp [exitEvents, Nat.add_assoc, Nat.add_comm 1]
      · rw [hparts']
        change (s.store.remove p.id).2.participants.filter _ = _
        rw [hparts, filter_absent_cons]

/-- The participants of the match are out of the store, and some may be back at its end. -/
def Takes (m : Match) (s s' : PoolState W) : Prop :=
  ∃ back, back.Sublist m.participants ∧
    s'.store.participants = withoutParticipants s.ledger m.ids ++ back

theorem Takes.kept {m : Match} {s s' : PoolState W} (h : Takes m s s') :
    ∀ q ∈ s.store.participants, q.id ∉ m.ids → q ∈ s'.store.participants := by
  obtain ⟨back, _, hparts⟩ := h
  intro q hq hid
  rw [hparts]
  exact List.mem_append_left _ (List.mem_filter.mpr ⟨hq, decide_eq_true hid⟩)

section

variable (handsBack : HandsBack deps) {s : PoolState W} (h : Sound deps s)
include handsBack h

theorem propose_follows (time : Int) {m : Match} (searching : Searching s m.participants)
    (fresh : m.id ∉ namedIds s.log) (drawn : ∃ n < s.drawn, m.id = deps.newMatchId n) :
    Runs (propose deps time m) s (fun _ s' => Follows deps s s' ∧ s'.drawn = s.drawn ∧
      namedIds s'.log = m.id :: namedIds s.log ∧
      Takes m s s') := by
  unfold propose
  refine Runs.bind (Runs.mono (storeRemoves_run h.store searching) ?_)
  rintro _ s₁ ⟨store, rfl, hvalid, hparts⟩
  have hunused : ∀ pending ∈ s.pending.all, pending.pairing.id ≠ m.id := by
    intro pending hp he
    exact fresh (he ▸ h.custody.named pending hp)
  have hf : Follows deps s { s with
      store := store
      pending := s.pending.add m (time + MATCH_ACCEPT_TIMEOUT_MS)
      log := .proposed m (time + MATCH_ACCEPT_TIMEOUT_MS) :: s.log } := by
    refine Follows.move handsBack h ⟨hvalid, PendingMatches.keyed_add h.keyed _ _, ?_⟩ ?_
    · intro id hid
      rcases List.mem_cons.mp hid with rfl | hid
      · exact drawn
      · exact h.drawn id hid
    · have hmove : Move deps s.ledger _ := Move.propose s.ledger (time + MATCH_ACCEPT_TIMEOUT_MS)
        searching.stored searching.distinct.of_map fresh
      convert hmove using 1
      simp only [PoolState.ledger, hparts, withoutParticipants,
        PendingMatches.all_add h.keyed hunused]
      rfl
  refine Runs.bind (Runs.update (Runs.bind (Runs.update ?_)))
  refine Runs.mono (calls_follow handsBack hf.sound _ _) ?_
  rintro _ s₂ ⟨hf₂, hstore₂, -, hlog₂, hdrawn₂⟩
  refine ⟨hf.trans hf₂, hdrawn₂, ?_, ?_⟩
  · rw [hlog₂]
    rfl
  · refine ⟨[], List.nil_sublist _, ?_⟩
    rw [hstore₂, List.append_nil]
    exact hparts

omit handsBack in
/-- Participants taken from the store can go back to it. -/
theorem returning_of_store {m : Match} (searching : Searching s m.participants)
    {back : List Participant} (inside : back.Sublist m.participants) {s' : PoolState W}
    (valid : s'.store.Valid) (pending : s'.pending = s.pending)
    (taken : s'.store.participants = withoutParticipants s.ledger m.ids) : Returning s' back := by
  have htake := h.custody.take_store searching.stored searching.distinct.of_map
  have hsub : (s'.store.participants ++ back).Subperm s.ledger.held := by
    rw [taken]
    refine (List.perm_append_comm.subperm).trans ?_
    refine ((inside.append_right _).subperm).trans (htake.symm.subperm.trans ?_)
    exact (List.sublist_append_left _ _).subperm
  refine ⟨valid, nodup_map_of_subperm hsub h.custody.ids,
    nodup_map_of_subperm hsub h.custody.users, ?_⟩
  intro p hp other hother q hq hu
  rw [pending] at hother
  have hps := searching.stored p (inside.subset hp)
  have hqp : q = p := List.inj_on_of_nodup_map h.custody.users
    (participant_held hother hq) (List.mem_append_left _ hps) hu
  exact not_searching h.custody hother hq (hqp ▸ hps)

theorem handOver_follows {m : Match} (searching : Searching s m.participants)
    (fresh : m.id ∉ namedIds s.log) (drawn : ∃ n < s.drawn, m.id = deps.newMatchId n)
    (immediate : requiresAcceptStep m = false) :
    Runs (handOver deps m) s (fun _ s' => Follows deps s s' ∧ s'.drawn = s.drawn ∧
      namedIds s'.log = m.id :: namedIds s.log ∧
      Takes m s s') := by
  unfold handOver
  refine Runs.bind (Runs.mono (removesAndLogs_run _ h.store searching) ?_)
  rintro _ s₁ ⟨store, rfl, hvalid, hparts⟩
  have hreturning : Returning { s with
      store := store
      reads := s.reads + m.participants.length
      log := exitEvents deps.now (if m.opponentKind = .bot then .matchedBot else .matchedHuman)
        s.reads m.participants ++ s.log } (deps.handle m s.world).2 :=
    returning_of_store h searching (handsBack m s.world) hvalid rfl hparts
  refine Runs.mono (handle_runs hreturning) ?_
  rintro _ s₂ ⟨store₂, rfl, hvalid₂, hparts₂⟩
  have hmatched : (if m.opponentKind = .bot then QueueExitOutcome.matchedBot
      else .matchedHuman).isMatched = true := by split <;> rfl
  have hnamed : namedIds (handBackEvents m (deps.handle m s.world).2 ++ .handled m ::
      (exitEvents deps.now (if m.opponentKind = .bot then .matchedBot else .matchedHuman)
        s.reads m.participants ++ s.log)) = m.id :: namedIds s.log := by
    simp [namedIds_append, namedIds]
  refine ⟨Follows.move handsBack h ⟨hvalid₂, h.keyed, ?_⟩ ?_, rfl, hnamed, ?_⟩
  · intro id hid
    rw [hnamed] at hid
    rcases List.mem_cons.mp hid with rfl | hid
    · exact drawn
    · exact h.drawn id hid
  · have hmove : Move deps s.ledger _ := Move.handOver s.ledger searching.stored
      searching.distinct.of_map fresh immediate hmatched
    convert hmove using 1
    simp only [PoolState.ledger, hparts₂, hparts, withoutParticipants]
    rfl
  · refine ⟨(deps.handle m s.world).2, handsBack m s.world, ?_⟩
    change store₂.participants = _
    rw [hparts₂, hparts]
    rfl

end

/-- Matches formed but not yet proposed or handed over: their participants still search, and
their ids are the next ones drawn, past every id the log names. -/
structure Formed (deps : MatchmakingPoolDeps W) (s : PoolState W) (formed : List Match) : Prop where
  searching : Searching s (formed.flatMap Match.participants)
  fresh : ∃ drawn, formed.map Match.id = (List.range' drawn formed.length).map deps.newMatchId ∧
    drawn + formed.length ≤ s.drawn ∧
    ∀ id ∈ namedIds s.log, ∃ n < drawn, id = deps.newMatchId n

section

variable (freshIds : Function.Injective deps.newMatchId) {s : PoolState W} {m : Match}
  {rest : List Match} (h : Formed deps s (m :: rest))
include h

theorem Formed.head : Searching s m.participants where
  stored p hp := h.searching.stored p (List.mem_append_left _ hp)
  distinct := by
    have hd := h.searching.distinct
    rw [List.flatMap_cons, List.map_append] at hd
    exact (List.nodup_append.mp hd).1

theorem Formed.head_drawn : ∃ n < s.drawn, m.id = deps.newMatchId n := by
  obtain ⟨drawn, hids, hlen, -⟩ := h.fresh
  rw [List.map_cons, List.length_cons, List.range'_succ, List.map_cons] at hids
  rw [List.length_cons] at hlen
  exact ⟨drawn, by omega, (List.cons.inj hids).1⟩

include freshIds in
theorem Formed.head_fresh : m.id ∉ namedIds s.log := by
  obtain ⟨drawn, hids, -, hnamed⟩ := h.fresh
  rw [List.map_cons, List.length_cons, List.range'_succ, List.map_cons] at hids
  intro hm
  obtain ⟨n, hn, he⟩ := hnamed _ hm
  have := freshIds ((List.cons.inj hids).1.symm.trans he)
  omega

theorem Formed.tail {s' : PoolState W} (drawn : s'.drawn = s.drawn)
    (named : namedIds s'.log = m.id :: namedIds s.log)
    (kept : ∀ q ∈ s.store.participants, q.id ∉ m.ids → q ∈ s'.store.participants) :
    Formed deps s' rest where
  searching := by
    have hd := h.searching.distinct
    rw [List.flatMap_cons, List.map_append] at hd
    refine ⟨fun q hq => ?_, (List.nodup_append.mp hd).2.1⟩
    refine kept q (h.searching.stored q (List.mem_append_right _ hq)) ?_
    intro hid
    exact (List.nodup_append.mp hd).2.2 _ hid _ (List.mem_map_of_mem hq) rfl
  fresh := by
    obtain ⟨first, hids, hlen, hnamed⟩ := h.fresh
    rw [List.map_cons, List.length_cons, List.range'_succ, List.map_cons] at hids
    rw [List.length_cons] at hlen
    refine ⟨first + 1, (List.cons.inj hids).2, by rw [drawn]; omega, ?_⟩
    intro id hid
    rw [named] at hid
    rcases List.mem_cons.mp hid with rfl | hid
    · exact ⟨first, Nat.lt_succ_self first, (List.cons.inj hids).1⟩
    · obtain ⟨n, hn, he⟩ := hnamed id hid
      exact ⟨n, by omega, he⟩

end

theorem pairingPolicy_sound (deps : MatchmakingPoolDeps W) (botAvailable : Bool) :
    (deps.pairingPolicy botAvailable).Sound deps.newMatchId := by
  refine composite_sound ?_
  intro policy hp
  rcases List.mem_cons.mp hp with rfl | hp
  · exact fifo_sound
  · rw [List.mem_singleton.mp hp]
    exact botFallback_sound botAvailable

/-- What is formed in the turn of a pool key. -/
def formedAt (deps : MatchmakingPoolDeps W) (time : Int)
    (key : MatchmakingFormat × MatchmakingMode) (s : PoolState W) : List Match :=
  if s.store.all key.1 key.2 = [] then []
  else deps.pairingPolicy (deps.botAvailable s.world) s.drawn (s.store.all key.1 key.2) time

theorem formedAt_subset (deps : MatchmakingPoolDeps W) (time : Int)
    (key : MatchmakingFormat × MatchmakingMode) (s : PoolState W) :
    (formedAt deps time key s).flatMap Match.participants ⊆ s.store.all key.1 key.2 := by
  unfold formedAt
  split
  · exact List.nil_subset _
  · exact ((pairingPolicy_sound deps _).participants _ _ _).subset

/-- The turn of a pool key. -/
def pairKey (deps : MatchmakingPoolDeps W) (time : Int)
    (key : MatchmakingFormat × MatchmakingMode) : PoolM W Unit := do
  let formed ← modifyGet fun s =>
    (formedAt deps time key s, { s with drawn := s.drawn + (formedAt deps time key s).length })
  forM formed fun m =>
    if requiresAcceptStep m then propose deps time m else handOver deps m

theorem pairAndDispatch_eq (time : Int) :
    pairAndDispatch deps time = forM poolKeys (pairKey deps time) :=
  rfl

theorem inPool_iff {key : MatchmakingFormat × MatchmakingMode} {p : Participant} :
    InMemoryPoolStore.inPool key.1 key.2 p = true ↔ (p.format, p.mode) = key := by
  obtain ⟨format, mode⟩ := key
  simp [InMemoryPoolStore.inPool]

section

variable (handsBack : HandsBack deps) (freshIds : Function.Injective deps.newMatchId)
  {s : PoolState W} (h : Sound deps s)
include h

/-- What the policy forms from the candidates of a pool key is ready to be handed out. -/
theorem formed_of_pairing (key : MatchmakingFormat × MatchmakingMode) (botAvailable : Bool)
    (time : Int) {formed : List Match}
    (hformed : formed = if s.store.all key.1 key.2 = [] then []
      else deps.pairingPolicy botAvailable s.drawn (s.store.all key.1 key.2) time) :
    Formed deps { s with drawn := s.drawn + formed.length } formed := by
  have hsound := pairingPolicy_sound deps botAvailable
  have hsearching := searching_all h key
  have hsub : (formed.flatMap Match.participants).Subperm (s.store.all key.1 key.2) := by
    rw [hformed]
    split
    · exact List.nil_subperm
    · exact hsound.participants _ _ _
  have hids : formed.map Match.id = (List.range' s.drawn formed.length).map deps.newMatchId := by
    rw [hformed]
    split
    · rfl
    · exact hsound.ids _ _ _
  exact ⟨⟨fun p hp => hsearching.stored p (hsub.subset hp),
    nodup_map_of_subperm hsub hsearching.distinct⟩, s.drawn, hids, Nat.le_refl _, h.drawn⟩

/-- Whatever happens to the participants of one pool key leaves the other keys as they are. -/
theorem Takes.elsewhere {m : Match} {s' : PoolState W} (valid : s'.store.Valid)
    (taken : Takes m s s') (searching : Searching s m.participants)
    {key other : MatchmakingFormat × MatchmakingMode} (hne : other ≠ key)
    (hkey : ∀ p ∈ m.participants, InMemoryPoolStore.inPool key.1 key.2 p = true) :
    s'.store.all other.1 other.2 = s.store.all other.1 other.2 := by
  have hout : ∀ p ∈ m.participants, InMemoryPoolStore.inPool other.1 other.2 p = false := by
    intro p hp
    by_contra hin
    rw [Bool.not_eq_false] at hin
    exact hne ((inPool_iff.mp hin).symm.trans (inPool_iff.mp (hkey p hp)))
  obtain ⟨back, hback, hparts⟩ := taken
  have hgone : back.filter (InMemoryPoolStore.inPool other.1 other.2) = [] := by
    rw [List.filter_eq_nil_iff]
    intro p hp
    simp [hout p (hback.subset hp)]
  rw [InMemoryPoolStore.all_eq valid, InMemoryPoolStore.all_eq h.store, hparts, List.filter_append,
    hgone, List.append_nil, withoutParticipants, List.filter_filter]
  apply List.filter_congr
  intro q hq
  cases hin : InMemoryPoolStore.inPool other.1 other.2 q with
  | false => simp
  | true =>
    have hid : q.id ∉ m.ids := by
      intro hmem
      obtain ⟨p, hp, he⟩ := List.mem_map.mp hmem
      have hpq : p = q := List.inj_on_of_nodup_map (InMemoryPoolStore.ids_nodup h.store)
        (searching.stored p hp) hq he
      rw [← hpq, hout p hp] at hin
      exact Bool.false_ne_true hin
    simp [hid]

include handsBack freshIds

/-- The turn of a pool key concerns the participants of that key only. -/
theorem pairKey_follows (time : Int) (key : MatchmakingFormat × MatchmakingMode) :
    Runs (pairKey deps time key) s (fun _ s' => Follows deps s s' ∧
      ∀ other, other ≠ key → s'.store.all other.1 other.2 = s.store.all other.1 other.2) := by
  unfold pairKey
  refine Runs.bind (Runs.updateGet ?_)
  dsimp only
  generalize hformed : formedAt deps time key s = formed
  have hready := formed_of_pairing h key (deps.botAvailable s.world) time hformed.symm
  have hpool : ∀ m ∈ formed, ∀ p ∈ m.participants,
      InMemoryPoolStore.inPool key.1 key.2 p = true := by
    intro m hm p hp
    have hin := formedAt_subset deps time key s
      (List.mem_flatMap.mpr ⟨m, hformed ▸ hm, hp⟩)
    rw [InMemoryPoolStore.all_eq h.store] at hin
    exact (List.mem_filter.mp hin).2
  have hquiet : Follows deps s { s with drawn := s.drawn + formed.length } :=
    Follows.quiet handsBack h rfl rfl (Nat.le_add_right _ _) rfl (Nat.le_refl _)
      Relation.ReflTransGen.refl
  refine Runs.mono (Follows.loop (fun rest s' => Formed deps s' rest ∧ (∀ m ∈ rest, m ∈ formed) ∧
    ∀ other, other ≠ key → s'.store.all other.1 other.2 = s.store.all other.1 other.2) formed
    hquiet.sound ⟨hready, fun m hm => hm, fun _ _ => rfl⟩ ?_)
    (fun _ _ hf => ⟨hquiet.trans hf.1, hf.2.2.2⟩)
  intro m rest s₁ hs₁ ⟨hrest, hmem, hothers⟩
  have hfresh := Formed.head_fresh freshIds hrest
  have htail : ∀ m' ∈ rest, m' ∈ formed := fun m' hm' => hmem m' (List.mem_cons_of_mem m hm')
  have hturn : ∀ s₂, Follows deps s₁ s₂ ∧ s₂.drawn = s₁.drawn ∧
      namedIds s₂.log = m.id :: namedIds s₁.log ∧ Takes m s₁ s₂ →
      Follows deps s₁ s₂ ∧ Formed deps s₂ rest ∧ (∀ m ∈ rest, m ∈ formed) ∧
        ∀ other, other ≠ key → s₂.store.all other.1 other.2 = s.store.all other.1 other.2 := by
    intro s₂ ⟨hf, hdrawn, hnamed, htaken⟩
    refine ⟨hf, hrest.tail hdrawn hnamed htaken.kept, htail, fun other hne => ?_⟩
    rw [htaken.elsewhere hs₁ hf.sound.store hrest.head hne (hpool m (hmem m List.mem_cons_self))]
    exact hothers other hne
  split
  · exact Runs.mono (propose_follows handsBack hs₁ time hrest.head hfresh hrest.head_drawn)
      (fun _ s₂ hf => hturn s₂ hf)
  · rename_i himmediate
    exact Runs.mono (handOver_follows handsBack hs₁ hrest.head hfresh hrest.head_drawn
      (Bool.eq_false_iff.mpr himmediate)) (fun _ s₂ hf => hturn s₂ hf)

theorem pairAndDispatch_follows (time : Int) :
    Runs (pairAndDispatch deps time) s (fun _ s' => Follows deps s s') := by
  rw [pairAndDispatch_eq]
  refine Runs.mono (Follows.loop (fun _ _ => True) poolKeys h trivial ?_) (fun _ _ hf => hf.1)
  intro key _ s₁ hs₁ _
  exact Runs.mono (pairKey_follows handsBack freshIds hs₁ time key) (fun _ _ hf => ⟨hf.1, trivial⟩)

/-- A tick is a sequence of moves of the ledger. -/
theorem tick_follows : Runs (tick deps) s (fun _ s' => Follows deps s s') := by
  unfold tick
  have hquiet : Follows deps s { s with reads := s.reads + 1 } :=
    Follows.quiet handsBack h rfl rfl (Nat.le_refl _) rfl (Nat.le_succ _)
      Relation.ReflTransGen.refl
  refine Runs.bind (Runs.of_eq (now_run s) ?_)
  refine Runs.bind (Runs.mono (sweepDead_follows handsBack hquiet.sound _) ?_)
  intro _ s₁ hf₁
  refine Runs.bind (Runs.mono (resolvePending_follows handsBack hf₁.sound _) ?_)
  intro _ s₂ hf₂
  refine Runs.bind (Runs.mono (forgetClosedRequeues_follows handsBack hf₂.sound _) ?_)
  intro _ s₃ hf₃
  refine Runs.bind (Runs.mono (pairAndDispatch_follows handsBack freshIds hf₃.sound _) ?_)
  intro _ s₄ hf₄
  refine Runs.mono (publishStatus_follows handsBack hf₄.sound _) ?_
  intro _ s₅ hf₅
  exact ((((hquiet.trans hf₁).trans hf₂).trans hf₃).trans hf₄).trans hf₅

end

end MatchmakingPool

end EdoproServer.Matchmaking
