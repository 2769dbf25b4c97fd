import EdoproServer.Matchmaking.Custody

namespace EdoproServer.Matchmaking
open Lib

variable {W : Type} (deps : MatchmakingPoolDeps W)

/-- The pool's data structures are in step with each other and with the ids drawn so far. -/
structure Tracked (s : PoolState W) : Prop where
  store : s.store.Valid
  keyed : s.pending.Keyed
  drawn : ∀ id ∈ namedIds s.log, ∃ n < s.drawn, id = deps.newMatchId n

structure Sound (s : PoolState W) : Prop extends Tracked deps s where
  custody : Custody s.ledger

/-- Nobody in the pool goes by the id. -/
def Gone (s : PoolState W) (id : String) : Prop := ∀ q ∈ s.ledger.held, q.id ≠ id

/-- `s'` is sound and comes from `s` by moves of the ledger. -/
structure Follows (s s' : PoolState W) : Prop where
  sound : Sound deps s'
  moves : Moves deps s.ledger s'.ledger

theorem Gone.pending {s : PoolState W} {id : String} (h : Gone s id) :
    ∀ pending ∈ s.pending.all, id ∉ pending.pairing.ids := by
  intro pending hp hid
  obtain ⟨q, hq, he⟩ := List.mem_map.mp hid
  exact h q (participant_held hp hq) he

variable {deps}

theorem Follows.refl {s : PoolState W} (h : Sound deps s) : Follows deps s s :=
  ⟨h, Relation.ReflTransGen.refl⟩

theorem Follows.trans {s s' s'' : PoolState W} (h : Follows deps s s')
    (h' : Follows deps s' s'') : Follows deps s s'' :=
  ⟨h'.sound, Relation.ReflTransGen.trans h.moves h'.moves⟩

section

variable (handsBack : HandsBack deps)
include handsBack

theorem Follows.move {s s' : PoolState W} (h : Sound deps s) (tracked : Tracked deps s')
    (move : Move deps s.ledger s'.ledger) : Follows deps s s' :=
  ⟨{ tracked with custody := move_custody handsBack h.custody move },
    Relation.ReflTransGen.single move⟩

/-- Clock readings, channel calls and bookkeeping of late answers are no moves of participants. -/
theorem Follows.quiet {s s' : PoolState W} (h : Sound deps s) (store : s'.store = s.store)
    (pending : s'.pending = s.pending) (drawn : s.drawn ≤ s'.drawn) (log : s'.log = s.log)
    (reads : s.reads ≤ s'.reads) (told : Told deps s.world s'.world) : Follows deps s s' := by
  refine Follows.move handsBack h ⟨?_, ?_, ?_⟩ ?_
  · rw [store]
    exact h.store
  · rw [pending]
    exact h.keyed
  · intro id hid
    rw [log] at hid
    obtain ⟨n, hn, he⟩ := h.drawn id hid
    exact ⟨n, hn.trans_le drawn, he⟩
  · have hl : s'.ledger = { s.ledger with reads := s'.reads, world := s'.world } := by
      simp only [PoolState.ledger, store, pending, log]
    rw [hl]
    exact Move.quiet s.ledger reads told

end

/-- A loop whose every turn follows, with an invariant indexed by what is left of the list. -/
theorem Follows.loop {α : Type} {f : α → PoolM W PUnit} (I : List α → PoolState W → Prop)
    (l : List α) {s : PoolState W} (h : Sound deps s) (hI : I l s)
    (turn : ∀ a rest s, Sound deps s → I (a :: rest) s →
      Runs (f a) s (fun _ s' => Follows deps s s' ∧ I rest s')) :
    Runs (forM l f) s (fun _ s' => Follows deps s s' ∧ I [] s') := by
  refine Runs.loop (fun rest s' => Follows deps s s' ∧ I rest s') l ⟨Follows.refl h, hI⟩ ?_
  rintro a rest s₁ ⟨hf, hI⟩
  refine (turn a rest s₁ hf.sound hI).mono ?_
  rintro _ s₂ ⟨hf', hI'⟩
  exact ⟨hf.trans hf', hI'⟩

namespace MatchmakingPool

theorem now_run (s : PoolState W) :
    now deps s = .ok (deps.now s.reads) { s with reads := s.reads + 1 } := rfl

theorem logExit_run (outcome : QueueExitOutcome) (p : Participant) (s : PoolState W) :
    logExit deps outcome p s = .ok ⟨⟩ { s with
      reads := s.reads + 1
      log := .exit p outcome (deps.now s.reads - p.enqueuedAt) :: s.log } := rfl

theorem call_run (p : Participant) (message : ChannelCall) (s : PoolState W) :
    call deps p message s = .ok ⟨⟩ { s with world := deps.call p message s.world } := rfl

/-- Several participants leave one after the other. -/
theorem logExits_run (outcome : QueueExitOutcome) (leaving : List Participant)
    (s : PoolState W) :
    forM leaving (logExit deps outcome) s = .ok ⟨⟩ { s with
      reads := s.reads + leaving.length
      log := exitEvents deps.now outcome s.reads leaving ++ s.log } := by
  induction leaving generalizing s with
  | nil => rfl
  | cons p rest ih =>
    rw [List.forM_cons]
    change (match logExit deps outcome p s with
      | .ok _ s' => forM rest (logExit deps outcome) s'
      | .error e s' => .error e s') = _
    rw [logExit_run]
    change forM rest (logExit deps outcome) _ = _
    rw [ih]
    simp [exitEvents, Nat.add_assoc, Nat.add_comm 1]

/-- An arrival of a user the pool does not hold is simply stored. -/
theorem addWith_absent (fuel : Nat) {s : PoolState W} {p : Participant} (valid : s.store.Valid)
    (searching : ∀ q ∈ s.store.participants, q.userId ≠ p.userId)
    (waiting : ∀ pending ∈ s.pending.all, ∀ q ∈ pending.pairing.participants,
      q.userId ≠ p.userId) :
    addWith deps (fuel + 1) p s = .ok false { s with store := s.store.add p } := by
  have hstore : s.store.findByUserId p.userId = none :=
    (InMemoryPoolStore.findByUserId_eq_none valid).mpr searching
  have hpending : s.pending.findByUserId p.userId = none := by
    refine PendingMatches.find_eq_none.mpr ?_
    intro pending hp q hq
    exact decide_eq_false (waiting pending hp q hq)
  simp only [addWith, bind, EStateM.bind, get, getThe, MonadStateOf.get, EStateM.get, hstore,
    hpending]
  rfl

/-- Participants that nobody the pool holds shares an id or a user with. -/
structure Returning (s : PoolState W) (back : List Participant) : Prop where
  store : s.store.Valid
  ids : ((s.store.participants ++ back).map Participant.id).Nodup
  users : ((s.store.participants ++ back).map Participant.userId).Nodup
  waiting : ∀ p ∈ back, ∀ pending ∈ s.pending.all, ∀ q ∈ pending.pairing.participants,
    q.userId ≠ p.userId

section Returning

variable {s : PoolState W} {p : Participant} {rest : List Participant}
  (h : Returning s (p :: rest))
include h

omit h in
theorem Returning.fresh {β : Type} (key : Participant → β)
    (distinct : ((s.store.participants ++ p :: rest).map key).Nodup) :
    ∀ q ∈ s.store.participants, key q ≠ key p := by
  intro q hq he
  rw [List.map_append, List.map_cons] at distinct
  exact (List.nodup_append.mp distinct).2.2 _ (List.mem_map_of_mem hq) _ List.mem_cons_self he

theorem Returning.participants_add :
    (s.store.add p).participants = s.store.participants ++ [p] :=
  InMemoryPoolStore.participants_add h.store (Returning.fresh _ h.ids)

theorem Returning.tail {s' : PoolState W} (store : s'.store = s.store.add p)
    (pending : s'.pending = s.pending) : Returning s' rest where
  store := by
    rw [store]
    exact InMemoryPoolStore.add_valid h.store (Returning.fresh _ h.ids) (Returning.fresh _ h.users)
  ids := by
    rw [store, h.participants_add, List.append_assoc]
    exact h.ids
  users := by
    rw [store, h.participants_add, List.append_assoc]
    exact h.users
  waiting := by
    rw [pending]
    exact fun q hq => h.waiting q (List.mem_cons_of_mem p hq)

end Returning

/-- Called for a participant that nobody held shares an id or a user with, `add` stores it. -/
def Stores (add : Participant → PoolM W Bool) : Prop :=
  ∀ (s : PoolState W) (p : Participant) (rest : List Participant), Returning s (p :: rest) →
    add p s = .ok false { s with store := s.store.add p }

theorem addWith_stores (fuel : Nat) : Stores (addWith deps (fuel + 1)) := fun _ p _ h =>
  addWith_absent fuel h.store (Returning.fresh _ h.users) (h.waiting p List.mem_cons_self)

theorem add_stores : Stores (add deps) := fun s p rest h => addWith_stores _ s p rest h

/-- The participants of an abandoned match go back to the store one by one and are told. -/
theorem requeue_runs {add : Participant → PoolM W Bool} (stores : Stores add) (time : Int)
    {s : PoolState W} {back : List Participant} (h : Returning s back) :
    Runs (forM back (requeue deps add time)) s (fun _ s' =>
      ∃ store world, s' = { s with store := store, world := world } ∧ store.Valid ∧
        store.participants = s.store.participants ++ back ∧ Told deps s.world world) := by
  induction back generalizing s with
  | nil => exact ⟨⟨⟩, s, rfl, s.store, s.world, rfl, h.store, by simp, Relation.ReflTransGen.refl⟩
  | cons p rest ih =>
    rw [List.forM_cons]
    refine Runs.bind (Runs.bind (Runs.of_eq (stores s p rest h) ?_))
    refine Runs.of_eq (call_run _ _ _) ?_
    refine Runs.mono (ih (h.tail rfl rfl)) ?_
    rintro _ s' ⟨store, world, rfl, hvalid, hparts, htold⟩
    refine ⟨store, world, rfl, hvalid, ?_, ?_⟩
    · rw [hparts, h.participants_add, List.append_assoc]
      rfl
    · exact Relation.ReflTransGen.head ⟨p, _, rfl⟩ htold

/-- The participants handed back by the match handler go back to the store one by one. -/
theorem handBack_runs (m : Match) {s : PoolState W} {back : List Participant}
    (h : Returning s back) :
    Runs (forM back (fun p => do
      let _ ← add deps p
      emit (.handedBack m p))) s (fun _ s' =>
      ∃ store, s' = { s with store := store, log := handBackEvents m back ++ s.log } ∧
        store.Valid ∧ store.participants = s.store.participants ++ back) := by
  induction back generalizing s with
  | nil => exact ⟨⟨⟩, s, rfl, s.store, rfl, h.store, by simp⟩
  | cons p rest ih =>
    rw [List.forM_cons]
    refine Runs.bind (Runs.bind (Runs.of_eq (add_stores s p rest h) (Runs.update ?_)))
    refine Runs.mono (ih (h.tail rfl rfl)) ?_
    rintro _ s' ⟨store, rfl, hvalid, hparts⟩
    refine ⟨store, ?_, hvalid, ?_⟩
    · simp [handBackEvents]
    · rw [hparts, h.participants_add, List.append_assoc]
      rfl

theorem rememberRequeued_run (pending : PendingMatch) (leaving : List Participant)
    (s : PoolState W) : ∃ records, rememberRequeued pending leaving s =
      .ok ⟨⟩ { s with requeuedByMatchId := records } := by
  by_cases h : requeued pending leaving = []
  · refine ⟨s.requeuedByMatchId, ?_⟩
    change EStateM.Result.ok _ (if _ then _ else _) = _
    rw [if_pos h]
  · refine ⟨s.requeuedByMatchId.set pending.pairing.id
      { ids := (requeued pending leaving).map Participant.id, openUntil := pending.deadline }, ?_⟩
    change EStateM.Result.ok _ (if _ then _ else _) = _
    rw [if_neg h]

section

variable (handsBack : HandsBack deps) {s : PoolState W} (h : Sound deps s)
include h

/-- The participants of a pending match can go back to the store once it is dropped. -/
theorem returning_of_pending {pending : PendingMatch} (waiting : pending ∈ s.pending.all)
    {back : List Participant} (inside : back.Sublist pending.pairing.participants)
    {s' : PoolState W} (store : s'.store = s.store)
    (dropped : s'.pending = s.pending.delete pending.pairing.id) : Returning s' back where
  store := by
    rw [store]
    exact h.store
  ids := by
    rw [store]
    exact nodup_map_of_subperm (h.custody.returning waiting inside) h.custody.ids
  users := by
    rw [store]
    exact nodup_map_of_subperm (h.custody.returning waiting inside) h.custody.users
  waiting := by
    intro p hp other hother q hq hu
    rw [dropped, PendingMatches.all_delete h.keyed] at hother
    obtain ⟨hother, hne⟩ := List.mem_filter.mp hother
    have hpq : q = p := List.inj_on_of_nodup_map h.custody.users
      (participant_held hother hq) (participant_held waiting (inside.subset hp)) hu
    exact not_in_other h.custody waiting (inside.subset hp) hother (of_decide_eq_true hne)
      (hpq ▸ hq)

include handsBack

theorem abandonWith_follows {add : Participant → PoolM W Bool} (stores : Stores add)
    {pending : PendingMatch} {leaving : List Participant} {outcome : QueueExitOutcome}
    (waiting : pending ∈ s.pending.all)
    (leavers : leaving.Sublist pending.pairing.participants)
    (hout : outcome.isMatched = false) :
    Runs (abandonWith deps add pending leaving outcome) s (fun _ s' =>
      Follows deps s s' ∧ s'.pending = s.pending.delete pending.pairing.id ∧
        s'.store.participants = s.store.participants ++ requeued pending leaving ∧
        Told deps s.world s'.world) := by
  unfold abandonWith
  refine Runs.bind (Runs.update ?_)
  refine Runs.bind (Runs.of_eq (logExits_run _ _ _) ?_)
  refine Runs.bind (Runs.of_eq (now_run _) ?_)
  obtain ⟨records, hrecords⟩ := rememberRequeued_run pending leaving { s with
    pending := s.pending.delete pending.pairing.id
    reads := s.reads + leaving.length + 1
    log := exitEvents deps.now outcome s.reads leaving ++ s.log }
  refine Runs.bind (Runs.of_eq hrecords ?_)
  refine Runs.bind (Runs.mono (requeue_runs stores _
    (returning_of_pending h waiting List.filter_sublist rfl rfl)) ?_)
  rintro _ s' ⟨store, world, rfl, hvalid, hparts, htold⟩
  refine Runs.update ⟨?_, rfl, hparts, htold⟩
  refine Follows.move handsBack h ⟨hvalid, PendingMatches.keyed_delete h.keyed _, ?_⟩ ?_
  · simpa [namedIds, namedIds_append] using h.drawn
  · have hmove := Move.abandon s.ledger waiting leavers hout htold
    convert hmove using 1
    simp only [PoolState.ledger, hparts, withoutMatch, PendingMatches.all_delete h.keyed]

theorem removeAndLog_follows {p : Participant} (searching : p ∈ s.store.participants)
    {outcome : QueueExitOutcome} (hout : outcome.isMatched = false) :
    Runs (removeAndLog deps p outcome) s (fun removed s' => removed = true ∧ Follows deps s s' ∧
      s'.pending = s.pending ∧ s'.world = s.world ∧
      s'.store.participants = s.store.participants.filter (fun q => q.id ≠ p.id)) := by
  obtain ⟨hremoved, hvalid, hparts⟩ := InMemoryPoolStore.remove_present h.store searching
  unfold removeAndLog
  refine Runs.bind (Runs.updateGet ?_)
  rw [hremoved]
  refine Runs.bind (Runs.of_eq (logExit_run _ _ _) (Runs.pure ⟨rfl, ?_, rfl, rfl, hparts⟩))
  refine Follows.move handsBack h ⟨hvalid, h.keyed, ?_⟩ ?_
  · simpa [namedIds] using h.drawn
  · have hmove : Move deps s.ledger _ := Move.exit s.ledger searching hout
    convert hmove using 1
    simp [PoolState.ledger, hparts, withoutParticipants, exitEvents]

theorem abandon_follows {pending : PendingMatch} {leaving : List Participant}
    {outcome : QueueExitOutcome} (waiting : pending ∈ s.pending.all)
    (leavers : leaving.Sublist pending.pairing.participants)
    (hout : outcome.isMatched = false) :
    Runs (abandon deps pending leaving outcome) s (fun _ s' =>
      Follows deps s s' ∧ s'.pending = s.pending.delete pending.pairing.id ∧
        s'.store.participants = s.store.participants ++ requeued pending leaving ∧
        Told deps s.world s'.world) :=
  abandonWith_follows handsBack h add_stores waiting leavers hout

omit handsBack in
/-- An id that is searching is in no pending match. -/
theorem searching_not_pending {p : Participant} (searching : p ∈ s.store.participants) :
    ∀ pending ∈ s.pending.all, p.id ∉ pending.pairing.ids := by
  intro pending hp hid
  obtain ⟨q, hq, he⟩ := List.mem_map.mp hid
  have hqp : q = p := List.inj_on_of_nodup_map h.custody.ids (participant_held hp hq)
    (List.mem_append_left _ searching) he
  exact not_searching h.custody hp hq (hqp ▸ searching)

theorem removeByIdAndLog_follows (id : String) {outcome : QueueExitOutcome}
    (hout : outcome.isMatched = false) :
    Runs (removeByIdAndLog deps id outcome) s (fun removed s' => Follows deps s s' ∧
      s'.pending = s.pending ∧ (∀ q ∈ s'.store.participants, q.id ≠ id) ∧
      (removed = true → ∀ pending ∈ s'.pending.all, id ∉ pending.pairing.ids)) := by
  unfold removeByIdAndLog
  refine Runs.bind (Runs.read ?_)
  cases hg : s.store.get id with
  | none =>
    refine Runs.pure ⟨Follows.refl h, rfl, (InMemoryPoolStore.get_eq_none h.store).mp hg, ?_⟩
    intro hr
    cases hr
  | some p =>
    obtain ⟨hp, rfl⟩ := (InMemoryPoolStore.get_eq_some h.store).mp hg
    refine (removeAndLog_follows handsBack h hp hout).mono ?_
    rintro removed s' ⟨-, hf, hpending, -, hparts⟩
    refine ⟨hf, hpending, ?_, fun _ => ?_⟩
    · intro q hq
      rw [hparts] at hq
      exact of_decide_eq_true (List.mem_filter.mp hq).2
    · rw [hpending]
      exact searching_not_pending h hp

theorem leavePending_follows (id : String) {outcome : QueueExitOutcome}
    (hout : outcome.isMatched = false) :
    Runs (leavePending deps id outcome) s (fun _ s' => Follows deps s s' ∧
      (∀ q ∈ s'.store.participants, q ∈ s.store.participants ∨ q.id ≠ id) ∧
      ∀ pending ∈ s'.pending.all, pending ∈ s.pending.all ∧ id ∉ pending.pairing.ids) := by
  unfold leavePending
  refine Runs.bind (Runs.read ?_)
  cases hf : s.pending.findByParticipantId id with
  | none =>
    refine Runs.pure ⟨Follows.refl h, fun q hq => Or.inl hq, ?_⟩
    intro pending hp
    refine ⟨hp, ?_⟩
    intro hid
    obtain ⟨q, hq, he⟩ := List.mem_map.mp hid
    exact of_decide_eq_false (PendingMatches.find_eq_none.mp hf pending hp q hq) he
  | some found =>
    obtain ⟨hwaiting, hinside, hid⟩ := PendingMatches.find_eq_some hf
    have hid := of_decide_eq_true hid
    refine Runs.bind (Runs.mono (abandon_follows handsBack h hwaiting
      (List.singleton_sublist.mpr hinside) hout) ?_)
    rintro _ s' ⟨hfollows, hpending, hparts, -⟩
    refine Runs.pure ⟨hfollows, ?_, ?_⟩
    · intro q hq
      rw [hparts] at hq
      rcases List.mem_append.mp hq with hold | hback
      · exact Or.inl hold
      · right
        obtain ⟨hq, hstays⟩ := List.mem_filter.mp hback
        intro he
        have hqf : q = found.participant := List.inj_on_of_nodup_map h.custody.ids
          (participant_held hwaiting hq) (participant_held hwaiting hinside) (he.trans hid.symm)
        exact of_decide_eq_true hstays (List.mem_singleton.mpr hqf)
    · intro pending hp
      rw [hpending, PendingMatches.all_delete h.keyed] at hp
      obtain ⟨hp, hne⟩ := List.mem_filter.mp hp
      refine ⟨hp, ?_⟩
      intro hmem
      obtain ⟨q, hq, he⟩ := List.mem_map.mp hmem
      have hqf : q = found.participant := List.inj_on_of_nodup_map h.custody.ids
        (participant_held hp hq) (participant_held hwaiting hinside) (he.trans hid.symm)
      exact not_in_other h.custody hwaiting hinside hp (of_decide_eq_true hne) (hqf ▸ hq)

omit handsBack h in
/-- Nobody goes by an id that is neither searching nor in a pending match. -/
theorem gone_of {s' : PoolState W} {id : String} (store : ∀ q ∈ s'.store.participants, q.id ≠ id)
    (pending : ∀ pending ∈ s'.pending.all, id ∉ pending.pairing.ids) : Gone s' id := by
  intro q hq he
  rcases List.mem_append.mp hq with hq | hq
  · exact store q hq he
  · obtain ⟨other, hother, hq⟩ := List.mem_flatMap.mp hq
    exact pending other hother (he ▸ List.mem_map_of_mem hq)

/-- Whoever leaves the store or else its pending match is in the pool no more. -/
theorem leave_follows (id : String) {outcome outcome' : QueueExitOutcome}
    (hout : outcome.isMatched = false) (hout' : outcome'.isMatched = false) :
    Runs (do
        if ← removeByIdAndLog deps id outcome then
          return true
        leavePending deps id outcome' : PoolM W Bool) s
      (fun _ s' => Follows deps s s' ∧ Gone s' id) := by
  refine Runs.bind (Runs.mono (removeByIdAndLog_follows handsBack h id hout) ?_)
  rintro removed s₁ ⟨hf, -, hstore, hgone⟩
  cases removed with
  | true => exact Runs.pure ⟨hf, gone_of hstore (hgone rfl)⟩
  | false =>
    refine Runs.mono (leavePending_follows handsBack hf.sound id hout') ?_
    rintro _ s₂ ⟨hf', hparts, hgone⟩
    refine ⟨hf.trans hf', gone_of ?_ (fun pending hp => (hgone pending hp).2)⟩
    intro q hq
    exact (hparts q hq).elim (hstore q) (fun hne => hne)

theorem dequeueBySocketId_follows (id : String) :
    Runs (dequeueBySocketId deps id) s (fun _ s' => Follows deps s s' ∧ Gone s' id) :=
  leave_follows handsBack h id rfl rfl

/-- Whoever cancels is in the pool no more. -/
theorem remove_follows (id : String) :
    Runs (remove deps id) s (fun _ s' => Follows deps s s' ∧ Gone s' id) := by
  unfold remove
  refine Runs.bind (Runs.mono (removeByIdAndLog_follows handsBack h id rfl) ?_)
  rintro removed s₁ ⟨hf, -, hstore, hgone⟩
  cases removed with
  | true => exact Runs.pure ⟨hf, gone_of hstore (hgone rfl)⟩
  | false =>
    refine Runs.discard (Runs.mono (leavePending_follows handsBack hf.sound id rfl) ?_)
    rintro _ s₂ ⟨hf', hparts, hgone⟩
    refine ⟨hf.trans hf', gone_of ?_ (fun pending hp => (hgone pending hp).2)⟩
    intro q hq
    exact (hparts q hq).elim (hstore q) (fun hne => hne)

end

/-! ## Answers to proposals -/

theorem handle_runs {m : Match} {s : PoolState W} (h : Returning s (deps.handle m s.world).2) :
    Runs (handle deps m) s (fun _ s' => ∃ store, s' = { s with
        store := store
        log := handBackEvents m (deps.handle m s.world).2 ++ .handled m :: s.log
        world := (deps.handle m s.world).1 } ∧
      store.Valid ∧
      store.participants = s.store.participants ++ (deps.handle m s.world).2) := by
  unfold handle
  refine Runs.bind (Runs.updateGet ?_)
  exact handBack_runs m ⟨h.store, h.ids, h.users, h.waiting⟩

/-- The clock is read only when the match is in the book. -/
theorem findLivePending_runs (matchId id : String) (s : PoolState W) :
    Runs (findLivePending deps matchId id) s (fun found s' =>
      (s.pending.get matchId = none ∧ found = none ∧ s' = s) ∨
      ∃ pending, s.pending.get matchId = some pending ∧ s' = { s with reads := s.reads + 1 } ∧
        found = if deps.now s.reads < pending.deadline ∧ id ∈ pending.pairing.ids
          then some pending else none) := by
  unfold findLivePending
  refine Runs.bind (Runs.read ?_)
  cases hg : s.pending.get matchId with
  | none => exact Runs.pure (Or.inl ⟨rfl, rfl, rfl⟩)
  | some pending =>
    refine Runs.bind (Runs.of_eq (now_run s) (Runs.pure (Or.inr ⟨pending, rfl, rfl, rfl⟩)))

theorem forgetRequeued_run (matchId id : String) (s : PoolState W) :
    ∃ records, forgetRequeued matchId id s = .ok ⟨⟩ { s with requeuedByMatchId := records } := by
  cases hg : s.requeuedByMatchId.get matchId with
  | none =>
    refine ⟨s.requeuedByMatchId, ?_⟩
    simp [forgetRequeued, modify, modifyGet, MonadStateOf.modifyGet, EStateM.modifyGet, hg]
  | some record =>
    refine ⟨s.requeuedByMatchId.set matchId
      { record with ids := record.ids.filter (fun id' => id' ≠ id) }, ?_⟩
    simp [forgetRequeued, modify, modifyGet, MonadStateOf.modifyGet, EStateM.modifyGet, hg]

section

variable (handsBack : HandsBack deps) {s : PoolState W} (h : Sound deps s)
include handsBack h

theorem wasRequeuedFrom_follows (matchId id : String) :
    Runs (wasRequeuedFrom deps matchId id) s (fun _ s' => Follows deps s s' ∧
      s'.pending = s.pending) := by
  unfold wasRequeuedFrom
  refine Runs.bind (Runs.read ?_)
  cases s.requeuedByMatchId.get matchId with
  | none => exact Runs.pure ⟨Follows.refl h, rfl⟩
  | some record =>
    refine Runs.bind (Runs.of_eq (now_run s) (Runs.pure ⟨?_, rfl⟩))
    exact Follows.quiet handsBack h rfl rfl (Nat.le_refl _) rfl (Nat.le_succ _)
      Relation.ReflTransGen.refl

theorem record_follows {pending : PendingMatch} (waiting : pending ∈ s.pending.all) {id : String}
    (inside : id ∈ pending.pairing.ids) (inTime : deps.now s.reads < pending.deadline) :
    Follows deps s { s with
      pending := s.pending.set pending.pairing.id (pending.accept id)
      reads := s.reads + 1
      log := .accepted pending.pairing.id id (deps.now s.reads) :: s.log } := by
  refine Follows.move handsBack h ⟨h.store, PendingMatches.keyed_set h.keyed rfl, ?_⟩ ?_
  · simpa [namedIds] using h.drawn
  · have hmove : Move deps s.ledger _ := Move.accept s.ledger waiting inside inTime
    convert hmove using 1
    simp only [PoolState.ledger, PendingMatches.all_set h.keyed waiting]

/-- The last ACCEPT takes the match out of the book and gives it to the match handler. -/
theorem dispatch_follows {pending : PendingMatch} (waiting : pending ∈ s.pending.all) {id : String}
    (inside : id ∈ pending.pairing.ids) (inTime : deps.now s.reads < pending.deadline)
    (complete : (pending.accept id).complete = true) :
    Runs (dispatch deps (pending.accept id).pairing) { s with
      pending := (s.pending.set pending.pairing.id (pending.accept id)).delete pending.pairing.id
      reads := s.reads + 1
      log := .accepted pending.pairing.id id (deps.now s.reads) :: s.log }
      (fun _ s' => Follows deps s s') := by
  rw [InsertionMap.delete_set]
  unfold dispatch
  refine Runs.bind (Runs.of_eq (logExits_run _ _ _) ?_)
  refine Runs.mono (handle_runs (returning_of_pending h waiting
    (handsBack pending.pairing s.world) rfl rfl)) ?_
  rintro _ s' ⟨store, rfl, hvalid, hparts⟩
  refine Follows.move handsBack h ⟨hvalid, PendingMatches.keyed_delete h.keyed _, ?_⟩ ?_
  · have hnamed := h.custody.named pending waiting
    intro id' hid'
    simp only [namedIds, namedIds_append, namedIds_handBackEvents, namedIds_exitEvents,
      List.nil_append, List.mem_cons] at hid'
    rcases hid' with rfl | hid'
    · exact h.drawn _ hnamed
    · exact h.drawn id' hid'
  · have hmove : Move deps s.ledger _ := Move.dispatch s.ledger waiting inside inTime complete
    convert hmove using 1
    simp only [PoolState.ledger, hparts, withoutMatch, PendingMatches.all_delete h.keyed]
    rfl

/-- An ACCEPT in time is recorded, and the one that completes the match hands it over. -/
theorem accept_follows (matchId id : String) :
    Runs (accept deps matchId id) s (fun _ s' => Follows deps s s') := by
  unfold accept
  refine Runs.bind (Runs.mono (findLivePending_runs matchId id s) ?_)
  have hquiet : Follows deps s { s with reads := s.reads + 1 } :=
    Follows.quiet handsBack h rfl rfl (Nat.le_refl _) rfl (Nat.le_succ _)
      Relation.ReflTransGen.refl
  have hlate : ∀ s', Follows deps s s' → Runs (do
      return if ← wasRequeuedFrom deps matchId id then MatchResponseOutcome.requeued
        else .unknownMatch) s' (fun _ s' => Follows deps s s') := by
    intro s' hf
    refine Runs.bind (Runs.mono (wasRequeuedFrom_follows handsBack hf.sound matchId id) ?_)
    rintro _ s'' ⟨hf', -⟩
    exact Runs.pure (hf.trans hf')
  rintro found s' (⟨-, rfl, rfl⟩ | ⟨pending, hget, rfl, rfl⟩)
  · exact hlate s' (Follows.refl h)
  · split
    · rename_i hfound
      split at hfound
      · cases hfound
      · exact hlate _ hquiet
    · rename_i pending' hfound
      split at hfound
      · rename_i hlive
        injection hfound with hp
        subst hp
        have hid : pending.pairing.id = matchId := h.keyed matchId pending hget
        subst hid
        have hwaiting : pending ∈ s.pending.all := InsertionMap.get_mem_values hget
        refine Runs.bind (Runs.update ?_)
        split
        · rename_i hcomplete
          refine Runs.bind (Runs.update (Runs.bind ?_))
          refine Runs.mono (dispatch_follows handsBack h hwaiting hlive.2 hlive.1 hcomplete) ?_
          exact fun _ s' hf => Runs.pure hf
        · exact Runs.pure (record_follows handsBack h hwaiting hlive.2 hlive.1)
      · cases hfound

theorem call_follows (p : Participant) (message : ChannelCall) :
    Follows deps s { s with world := deps.call p message s.world } :=
  Follows.quiet handsBack h rfl rfl (Nat.le_refl _) rfl (Nat.le_refl _)
    (Relation.ReflTransGen.single ⟨p, message, rfl⟩)

/-- A late DECLINE adds no pending match. -/
theorem declineAfterRequeue_follows (matchId id : String) :
    Runs (declineAfterRequeue deps matchId id) s (fun _ s' => Follows deps s s' ∧
      ∀ pending ∈ s'.pending.all, pending ∈ s.pending.all) := by
  unfold declineAfterRequeue
  refine Runs.bind (Runs.mono (wasRequeuedFrom_follows handsBack h matchId id) ?_)
  rintro requeued s₁ ⟨hf₁, hp₁⟩
  cases requeued with
  | false => exact Runs.pure ⟨hf₁, fun pending hp => hp₁ ▸ hp⟩
  | true =>
    obtain ⟨records, hforget⟩ := forgetRequeued_run matchId id s₁
    refine Runs.bind (Runs.of_eq hforget (Runs.bind (Runs.read ?_)))
    have hf₂ : Follows deps s₁ { s₁ with requeuedByMatchId := records } :=
      Follows.quiet handsBack hf₁.sound rfl rfl (Nat.le_refl _) rfl (Nat.le_refl _)
        Relation.ReflTransGen.refl
    have hp₂ : { s₁ with requeuedByMatchId := records }.pending = s₁.pending := rfl
    generalize { s₁ with requeuedByMatchId := records } = s₂ at hf₂ hp₂ ⊢
    have hf₂ := hf₁.trans hf₂
    have hp₂ : s₂.pending = s.pending := hp₂.trans hp₁
    split
    · exact Runs.pure ⟨hf₂, fun pending hp => hp₂ ▸ hp⟩
    · rename_i participant _
      refine Runs.bind (Runs.mono (removeByIdAndLog_follows handsBack hf₂.sound id rfl) ?_)
      rintro removed s₃ ⟨hf₃, hp₃, -⟩
      have hf₃ := hf₂.trans hf₃
      have hp₃ : s₃.pending = s.pending := hp₃.trans hp₂
      cases removed with
      | true =>
        refine Runs.bind (Runs.of_eq (call_run _ _ _) (Runs.pure ⟨?_, fun pending hp => hp₃ ▸ hp⟩))
        exact hf₃.trans (call_follows handsBack hf₃.sound _ _)
      | false =>
        refine Runs.bind (Runs.discard (Runs.mono
          (leavePending_follows handsBack hf₃.sound id rfl) ?_))
        rintro _ s₄ ⟨hf₄, -, hp₄⟩
        have hf₄ := hf₃.trans hf₄
        refine Runs.bind (Runs.of_eq (call_run _ _ _) (Runs.pure ⟨?_, fun pending hp => ?_⟩))
        · exact hf₄.trans (call_follows handsBack hf₄.sound _ _)
        · exact hp₃ ▸ (hp₄ pending hp).1

/-- After a DECLINE in time the match is not pending any more. -/
theorem decline_follows (matchId id : String) :
    Runs (decline deps matchId id) s (fun _ s' => Follows deps s s' ∧
      ∀ pending ∈ s'.pending.all, pending.pairing.id = matchId → id ∈ pending.pairing.ids →
        pending.deadline ≤ deps.now s.reads) := by
  unfold decline
  refine Runs.bind (Runs.mono (findLivePending_runs matchId id s) ?_)
  have hquiet : Follows deps s { s with reads := s.reads + 1 } :=
    Follows.quiet handsBack h rfl rfl (Nat.le_refl _) rfl (Nat.le_succ _)
      Relation.ReflTransGen.refl
  rintro found s' (⟨hget, rfl, rfl⟩ | ⟨pending, hget, rfl, rfl⟩)
  · refine Runs.mono (declineAfterRequeue_follows handsBack h matchId id) ?_
    rintro _ s'' ⟨hf, hsub⟩
    refine ⟨hf, ?_⟩
    intro pending hp hid
    have hg := PendingMatches.get_of_mem h.keyed (hsub pending hp)
    rw [hid, hget] at hg
    cases hg
  · by_cases hlive : deps.now s.reads < pending.deadline ∧ id ∈ pending.pairing.ids
    · rw [if_pos hlive]
      have hid : pending.pairing.id = matchId := h.keyed matchId pending hget
      subst hid
      have hwaiting : pending ∈ s.pending.all := InsertionMap.get_mem_values hget
      dsimp only
      cases hfind : pending.pairing.participants.find? (fun p => p.id = id) with
      | none =>
        obtain ⟨q, hq, he⟩ := List.mem_map.mp hlive.2
        exact absurd (List.find?_eq_none.mp hfind q hq) (by simp [he])
      | some decliner =>
        have hinside := List.mem_of_find?_eq_some hfind
        refine Runs.bind (Runs.mono (abandon_follows handsBack hquiet.sound hwaiting
          (List.singleton_sublist.mpr hinside) rfl) ?_)
        rintro _ s₁ ⟨hf₁, hp₁, -⟩
        have hf₁ := hquiet.trans hf₁
        refine Runs.bind (Runs.of_eq (call_run _ _ _) (Runs.pure ⟨?_, ?_⟩))
        · exact hf₁.trans (call_follows handsBack hf₁.sound _ _)
        · intro other hother hid
          change other ∈ s₁.pending.all at hother
          rw [hp₁, PendingMatches.all_delete h.keyed] at hother
          exact absurd hid (of_decide_eq_true (List.mem_filter.mp hother).2)
    · rw [if_neg hlive]
      refine Runs.mono (declineAfterRequeue_follows handsBack hquiet.sound matchId id) ?_
      rintro _ s'' ⟨hf, hsub⟩
      refine ⟨hquiet.trans hf, ?_⟩
      intro other hother hid hinside
      have hg := PendingMatches.get_of_mem h.keyed (hsub other hother)
      rw [hid, hget] at hg
      injection hg with hg
      subst hg
      by_contra hlt
      exact hlive ⟨by omega, hinside⟩

end

end MatchmakingPool

end EdoproServer.Matchmaking
