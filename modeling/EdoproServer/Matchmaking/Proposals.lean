import EdoproServer.Matchmaking.Custody

namespace EdoproServer.Matchmaking

variable {W : Type}

/-- An event after which a match proposed with this deadline can no longer be handed over: a
participant left or was replaced, one cancelled, disconnected, or declined before the deadline,
or the match itself was already settled. -/
def Spoils (m : Match) (deadline : Int) : PoolEvent → Prop
  | .exit p outcome _ => p ∈ m.participants ∧ outcome.isMatched = false
  | .entered p => p.userId ∈ m.userIds
  | .asked (.remove id) _ => id ∈ m.ids
  | .asked (.dequeueBySocketId id) _ => id ∈ m.ids
  | .asked (.decline matchId id) time => matchId = m.id ∧ id ∈ m.ids ∧ time < deadline
  | .proposed m' _ => m'.id = m.id
  | .handled m' => m'.id = m.id
  | .abandoned m' _ _ => m'.id = m.id
  | _ => False

/-- The participant's ACCEPT of this match was recorded before the deadline. -/
def AcceptedInTime (log : List PoolEvent) (m : Match) (deadline : Int) (p : Participant) : Prop :=
  ∃ time, .accepted m.id p.id time ∈ log ∧ time < deadline

/-- A pending match was proposed once, nothing has spoiled it since, and whoever of its opted-in
participants counts as accepted has accepted it in time. -/
def Standing (log : List PoolEvent) (pending : PendingMatch) : Prop :=
  ∃ recent older, log = recent ++ .proposed pending.pairing pending.deadline :: older ∧
    pending.pairing.id ∉ namedIds older ∧
    (∀ event ∈ recent, ¬ Spoils pending.pairing pending.deadline event) ∧
    ∀ p ∈ pending.pairing.participants, p.optedIn = true → p.id ∈ pending.accepted →
      AcceptedInTime recent pending.pairing pending.deadline p

/-- What the log says, at the moment a match is handed over, about its accept step. With a clock
that never runs backwards no participant's DECLINE of it came at all. -/
def Approved (now : Nat → Int) (m : Match) (log : List PoolEvent) : Prop :=
  ∃ deadline recent older, log = recent ++ .proposed m deadline :: older ∧
    (∀ event ∈ recent, ¬ Spoils m deadline event) ∧
    (∀ p ∈ m.participants, p.optedIn = true → AcceptedInTime recent m deadline p) ∧
    (Monotone now → ∀ id time, .asked (.decline m.id id) time ∈ recent → id ∉ m.ids)

structure Proposals (deps : MatchmakingPoolDeps W) (l : Ledger W) : Prop where
  standing : ∀ pending ∈ l.pending, Standing l.log pending
  approved : ∀ m older, (.handled m :: older) <:+ l.log → requiresAcceptStep m = true →
    Approved deps.now m older
  once : ((handledMatches l.log).map Match.id).Nodup
  requeued : ∀ m leaving store, .abandoned m leaving store ∈ l.log →
    ∀ p ∈ m.participants, p ∈ store ↔ p ∉ leaving
  clocked : ∀ request time, .asked request time ∈ l.log → ∃ read ≤ l.reads, time = deps.now read

theorem handled_named {m : Match} {log : List PoolEvent} (h : m ∈ handledMatches log) :
    m.id ∈ namedIds log := by
  fun_induction handledMatches log with
  | case1 => cases h
  | case2 m' log ih =>
    rcases List.mem_cons.mp h with rfl | h
    · exact List.mem_cons_self
    · exact List.mem_cons_of_mem _ (ih h)
  | case3 event log _ ih => cases event <;> simp_all [namedIds]

theorem mem_handledMatches {m : Match} {log : List PoolEvent} (h : m ∈ handledMatches log) :
    .handled m ∈ log := by
  fun_induction handledMatches log with
  | case1 => cases h
  | case2 m' log ih =>
    rcases List.mem_cons.mp h with rfl | h
    · exact List.mem_cons_self
    · exact List.mem_cons_of_mem _ (ih h)
  | case3 event log _ ih => exact List.mem_cons_of_mem _ (ih h)

theorem Standing.extend {log : List PoolEvent} {pending : PendingMatch}
    (h : Standing log pending) (events : List PoolEvent)
    (harmless : ∀ event ∈ events, ¬ Spoils pending.pairing pending.deadline event) :
    Standing (events ++ log) pending := by
  obtain ⟨recent, older, rfl, hnamed, hrecent, haccepted⟩ := h
  refine ⟨events ++ recent, older, (List.append_assoc _ _ _).symm, hnamed, ?_, ?_⟩
  · intro event he
    rcases List.mem_append.mp he with he | he
    · exact harmless event he
    · exact hrecent event he
  · intro p hp hopt hacc
    obtain ⟨time, hmem, htime⟩ := haccepted p hp hopt hacc
    exact ⟨time, List.mem_append_right _ hmem, htime⟩

/-- A standing match has not been handled. -/
theorem Standing.unhandled {log : List PoolEvent} {pending : PendingMatch}
    (h : Standing log pending) :
    pending.pairing.id ∉ (handledMatches log).map Match.id := by
  obtain ⟨recent, older, rfl, hnamed, hrecent, -⟩ := h
  intro hm
  obtain ⟨m, hm, hid⟩ := List.mem_map.mp hm
  rw [handledMatches_append] at hm
  rcases List.mem_append.mp hm with hm | hm
  · exact hrecent _ (mem_handledMatches hm) hid
  · exact hnamed (hid ▸ handled_named hm)

/-- A suffix that begins with a handed over match is not among events that hand none over. -/
theorem handled_suffix (events : List PoolEvent) {m : Match} {older log : List PoolEvent}
    (h : (.handled m :: older) <:+ events ++ log) (none : ∀ m', .handled m' ∉ events) :
    (.handled m :: older) <:+ log := by
  induction events with
  | nil => exact h
  | cons event rest ih =>
    rcases List.suffix_cons_iff.mp h with h | h
    · injection h with h
      exact absurd (h ▸ List.mem_cons_self) (none m)
    · exact ih h (fun m' hm => none m' (List.mem_cons_of_mem _ hm))

theorem handled_not_mem_exitEvents {now : Nat → Int} {outcome : QueueExitOutcome} {reads : Nat}
    {leaving : List Participant} (m : Match) :
    .handled m ∉ exitEvents now outcome reads leaving := by
  intro h
  obtain ⟨p, -, waited, he⟩ := mem_exitEvents h
  cases he

section Preservation

variable {deps : MatchmakingPoolDeps W} {l l' : Ledger W}

/-- New events that hand nothing over, abandon nothing and answer nothing keep the books. -/
theorem Proposals.carry (h : Proposals deps l) (events : List PoolEvent)
    (log : l'.log = events ++ l.log) (reads : l.reads ≤ l'.reads)
    (noHandled : ∀ m, .handled m ∉ events)
    (noAbandoned : ∀ m leaving store, .abandoned m leaving store ∉ events)
    (noAsked : ∀ request time, .asked request time ∉ events)
    (standing : ∀ pending ∈ l'.pending, Standing l'.log pending) : Proposals deps l' where
  standing := standing
  approved := by
    intro m older hs hreq
    rw [log] at hs
    exact h.approved m older (handled_suffix _ hs noHandled) hreq
  once := by
    have hnone : handledMatches events = [] := by
      apply List.eq_nil_iff_forall_not_mem.mpr
      intro m hm
      exact noHandled m (mem_handledMatches hm)
    rw [log, handledMatches_append, hnone]
    exact h.once
  requeued := by
    intro m leaving store he
    rw [log] at he
    rcases List.mem_append.mp he with he | he
    · exact absurd he (noAbandoned m leaving store)
    · exact h.requeued m leaving store he
  clocked := by
    intro request time he
    rw [log] at he
    rcases List.mem_append.mp he with he | he
    · exact absurd he (noAsked request time)
    · obtain ⟨read, hread, ht⟩ := h.clocked request time he
      exact ⟨read, hread.trans reads, ht⟩

theorem exit_proposals (hc : Custody l) (h : Proposals deps l) {p : Participant}
    {outcome : QueueExitOutcome} (searching : p ∈ l.store) :
    Proposals deps { l with
      store := withoutParticipants l [p.id]
      reads := l.reads + 1
      log := exitEvents deps.now outcome l.reads [p] ++ l.log } := by
  refine h.carry _ rfl (Nat.le_succ _) (fun m => handled_not_mem_exitEvents m) ?_ ?_ ?_
  · simp [exitEvents]
  · simp [exitEvents]
  · intro pending hp
    refine (h.standing pending hp).extend _ ?_
    intro event he hs
    obtain ⟨q, hq, waited, rfl⟩ := mem_exitEvents he
    rw [List.mem_singleton.mp hq] at hs
    exact not_searching hc hp hs.1 searching

theorem propose_proposals (hc : Custody l) (h : Proposals deps l) {m : Match} (deadline : Int)
    (searching : ∀ p ∈ m.participants, p ∈ l.store) (fresh : m.id ∉ namedIds l.log) :
    Proposals deps { l with
      store := withoutParticipants l m.ids
      pending := l.pending ++ [PendingMatch.open m deadline]
      log := .proposed m deadline :: l.log } := by
  refine h.carry [.proposed m deadline] rfl (Nat.le_refl _) (by simp) (by simp)
    (by simp) ?_
  intro pending hp
  rcases List.mem_append.mp hp with hp | hp
  · refine (h.standing pending hp).extend [.proposed m deadline] ?_
    intro event he hs
    rw [List.mem_singleton.mp he] at hs
    have hs : m.id = pending.pairing.id := hs
    exact fresh (hs ▸ hc.named pending hp)
  · rw [List.mem_singleton.mp hp]
    refine ⟨[], l.log, rfl, fresh, by simp, ?_⟩
    intro p hpm hopt hacc
    obtain ⟨q, hq, hid⟩ := List.mem_map.mp hacc
    obtain ⟨hqm, hnot⟩ := List.mem_filter.mp hq
    have hqp : q = p :=
      List.inj_on_of_nodup_map hc.store_ids (searching q hqm) (searching p hpm) hid
    rw [hqp, hopt] at hnot
    cases hnot

theorem accept_proposals (h : Proposals deps l) {pending : PendingMatch}
    {id : String} (waiting : pending ∈ l.pending) (inTime : deps.now l.reads < pending.deadline) :
    Proposals deps { l with
      pending := l.pending.map (fun q =>
        if q.pairing.id = pending.pairing.id then pending.accept id else q)
      reads := l.reads + 1
      log := .accepted pending.pairing.id id (deps.now l.reads) :: l.log } := by
  refine h.carry [.accepted pending.pairing.id id (deps.now l.reads)] rfl
    (Nat.le_succ _) (by simp) (by simp) (by simp) ?_
  intro q' hq'
  have hextend : ∀ q ∈ l.pending,
      Standing (.accepted pending.pairing.id id (deps.now l.reads) :: l.log) q := by
    intro q hq
    exact (h.standing q hq).extend [_] (by simp [Spoils])
  obtain ⟨q, hq, rfl⟩ := List.mem_map.mp hq'
  split
  · obtain ⟨recent, older, hlog, hnamed, hrecent, haccepted⟩ := h.standing pending waiting
    refine ⟨.accepted pending.pairing.id id (deps.now l.reads) :: recent, older, ?_, hnamed, ?_, ?_⟩
    · change _ :: l.log = _
      rw [hlog]
      rfl
    · intro event he
      rcases List.mem_cons.mp he with rfl | he
      · simp [Spoils]
      · exact hrecent event he
    · intro p hp hopt hacc
      rcases List.mem_insert_iff.mp hacc with hid | hacc
      · exact ⟨deps.now l.reads, by simp [PendingMatch.accept, hid], inTime⟩
      · obtain ⟨time, hmem, htime⟩ := haccepted p hp hopt hacc
        exact ⟨time, List.mem_cons_of_mem _ hmem, htime⟩
  · exact hextend q hq

theorem abandon_proposals (hc : Custody l) (h : Proposals deps l) {pending : PendingMatch}
    {leaving : List Participant} {outcome : QueueExitOutcome} {world : W}
    (waiting : pending ∈ l.pending) (leavers : leaving.Sublist pending.pairing.participants) :
    Proposals deps {
      store := l.store ++ MatchmakingPool.requeued pending leaving
      pending := withoutMatch l pending.pairing.id
      reads := l.reads + leaving.length + 1
      log := .abandoned pending.pairing leaving
          (l.store ++ MatchmakingPool.requeued pending leaving) ::
        (exitEvents deps.now outcome l.reads leaving ++ l.log)
      world := world } where
  standing := by
    intro q hq
    obtain ⟨hq, hne⟩ := List.mem_filter.mp hq
    have hne := of_decide_eq_true hne
    refine (h.standing q hq).extend (.abandoned _ _ _ :: exitEvents _ _ _ _) ?_
    intro event he hs
    rcases List.mem_cons.mp he with rfl | he
    · exact hne (Eq.symm hs)
    · obtain ⟨p, hp, waited, rfl⟩ := mem_exitEvents he
      exact not_in_other hc waiting (leavers.subset hp) hq hne hs.1
  approved := by
    intro m older hs hreq
    rcases List.suffix_cons_iff.mp hs with hs | hs
    · injection hs with hs
      cases hs
    · exact h.approved m older (handled_suffix _ hs (fun m => handled_not_mem_exitEvents m)) hreq
  once := by simpa [handledMatches, handledMatches_append] using h.once
  requeued := by
    intro m leaving' store he p hp
    rcases List.mem_cons.mp he with he | he
    · cases he
      have hout := not_searching hc waiting hp
      simp [MatchmakingPool.requeued, hout, hp]
    · rcases List.mem_append.mp he with he | he
      · obtain ⟨q, -, waited, he⟩ := mem_exitEvents he
        cases he
      · exact h.requeued m leaving' store he p hp
  clocked := by
    intro request time he
    rcases List.mem_cons.mp he with he | he
    · cases he
    · rcases List.mem_append.mp he with he | he
      · obtain ⟨q, -, waited, he⟩ := mem_exitEvents he
        cases he
      · obtain ⟨read, hread, ht⟩ := h.clocked request time he
        exact ⟨read, by change read ≤ l.reads + leaving.length + 1; omega, ht⟩

theorem answer_proposals (h : Proposals deps l) {request : PoolRequest} {read : Nat}
    (earlier : read ≤ l.reads) (answered : Answered l request (deps.now read)) :
    Proposals deps { l with log := .asked request (deps.now read) :: l.log } where
  standing := by
    intro pending hp
    refine (h.standing pending hp).extend [_] ?_
    intro event he hs
    rw [List.mem_singleton.mp he] at hs
    cases request with
    | remove id => exact answered pending hp hs
    | dequeueBySocketId id => exact answered pending hp hs
    | decline matchId id =>
      have hdeadline := answered pending hp hs.1.symm hs.2.1
      have htime := hs.2.2
      omega
    | add | accept | tick => exact hs
  approved := by
    intro m older hs hreq
    exact h.approved m older (handled_suffix [_] hs (by simp)) hreq
  once := h.once
  requeued := by
    intro m leaving store he
    rcases List.mem_cons.mp he with he | he
    · cases he
    · exact h.requeued m leaving store he
  clocked := by
    intro request' time he
    rcases List.mem_cons.mp he with he | he
    · cases he
      exact ⟨read, earlier, rfl⟩
    · exact h.clocked request' time he

theorem enter_proposals (h : Proposals deps l) {p : Participant}
    (freshUser : ∀ q ∈ l.held, q.userId ≠ p.userId) :
    Proposals deps { l with store := l.store ++ [p], log := .entered p :: l.log } := by
  refine h.carry [.entered p] rfl (Nat.le_refl _) (by simp) (by simp) (by simp) ?_
  intro pending hp
  refine (h.standing pending hp).extend [.entered p] ?_
  intro event he hs
  rw [List.mem_singleton.mp he] at hs
  obtain ⟨q, hq, hu⟩ := List.mem_map.mp hs
  exact freshUser q (@participant_held W l pending hp q hq) hu

/-- A match handed over right after these events keeps the books if it was approved. -/
theorem Proposals.hand (h : Proposals deps l) {events : List PoolEvent} {m : Match}
    {back : List Participant}
    (log : l'.log = handBackEvents m back ++ .handled m :: (events ++ l.log))
    (reads : l.reads ≤ l'.reads) (noHandled : ∀ m, .handled m ∉ events)
    (noAbandoned : ∀ m leaving store, .abandoned m leaving store ∉ events)
    (noAsked : ∀ request time, .asked request time ∉ events)
    (unhandled : m.id ∉ (handledMatches l.log).map Match.id)
    (approved : requiresAcceptStep m = true → Approved deps.now m (events ++ l.log))
    (harmless : ∀ event ∈ events, ∀ q ∈ l'.pending, ¬ Spoils q.pairing q.deadline event)
    (others : ∀ q ∈ l'.pending, q ∈ l.pending ∧ m.id ≠ q.pairing.id) : Proposals deps l' where
  standing := by
    intro q hq
    rw [log, ← List.cons_append, ← List.append_assoc]
    refine (h.standing q (others q hq).1).extend _ ?_
    intro event he hs
    rcases List.mem_append.mp he with he | he
    · obtain ⟨p, -, rfl⟩ := List.mem_map.mp (List.mem_reverse.mp he)
      exact hs
    · rcases List.mem_cons.mp he with rfl | he
      · exact (others q hq).2 hs
      · exact harmless event he q hq hs
  approved := by
    intro m' older hs hreq
    rw [log] at hs
    have hs := handled_suffix _ hs (by simp [handBackEvents])
    rcases List.suffix_cons_iff.mp hs with hs | hs
    · cases hs
      exact approved hreq
    · exact h.approved m' older (handled_suffix _ hs noHandled) hreq
  once := by
    have hnone : handledMatches events = [] := by
      apply List.eq_nil_iff_forall_not_mem.mpr
      intro m hm
      exact noHandled m (mem_handledMatches hm)
    rw [log, handledMatches_append, handledMatches_handBackEvents, List.nil_append]
    simp only [handledMatches, handledMatches_append, hnone, List.nil_append, List.map_cons]
    exact List.nodup_cons.mpr ⟨unhandled, h.once⟩
  requeued := by
    intro m' leaving store he
    rw [log] at he
    simp only [List.mem_append, List.mem_cons, reduceCtorEq, false_or, handBackEvents,
      List.mem_reverse, List.mem_map, and_false, exists_false] at he
    rcases he with he | he
    · exact absurd he (noAbandoned m' leaving store)
    · exact h.requeued m' leaving store he
  clocked := by
    intro request time he
    rw [log] at he
    simp only [List.mem_append, List.mem_cons, reduceCtorEq, false_or, handBackEvents,
      List.mem_reverse, List.mem_map, and_false, exists_false] at he
    rcases he with he | he
    · exact absurd he (noAsked request time)
    · obtain ⟨read, hread, ht⟩ := h.clocked request time he
      exact ⟨read, hread.trans reads, ht⟩

/-- The ACCEPT that completes a standing match approves it. -/
theorem complete_approved (h : Proposals deps l) {pending : PendingMatch} {id : String}
    (waiting : pending ∈ l.pending) (inTime : deps.now l.reads < pending.deadline)
    (complete : (pending.accept id).complete = true) (reads : Nat) :
    Approved deps.now pending.pairing
      (exitEvents deps.now .matchedHuman reads pending.pairing.participants ++
        .accepted pending.pairing.id id (deps.now l.reads) :: l.log) := by
  obtain ⟨recent, older, hlog, hnamed, hrecent, haccepted⟩ := h.standing pending waiting
  refine ⟨pending.deadline,
    exitEvents deps.now .matchedHuman reads pending.pairing.participants ++
      .accepted pending.pairing.id id (deps.now l.reads) :: recent, older, ?_, ?_, ?_, ?_⟩
  · rw [hlog]
    simp
  · intro event he hs
    rcases List.mem_append.mp he with he | he
    · obtain ⟨p, -, waited, rfl⟩ := mem_exitEvents he
      cases hs.2
    · rcases List.mem_cons.mp he with rfl | he
      · exact hs
      · exact hrecent event he hs
  · intro p hp hopt
    have hacc := of_decide_eq_true (List.all_eq_true.mp complete p hp)
    rcases List.mem_insert_iff.mp hacc with hid | hacc
    · exact ⟨deps.now l.reads, by simp [hid], inTime⟩
    · obtain ⟨time, hmem, htime⟩ := haccepted p hp hopt hacc
      exact ⟨time, List.mem_append_right _ (List.mem_cons_of_mem _ hmem), htime⟩
  · intro hmono id' time he hid
    have he : .asked (.decline pending.pairing.id id') time ∈ recent := by
      rcases List.mem_append.mp he with he | he
      · obtain ⟨p, -, waited, he⟩ := mem_exitEvents he
        cases he
      · simpa using he
    have hlogged : .asked (.decline pending.pairing.id id') time ∈ l.log := by
      rw [hlog]
      exact List.mem_append_left _ he
    obtain ⟨read, hread, rfl⟩ := h.clocked _ _ hlogged
    have hle := hmono hread
    exact hrecent _ he ⟨rfl, hid, by omega⟩

theorem dispatch_proposals (h : Proposals deps l) {pending : PendingMatch}
    {id : String} (waiting : pending ∈ l.pending) (inTime : deps.now l.reads < pending.deadline)
    (complete : (pending.accept id).complete = true) {store back : List Participant} {world : W} :
    Proposals deps {
      store := store
      pending := withoutMatch l pending.pairing.id
      reads := l.reads + 1 + pending.pairing.participants.length
      log := handBackEvents pending.pairing back ++
        .handled pending.pairing ::
          (exitEvents deps.now .matchedHuman (l.reads + 1) pending.pairing.participants ++
            .accepted pending.pairing.id id (deps.now l.reads) :: l.log)
      world := world } := by
  have hsplit : exitEvents deps.now .matchedHuman (l.reads + 1) pending.pairing.participants ++
      .accepted pending.pairing.id id (deps.now l.reads) :: l.log =
      (exitEvents deps.now .matchedHuman (l.reads + 1) pending.pairing.participants ++
        [.accepted pending.pairing.id id (deps.now l.reads)]) ++ l.log := by simp
  have hkind : ∀ event ∈ exitEvents deps.now .matchedHuman (l.reads + 1)
      pending.pairing.participants ++ [.accepted pending.pairing.id id (deps.now l.reads)],
      (∃ p waited, event = .exit p .matchedHuman waited) ∨
        ∃ matchId id time, event = .accepted matchId id time := by
    intro event he
    rcases List.mem_append.mp he with he | he
    · obtain ⟨p, -, waited, he⟩ := mem_exitEvents he
      exact Or.inl ⟨p, waited, he⟩
    · exact Or.inr ⟨_, _, _, List.mem_singleton.mp he⟩
  refine h.hand (by rw [hsplit]) (by change l.reads ≤ l.reads + 1 + _; omega) ?_ ?_ ?_
    (h.standing pending waiting).unhandled ?_ ?_ ?_
  · intro m he
    rcases hkind _ he with ⟨_, _, he⟩ | ⟨_, _, _, he⟩ <;> cases he
  · intro m leaving store he
    rcases hkind _ he with ⟨_, _, he⟩ | ⟨_, _, _, he⟩ <;> cases he
  · intro request time he
    rcases hkind _ he with ⟨_, _, he⟩ | ⟨_, _, _, he⟩ <;> cases he
  · intro _
    rw [← hsplit]
    exact complete_approved h waiting inTime complete _
  · intro event he q _ hs
    rcases hkind _ he with ⟨p, waited, rfl⟩ | ⟨_, _, _, rfl⟩
    · cases hs.2
    · exact hs
  · intro q hq
    obtain ⟨hq, hne⟩ := List.mem_filter.mp hq
    exact ⟨hq, Ne.symm (of_decide_eq_true hne)⟩

theorem handOver_proposals (hc : Custody l) (h : Proposals deps l) {m : Match}
    {outcome : QueueExitOutcome} (fresh : m.id ∉ namedIds l.log)
    (immediate : requiresAcceptStep m = false) (matched : outcome.isMatched = true)
    {store back : List Participant} {world : W} :
    Proposals deps {
      store := store
      pending := l.pending
      reads := l.reads + m.participants.length
      log := handBackEvents m back ++
        .handled m :: (exitEvents deps.now outcome l.reads m.participants ++ l.log)
      world := world } := by
  refine h.hand rfl (Nat.le_add_right _ _) (fun m => handled_not_mem_exitEvents m) ?_ ?_ ?_ ?_ ?_ ?_
  · intro m leaving store he
    obtain ⟨p, -, waited, he⟩ := mem_exitEvents he
    cases he
  · intro request time he
    obtain ⟨p, -, waited, he⟩ := mem_exitEvents he
    cases he
  · intro hm
    obtain ⟨m', hm', hid⟩ := List.mem_map.mp hm
    exact fresh (hid ▸ handled_named hm')
  · intro hreq
    rw [immediate] at hreq
    cases hreq
  · intro event he q _ hs
    obtain ⟨p, -, waited, rfl⟩ := mem_exitEvents he
    exact Bool.false_ne_true (hs.2.symm.trans matched)
  · intro q hq
    refine ⟨hq, ?_⟩
    intro he
    exact fresh (he ▸ hc.named q hq)

/-- Every move keeps the books of the proposals. -/
theorem move_proposals (hc : Custody l) (h : Proposals deps l) (step : Move deps l l') :
    Proposals deps l' := by
  cases step with
  | quiet later told =>
    exact h.carry [] rfl later (by simp) (by simp) (by simp) h.standing
  | exit searching left => exact exit_proposals hc h searching
  | propose deadline searching distinct fresh =>
    exact propose_proposals hc h deadline searching fresh
  | accept waiting inside inTime => exact accept_proposals h waiting inTime
  | dispatch waiting inside inTime complete => exact dispatch_proposals h waiting inTime complete
  | handOver searching distinct fresh immediate matched =>
    exact handOver_proposals hc h fresh immediate matched
  | abandon waiting leavers left told => exact abandon_proposals hc h waiting leavers
  | answer earlier answered => exact answer_proposals h earlier answered

theorem moves_proposals (handsBack : HandsBack deps) (hc : Custody l) (h : Proposals deps l)
    (steps : Moves deps l l') : Proposals deps l' := by
  induction steps with
  | refl => exact h
  | tail before step ih => exact move_proposals (moves_custody handsBack hc before) ih step

end Preservation

end EdoproServer.Matchmaking
