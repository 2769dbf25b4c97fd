import EdoproServer.Matchmaking.Activity

namespace EdoproServer.Matchmaking
open Lib MatchmakingPool MatchmakingQueue

/-! ## What holds between any two requests -/

/-- A poll participant has a record of its user, a socket participant a session of its user. -/
structure Registered (p : Participant) (lobby : Lobby) : Prop where
  polled : p.presence = .poll → ∃ entry, lobby.entries.get p.id = some entry ∧
    entry.userId = p.userId
  connected : p.presence = .socket → ∃ session, lobby.sessions.get p.id = some session ∧
    session.resolvedUserId = some p.userId

/-- Every user the queue knows has a record of their own. -/
def Named (lobby : Lobby) : Prop :=
  ∀ userId ticketId, lobby.usersInQueue.get userId = some ticketId →
    ∃ entry, lobby.record ticketId = some entry ∧ entry.userId = userId

structure QueueSound (deps : MatchmakingQueueDeps) (s : PoolState Lobby) : Prop where
  sound : Sound deps.pool s
  registered : ∀ q ∈ s.ledger.held, Registered q s.world
  books : Books s.world
  named : Named s.world

/-! ## What a request can do -/

/-- One change that a request makes to the queue. `admits` says what is checked of a user who
enters over a socket. -/
inductive QueueMove (deps : MatchmakingQueueDeps) (admits : Lobby → UserId → Prop) :
    PoolState Lobby → PoolState Lobby → Prop
  | outside (s : PoolState Lobby) (reads : Nat) (closedSockets : List String) (botUp : Bool) :
      QueueMove deps admits s { s with
        reads := reads
        world := { s.world with closedSockets := closedSockets, botUp := botUp } }
  | followed {s s' : PoolState Lobby} (h : Follows deps.pool s s') : QueueMove deps admits s s'
  -- a record that nobody has registered yet
  | drafted {s : PoolState Lobby} {input : EnqueueInput} (time : Int)
      (noRecord : s.world.entries.get input.ticketId = none)
      (noSession : s.world.sessions.get input.ticketId = none) :
      QueueMove deps admits s { s with world := s.world.setEntry (newRecord input time) }
  | enqueued {s s' : PoolState Lobby} {ref : Nat} {input : EnqueueInput} {time : Int}
      (unregistered : input.ticketId ∉ s.world.records)
      (drafted : s.world.entries.get input.ticketId = some (newRecord input time))
      (free : s.world.usersInQueue.get input.userId = none)
      (arrives : EvictsAndEnters deps.pool s (pollParticipant ref input time) s') :
      QueueMove deps admits s { s' with world := register input s'.world }
  | refreshed {s : PoolState Lobby} {entry : QueueEntry} (time : Int)
      (known : s.world.record entry.ticketId = some entry) :
      QueueMove deps admits s
        { s with world := s.world.setEntry { entry with lastPollAt := time } }
  | released {s : PoolState Lobby} {entry : QueueEntry} (listed : Listed s.world entry)
      (idle : Gone s entry.ticketId ∨ ∃ own, s.world.entries.get entry.ticketId = some own ∧
        own.state = .matched) :
      QueueMove deps admits s { s with world := s.world.removeRecord entry }
  | entered {s s' : PoolState Lobby} {ref : Nat} {socketId : String} {userId : UserId}
      {input : EnterMatchmakingInput} {time : Int}
      (connected : s.world.sessions.get socketId = some (s.world.session socketId))
      (user : (s.world.session socketId).resolvedUserId = some userId)
      (admitted : admits s.world userId)
      (arrives : EvictsAndEnters deps.pool s
        (socketParticipant ref socketId userId (s.world.session socketId) input time) s') :
      QueueMove deps admits s { s' with
        world := s'.world.setSession socketId
          { s'.world.session socketId with queueState := .queued } }
  | session {s : PoolState Lobby} {socketId : String} {session : Session}
      (free : s.world.entries.get socketId = none)
      (identity : ∀ userId, (s.world.session socketId).resolvedUserId = some userId →
        session.resolvedUserId = some userId)
      (queueState : session.queueState = (s.world.session socketId).queueState ∨
        session.queueState = .idle ∧ Gone s socketId) :
      QueueMove deps admits s { s with world := s.world.setSession socketId session }

abbrev QueueMoves (deps : MatchmakingQueueDeps) (admits : Lobby → UserId → Prop) :
    PoolState Lobby → PoolState Lobby → Prop := Relation.ReflTransGen (QueueMove deps admits)

variable {deps : MatchmakingQueueDeps} {admits : Lobby → UserId → Prop} {s s' : PoolState Lobby}

/-- What the pool's calls and its match handler respect is kept for everyone in the pool. -/
theorem respects_invariant {Q : Participant → Lobby → Prop}
    (h : ∀ q lobby lobby', Respects lobby lobby' → Q q lobby → Q q lobby') :
    WorldInvariant deps.pool Q where
  call q lobby p message hq := h q lobby _ (call_respects lobby p message) hq
  handle m others lobby _ _ hknown := by
    intro q hq
    apply h q lobby _ (handle_respects deps m lobby)
    rcases List.mem_append.mp hq with hback | hother
    · exact hknown q (List.mem_append_left _ ((queue_handsBack deps m lobby).subset hback))
    · exact hknown q (List.mem_append_right _ hother)

theorem registered_invariant : WorldInvariant deps.pool Registered := by
  apply respects_invariant
  intro q lobby lobby' hr hq
  constructor
  · intro hpoll
    obtain ⟨entry, hentry, howner⟩ := hq.polled hpoll
    obtain ⟨entry', hentry', hsame⟩ := owned hr hentry
    exact ⟨entry', hentry', (congrArg Prod.snd hsame).trans howner⟩
  · intro hsocket
    rw [hr.sessions]
    exact hq.connected hsocket

theorem respects_record {lobby lobby' : Lobby} (h : Respects lobby lobby') {ticketId : String}
    {entry : QueueEntry} (hrecord : lobby.record ticketId = some entry) :
    ∃ entry', lobby'.record ticketId = some entry' ∧ entry'.owner = entry.owner := by
  obtain ⟨hlisted, hentry⟩ := record_eq_some.mp hrecord
  obtain ⟨entry', hentry', howner⟩ := owned h hentry
  exact ⟨entry', record_eq_some.mpr ⟨h.records ▸ hlisted, hentry'⟩, howner⟩

theorem respects_named {lobby lobby' : Lobby} (h : Respects lobby lobby') (named : Named lobby) :
    Named lobby' := by
  intro userId ticketId huser
  rw [h.usersInQueue] at huser
  obtain ⟨entry, hrecord, howner⟩ := named userId ticketId huser
  obtain ⟨entry', hrecord', hsame⟩ := respects_record h hrecord
  exact ⟨entry', hrecord', (congrArg Prod.snd hsame).trans howner⟩

theorem follows_queueSound (h : QueueSound deps s) (hf : Follows deps.pool s s') :
    QueueSound deps s' where
  sound := hf.sound
  registered := moves_world registered_invariant (queue_handsBack deps) h.sound.custody
    h.registered hf.moves
  books := respects_books (moves_relates (pool_respects deps) hf.moves) h.books
  named := respects_named (moves_relates (pool_respects deps) hf.moves) h.named

/-- Whoever arrives is held with all who stay, in a lobby that changed as the pool changes it. -/
structure Arrived (s : PoolState Lobby) (p : Participant) (s' : PoolState Lobby) : Prop where
  held : p ∈ s'.ledger.held
  respects : Respects s.world s'.world

theorem arrives_respects {p : Participant}
    (ha : EvictsAndEnters deps.pool s p s') : Arrived s p s' := by
  obtain ⟨s₁, hf, -, henters⟩ := ha
  constructor
  · rw [henters.ledger hf.sound]
    simp [Ledger.held]
  · rw [henters.state]
    exact moves_relates (pool_respects deps) hf.moves

/-- What is known of everyone in the pool, and of whoever arrives, is known afterwards. -/
theorem arrives_world (h : QueueSound deps s) {Q : Participant → Lobby → Prop}
    (invariant : WorldInvariant deps.pool Q) (known : ∀ q ∈ s.ledger.held, Q q s.world)
    {p : Participant} (hp : Q p s.world) (ha : EvictsAndEnters deps.pool s p s') :
    ∀ q ∈ s'.ledger.held, Q q s'.world := by
  obtain ⟨s₁, hf, told, henters⟩ := ha
  have hworld : s'.world = s₁.world := by rw [henters.state]
  have hkept : ∀ q ∈ s₁.ledger.held, Q q s₁.world :=
    moves_world invariant (queue_handsBack deps) h.sound.custody known hf.moves
  intro q hq
  rw [hworld]
  rw [henters.ledger hf.sound] at hq
  simp only [Ledger.held, List.mem_append, List.mem_singleton] at hq
  rcases hq with (hq | rfl) | hq
  · exact hkept q (List.mem_append_left _ hq)
  · exact told_world invariant told hp
  · exact hkept q (List.mem_append_right _ hq)

theorem arrives_sound {p : Participant} (ha : EvictsAndEnters deps.pool s p s') :
    Sound deps.pool s' := by
  obtain ⟨s₁, hf, -, henters⟩ := ha
  exact henters.sound hf.sound

/-- A record may be written that is new, or that has the owner it had before. -/
theorem setEntry_sound (h : QueueSound deps s) {entry : QueueEntry}
    (same : ∀ old, s.world.entries.get entry.ticketId = some old → entry.userId = old.userId)
    (unconnected : s.world.sessions.get entry.ticketId = none) :
    QueueSound deps { s with world := s.world.setEntry entry } := by
  have hkept : ∀ ticketId old, s.world.entries.get ticketId = some old → ∃ entry',
      (s.world.setEntry entry).entries.get ticketId = some entry' ∧
        entry'.userId = old.userId := by
    intro ticketId old hold
    by_cases hid : ticketId = entry.ticketId
    · subst hid
      exact ⟨entry, setEntry_own _ _, same old hold⟩
    · exact ⟨old, (setEntry_other hid).trans hold, rfl⟩
  refine ⟨h.sound.outside s.reads _, ?_, setEntry_books h.books same unconnected, ?_⟩
  · intro q hq
    refine ⟨?_, (h.registered q hq).connected⟩
    intro hpoll
    obtain ⟨old, hold, howner⟩ := (h.registered q hq).polled hpoll
    obtain ⟨entry', hentry', hsame⟩ := hkept q.id old hold
    exact ⟨entry', hentry', hsame.trans howner⟩
  · intro userId ticketId huser
    obtain ⟨old, hrecord, howner⟩ := h.named userId ticketId huser
    obtain ⟨hlisted, hold⟩ := record_eq_some.mp hrecord
    obtain ⟨entry', hentry', hsame⟩ := hkept ticketId old hold
    exact ⟨entry', record_eq_some.mpr ⟨hlisted, hentry'⟩, hsame.trans howner⟩

/-- A released record was the only one of its user. -/
theorem released_sound (h : QueueSound deps s) {entry : QueueEntry}
    (listed : Listed s.world entry) :
    QueueSound deps { s with world := s.world.removeRecord entry } where
  sound := h.sound.outside s.reads _
  registered q hq := ⟨(h.registered q hq).polled, (h.registered q hq).connected⟩
  books := removeRecord_books h.books listed
  named := by
    intro userId ticketId huser
    change (s.world.usersInQueue.delete entry.userId).get userId = some ticketId at huser
    rw [InsertionMap.get_delete] at huser
    split at huser
    · cases huser
    · rename_i hother
      obtain ⟨record, hrecord, howner⟩ := h.named userId ticketId huser
      obtain ⟨hlisted, hentry⟩ := record_eq_some.mp hrecord
      refine ⟨record, record_eq_some.mpr ⟨List.mem_filter.mpr ⟨hlisted, decide_eq_true ?_⟩,
        hentry⟩, howner⟩
      rintro rfl
      have hsame := listed.2
      rw [hentry] at hsame
      injection hsame with hsame
      exact hother (howner.symm.trans (congrArg Prod.snd hsame))

/-- A ticket is registered with its user, whom the queue does not know. -/
theorem enqueued_sound (h : QueueSound deps s) {ref : Nat} {input : EnqueueInput} {time : Int}
    (unregistered : input.ticketId ∉ s.world.records)
    (drafted : s.world.entries.get input.ticketId = some (newRecord input time))
    (free : s.world.usersInQueue.get input.userId = none)
    (arrives : EvictsAndEnters deps.pool s (pollParticipant ref input time) s') :
    QueueSound deps { s' with world := register input s'.world } := by
  have hr := (arrives_respects arrives).respects
  have hregistered : Registered (pollParticipant ref input time) s.world :=
    ⟨fun _ => ⟨_, drafted, rfl⟩, fun hsocket => by cases hsocket⟩
  have hkept := arrives_world h registered_invariant h.registered hregistered arrives
  obtain ⟨entry, hentry, howner⟩ := owned hr drafted
  have huser : entry.userId = input.userId := congrArg Prod.snd howner
  have hbooks := respects_books hr h.books
  have hnew : input.ticketId ∉ s'.world.records := hr.records ▸ unregistered
  have hrecords : (register input s'.world).records = s'.world.records ++ [input.ticketId] :=
    if_neg hnew
  refine ⟨(arrives_sound arrives).outside s'.reads _,
    fun q hq => ⟨(hkept q hq).polled, (hkept q hq).connected⟩, ?_, ?_⟩
  · refine register_books hbooks hentry huser ?_
    rw [hr.usersInQueue]
    exact free
  · intro userId ticketId hticket
    change (s'.world.usersInQueue.set input.userId input.ticketId).get userId = _ at hticket
    rw [InsertionMap.get_set] at hticket
    split at hticket
    · rename_i hown
      injection hticket with hticket
      subst hticket
      refine ⟨entry, record_eq_some.mpr ⟨?_, hentry⟩, huser.trans hown.symm⟩
      rw [hrecords]
      exact List.mem_append_right _ (List.mem_singleton_self _)
    · rw [hr.usersInQueue] at hticket
      obtain ⟨old, hrecord, hold⟩ := h.named userId ticketId hticket
      obtain ⟨old', hrecord', hsame⟩ := respects_record hr hrecord
      obtain ⟨hlisted, hget⟩ := record_eq_some.mp hrecord'
      refine ⟨old', record_eq_some.mpr ⟨?_, hget⟩, (congrArg Prod.snd hsame).trans hold⟩
      rw [hrecords]
      exact List.mem_append_left _ hlisted

/-- A session changes, but not its identity. -/
theorem session_sound (h : QueueSound deps s) {socketId : String} {session : Session}
    (free : s.world.entries.get socketId = none)
    (identity : ∀ userId, (s.world.session socketId).resolvedUserId = some userId →
      session.resolvedUserId = some userId) :
    QueueSound deps { s with world := s.world.setSession socketId session } where
  sound := h.sound.outside s.reads _
  registered := by
    intro q hq
    refine ⟨(h.registered q hq).polled, ?_⟩
    intro hsocket
    obtain ⟨old, hold, huser⟩ := (h.registered q hq).connected hsocket
    change ∃ session', (s.world.sessions.set socketId session).get q.id = some session' ∧ _
    rw [InsertionMap.get_set]
    split
    · rename_i hid
      refine ⟨session, rfl, identity q.userId ?_⟩
      rw [Lobby.session, ← hid, hold]
      exact huser
    · exact ⟨old, hold, huser⟩
  books := setSession_books h.books session free
  named := h.named

/-- Whoever enters over a socket has the session of their user. -/
theorem entered_sound (h : QueueSound deps s) {ref : Nat} {socketId : String} {userId : UserId}
    {input : EnterMatchmakingInput} {time : Int}
    (connected : s.world.sessions.get socketId = some (s.world.session socketId))
    (user : (s.world.session socketId).resolvedUserId = some userId)
    (arrives : EvictsAndEnters deps.pool s
      (socketParticipant ref socketId userId (s.world.session socketId) input time) s') :
    QueueSound deps { s' with
      world := s'.world.setSession socketId
        { s'.world.session socketId with queueState := .queued } } := by
  have hr := (arrives_respects arrives).respects
  have hregistered : Registered
      (socketParticipant ref socketId userId (s.world.session socketId) input time) s.world :=
    ⟨fun hpoll => (by cases hpoll), fun _ => ⟨_, connected, user⟩⟩
  have hkept := arrives_world h registered_invariant h.registered hregistered arrives
  have harrived : QueueSound deps s' :=
    ⟨arrives_sound arrives, hkept, respects_books hr h.books, respects_named hr h.named⟩
  refine session_sound harrived ?_ (fun _ hu => hu)
  refine harrived.books.apart socketId (s.world.session socketId) ?_
  rw [hr.sessions]
  exact connected

theorem move_sound (h : QueueSound deps s) (move : QueueMove deps admits s s') :
    QueueSound deps s' := by
  cases move with
  | outside reads closedSockets botUp =>
    exact ⟨h.sound.outside reads _,
      fun q hq => ⟨(h.registered q hq).polled, (h.registered q hq).connected⟩,
      ⟨h.books.keyed, h.books.distinct, h.books.recorded, h.books.apart⟩, h.named⟩
  | followed hf => exact follows_queueSound h hf
  | drafted time noRecord noSession =>
    refine setEntry_sound h ?_ noSession
    intro old hold
    cases noRecord.symm.trans hold
  | enqueued unregistered drafted free arrives =>
    exact enqueued_sound h unregistered drafted free arrives
  | @refreshed entry time known =>
    have hentry := (record_eq_some.mp known).2
    refine setEntry_sound h ?_ (unconnected h.books hentry)
    intro old hold
    rw [← Option.some.inj (hentry.symm.trans hold)]
  | released listed idle => exact released_sound h listed
  | entered connected user admitted arrives => exact entered_sound h connected user arrives
  | session free identity queueState => exact session_sound h free identity

/-- What every move keeps, any number of moves keep. -/
theorem moves_keep {I : PoolState Lobby → Prop}
    (step : ∀ {s s'}, QueueSound deps s → I s → QueueMove deps admits s s' → I s')
    (h : QueueSound deps s) (hI : I s) (moves : QueueMoves deps admits s s') :
    QueueSound deps s' ∧ I s' := by
  induction moves with
  | refl => exact ⟨h, hI⟩
  | tail _ move ih =>
    obtain ⟨hsound, hI⟩ := ih
    exact ⟨move_sound hsound move, step hsound hI move⟩

theorem moves_sound (h : QueueSound deps s) (moves : QueueMoves deps admits s s') :
    QueueSound deps s' :=
  (moves_keep (I := fun _ => True) (fun _ _ _ => trivial) h trivial moves).1

/-! ## What the requests do -/

theorem session_eq {lobby : Lobby} {id : String} (h : lobby.session id ≠ Session.fresh) :
    lobby.sessions.get id = some (lobby.session id) := by
  unfold Lobby.session at h ⊢
  cases hsession : lobby.sessions.get id with
  | none =>
    rw [hsession] at h
    exact absurd rfl h
  | some session => rfl

/-- The checks of MATCHMAKING_ENTER let nobody through but the connection's own user. -/
theorem enterGate_user {session : Session} {input : EnterMatchmakingInput} {userId : UserId}
    (h : enterGate deps session input = .ok userId) : session.resolvedUserId = some userId := by
  unfold enterGate at h
  cases huser : session.resolvedUserId with
  | none =>
    rw [huser] at h
    cases h
  | some other =>
    rw [huser] at h
    dsimp only at h
    split at h
    · cases h
    · split at h
      · cases h
      · split at h
        · cases h
        · injection h with he
          rw [he]

theorem isQueued_iff (h : Sound deps.pool s) {id : String} :
    isQueued s id = true ↔ ∃ q ∈ s.ledger.held, q.id = id := by
  unfold isQueued
  rw [Bool.or_eq_true, Option.isSome_iff_exists, Option.isSome_iff_exists]
  constructor
  · rintro (⟨q, hq⟩ | ⟨found, hfound⟩)
    · obtain ⟨hq, hid⟩ := (InMemoryPoolStore.get_eq_some h.store).mp hq
      exact ⟨q, List.mem_append_left _ hq, hid⟩
    · obtain ⟨hwaiting, hinside, hid⟩ := PendingMatches.find_eq_some hfound
      exact ⟨found.participant, participant_held hwaiting hinside, of_decide_eq_true hid⟩
  · rintro ⟨q, hq, rfl⟩
    rcases List.mem_append.mp hq with hq | hq
    · exact Or.inl ⟨q, (InMemoryPoolStore.get_eq_some h.store).mpr ⟨hq, rfl⟩⟩
    · obtain ⟨pending, hp, hq⟩ := List.mem_flatMap.mp hq
      right
      cases hfound : s.pending.findByParticipantId q.id with
      | some found => exact ⟨found, rfl⟩
      | none =>
        have hnone := PendingMatches.find_eq_none.mp hfound pending hp q hq
        exact absurd rfl (of_decide_eq_false hnone)

theorem gone_of_unqueued (h : Sound deps.pool s) {id : String} (hq : isQueued s id = false) :
    Gone s id := by
  intro q hheld hid
  have hqueued := (isQueued_iff h).mpr ⟨q, hheld, hid⟩
  rw [hq] at hqueued
  cases hqueued

/-- A record that the queue closes waits for nobody. -/
theorem closed_idle (h : QueueSound deps s) {time : Int} {entry : QueueEntry}
    (known : s.world.record entry.ticketId = some entry) (hclosed : closed time s entry = true) :
    Gone s entry.ticketId ∨ ∃ own, s.world.entries.get entry.ticketId = some own ∧
      own.state = .matched := by
  cases hstate : entry.state with
  | matched => exact Or.inr ⟨entry, (record_eq_some.mp known).2, hstate⟩
  | searching =>
    left
    simp only [closed, hstate, Bool.not_eq_true'] at hclosed
    exact gone_of_unqueued h.sound hclosed

/-- Nobody has a searching record who is not in the pool. -/
def Reconciled (s : PoolState Lobby) : Prop :=
  ∀ ticketId entry, s.world.record ticketId = some entry → entry.state = .searching →
    isQueued s ticketId = true

/-- What the reconciliation has still to look at, and what it has left as it is. -/
structure Reconciling (deps : MatchmakingQueueDeps) (admits : Lobby → UserId → Prop)
    (start : PoolState Lobby) (time : Int) (rest : List String) (s : PoolState Lobby) :
    Prop where
  moves : QueueMoves deps admits start s
  distinct : rest.Nodup
  listed : ∀ ticketId ∈ rest, ticketId ∈ s.world.records
  checked : ∀ ticketId entry, s.world.record ticketId = some entry → ticketId ∉ rest →
    closed time s entry = false

/-- A ticket whose record stays, if it has one, has been looked at. -/
theorem reconcile_keeps {start : PoolState Lobby} {time : Int} {ticketId : String}
    {rest : List String} (hI : Reconciling deps admits start time (ticketId :: rest) s)
    (kept : ∀ entry, s.world.entries.get ticketId = some entry → closed time s entry = false) :
    Reconciling deps admits start time rest s := by
  obtain ⟨-, hd⟩ := List.nodup_cons.mp hI.distinct
  refine ⟨hI.moves, hd, fun other ho => hI.listed other (List.mem_cons_of_mem ticketId ho), ?_⟩
  intro other record hrecord ho
  by_cases he : other = ticketId
  · subst he
    exact kept record (record_eq_some.mp hrecord).2
  · exact hI.checked other record hrecord (by simp [he, ho])

theorem reconcile_releases {start : PoolState Lobby} (h : QueueSound deps start) {time : Int}
    {ticketId : String} {rest : List String} {entry : QueueEntry}
    (hI : Reconciling deps admits start time (ticketId :: rest) s)
    (hget : s.world.entries.get ticketId = some entry) (hclosed : closed time s entry = true) :
    Reconciling deps admits start time rest
      { s with world := s.world.removeRecord entry } := by
  have hs := moves_sound h hI.moves
  obtain ⟨hnew, hd⟩ := List.nodup_cons.mp hI.distinct
  obtain rfl := hs.books.keyed ticketId entry hget
  have hrecord : s.world.record entry.ticketId = some entry :=
    record_eq_some.mpr ⟨hI.listed _ List.mem_cons_self, hget⟩
  have hidle := closed_idle hs hrecord hclosed
  refine ⟨hI.moves.tail (.released (record_listed hs.books hrecord) hidle), hd, ?_, ?_⟩
  · intro other ho
    have hlisted := hI.listed other (List.mem_cons_of_mem _ ho)
    refine List.mem_filter.mpr ⟨hlisted, decide_eq_true ?_⟩
    rintro rfl
    exact hnew ho
  · intro other record hother ho
    obtain ⟨hkept, hget'⟩ := record_eq_some.mp hother
    obtain ⟨hkept, hne⟩ := List.mem_filter.mp hkept
    refine hI.checked other record (record_eq_some.mpr ⟨hkept, hget'⟩) ?_
    exact List.not_mem_cons_of_ne_of_not_mem (of_decide_eq_true hne) ho

/-- Only the clock moves on. -/
theorem read_move (s : PoolState Lobby) :
    QueueMove deps admits s { s with reads := s.reads + 1 } :=
  .outside s (s.reads + 1) s.world.closedSockets s.world.botUp

variable (admits) in
/-- After a reconciliation every searching record has its ticket in the pool. -/
theorem reconcile_moves (h : QueueSound deps s) :
    Runs (reconcile deps) s (fun _ s' => QueueMoves deps admits s s' ∧ Reconciled s') := by
  refine Runs.bind (Runs.of_eq (now_run s) (Runs.bind (Runs.read ?_)))
  refine Runs.mono (Runs.loop (Reconciling deps admits s (deps.now s.reads)) _
    ⟨.single (read_move s), h.books.distinct, fun _ ht => ht, ?_⟩ ?_) ?_
  · intro ticketId entry hrecord hnot
    exact absurd (record_eq_some.mp hrecord).1 hnot
  · intro ticketId rest s' hI
    refine Runs.update ?_
    split
    · rename_i hnone
      refine reconcile_keeps hI ?_
      intro entry hentry
      cases hnone.symm.trans hentry
    · rename_i entry hentry
      split
      · rename_i hclosed
        exact reconcile_releases h hI hentry hclosed
      · rename_i hopen
        refine reconcile_keeps hI ?_
        intro other hother
        rw [← Option.some.inj (hentry.symm.trans hother)]
        exact Bool.eq_false_iff.mpr hopen
  · intro _ s' hI
    refine ⟨hI.moves, ?_⟩
    intro ticketId entry hrecord hsearching
    have hopen := hI.checked ticketId entry hrecord List.not_mem_nil
    simp only [closed, hsearching, Bool.not_eq_false'] at hopen
    rw [← (moves_sound h hI.moves).books.keyed ticketId entry (record_eq_some.mp hrecord).2]
    exact hopen

section

variable (freshIds : Function.Injective deps.newMatchId)
include freshIds

variable (admits) in
theorem tick_moves (h : QueueSound deps s) :
    Runs (tick deps) s (fun _ s' => QueueMoves deps admits s s' ∧ Reconciled s') := by
  refine Runs.bind (Runs.mono (perform_tick_runs (queue_handsBack deps) freshIds h.sound) ?_)
  intro _ s₁ hf
  refine Runs.mono (reconcile_moves admits (follows_queueSound h hf)) ?_
  rintro _ s₂ ⟨hmoves, hreconciled⟩
  exact ⟨.head (.followed hf) hmoves, hreconciled⟩

theorem request_move (h : QueueSound deps s) {request : PoolRequest}
    (noArrival : ∀ p, request ≠ .add p) :
    QueueMove deps admits s (stateAfter (perform deps.pool request s)) :=
  .followed (perform_follows (queue_handsBack deps) freshIds h.sound noArrival)

variable (admits) in
/-- Once its ticket has left the pool a record may be released. -/
theorem release_moves (h : QueueSound deps s) {entry : QueueEntry} (listed : Listed s.world entry)
    (left : stateAfter (perform deps.pool (.remove entry.ticketId) s) = s') :
    QueueMove deps admits s s' ∧ Respects s.world s'.world ∧
      QueueMove deps admits s' { s' with world := s'.world.removeRecord entry } := by
  subst left
  have hf : Follows deps.pool s (stateAfter (perform deps.pool (.remove entry.ticketId) s)) :=
    perform_follows (queue_handsBack deps) freshIds h.sound (by simp)
  have hr : Respects s.world (stateAfter (perform deps.pool (.remove entry.ticketId) s)).world :=
    moves_relates (pool_respects deps) hf.moves
  exact ⟨.followed hf, hr, .released (respects_listed hr listed)
    (Or.inl (remove_gone (queue_handsBack deps) h.sound entry.ticketId))⟩

theorem cancel_moves (h : QueueSound deps s) (ticketId : String) :
    QueueMoves deps admits s (stateAfter (cancel deps ticketId s)) := by
  refine after_bind _ (fun _ _ he => by cases he) ?_
  intro _ _ hs
  cases hs
  cases hrecord : s.world.record ticketId with
  | none => exact .refl
  | some entry =>
    obtain rfl := h.books.keyed ticketId entry (record_eq_some.mp hrecord).2
    have hl := record_listed h.books hrecord
    refine after_bind _ ?_ ?_
    · intro e s' he
      exact .single (release_moves admits freshIds h hl (congrArg stateAfter he)).1
    · intro _ s' he
      obtain ⟨hremoved, -, hreleased⟩ := release_moves admits freshIds h hl
        (congrArg stateAfter he)
      exact .tail (.single hremoved) hreleased

/-- What has still to be done while the records of a room leave the pool and the queue. -/
structure Releasing (deps : MatchmakingQueueDeps) (admits : Lobby → UserId → Prop)
    (start : PoolState Lobby) (rest : List QueueEntry) (s : PoolState Lobby) : Prop where
  moves : QueueMoves deps admits start s
  distinct : (rest.map QueueEntry.ticketId).Nodup
  listed : ∀ entry ∈ rest, Listed s.world entry

theorem abortRoom_turn {start : PoolState Lobby} (h : QueueSound deps start) {roomId : Nat}
    {entry : QueueEntry} {rest : List QueueEntry}
    (hI : Releasing deps admits start (entry :: rest) s) :
    Releasing deps admits start rest (stateAfter ((do
      if entry.roomId = some roomId then
        perform deps.pool (.remove entry.ticketId)
        updateLobby (fun lobby => lobby.removeRecord entry) : PoolM Lobby Unit) s)) := by
  have hs := moves_sound h hI.moves
  obtain ⟨hnew, hd⟩ := List.nodup_cons.mp hI.distinct
  have hothers : ∀ other ∈ rest, Listed s.world other :=
    fun other ho => hI.listed other (List.mem_cons_of_mem entry ho)
  split
  · have hl := hI.listed entry List.mem_cons_self
    refine after_bind (Releasing deps admits start rest) ?_ ?_
    · intro e s' he
      obtain ⟨hremoved, hr, -⟩ := release_moves admits freshIds hs hl
        (congrArg stateAfter he)
      exact ⟨hI.moves.tail hremoved, hd, fun other ho => respects_listed hr (hothers other ho)⟩
    · intro _ s' he
      obtain ⟨hremoved, hr, hreleased⟩ := release_moves admits freshIds hs hl
        (congrArg stateAfter he)
      refine ⟨(hI.moves.tail hremoved).tail hreleased, hd, ?_⟩
      intro other ho
      refine removeRecord_listed (respects_listed hr (hothers other ho)) ?_
      intro heq
      exact hnew (heq ▸ List.mem_map_of_mem ho)
  · exact ⟨hI.moves, hd, hothers⟩

end

/-- Every record goes by its own ticket. -/
theorem records_sublist {lobby : Lobby} (hb : Books lobby) (tickets : List String) :
    ((tickets.filterMap lobby.record).map QueueEntry.ticketId).Sublist tickets := by
  induction tickets with
  | nil => exact List.Sublist.slnil
  | cons ticketId rest ih =>
    cases hrecord : lobby.record ticketId with
    | none =>
      rw [List.filterMap_cons_none hrecord]
      exact ih.cons ticketId
    | some entry =>
      rw [List.filterMap_cons_some hrecord, List.map_cons,
        hb.keyed ticketId entry (record_eq_some.mp hrecord).2]
      exact ih.cons_cons ticketId

theorem abortRoom_moves (freshIds : Function.Injective deps.newMatchId) (h : QueueSound deps s)
    (roomId : Nat) : QueueMoves deps admits s (stateAfter (abortRoom deps roomId s)) := by
  refine after_bind _ (fun _ _ he => by cases he) ?_
  intro _ _ hs
  cases hs
  have hlisted : ∀ entry ∈ s.world.records.filterMap s.world.record, Listed s.world entry := by
    intro entry he
    obtain ⟨ticketId, -, hrecord⟩ := List.mem_filterMap.mp he
    exact record_listed h.books hrecord
  have hd := (records_sublist h.books s.world.records).nodup h.books.distinct
  obtain ⟨_, hafter⟩ := after_loop (Releasing deps admits s) _ ⟨.refl, hd, hlisted⟩
    (fun _ _ _ hI => abortRoom_turn freshIds h hI)
  exact hafter.moves

theorem poll_moves (h : QueueSound deps s) (ticketId : String) :
    QueueMoves deps admits s (stateAfter (poll deps ticketId s)) := by
  refine after_bind _ (fun _ _ he => by cases he) ?_
  intro _ _ hs
  cases hs
  cases hrecord : s.world.record ticketId with
  | none => exact .refl
  | some entry =>
    obtain rfl := h.books.keyed ticketId entry (record_eq_some.mp hrecord).2
    refine after_bind _ (fun _ _ he => by cases he) ?_
    intro _ _ ht
    cases ht
    have hrefreshed : QueueMoves deps admits s { s with
        reads := s.reads + 1
        world := s.world.setEntry { entry with lastPollAt := deps.now s.reads } } :=
      .tail (.single (read_move s)) (.refreshed (deps.now s.reads) hrecord)
    refine after_seq (QueueMoves deps admits s) hrefreshed ?_
    intro _ s' _ hmoves
    cases entry.state with
    | matched => exact hmoves
    | searching => exact hmoves.tail (read_move s')

/-- Whoever is in the pool under an id is its ticket's record or its connection's session. -/
theorem arrival_of_names (h : QueueSound deps s) {p : Participant}
    (newObject : ∀ q ∈ entered s.log, q.ref ≠ p.ref)
    (record : ∀ entry, s.world.entries.get p.id = some entry → entry.userId = p.userId)
    (session : ∀ session, s.world.sessions.get p.id = some session →
      session.resolvedUserId = some p.userId) : Arrival s p := by
  refine ⟨newObject, ?_⟩
  intro q hq hid
  cases hpresence : q.presence with
  | poll =>
    obtain ⟨entry, hentry, howner⟩ := (h.registered q hq).polled hpresence
    rw [hid] at hentry
    exact howner.symm.trans (record entry hentry)
  | socket =>
    obtain ⟨own, hown, howner⟩ := (h.registered q hq).connected hpresence
    rw [hid] at hown
    exact Option.some.inj (howner.symm.trans (session own hown))

section

variable (freshIds : Function.Injective deps.newMatchId)
include freshIds

variable (admits) in
/-- The record of a ticket nobody has used is written, its participant arrives, and the queue
registers it before the tick. -/
theorem enqueue_ends (h : QueueSound deps s) {ref : Nat} {input : EnqueueInput}
    (fresh : FreshNames s (.enqueue ref input)) :
    Ends (enqueue deps ref input) s (fun _ s' => QueueMoves deps admits s s' ∧ Reconciled s')
      (QueueMoves deps admits s) := by
  obtain ⟨newObject, noRecord, noSession⟩ := fresh
  refine Ends.bind (Ends.of_runs (Runs.read ?_))
  split
  · exact Ends.bind (Ends.raised rfl .refl)
  · rename_i hfree
    have hunknown : s.world.usersInQueue.get input.userId = none := by
      simpa [InsertionMap.has] using hfree
    have hdrafted : QueueMoves deps admits s { s with
        reads := s.reads + 1
        world := s.world.setEntry (newRecord input (deps.now s.reads)) } :=
      .tail (.single (read_move s)) (.drafted (deps.now s.reads) noRecord noSession)
    have hsound := moves_sound h hdrafted
    have hnew : input.ticketId ∉ s.world.records := by
      intro hlisted
      obtain ⟨old, hold, -⟩ := h.books.recorded _ hlisted
      cases noRecord.symm.trans hold
    have hentry := setEntry_own s.world (newRecord input (deps.now s.reads))
    have harrival := arrival_of_names hsound
      (p := pollParticipant ref input (deps.now s.reads)) newObject ?_ ?_
    · refine Ends.bind (Ends.of_runs (Runs.of_eq (now_run s) ?_))
      refine Ends.bind (Ends.of_runs (Runs.update (Ends.bind ?_)))
      rcases add_arrives (queue_handsBack deps) hsound.sound harrival with he | hruns
      · exact Ends.raised he hdrafted
      · refine Ends.of_runs (hruns.mono ?_)
        intro _ s' harrives
        have hregistered : QueueMoves deps admits s
            { s' with world := register input s'.world } :=
          hdrafted.tail (.enqueued hnew hentry hunknown harrives)
        refine Ends.bind (Ends.of_runs (Runs.update (Ends.of_runs ?_)))
        refine (tick_moves admits freshIds (moves_sound h hregistered)).mono ?_
        exact fun _ s'' hticked => ⟨hregistered.trans hticked.1, hticked.2⟩
    · intro entry hget
      cases hentry.symm.trans hget
      rfl
    · intro session hget
      cases noSession.symm.trans hget

theorem enter_moves (h : QueueSound deps s) {ref : Nat} {socketId : String}
    {input : EnterMatchmakingInput} (fresh : FreshNames s (.enter ref socketId input))
    (admitted : ∀ userId, enterGate deps (s.world.session socketId) input = .ok userId →
      admits s.world userId) :
    QueueMoves deps admits s (stateAfter (enter deps ref socketId input s)) := by
  refine after_bind _ (fun _ _ he => by cases he) ?_
  intro _ _ hs
  cases hs
  cases hgate : enterGate deps (s.world.session socketId) input with
  | error reason =>
    simp only [hgate]
    split
    · exact .single (.outside s s.reads (s.world.closeSocket socketId).closedSockets s.world.botUp)
    · exact .refl
  | ok userId =>
    simp only [hgate]
    have huser := enterGate_user hgate
    have hsession := session_eq (fun hfresh => by rw [hfresh] at huser; cases huser)
    refine after_bind _ (fun _ _ he => by cases he) ?_
    intro _ _ ht
    cases ht
    have hread : QueueMoves deps admits s { s with reads := s.reads + 1 } := .single (read_move s)
    have harrival := arrival_of_names (moves_sound h hread) (p := socketParticipant ref socketId
      userId (s.world.session socketId) input (deps.now s.reads)) fresh ?_ ?_
    · rcases add_arrives (queue_handsBack deps) (moves_sound h hread).sound harrival with
        he | ⟨_, s', hrun, harrives⟩
      · refine after_bind _ ?_ ?_
        · intro e s' hx
          cases he.symm.trans hx
          exact hread
        · intro a s' hx
          cases he.symm.trans hx
      · refine after_bind _ (fun e s'' hx => by cases hrun.symm.trans hx) ?_
        intro a s'' hx
        cases hrun.symm.trans hx
        have hentered : QueueMoves deps admits s { s' with
            world := s'.world.setSession socketId
              { s'.world.session socketId with queueState := .queued } } :=
          hread.tail (.entered hsession huser (admitted userId hgate) harrives)
        refine after_seq (QueueMoves deps admits s) hentered ?_
        intro _ s'' _ hmoves
        have hticked : QueueMoves deps admits s (stateAfter (perform deps.pool .tick s'')) :=
          hmoves.tail (request_move freshIds (moves_sound h hmoves) (by simp))
        exact after_seq (QueueMoves deps admits s) hticked (fun _ _ _ hlast => hlast)
    · intro entry hget
      cases (h.books.apart _ _ hsession).symm.trans hget
    · intro session hget
      cases hsession.symm.trans hget
      exact huser

/-- A queued connection leaves the pool and its session turns idle. -/
theorem cancelMatchmaking_moves (h : QueueSound deps s) (socketId : String) :
    QueueMoves deps admits s (stateAfter (cancelMatchmaking deps socketId s)) := by
  refine after_bind _ (fun _ _ he => by cases he) ?_
  intro _ _ hs
  cases hs
  cases hstate : (s.world.session socketId).queueState with
  | matched => exact .refl
  | idle => exact .refl
  | queued =>
    have hleft : QueueMoves deps admits s
        (stateAfter (perform deps.pool (.dequeueBySocketId socketId) s)) :=
      .single (request_move freshIds h (by simp))
    have hgone := dequeue_gone (queue_handsBack deps) h.sound socketId
    have hr : Respects s.world
        (stateAfter (perform deps.pool (.dequeueBySocketId socketId) s)).world :=
      moves_relates (pool_respects deps)
        (perform_follows (queue_handsBack deps) freshIds h.sound (by simp)).moves
    refine after_bind _ ?_ ?_
    · intro e s' he
      rwa [he] at hleft
    · intro _ s' he
      rw [he] at hleft hgone hr
      have hsession : s.world.sessions.get socketId = some (s.world.session socketId) := by
        refine session_eq ?_
        intro hfresh
        rw [hfresh] at hstate
        cases hstate
      refine hleft.tail (.session ?_ (fun _ hu => hu) (Or.inr ⟨rfl, hgone⟩))
      refine (moves_sound h hleft).books.apart socketId (s.world.session socketId) ?_
      rw [hr.sessions]
      exact hsession

/-- Every request is a sequence of moves. -/
theorem serve_moves (h : QueueSound deps s) {request : QueueRequest}
    (fresh : FreshNames s request)
    (admitted : ∀ ref socketId input userId, request = .enter ref socketId input →
      enterGate deps (s.world.session socketId) input = .ok userId → admits s.world userId) :
    QueueMoves deps admits s (stateAfter (serve deps request s)) := by
  cases request with
  | enqueue ref input =>
    exact (enqueue_ends admits freshIds h fresh).after (QueueMoves deps admits s)
      (fun _ _ hq => hq.1)
      (fun _ hmoves => hmoves)
  | poll ticketId =>
    rw [serve, after_discard]
    exact poll_moves h ticketId
  | cancel ticketId =>
    rw [serve, after_discard]
    exact cancel_moves freshIds h ticketId
  | abortRoom roomId => exact abortRoom_moves freshIds h roomId
  | tick =>
    exact (tick_moves admits freshIds h).after (QueueMoves deps admits s) (fun _ _ hq => hq.1)
  | authenticate socketId userId displayName =>
    change QueueMoves deps admits s { s with world := if _ then _ else _ }
    split
    · exact .refl
    · rename_i hunknown
      refine .single (.session fresh ?_ (Or.inl rfl))
      intro other hother
      rw [hother] at hunknown
      exact absurd rfl hunknown
  | capturePlayerInfo socketId => exact .single (.session fresh (fun _ hu => hu) (Or.inl rfl))
  | enter ref socketId input =>
    rw [serve, after_discard]
    refine enter_moves freshIds h fresh ?_
    exact fun userId hgate => admitted ref socketId input userId rfl hgate
  | cancelMatchmaking socketId =>
    rw [serve, after_discard]
    exact cancelMatchmaking_moves freshIds h socketId
  | accept socketId matchId =>
    change QueueMoves deps admits s (stateAfter (perform deps.pool (.accept matchId socketId) s))
    exact .single (request_move freshIds h (by simp))
  | decline socketId matchId =>
    change QueueMoves deps admits s (stateAfter (perform deps.pool (.decline matchId socketId) s))
    exact .single (request_move freshIds h (by simp))
  | socketClosed socketId =>
    have hclosed : QueueMove deps admits s { s with world := s.world.closeSocket socketId } :=
      .outside s s.reads (s.world.closeSocket socketId).closedSockets s.world.botUp
    refine after_seq (QueueMoves deps admits s) (.single hclosed) ?_
    intro _ s' _ hmoves
    exact hmoves.tail (request_move freshIds (moves_sound h hmoves) (by simp))
  | botModule up => exact .single (.outside s s.reads s.world.closedSockets up)

end

theorem initial_queueSound : QueueSound deps (PoolState.initial .empty) where
  sound := initial_sound Lobby.empty
  registered := fun q hq => by cases hq
  books := {
    keyed := fun _ _ h => by cases h
    distinct := List.nodup_nil
    recorded := fun _ h => by cases h
    apart := fun _ _ h => by cases h }
  named := fun _ _ h => by cases h

variable (admits) in
/-- A run keeps what each of its moves keeps. -/
theorem queueRun_keep {meets : PoolState Lobby → QueueRequest → Prop} {I : PoolState Lobby → Prop}
    (freshIds : Function.Injective deps.newMatchId)
    (admitted : ∀ s ref socketId input userId, meets s (.enter ref socketId input) →
      enterGate deps (s.world.session socketId) input = .ok userId → admits s.world userId)
    (step : ∀ {s s'}, QueueSound deps s → I s → QueueMove deps admits s s' → I s')
    (initial : I (PoolState.initial .empty)) (h : QueueRun deps meets s) :
    QueueSound deps s ∧ I s := by
  induction h with
  | initial => exact ⟨initial_queueSound, initial⟩
  | @request s request _ fresh condition ih =>
    obtain ⟨hs, hI⟩ := ih
    refine moves_keep step hs hI (serve_moves freshIds hs fresh ?_)
    rintro ref socketId input userId rfl hgate
    exact admitted s ref socketId input userId condition hgate

theorem queueRun_sound {meets : PoolState Lobby → QueueRequest → Prop}
    (freshIds : Function.Injective deps.newMatchId) (h : QueueRun deps meets s) :
    QueueSound deps s :=
  (queueRun_keep (fun _ _ => True) (I := fun _ => True) freshIds
    (fun _ _ _ _ _ _ _ => trivial) (fun _ _ _ => trivial) trivial h).1

end EdoproServer.Matchmaking
