import EdoproServer.Matchmaking.Queue
import EdoproServer.Matchmaking.Requests

namespace EdoproServer.Matchmaking
open Lib MatchmakingPool MatchmakingQueue

/-- The queue holds a room reserved for the user, whether or not the client still polls for it. -/
def HoldsMatched (lobby : Lobby) (userId : UserId) : Prop :=
  ∃ ticketId entry, lobby.record ticketId = some entry ∧ entry.state = .matched ∧
    entry.userId = userId

/-- The user has an unexpired matched record and is in the pool at the same time. -/
def ActiveTwice (s : PoolState Lobby) (time : Int) (userId : UserId) : Prop :=
  (∃ ticketId entry, s.world.record ticketId = some entry ∧ entry.state = .matched ∧
    entry.userId = userId ∧ time - entry.lastPollAt ≤ MATCHED_GRACE_MS) ∧
  ∃ p ∈ s.ledger.held, p.userId = userId

/-- Tickets are fresh UUIDs, no connection goes by the id of a ticket, and every participant is a
new object. -/
def FreshNames (s : PoolState Lobby) : QueueRequest → Prop
  | .enqueue ref input => (∀ q ∈ entered s.log, q.ref ≠ ref) ∧
      s.world.entries.get input.ticketId = none ∧ s.world.sessions.get input.ticketId = none
  | .enter ref _ _ => ∀ q ∈ entered s.log, q.ref ≠ ref
  | .authenticate socketId _ _ => s.world.entries.get socketId = none
  | .capturePlayerInfo socketId => s.world.entries.get socketId = none
  | _ => True

/-- No user is let in over a socket while the queue still holds a room reserved for them. -/
def Careful (deps : MatchmakingQueueDeps) (s : PoolState Lobby) : QueueRequest → Prop
  | .enter _ socketId input => ∀ userId,
      enterGate deps (s.world.session socketId) input = .ok userId → ¬ HoldsMatched s.world userId
  | _ => True

/-- The queue after any number of requests, each of which meets the condition. -/
inductive QueueRun (deps : MatchmakingQueueDeps)
    (meets : PoolState Lobby → QueueRequest → Prop) : PoolState Lobby → Prop
  | initial : QueueRun deps meets (PoolState.initial .empty)
  | request {s : PoolState Lobby} {request : QueueRequest} (h : QueueRun deps meets s)
      (fresh : FreshNames s request) (condition : meets s request) :
      QueueRun deps meets (stateAfter (serve deps request s))

/-- Provisioning a room does not raise any more once a poll participant has been sent FOUND. -/
def CleanProvisioning (deps : MatchmakingQueueDeps) : Prop :=
  ∀ m told, deps.raisesAfter m = some told → ∀ p ∈ m.participants.take told, p.presence = .socket

/-! ## What a participant in the pool has to do with the records -/

/-- A poll participant has its searching record, a socket participant its session, and neither
has a room reserved already. -/
structure Known (p : Participant) (lobby : Lobby) : Prop where
  polled : p.presence = .poll → ∃ entry, lobby.entries.get p.id = some entry ∧
    entry.userId = p.userId ∧ entry.state = .searching
  connected : p.presence = .socket → ∃ session, lobby.sessions.get p.id = some session ∧
    session.resolvedUserId = some p.userId
  unreserved : ¬ HoldsMatched lobby p.userId

def QueueEntry.owner (entry : QueueEntry) : String × UserId := (entry.ticketId, entry.userId)

/-- Records never change their owner, and nothing but their outcome changes inside the pool. -/
structure Respects (lobby lobby' : Lobby) : Prop where
  records : lobby'.records = lobby.records
  usersInQueue : lobby'.usersInQueue = lobby.usersInQueue
  sessions : lobby'.sessions = lobby.sessions
  owners : ∀ ticketId, (lobby'.entries.get ticketId).map QueueEntry.owner =
    (lobby.entries.get ticketId).map QueueEntry.owner

theorem Respects.refl (lobby : Lobby) : Respects lobby lobby := ⟨rfl, rfl, rfl, fun _ => rfl⟩

theorem Respects.trans {lobby lobby' lobby'' : Lobby} (h : Respects lobby lobby')
    (h' : Respects lobby' lobby'') : Respects lobby lobby'' :=
  ⟨h'.records.trans h.records, h'.usersInQueue.trans h.usersInQueue, h'.sessions.trans h.sessions,
    fun ticketId => (h'.owners ticketId).trans (h.owners ticketId)⟩

/-- A call closes a socket at most. -/
theorem call_eq (lobby : Lobby) (p : Participant) (message : ChannelCall) :
    ∃ closed, lobby.call p message = { lobby with closedSockets := closed } := by
  unfold Lobby.call
  split
  · exact ⟨_, rfl⟩
  · exact ⟨lobby.closedSockets, rfl⟩

theorem call_respects (lobby : Lobby) (p : Participant) (message : ChannelCall) :
    Respects lobby (lobby.call p message) := by
  obtain ⟨closed, he⟩ := call_eq lobby p message
  rw [he]
  exact ⟨rfl, rfl, rfl, fun _ => rfl⟩

theorem found_respects (notice : MatchFoundNotice) (lobby : Lobby) (p : Participant) :
    Respects lobby (found notice lobby p) := by
  unfold found
  split
  · exact Respects.refl lobby
  · split
    · exact Respects.refl lobby
    · rename_i entry hentry
      refine ⟨rfl, rfl, rfl, ?_⟩
      intro ticketId
      rw [InsertionMap.get_set]
      split
      · rename_i he
        rw [he, hentry]
        rfl
      · rfl

theorem tell_respects (deps : MatchmakingQueueDeps) (m : Match) (told : List Participant)
    (lobby : Lobby) : Respects lobby (ProvisionMatchRoom.tell deps m told lobby) := by
  unfold ProvisionMatchRoom.tell
  induction told generalizing lobby with
  | nil => exact Respects.refl lobby
  | cons p rest ih => exact (found_respects _ lobby p).trans (ih _)

/-- The rejected participants' sockets close and nothing else happens. -/
theorem reject_eq (l : List Participant) (lobby : Lobby) : ∃ closed,
    l.foldl (fun lobby p => lobby.call p (.close .missingPlayerInfo)) lobby =
      { lobby with closedSockets := closed } := by
  induction l generalizing lobby with
  | nil => exact ⟨lobby.closedSockets, rfl⟩
  | cons p rest ih =>
    obtain ⟨closed, he⟩ := call_eq lobby p (.close .missingPlayerInfo)
    rw [List.foldl_cons, he]
    exact ih _

theorem handle_respects (deps : MatchmakingQueueDeps) (m : Match) (lobby : Lobby) :
    Respects lobby (ProvisionMatchRoom.handle deps m lobby).1 := by
  unfold ProvisionMatchRoom.handle
  split
  · obtain ⟨closed, he⟩ := reject_eq (ProvisionMatchRoom.missing m) lobby
    rw [he]
    exact ⟨rfl, rfl, rfl, fun _ => rfl⟩
  · split
    · exact tell_respects deps m _ lobby
    · exact tell_respects deps m _ lobby

theorem pool_respects (deps : MatchmakingQueueDeps) : WorldRelation deps.pool Respects where
  refl := Respects.refl
  trans := Respects.trans
  call lobby p message := call_respects lobby p message
  handle lobby m := handle_respects deps m lobby

theorem queue_handsBack (deps : MatchmakingQueueDeps) : HandsBack deps.pool := by
  intro m lobby
  change (ProvisionMatchRoom.handle deps m lobby).2.Sublist m.participants
  unfold ProvisionMatchRoom.handle
  split
  · exact List.filter_sublist
  · split
    · exact List.nil_sublist _
    · exact List.Sublist.refl _

theorem known_closed {p : Participant} {lobby : Lobby} (h : Known p lobby) (closed : List String) :
    Known p { lobby with closedSockets := closed } :=
  ⟨h.polled, h.connected, h.unreserved⟩

/-- FOUND for another user's participant takes no participant out of step. -/
theorem found_known {p q : Participant} {lobby : Lobby} (hp : Known p lobby) (hq : Known q lobby)
    (hid : q.id ≠ p.id) (huser : q.userId ≠ p.userId) (notice : MatchFoundNotice) :
    Known q (found notice lobby p) := by
  unfold found
  split
  · exact hq
  · rename_i hpresence
    split
    · exact hq
    · rename_i entry hentry
      refine ⟨?_, hq.connected, ?_⟩
      · intro hpoll
        obtain ⟨record, hrecord, howner, hstate⟩ := hq.polled hpoll
        refine ⟨record, ?_, howner, hstate⟩
        rw [InsertionMap.get_set, if_neg hid]
        exact hrecord
      · rintro ⟨ticketId, record, hrecord, hstate, howner⟩
        unfold Lobby.record at hrecord
        split at hrecord
        · rename_i hlisted
          rw [InsertionMap.get_set] at hrecord
          split at hrecord
          · injection hrecord with hrecord
            obtain ⟨entry', hentry', hpowner, -⟩ := hp.polled hpresence
            have hsame : entry = entry' := Option.some.inj (hentry.symm.trans hentry')
            apply huser
            rw [← howner, ← hrecord, hsame]
            exact hpowner
          · refine hq.unreserved ⟨ticketId, record, ?_, hstate, howner⟩
            rw [Lobby.record, if_pos hlisted]
            exact hrecord
        · cases hrecord

theorem found_socket {p : Participant} (h : p.presence = .socket) (notice : MatchFoundNotice)
    (lobby : Lobby) : found notice lobby p = lobby := by
  unfold found
  rw [h]

/-- FOUND for everyone in a match leaves those outside it in step. -/
theorem tell_known (deps : MatchmakingQueueDeps) (m : Match) {told others : List Participant}
    {lobby : Lobby} (ids : ((told ++ others).map Participant.id).Nodup)
    (users : ((told ++ others).map Participant.userId).Nodup)
    (h : ∀ q ∈ told ++ others, Known q lobby) :
    ∀ q ∈ others, Known q (ProvisionMatchRoom.tell deps m told lobby) := by
  unfold ProvisionMatchRoom.tell
  induction told generalizing lobby with
  | nil => exact h
  | cons p rest ih =>
    rw [List.cons_append, List.map_cons] at ids users
    refine ih (List.nodup_cons.mp ids).2 (List.nodup_cons.mp users).2 ?_
    intro q hq
    refine found_known (h p List.mem_cons_self) (h q (List.mem_cons_of_mem p hq)) ?_ ?_ _
    · intro he
      exact (List.nodup_cons.mp ids).1 (he ▸ List.mem_map_of_mem hq)
    · intro he
      exact (List.nodup_cons.mp users).1 (he ▸ List.mem_map_of_mem hq)

theorem tell_sockets (deps : MatchmakingQueueDeps) (m : Match) {told : List Participant}
    (sockets : ∀ p ∈ told, p.presence = .socket) (lobby : Lobby) :
    ProvisionMatchRoom.tell deps m told lobby = lobby := by
  unfold ProvisionMatchRoom.tell
  induction told with
  | nil => rfl
  | cons p rest ih =>
    rw [List.foldl_cons, found_socket (sockets p List.mem_cons_self)]
    exact ih (fun q hq => sockets q (List.mem_cons_of_mem p hq))

/-- With clean provisioning the pool keeps everyone it holds in step with the records. -/
theorem known_invariant {deps : MatchmakingQueueDeps} (clean : CleanProvisioning deps) :
    WorldInvariant deps.pool Known where
  call q lobby p message h := by
    obtain ⟨closed, he⟩ := call_eq lobby p message
    change Known q (lobby.call p message)
    rw [he]
    exact known_closed h closed
  handle m others lobby ids users h := by
    change ∀ q ∈ (ProvisionMatchRoom.handle deps m lobby).2 ++ others,
      Known q (ProvisionMatchRoom.handle deps m lobby).1
    unfold ProvisionMatchRoom.handle
    split
    · obtain ⟨closed, he⟩ := reject_eq (ProvisionMatchRoom.missing m) lobby
      intro q hq
      rw [he]
      refine known_closed (h q ?_) closed
      exact (List.filter_sublist.append_right _).subset hq
    · cases hraises : deps.raisesAfter m with
      | none => exact tell_known deps m ids users h
      | some told =>
        intro q hq
        simp only [tell_sockets deps m (clean m told hraises)]
        exact h q hq

/-! ## The invariant of the queue -/

/-- The queue's maps agree: every ticket it knows has a record of its own, whose user it has
registered under that ticket, and no connection goes by the id of a record. -/
structure Books (lobby : Lobby) : Prop where
  keyed : ∀ ticketId entry, lobby.entries.get ticketId = some entry → entry.ticketId = ticketId
  distinct : lobby.records.Nodup
  recorded : ∀ ticketId ∈ lobby.records, ∃ entry, lobby.entries.get ticketId = some entry ∧
    lobby.usersInQueue.get entry.userId = some ticketId
  apart : ∀ id session, lobby.sessions.get id = some session → lobby.entries.get id = none

structure QueueInvariant (deps : MatchmakingQueueDeps) (s : PoolState Lobby) : Prop where
  sound : Sound deps.pool s
  known : ∀ q ∈ s.ledger.held, Known q s.world
  books : Books s.world

/-- The record is one of the queue's, and the queue has it under its owner. -/
def Listed (lobby : Lobby) (entry : QueueEntry) : Prop :=
  entry.ticketId ∈ lobby.records ∧
    (lobby.entries.get entry.ticketId).map QueueEntry.owner = some entry.owner

theorem record_eq_some {lobby : Lobby} {ticketId : String} {entry : QueueEntry} :
    lobby.record ticketId = some entry ↔
      ticketId ∈ lobby.records ∧ lobby.entries.get ticketId = some entry := by
  unfold Lobby.record
  split
  · rename_i hlisted
    simp only [hlisted, true_and]
  · rename_i hlisted
    simp only [hlisted, false_and, reduceCtorEq]

theorem owned {lobby lobby' : Lobby} (h : Respects lobby lobby') {ticketId : String}
    {entry : QueueEntry} (hentry : lobby.entries.get ticketId = some entry) :
    ∃ entry', lobby'.entries.get ticketId = some entry' ∧ entry'.owner = entry.owner := by
  have howner := h.owners ticketId
  rw [hentry] at howner
  exact Option.map_eq_some_iff.mp howner

theorem respects_books {lobby lobby' : Lobby} (h : Respects lobby lobby') (hb : Books lobby) :
    Books lobby' where
  keyed ticketId entry hentry := by
    have howner := h.owners ticketId
    rw [hentry] at howner
    obtain ⟨old, hold, he⟩ := Option.map_eq_some_iff.mp howner.symm
    rw [← hb.keyed ticketId old hold]
    exact (congrArg Prod.fst he).symm
  distinct := by
    rw [h.records]
    exact hb.distinct
  recorded ticketId hlisted := by
    rw [h.records] at hlisted
    obtain ⟨old, hold, huser⟩ := hb.recorded ticketId hlisted
    obtain ⟨entry, hentry, howner⟩ := owned h hold
    refine ⟨entry, hentry, ?_⟩
    have husers : entry.userId = old.userId := congrArg Prod.snd howner
    rw [h.usersInQueue, husers]
    exact huser
  apart id session hsession := by
    rw [h.sessions] at hsession
    have howner := h.owners id
    rw [hb.apart id session hsession] at howner
    exact Option.map_eq_none_iff.mp howner

theorem respects_listed {lobby lobby' : Lobby} (h : Respects lobby lobby') {entry : QueueEntry}
    (hl : Listed lobby entry) : Listed lobby' entry := by
  refine ⟨?_, ?_⟩
  · rw [h.records]
    exact hl.1
  · rw [h.owners]
    exact hl.2

theorem record_listed {lobby : Lobby} (hb : Books lobby) {ticketId : String} {entry : QueueEntry}
    (h : lobby.record ticketId = some entry) : Listed lobby entry := by
  obtain ⟨hlisted, hentry⟩ := record_eq_some.mp h
  have hkey := hb.keyed ticketId entry hentry
  refine ⟨hkey ▸ hlisted, ?_⟩
  rw [hkey, hentry]
  rfl

/-! ### Changes of the lobby -/

theorem removeRecord_known {q : Participant} {lobby : Lobby} (h : Known q lobby)
    (entry : QueueEntry) : Known q (lobby.removeRecord entry) := by
  refine ⟨h.polled, h.connected, ?_⟩
  rintro ⟨ticketId, record, hrecord, hstate, howner⟩
  obtain ⟨hlisted, hget⟩ := record_eq_some.mp hrecord
  exact h.unreserved ⟨ticketId, record,
    record_eq_some.mpr ⟨(List.mem_filter.mp hlisted).1, hget⟩, hstate, howner⟩

/-- Two records of the queue are of different users. -/
theorem removeRecord_books {lobby : Lobby} (h : Books lobby) {entry : QueueEntry}
    (listed : Listed lobby entry) : Books (lobby.removeRecord entry) where
  keyed := h.keyed
  distinct := h.distinct.filter _
  recorded ticketId hlisted := by
    obtain ⟨hlisted, hne⟩ := List.mem_filter.mp hlisted
    obtain ⟨other, hother, huser⟩ := h.recorded ticketId hlisted
    refine ⟨other, hother, ?_⟩
    have hdifferent : other.userId ≠ entry.userId := by
      intro he
      obtain ⟨own, hown, howner⟩ := Option.map_eq_some_iff.mp listed.2
      obtain ⟨own', hown', hticket⟩ := h.recorded _ listed.1
      have hsame : own = own' := Option.some.inj (hown.symm.trans hown')
      have hus : own.userId = entry.userId := congrArg Prod.snd howner
      rw [← hsame, hus, ← he, huser] at hticket
      exact of_decide_eq_true hne (Option.some.inj hticket)
    change (lobby.usersInQueue.delete entry.userId).get other.userId = _
    rw [InsertionMap.get_delete, if_neg hdifferent]
    exact huser
  apart := h.apart

theorem removeRecord_listed {lobby : Lobby} {entry other : QueueEntry}
    (h : Listed lobby other) (hne : other.ticketId ≠ entry.ticketId) :
    Listed (lobby.removeRecord entry) other :=
  ⟨List.mem_filter.mpr ⟨h.1, decide_eq_true hne⟩, h.2⟩

/-- A record may be written that is new, or that has the owner and the state it had before. -/
theorem setEntry_known {q : Participant} {lobby : Lobby} (h : Known q lobby) {entry : QueueEntry}
    (same : ∀ old, lobby.entries.get entry.ticketId = some old →
      entry.userId = old.userId ∧ entry.state = old.state)
    (fresh : lobby.entries.get entry.ticketId = none → entry.ticketId ∉ lobby.records) :
    Known q (lobby.setEntry entry) := by
  refine ⟨?_, h.connected, ?_⟩
  · intro hpoll
    obtain ⟨record, hrecord, howner, hstate⟩ := h.polled hpoll
    change ∃ record, (lobby.entries.set entry.ticketId entry).get q.id = some record ∧ _
    rw [InsertionMap.get_set]
    split
    · rename_i hid
      obtain ⟨huser, hsame⟩ := same record (hid ▸ hrecord)
      exact ⟨entry, rfl, huser.trans howner, hsame.trans hstate⟩
    · exact ⟨record, hrecord, howner, hstate⟩
  · rintro ⟨ticketId, record, hrecord, hstate, howner⟩
    obtain ⟨hlisted, hget⟩ := record_eq_some.mp hrecord
    change ticketId ∈ lobby.records at hlisted
    change (lobby.entries.set entry.ticketId entry).get ticketId = some record at hget
    rw [InsertionMap.get_set] at hget
    split at hget
    · rename_i hid
      subst hid
      injection hget with he
      subst he
      cases hold : lobby.entries.get entry.ticketId with
      | none => exact fresh hold hlisted
      | some old =>
        obtain ⟨huser, hsame⟩ := same old hold
        exact h.unreserved ⟨_, old, record_eq_some.mpr ⟨hlisted, hold⟩, hsame.symm.trans hstate,
          huser.symm.trans howner⟩
    · exact h.unreserved ⟨ticketId, record, record_eq_some.mpr ⟨hlisted, hget⟩, hstate, howner⟩

theorem setEntry_own (lobby : Lobby) (entry : QueueEntry) :
    (lobby.setEntry entry).entries.get entry.ticketId = some entry := by simp [Lobby.setEntry]

theorem setEntry_other {lobby : Lobby} {entry : QueueEntry} {ticketId : String}
    (h : ticketId ≠ entry.ticketId) :
    (lobby.setEntry entry).entries.get ticketId = lobby.entries.get ticketId := by
  simp [Lobby.setEntry, h]

/-- No connection goes by the id of a record. -/
theorem unconnected {lobby : Lobby} (h : Books lobby) {ticketId : String} {entry : QueueEntry}
    (hentry : lobby.entries.get ticketId = some entry) : lobby.sessions.get ticketId = none := by
  cases hsession : lobby.sessions.get ticketId with
  | none => rfl
  | some session => cases (h.apart _ _ hsession).symm.trans hentry

theorem setEntry_books {lobby : Lobby} (h : Books lobby) {entry : QueueEntry}
    (same : ∀ old, lobby.entries.get entry.ticketId = some old → entry.userId = old.userId)
    (unconnected : lobby.sessions.get entry.ticketId = none) : Books (lobby.setEntry entry) where
  keyed ticketId record hget := by
    change (lobby.entries.set entry.ticketId entry).get ticketId = some record at hget
    rw [InsertionMap.get_set] at hget
    split at hget
    · rename_i hid
      injection hget with he
      rw [← he, hid]
    · exact h.keyed ticketId record hget
  distinct := h.distinct
  recorded ticketId hlisted := by
    obtain ⟨record, hrecord, huser⟩ := h.recorded ticketId hlisted
    change ∃ record, (lobby.entries.set entry.ticketId entry).get ticketId = some record ∧ _
    rw [InsertionMap.get_set]
    split
    · rename_i hid
      refine ⟨entry, rfl, ?_⟩
      rw [same record (hid ▸ hrecord)]
      exact huser
    · exact ⟨record, hrecord, huser⟩
  apart id session hsession := by
    change (lobby.entries.set entry.ticketId entry).get id = none
    rw [InsertionMap.get_set, if_neg]
    · exact h.apart id session hsession
    · rintro rfl
      exact absurd (unconnected.symm.trans hsession) (by simp)

theorem setSession_known {q : Participant} {lobby : Lobby} (h : Known q lobby) {socketId : String}
    {session : Session} (identity : ∀ userId,
      (lobby.session socketId).resolvedUserId = some userId →
        session.resolvedUserId = some userId) :
    Known q (lobby.setSession socketId session) := by
  refine ⟨h.polled, ?_, h.unreserved⟩
  intro hsocket
  obtain ⟨old, hold, huser⟩ := h.connected hsocket
  change ∃ session', (lobby.sessions.set socketId session).get q.id = some session' ∧ _
  rw [InsertionMap.get_set]
  split
  · rename_i hid
    refine ⟨session, rfl, identity q.userId ?_⟩
    rw [Lobby.session, ← hid, hold]
    exact huser
  · exact ⟨old, hold, huser⟩

theorem setSession_books {lobby : Lobby} (h : Books lobby) {socketId : String} (session : Session)
    (free : lobby.entries.get socketId = none) : Books (lobby.setSession socketId session) where
  keyed := h.keyed
  distinct := h.distinct
  recorded := h.recorded
  apart id session' hsession := by
    change (lobby.sessions.set socketId session).get id = some session' at hsession
    rw [InsertionMap.get_set] at hsession
    split at hsession
    · rename_i hid
      rw [hid]
      exact free
    · exact h.apart id session' hsession

theorem register_records (input : EnqueueInput) (lobby : Lobby) (ticketId : String) :
    ticketId ∈ (register input lobby).records ↔
      ticketId ∈ lobby.records ∨ ticketId = input.ticketId := by
  simp only [register]
  split
  · rename_i hlisted
    constructor
    · exact Or.inl
    · rintro (ht | rfl)
      · exact ht
      · exact hlisted
  · rw [List.mem_append, List.mem_singleton]

/-- A ticket with a record is registered with its user, whom the queue does not know. -/
theorem register_books {lobby : Lobby} (h : Books lobby) {input : EnqueueInput}
    {entry : QueueEntry} (hentry : lobby.entries.get input.ticketId = some entry)
    (owner : entry.userId = input.userId) (free : lobby.usersInQueue.get input.userId = none) :
    Books (register input lobby) where
  keyed := h.keyed
  distinct := by
    simp only [register]
    split
    · exact h.distinct
    · rename_i hnew
      refine List.nodup_append.mpr ⟨h.distinct, List.nodup_singleton _, ?_⟩
      rintro ticketId ht other ho rfl
      exact hnew (List.mem_singleton.mp ho ▸ ht)
  recorded ticketId hlisted := by
    change ∃ entry, lobby.entries.get ticketId = some entry ∧
      (lobby.usersInQueue.set input.userId input.ticketId).get entry.userId = some ticketId
    rcases (register_records input lobby ticketId).mp hlisted with hlisted | rfl
    · obtain ⟨old, hold, huser⟩ := h.recorded ticketId hlisted
      refine ⟨old, hold, ?_⟩
      rw [InsertionMap.get_set, if_neg]
      · exact huser
      · intro he
        rw [he, free] at huser
        cases huser
    · exact ⟨entry, hentry, by rw [InsertionMap.get_set, if_pos owner]⟩
  apart := h.apart

end EdoproServer.Matchmaking
