import Mathlib.Data.List.Count
import Mathlib.Logic.Relation
import EdoproServer.Matchmaking.Pool

namespace EdoproServer.Matchmaking

/-- The pool seen from outside its data structures: who searches, which matches wait for
answers, and what has happened so far. -/
structure Ledger (W : Type) where
  store : List Participant
  pending : List PendingMatch
  reads : Nat
  log : List PoolEvent
  world : W

def PoolState.ledger {W : Type} (s : PoolState W) : Ledger W :=
  { store := s.store.participants, pending := s.pending.all, reads := s.reads, log := s.log,
    world := s.world }

variable {W : Type}

/-- Everyone the pool still holds: searching, or inside a pending match. -/
def Ledger.held (l : Ledger W) : List Participant :=
  l.store ++ l.pending.flatMap (fun pending => pending.pairing.participants)

/-! ## Reading the log -/

/-- The participants `add` accepted from outside. -/
def entered : List PoolEvent → List Participant
  | [] => []
  | .entered p :: log => p :: entered log
  | _ :: log => entered log

/-- The exits that do not go with a match handed over. -/
def left : List PoolEvent → List (Participant × QueueExitOutcome)
  | [] => []
  | .exit p outcome _ :: log =>
    if outcome.isMatched then left log else (p, outcome) :: left log
  | _ :: log => left log

/-- The participants of matches given to the match handler and not handed back. -/
def handedOver : List PoolEvent → List (Match × Participant)
  | [] => []
  | .handled m :: log => m.participants.map (fun p => (m, p)) ++ handedOver log
  | .handedBack m p :: log => (handedOver log).erase (m, p)
  | _ :: log => handedOver log

def handledMatches : List PoolEvent → List Match
  | [] => []
  | .handled m :: log => m :: handledMatches log
  | _ :: log => handledMatches log

/-- The ids of the matches proposed or handled so far. -/
def namedIds : List PoolEvent → List String
  | [] => []
  | .proposed m _ :: log => m.id :: namedIds log
  | .handled m :: log => m.id :: namedIds log
  | _ :: log => namedIds log

/-- The exit lines of participants leaving one after the other, newest first. -/
def exitEvents (now : Nat → Int) (outcome : QueueExitOutcome) :
    Nat → List Participant → List PoolEvent
  | _, [] => []
  | reads, p :: rest =>
    exitEvents now outcome (reads + 1) rest ++ [.exit p outcome (now reads - p.enqueuedAt)]

def handBackEvents (m : Match) (back : List Participant) : List PoolEvent :=
  (back.map (PoolEvent.handedBack m)).reverse

theorem mem_exitEvents {now : Nat → Int} {outcome : QueueExitOutcome} {reads : Nat}
    {leaving : List Participant} {event : PoolEvent}
    (h : event ∈ exitEvents now outcome reads leaving) :
    ∃ p ∈ leaving, ∃ waitedMs, event = .exit p outcome waitedMs := by
  induction leaving generalizing reads with
  | nil => cases h
  | cons p rest ih =>
    rcases List.mem_append.mp h with h | h
    · obtain ⟨q, hq, he⟩ := ih h
      exact ⟨q, List.mem_cons_of_mem p hq, he⟩
    · exact ⟨p, List.mem_cons_self, _, List.mem_singleton.mp h⟩

theorem entered_append (events log : List PoolEvent) :
    entered (events ++ log) = entered events ++ entered log := by
  fun_induction entered events with
  | case1 => rfl
  | case2 p events ih => simp [entered, ih]
  | case3 event events h ih => cases event <;> simp_all [entered]

theorem left_append (events log : List PoolEvent) :
    left (events ++ log) = left events ++ left log := by
  fun_induction left events with
  | case1 => rfl
  | case2 p outcome waited events h ih => simp [left, h, ih]
  | case3 p outcome waited events h ih => simp [left, h, ih]
  | case4 event events h ih => cases event <;> simp_all [left]

theorem namedIds_append (events log : List PoolEvent) :
    namedIds (events ++ log) = namedIds events ++ namedIds log := by
  fun_induction namedIds events with
  | case1 => rfl
  | case2 m deadline events ih => simp [namedIds, ih]
  | case3 m events ih => simp [namedIds, ih]
  | case4 event events h h' ih => cases event <;> simp_all [namedIds]

theorem handledMatches_append (events log : List PoolEvent) :
    handledMatches (events ++ log) = handledMatches events ++ handledMatches log := by
  fun_induction handledMatches events with
  | case1 => rfl
  | case2 m events ih => simp [handledMatches, ih]
  | case3 event events h ih => cases event <;> simp_all [handledMatches]

section Exits

variable (now : Nat → Int) (outcome : QueueExitOutcome) (reads : Nat) (leaving : List Participant)

@[simp] theorem entered_exitEvents : entered (exitEvents now outcome reads leaving) = [] := by
  induction leaving generalizing reads with
  | nil => rfl
  | cons p rest ih => simp [exitEvents, entered_append, ih, entered]

@[simp] theorem namedIds_exitEvents : namedIds (exitEvents now outcome reads leaving) = [] := by
  induction leaving generalizing reads with
  | nil => rfl
  | cons p rest ih => simp [exitEvents, namedIds_append, ih, namedIds]

@[simp] theorem handledMatches_exitEvents :
    handledMatches (exitEvents now outcome reads leaving) = [] := by
  induction leaving generalizing reads with
  | nil => rfl
  | cons p rest ih => simp [exitEvents, handledMatches_append, ih, handledMatches]

theorem left_exitEvents_matched (h : outcome.isMatched = true) :
    left (exitEvents now outcome reads leaving) = [] := by
  induction leaving generalizing reads with
  | nil => rfl
  | cons p rest ih => simp [exitEvents, left_append, ih, left, h]

theorem left_exitEvents (h : outcome.isMatched = false) :
    (left (exitEvents now outcome reads leaving)).map Prod.fst = leaving.reverse := by
  induction leaving generalizing reads with
  | nil => rfl
  | cons p rest ih => simp [exitEvents, left_append, ih, left, h]

@[simp] theorem handedOver_exitEvents (log : List PoolEvent) :
    handedOver (exitEvents now outcome reads leaving ++ log) = handedOver log := by
  induction leaving generalizing reads log with
  | nil => rfl
  | cons p rest ih => simp [exitEvents, ih, handedOver]

end Exits

section HandBack

variable (m : Match) (back : List Participant) (log : List PoolEvent)

@[simp] theorem entered_handBackEvents : entered (handBackEvents m back) = [] := by
  induction back with
  | nil => rfl
  | cons p rest ih => simpa [handBackEvents, entered_append, entered] using ih

@[simp] theorem left_handBackEvents : left (handBackEvents m back) = [] := by
  induction back with
  | nil => rfl
  | cons p rest ih => simpa [handBackEvents, left_append, left] using ih

@[simp] theorem namedIds_handBackEvents : namedIds (handBackEvents m back) = [] := by
  induction back with
  | nil => rfl
  | cons p rest ih => simpa [handBackEvents, namedIds_append, namedIds] using ih

@[simp] theorem handledMatches_handBackEvents : handledMatches (handBackEvents m back) = [] := by
  induction back with
  | nil => rfl
  | cons p rest ih => simpa [handBackEvents, handledMatches_append, handledMatches] using ih

theorem handedOver_handBackEvents :
    handedOver (handBackEvents m back ++ log) =
      (handedOver log).diff (back.map (fun p => (m, p))) := by
  induction back generalizing log with
  | nil => rfl
  | cons p rest ih =>
    have h := ih (.handedBack m p :: log)
    simpa [handBackEvents, handedOver] using h

end HandBack

/-- Handing back takes the participants out of the match again. -/
theorem handedOver_handled {m : Match} {back : List Participant} (log : List PoolEvent)
    (h : back.Sublist m.participants) :
    (back.map (fun p => (m, p)) ++ handedOver (handBackEvents m back ++ .handled m :: log)).Perm
      (m.participants.map (fun p => (m, p)) ++ handedOver log) := by
  rw [handedOver_handBackEvents]
  simp only [handedOver]
  apply List.subperm_append_diff_self_of_count_le
  intro x _
  have hsub := (h.map (fun p => (m, p))).count_le x
  rw [List.count_append]
  omega

/-! ## The moves of the pool -/

section Moves

variable (deps : MatchmakingPoolDeps W)

/-- The world after some calls on the participants' channels. -/
def Told : W → W → Prop :=
  Relation.ReflTransGen (fun w w' => ∃ p message, w' = deps.call p message w)

/-- What an answered request leaves behind: nobody who cancelled, disconnected, or declined in
time is still in the pending match it was about. -/
def Answered (l : Ledger W) : PoolRequest → Int → Prop
  | .remove id, _ => ∀ pending ∈ l.pending, id ∉ pending.pairing.ids
  | .dequeueBySocketId id, _ => ∀ pending ∈ l.pending, id ∉ pending.pairing.ids
  | .decline matchId id, time => ∀ pending ∈ l.pending, pending.pairing.id = matchId →
      id ∈ pending.pairing.ids → pending.deadline ≤ time
  | _, _ => True

def withoutMatch (l : Ledger W) (id : String) : List PendingMatch :=
  l.pending.filter (fun pending => pending.pairing.id ≠ id)

def withoutParticipants (l : Ledger W) (ids : List String) : List Participant :=
  l.store.filter (fun p => p.id ∉ ids)

/-- One atomic change of the ledger that brings nobody new. -/
inductive Move : Ledger W → Ledger W → Prop
  | quiet (l : Ledger W) {reads : Nat} {world : W} (later : l.reads ≤ reads)
      (told : Told deps l.world world) :
      Move l { l with reads := reads, world := world }
  | exit (l : Ledger W) {p : Participant} {outcome : QueueExitOutcome} (searching : p ∈ l.store)
      (left : outcome.isMatched = false) :
      Move l { l with
        store := withoutParticipants l [p.id]
        reads := l.reads + 1
        log := exitEvents deps.now outcome l.reads [p] ++ l.log }
  | propose (l : Ledger W) {m : Match} (deadline : Int)
      (searching : ∀ p ∈ m.participants, p ∈ l.store) (distinct : m.participants.Nodup)
      (fresh : m.id ∉ namedIds l.log) :
      Move l { l with
        store := withoutParticipants l m.ids
        pending := l.pending ++ [PendingMatch.open m deadline]
        log := .proposed m deadline :: l.log }
  | accept (l : Ledger W) {pending : PendingMatch} {id : String} (waiting : pending ∈ l.pending)
      (inside : id ∈ pending.pairing.ids) (inTime : deps.now l.reads < pending.deadline) :
      Move l { l with
        pending := l.pending.map (fun q =>
          if q.pairing.id = pending.pairing.id then pending.accept id else q)
        reads := l.reads + 1
        log := .accepted pending.pairing.id id (deps.now l.reads) :: l.log }
  | dispatch (l : Ledger W) {pending : PendingMatch} {id : String} (waiting : pending ∈ l.pending)
      (inside : id ∈ pending.pairing.ids) (inTime : deps.now l.reads < pending.deadline)
      (complete : (pending.accept id).complete = true) :
      Move l {
        store := l.store ++ (deps.handle pending.pairing l.world).2
        pending := withoutMatch l pending.pairing.id
        reads := l.reads + 1 + pending.pairing.participants.length
        log := handBackEvents pending.pairing (deps.handle pending.pairing l.world).2 ++
          .handled pending.pairing ::
            (exitEvents deps.now .matchedHuman (l.reads + 1) pending.pairing.participants ++
              .accepted pending.pairing.id id (deps.now l.reads) :: l.log)
        world := (deps.handle pending.pairing l.world).1 }
  | handOver (l : Ledger W) {m : Match} {outcome : QueueExitOutcome}
      (searching : ∀ p ∈ m.participants, p ∈ l.store) (distinct : m.participants.Nodup)
      (fresh : m.id ∉ namedIds l.log) (immediate : requiresAcceptStep m = false)
      (matched : outcome.isMatched = true) :
      Move l {
        store := withoutParticipants l m.ids ++ (deps.handle m l.world).2
        pending := l.pending
        reads := l.reads + m.participants.length
        log := handBackEvents m (deps.handle m l.world).2 ++
          .handled m :: (exitEvents deps.now outcome l.reads m.participants ++ l.log)
        world := (deps.handle m l.world).1 }
  | abandon (l : Ledger W) {pending : PendingMatch} {leaving : List Participant}
      {outcome : QueueExitOutcome} {world : W} (waiting : pending ∈ l.pending)
      (leavers : leaving.Sublist pending.pairing.participants)
      (left : outcome.isMatched = false) (told : Told deps l.world world) :
      Move l {
        store := l.store ++ MatchmakingPool.requeued pending leaving
        pending := withoutMatch l pending.pairing.id
        reads := l.reads + leaving.length + 1
        log := .abandoned pending.pairing leaving
            (l.store ++ MatchmakingPool.requeued pending leaving) ::
          (exitEvents deps.now outcome l.reads leaving ++ l.log)
        world := world }
  | answer (l : Ledger W) {request : PoolRequest} {read : Nat} (earlier : read ≤ l.reads)
      (answered : Answered l request (deps.now read)) :
      Move l { l with log := .asked request (deps.now read) :: l.log }

/-- Any number of moves. -/
def Moves : Ledger W → Ledger W → Prop := Relation.ReflTransGen (Move deps)

/-- The match handler hands back participants of the match it was given, each once. -/
def HandsBack : Prop := ∀ m w, (deps.handle m w).2.Sublist m.participants

end Moves

/-! ## Custody -/

/-- No id and no user is held twice, no object entered twice, and whoever entered is held, was
handed over, or left. -/
structure Custody (l : Ledger W) : Prop where
  matchIds : (l.pending.map (fun pending => pending.pairing.id)).Nodup
  named : ∀ pending ∈ l.pending, pending.pairing.id ∈ namedIds l.log
  ids : (l.held.map Participant.id).Nodup
  users : (l.held.map Participant.userId).Nodup
  objects : ((entered l.log).map Participant.ref).Nodup
  accounts : ∀ p, (entered l.log).count p = l.held.count p +
    ((handedOver l.log).map Prod.snd).count p + ((left l.log).map Prod.fst).count p

/-- Taking out elements that a key tells apart leaves the elements with other keys. -/
theorem perm_take {α κ : Type} [DecidableEq α] [DecidableEq κ] (key : α → κ) {l taken : List α}
    (distinct : (l.map key).Nodup) (nodup : taken.Nodup) (inside : ∀ a ∈ taken, a ∈ l) :
    l.Perm (taken ++ l.filter (fun a => key a ∉ taken.map key)) := by
  have hl : l.Nodup := distinct.of_map
  have hright : (taken ++ l.filter (fun a => key a ∉ taken.map key)).Nodup := by
    refine List.nodup_append.mpr ⟨nodup, hl.filter _, ?_⟩
    intro a ha b hb heq
    have hkey := of_decide_eq_true (List.mem_filter.mp hb).2
    exact hkey (heq ▸ List.mem_map_of_mem ha)
  refine (List.perm_ext_iff_of_nodup hl hright).mpr ?_
  intro a
  rw [List.mem_append, List.mem_filter]
  constructor
  · intro ha
    by_cases hkey : key a ∈ taken.map key
    · obtain ⟨b, hb, hba⟩ := List.mem_map.mp hkey
      have : b = a := List.inj_on_of_nodup_map distinct (inside b hb) ha hba
      exact Or.inl (this ▸ hb)
    · exact Or.inr ⟨ha, decide_eq_true hkey⟩
  · rintro (ha | ha)
    · exact inside a ha
    · exact ha.1

theorem nodup_map_of_subperm {α β : Type} {f : α → β} {l l' : List α} (h : l.Subperm l')
    (distinct : (l'.map f).Nodup) : (l.map f).Nodup := by
  obtain ⟨k, hperm, hsub⟩ := h
  exact (hperm.map f).nodup_iff.mp (distinct.sublist (hsub.map f))

namespace Custody

variable {l l' : Ledger W}

theorem store_ids (h : Custody l) : (l.store.map Participant.id).Nodup :=
  h.ids.sublist ((List.sublist_append_left _ _).map _)

theorem participants_nodup (h : Custody l) {pending : PendingMatch} (hp : pending ∈ l.pending) :
    pending.pairing.participants.Nodup := by
  have hheld := h.ids.of_map
  exact (List.nodup_flatMap.mp (List.nodup_append.mp hheld).2.1).1 pending hp

/-- Participants taken from the store leave everyone else where they were. -/
theorem take_store (h : Custody l) {m : Match} (searching : ∀ p ∈ m.participants, p ∈ l.store)
    (distinct : m.participants.Nodup) :
    l.store.Perm (m.participants ++ withoutParticipants l m.ids) :=
  perm_take _ h.store_ids distinct searching

theorem take_one (h : Custody l) {p : Participant} (searching : p ∈ l.store) :
    l.store.Perm (p :: withoutParticipants l [p.id]) :=
  perm_take _ h.store_ids (List.nodup_singleton p) (by simpa using searching)

theorem take_pending (h : Custody l) {pending : PendingMatch} (waiting : pending ∈ l.pending) :
    l.pending.Perm (pending :: withoutMatch l pending.pairing.id) := by
  have hp := perm_take _ h.matchIds (List.nodup_singleton pending) (by simpa using waiting)
  simpa [withoutMatch] using hp

theorem held_take_pending (h : Custody l) {pending : PendingMatch}
    (waiting : pending ∈ l.pending) :
    l.held.Perm (pending.pairing.participants ++ (l.store ++
      (withoutMatch l pending.pairing.id).flatMap (fun q => q.pairing.participants))) := by
  have hp := (h.take_pending waiting).flatMap_right (fun q => q.pairing.participants)
  rw [List.flatMap_cons] at hp
  exact (hp.append_left l.store).trans (List.perm_append_comm_assoc _ _ _)

/-- The participants of a pending match may stand next to the store instead. -/
theorem returning (h : Custody l) {pending : PendingMatch} (waiting : pending ∈ l.pending)
    {back : List Participant} (inside : back.Sublist pending.pairing.participants) :
    (l.store ++ back).Subperm l.held := by
  have hperm := (h.held_take_pending waiting).symm.subperm
  refine List.Subperm.trans ?_ hperm
  refine (List.perm_append_comm.subperm).trans (List.Sublist.subperm ?_)
  exact inside.append (List.sublist_append_left _ _)

/-- Custody carries over when nobody new is held and the books still balance. -/
theorem carry (h : Custody l)
    (matchIds : (l'.pending.map (fun pending => pending.pairing.id)).Nodup)
    (named : ∀ pending ∈ l'.pending, pending.pairing.id ∈ namedIds l'.log)
    (held : l'.held.Subperm l.held) (same : entered l'.log = entered l.log)
    (balance : ∀ p, l'.held.count p + ((handedOver l'.log).map Prod.snd).count p +
      ((left l'.log).map Prod.fst).count p = l.held.count p +
        ((handedOver l.log).map Prod.snd).count p + ((left l.log).map Prod.fst).count p) :
    Custody l' where
  matchIds := matchIds
  named := named
  ids := nodup_map_of_subperm held h.ids
  users := nodup_map_of_subperm held h.users
  objects := same ▸ h.objects
  accounts p := by rw [same, h.accounts p, balance p]

end Custody

section Apart

variable {l : Ledger W} (h : Custody l) {pending : PendingMatch} (waiting : pending ∈ l.pending)
  {p : Participant} (inside : p ∈ pending.pairing.participants)
include h waiting inside

theorem not_searching : p ∉ l.store := by
  have hn := (h.held_take_pending waiting).nodup_iff.mp h.ids.of_map
  intro hp
  exact (List.nodup_append.mp hn).2.2 p inside p (List.mem_append_left _ hp) rfl

theorem not_in_other {q : PendingMatch} (hq : q ∈ l.pending)
    (other : q.pairing.id ≠ pending.pairing.id) : p ∉ q.pairing.participants := by
  have hn := (h.held_take_pending waiting).nodup_iff.mp h.ids.of_map
  intro hp
  have hmem : p ∈ (withoutMatch l pending.pairing.id).flatMap
      (fun q => q.pairing.participants) :=
    List.mem_flatMap.mpr ⟨q, List.mem_filter.mpr ⟨hq, decide_eq_true other⟩, hp⟩
  exact (List.nodup_append.mp hn).2.2 p inside p (List.mem_append_right _ hmem) rfl

omit h in
theorem participant_held : p ∈ l.held :=
  List.mem_append_right _ (List.mem_flatMap.mpr ⟨pending, waiting, inside⟩)

end Apart

/-- A match handed over counts its participants, less those handed back. -/
theorem handedOver_count {m : Match} {back : List Participant} (log : List PoolEvent)
    (h : back.Sublist m.participants) (p : Participant) :
    ((handedOver (handBackEvents m back ++ .handled m :: log)).map Prod.snd).count p +
      back.count p = m.participants.count p + ((handedOver log).map Prod.snd).count p := by
  have hc := ((handedOver_handled log h).map Prod.snd).count_eq p
  simp only [List.map_append, List.map_map, List.count_append, Function.comp_def,
    List.map_id'] at hc
  omega

section Preservation

variable {deps : MatchmakingPoolDeps W} (handsBack : HandsBack deps) {l l' : Ledger W}

theorem exit_custody (h : Custody l) {p : Participant} {outcome : QueueExitOutcome}
    (searching : p ∈ l.store) (hout : outcome.isMatched = false) :
    Custody { l with
      store := withoutParticipants l [p.id]
      reads := l.reads + 1
      log := exitEvents deps.now outcome l.reads [p] ++ l.log } := by
  have htake := h.take_one searching
  refine h.carry h.matchIds ?_ ?_ (by simp [entered_append]) ?_
  · simpa [namedIds_append] using h.named
  · exact (List.Sublist.append_right List.filter_sublist _).subperm
  · intro q
    have hq := htake.count_eq q
    simp only [Ledger.held, List.count_append, left_append, List.map_append,
      left_exitEvents deps.now outcome l.reads [p] hout, handedOver_exitEvents,
      List.reverse_singleton, List.count_cons, List.count_nil] at hq ⊢
    omega

theorem propose_custody (h : Custody l) {m : Match} (deadline : Int)
    (searching : ∀ p ∈ m.participants, p ∈ l.store) (distinct : m.participants.Nodup)
    (fresh : m.id ∉ namedIds l.log) :
    Custody { l with
      store := withoutParticipants l m.ids
      pending := l.pending ++ [PendingMatch.open m deadline]
      log := .proposed m deadline :: l.log } := by
  have htake := h.take_store searching distinct
  have hheld : l.held.Perm (withoutParticipants l m.ids ++
      (l.pending ++ [PendingMatch.open m deadline]).flatMap
        (fun q => q.pairing.participants)) := by
    refine (htake.append_right _).trans ?_
    simp only [List.flatMap_append, List.flatMap_singleton, PendingMatch.open]
    rw [List.append_assoc]
    exact List.perm_append_comm.trans (by rw [List.append_assoc])
  refine h.carry ?_ ?_ hheld.symm.subperm rfl ?_
  · rw [List.map_append]
    refine List.nodup_append.mpr ⟨h.matchIds, List.nodup_singleton _, ?_⟩
    intro a ha b hb
    rw [List.mem_singleton.mp hb]
    rintro rfl
    obtain ⟨pending, hp, he⟩ := List.mem_map.mp ha
    have he : pending.pairing.id = m.id := he
    exact fresh (he ▸ h.named pending hp)
  · intro pending hp
    simp only [namedIds, List.mem_cons]
    rcases List.mem_append.mp hp with hp | hp
    · exact Or.inr (h.named pending hp)
    · rw [List.mem_singleton.mp hp]
      exact Or.inl rfl
  · intro q
    have hq := hheld.count_eq q
    simp only [Ledger.held, handedOver, left] at hq ⊢
    omega

theorem accept_pairing (h : Custody l) {pending : PendingMatch} (id : String)
    (waiting : pending ∈ l.pending) {q : PendingMatch} (hq : q ∈ l.pending) :
    (if q.pairing.id = pending.pairing.id then pending.accept id else q).pairing = q.pairing := by
  split
  · rename_i he
    have : q = pending := List.inj_on_of_nodup_map h.matchIds hq waiting he
    rw [this]
    rfl
  · rfl

/-- Recording an ACCEPT moves nobody. -/
theorem accept_participants (h : Custody l) {pending : PendingMatch} (id : String)
    (waiting : pending ∈ l.pending) :
    (l.pending.map (fun q => if q.pairing.id = pending.pairing.id then pending.accept id
      else q)).flatMap (fun q => q.pairing.participants) =
      l.pending.flatMap (fun q => q.pairing.participants) := by
  rw [List.flatMap_map]
  apply List.flatMap_congr
  intro q hq
  rw [accept_pairing h id waiting hq]

theorem accept_custody (h : Custody l) {pending : PendingMatch} (id : String) (time : Int)
    (waiting : pending ∈ l.pending) :
    Custody { l with
      pending := l.pending.map (fun q =>
        if q.pairing.id = pending.pairing.id then pending.accept id else q)
      reads := l.reads + 1
      log := .accepted pending.pairing.id id time :: l.log } := by
  have hids : (l.pending.map (fun q => if q.pairing.id = pending.pairing.id then
      pending.accept id else q)).map (fun q => q.pairing.id) =
      l.pending.map (fun q => q.pairing.id) := by
    rw [List.map_map]
    apply List.map_congr_left
    intro q hq
    simp only [Function.comp_apply, accept_pairing h id waiting hq]
  have hheld := accept_participants h id waiting
  refine h.carry (by rw [hids]; exact h.matchIds) ?_ ?_ rfl ?_
  · intro q hq
    obtain ⟨q', hq', rfl⟩ := List.mem_map.mp hq
    rw [accept_pairing h id waiting hq']
    exact h.named q' hq'
  · simp only [Ledger.held, hheld]
    exact List.Subperm.refl _
  · intro q
    simp only [Ledger.held, hheld, handedOver, left]

include handsBack in
/-- Participants taken from where they were held and given to the match handler. -/
theorem handed_custody (h : Custody l) {m : Match} {outcome : QueueExitOutcome}
    {reads reads' : Nat} {before : List PoolEvent} (matched : outcome.isMatched = true)
    {store : List Participant} {pending : List PendingMatch}
    (taken : l.held.Perm (m.participants ++
      (store ++ pending.flatMap (fun q => q.pairing.participants))))
    (sublist : pending.Sublist l.pending) (sameNamed : namedIds before = namedIds l.log)
    (sameEntered : entered before = entered l.log) (sameLeft : left before = left l.log)
    (sameHanded : handedOver before = handedOver l.log) :
    Custody {
      store := store ++ (deps.handle m l.world).2
      pending := pending
      reads := reads'
      log := handBackEvents m (deps.handle m l.world).2 ++
        .handled m :: (exitEvents deps.now outcome reads m.participants ++ before)
      world := (deps.handle m l.world).1 } := by
  have hback := handsBack m l.world
  generalize (deps.handle m l.world).2 = back at hback ⊢
  have hheld : (store ++ back ++ pending.flatMap (fun q => q.pairing.participants)).Subperm
      l.held := by
    have hperm : (store ++ back ++ pending.flatMap (fun q => q.pairing.participants)).Perm
        (back ++ (store ++ pending.flatMap (fun q => q.pairing.participants))) := by
      rw [List.append_assoc]
      exact List.perm_append_comm_assoc _ _ _
    exact hperm.subperm.trans ((hback.append_right _).subperm.trans taken.symm.subperm)
  refine h.carry (h.matchIds.sublist (sublist.map _)) ?_ hheld ?_ ?_
  · intro q hq
    simpa [namedIds_append, namedIds, sameNamed] using Or.inr (h.named q (sublist.subset hq))
  · simp [entered_append, entered, sameEntered]
  · intro p
    have hcount := handedOver_count (exitEvents deps.now outcome reads m.participants ++ before)
      hback p
    have htaken := taken.count_eq p
    simp only [Ledger.held, List.count_append, handedOver_exitEvents, sameHanded, left_append,
      left_handBackEvents, left, left_exitEvents_matched deps.now outcome reads m.participants
        matched, sameLeft, List.nil_append] at hcount htaken ⊢
    omega

theorem abandon_custody (h : Custody l) {pending : PendingMatch} {leaving : List Participant}
    {outcome : QueueExitOutcome} {world : W} (waiting : pending ∈ l.pending)
    (leavers : leaving.Sublist pending.pairing.participants)
    (hout : outcome.isMatched = false) :
    Custody {
      store := l.store ++ MatchmakingPool.requeued pending leaving
      pending := withoutMatch l pending.pairing.id
      reads := l.reads + leaving.length + 1
      log := .abandoned pending.pairing leaving
          (l.store ++ MatchmakingPool.requeued pending leaving) ::
        (exitEvents deps.now outcome l.reads leaving ++ l.log)
      world := world } := by
  have hsplit : pending.pairing.participants.Perm
      (leaving ++ MatchmakingPool.requeued pending leaving) := by
    have hnodup := h.participants_nodup waiting
    have htake := perm_take id (by simpa using hnodup) (hnodup.sublist leavers)
      (fun p hp => leavers.subset hp)
    simpa [MatchmakingPool.requeued] using htake
  have hheld := h.held_take_pending waiting
  refine h.carry (h.matchIds.sublist (List.filter_sublist.map _)) ?_ ?_ ?_ ?_
  · intro q hq
    simpa [namedIds_append, namedIds] using h.named q (List.mem_filter.mp hq).1
  · have hperm : (l.store ++ MatchmakingPool.requeued pending leaving ++
        (withoutMatch l pending.pairing.id).flatMap (fun q => q.pairing.participants)).Perm
        (MatchmakingPool.requeued pending leaving ++ (l.store ++
          (withoutMatch l pending.pairing.id).flatMap (fun q => q.pairing.participants))) := by
      rw [List.append_assoc]
      exact List.perm_append_comm_assoc _ _ _
    refine hperm.subperm.trans (List.Subperm.trans ?_ hheld.symm.subperm)
    exact (List.filter_sublist.append_right _).subperm
  · simp [entered, entered_append]
  · intro p
    have hp := hheld.count_eq p
    have hs := hsplit.count_eq p
    simp only [Ledger.held, List.count_append, handedOver, handedOver_exitEvents, left,
      left_append, List.map_append, left_exitEvents deps.now outcome l.reads leaving hout,
      List.count_reverse] at hp hs ⊢
    omega

theorem enter_custody (h : Custody l) {p : Participant}
    (freshObject : ∀ q ∈ entered l.log, q.ref ≠ p.ref) (freshId : ∀ q ∈ l.held, q.id ≠ p.id)
    (freshUser : ∀ q ∈ l.held, q.userId ≠ p.userId) :
    Custody { l with store := l.store ++ [p], log := .entered p :: l.log } := by
  have hheld : (l.store ++ [p] ++ l.pending.flatMap (fun q => q.pairing.participants)).Perm
      (p :: l.held) := by
    rw [List.append_assoc]
    exact List.perm_middle
  have hfresh : ∀ {β : Type} {f : Participant → β} {others : List Participant},
      (∀ q ∈ others, f q ≠ f p) → (others.map f).Nodup → ((p :: others).map f).Nodup := by
    intro β f others hne hnodup
    rw [List.map_cons]
    refine List.nodup_cons.mpr ⟨?_, hnodup⟩
    rintro hm
    obtain ⟨q, hq, he⟩ := List.mem_map.mp hm
    exact hne q hq he
  refine ⟨h.matchIds, h.named, ?_, ?_, hfresh freshObject h.objects, ?_⟩
  · exact nodup_map_of_subperm hheld.subperm (hfresh freshId h.ids)
  · exact nodup_map_of_subperm hheld.subperm (hfresh freshUser h.users)
  · intro q
    have hq := hheld.count_eq q
    have ha := h.accounts q
    simp only [Ledger.held, entered, handedOver, left, List.count_cons] at hq ha ⊢
    omega

/-- The clock is only ever read forward. -/
theorem move_reads (step : Move deps l l') : l.reads ≤ l'.reads := by
  cases step <;> simp <;> omega

theorem moves_reads (steps : Moves deps l l') : l.reads ≤ l'.reads := by
  induction steps with
  | refl => exact Nat.le_refl _
  | tail _ step ih => exact ih.trans (move_reads step)

theorem moves_entered (steps : Moves deps l l') : entered l'.log = entered l.log := by
  induction steps with
  | refl => rfl
  | tail _ step ih =>
    rw [← ih]
    cases step <;> simp [entered, entered_append]

include handsBack in
/-- Every move keeps custody. -/
theorem move_custody (h : Custody l) (step : Move deps l l') : Custody l' := by
  cases step with
  | quiet => exact h.carry h.matchIds h.named (List.Subperm.refl _) rfl (fun _ => rfl)
  | exit searching left => exact exit_custody h searching left
  | propose deadline searching distinct fresh =>
    exact propose_custody h deadline searching distinct fresh
  | accept waiting inside inTime => exact accept_custody h _ _ waiting
  | dispatch waiting inside inTime complete =>
    exact handed_custody handsBack h rfl (h.held_take_pending waiting) List.filter_sublist
      rfl rfl rfl rfl
  | handOver searching distinct fresh immediate matched =>
    refine handed_custody handsBack h matched ?_ (List.Sublist.refl _) rfl rfl rfl rfl
    have htake := (h.take_store searching distinct).append_right
      (l.pending.flatMap (fun q => q.pairing.participants))
    rwa [List.append_assoc] at htake
  | abandon waiting leavers left told => exact abandon_custody h waiting leavers left
  | answer => exact h.carry h.matchIds h.named (List.Subperm.refl _) rfl (fun _ => rfl)

include handsBack in
theorem moves_custody (h : Custody l) (steps : Moves deps l l') : Custody l' := by
  induction steps with
  | refl => exact h
  | tail _ step ih => exact move_custody handsBack ih step

end Preservation

/-! ## What the world knows of whom the pool holds -/

/-- A fact about a participant and the world that calls on channels and the match handler keep
for everyone the pool goes on holding. -/
structure WorldInvariant (deps : MatchmakingPoolDeps W) (Q : Participant → W → Prop) : Prop where
  call : ∀ q w p message, Q q w → Q q (deps.call p message w)
  handle : ∀ m others w, ((m.participants ++ others).map Participant.id).Nodup →
    ((m.participants ++ others).map Participant.userId).Nodup →
    (∀ q ∈ m.participants ++ others, Q q w) →
    ∀ q ∈ (deps.handle m w).2 ++ others, Q q (deps.handle m w).1

section World

variable {deps : MatchmakingPoolDeps W} {Q : Participant → W → Prop}
  (invariant : WorldInvariant deps Q) {l l' : Ledger W}
include invariant

theorem told_world {w w' : W} (told : Told deps w w') {q : Participant} (h : Q q w) : Q q w' := by
  induction told with
  | refl => exact h
  | tail _ step ih =>
    obtain ⟨p, message, rfl⟩ := step
    exact invariant.call q _ p message ih

theorem handed_world (hc : Custody l) (h : ∀ q ∈ l.held, Q q l.world) {m : Match}
    {store : List Participant} {pending : List PendingMatch}
    (taken : l.held.Perm (m.participants ++
      (store ++ pending.flatMap (fun q => q.pairing.participants)))) :
    ∀ q ∈ store ++ (deps.handle m l.world).2 ++
        pending.flatMap (fun q => q.pairing.participants), Q q (deps.handle m l.world).1 := by
  have hall := invariant.handle m _ l.world ((taken.map _).nodup_iff.mp hc.ids)
    ((taken.map _).nodup_iff.mp hc.users) (fun q hq => h q (taken.mem_iff.mpr hq))
  intro q hq
  refine hall q ?_
  rw [List.append_assoc] at hq
  exact (List.perm_append_comm_assoc _ _ _).mem_iff.mp hq

theorem move_world (hc : Custody l) (h : ∀ q ∈ l.held, Q q l.world) (step : Move deps l l') :
    ∀ q ∈ l'.held, Q q l'.world := by
  cases step with
  | quiet later told => exact fun q hq => told_world invariant told (h q hq)
  | exit searching left =>
    intro q hq
    refine h q ?_
    exact (List.filter_sublist.append_right _).subset hq
  | @propose m deadline searching distinct fresh =>
    intro q hq
    refine h q ?_
    rcases List.mem_append.mp hq with hq | hq
    · exact List.mem_append_left _ (List.mem_filter.mp hq).1
    · rw [List.flatMap_append] at hq
      rcases List.mem_append.mp hq with hq | hq
      · exact List.mem_append_right _ hq
      · rw [List.flatMap_singleton] at hq
        exact List.mem_append_left _ (searching q hq)
  | accept waiting inside inTime =>
    intro q hq
    refine h q ?_
    simp only [Ledger.held] at hq ⊢
    rwa [accept_participants hc _ waiting] at hq
  | dispatch waiting inside inTime complete =>
    exact handed_world invariant hc h (hc.held_take_pending waiting)
  | handOver searching distinct fresh immediate matched =>
    refine handed_world invariant hc h ?_
    have htake := (hc.take_store searching distinct).append_right
      (l.pending.flatMap (fun q => q.pairing.participants))
    rwa [List.append_assoc] at htake
  | abandon waiting leavers left told =>
    intro q hq
    refine told_world invariant told (h q ?_)
    rcases List.mem_append.mp hq with hq | hq
    · rcases List.mem_append.mp hq with hq | hq
      · exact List.mem_append_left _ hq
      · exact participant_held waiting (List.mem_filter.mp hq).1
    · obtain ⟨other, hother, hq⟩ := List.mem_flatMap.mp hq
      exact participant_held (List.mem_filter.mp hother).1 hq
  | answer => exact h

theorem moves_world (handsBack : HandsBack deps) (hc : Custody l) (h : ∀ q ∈ l.held, Q q l.world)
    (steps : Moves deps l l') : ∀ q ∈ l'.held, Q q l'.world := by
  induction steps with
  | refl => exact h
  | tail before step ih => exact move_world invariant (moves_custody handsBack hc before) ih step

end World

/-- A way the world may develop that calls on channels and the match handler respect. -/
structure WorldRelation (deps : MatchmakingPoolDeps W) (R : W → W → Prop) : Prop where
  refl : ∀ w, R w w
  trans : ∀ {w w' w''}, R w w' → R w' w'' → R w w''
  call : ∀ w p message, R w (deps.call p message w)
  handle : ∀ w m, R w (deps.handle m w).1

section World

variable {deps : MatchmakingPoolDeps W} {R : W → W → Prop} (relation : WorldRelation deps R)
include relation

theorem told_relates {w w' : W} (told : Told deps w w') : R w w' := by
  induction told with
  | refl => exact relation.refl w
  | tail _ step ih =>
    obtain ⟨p, message, rfl⟩ := step
    exact relation.trans ih (relation.call _ p message)

theorem moves_relates {l l' : Ledger W} (steps : Moves deps l l') : R l.world l'.world := by
  induction steps with
  | refl => exact relation.refl l.world
  | tail _ step ih =>
    refine relation.trans ih ?_
    cases step with
    | quiet later told => exact told_relates relation told
    | abandon waiting leavers left told => exact told_relates relation told
    | dispatch => exact relation.handle _ _
    | handOver => exact relation.handle _ _
    | exit | propose | accept | answer => exact relation.refl _

end World

end EdoproServer.Matchmaking
