import EdoproServer.Matchmaking.Requests

namespace EdoproServer.Matchmaking
open Lib MatchmakingPool

variable {W : Type}

/-! ## Conservation -/

/-- Where a participant that entered the pool can be. -/
inductive Place where
  | searching
  | pending (matchId : String)
  | handedOver (m : Match)
  | left (outcome : QueueExitOutcome)
  deriving DecidableEq, Repr

/-- Every place the participant is in, as often as it is there. -/
def places (l : Ledger W) (p : Participant) : List Place :=
  (l.store.filter (fun q => q = p)).map (fun _ => .searching) ++
  l.pending.flatMap (fun pending =>
    (pending.pairing.participants.filter (fun q => q = p)).map
      (fun _ => .pending pending.pairing.id)) ++
  ((handedOver l.log).filter (fun e => e.2 = p)).map (fun e => .handedOver e.1) ++
  ((left l.log).filter (fun e => e.1 = p)).map (fun e => .left e.2)

theorem length_filter_eq_count {α : Type} (key : α → Participant) (l : List α)
    (p : Participant) : (l.filter (fun a => key a = p)).length = (l.map key).count p := by
  induction l with
  | nil => rfl
  | cons a rest ih =>
    by_cases ha : key a = p
    · simp [ha, ih]
    · simp [ha, ih]

theorem length_places (l : Ledger W) (p : Participant) :
    (places l p).length = l.held.count p + ((handedOver l.log).map Prod.snd).count p +
      ((left l.log).map Prod.fst).count p := by
  have hpending : ∀ pending : List PendingMatch,
      (pending.flatMap (fun pending => (pending.pairing.participants.filter (fun q => q = p)).map
        (fun _ => Place.pending pending.pairing.id))).length =
      (pending.flatMap (fun pending => pending.pairing.participants)).count p := by
    intro pending
    induction pending with
    | nil => rfl
    | cons first rest ih =>
      have hfirst := length_filter_eq_count id first.pairing.participants p
      simp only [id_eq, List.map_id] at hfirst
      simp only [List.flatMap_cons, List.length_append, List.length_map, List.count_append, ih,
        hfirst]
  have hstore := length_filter_eq_count id l.store p
  simp only [id_eq, List.map_id] at hstore
  simp only [places, Ledger.held, List.length_append, List.length_map, List.count_append,
    hpending, hstore, length_filter_eq_count Prod.snd, length_filter_eq_count Prod.fst]

/-- In every reachable state no id and no user is held twice, and whoever ever entered is in
exactly one place: searching, in one pending match, in one match handed over and not handed
back, or gone with one exit outcome. -/
theorem matchmaking_conservation {deps : MatchmakingPoolDeps W} (handsBack : HandsBack deps)
    (freshIds : Function.Injective deps.newMatchId) {s : PoolState W} (h : Reachable deps s) :
    (s.ledger.held.map Participant.id).Nodup ∧ (s.ledger.held.map Participant.userId).Nodup ∧
      ∀ p ∈ entered s.log, ∃ place, places s.ledger p = [place] := by
  have hc := (reachable_invariant handsBack freshIds h).1.custody
  refine ⟨hc.ids, hc.users, ?_⟩
  intro p hp
  have hone : (entered s.log).count p = 1 := List.count_eq_one_of_mem hc.objects.of_map hp
  apply List.length_eq_one_iff.mp
  rw [length_places, ← hc.accounts p]
  exact hone

/-- A pool with an always open door: everyone is alive, no bot is up, and every match is taken. -/
def openPool : MatchmakingPoolDeps Unit where
  now n := 1000 * n
  newMatchId n := String.ofList (List.replicate n 'm')
  botAvailable _ := false
  isAlive _ _ _ := true
  call _ _ w := w
  handle _ w := (w, [])

theorem openPool_handsBack : HandsBack openPool := fun _ _ => List.nil_sublist _

theorem openPool_freshIds : Function.Injective openPool.newMatchId := by
  intro a b h
  have hl : List.replicate a 'm' = List.replicate b 'm' := String.ofList_injective h
  simpa using congrArg List.length hl

def visitor (ref : Nat) (id : String) (supportsAcceptStep : Option Bool) : Participant where
  ref := ref
  id := id
  userId := id
  format := .tcg
  mode := .ranked
  displayName := none
  enqueuedAt := 0
  botFallbackAfterMs := none
  supportsAcceptStep := supportsAcceptStep
  presence := .socket
  admission := true

/-- The state of the open pool after the requests, the newest first. -/
def afterRequests : List PoolRequest → PoolState Unit
  | [] => PoolState.initial ()
  | request :: earlier => stateAfter (perform openPool request (afterRequests earlier))

theorem afterRequests_reachable {request : PoolRequest} {earlier : List PoolRequest}
    (h : Reachable openPool (afterRequests earlier))
    (admissible : Admissible (afterRequests earlier) request) :
    Reachable openPool (afterRequests (request :: earlier)) := by
  rw [afterRequests]
  exact .request h admissible

/-- Two visitors, one of whom answers proposals, and the tick that pairs them. -/
def proposedPair : List PoolRequest :=
  [.tick, .add (visitor 1 "bob" none), .add (visitor 0 "alice" (some true))]

theorem proposedPair_reachable : Reachable openPool (afterRequests proposedPair) := by
  refine afterRequests_reachable (afterRequests_reachable (afterRequests_reachable
    (.initial ()) ?_) ?_) trivial
  · exact ⟨by decide +kernel, by decide +kernel⟩
  · exact ⟨by decide +kernel, by decide +kernel⟩

/-- While the match waits for its answers both are in it and nowhere else. -/
theorem matchmaking_conservation_proposed :
    places (afterRequests proposedPair).ledger (visitor 0 "alice" (some true)) =
      [.pending (openPool.newMatchId 0)] ∧
    ∀ p ∈ entered (afterRequests proposedPair).log,
      ∃ place, places (afterRequests proposedPair).ledger p = [place] :=
  ⟨by decide +kernel, (matchmaking_conservation openPool_handsBack openPool_freshIds
    proposedPair_reachable).2.2⟩

/-! ## The accept step -/

/-- In every reachable state: no match was handed over twice; a match that needs the accept step
was handed over only after every opted-in participant accepted it before its deadline, with
nobody in it having declined, cancelled, been replaced or been swept since it was proposed; and
when a proposed match was dropped, exactly those not leaving were back in the store. -/
theorem accept_step_safety {deps : MatchmakingPoolDeps W} (handsBack : HandsBack deps)
    (freshIds : Function.Injective deps.newMatchId) {s : PoolState W} (h : Reachable deps s) :
    ((handledMatches s.log).map Match.id).Nodup ∧
      (∀ m older, (.handled m :: older) <:+ s.log → requiresAcceptStep m = true →
        Approved deps.now m older) ∧
      ∀ m leaving store, .abandoned m leaving store ∈ s.log →
        ∀ p ∈ m.participants, p ∈ store ↔ p ∉ leaving := by
  have hp := (reachable_invariant handsBack freshIds h).2
  exact ⟨hp.once, hp.approved, hp.requeued⟩

def acceptedPair : List PoolRequest := .accept (openPool.newMatchId 0) "alice" :: proposedPair

theorem acceptedPair_reachable : Reachable openPool (afterRequests acceptedPair) :=
  afterRequests_reachable proposedPair_reachable trivial

/-- The pair is handed over by the ACCEPT of the one who was asked. -/
theorem accept_step_safety_pair :
    (handledMatches (afterRequests acceptedPair).log).map requiresAcceptStep = [true] ∧
    ∀ m older, (.handled m :: older) <:+ (afterRequests acceptedPair).log →
      requiresAcceptStep m = true → Approved openPool.now m older :=
  ⟨by decide +kernel, (accept_step_safety openPool_handsBack openPool_freshIds
    acceptedPair_reachable).2.1⟩

/-! ## The indexes of the store -/

/-- What a record counts for a field after the keys were added up is what the keys of that field
weigh. -/
theorem foldl_update_add {κ μ : Type} [DecidableEq κ] (weight : κ × μ → Nat) (field : κ)
    (keys : List (κ × μ)) (start : κ → Nat) :
    keys.foldl (fun depth key => Function.update depth key.1 (depth key.1 + weight key)) start
      field = start field + ((keys.filter (fun key => key.1 = field)).map weight).sum := by
  induction keys generalizing start with
  | nil => rfl
  | cons key rest ih =>
    rw [List.foldl_cons, ih]
    by_cases hk : key.1 = field
    · subst hk
      simp [Nat.add_assoc]
    · have hk' : field ≠ key.1 := fun h => hk h.symm
      simp [hk, hk']

/-- The keys of a format are its modes. -/
theorem poolKeys_of_format (format : MatchmakingFormat) :
    poolKeys.filter (fun key => key.1 = format) =
      MATCHMAKING_MODES.map (fun mode => (format, mode)) := by
  cases format <;> rfl

theorem depthByFormat_eq (s : PoolState W) (format : MatchmakingFormat) :
    depthByFormat s format =
      (MATCHMAKING_MODES.map (fun mode => s.store.depth format mode)).sum := by
  have hsum := foldl_update_add (fun key : MatchmakingFormat × MatchmakingMode =>
    s.store.depth key.1 key.2) format poolKeys (fun _ => 0)
  rw [poolKeys_of_format, List.map_map, Nat.zero_add] at hsum
  exact hsum

/-- In every reachable state the store's indexes tell the same story: a pool key lists its
participants in the order they came and counts them, a user and an id find exactly the one
participant that has them, and the depth of a format adds up its keys and counts its
participants. A participant's id is its socket's id, or its ticket's when it polls. -/
theorem pool_indexes_agree {deps : MatchmakingPoolDeps W} (handsBack : HandsBack deps)
    (freshIds : Function.Injective deps.newMatchId) {s : PoolState W} (h : Reachable deps s) :
    (∀ format mode,
      s.store.all format mode =
          s.store.participants.filter (fun p => p.format = format ∧ p.mode = mode) ∧
        s.store.depth format mode = (s.store.all format mode).length) ∧
      (∀ userId p, s.store.findByUserId userId = some p ↔
        p ∈ s.store.participants ∧ p.userId = userId) ∧
      (∀ socketId p, s.store.get socketId = some p ↔
        p ∈ s.store.participants ∧ p.id = socketId) ∧
      ∀ format,
        depthByFormat s format =
            (MATCHMAKING_MODES.map (fun mode => s.store.depth format mode)).sum ∧
          depthByFormat s format =
            (s.store.participants.filter (fun p => p.format = format)).length := by
  have valid : s.store.Valid := (reachable_invariant handsBack freshIds h).1.store
  refine ⟨?_, ?_, ?_, ?_⟩
  · intro format mode
    have hall := InMemoryPoolStore.all_eq valid format mode
    exact ⟨hall, by rw [InMemoryPoolStore.depth_eq valid, hall]⟩
  · exact fun userId p => InMemoryPoolStore.findByUserId_eq_some valid
  · exact fun socketId p => InMemoryPoolStore.get_eq_some valid
  · intro format
    refine ⟨depthByFormat_eq s format, ?_⟩
    rw [depthByFormat_eq, MATCHMAKING_MODES, List.map_singleton, List.sum_singleton,
      InMemoryPoolStore.depth_eq valid]
    congr 1
    apply List.filter_congr
    intro p _
    simp [InMemoryPoolStore.inPool]

/-- Two visitors of one format, both still searching. -/
def searchingPair : List PoolRequest :=
  [.add (visitor 1 "bob" none), .add (visitor 0 "alice" none)]

theorem searchingPair_reachable : Reachable openPool (afterRequests searchingPair) := by
  refine afterRequests_reachable (afterRequests_reachable (.initial ()) ?_) ?_
  · exact ⟨by decide +kernel, by decide +kernel⟩
  · exact ⟨by decide +kernel, by decide +kernel⟩

/-- The pool key lists them in the order they came, and the user index finds the first. -/
theorem pool_indexes_agree_searching :
    (afterRequests searchingPair).store.all .tcg .ranked =
        [visitor 0 "alice" none, visitor 1 "bob" none] ∧
      (afterRequests searchingPair).store.findByUserId "alice" =
        some (visitor 0 "alice" none) ∧
      depthByFormat (afterRequests searchingPair) .tcg = 2 := by
  obtain ⟨hkeys, husers, -, hformats⟩ :=
    pool_indexes_agree openPool_handsBack openPool_freshIds searchingPair_reachable
  refine ⟨?_, ?_, ?_⟩
  · rw [(hkeys .tcg .ranked).1]
    decide +kernel
  · rw [husers]
    decide +kernel
  · rw [(hformats .tcg).2]
    decide +kernel

end EdoproServer.Matchmaking
