import EdoproServer.Matchmaking.FifoPairing
import EdoproServer.Matchmaking.Guarantees

namespace EdoproServer.Matchmaking
open Lib

variable {W : Type} {deps : MatchmakingPoolDeps W}

namespace MatchmakingPool

/-! ## The sweep -/

theorem mem_poolKeys (p : Participant) : (p.format, p.mode) ∈ poolKeys := by
  cases p.format <;> cases p.mode <;> decide

theorem poolKeys_nodup : poolKeys.Nodup := by decide

/-- Whom the sweep has left: the living, and those whose pool key it has not come to. -/
def spared (alive : Participant → Bool) (keys : List (MatchmakingFormat × MatchmakingMode))
    (p : Participant) : Bool :=
  alive p || decide ((p.format, p.mode) ∈ keys)

/-- Within a pool key: the living, those of other keys and those still to be looked at. -/
def sparedOf (alive : Participant → Bool) (key : MatchmakingFormat × MatchmakingMode)
    (rest : List Participant) (p : Participant) : Bool :=
  alive p || !InMemoryPoolStore.inPool key.1 key.2 p || decide (p ∈ rest)

section Sweep

variable {s : PoolState W} {alive : Participant → Bool}
  {key : MatchmakingFormat × MatchmakingMode}

/-- The turn of one participant of the pool key. -/
theorem sparedOf_turn (alive : Participant → Bool) {l rest : List Participant} {p : Participant}
    (hids : (l.map Participant.id).Nodup) (hp : p ∈ l)
    (hpool : InMemoryPoolStore.inPool key.1 key.2 p = true) (hrest : p ∉ rest) :
    (if alive p then l.filter (sparedOf alive key (p :: rest))
      else (l.filter (sparedOf alive key (p :: rest))).filter (fun q => q.id ≠ p.id)) =
      l.filter (sparedOf alive key rest) := by
  have hsame : ∀ q ∈ l, q.id = p.id → q = p := fun q hq hid =>
    List.inj_on_of_nodup_map hids hq hp hid
  split
  · rename_i halive
    apply List.filter_congr
    intro q hq
    by_cases hqp : q = p
    · simp [sparedOf, hqp, halive]
    · simp [sparedOf, hqp]
  · rename_i hdead
    rw [List.filter_filter]
    apply List.filter_congr
    intro q hq
    by_cases hqp : q = p
    · simp [sparedOf, hqp, hdead, hpool, hrest]
    · have hid : q.id ≠ p.id := fun hid => hqp (hsame q hq hid)
      simp [sparedOf, hqp, hid]

/-- After the turns of its participants a pool key holds the living alone. -/
theorem sparedOf_nil {keys : List (MatchmakingFormat × MatchmakingMode)} (hkey : key ∉ keys)
    (l : List Participant) :
    (l.filter (spared alive (key :: keys))).filter (sparedOf alive key []) =
      l.filter (spared alive keys) := by
  rw [List.filter_filter]
  apply List.filter_congr
  intro q _
  have hpool : InMemoryPoolStore.inPool key.1 key.2 q = decide ((q.format, q.mode) = key) := by
    rw [Bool.eq_iff_iff, inPool_iff, decide_eq_true_eq]
  by_cases hq : (q.format, q.mode) = key
  · have hnot : (q.format, q.mode) ∉ keys := hq ▸ hkey
    cases alive q <;> simp [spared, sparedOf, hpool, hq, hkey]
  · cases alive q <;> simp [spared, sparedOf, hpool, hq]

/-- The sweep leaves exactly those whose channel is alive. -/
theorem sweepDead_spec (handsBack : HandsBack deps) (h : Sound deps s) (time : Int) :
    Runs (sweepDead deps time) s (fun _ s' => Follows deps s s' ∧ s'.world = s.world ∧
      s'.store.participants =
        s.store.participants.filter (fun p => deps.isAlive s.world p time)) := by
  unfold sweepDead forEveryParticipant
  refine Runs.mono (Follows.loop (fun keys s' => keys.Nodup ∧ s'.world = s.world ∧
    s'.store.participants =
      s.store.participants.filter (spared (fun p => deps.isAlive s.world p time) keys))
    poolKeys h ⟨poolKeys_nodup, rfl, ?_⟩ ?_) ?_
  · symm
    rw [List.filter_eq_self]
    intro p _
    simp [spared, mem_poolKeys]
  · intro key keys s₁ hs₁ ⟨hnodup, hworld₁, hparts₁⟩
    obtain ⟨hkey, hkeys⟩ := List.nodup_cons.mp hnodup
    have hall := InMemoryPoolStore.all_eq hs₁.store key.1 key.2
    refine Runs.bind (Runs.read ?_)
    refine Runs.mono (Follows.loop (fun rest s' => Searching s' rest ∧
      (∀ p ∈ rest, p ∈ s₁.store.participants ∧
        InMemoryPoolStore.inPool key.1 key.2 p = true) ∧ s'.world = s.world ∧
      s'.store.participants = s₁.store.participants.filter
        (sparedOf (fun p => deps.isAlive s.world p time) key rest)) _ hs₁
      ⟨searching_all hs₁ key, ?_, hworld₁, ?_⟩ ?_) ?_
    · intro p hp
      rw [hall] at hp
      exact List.mem_filter.mp hp
    · symm
      rw [List.filter_eq_self]
      intro p hp
      rw [hall]
      cases hpool : InMemoryPoolStore.inPool key.1 key.2 p with
      | false => simp [sparedOf, hpool]
      | true => simp [sparedOf, hp, hpool]
    · intro p rest s₂ hs₂ ⟨hsearching, hrest, hworld₂, hparts₂⟩
      obtain ⟨hin, hpool⟩ := hrest p List.mem_cons_self
      have hnot : p ∉ rest := by
        have hdistinct := hsearching.distinct
        rw [List.map_cons] at hdistinct
        exact fun hmem => (List.nodup_cons.mp hdistinct).1 (List.mem_map_of_mem hmem)
      have hturn := sparedOf_turn (fun p => deps.isAlive s.world p time)
        (InMemoryPoolStore.ids_nodup hs₁.store) hin hpool hnot
      have htail : ∀ q ∈ rest, q ∈ s₁.store.participants ∧
          InMemoryPoolStore.inPool key.1 key.2 q = true :=
        fun q hq => hrest q (List.mem_cons_of_mem p hq)
      refine Runs.bind (Runs.read ?_)
      cases halive : deps.isAlive s₂.world p time with
      | true =>
        rw [hworld₂] at halive
        rw [if_pos halive] at hturn
        exact Runs.pure ⟨Follows.refl hs₂, hsearching.tail (fun q hq _ => hq), htail, hworld₂,
          hparts₂.trans hturn⟩
      | false =>
        rw [hworld₂] at halive
        rw [if_neg (by simp [halive])] at hturn
        refine Runs.discard (Runs.mono (removeAndLog_follows handsBack hs₂
          (hsearching.stored p List.mem_cons_self) rfl) ?_)
        intro _ s₃ ⟨_, hf, _, hworld₃, hparts₃⟩
        refine ⟨hf, hsearching.tail ?_, htail, hworld₃.trans hworld₂, ?_⟩
        · intro q hq hne
          rw [hparts₃]
          exact List.mem_filter.mpr ⟨hq, decide_eq_true hne⟩
        · rw [hparts₃, hparts₂]
          exact hturn
    · intro _ s₂ ⟨hf, _, _, hworld₂, hparts₂⟩
      refine ⟨hf, hkeys, hworld₂, ?_⟩
      rw [hparts₂, hparts₁]
      exact sparedOf_nil hkey s.store.participants
  · intro _ s' ⟨hf, _, hworld, hparts⟩
    refine ⟨hf, hworld, ?_⟩
    rw [hparts]
    apply List.filter_congr
    intro p _
    simp [spared]

end Sweep

/-! ## Whom a tick finds alive -/

/-- A world that calls on channels and hand-overs lead to. -/
def Evolved (deps : MatchmakingPoolDeps W) : W → W → Prop :=
  Relation.ReflTransGen (fun w w' =>
    (∃ p message, w' = deps.call p message w) ∨ ∃ m, w' = (deps.handle m w).1)

theorem evolved_relation : WorldRelation deps (Evolved deps) where
  refl _ := Relation.ReflTransGen.refl
  trans h h' := Relation.ReflTransGen.trans h h'
  call _ p message := Relation.ReflTransGen.single (Or.inl ⟨p, message, rfl⟩)
  handle _ m := Relation.ReflTransGen.single (Or.inr ⟨m, rfl⟩)

/-- In one of the worlds from `start` on the channel of the participant is alive. -/
def FoundAlive (deps : MatchmakingPoolDeps W) (start : W) (time : Int) (p : Participant) : Prop :=
  ∃ w, Evolved deps start w ∧ deps.isAlive w p time = true

/-- The store is what it was at the start with others behind it, all of them found alive. -/
def BackAlive (deps : MatchmakingPoolDeps W) (start : W) (time : Int) (base : List Participant)
    (s : PoolState W) : Prop :=
  ∃ back, s.store.participants = base ++ back ∧ ∀ p ∈ back, FoundAlive deps start time p

section Alive

variable {s : PoolState W} {start : W} {time : Int} {base : List Participant}

theorem calls_store (message : ChannelCall) (l : List Participant) (s : PoolState W) :
    Runs (forM l (fun p => call deps p message)) s (fun _ s' => s'.store = s.store) := by
  refine Runs.loop (fun _ (s' : PoolState W) => s'.store = s.store) l rfl ?_
  intro p _ s₁ h
  exact Runs.of_eq (call_run _ _ _) h

/-- Only participants found alive come back when a pending match is resolved. -/
theorem resolve_alive (handsBack : HandsBack deps) (h : Sound deps s) {pending : PendingMatch}
    (waiting : pending ∈ s.pending.all) (hworld : Evolved deps start s.world)
    (halive : BackAlive deps start time base s) :
    Runs (resolve deps time pending) s (fun _ s' => BackAlive deps start time base s') := by
  obtain ⟨back, hback, hfound⟩ := halive
  have hrequeue : ∀ (leaving : List Participant) (s' : PoolState W),
      (∀ p ∈ requeued pending leaving, deps.isAlive s.world p time = true) →
      s'.store.participants = s.store.participants ++ requeued pending leaving →
      BackAlive deps start time base s' := by
    intro leaving s' hrequeued hparts
    refine ⟨back ++ requeued pending leaving, by rw [hparts, hback, List.append_assoc], ?_⟩
    intro p hp
    rcases List.mem_append.mp hp with hold | hnew
    · exact hfound p hold
    · exact ⟨s.world, hworld, hrequeued p hnew⟩
  unfold resolve
  refine Runs.bind (Runs.read ?_)
  dsimp only
  generalize hdead : pending.pairing.participants.filter
    (fun p => !deps.isAlive s.world p time) = dead
  have hliving : ∀ p ∈ pending.pairing.participants, p ∉ dead →
      deps.isAlive s.world p time = true := by
    intro p hp hnot
    by_contra hdies
    rw [← hdead] at hnot
    exact hnot (List.mem_filter.mpr ⟨hp, by simp [hdies]⟩)
  have hleavers : dead.Sublist pending.pairing.participants := hdead ▸ List.filter_sublist
  split
  · refine Runs.mono (abandon_follows handsBack h waiting hleavers rfl) ?_
    intro _ s' ⟨_, _, hparts, _⟩
    refine hrequeue dead s' ?_ hparts
    intro p hp
    obtain ⟨hin, hnot⟩ := List.mem_filter.mp hp
    exact hliving p hin (of_decide_eq_true hnot)
  · rename_i hnone
    have hempty : dead = [] := not_not.mp hnone
    split
    · refine Runs.bind (Runs.mono (abandon_follows handsBack h waiting List.filter_sublist rfl) ?_)
      intro _ s₁ ⟨_, _, hparts₁, _⟩
      refine Runs.mono (calls_store _ _ s₁) ?_
      intro _ s₂ hstore
      refine hrequeue _ s₂ ?_ (by rw [hstore, hparts₁])
      intro p hp
      exact hliving p (List.mem_filter.mp hp).1 (by simp [hempty])
    · exact Runs.pure ⟨back, hback, hfound⟩

theorem resolvePending_alive (handsBack : HandsBack deps) (h : Sound deps s) (time : Int)
    (hworld : Evolved deps start s.world) :
    Runs (resolvePending deps time) s (fun _ s' => Follows deps s s' ∧
      BackAlive deps start time s.store.participants s') := by
  unfold resolvePending
  refine Runs.bind (Runs.read ?_)
  refine Runs.mono (Follows.loop (fun rest s' => (∀ pending ∈ rest, pending ∈ s'.pending.all) ∧
    (rest.map (fun pending => pending.pairing.id)).Nodup ∧ Evolved deps start s'.world ∧
    BackAlive deps start time s.store.participants s') _ h
    ⟨fun pending hp => hp, PendingMatches.ids_nodup h.keyed, hworld, [],
      (List.append_nil _).symm, fun p hp => absurd hp List.not_mem_nil⟩ ?_)
    (fun _ _ hf => ⟨hf.1, hf.2.2.2.2⟩)
  intro pending rest s₁ hs ⟨hmem, hdistinct, hworld₁, halive₁⟩
  rw [List.map_cons] at hdistinct
  obtain ⟨hnot, hrest⟩ := List.nodup_cons.mp hdistinct
  have hwaiting := hmem pending List.mem_cons_self
  refine Runs.mono ((resolve_follows handsBack hs time hwaiting).and
    (resolve_alive handsBack hs hwaiting hworld₁ halive₁)) ?_
  intro _ s₂ ⟨⟨hf, hkept⟩, halive₂⟩
  refine ⟨hf, fun other hother => ?_, hrest,
    evolved_relation.trans hworld₁ (moves_relates evolved_relation hf.moves), halive₂⟩
  refine hkept other (hmem other (List.mem_cons_of_mem _ hother)) ?_
  exact fun he => hnot (List.mem_map.mpr ⟨other, hother, he⟩)

end Alive

/-! ## The turn of a pool key in a tick -/

/-- A tick from `s` on leaves `swept` after its sweep, comes to the pool key in `turn`, and goes
on with it from there. -/
structure TurnOf (deps : MatchmakingPoolDeps W) (s : PoolState W)
    (before : List (MatchmakingFormat × MatchmakingMode))
    (key : MatchmakingFormat × MatchmakingMode)
    (after : List (MatchmakingFormat × MatchmakingMode)) (swept turn : PoolState W) : Prop where
  sweeps : sweepDead deps (deps.now s.reads) { s with reads := s.reads + 1 } = .ok ⟨⟩ swept
  arrives : (do
    resolvePending deps (deps.now s.reads)
    forgetClosedRequeues (deps.now s.reads)
    forM before (pairKey deps (deps.now s.reads))) swept = .ok ⟨⟩ turn
  goesOn : tick deps s = (do
    pairKey deps (deps.now s.reads) key
    forM after (pairKey deps (deps.now s.reads))
    publishStatus deps (deps.now s.reads)) turn

/-- The candidates of a pool key are whom the sweep spared, and behind them those found alive who
came back from pending matches of this tick. -/
theorem tick_turn (handsBack : HandsBack deps) (freshIds : Function.Injective deps.newMatchId)
    {s : PoolState W} (h : Sound deps s) {before after : List (MatchmakingFormat × MatchmakingMode)}
    {key : MatchmakingFormat × MatchmakingMode} (hkeys : poolKeys = before ++ key :: after) :
    ∃ swept turn back, TurnOf deps s before key after swept turn ∧ Sound deps turn ∧
      swept.store.participants =
        s.store.participants.filter (fun p => deps.isAlive s.world p (deps.now s.reads)) ∧
      turn.store.all key.1 key.2 = swept.store.all key.1 key.2 ++ back ∧
      ∀ p ∈ back, FoundAlive deps s.world (deps.now s.reads) p := by
  have hquiet : Follows deps s { s with reads := s.reads + 1 } :=
    Follows.quiet handsBack h rfl rfl (Nat.le_refl _) rfl (Nat.le_succ _)
      Relation.ReflTransGen.refl
  generalize htime : deps.now s.reads = time
  obtain ⟨_, swept, hsweep, hfswept, hworld, hparts⟩ := sweepDead_spec handsBack hquiet.sound time
  have hevolved : Evolved deps s.world swept.world := by
    rw [hworld]
    exact evolved_relation.refl s.world
  obtain ⟨_, resolved, hresolve, hfresolved, back, hback, halive⟩ :=
    resolvePending_alive handsBack hfswept.sound time hevolved
  obtain ⟨_, forgotten, hforget, hfforgotten, hstore⟩ :
      Runs (forgetClosedRequeues time) resolved (fun _ s' => Follows deps resolved s' ∧
        s'.store = resolved.store) :=
    Runs.update ⟨Follows.quiet handsBack hfresolved.sound rfl rfl (Nat.le_refl _) rfl
      (Nat.le_refl _) Relation.ReflTransGen.refl, rfl⟩
  have hnodup := poolKeys_nodup
  rw [hkeys] at hnodup
  have hnot : key ∉ before := by
    intro hin
    exact (List.nodup_append.mp hnodup).2.2 key hin key List.mem_cons_self rfl
  obtain ⟨_, turn, hbefore, hfturn, _, hkept⟩ : Runs (forM before (pairKey deps time)) forgotten
      (fun _ s' => Follows deps forgotten s' ∧ key ∉ ([] : List _) ∧
        s'.store.all key.1 key.2 = forgotten.store.all key.1 key.2) := by
    refine Follows.loop (fun rest s' => key ∉ rest ∧
      s'.store.all key.1 key.2 = forgotten.store.all key.1 key.2) before hfforgotten.sound
      ⟨hnot, rfl⟩ ?_
    intro other rest s₁ hs₁ ⟨hother, hsame⟩
    rw [List.mem_cons, not_or] at hother
    refine Runs.mono (pairKey_follows handsBack freshIds hs₁ time other) ?_
    intro _ s₂ ⟨hf, helse⟩
    exact ⟨hf, hother.2, (helse key hother.1).trans hsame⟩
  refine ⟨swept, turn, back.filter (InMemoryPoolStore.inPool key.1 key.2), ⟨?_, ?_, ?_⟩,
    hfturn.sound, hparts, ?_, ?_⟩
  · rw [htime]
    exact hsweep
  · rw [htime, bind_ok hresolve, bind_ok hforget]
    exact hbefore
  · rw [htime]
    unfold tick
    rw [bind_ok (now_run s)]
    rw [htime, bind_ok hsweep, bind_ok hresolve, bind_ok hforget, pairAndDispatch_eq, hkeys,
      List.forM_append, bind_assoc, bind_ok hbefore, List.forM_cons, bind_assoc]
  · rw [hkept, hstore, InMemoryPoolStore.all_eq hfresolved.sound.store, hback, List.filter_append,
      InMemoryPoolStore.all_eq hfswept.sound.store]
  · intro p hp
    exact halive p (List.mem_filter.mp hp).1

theorem formedAt_fifo {s : PoolState W} (h : Sound deps s)
    (key : MatchmakingFormat × MatchmakingMode) (time : Int) :
    ∃ ordered, FifoWithFallback (s.store.all key.1 key.2) ordered time
      (formedAt deps time key s) := by
  unfold formedAt
  split
  · rename_i hnone
    rw [hnone]
    exact ⟨[], ⟨List.Perm.refl _, List.Pairwise.nil⟩, rfl, rfl, Nat.zero_le 1, Nat.zero_le 1,
      fun m hm => absurd hm List.not_mem_nil, fun m hm => absurd hm List.not_mem_nil⟩
  · exact pairingPolicy_fifo _ _ (searching_all h key).distinct

/-! ## Who comes back from a dropped match -/

/-- A dropped match has put those who stay behind everyone then in the store. -/
def PutBack (log : List PoolEvent) : Prop :=
  ∀ m leaving store, .abandoned m leaving store ∈ log →
    (store.map Participant.id).Nodup ∧
      ∃ before, store = before ++ m.participants.filter (fun p => p ∉ leaving)

theorem PutBack.later {log log' : List PoolEvent} (h : PutBack log)
    (none : ∀ m leaving store, .abandoned m leaving store ∈ log' →
      .abandoned m leaving store ∈ log) : PutBack log' :=
  fun m leaving store he => h m leaving store (none m leaving store he)

theorem abandoned_not_mem_exitEvents {now : Nat → Int} {outcome : QueueExitOutcome} {reads : Nat}
    {exits : List Participant} {m : Match} {leaving store : List Participant} :
    .abandoned m leaving store ∉ exitEvents now outcome reads exits := by
  intro he
  obtain ⟨_, _, _, hevent⟩ := mem_exitEvents he
  cases hevent

theorem move_putBack {l l' : Ledger W} (handsBack : HandsBack deps) (hc : Custody l)
    (h : PutBack l.log) (step : Move deps l l') : PutBack l'.log := by
  have hstore := (move_custody handsBack hc step).store_ids
  cases step with
  | quiet => exact h
  | exit => exact h.later (by simp [abandoned_not_mem_exitEvents])
  | propose => exact h.later (by simp)
  | accept => exact h.later (by simp)
  | dispatch => exact h.later (by simp [abandoned_not_mem_exitEvents, handBackEvents])
  | handOver => exact h.later (by simp [abandoned_not_mem_exitEvents, handBackEvents])
  | @abandon pending leaving outcome world waiting leavers left told =>
    intro m leaving' store he
    rcases List.mem_cons.mp he with hthis | hearlier
    · cases hthis
      exact ⟨hstore, l.store, rfl⟩
    · refine h m leaving' store ?_
      exact (List.mem_append.mp hearlier).resolve_left abandoned_not_mem_exitEvents
  | answer => exact h.later (by simp)

theorem moves_putBack {l l' : Ledger W} (handsBack : HandsBack deps) (hc : Custody l)
    (h : PutBack l.log) (steps : Moves deps l l') : PutBack l'.log := by
  induction steps with
  | refl => exact h
  | tail steps step ih => exact move_putBack handsBack (moves_custody handsBack hc steps) ih step

theorem reachable_putBack (handsBack : HandsBack deps)
    (freshIds : Function.Injective deps.newMatchId) {s : PoolState W} (h : Reachable deps s) :
    PutBack s.log := by
  induction h with
  | initial world => exact fun m leaving store he => absurd he List.not_mem_nil
  | environment world _ ih => exact ih
  | @request s request hs admissible ih =>
    have hsound := (reachable_invariant handsBack freshIds hs).1
    by_cases harrival : ∃ p, request = .add p
    · obtain ⟨p, rfl⟩ := harrival
      rcases add_arrives handsBack hsound admissible with he | hruns
      · rw [he]
        exact ih
      · refine hruns.after (fun s' => PutBack s'.log) ?_
        intro _ s' ⟨s₁, hf, _, henters⟩
        rw [henters.state]
        have hbefore : PutBack s₁.log := moves_putBack handsBack hsound.custody ih hf.moves
        exact hbefore.later (by simp)
    · have hf := perform_follows handsBack freshIds hsound (fun p he => harrival ⟨p, he⟩)
      exact moves_putBack handsBack hsound.custody ih hf.moves

/-- Whoever comes back goes before those enqueued later and behind everyone else. -/
theorem PutBack.order {log : List PoolEvent} (h : PutBack log) {m : Match}
    {leaving store : List Participant} (he : .abandoned m leaving store ∈ log) {p q : Participant}
    (hp : p ∈ m.participants) (hstays : p ∉ leaving) (hq : q ∈ store) (hother : q ∉ m.participants)
    (hpool : InMemoryPoolStore.inPool p.format p.mode q = true) :
    let candidates := store.filter (InMemoryPoolStore.inPool p.format p.mode)
    (Precedes Participant.enqueuedAt candidates p q ↔ p.enqueuedAt < q.enqueuedAt) ∧
      (Precedes Participant.enqueuedAt candidates q p ↔ q.enqueuedAt ≤ p.enqueuedAt) := by
  obtain ⟨hids, before, hstore⟩ := h m leaving store he
  have hnodup : store.Nodup := hids.of_map
  have hbefore : q ∈ before := by
    rw [hstore] at hq
    rcases List.mem_append.mp hq with hin | hin
    · exact hin
    · exact absurd (List.mem_filter.mp hin).1 hother
  have hself : InMemoryPoolStore.inPool p.format p.mode p = true := by
    simp [InMemoryPoolStore.inPool]
  have hback : p ∈ m.participants.filter (fun p => p ∉ leaving) :=
    List.mem_filter.mpr ⟨hp, decide_eq_true hstays⟩
  rw [hstore] at hnodup ⊢
  dsimp only
  have hfiltered := hnodup.filter (InMemoryPoolStore.inPool p.format p.mode)
  rw [List.filter_append] at hfiltered ⊢
  exact precedes_joined Participant.enqueuedAt hfiltered (List.mem_filter.mpr ⟨hbefore, hpool⟩)
    (List.mem_filter.mpr ⟨hback, hself⟩)

end MatchmakingPool

open MatchmakingPool

/-! ## First in, first out -/

/-- In every tick of every reachable pool each pool key comes to its turn with those the sweep
spared and behind them those who just came back, all alive; the earliest of them, an even number,
are paired two by two, and the one left over can meet a bot once its delay is over. Whoever comes
back from a dropped match goes before those enqueued later and behind everyone else. -/
theorem fifo_pairing {deps : MatchmakingPoolDeps W} (handsBack : HandsBack deps)
    (freshIds : Function.Injective deps.newMatchId) {s : PoolState W} (h : Reachable deps s) :
    (∀ before key after, poolKeys = before ++ key :: after → ∃ swept turn back ordered,
      TurnOf deps s before key after swept turn ∧
      swept.store.participants =
        s.store.participants.filter (fun p => deps.isAlive s.world p (deps.now s.reads)) ∧
      turn.store.all key.1 key.2 = swept.store.all key.1 key.2 ++ back ∧
      (∀ p ∈ back, FoundAlive deps s.world (deps.now s.reads) p) ∧
      FifoWithFallback (turn.store.all key.1 key.2) ordered (deps.now s.reads)
        (formedAt deps (deps.now s.reads) key turn)) ∧
    ∀ m leaving store, .abandoned m leaving store ∈ s.log →
      ∀ p ∈ m.participants, p ∉ leaving → p ∈ store ∧ ∀ q ∈ store, q ∉ m.participants →
        InMemoryPoolStore.inPool p.format p.mode q = true →
        (Precedes Participant.enqueuedAt
          (store.filter (InMemoryPoolStore.inPool p.format p.mode)) p q ↔
            p.enqueuedAt < q.enqueuedAt) ∧
        (Precedes Participant.enqueuedAt
          (store.filter (InMemoryPoolStore.inPool p.format p.mode)) q p ↔
            q.enqueuedAt ≤ p.enqueuedAt) := by
  have hsound := (reachable_invariant handsBack freshIds h).1
  have hput := reachable_putBack handsBack freshIds h
  constructor
  · intro before key after hkeys
    obtain ⟨swept, turn, back, hturn, hsturn, hswept, hall, halive⟩ :=
      tick_turn handsBack freshIds hsound hkeys
    obtain ⟨ordered, hfifo⟩ := formedAt_fifo hsturn key (deps.now s.reads)
    exact ⟨swept, turn, back, ordered, hturn, hswept, hall, halive, hfifo⟩
  · intro m leaving store he p hp hstays
    obtain ⟨_, before, hstore⟩ := hput m leaving store he
    constructor
    · rw [hstore]
      exact List.mem_append_right _ (List.mem_filter.mpr ⟨hp, decide_eq_true hstays⟩)
    · exact fun q hq hother hpool => hput.order he hp hstays hq hother hpool

/-- Three visitors of the same moment, the first of whom answers proposals. -/
def waitingThree : List PoolRequest :=
  [.add (visitor 2 "carol" none), .add (visitor 1 "bob" none), .add (visitor 0 "alice" (some true))]

/-- The tick pairs the first two, and the second leaves. -/
def requeuedAlice : List PoolRequest := .dequeueBySocketId "bob" :: .tick :: waitingThree

theorem waitingThree_reachable : Reachable openPool (afterRequests waitingThree) := by
  refine afterRequests_reachable (afterRequests_reachable (afterRequests_reachable
    (.initial ()) ?_) ?_) ?_
  · exact ⟨by decide +kernel, by decide +kernel⟩
  · exact ⟨by decide +kernel, by decide +kernel⟩
  · exact ⟨by decide +kernel, by decide +kernel⟩

theorem requeuedAlice_reachable : Reachable openPool (afterRequests requeuedAlice) :=
  afterRequests_reachable (afterRequests_reachable waitingThree_reachable trivial) trivial

/-- The match the tick made of the first two. -/
def droppedMatch : Match where
  id := openPool.newMatchId 0
  participants := [visitor 0 "alice" (some true), visitor 1 "bob" none]
  format := .tcg
  mode := .ranked
  rated := true
  opponentKind := .human

theorem fifo_pairing_requeued :
    (∃ swept turn back ordered,
      TurnOf openPool (afterRequests requeuedAlice) [] (.tcg, .ranked)
        [(.jtp, .ranked), (.edison, .ranked)] swept turn ∧
      turn.store.all .tcg .ranked = swept.store.all .tcg .ranked ++ back ∧
      FifoWithFallback (turn.store.all .tcg .ranked) ordered
        (openPool.now (afterRequests requeuedAlice).reads)
        (formedAt openPool (openPool.now (afterRequests requeuedAlice).reads) (.tcg, .ranked)
          turn)) ∧
      .abandoned droppedMatch [visitor 1 "bob" none]
          [visitor 2 "carol" none, visitor 0 "alice" (some true)] ∈
        (afterRequests requeuedAlice).log ∧
      Precedes Participant.enqueuedAt
        ([visitor 2 "carol" none, visitor 0 "alice" (some true)].filter
          (InMemoryPoolStore.inPool .tcg .ranked))
        (visitor 2 "carol" none) (visitor 0 "alice" (some true)) := by
  obtain ⟨hturns, hback⟩ :=
    fifo_pairing openPool_handsBack openPool_freshIds requeuedAlice_reachable
  have hdropped : .abandoned droppedMatch [visitor 1 "bob" none]
        [visitor 2 "carol" none, visitor 0 "alice" (some true)] ∈
      (afterRequests requeuedAlice).log := by
    decide +kernel
  refine ⟨?_, hdropped, ?_⟩
  · obtain ⟨swept, turn, back, ordered, hturn, _, hall, _, hfifo⟩ :=
      hturns [] (.tcg, .ranked) [(.jtp, .ranked), (.edison, .ranked)] rfl
    exact ⟨swept, turn, back, ordered, hturn, hall, hfifo⟩
  · obtain ⟨_, horder⟩ := hback droppedMatch _ _ hdropped (visitor 0 "alice" (some true))
      (by decide) (by decide)
    exact (horder (visitor 2 "carol" none) (by decide) (by decide) rfl).2.mpr (Int.le_refl 0)

/-- The requeued visitor has lost its place to one who came at the same moment. -/
theorem fifo_place_lost :
    Reachable openPool (afterRequests waitingThree) ∧
      Reachable openPool (afterRequests requeuedAlice) ∧
      Precedes Participant.enqueuedAt ((afterRequests waitingThree).store.all .tcg .ranked)
        (visitor 0 "alice" (some true)) (visitor 2 "carol" none) ∧
      .abandoned droppedMatch [visitor 1 "bob" none]
          [visitor 2 "carol" none, visitor 0 "alice" (some true)] ∈
        (afterRequests requeuedAlice).log ∧
      ¬ Precedes Participant.enqueuedAt ((afterRequests requeuedAlice).store.all .tcg .ranked)
        (visitor 0 "alice" (some true)) (visitor 2 "carol" none) := by
  refine ⟨waitingThree_reachable, requeuedAlice_reachable, ?_, by decide +kernel, ?_⟩
  · exact Or.inr ⟨rfl, by decide +kernel⟩
  · unfold Precedes
    decide +kernel

end EdoproServer.Matchmaking
