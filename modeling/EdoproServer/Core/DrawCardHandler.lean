import EdoproServer.Core.DuelMessages

namespace EdoproServer.Core
open Lib

namespace DrawCardHandler
open Walk (advance retreat readUInt8 readUInt32 writeUInt32 times)

/-! ## The handler, in the buffer of the message -/

def readLocInfo : Walk LocInfo := do
  let con ← readUInt8
  let loc ← readUInt8
  let seq ← readUInt32
  let pos ← readUInt32
  return { con := con, loc := loc, seq := seq, pos := pos }

def IsLocInfoPublic (info : LocInfo) : Bool :=
  if info.loc &&& (LOCATION_GRAVE ||| LOCATION_OVERLAY) ≠ 0 ∧
      info.loc &&& (LOCATION_DECK ||| LOCATION_HAND) = 0 then true
  else if info.pos &&& POS_FACEDOWN = 0 then true
  else false

def ClearLocInfoArray (count : UInt32) (team : UInt8) : Walk PUnit :=
  times count.toNat do
    advance 4
    let info ← readLocInfo
    if team ≠ info.con then do
      retreat (LocInfo.SIZE + 4)
      writeUInt32 0
      advance LocInfo.SIZE
    else pure ⟨⟩

def clearNonFaceUpPositions (count : UInt32) : Walk PUnit :=
  times count.toNat do
    advance 4
    let pos ← readUInt32
    if pos &&& POS_FACEUP = 0 then do
      retreat (4 + 4)
      writeUInt32 0
      advance 4
    else pure ⟨⟩

/-- The code of a card that may be tributed, and its controller. -/
def clearTribute (team : UInt8) : Walk PUnit := do
  advance 4
  let con ← readUInt8
  if team ≠ con then do
    retreat (4 + 1)
    writeUInt32 0
    advance 1
  else pure ⟨⟩

def clearTributes (count : UInt32) (team : UInt8) : Walk PUnit :=
  times count.toNat do
    clearTribute team
    advance (1 + 4 + 1)

/-- What is done behind the type. The type itself is never written to, so of the branches on it at
most one is taken. -/
def walk (team type : UInt8) : Walk PUnit :=
  if type = MSG_SET then writeUInt32 0
  else if type = MSG_SHUFFLE_HAND ∨ type = MSG_SHUFFLE_EXTRA then do
    let player ← readUInt8
    if player ≠ team then do
      let count ← readUInt32
      times count.toNat (writeUInt32 0)
    else pure ⟨⟩
  else if type = MSG_DRAW then do
    let player ← readUInt8
    if player = team then pure ⟨⟩
    else do
      let count ← readUInt32
      clearNonFaceUpPositions count
  else if type = MSG_SPSUMMONING then do
    advance 4
    let current ← readLocInfo
    if current.con = team then pure ⟨⟩
    else if current.pos &&& POS_FACEDOWN ≠ 0 then do
      retreat (4 + LocInfo.SIZE)
      writeUInt32 0
    else pure ⟨⟩
  else if type = MSG_MOVE then do
    advance 4
    advance LocInfo.SIZE
    let current ← readLocInfo
    if current.con = team ∨ IsLocInfoPublic current then pure ⟨⟩
    else do
      retreat (4 + LocInfo.SIZE * 2)
      writeUInt32 0
  else if type = MSG_SELECT_CARD then do
    advance (1 + 1 + 4 + 4)
    let count ← readUInt32
    ClearLocInfoArray count team
  else if type = MSG_SELECT_TRIBUTE then do
    advance (1 + 1 + 4 + 4)
    let count ← readUInt32
    clearTributes count team
  else if type = MSG_SELECT_UNSELECT_CARD then do
    advance (1 + 1 + 1 + 4 + 4)
    let count1 ← readUInt32
    ClearLocInfoArray count1 team
    let count2 ← readUInt32
    ClearLocInfoArray count2 team
  else if type = MSG_TAG_SWAP then do
    let player ← readUInt8
    if player = team then pure ⟨⟩
    else do
      advance 4
      let extra ← readUInt32
      advance 4
      let hand ← readUInt32
      advance 4
      clearNonFaceUpPositions (extra + hand)
  else pure ⟨⟩

/-- The message as a team may see it. -/
def handle (team : UInt8) (message : Bytes) : Option Bytes :=
  match message with
  | [] => none
  | type :: body => (walk team type (.start body)).map (fun r => type :: r.2.data)

end DrawCardHandler

/-! ## What a team may see -/

namespace CardMessage

/-- Cards of another player that lie face-down. -/
def hiddenDraw (player team : UInt8) (pos : UInt32) : Bool :=
  player ≠ team && pos &&& POS_FACEUP = 0

def hiddenSummon (team : UInt8) (info : LocInfo) : Bool :=
  info.con ≠ team && info.pos &&& POS_FACEDOWN ≠ 0

def hiddenMove (team : UInt8) (path : Path) : Bool :=
  path.current.con ≠ team && !DrawCardHandler.IsLocInfoPublic path.current

/-- The message with the codes of the cards that are hidden from the team out of sight. A card that
is set is hidden from everybody, and of a choice the cards that somebody else controls. -/
def maskFor (team : UInt8) : CardMessage → CardMessage
  | set _ rest => set 0 rest
  | shuffle extra player cards rest =>
    shuffle extra player (cards.map (Entry.hide fun _ => player ≠ team)) rest
  | draw player cards rest => draw player (cards.map (Entry.hide (hiddenDraw player team))) rest
  | spsummoning card rest => spsummoning (card.hide (hiddenSummon team)) rest
  | move card rest => move (card.hide (hiddenMove team)) rest
  | selectCard choice cards rest =>
    selectCard choice (cards.map (Entry.hide fun info => info.con ≠ team)) rest
  | selectTribute choice cards rest =>
    selectTribute choice (cards.map (Entry.hide fun info => info.con ≠ team)) rest
  | selectUnselect finishable choice select unselect rest =>
    selectUnselect finishable choice (select.map (Entry.hide fun info => info.con ≠ team))
      (unselect.map (Entry.hide fun info => info.con ≠ team)) rest
  | tagSwap player incoming rest =>
    tagSwap player (incoming.map (Entry.hide (hiddenDraw player team))) rest
  | other type body h => other type body h

end CardMessage

/-! ## The handler hides what a team may not see, and nothing else -/

namespace DrawCardHandler
open Walk (advance retreat readUInt8 readUInt32 times)

section Turns

variable {γ : Type} {rd : Walk γ} {w : Bytes} {v : γ} {n : Nat}

theorem moves_readLocInfo (info : LocInfo) :
    Moves readLocInfo ⟨[], writeLocInfo info⟩ ⟨writeLocInfo info, []⟩ info := by
  rw [writeLocInfo, QuerySerializer.insertLocInfo, List.append_assoc, List.append_assoc]
  exact (Moves.readUInt8 info.con).step ((Moves.readUInt8 info.loc).step
    ((Moves.readUInt32 info.seq).step ((Moves.readUInt32 info.pos).bindPure _)))

/-- One turn of a loop over cards: what was read tells whether the code is written over. -/
theorem moves_turn (code : UInt32) (P : γ → Prop) [DecidablePred P] (hr : Moves rd ⟨[], w⟩ ⟨w, []⟩ v)
    (hn : w.length = n) {k : Nat} (hk : k = 4 + n) :
    Moves (do
      advance 4
      let info ← rd
      if P info then do
        retreat k
        Walk.writeUInt32 0
        advance n
      else pure ⟨⟩) ⟨[], writeUInt32 code ++ w⟩
      ⟨writeUInt32 (if P v then 0 else code) ++ w, []⟩ ⟨⟩ := by
  have hcode := (Moves.advance (length_writeUInt32 code)).after [] w
  have hread := hr.after (writeUInt32 code) []
  rw [List.append_nil] at hread
  refine hcode.bind (hread.bind ?_)
  by_cases hP : P v
  · rw [if_pos hP, if_pos hP]
    have hpatch := Moves.patch code 0 (hk.trans (congrArg (4 + ·) hn.symm))
    have hover := (Moves.advance hn).after (writeUInt32 0) []
    rw [List.append_nil] at hover
    simpa using hpatch.bind hover
  · rw [if_neg hP, if_neg hP]
    exact .pure PUnit.unit _

end Turns

/-! ### The loops -/

variable {count : UInt32} {team player : UInt8}

theorem clearLocInfoArray_moves {cards : List (Entry LocInfo)}
    (hcount : count.toNat = cards.length) (team : UInt8) :
    Moves (ClearLocInfoArray count team) ⟨[], cards.flatMap (Entry.encode writeLocInfo)⟩
      ⟨(cards.map (Entry.hide fun info => info.con ≠ team)).flatMap (Entry.encode writeLocInfo), []⟩
      ⟨⟩ := by
  rw [ClearLocInfoArray, hcount, List.flatMap_map]
  refine Moves.times fun card _ => ?_
  have hturn := moves_turn card.code (fun info => team ≠ info.con)
    (moves_readLocInfo card.info) (QuerySerializer.length_insertLocInfo card.info) (Nat.add_comm _ 4)
  rw [Entry.encode_hide]
  simpa [Entry.encode, ne_comm] using hturn

theorem clearNonFaceUpPositions_moves {cards : List (Entry UInt32)}
    (hcount : count.toNat = cards.length) :
    Moves (clearNonFaceUpPositions count) ⟨[], cards.flatMap (Entry.encode writeUInt32)⟩
      ⟨(cards.map (Entry.hide fun pos => pos &&& POS_FACEUP = 0)).flatMap
        (Entry.encode writeUInt32), []⟩ ⟨⟩ := by
  rw [clearNonFaceUpPositions, hcount, List.flatMap_map]
  refine Moves.times fun card _ => ?_
  have hturn := moves_turn card.code (fun pos => pos &&& POS_FACEUP = 0)
    (Moves.readUInt32 card.info) (length_writeUInt32 card.info) rfl
  rw [Entry.encode_hide]
  simpa [Entry.encode] using hturn

theorem clearTributes_moves {cards : List (Entry Tribute)}
    (hcount : count.toNat = cards.length) (team : UInt8) :
    Moves (clearTributes count team) ⟨[], cards.flatMap (Entry.encode Tribute.encode)⟩
      ⟨(cards.map (Entry.hide fun info => info.con ≠ team)).flatMap
        (Entry.encode Tribute.encode), []⟩ ⟨⟩ := by
  rw [clearTributes, hcount, List.flatMap_map]
  refine Moves.times fun card _ => ?_
  have hturn := moves_turn card.code (fun con => team ≠ con)
    (Moves.readUInt8 card.info.con) (length_writeUInt8 card.info.con) rfl
  have hover : Moves (advance (1 + 4 + 1)) ⟨[], writeUInt8 card.info.loc ++
      writeUInt32 card.info.seq ++ writeUInt8 card.info.releaseParam⟩ ⟨writeUInt8 card.info.loc ++
      writeUInt32 card.info.seq ++ writeUInt8 card.info.releaseParam, []⟩ ⟨⟩ :=
    Moves.advance (by simp)
  have hboth : Moves (do clearTribute team; advance (1 + 4 + 1)) _ _ ⟨⟩ :=
    hturn.step (f := fun _ => advance (1 + 4 + 1)) hover
  rw [Entry.encode_hide]
  simpa [Entry.encode, Tribute.encode, ne_comm] using hboth

/-! ### The kinds of messages -/

theorem count_loop_leaves {β : Type} {write : β → Bytes} {cards : Counted (Entry β)}
    {hidden : β → Bool} (loop : UInt32 → Walk PUnit) (rest : Bytes)
    (h : Moves (loop cards.count) ⟨[], cards.val.flatMap (Entry.encode write)⟩
      ⟨(cards.val.map (Entry.hide hidden)).flatMap (Entry.encode write), []⟩ ⟨⟩) :
    Leaves (do let count ← readUInt32; loop count)
      (cards.encode (Entry.encode write) ++ rest)
      ((cards.map (Entry.hide hidden)).encode (Entry.encode write) ++ rest) := by
  refine Leaves.before ?_ rest
  rw [Counted.encode, Counted.encode, Counted.count_map]
  exact Leaves.step (Moves.readUInt32 cards.count) (.of_end h)

/-- A message about another player's cards, or about one's own, which stays as it is. -/
theorem player_leaves {x : Walk PUnit} {w w' : Bytes} (own : player = team → w' = w)
    (h : player ≠ team → Leaves x w w') :
    Leaves (do let p ← readUInt8; if p = team then pure ⟨⟩ else x)
      (writeUInt8 player ++ w) (writeUInt8 player ++ w') := by
  refine Leaves.step (Moves.readUInt8 player) ?_
  by_cases hplayer : player = team
  · rw [if_pos hplayer, own hplayer]
    exact .skip w
  · rw [if_neg hplayer]
    exact h hplayer

theorem shuffle_leaves (extra : Bool) (team player : UInt8) (cards : Counted (Entry Unit))
    (rest : Bytes) :
    Leaves (walk team (if extra then MSG_SHUFFLE_EXTRA else MSG_SHUFFLE_HAND))
      (writeUInt8 player ++ (cards.encode (Entry.encode fun _ => []) ++ rest))
      (writeUInt8 player ++ ((cards.map (Entry.hide fun _ => player ≠ team)).encode
        (Entry.encode fun _ => []) ++ rest)) := by
  have hwalk : walk team (if extra then MSG_SHUFFLE_EXTRA else MSG_SHUFFLE_HAND) = (do
      let p ← readUInt8
      if p = team then pure ⟨⟩
      else do
        let count ← readUInt32
        times count.toNat (Walk.writeUInt32 0)) := by
    cases extra <;> simp +decide only [walk, if_true, if_false, ne_eq, ite_not]
  rw [hwalk]
  refine player_leaves (fun own => ?_) (fun hplayer => ?_)
  · rw [Counted.map_hide_of_not _ (fun _ => by simp [own])]
  · refine count_loop_leaves (fun count => times count.toNat (Walk.writeUInt32 0)) rest ?_
    rw [Counted.count_toNat, List.flatMap_map]
    refine Moves.times fun card _ => ?_
    have hzero := Moves.overwriteUInt32 card.code 0
    simpa [Entry.encode, Entry.hide, hplayer] using hzero

theorem draw_leaves (team player : UInt8) (cards : Counted (Entry UInt32)) (rest : Bytes) :
    Leaves (walk team MSG_DRAW)
      (writeUInt8 player ++ (cards.encode (Entry.encode writeUInt32) ++ rest))
      (writeUInt8 player ++ ((cards.map (Entry.hide (CardMessage.hiddenDraw player team))).encode
        (Entry.encode writeUInt32) ++ rest)) := by
  refine player_leaves (fun own => ?_) (fun hplayer => ?_)
  · rw [Counted.map_hide_of_not _ (fun _ => by simp [CardMessage.hiddenDraw, own])]
  · have hloop := clearNonFaceUpPositions_moves cards.count_toNat
    have hhidden : CardMessage.hiddenDraw player team = fun pos => pos &&& POS_FACEUP = 0 := by
      funext pos
      simp [CardMessage.hiddenDraw, hplayer]
    rw [hhidden]
    exact count_loop_leaves _ rest hloop

theorem set_leaves (team : UInt8) (code : UInt32) (rest : Bytes) :
    Leaves (walk team MSG_SET) (writeUInt32 code ++ rest) (writeUInt32 0 ++ rest) :=
  Leaves.before (.of_end (Moves.overwriteUInt32 code 0)) rest

/-- A message about one card: what was read of it tells whether the code is written over. -/
theorem card_leaves {γ : Type} {pre : Walk γ} {f : γ → Walk PUnit} {code : UInt32} {w : Bytes}
    {v : γ} {hidden : Bool} {k : Nat}
    (hpre : Moves pre ⟨[], writeUInt32 code ++ w⟩ ⟨writeUInt32 code ++ w, []⟩ v)
    (hk : k = 4 + w.length)
    (hf : f v = if hidden then do
      retreat k
      Walk.writeUInt32 0
    else pure ⟨⟩) :
    Leaves (pre >>= f) (writeUInt32 code ++ w)
      (writeUInt32 (if hidden then 0 else code) ++ w) := by
  cases hidden with
  | false =>
    refine Leaves.of_end (hpre.bind ?_)
    rw [hf]
    exact .pure PUnit.unit _
  | true =>
    refine Leaves.of_moves (hpre.bind (c := ⟨writeUInt32 0, w⟩) ?_) rfl
    rw [hf]
    exact .patch _ 0 hk

theorem spsummoning_leaves (team : UInt8) (card : Entry LocInfo) (rest : Bytes) :
    Leaves (walk team MSG_SPSUMMONING) (card.encode writeLocInfo ++ rest)
      ((card.hide (CardMessage.hiddenSummon team)).encode writeLocInfo ++ rest) := by
  refine Leaves.before ?_ rest
  simp +decide only [walk, if_true, if_false]
  rw [Entry.encode_hide, Entry.encode, ← bind_assoc]
  refine card_leaves (v := card.info) ?_ (k := 4 + LocInfo.SIZE) ?_ ?_
  · exact (Moves.advance (length_writeUInt32 card.code)).step (moves_readLocInfo card.info)
  · rw [writeLocInfo, QuerySerializer.length_insertLocInfo]
  · by_cases hown : card.info.con = team
    · simp [CardMessage.hiddenSummon, hown]
    · simp [CardMessage.hiddenSummon, hown]

theorem move_leaves (team : UInt8) (card : Entry Path) (rest : Bytes) :
    Leaves (walk team MSG_MOVE) (card.encode Path.encode ++ rest)
      ((card.hide (CardMessage.hiddenMove team)).encode Path.encode ++ rest) := by
  refine Leaves.before ?_ rest
  simp +decide only [walk, if_true, if_false]
  rw [Entry.encode_hide, Entry.encode, ← bind_assoc, ← bind_assoc]
  refine card_leaves (v := card.info.current) ?_ (k := 4 + LocInfo.SIZE * 2) ?_ ?_
  · rw [bind_assoc]
    exact (Moves.advance (length_writeUInt32 card.code)).step
      ((Moves.advance (QuerySerializer.length_insertLocInfo card.info.previous)).step
        (moves_readLocInfo card.info.current))
  · rw [Path.encode, writeLocInfo, writeLocInfo, List.length_append,
      QuerySerializer.length_insertLocInfo, QuerySerializer.length_insertLocInfo, Nat.mul_two]
  · by_cases hown : card.info.current.con = team
    · simp [CardMessage.hiddenMove, hown]
    · by_cases hpublic : IsLocInfoPublic card.info.current = true
      · simp [CardMessage.hiddenMove, hpublic]
      · simp [CardMessage.hiddenMove, hown, hpublic]

theorem selectCard_leaves (team : UInt8) (choice : Choice) (cards : Counted (Entry LocInfo))
    (rest : Bytes) :
    Leaves (walk team MSG_SELECT_CARD)
      (choice.encode ++ (cards.encode (Entry.encode writeLocInfo) ++ rest))
      (choice.encode ++ ((cards.map (Entry.hide fun info => info.con ≠ team)).encode
        (Entry.encode writeLocInfo) ++ rest)) :=
  Leaves.step (Moves.advance (by simp [Choice.encode]))
    (count_loop_leaves _ rest (clearLocInfoArray_moves cards.count_toNat team))

theorem selectTribute_leaves (team : UInt8) (choice : Choice) (cards : Counted (Entry Tribute))
    (rest : Bytes) :
    Leaves (walk team MSG_SELECT_TRIBUTE)
      (choice.encode ++ (cards.encode (Entry.encode Tribute.encode) ++ rest))
      (choice.encode ++ ((cards.map (Entry.hide fun info => info.con ≠ team)).encode
        (Entry.encode Tribute.encode) ++ rest)) :=
  Leaves.step (Moves.advance (by simp [Choice.encode]))
    (count_loop_leaves _ rest (clearTributes_moves cards.count_toNat team))

theorem selectUnselect_leaves (team finishable : UInt8) (choice : Choice)
    (select unselect : Counted (Entry LocInfo)) (rest : Bytes) :
    Leaves (walk team MSG_SELECT_UNSELECT_CARD)
      (choice.encodeUnselect finishable ++ (select.encode (Entry.encode writeLocInfo) ++
        (unselect.encode (Entry.encode writeLocInfo) ++ rest)))
      (choice.encodeUnselect finishable ++
        ((select.map (Entry.hide fun info => info.con ≠ team)).encode (Entry.encode writeLocInfo) ++
          ((unselect.map (Entry.hide fun info => info.con ≠ team)).encode
            (Entry.encode writeLocInfo) ++ rest))) := by
  refine Leaves.step (Moves.advance (by simp [Choice.encodeUnselect])) ?_
  have hsecond := count_loop_leaves (fun count2 => ClearLocInfoArray count2 team) rest
    (clearLocInfoArray_moves unselect.count_toNat team)
  have hfirst := clearLocInfoArray_moves select.count_toNat team
  have hboth := Leaves.step (Moves.readUInt32 select.count)
    (f := fun count1 => do
      ClearLocInfoArray count1 team
      let count2 ← readUInt32
      ClearLocInfoArray count2 team)
    (Leaves.step hfirst (f := fun _ => do
      let count2 ← readUInt32
      ClearLocInfoArray count2 team) hsecond)
  simpa [Counted.encode, List.append_assoc] using hboth

theorem tagSwap_leaves (team player : UInt8) (incoming : Incoming) (rest : Bytes) :
    Leaves (walk team MSG_TAG_SWAP) (writeUInt8 player ++ (incoming.encode ++ rest))
      (writeUInt8 player ++
        ((incoming.map (Entry.hide (CardMessage.hiddenDraw player team))).encode ++ rest)) := by
  refine player_leaves (fun own => ?_) (fun hplayer => ?_)
  · rw [Incoming.map_hide_of_not _ (fun _ => by simp [CardMessage.hiddenDraw, own])]
  · have hhidden : CardMessage.hiddenDraw player team = fun pos => pos &&& POS_FACEUP = 0 := by
      funext pos
      simp [CardMessage.hiddenDraw, hplayer]
    have hfits := incoming.fits
    have hcount : (UInt32.ofNat incoming.extra.length + UInt32.ofNat incoming.hand.length).toNat =
        (incoming.extra ++ incoming.hand).length := by
      rw [UInt32.toNat_add, UInt32.toNat_ofNat_of_lt' (by omega : _ < 2 ^ 32),
        UInt32.toNat_ofNat_of_lt' (by omega : _ < 2 ^ 32), List.length_append]
      exact Nat.mod_eq_of_lt hfits
    have hcards := clearNonFaceUpPositions_moves hcount
    rw [List.map_append] at hcards
    refine Leaves.before ?_ rest
    rw [hhidden, Incoming.encode, Incoming.encode]
    simp only [Incoming.map, List.length_map]
    exact Leaves.step (Moves.advance (length_writeUInt32 _)) (Leaves.step (Moves.readUInt32 _)
      (Leaves.step (Moves.advance (length_writeUInt32 _)) (Leaves.step (Moves.readUInt32 _)
        (Leaves.step (Moves.advance (length_writeUInt32 _)) (.of_end hcards)))))

theorem other_leaves (team : UInt8) {type : UInt8} (h : type ∉ strippedTypes) (body : Bytes) :
    Leaves (walk team type) body body := by
  obtain ⟨hset, hshuffle, hdraw, hsummoning, hmove, hcard, htribute, hunselect, hswap⟩ :=
    notMem_strippedTypes.mp h
  rw [walk, if_neg hset, if_neg hshuffle, if_neg hdraw, if_neg hsummoning, if_neg hmove,
    if_neg hcard, if_neg htribute, if_neg hunselect, if_neg hswap]
  exact .skip body

theorem maskFor_type (message : CardMessage) (team : UInt8) :
    (message.maskFor team).type = message.type := by
  cases message <;> rfl

theorem walk_leaves (message : CardMessage) (team : UInt8) :
    Leaves (walk team message.type) message.body (message.maskFor team).body := by
  cases message with
  | set code rest => exact set_leaves team code rest
  | shuffle extra player cards rest => exact shuffle_leaves extra team player cards rest
  | draw player cards rest => exact draw_leaves team player cards rest
  | spsummoning card rest => exact spsummoning_leaves team card rest
  | move card rest => exact move_leaves team card rest
  | selectCard choice cards rest => exact selectCard_leaves team choice cards rest
  | selectTribute choice cards rest => exact selectTribute_leaves team choice cards rest
  | selectUnselect finishable choice select unselect rest =>
    exact selectUnselect_leaves team finishable choice select unselect rest
  | tagSwap player incoming rest => exact tagSwap_leaves team player incoming rest
  | other type body h => exact other_leaves team h body

/-- The handler never leaves the buffer of a message the engine wrote, and what it writes into it
masks the message. -/
theorem handle_encode (message : CardMessage) (team : UInt8) :
    handle team message.encode = some (message.maskFor team).encode := by
  have hleaves := (walk_leaves message team).data
  rw [CardMessage.encode, CardMessage.encode, maskFor_type, handle]
  rw [Option.map_eq_some_iff] at hleaves ⊢
  obtain ⟨r, hr, hdata⟩ := hleaves
  exact ⟨r, hr, congrArg (message.type :: ·) hdata⟩

end DrawCardHandler

/-! ## Messages that a team may not tell apart -/

namespace Entry

variable {β : Type} {hidden : β → Bool}

/-- The same card but for its code, where that is hidden. -/
def SameBut (hidden : β → Bool) (card card' : Entry β) : Prop :=
  card.info = card'.info ∧ (hidden card.info = false → card.code = card'.code)

theorem hide_eq_iff {card card' : Entry β} :
    card.hide hidden = card'.hide hidden ↔ SameBut hidden card card' := by
  obtain ⟨code, info⟩ := card
  obtain ⟨code', info'⟩ := card'
  constructor
  · intro h
    have hinfo : info = info' := by
      have hinfos := congrArg Entry.info h
      rwa [hide_info, hide_info] at hinfos
    subst hinfo
    refine ⟨rfl, fun hshown => ?_⟩
    have hcodes := congrArg Entry.code h
    dsimp only at hshown
    simpa [hide, hshown] using hcodes
  · intro h
    obtain ⟨hinfo, hcode⟩ := h
    dsimp only at hinfo hcode
    subst hinfo
    cases hshown : hidden info with
    | false => rw [hcode hshown]
    | true => simp [hide, hshown]

end Entry

/-- The same cards but for the codes that are hidden. -/
def Counted.SameBut {β : Type} (hidden : β → Bool) (cards cards' : Counted (Entry β)) : Prop :=
  List.Forall₂ (Entry.SameBut hidden) cards.val cards'.val

theorem map_hide_eq_iff {β : Type} {hidden : β → Bool} {cards cards' : List (Entry β)} :
    cards.map (Entry.hide hidden) = cards'.map (Entry.hide hidden) ↔
      List.Forall₂ (Entry.SameBut hidden) cards cards' := by
  rw [← List.forall₂_eq_eq_eq, List.forall₂_map_left_iff, List.forall₂_map_right_iff]
  simp only [Entry.hide_eq_iff]

theorem Counted.hide_eq_iff {β : Type} {hidden : β → Bool} {cards cards' : Counted (Entry β)} :
    cards.map (Entry.hide hidden) = cards'.map (Entry.hide hidden) ↔
      Counted.SameBut hidden cards cards' := by
  rw [Subtype.ext_iff, Counted.map_val, Counted.map_val, map_hide_eq_iff]
  rfl

namespace CardMessage

/-- The messages are equal but for the codes of cards the team may not see: all codes where a card
is set, where another player's hand or extra deck is shuffled, or where another player's card is
drawn, summoned or moved face-down out of everybody's sight, and the codes of cards that somebody
else controls where the team chooses. -/
def SameFor (team : UInt8) : CardMessage → CardMessage → Prop
  | set _ rest, set _ rest' => rest = rest'
  | shuffle extra player cards rest, shuffle extra' player' cards' rest' =>
    extra = extra' ∧ player = player' ∧ Counted.SameBut (fun _ => player ≠ team) cards cards' ∧
      rest = rest'
  | draw player cards rest, draw player' cards' rest' =>
    player = player' ∧ Counted.SameBut (hiddenDraw player team) cards cards' ∧ rest = rest'
  | spsummoning card rest, spsummoning card' rest' =>
    Entry.SameBut (hiddenSummon team) card card' ∧ rest = rest'
  | move card rest, move card' rest' => Entry.SameBut (hiddenMove team) card card' ∧ rest = rest'
  | selectCard choice cards rest, selectCard choice' cards' rest' =>
    choice = choice' ∧ Counted.SameBut (fun info => info.con ≠ team) cards cards' ∧ rest = rest'
  | selectTribute choice cards rest, selectTribute choice' cards' rest' =>
    choice = choice' ∧ Counted.SameBut (fun info => info.con ≠ team) cards cards' ∧ rest = rest'
  | selectUnselect finishable choice select unselect rest,
      selectUnselect finishable' choice' select' unselect' rest' =>
    finishable = finishable' ∧ choice = choice' ∧
      Counted.SameBut (fun info => info.con ≠ team) select select' ∧
      Counted.SameBut (fun info => info.con ≠ team) unselect unselect' ∧ rest = rest'
  | tagSwap player incoming rest, tagSwap player' incoming' rest' =>
    player = player' ∧ incoming.deck = incoming'.deck ∧ incoming.faceUp = incoming'.faceUp ∧
      incoming.top = incoming'.top ∧
      List.Forall₂ (Entry.SameBut (hiddenDraw player team)) incoming.extra incoming'.extra ∧
      List.Forall₂ (Entry.SameBut (hiddenDraw player team)) incoming.hand incoming'.hand ∧
      rest = rest'
  | other type body _, other type' body' _ => type = type' ∧ body = body'
  | _, _ => False

theorem incoming_hide_eq_iff {hidden : UInt32 → Bool} {incoming incoming' : Incoming} :
    incoming.map (Entry.hide hidden) = incoming'.map (Entry.hide hidden) ↔
      incoming.deck = incoming'.deck ∧ incoming.faceUp = incoming'.faceUp ∧
        incoming.top = incoming'.top ∧
        List.Forall₂ (Entry.SameBut hidden) incoming.extra incoming'.extra ∧
        List.Forall₂ (Entry.SameBut hidden) incoming.hand incoming'.hand := by
  rw [← map_hide_eq_iff, ← map_hide_eq_iff]
  simp only [Incoming.map, Incoming.mk.injEq]
  tauto

theorem maskFor_eq_iff {team : UInt8} {message message' : CardMessage} :
    message.maskFor team = message'.maskFor team ↔ SameFor team message message' := by
  cases message with
  | set code rest => cases message' <;> simp [maskFor, SameFor]
  | shuffle extra player cards rest =>
    cases message' with
    | shuffle extra' player' cards' rest' =>
      rw [maskFor, maskFor, shuffle.injEq, SameFor]
      refine and_congr_right fun _ => and_congr_right fun hplayer => and_congr_left fun _ => ?_
      rw [← hplayer]
      exact Counted.hide_eq_iff
    | _ => simp [maskFor, SameFor]
  | draw player cards rest =>
    cases message' with
    | draw player' cards' rest' =>
      rw [maskFor, maskFor, draw.injEq, SameFor]
      refine and_congr_right fun hplayer => and_congr_left fun _ => ?_
      rw [← hplayer]
      exact Counted.hide_eq_iff
    | _ => simp [maskFor, SameFor]
  | spsummoning card rest =>
    cases message' with
    | spsummoning card' rest' =>
      rw [maskFor, maskFor, spsummoning.injEq, SameFor, Entry.hide_eq_iff]
    | _ => simp [maskFor, SameFor]
  | move card rest =>
    cases message' with
    | move card' rest' => rw [maskFor, maskFor, move.injEq, SameFor, Entry.hide_eq_iff]
    | _ => simp [maskFor, SameFor]
  | selectCard choice cards rest =>
    cases message' with
    | selectCard choice' cards' rest' =>
      rw [maskFor, maskFor, selectCard.injEq, SameFor, Counted.hide_eq_iff]
    | _ => simp [maskFor, SameFor]
  | selectTribute choice cards rest =>
    cases message' with
    | selectTribute choice' cards' rest' =>
      rw [maskFor, maskFor, selectTribute.injEq, SameFor, Counted.hide_eq_iff]
    | _ => simp [maskFor, SameFor]
  | selectUnselect finishable choice select unselect rest =>
    cases message' with
    | selectUnselect finishable' choice' select' unselect' rest' =>
      rw [maskFor, maskFor, selectUnselect.injEq, SameFor, Counted.hide_eq_iff, Counted.hide_eq_iff]
    | _ => simp [maskFor, SameFor]
  | tagSwap player incoming rest =>
    cases message' with
    | tagSwap player' incoming' rest' =>
      rw [maskFor, maskFor, tagSwap.injEq, SameFor]
      refine and_congr_right fun hplayer => ?_
      rw [← hplayer, incoming_hide_eq_iff]
      simp only [and_assoc]
    | _ => simp [maskFor, SameFor]
  | other type body h => cases message' <;> simp [maskFor, SameFor]

end CardMessage

end EdoproServer.Core
