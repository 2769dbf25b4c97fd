import EdoproServer.Core.Query

namespace EdoproServer.Core
open Lib

namespace QueryFlag

/-- The flags whose fields are public only where the whole card is. -/
def isPrivate : QueryFlag → Bool
  | QUERY_CODE => true
  | QUERY_ALIAS => true
  | QUERY_TYPE => true
  | QUERY_LEVEL => true
  | QUERY_RANK => true
  | QUERY_ATTRIBUTE => true
  | QUERY_RACE => true
  | QUERY_ATTACK => true
  | QUERY_DEFENSE => true
  | QUERY_BASE_ATTACK => true
  | QUERY_BASE_DEFENSE => true
  | QUERY_STATUS => true
  | QUERY_LSCALE => true
  | QUERY_RSCALE => true
  | QUERY_LINK => true
  | _ => false

end QueryFlag

namespace QuerySerializer

section Fields

variable (query : Query)

/-- The card is marked public, or it lies face-up. -/
def revealed : Bool :=
  query.flagged .QUERY_IS_PUBLIC && query.isPublic ≠ 0 ||
    query.flagged .QUERY_POSITION && query.pos &&& POS_FACEUP ≠ 0

def IsPublic (flag : QueryFlag) : Bool := revealed query || !flag.isPrivate

/-- The card is marked hidden. -/
def hidden : Bool := query.flagged .QUERY_IS_HIDDEN && query.isHidden ≠ 0

def ComputeQuerySize : QueryFlag → Nat
  | .QUERY_OWNER | .QUERY_IS_PUBLIC | .QUERY_IS_HIDDEN => 1
  | .QUERY_CODE | .QUERY_POSITION | .QUERY_ALIAS | .QUERY_TYPE | .QUERY_LEVEL | .QUERY_RANK
  | .QUERY_ATTRIBUTE | .QUERY_ATTACK | .QUERY_DEFENSE | .QUERY_BASE_ATTACK | .QUERY_BASE_DEFENSE
  | .QUERY_REASON | .QUERY_STATUS | .QUERY_LSCALE | .QUERY_RSCALE | .QUERY_COVER => 4
  | .QUERY_RACE => 8
  | .QUERY_REASON_CARD | .QUERY_EQUIP_CARD => LocInfo.SIZE
  | .QUERY_TARGET_CARD => 4 + query.targets.length * LocInfo.sizeof
  | .QUERY_OVERLAY_CARD => 4 + query.overlays.length * 4
  | .QUERY_COUNTERS => 4 + query.counters.length * 4
  | .QUERY_LINK => 4 + 4
  | .QUERY_END | .unnamed _ => 0

/-- One turn of the loop that adds up the sizes. -/
def sizeTurn (isPublic : Bool) (flag : QueryFlag) : Nat :=
  if !query.flagged flag then 0
  else if flag = .QUERY_REASON_CARD ∧ query.reasonCard.loc = 0 then 0
  else if flag = .QUERY_EQUIP_CARD ∧ query.equipCard.loc = 0 then 0
  else if hidden query ∧ !IsPublic query flag then 0
  else if isPublic ∧ !IsPublic query flag then 0
  else 2 + 4 + ComputeQuerySize query flag

def totalQuerySize (isPublic : Bool) : Nat := (QueryFlag.all.map (sizeTurn query isPublic)).sum

def insertLocInfo (value : LocInfo) : Bytes :=
  writeUInt8 value.con ++ writeUInt8 value.loc ++ writeUInt32 value.seq ++ writeUInt32 value.pos

/-- The count of a list goes in two bytes here. -/
def insertList {α : Type} (insert : α → Bytes) (values : List α) : Bytes :=
  littleEndian 2 values.length ++ values.flatMap insert

def insertField : QueryFlag → Bytes
  | .QUERY_CODE => writeUInt32 query.code
  | .QUERY_POSITION => writeUInt32 query.pos
  | .QUERY_ALIAS => writeUInt32 query.alias
  | .QUERY_TYPE => writeUInt32 query.type
  | .QUERY_LEVEL => writeUInt32 query.level
  | .QUERY_RANK => writeUInt32 query.rank
  | .QUERY_ATTRIBUTE => writeUInt32 query.attribute
  | .QUERY_RACE => writeUInt64 query.race
  | .QUERY_ATTACK => writeInt32 query.attack
  | .QUERY_DEFENSE => writeInt32 query.defense
  | .QUERY_BASE_ATTACK => writeInt32 query.bAttack
  | .QUERY_BASE_DEFENSE => writeInt32 query.bDefense
  | .QUERY_REASON => writeUInt32 query.reason
  | .QUERY_OWNER => writeUInt8 query.owner
  | .QUERY_STATUS => writeUInt32 query.status
  | .QUERY_IS_PUBLIC => writeUInt8 query.isPublic
  | .QUERY_LSCALE => writeUInt32 query.lscale
  | .QUERY_RSCALE => writeUInt32 query.rscale
  | .QUERY_REASON_CARD => insertLocInfo query.reasonCard
  | .QUERY_EQUIP_CARD => insertLocInfo query.equipCard
  | .QUERY_IS_HIDDEN => writeUInt8 query.isHidden
  | .QUERY_COVER => writeUInt32 query.cover
  | .QUERY_TARGET_CARD => insertList insertLocInfo query.targets
  | .QUERY_OVERLAY_CARD => insertList writeUInt32 query.overlays
  | .QUERY_COUNTERS => insertList writeUInt32 query.counters
  | .QUERY_LINK => writeUInt32 query.link ++ writeUInt32 query.linkMarker
  | .QUERY_END | .unnamed _ => []

/-- The size and the flag before a field; the size is cut down to two bytes. -/
def insertHeader (flag : QueryFlag) : Bytes :=
  littleEndian 2 (ComputeQuerySize query flag + 4) ++ writeUInt32 flag.mask

/-- One turn of the loop that writes the fields. -/
def writeTurn (isPublic : Bool) (flag : QueryFlag) : Bytes :=
  if !query.flagged flag then []
  else if flag = .QUERY_REASON_CARD ∧ query.reasonCard.loc = 0 then []
  else if flag = .QUERY_EQUIP_CARD ∧ query.equipCard.loc = 0 then []
  else if hidden query ∧ !IsPublic query flag then []
  else if isPublic ∧ !IsPublic query flag then []
  else insertHeader query flag ++ insertField query flag

def written (isPublic : Bool) : Bytes := QueryFlag.all.flatMap (writeTurn query isPublic)

end Fields

/-- The buffer has its size before anything is written to it, and the rest of it stays zero. -/
def serialize (optionalQuery : Option Query) (isPublic : Bool) : Bytes :=
  match optionalQuery with
  | none => [0, 0]
  | some query => BoundedBuffer.data
      { size := totalQuerySize query isPublic, written := written query isPublic }

/-- The total size in four bytes, then the queries. -/
def serializeLocationQuery (queries : List (Option Query)) (isPublic : Bool) : Bytes :=
  let serialized := queries.flatMap (fun query => serialize query isPublic)
  littleEndian 4 serialized.length ++ serialized

/-! ## The fields that are written -/

section Turns

variable {query : Query} {isPublic : Bool} {flag : QueryFlag}

/-- What both loops go past. -/
def skips (query : Query) (isPublic : Bool) (flag : QueryFlag) : Bool :=
  !query.flagged flag || (flag = .QUERY_REASON_CARD && query.reasonCard.loc = 0) ||
    (flag = .QUERY_EQUIP_CARD && query.equipCard.loc = 0) ||
    (hidden query && !IsPublic query flag) || (isPublic && !IsPublic query flag)

/-- The turn of a loop: the tests that go past a flag are one after the other. -/
theorem turn_eq {α : Type} (passed value : α) :
    (if !query.flagged flag then passed
      else if flag = .QUERY_REASON_CARD ∧ query.reasonCard.loc = 0 then passed
      else if flag = .QUERY_EQUIP_CARD ∧ query.equipCard.loc = 0 then passed
      else if hidden query ∧ !IsPublic query flag then passed
      else if isPublic ∧ !IsPublic query flag then passed
      else value) = if skips query isPublic flag then passed else value := by
  unfold skips
  cases hflagged : query.flagged flag with
  | false => simp
  | true =>
    by_cases hreason : flag = .QUERY_REASON_CARD ∧ query.reasonCard.loc = 0
    · simp [hreason]
    · by_cases hequip : flag = .QUERY_EQUIP_CARD ∧ query.equipCard.loc = 0
      · simp [hequip]
      · cases hidden query <;> cases IsPublic query flag <;> cases isPublic <;>
          simp [hreason, hequip]

theorem sizeTurn_eq : sizeTurn query isPublic flag =
    if skips query isPublic flag then 0 else 2 + 4 + ComputeQuerySize query flag :=
  turn_eq _ _

theorem writeTurn_eq : writeTurn query isPublic flag =
    if skips query isPublic flag then []
    else insertHeader query flag ++ insertField query flag :=
  turn_eq _ _

/-- The flags whose fields are serialized, in the order of the loops. -/
def serializedFlags (query : Query) (isPublic : Bool) : List QueryFlag :=
  QueryFlag.all.filter (fun flag => !skips query isPublic flag)

/-- A loop that goes past some of the flags. -/
theorem sum_filter_skips (f : QueryFlag → Nat) (flags : List QueryFlag) :
    (flags.map (fun flag => if skips query isPublic flag then 0 else f flag)).sum =
      ((flags.filter (fun flag => !skips query isPublic flag)).map f).sum := by
  induction flags with
  | nil => rfl
  | cons flag flags ih => cases hskips : skips query isPublic flag <;> simp [hskips, ih]

theorem flatMap_filter_skips (f : QueryFlag → Bytes) (flags : List QueryFlag) :
    flags.flatMap (fun flag => if skips query isPublic flag then [] else f flag) =
      (flags.filter (fun flag => !skips query isPublic flag)).flatMap f := by
  induction flags with
  | nil => rfl
  | cons flag flags ih => cases hskips : skips query isPublic flag <;> simp [hskips, ih]

theorem totalQuerySize_eq (query : Query) (isPublic : Bool) : totalQuerySize query isPublic =
    ((serializedFlags query isPublic).map
      (fun flag => 2 + 4 + ComputeQuerySize query flag)).sum := by
  have hturns : sizeTurn query isPublic = fun flag =>
      if skips query isPublic flag then 0 else 2 + 4 + ComputeQuerySize query flag :=
    funext fun _ => sizeTurn_eq
  rw [totalQuerySize, hturns]
  exact sum_filter_skips _ _

theorem written_eq (query : Query) (isPublic : Bool) : written query isPublic =
    (serializedFlags query isPublic).flatMap
      (fun flag => insertHeader query flag ++ insertField query flag) := by
  have hturns : writeTurn query isPublic = fun flag => if skips query isPublic flag then []
      else insertHeader query flag ++ insertField query flag :=
    funext fun _ => writeTurn_eq
  rw [written, hturns]
  exact flatMap_filter_skips _ _

@[simp] theorem length_insertHeader : (insertHeader query flag).length = 6 := by
  simp [insertHeader]

@[simp] theorem length_insertLocInfo (value : LocInfo) :
    (insertLocInfo value).length = LocInfo.SIZE := by
  simp [insertLocInfo, LocInfo.SIZE]

theorem length_insertList {α : Type} {insert : α → Bytes} {n : Nat}
    (h : ∀ value, (insert value).length = n) (values : List α) :
    (insertList insert values).length = 2 + values.length * n := by
  simp [insertList, List.length_flatMap, h]

/-- No field is longer than it is declared. -/
theorem length_insertField_le : (insertField query flag).length ≤ ComputeQuerySize query flag := by
  cases flag <;> simp only [insertField, ComputeQuerySize, length_insertLocInfo, length_writeUInt8,
    length_writeUInt32, length_writeUInt64, length_writeInt32, List.length_append, List.length_nil,
    length_insertList length_insertLocInfo, length_insertList length_writeUInt32, LocInfo.SIZE,
    LocInfo.sizeof] <;> omega

/-- Nothing is written past the end of the buffer. -/
theorem length_written_le (query : Query) (isPublic : Bool) :
    (written query isPublic).length ≤ totalQuerySize query isPublic := by
  rw [written_eq, totalQuerySize_eq, List.length_flatMap]
  refine List.sum_le_sum ?_
  intro flag _
  rw [List.length_append, length_insertHeader]
  exact Nat.add_le_add_left length_insertField_le 6

theorem length_serialize (query : Query) (isPublic : Bool) :
    (serialize (some query) isPublic).length = totalQuerySize query isPublic := by
  have hle := length_written_le query isPublic
  simp only [serialize, BoundedBuffer.data, List.length_append, List.length_replicate]
  omega

end Turns

/-! ## What a public query tells of a card -/

/-- The queries are equal but for the private fields: code, alias, type, level, rank, attribute,
race, attack, defense and their bases, status, scales, link and link marker. -/
structure SameOutsidePrivate (q q' : Query) : Prop where
  flags : q.flags = q'.flags
  pos : q.pos = q'.pos
  isPublic : q.isPublic = q'.isPublic
  isHidden : q.isHidden = q'.isHidden
  reason : q.reason = q'.reason
  reasonCard : q.reasonCard = q'.reasonCard
  equipCard : q.equipCard = q'.equipCard
  targets : q.targets = q'.targets
  overlays : q.overlays = q'.overlays
  counters : q.counters = q'.counters
  owner : q.owner = q'.owner
  cover : q.cover = q'.cover

section Hiding

variable {q q' : Query} {flag : QueryFlag}

theorem SameOutsidePrivate.sameField (h : SameOutsidePrivate q q')
    (hpublic : flag.isPrivate = false) : q.SameField q' flag := by
  cases flag with
  | QUERY_POSITION => exact h.pos
  | QUERY_REASON => exact h.reason
  | QUERY_REASON_CARD => exact h.reasonCard
  | QUERY_EQUIP_CARD => exact h.equipCard
  | QUERY_TARGET_CARD => exact h.targets
  | QUERY_OVERLAY_CARD => exact h.overlays
  | QUERY_COUNTERS => exact h.counters
  | QUERY_OWNER => exact h.owner
  | QUERY_IS_PUBLIC => exact h.isPublic
  | QUERY_IS_HIDDEN => exact h.isHidden
  | QUERY_COVER => exact h.cover
  | unnamed => trivial
  | QUERY_END => trivial
  | _ => cases hpublic

/-- A field is written from its own value alone. -/
theorem insertField_congr (h : q.SameField q' flag) : insertField q flag = insertField q' flag := by
  cases flag <;> simp_all [insertField, Query.SameField]

theorem computeQuerySize_congr (h : q.SameField q' flag) :
    ComputeQuerySize q flag = ComputeQuerySize q' flag := by
  cases flag <;> simp_all [ComputeQuerySize, Query.SameField]

theorem flagged_congr (h : SameOutsidePrivate q q') : q.flagged flag = q'.flagged flag := by
  rw [Query.flagged, Query.flagged, h.flags]

theorem revealed_congr (h : SameOutsidePrivate q q') : revealed q = revealed q' := by
  rw [revealed, revealed, flagged_congr h, flagged_congr h, h.isPublic, h.pos]

theorem hidden_congr (h : SameOutsidePrivate q q') : hidden q = hidden q' := by
  rw [hidden, hidden, flagged_congr h, h.isHidden]

theorem skips_congr (h : SameOutsidePrivate q q') (isPublic : Bool) :
    skips q isPublic flag = skips q' isPublic flag := by
  rw [skips, skips, IsPublic, IsPublic, flagged_congr h, h.reasonCard, h.equipCard, hidden_congr h,
    revealed_congr h]

/-- A private field of a card that is not revealed is gone past, by both loops. -/
theorem skips_private {isPublic : Bool} (closed : revealed q = false)
    (hides : isPublic = true ∨ hidden q = true) (hprivate : flag.isPrivate = true) :
    skips q isPublic flag = true := by
  have hnot : IsPublic q flag = false := by simp [IsPublic, closed, hprivate]
  rcases hides with hpublic | hhidden
  · simp [skips, hpublic, hnot]
  · simp [skips, hhidden, hnot]

theorem serialize_congr {isPublic : Bool} (h : SameOutsidePrivate q q')
    (closed : revealed q = false) (hides : isPublic = true ∨ hidden q = true) :
    serialize (some q) isPublic = serialize (some q') isPublic := by
  have hturn : ∀ flag, sizeTurn q isPublic flag = sizeTurn q' isPublic flag ∧
      writeTurn q isPublic flag = writeTurn q' isPublic flag := by
    intro flag
    rw [sizeTurn_eq, sizeTurn_eq, writeTurn_eq, writeTurn_eq, ← skips_congr h]
    cases hprivate : flag.isPrivate with
    | true =>
      have hskips := skips_private closed hides hprivate
      rw [if_pos hskips, if_pos hskips, if_pos hskips, if_pos hskips]
      exact ⟨rfl, rfl⟩
    | false =>
      have hsame := h.sameField hprivate
      rw [insertHeader, insertHeader, computeQuerySize_congr hsame, insertField_congr hsame]
      exact ⟨rfl, rfl⟩
  have hsize : sizeTurn q isPublic = sizeTurn q' isPublic := funext fun flag => (hturn flag).1
  have hwrite : writeTurn q isPublic = writeTurn q' isPublic := funext fun flag => (hturn flag).2
  simp only [serialize, totalQuerySize, written, hsize, hwrite]

end Hiding

/-- Two cards of which an opponent may not be told apart. -/
def Unrevealed (q q' : Query) : Prop := SameOutsidePrivate q q' ∧ revealed q = false

/-- Whatever the flags, the public bytes of a card that is neither marked public nor face-up do not
depend on its private fields; neither do its own bytes when it is marked hidden, nor the public
bytes of a list of cards. -/
theorem public_queries_reveal_nothing :
    (∀ q q', Unrevealed q q' → serialize (some q) true = serialize (some q') true ∧
      (hidden q = true → serialize (some q) false = serialize (some q') false)) ∧
    ∀ queries queries', List.Forall₂ (Option.Rel Unrevealed) queries queries' →
      serializeLocationQuery queries true = serializeLocationQuery queries' true := by
  have hone : ∀ q q', Unrevealed q q' → serialize (some q) true = serialize (some q') true :=
    fun q q' ⟨hsame, hclosed⟩ => serialize_congr hsame hclosed (Or.inl rfl)
  constructor
  · intro q q' h
    obtain ⟨hsame, hclosed⟩ := h
    exact ⟨hone q q' ⟨hsame, hclosed⟩,
      fun hhidden => serialize_congr hsame hclosed (Or.inr hhidden)⟩
  · intro queries queries' h
    have hbytes : queries.flatMap (fun query => serialize query true) =
        queries'.flatMap (fun query => serialize query true) := by
      induction h with
      | nil => rfl
      | @cons query query' queries queries' hhead _ ih =>
        rw [List.flatMap_cons, List.flatMap_cons, ih]
        cases hhead with
        | some hpair => rw [hone _ _ hpair]
        | none => rfl
    simp only [serializeLocationQuery, hbytes]

/-- Two face-down cards, and two that are marked hidden. -/
theorem public_queries_reveal_nothing_set :
    serialize (some { flags := 0x81000003, code := 46986414, pos := 0x8 }) true =
        serialize (some { flags := 0x81000003, code := 89631139, pos := 0x8 }) true ∧
      serialize (some { flags := 0x81000003, code := 46986414, pos := 0x8, isHidden := 1 }) false =
        serialize (some { flags := 0x81000003, code := 89631139, pos := 0x8, isHidden := 1 })
          false ∧
      serializeLocationQuery [none, some { flags := 0x81000003, code := 46986414, pos := 0x8 }]
          true =
        serializeLocationQuery [none, some { flags := 0x81000003, code := 89631139, pos := 0x8 }]
          true := by
  have hset : Unrevealed { flags := 0x81000003, code := 46986414, pos := 0x8 }
      { flags := 0x81000003, code := 89631139, pos := 0x8 } :=
    ⟨⟨rfl, rfl, rfl, rfl, rfl, rfl, rfl, rfl, rfl, rfl, rfl, rfl⟩, by decide⟩
  have hhidden : Unrevealed
      { flags := 0x81000003, code := 46986414, pos := 0x8, isHidden := 1 }
      { flags := 0x81000003, code := 89631139, pos := 0x8, isHidden := 1 } :=
    ⟨⟨rfl, rfl, rfl, rfl, rfl, rfl, rfl, rfl, rfl, rfl, rfl, rfl⟩, by decide⟩
  obtain ⟨hpairs, hlists⟩ := public_queries_reveal_nothing
  exact ⟨(hpairs _ _ hset).1, (hpairs _ _ hhidden).2 (by decide),
    hlists _ _ (.cons .none (.cons (.some hset) .nil))⟩

end QuerySerializer

end EdoproServer.Core
