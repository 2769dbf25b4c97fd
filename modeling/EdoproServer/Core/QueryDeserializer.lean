import EdoproServer.Core.QuerySerializer

namespace EdoproServer.Core
open Lib

namespace QueryDeserializer

def readLocInfo : Reader LocInfo := do
  let con ← readUInt8
  let loc ← readUInt8
  let seq ← readUInt32
  let pos ← readUInt32
  return { con := con, loc := loc, seq := seq, pos := pos }

/-- The count of a list is read from four bytes here. -/
def readList {α : Type} (read : Reader α) : Reader (List α) := do
  let c ← number 4
  times read c

/-- `pointer += size - sizeof(uint32_t)`: the size counts from where the flag begins. -/
def goPast (flag : Bytes) (size : Nat) : Reader PUnit := fun bytes => do
  let (_, rest) ← takeBytes size (flag ++ bytes)
  return (⟨⟩, rest)

/-- The values of a flag go into the query; the elements of a list go behind those it has. -/
def readField (query : Query) (default : Reader PUnit) : QueryFlag → Reader Query
  | .QUERY_CODE => (fun value => { query with code := value }) <$> readUInt32
  | .QUERY_POSITION => (fun value => { query with pos := value }) <$> readUInt32
  | .QUERY_ALIAS => (fun value => { query with «alias» := value }) <$> readUInt32
  | .QUERY_TYPE => (fun value => { query with type := value }) <$> readUInt32
  | .QUERY_LEVEL => (fun value => { query with level := value }) <$> readUInt32
  | .QUERY_RANK => (fun value => { query with rank := value }) <$> readUInt32
  | .QUERY_ATTRIBUTE => (fun value => { query with «attribute» := value }) <$> readUInt32
  | .QUERY_RACE => (fun value => { query with race := value }) <$> readUInt64
  | .QUERY_ATTACK => (fun value => { query with attack := value }) <$> readInt32
  | .QUERY_DEFENSE => (fun value => { query with defense := value }) <$> readInt32
  | .QUERY_BASE_ATTACK => (fun value => { query with bAttack := value }) <$> readInt32
  | .QUERY_BASE_DEFENSE => (fun value => { query with bDefense := value }) <$> readInt32
  | .QUERY_REASON => (fun value => { query with reason := value }) <$> readUInt32
  | .QUERY_OWNER => (fun value => { query with owner := value }) <$> readUInt8
  | .QUERY_STATUS => (fun value => { query with status := value }) <$> readUInt32
  | .QUERY_IS_PUBLIC => (fun value => { query with isPublic := value }) <$> readUInt8
  | .QUERY_LSCALE => (fun value => { query with lscale := value }) <$> readUInt32
  | .QUERY_RSCALE => (fun value => { query with rscale := value }) <$> readUInt32
  | .QUERY_REASON_CARD => (fun value => { query with reasonCard := value }) <$> readLocInfo
  | .QUERY_EQUIP_CARD => (fun value => { query with equipCard := value }) <$> readLocInfo
  | .QUERY_IS_HIDDEN => (fun value => { query with isHidden := value }) <$> readUInt8
  | .QUERY_COVER => (fun value => { query with cover := value }) <$> readUInt32
  | .QUERY_TARGET_CARD =>
    (fun values => { query with targets := query.targets ++ values }) <$> readList readLocInfo
  | .QUERY_OVERLAY_CARD =>
    (fun values => { query with overlays := query.overlays ++ values }) <$> readList readUInt32
  | .QUERY_COUNTERS =>
    (fun values => { query with counters := query.counters ++ values }) <$> readList readUInt32
  | .QUERY_LINK => do
    let link ← readUInt32
    let linkMarker ← readUInt32
    return { query with link := link, linkMarker := linkMarker }
  | .QUERY_END | .unnamed _ => do
    default
    return query

/-- Reads fields until `QUERY_END`; nothing, where the pointer would leave the buffer. Each turn
takes two bytes at least, so there are never more turns than bytes. -/
def deserializeFields : Nat → Query → Reader Query
  | 0, _ => fun _ => none
  | fuel + 1, query => do
    let size ← number 2
    let flagBytes ← takeBytes 4
    let flag := UInt32.ofNat (fromLittleEndian flagBytes)
    let query := { query with flags := query.flags ||| flag }
    match QueryFlag.ofMask flag with
    | some .QUERY_END => return query
    | some known => do
      let query ← readField query (goPast flagBytes size) known
      deserializeFields fuel query
    | none => do
      goPast flagBytes size
      deserializeFields fuel query

/-- Two zero bytes stand for an absent query. -/
def DeserializeOneQuery : Reader (Option Query) := fun bytes => do
  let (size, rest) ← number 2 bytes
  if size = 0 then
    return (none, rest)
  let (query, rest) ← deserializeFields bytes.length {} bytes
  return (some query, rest)

def deserialize (queries : Bytes) : Option (Option Query) := do
  let (query, _) ← DeserializeOneQuery queries
  return query

/-- In `pointer + Read<uint32_t>(pointer)` the call moves the pointer on, and either operand may be
evaluated first. -/
inductive OperandOrder where
  | pointerFirst
  | callFirst
  deriving DecidableEq, Repr

/-- The bytes from behind the total size up to `pointerMax`. -/
def OperandOrder.bytesLeft : OperandOrder → Nat → Nat
  | .pointerFirst, total => total - 4
  | .callFirst, total => total

/-- Reads queries as long as there are bytes left before `pointerMax`. Each takes two bytes at
least, so there are never more queries than bytes. -/
def deserializeUntil : Nat → Nat → Bytes → Option (List (Option Query))
  | _, 0, _ => some []
  | 0, _ + 1, _ => none
  | fuel + 1, left + 1, bytes => do
    let (query, rest) ← DeserializeOneQuery bytes
    let queries ← deserializeUntil fuel (left + 1 - (bytes.length - rest.length)) rest
    return query :: queries

def deserializeLocationQuery (order : OperandOrder) (queries : Bytes) :
    Option (List (Option Query)) := do
  let (total, rest) ← number 4 queries
  deserializeUntil queries.length (order.bytesLeft total) rest

end QueryDeserializer

/-! ## What is read back of a query -/

namespace Query

/-- The fields of some flags of a query, and nothing else of it. -/
def withFields (query : Query) (flags : List QueryFlag) : Query where
  flags := masks flags
  code := if .QUERY_CODE ∈ flags then query.code else 0
  pos := if .QUERY_POSITION ∈ flags then query.pos else 0
  «alias» := if .QUERY_ALIAS ∈ flags then query.alias else 0
  type := if .QUERY_TYPE ∈ flags then query.type else 0
  level := if .QUERY_LEVEL ∈ flags then query.level else 0
  rank := if .QUERY_RANK ∈ flags then query.rank else 0
  link := if .QUERY_LINK ∈ flags then query.link else 0
  «attribute» := if .QUERY_ATTRIBUTE ∈ flags then query.attribute else 0
  race := if .QUERY_RACE ∈ flags then query.race else 0
  attack := if .QUERY_ATTACK ∈ flags then query.attack else 0
  defense := if .QUERY_DEFENSE ∈ flags then query.defense else 0
  bAttack := if .QUERY_BASE_ATTACK ∈ flags then query.bAttack else 0
  bDefense := if .QUERY_BASE_DEFENSE ∈ flags then query.bDefense else 0
  reason := if .QUERY_REASON ∈ flags then query.reason else 0
  owner := if .QUERY_OWNER ∈ flags then query.owner else 0
  status := if .QUERY_STATUS ∈ flags then query.status else 0
  isPublic := if .QUERY_IS_PUBLIC ∈ flags then query.isPublic else 0
  lscale := if .QUERY_LSCALE ∈ flags then query.lscale else 0
  rscale := if .QUERY_RSCALE ∈ flags then query.rscale else 0
  linkMarker := if .QUERY_LINK ∈ flags then query.linkMarker else 0
  reasonCard := if .QUERY_REASON_CARD ∈ flags then query.reasonCard else ⟨0, 0, 0, 0⟩
  equipCard := if .QUERY_EQUIP_CARD ∈ flags then query.equipCard else ⟨0, 0, 0, 0⟩
  isHidden := if .QUERY_IS_HIDDEN ∈ flags then query.isHidden else 0
  cover := if .QUERY_COVER ∈ flags then query.cover else 0
  targets := if .QUERY_TARGET_CARD ∈ flags then query.targets else []
  overlays := if .QUERY_OVERLAY_CARD ∈ flags then query.overlays else []
  counters := if .QUERY_COUNTERS ∈ flags then query.counters else []

theorem sameField_withFields {query : Query} {flags : List QueryFlag} {flag : QueryFlag}
    (h : flag ∈ flags) : query.SameField (query.withFields flags) flag := by
  cases flag <;> simp [SameField, withFields, h]

end Query

namespace QueryFlag

/-- The fields of variable length. -/
def isList : QueryFlag → Bool
  | QUERY_TARGET_CARD => true
  | QUERY_OVERLAY_CARD => true
  | QUERY_COUNTERS => true
  | _ => false

end QueryFlag

namespace QueryDeserializer
open QuerySerializer

section Fields

variable {query : Query} {flag : QueryFlag}

theorem reads_locInfo (value : LocInfo) : Reads readLocInfo (insertLocInfo value) value := by
  unfold readLocInfo insertLocInfo
  rw [List.append_assoc, List.append_assoc]
  refine (Reads.readUInt8 value.con).bind ?_
  refine (Reads.readUInt8 value.loc).bind ?_
  refine (Reads.readUInt32 value.seq).bind ?_
  exact (Reads.readUInt32 value.pos).bindPure

/-- What is read of a field joins what was read before. -/
theorem reads_field (past : List QueryFlag) {default : Reader PUnit}
    (hlist : flag.isList = false)
    (hdefault : ComputeQuerySize query flag = 0 → Reads default [] ⟨⟩) :
    Reads (readField { query.withFields past with
        flags := (query.withFields past).flags ||| flag.mask } default flag)
      (insertField query flag) (query.withFields (past ++ [flag])) := by
  have hsame : ∀ written : Query, written = query.withFields (past ++ [flag]) →
      Reads (Pure.pure written) [] (query.withFields (past ++ [flag])) :=
    fun written heq => heq ▸ Reads.pure written
  cases flag with
  | QUERY_TARGET_CARD | QUERY_OVERLAY_CARD | QUERY_COUNTERS => cases hlist
  | QUERY_OWNER | QUERY_IS_PUBLIC | QUERY_IS_HIDDEN =>
    exact (Reads.readUInt8 _).mapTo (by simp [Query.withFields, Query.masks])
  | QUERY_RACE => exact (Reads.readUInt64 _).mapTo (by simp [Query.withFields, Query.masks])
  | QUERY_ATTACK | QUERY_DEFENSE | QUERY_BASE_ATTACK | QUERY_BASE_DEFENSE =>
    exact (Reads.readInt32 _).mapTo (by simp [Query.withFields, Query.masks])
  | QUERY_REASON_CARD | QUERY_EQUIP_CARD =>
    exact (reads_locInfo _).mapTo (by simp [Query.withFields, Query.masks])
  | QUERY_LINK =>
    refine (Reads.readUInt32 query.link).bind ?_
    rw [← List.append_nil (writeUInt32 query.linkMarker)]
    refine (Reads.readUInt32 query.linkMarker).bind (hsame _ ?_)
    simp [Query.withFields, Query.masks]
  | unnamed bit =>
    refine (hdefault rfl).bind (hsame _ ?_)
    simp [Query.withFields, Query.masks]
  | QUERY_END =>
    refine (hdefault rfl).bind (hsame _ ?_)
    simp [Query.withFields, Query.masks]
  | _ => exact (Reads.readUInt32 _).mapTo (by simp [Query.withFields, Query.masks])

theorem computeQuerySize_le (hlist : flag.isList = false) : ComputeQuerySize query flag ≤ 10 := by
  cases flag with
  | QUERY_TARGET_CARD | QUERY_OVERLAY_CARD | QUERY_COUNTERS => cases hlist
  | _ => simp [ComputeQuerySize, LocInfo.SIZE]

theorem reads_goPast (flagBytes : Bytes) : Reads (goPast flagBytes flagBytes.length) [] ⟨⟩ := by
  intro rest
  have htake := (Reads.takeBytes (w := flagBytes) rfl) rest
  rw [goPast, List.nil_append, htake]
  rfl

theorem mask_of_bytes (flag : QueryFlag) :
    UInt32.ofNat (fromLittleEndian (writeUInt32 flag.mask)) = flag.mask := by
  rw [writeUInt32, fromLittleEndian_littleEndian (n := 4) flag.mask.toNat_lt, UInt32.ofNat_toNat]

/-- One turn of the loop reads a field and goes on behind it. -/
theorem reads_turn {fuel : Nat} (past : List QueryFlag) (hlist : flag.isList = false)
    (hend : flag ≠ .QUERY_END) {w : Bytes} {result : Query}
    (hrest : Reads (deserializeFields fuel (query.withFields (past ++ [flag]))) w result) :
    Reads (deserializeFields (fuel + 1) (query.withFields past))
      (insertHeader query flag ++ insertField query flag ++ w) result := by
  have hsize : ComputeQuerySize query flag ≤ 10 := computeQuerySize_le hlist
  rw [deserializeFields, insertHeader, List.append_assoc, List.append_assoc]
  refine (Reads.number (n := 2) (by omega)).bind ?_
  refine (Reads.takeBytes (length_writeUInt32 flag.mask)).bind ?_
  dsimp only
  rw [mask_of_bytes, QueryFlag.ofMask_mask]
  have hdefault : ComputeQuerySize query flag = 0 →
      Reads (goPast (writeUInt32 flag.mask) (ComputeQuerySize query flag + 4)) [] ⟨⟩ := by
    intro hnone
    rw [hnone]
    exact reads_goPast (writeUInt32 flag.mask)
  have hfield := reads_field past hlist hdefault
  split
  · rename_i heq
    exact absurd (Option.some.inj heq) hend
  · rename_i known _ heq
    obtain rfl := Option.some.inj heq
    exact hfield.bind hrest
  · rename_i heq
    cases heq

/-- The loop ends with `QUERY_END`. -/
theorem reads_end {fuel : Nat} (past : List QueryFlag) :
    Reads (deserializeFields (fuel + 1) (query.withFields past))
      (insertHeader query .QUERY_END ++ insertField query .QUERY_END)
      (query.withFields (past ++ [.QUERY_END])) := by
  rw [deserializeFields, insertHeader, List.append_assoc]
  refine (Reads.number (n := 2) (by simp [ComputeQuerySize])).bind ?_
  refine (Reads.takeBytes (length_writeUInt32 _)).bind ?_
  dsimp only
  rw [mask_of_bytes, QueryFlag.ofMask_mask]
  have hsame : { query.withFields past with
      flags := (query.withFields past).flags ||| QueryFlag.mask .QUERY_END } =
      query.withFields (past ++ [.QUERY_END]) := by
    simp [Query.withFields, Query.masks]
  rw [← hsame]
  exact Reads.pure _

/-- A field with its size and flag before it. -/
def entry (query : Query) (flag : QueryFlag) : Bytes :=
  insertHeader query flag ++ insertField query flag

/-- The fields are read one after the other, and `QUERY_END` last. -/
theorem reads_fields {flags : List QueryFlag} (past : List QueryFlag)
    (h : ∀ flag ∈ flags, flag.isList = false ∧ flag ≠ .QUERY_END) {fuel : Nat}
    (hfuel : flags.length < fuel) :
    Reads (deserializeFields fuel (query.withFields past))
      ((flags ++ [QueryFlag.QUERY_END]).flatMap (entry query))
      (query.withFields (past ++ (flags ++ [QueryFlag.QUERY_END]))) := by
  induction flags generalizing past fuel with
  | nil =>
    obtain ⟨fuel, rfl⟩ : ∃ n, fuel = n + 1 := ⟨fuel - 1, by simp at hfuel; omega⟩
    simpa [entry] using reads_end past
  | cons flag flags ih =>
    obtain ⟨hflag, hflags⟩ := List.forall_mem_cons.mp h
    rw [List.length_cons] at hfuel
    obtain ⟨fuel, rfl⟩ : ∃ n, fuel = n + 1 := ⟨fuel - 1, by omega⟩
    have hlt : flags.length < fuel := by omega
    have hrest := ih (past ++ [flag]) hflags hlt
    rw [List.append_assoc, List.singleton_append] at hrest
    rw [List.cons_append, List.flatMap_cons]
    exact reads_turn past hflag.1 hflag.2 hrest

end Fields

/-! ## Queries that are read back -/

/-- The flags end with `QUERY_END`, a location that is flagged is there, and the card is not marked
hidden. -/
structure Shown (query : Query) : Prop where
  ends : query.flagged .QUERY_END = true
  reasonCard : query.flagged .QUERY_REASON_CARD = true → query.reasonCard.loc ≠ 0
  equipCard : query.flagged .QUERY_EQUIP_CARD = true → query.equipCard.loc ≠ 0
  notHidden : hidden query = false

/-- No field of variable length is flagged. -/
def ListFree (query : Query) : Prop :=
  ∀ flag : QueryFlag, flag.isList = true → query.flagged flag = false

/-- What `DeserializeOneQuery` makes of the bytes of a query. -/
def readBack (query : Query) : Query := query.withFields (QueryFlag.all.filter query.flagged)

section Queries

variable {query : Query} {flag : QueryFlag}

theorem skips_shown (h : Shown query) : skips query false flag = !query.flagged flag := by
  unfold skips
  rw [h.notHidden]
  cases hflagged : query.flagged flag with
  | false => simp
  | true =>
    have hreason : flag = .QUERY_REASON_CARD → ¬ query.reasonCard.loc = 0 :=
      fun he => h.reasonCard (he ▸ hflagged)
    have hequip : flag = .QUERY_EQUIP_CARD → ¬ query.equipCard.loc = 0 :=
      fun he => h.equipCard (he ▸ hflagged)
    simpa using ⟨hreason, hequip⟩

theorem serializedFlags_shown (h : Shown query) :
    serializedFlags query false = QueryFlag.all.filter query.flagged := by
  apply List.filter_congr
  intro flag _
  rw [skips_shown h, Bool.not_not]

theorem filter_all_shown (h : Shown query) : QueryFlag.all.filter query.flagged =
    QueryFlag.fields.filter query.flagged ++ [.QUERY_END] := by
  rw [QueryFlag.all, List.filter_append, List.filter_singleton, h.ends]
  rfl

theorem length_insertField (hlist : flag.isList = false) :
    (insertField query flag).length = ComputeQuerySize query flag := by
  cases flag with
  | QUERY_TARGET_CARD | QUERY_OVERLAY_CARD | QUERY_COUNTERS => cases hlist
  | _ => simp [insertField, ComputeQuerySize]

theorem isList_of_mem {isPublic : Bool} (free : ListFree query)
    (hflag : flag ∈ serializedFlags query isPublic) : flag.isList = false := by
  by_contra hlist
  have hskips := (List.mem_filter.mp hflag).2
  simp [skips, free flag (Bool.not_eq_false _ ▸ hlist)] at hskips

/-- Without lists the buffer is full. -/
theorem serialize_eq_written (free : ListFree query) (isPublic : Bool) :
    serialize (some query) isPublic = written query isPublic := by
  have hlength : (written query isPublic).length = totalQuerySize query isPublic := by
    rw [written_eq, totalQuerySize_eq, List.length_flatMap]
    congr 1
    apply List.map_congr_left
    intro flag hflag
    rw [List.length_append, length_insertHeader, length_insertField (isList_of_mem free hflag)]
  simp [serialize, BoundedBuffer.data, hlength]

theorem withFields_nil : query.withFields [] = {} := by
  simp [Query.withFields, Query.masks]

theorem length_le_flatMap_entry (query : Query) (flags : List QueryFlag) :
    flags.length ≤ (flags.flatMap (entry query)).length := by
  induction flags with
  | nil => exact Nat.le_refl 0
  | cons flag flags ih =>
    rw [List.flatMap_cons, List.length_append, List.length_cons, entry, List.length_append,
      length_insertHeader]
    omega

/-- The first two bytes are the size of the first field. -/
theorem flatMap_entry_cons (query : Query) (first : QueryFlag) (flags : List QueryFlag)
    (rest : Bytes) : (first :: flags).flatMap (entry query) ++ rest =
      littleEndian 2 (ComputeQuerySize query first + 4) ++ (writeUInt32 first.mask ++
        (insertField query first ++ (flags.flatMap (entry query) ++ rest))) := by
  simp [entry, insertHeader]

theorem fixed_of_mem_fields (free : ListFree query)
    (hflag : flag ∈ QueryFlag.fields.filter query.flagged) :
    flag.isList = false ∧ flag ≠ .QUERY_END := by
  obtain ⟨hin, hflagged⟩ := List.mem_filter.mp hflag
  constructor
  · by_contra hlist
    rw [free flag (Bool.not_eq_false _ ▸ hlist)] at hflagged
    cases hflagged
  · intro hend
    rw [hend] at hin
    revert hin
    decide

/-- A query of fixed length is read back with the fields that were flagged. -/
theorem reads_query (h : Shown query) (free : ListFree query) :
    Reads DeserializeOneQuery (serialize (some query) false) (some (readBack query)) := by
  have hflags := filter_all_shown h
  have hfixed : ∀ flag ∈ QueryFlag.fields.filter query.flagged,
      flag.isList = false ∧ flag ≠ .QUERY_END := fun _ hflag => fixed_of_mem_fields free hflag
  generalize QueryFlag.fields.filter query.flagged = flags at hflags hfixed
  have hbytes : serialize (some query) false =
      (flags ++ [QueryFlag.QUERY_END]).flatMap (entry query) := by
    rw [serialize_eq_written free, written_eq, serializedFlags_shown h, hflags]
    rfl
  intro rest
  rw [hbytes, readBack, hflags]
  generalize hall : (flags ++ [QueryFlag.QUERY_END]).flatMap (entry query) ++ rest = bytes
  have hfuel : flags.length < bytes.length := by
    have hcount := length_le_flatMap_entry query (flags ++ [QueryFlag.QUERY_END])
    rw [List.length_append, List.length_singleton] at hcount
    rw [← hall, List.length_append]
    omega
  have hread : deserializeFields bytes.length (query.withFields [])
      ((flags ++ [QueryFlag.QUERY_END]).flatMap (entry query) ++ rest) = _ :=
    reads_fields [] hfixed hfuel rest
  rw [hall, withFields_nil, List.nil_append] at hread
  -- The two bytes that tell a query from an absent one are the size of its first field.
  obtain ⟨first, more, hfirst, hsplit⟩ : ∃ first more, ComputeQuerySize query first ≤ 10 ∧
      bytes = littleEndian 2 (ComputeQuerySize query first + 4) ++ more := by
    rw [← hall]
    cases flags with
    | nil => exact ⟨_, _, computeQuerySize_le rfl, flatMap_entry_cons query .QUERY_END [] rest⟩
    | cons first flags =>
      exact ⟨first, _, computeQuerySize_le (hfixed first List.mem_cons_self).1,
        flatMap_entry_cons query first (flags ++ [QueryFlag.QUERY_END]) rest⟩
  have hnumber : number 2 bytes = some (ComputeQuerySize query first + 4, more) := by
    rw [hsplit]
    exact Reads.number (n := 2) (by omega) more
  simp only [DeserializeOneQuery, hnumber, hread, Option.bind_eq_bind, Option.bind_some]
  rw [if_neg (by omega)]
  rfl

theorem reads_absent : Reads DeserializeOneQuery (serialize none false) none := by
  intro rest
  rfl

end Queries

/-! ## The codec of one query -/

/-- The size that stands before a field and its flag. -/
def declaredSize (query : Query) (flag : QueryFlag) : Nat :=
  (ComputeQuerySize query flag + 4) % 2 ^ 16

/-- Each field has the size declared for it, and the declared sizes make up the buffer. -/
structure SizesAgree (query : Query) : Prop where
  fields : ∀ isPublic, ∀ flag ∈ serializedFlags query isPublic,
    4 + (insertField query flag).length = declaredSize query flag
  buffer : ∀ isPublic, ((serializedFlags query isPublic).map
    (fun flag => 2 + declaredSize query flag)).sum = (serialize (some query) isPublic).length

/-- The second query has the flags of the first and its value in every field that is flagged. -/
def AgreesOnFlagged (q r : Query) : Prop :=
  r.flags = q.flags ∧ ∀ flag, q.flagged flag = true → q.SameField r flag

structure QueryCodec (query : Query) : Prop where
  sizes : SizesAgree query
  roundTrip : ∃ r, deserialize (serialize (some query) false) = some (some r) ∧
    AgreesOnFlagged query r

section Single

variable {query : Query} {flag : QueryFlag}

theorem agrees_readBack (query : Query) : AgreesOnFlagged query (readBack query) := by
  constructor
  · exact Query.masks_flagged query
  · intro flag hflagged
    exact Query.sameField_withFields (List.mem_filter.mpr ⟨QueryFlag.mem_all flag, hflagged⟩)

theorem sizesAgree_of_listFree (free : ListFree query) : SizesAgree query := by
  have hdeclared : ∀ isPublic, ∀ flag ∈ serializedFlags query isPublic,
      declaredSize query flag = 4 + ComputeQuerySize query flag := by
    intro isPublic flag hflag
    have hsize : ComputeQuerySize query flag ≤ 10 :=
      computeQuerySize_le (isList_of_mem free hflag)
    unfold declaredSize
    omega
  constructor
  · intro isPublic flag hflag
    rw [hdeclared isPublic flag hflag, length_insertField (isList_of_mem free hflag)]
  · intro isPublic
    rw [length_serialize, totalQuerySize_eq]
    congr 1
    apply List.map_congr_left
    intro flag hflag
    rw [hdeclared isPublic flag hflag]
    omega

/-- The count of a list takes two bytes and is declared with four. -/
theorem length_insertField_list (hlist : flag.isList = true) :
    4 + (insertField query flag).length ≠ declaredSize query flag := by
  cases flag with
  | QUERY_TARGET_CARD =>
    simp only [insertField, declaredSize, ComputeQuerySize,
      length_insertList length_insertLocInfo, LocInfo.SIZE, LocInfo.sizeof]
    omega
  | QUERY_OVERLAY_CARD | QUERY_COUNTERS =>
    simp only [insertField, declaredSize, ComputeQuerySize, length_insertList length_writeUInt32]
    omega
  | _ => cases hlist

theorem listFree_of_sizesAgree (h : Shown query) (sizes : SizesAgree query) : ListFree query := by
  intro flag hlist
  by_contra hflagged
  rw [Bool.not_eq_false] at hflagged
  have hin : flag ∈ serializedFlags query false := by
    rw [serializedFlags_shown h]
    exact List.mem_filter.mpr ⟨QueryFlag.mem_all flag, hflagged⟩
  exact length_insertField_list hlist (sizes.fields false flag hin)

theorem queryCodec_iff (h : Shown query) : QueryCodec query ↔ ListFree query := by
  constructor
  · exact fun codec => listFree_of_sizesAgree h codec.sizes
  · intro free
    refine ⟨sizesAgree_of_listFree free, readBack query, ?_, agrees_readBack query⟩
    have hread := reads_query h free []
    rw [List.append_nil] at hread
    rw [deserialize, hread]
    rfl

end Single

/-! ## The codec of a list of queries -/

/-- The bytes of each query of a list. -/
def querySize (query : Option Query) : Nat := (serialize query false).length

/-- The sizes agree in every query, the total size is that of the queries, and they are read back
one by one. -/
structure LocationCodec (order : OperandOrder) (queries : List (Option Query)) : Prop where
  sizes : ∀ query, some query ∈ queries → SizesAgree query
  total : fromLittleEndian ((serializeLocationQuery queries false).take 4) =
    (queries.map querySize).sum
  roundTrip : ∃ results, deserializeLocationQuery order (serializeLocationQuery queries false) =
    some results ∧ List.Forall₂ (Option.Rel AgreesOnFlagged) queries results

section Lists

variable {queries : List (Option Query)}

theorem length_flatMap_serialize (queries : List (Option Query)) :
    (queries.flatMap (fun query => serialize query false)).length =
      (queries.map querySize).sum := by
  rw [List.length_flatMap]
  rfl

theorem querySize_pos (h : ∀ query, some query ∈ queries → Shown query) :
    ∀ query ∈ queries, query = none ∧ querySize query = 2 ∨
      ∃ present, query = some present ∧ 6 ≤ querySize query := by
  intro query hquery
  cases query with
  | none => exact Or.inl ⟨rfl, rfl⟩
  | some present =>
    refine Or.inr ⟨present, rfl, ?_⟩
    have hshown := h present hquery
    rw [querySize, length_serialize, totalQuerySize_eq, serializedFlags_shown hshown,
      filter_all_shown hshown, List.map_append, List.sum_append]
    simp [ComputeQuerySize]

/-- The loop reads the queries that begin before `pointerMax`. -/
theorem deserializeUntil_eq
    (h : ∀ query ∈ queries, Reads DeserializeOneQuery (serialize query false)
      (query.map readBack)) {fuel left : Nat} (hfuel : queries.length ≤ fuel)
    (hleft : left ≤ (queries.map querySize).sum) :
    deserializeUntil fuel left (queries.flatMap (fun query => serialize query false)) =
      some ((beginBefore querySize left queries).map (Option.map readBack)) := by
  induction queries generalizing fuel left with
  | nil =>
    obtain rfl : left = 0 := Nat.le_zero.mp hleft
    cases fuel <;> rfl
  | cons query queries ih =>
    rw [List.length_cons] at hfuel
    obtain ⟨fuel, rfl⟩ : ∃ n, fuel = n + 1 := ⟨fuel - 1, by omega⟩
    cases left with
    | zero => rfl
    | succ left =>
      rw [List.map_cons, List.sum_cons] at hleft
      have hquery := h query List.mem_cons_self
        (queries.flatMap (fun query => serialize query false))
      have hrest := ih (fun other hother => h other (List.mem_cons_of_mem query hother))
        (Nat.le_of_succ_le_succ hfuel)
        (show left + 1 - querySize query ≤ (queries.map querySize).sum by omega)
      rw [List.flatMap_cons, deserializeUntil, hquery]
      simp only [Option.bind_eq_bind, Option.bind_some, List.length_append, Nat.add_sub_cancel]
      change (deserializeUntil fuel (left + 1 - querySize query) _).bind _ = _
      rw [hrest]
      rfl

theorem deserializeLocationQuery_eq (order : OperandOrder)
    (h : ∀ query, some query ∈ queries → Shown query ∧ ListFree query)
    (hsum : (queries.map querySize).sum < 2 ^ 32) :
    deserializeLocationQuery order (serializeLocationQuery queries false) =
      some ((beginBefore querySize (order.bytesLeft (queries.map querySize).sum) queries).map
        (Option.map readBack)) := by
  have hread : ∀ query ∈ queries, Reads DeserializeOneQuery (serialize query false)
      (query.map readBack) := by
    intro query hquery
    cases query with
    | none => exact reads_absent
    | some present =>
      obtain ⟨hshown, hfree⟩ := h present hquery
      exact reads_query hshown hfree
  have hlength : queries.length ≤ (serializeLocationQuery queries false).length := by
    have hpos := querySize_pos (fun query hquery => (h query hquery).1)
    have hle : (queries.map (fun _ => 1)).sum ≤ (queries.map querySize).sum := by
      refine List.sum_le_sum ?_
      intro query hquery
      rcases hpos query hquery with ⟨_, hsize⟩ | ⟨_, _, hsize⟩ <;> omega
    rw [List.map_const', List.sum_replicate, smul_eq_mul, Nat.mul_one] at hle
    simp only [serializeLocationQuery, List.length_append, length_flatMap_serialize]
    omega
  have hleft : order.bytesLeft (queries.map querySize).sum ≤ (queries.map querySize).sum := by
    cases order with
    | pointerFirst => exact Nat.sub_le _ 4
    | callFirst => exact Nat.le_refl _
  have huntil := deserializeUntil_eq hread hlength hleft
  have hnumber := Reads.number (n := 4) hsum (queries.flatMap (fun query => serialize query false))
  rw [← length_flatMap_serialize] at hnumber
  rw [deserializeLocationQuery]
  conv_lhs => enter [1, 2]; rw [serializeLocationQuery]
  rw [hnumber, length_flatMap_serialize]
  exact huntil

/-- With the pointer evaluated first a list that ends with an absent query loses it. -/
theorem beginBefore_bytesLeft_iff (h : ∀ query, some query ∈ queries → Shown query)
    (order : OperandOrder) :
    beginBefore querySize (order.bytesLeft (queries.map querySize).sum) queries = queries ↔
      (order = .pointerFirst → queries.getLast? ≠ some none) := by
  have hsizes := querySize_pos h
  have hpos : ∀ query ∈ queries, 0 < querySize query := by
    intro query hquery
    rcases hsizes query hquery with ⟨_, hsize⟩ | ⟨_, _, hsize⟩ <;> omega
  have hle : ∀ query ∈ queries, querySize query ≤ (queries.map querySize).sum :=
    fun query hquery => List.single_le_sum (fun _ _ => Nat.zero_le _) _ (List.mem_map_of_mem hquery)
  cases order with
  | callFirst =>
    rw [OperandOrder.bytesLeft, beginBefore_eq_self_iff hpos (Nat.le_refl _), Nat.sub_self]
    constructor
    · intro _ horder
      cases horder
    · exact fun _ last hlast => hpos last (List.mem_of_getLast? hlast)
  | pointerFirst =>
    rw [OperandOrder.bytesLeft, beginBefore_eq_self_iff hpos (Nat.sub_le _ 4)]
    constructor
    · intro hlast _ hnone
      have hshort := hlast none hnone
      have hin := hle none (List.mem_of_getLast? hnone)
      have hsize : querySize none = 2 := rfl
      omega
    · intro hpresent last hlast
      have hin := List.mem_of_getLast? hlast
      have hlength := hle last hin
      rcases hsizes last hin with ⟨hnone, _⟩ | ⟨_, _, hsize⟩
      · exact absurd (hnone ▸ hlast) (hpresent rfl)
      · omega

theorem locationCodec_iff (h : ∀ query, some query ∈ queries → Shown query)
    (order : OperandOrder) :
    LocationCodec order queries ↔ (∀ query, some query ∈ queries → ListFree query) ∧
      (queries.map querySize).sum < 2 ^ 32 ∧
      (order = .pointerFirst → queries.getLast? ≠ some none) := by
  have htake : (serializeLocationQuery queries false).take 4 =
      littleEndian 4 (queries.map querySize).sum := by
    rw [serializeLocationQuery, List.take_left' (length_littleEndian 4 _), length_flatMap_serialize]
  constructor
  · intro codec
    have hfree : ∀ query, some query ∈ queries → ListFree query := fun query hquery =>
      listFree_of_sizesAgree (h query hquery) (codec.sizes query hquery)
    have hsum : (queries.map querySize).sum < 2 ^ 32 := by
      have hlt := fromLittleEndian_lt ((serializeLocationQuery queries false).take 4)
      rw [codec.total, htake, length_littleEndian] at hlt
      exact hlt
    refine ⟨hfree, hsum, (beginBefore_bytesLeft_iff h order).mp ?_⟩
    obtain ⟨results, hresults, hagree⟩ := codec.roundTrip
    rw [deserializeLocationQuery_eq order (fun query hquery => ⟨h query hquery, hfree query hquery⟩)
      hsum, Option.some_inj] at hresults
    have hlength := hagree.length_eq
    rw [← hresults, List.length_map] at hlength
    exact (beginBefore_initial _ queries).eq_of_length hlength.symm
  · intro hall
    obtain ⟨hfree, hsum, hlast⟩ := hall
    refine ⟨fun query hquery => sizesAgree_of_listFree (hfree query hquery), ?_, ?_⟩
    · rw [htake]
      exact fromLittleEndian_littleEndian hsum
    · refine ⟨queries.map (Option.map readBack), ?_, ?_⟩
      · rw [deserializeLocationQuery_eq order
          (fun query hquery => ⟨h query hquery, hfree query hquery⟩) hsum,
          (beginBefore_bytesLeft_iff h order).mpr hlast]
      · rw [List.forall₂_map_right_iff, List.forall₂_same]
        intro query _
        cases query with
        | none => exact .none
        | some present => exact .some (agrees_readBack present)

end Lists

/-- A query is written with the sizes it declares and read back in every flagged field exactly when
no field of variable length is flagged; a list of queries, when moreover its size fits four bytes
and, where `pointer` is evaluated before the call that moves it, it does not end with an absent
query. -/
theorem query_codec (query : Query) (h : Shown query) (order : OperandOrder)
    (queries : List (Option Query)) (hqueries : ∀ query, some query ∈ queries → Shown query) :
    (QueryCodec query ↔ ListFree query) ∧
      (LocationCodec order queries ↔ (∀ query, some query ∈ queries → ListFree query) ∧
        (queries.map querySize).sum < 2 ^ 32 ∧
        (order = .pointerFirst → queries.getLast? ≠ some none)) :=
  ⟨queryCodec_iff h, locationCodec_iff hqueries order⟩

/-- A card of which the code is asked, one that targets another. -/
def coded : Query := { flags := 0x80000001, code := 46986414 }

def equipped : Query := { flags := 0x80008000, targets := [⟨0, 4, 0, 1⟩] }

theorem coded_shown : Shown coded := ⟨by decide, by decide, by decide, by decide⟩

theorem equipped_shown : Shown equipped := ⟨by decide, by decide, by decide, by decide⟩

theorem coded_listFree : ListFree coded := by
  intro flag hlist
  cases flag with
  | QUERY_TARGET_CARD | QUERY_OVERLAY_CARD | QUERY_COUNTERS => decide
  | _ => cases hlist

theorem query_codec_coded : QueryCodec coded ∧ ¬ QueryCodec equipped ∧
    LocationCodec .callFirst [some coded, none] ∧
    ¬ LocationCodec .pointerFirst [some coded, none] := by
  have hshown : ∀ query, some query ∈ [some coded, none] → Shown query := by
    intro query hquery
    obtain rfl : query = coded := by simpa using hquery
    exact coded_shown
  obtain ⟨hcoded, hcallFirst⟩ := query_codec coded coded_shown .callFirst _ hshown
  obtain ⟨hequipped, hpointerFirst⟩ := query_codec equipped equipped_shown .pointerFirst _ hshown
  refine ⟨hcoded.mpr coded_listFree, ?_, hcallFirst.mpr ⟨?_, by decide, ?_⟩, ?_⟩
  · intro codec
    have hflagged := hequipped.mp codec .QUERY_TARGET_CARD rfl
    revert hflagged
    decide
  · intro query hquery
    obtain rfl : query = coded := by simpa using hquery
    exact coded_listFree
  · intro horder
    cases horder
  · exact fun codec => (hpointerFirst.mp codec).2.2 rfl rfl

/-- The bytes written for the target list of one card are two short and its elements are two bytes
short each. -/
theorem query_codec_fails : ¬ ∀ query, Shown query → QueryCodec query := by
  intro hall
  have hfree := (queryCodec_iff equipped_shown).mp (hall equipped equipped_shown)
  have hflagged := hfree .QUERY_TARGET_CARD rfl
  revert hflagged
  decide

/-- The count is read together with the first bytes of the target, and the pointer leaves the
buffer. -/
example : deserialize (serialize (some equipped) false) = none := by decide +kernel

end QueryDeserializer

end EdoproServer.Core
