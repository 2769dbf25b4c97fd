import EdoproServer.Lib.Codec

namespace EdoproServer.Room.EvrpSerializer
open Lib

def STOC_EVRP_EXPORT : UInt8 := 0xf0
def EVRP_VERSION : Nat := 1
def EVRP_CHUNK_BYTES : Nat := 49152

/-- How many chunks two bytes can count. -/
def MAX_CHUNKS : Nat := 65535

/-! ## Frames -/

def chunk (gz : Bytes) (index : Nat) : Bytes :=
  (gz.drop (index * EVRP_CHUNK_BYTES)).take EVRP_CHUNK_BYTES

/-- Numbers of two bytes keep their low bytes only. -/
def frameOf (count index : Nat) (chunk : Bytes) : Bytes :=
  let bodyLen := 1 + 1 + 2 + 2 + chunk.length
  littleEndian 2 bodyLen ++ STOC_EVRP_EXPORT :: UInt8.ofNat EVRP_VERSION ::
    (littleEndian 2 index ++ (littleEndian 2 count ++ chunk))

/-- An empty buffer takes one chunk too. -/
def chunkCount (gz : Bytes) : Nat :=
  let count := (gz.length + (EVRP_CHUNK_BYTES - 1)) / EVRP_CHUNK_BYTES
  if count = 0 then 1 else count

def toFrames (gz : Bytes) : List Bytes :=
  (List.range (chunkCount gz)).map fun index => frameOf (chunkCount gz) index (chunk gz index)

/-! ## What a frame says -/

def lengthField (frame : Bytes) : Nat := fromLittleEndian (frame.take 2)

def opcodeAndVersion (frame : Bytes) : Bytes := (frame.drop 2).take 2

def indexField (frame : Bytes) : Nat := fromLittleEndian ((frame.drop 4).take 2)

def countField (frame : Bytes) : Nat := fromLittleEndian ((frame.drop 6).take 2)

def payload (frame : Bytes) : Bytes := frame.drop 8

/-- The payloads of the frames, in the order of their indexes. -/
def reassemble (frames : List Bytes) : Bytes :=
  (List.range frames.length).flatMap fun index =>
    ((frames.find? fun frame => indexField frame = index).map payload).getD []

/-- Frames that carry a buffer over the wire. -/
structure Framed (frames : List Bytes) : Prop where
  small : ∀ frame ∈ frames, frame.length ≤ 8 + EVRP_CHUNK_BYTES ∧ frame.length ≤ 65535
  length : ∀ frame ∈ frames, lengthField frame + 2 = frame.length
  kind : ∀ frame ∈ frames, opcodeAndVersion frame = [STOC_EVRP_EXPORT, UInt8.ofNat EVRP_VERSION]
  numbered : frames.map indexField = List.range frames.length
  counted : ∀ frame ∈ frames, countField frame = frames.length

section Fields

variable {count index : Nat} {chunk : Bytes}

theorem length_frameOf : (frameOf count index chunk).length = 8 + chunk.length := by
  simp only [frameOf, List.length_append, List.length_cons, length_littleEndian]
  omega

theorem take_field (before field rest : Bytes) {start : Nat} (hstart : before.length = start)
    (hfield : field.length = 2) : ((before ++ (field ++ rest)).drop start).take 2 = field := by
  rw [List.drop_left' hstart, List.take_left' hfield]

theorem lengthField_frameOf (h : chunk.length ≤ EVRP_CHUNK_BYTES) :
    lengthField (frameOf count index chunk) = 6 + chunk.length := by
  have hsmall : 1 + 1 + 2 + 2 + chunk.length < 256 ^ 2 := by
    simp only [EVRP_CHUNK_BYTES] at h
    omega
  rw [lengthField, frameOf, List.take_left' (length_littleEndian 2 _),
    fromLittleEndian_littleEndian hsmall]

theorem opcodeAndVersion_frameOf : opcodeAndVersion (frameOf count index chunk) =
    [STOC_EVRP_EXPORT, UInt8.ofNat EVRP_VERSION] :=
  take_field _ [STOC_EVRP_EXPORT, UInt8.ofNat EVRP_VERSION] _ (length_littleEndian 2 _) rfl

theorem indexField_frameOf (h : index < 256 ^ 2) :
    indexField (frameOf count index chunk) = index := by
  have hfield : ((frameOf count index chunk).drop 4).take 2 = littleEndian 2 index :=
    take_field (littleEndian 2 (1 + 1 + 2 + 2 + chunk.length) ++
      [STOC_EVRP_EXPORT, UInt8.ofNat EVRP_VERSION]) _ _ (by simp) (length_littleEndian 2 _)
  rw [indexField, hfield, fromLittleEndian_littleEndian h]

theorem countField_frameOf (h : count < 256 ^ 2) :
    countField (frameOf count index chunk) = count := by
  have hfield : ((frameOf count index chunk).drop 6).take 2 = littleEndian 2 count :=
    take_field (littleEndian 2 (1 + 1 + 2 + 2 + chunk.length) ++
      STOC_EVRP_EXPORT :: UInt8.ofNat EVRP_VERSION :: littleEndian 2 index) _ _ (by simp)
      (length_littleEndian 2 _)
  rw [countField, hfield, fromLittleEndian_littleEndian h]

theorem payload_frameOf : payload (frameOf count index chunk) = chunk := by
  have hlength : (littleEndian 2 (1 + 1 + 2 + 2 + chunk.length) ++ STOC_EVRP_EXPORT ::
      UInt8.ofNat EVRP_VERSION :: (littleEndian 2 index ++ littleEndian 2 count)).length = 8 := by
    simp
  have hsplit : frameOf count index chunk = (littleEndian 2 (1 + 1 + 2 + 2 + chunk.length) ++
      STOC_EVRP_EXPORT :: UInt8.ofNat EVRP_VERSION ::
        (littleEndian 2 index ++ littleEndian 2 count)) ++ chunk := by
    simp only [frameOf, List.append_assoc, List.cons_append]
  rw [payload, hsplit, List.drop_left' hlength]

end Fields

/-! ## The chunks of a buffer -/

theorem length_chunk_le (gz : Bytes) (index : Nat) : (chunk gz index).length ≤ EVRP_CHUNK_BYTES :=
  List.length_take_le _ _

theorem flatMap_chunk (gz : Bytes) (count : Nat) :
    (List.range count).flatMap (chunk gz) = gz.take (count * EVRP_CHUNK_BYTES) := by
  induction count with
  | zero => simp
  | succ count ih =>
    rw [List.range_succ, List.flatMap_append, ih, List.flatMap_singleton, Nat.succ_mul,
      List.take_add]
    rfl

/-- There are enough chunks for the whole buffer, exact multiples included. -/
theorem length_le_chunks (gz : Bytes) : gz.length ≤ chunkCount gz * EVRP_CHUNK_BYTES := by
  unfold chunkCount EVRP_CHUNK_BYTES
  dsimp only
  split
  · omega
  · omega

theorem chunkCount_le {gz : Bytes} (h : gz.length ≤ MAX_CHUNKS * EVRP_CHUNK_BYTES) :
    chunkCount gz ≤ MAX_CHUNKS := by
  unfold MAX_CHUNKS EVRP_CHUNK_BYTES at h
  unfold chunkCount MAX_CHUNKS EVRP_CHUNK_BYTES
  dsimp only
  split
  · omega
  · omega

theorem chunks_eq (gz : Bytes) : (List.range (chunkCount gz)).flatMap (chunk gz) = gz := by
  rw [flatMap_chunk, List.take_of_length_le (length_le_chunks gz)]

/-! ## The frames of a buffer -/

theorem length_toFrames (gz : Bytes) : (toFrames gz).length = chunkCount gz := by
  rw [toFrames, List.length_map, List.length_range]

theorem mem_toFrames {gz frame : Bytes} (h : frame ∈ toFrames gz) :
    ∃ index < chunkCount gz, frame = frameOf (chunkCount gz) index (chunk gz index) := by
  obtain ⟨index, hindex, rfl⟩ := List.mem_map.mp h
  exact ⟨index, List.mem_range.mp hindex, rfl⟩

section Carried

variable {gz : Bytes} (hsize : gz.length ≤ MAX_CHUNKS * EVRP_CHUNK_BYTES)

include hsize

theorem lt_of_index {index : Nat} (h : index < chunkCount gz) : index < 256 ^ 2 := by
  have hcount := chunkCount_le hsize
  simp only [MAX_CHUNKS] at hcount
  omega

theorem numbered_toFrames : (toFrames gz).map indexField = List.range (chunkCount gz) := by
  rw [toFrames, List.map_map]
  conv_rhs => rw [← List.map_id (List.range (chunkCount gz))]
  apply List.map_congr_left
  intro index hindex
  exact indexField_frameOf (lt_of_index hsize (List.mem_range.mp hindex))

theorem framed_toFrames : Framed (toFrames gz) where
  small frame hframe := by
    obtain ⟨index, -, rfl⟩ := mem_toFrames hframe
    have hchunk := length_chunk_le gz index
    rw [length_frameOf]
    simp only [EVRP_CHUNK_BYTES] at hchunk ⊢
    omega
  length frame hframe := by
    obtain ⟨index, -, rfl⟩ := mem_toFrames hframe
    rw [lengthField_frameOf (length_chunk_le gz index), length_frameOf]
    omega
  kind frame hframe := by
    obtain ⟨index, -, rfl⟩ := mem_toFrames hframe
    exact opcodeAndVersion_frameOf
  numbered := by rw [length_toFrames, numbered_toFrames hsize]
  counted frame hframe := by
    obtain ⟨index, -, rfl⟩ := mem_toFrames hframe
    have hcount := chunkCount_le hsize
    simp only [MAX_CHUNKS] at hcount
    rw [length_toFrames, countField_frameOf (by omega)]

/-- Among the frames, in whatever order, an index finds its own chunk. -/
theorem find_index {received : List Bytes} (hperm : received.Perm (toFrames gz)) {index : Nat}
    (h : index < chunkCount gz) :
    ((received.find? fun frame => indexField frame = index).map payload).getD [] =
      chunk gz index := by
  have hframe : frameOf (chunkCount gz) index (chunk gz index) ∈ received :=
    hperm.mem_iff.mpr (List.mem_map.mpr ⟨index, List.mem_range.mpr h, rfl⟩)
  have hsome : (received.find? fun frame => indexField frame = index).isSome = true := by
    rw [List.find?_isSome]
    exact ⟨_, hframe, by simpa using indexField_frameOf (lt_of_index hsize h)⟩
  obtain ⟨frame, hfind⟩ := Option.isSome_iff_exists.mp hsome
  obtain ⟨other, hother, rfl⟩ := mem_toFrames (hperm.mem_iff.mp (List.mem_of_find?_eq_some hfind))
  have hindex : indexField (frameOf (chunkCount gz) other (chunk gz other)) = index := by
    simpa using List.find?_some hfind
  rw [indexField_frameOf (lt_of_index hsize hother)] at hindex
  rw [hfind, Option.map_some, Option.getD_some, payload_frameOf, hindex]

/-- The payloads by index give the buffer back, in whatever order the frames arrive. -/
theorem reassemble_toFrames {received : List Bytes} (hperm : received.Perm (toFrames gz)) :
    reassemble received = gz := by
  rw [reassemble, hperm.length_eq, length_toFrames]
  conv_rhs => rw [← chunks_eq gz]
  apply List.flatMap_congr
  intro index hindex
  exact find_index hsize hperm (List.mem_range.mp hindex)

end Carried

end EdoproServer.Room.EvrpSerializer
