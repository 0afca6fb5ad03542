import WtbAutoware.Sensing.Transformer

/-!
# The cloud adapter `pointcloud_xyzirt_to_xyzirc`

`PointCloudXyzirtToXyzircNode` is the adapter that the transformer has replaced. It copies
the coordinates of every point as they are, reduces the intensity to a byte and takes the
ring as channel, from the bytes of the input to those of the output (`outPoint`). A field is
read where the message declares it, unless it does not fit into a point (`readFloat32`,
`readUint16`).

The loop writes sixteen bytes for each point into a buffer that has been sized before
(`outputData`). Where the buffer has room for all of them, they lie one after the other in
it (`outputData_eq_flatMap`).
-/

namespace WtbAutoware
namespace Sensing
namespace Adapter

/-! ### Reading -/

section Read

variable {K : Type} (beyond : ℤ → BitVec 8) (cloud : PointCloud2 K)

/-- `read_float32`: the bits of the `float`. -/
def readFloat32 (point offset : ℤ) : BitVec 32 :=
  if offset < 0 ∨ cloud.pointStep.toNat < offset + 4 then 0
  else uint32At beyond cloud.data (point + offset)

/-- `read_uint16`. -/
def readUint16 (point offset : ℤ) : BitVec 16 :=
  if offset < 0 ∨ cloud.pointStep.toNat < offset + 2 then 0
  else uint16At beyond cloud.data (point + offset)

end Read

section Intensity

variable {K : Type} [Field K] [LinearOrder K] [FloorRing K]

/-- `std::lround`: the nearest integer, and of two the one further from zero. -/
def lround (x : K) : ℤ := if 0 ≤ x then ⌊x + 1 / 2⌋ else ⌈x - 1 / 2⌉

/-- `intensity_to_uint8`. -/
def intensityToUint8 : Flt K → BitVec 8
  | .fin x => BitVec.ofInt 8 (lround (stdClamp x 0 255))
  -- not finite
  | _ => 0

end Intensity

/-! ### Writing -/

/-- The bytes of a `uint16_t`, little-endian. -/
def bytes16 (v : BitVec 16) : List (BitVec 8) := [v.extractLsb' 0 8, v.extractLsb' 8 8]

/-- The bytes of a `float` with the bits `v`. -/
def bytes32 (v : BitVec 32) : List (BitVec 8) :=
  bytes16 (v.extractLsb' 0 16) ++ bytes16 (v.extractLsb' 16 16)

/-- `memcpy` of `bytes` to the place `a` of `data`. What would land behind the end of `data`
is no part of it. -/
def writeAt (data : List (BitVec 8)) (a : ℕ) (bytes : List (BitVec 8)) : List (BitVec 8) :=
  (bytes.zipIdx a).foldl (fun data (b, k) => data.set k b) data

/-! ### The callback -/

/-- `make_field`. -/
def makeField (name : String) (offset : BitVec 32) (datatype : ℤ) : PointField where
  name := name
  offset := offset
  datatype := BitVec.ofInt 8 datatype
  count := 1

section Callback

variable {K : Type} [Field K] [LinearOrder K] [FloorRing K]
variable (beyond : ℤ → BitVec 8) (input : PointCloud2 K)

/-- The offset of the channel: `ring`, or else `channel`. -/
def channelOffset : ℤ :=
  if 0 ≤ fieldOffset input "ring" then fieldOffset input "ring" else fieldOffset input "channel"

/-- The sixteen bytes of an output point, made of the input point that starts at
`inPoint`. The return type is 1. -/
def pointAt (inPoint : ℤ) : List (BitVec 8) :=
  bytes32 (readFloat32 beyond input inPoint (fieldOffset input "x")) ++
  bytes32 (readFloat32 beyond input inPoint (fieldOffset input "y")) ++
  bytes32 (readFloat32 beyond input inPoint (fieldOffset input "z")) ++
  [intensityToUint8
    (float32 (K := K) (readFloat32 beyond input inPoint (fieldOffset input "intensity"))), 1] ++
  bytes16 (readUint16 beyond input inPoint (channelOffset input))

/-- Output point `i`, from the input at `i * point_step`. -/
def outPoint (i : ℕ) : List (BitVec 8) := pointAt beyond input (i * input.pointStep.toNat)

omit [Field K] [LinearOrder K] [FloorRing K] in
/-- `output.row_step`, a product of two `uint32_t`. -/
def outRowStep : BitVec 32 := 16 * input.width

/-- `output.data`: sized from the row step, then written point by point. -/
def outputData : List (BitVec 8) :=
  (List.range (input.width.toNat * input.height.toNat)).foldl
    (fun data i => writeAt data (i * 16) (outPoint beyond input i))
    (List.replicate (input.height.toNat * (outRowStep input).toNat) 0)

/-- One of the fields without which the callback gives up is missing. -/
def Missing : Prop :=
  fieldOffset input "x" < 0 ∨ fieldOffset input "y" < 0 ∨ fieldOffset input "z" < 0 ∨
    fieldOffset input "intensity" < 0

omit [Field K] [LinearOrder K] [FloorRing K] in
instance : Decidable (Missing input) := inferInstanceAs (Decidable (_ ∨ _))

/-- `on_pointcloud`, at the time `now` of the node's clock: the cloud that is published. -/
def onPointcloud (now : K) : Option (PointCloud2 K) :=
  if Missing input then none
  else
    some
      { header := { stamp := now, frameId := "base_link" }
        height := input.height
        width := input.width
        fields :=
          [makeField "x" 0 PointField.FLOAT32, makeField "y" 4 PointField.FLOAT32,
            makeField "z" 8 PointField.FLOAT32, makeField "intensity" 12 PointField.UINT8,
            makeField "return_type" 13 PointField.UINT8,
            makeField "channel" 14 PointField.UINT16]
        isBigendian := input.isBigendian
        pointStep := 16
        rowStep := outRowStep input
        data := outputData beyond input
        isDense := input.isDense }

/-- What the callback fills in. -/
theorem output_of_onPointcloud {now : K} {output : PointCloud2 K}
    (h : onPointcloud beyond input now = some output) :
    output.header = { stamp := now, frameId := "base_link" } ∧ output.height = input.height ∧
      output.width = input.width ∧ output.pointStep = 16 ∧ output.rowStep = outRowStep input ∧
      output.data = outputData beyond input := by
  unfold onPointcloud at h
  split at h
  · cases h
  · obtain rfl := Option.some.inj h
    exact ⟨rfl, rfl, rfl, rfl, rfl, rfl⟩

end Callback

/-! ### Reading back -/

section ReadBack

variable (beyond : ℤ → BitVec 8) (pre post : List (BitVec 8))

theorem byteAt_append (b : BitVec 8) : byteAt beyond (pre ++ b :: post) pre.length = b := by
  unfold byteAt
  rw [if_pos (Int.natCast_nonneg _), Int.toNat_natCast, List.getD_append_right _ _ _ _ le_rfl,
    Nat.sub_self]
  rfl

theorem uint16At_bytes16 (v : BitVec 16) :
    uint16At beyond (pre ++ bytes16 v ++ post) pre.length = v := by
  have hlow : byteAt beyond (pre ++ bytes16 v ++ post) pre.length = v.extractLsb' 0 8 := by
    rw [List.append_assoc]
    exact byteAt_append beyond pre _ _
  have hhigh : byteAt beyond (pre ++ bytes16 v ++ post) (pre.length + 1) = v.extractLsb' 8 8 := by
    have h := byteAt_append beyond (pre ++ [v.extractLsb' 0 8]) post (v.extractLsb' 8 8)
    rw [List.length_append, List.append_assoc] at h
    rw [List.append_assoc]
    exact h
  rw [uint16At, hlow, hhigh]
  exact BitVec.extractLsb'_append_extractLsb'

theorem uint32At_bytes32 (v : BitVec 32) :
    uint32At beyond (pre ++ bytes32 v ++ post) pre.length = v := by
  have hlow : uint16At beyond (pre ++ bytes32 v ++ post) pre.length = v.extractLsb' 0 16 := by
    have h := uint16At_bytes16 beyond pre (bytes16 (v.extractLsb' 16 16) ++ post)
      (v.extractLsb' 0 16)
    rwa [← List.append_assoc, List.append_assoc pre] at h
  have hhigh : uint16At beyond (pre ++ bytes32 v ++ post) (pre.length + 2) =
      v.extractLsb' 16 16 := by
    have h := uint16At_bytes16 beyond (pre ++ bytes16 (v.extractLsb' 0 16)) post
      (v.extractLsb' 16 16)
    rwa [List.append_assoc pre, List.length_append] at h
  rw [uint32At, hlow, hhigh]
  exact BitVec.extractLsb'_append_extractLsb'

end ReadBack

/-! ### What the loop leaves in the buffer -/

section Buffer

/-- Writing over a part of a buffer replaces that part. -/
theorem writeAt_append (pre old post new : List (BitVec 8)) (h : old.length = new.length) :
    writeAt (pre ++ old ++ post) pre.length new = pre ++ new ++ post := by
  induction new generalizing pre old with
  | nil =>
    obtain rfl := List.eq_nil_of_length_eq_zero h
    rfl
  | cons b new ih =>
    -- one byte is written, and the others follow at the next place
    obtain ⟨c, old, rfl⟩ := List.exists_cons_of_length_eq_add_one h
    have hset : (pre ++ c :: old ++ post).set pre.length b = pre ++ [b] ++ old ++ post := by
      simp
    have hrest := ih (pre ++ [b]) old (Nat.succ.inj h)
    calc writeAt (pre ++ c :: old ++ post) pre.length (b :: new)
        = writeAt ((pre ++ c :: old ++ post).set pre.length b) (pre ++ [b]).length new := by
          rw [List.length_append]
          rfl
      _ = pre ++ [b] ++ new ++ post := by rw [hset, hrest]
      _ = pre ++ b :: new ++ post := by simp

/-- Sixteen bytes at a time, from the start of a buffer with room for `room` of them. -/
theorem foldl_writeAt {point : ℕ → List (BitVec 8)} (hpoint : ∀ i, (point i).length = 16)
    {n room : ℕ} (h : n ≤ room) :
    (List.range n).foldl (fun data i => writeAt data (i * 16) (point i))
        (List.replicate (room * 16) 0) =
      (List.range n).flatMap point ++ List.replicate ((room - n) * 16) 0 := by
  induction n with
  | zero => rfl
  | succ n ih =>
    have hlen : ((List.range n).flatMap point).length = n * 16 := by
      rw [List.length_flatMap]
      simp [hpoint]
    -- the next point takes sixteen of the zeros that are left
    have hroom : List.replicate ((room - n) * 16) (0 : BitVec 8) =
        List.replicate 16 0 ++ List.replicate ((room - (n + 1)) * 16) 0 := by
      rw [List.replicate_append_replicate]
      congr 1
      omega
    rw [List.range_succ, List.foldl_append, ih (Nat.le_of_succ_le h), hroom, ← List.append_assoc,
      List.flatMap_append]
    change writeAt _ (n * 16) (point n) = _
    rw [← hlen, writeAt_append _ _ _ _ (by rw [List.length_replicate, hpoint])]
    simp

variable {K : Type} [Field K] [LinearOrder K] [FloorRing K]
variable (beyond : ℤ → BitVec 8) (input : PointCloud2 K)

theorem length_outPoint (i : ℕ) : (outPoint beyond input i).length = 16 := rfl

omit [Field K] [LinearOrder K] [FloorRing K] in
theorem toNat_outRowStep {input : PointCloud2 K} (h : 16 * input.width.toNat < 2 ^ 32) :
    (outRowStep input).toNat = 16 * input.width.toNat := by
  unfold outRowStep
  rw [BitVec.toNat_mul]
  exact Nat.mod_eq_of_lt h

/-- **The output.** If the row step of the output fits in 32 bits, the buffer holds its
points one after the other and nothing else. -/
theorem outputData_eq_flatMap {input : PointCloud2 K} (h : 16 * input.width.toNat < 2 ^ 32) :
    outputData beyond input =
      (List.range (input.width.toNat * input.height.toNat)).flatMap (outPoint beyond input) := by
  unfold outputData
  rw [toNat_outRowStep h, show input.height.toNat * (16 * input.width.toNat) =
    input.width.toNat * input.height.toNat * 16 by ring]
  rw [foldl_writeAt (length_outPoint beyond input) le_rfl, Nat.sub_self, Nat.zero_mul]
  exact List.append_nil _

end Buffer

/-! ### The output as it is read -/

section Output

variable (beyond : ℤ → BitVec 8)

/-- The coordinates, the two bytes and the channel among the sixteen bytes at `a`. -/
def membersAt (data : List (BitVec 8)) (a : ℤ) :
    (BitVec 32 × BitVec 32 × BitVec 32) × (BitVec 8 × BitVec 8) × BitVec 16 :=
  ((uint32At beyond data a, uint32At beyond data (a + 4), uint32At beyond data (a + 8)),
    (byteAt beyond data (a + 12), byteAt beyond data (a + 13)), uint16At beyond data (a + 14))

/-- What was written one after the other reads back. -/
theorem membersAt_append (pre post : List (BitVec 8)) (x y z : BitVec 32) (b c : BitVec 8)
    (v : BitVec 16) :
    membersAt beyond (pre ++ (bytes32 x ++ bytes32 y ++ bytes32 z ++ [b, c] ++ bytes16 v) ++ post)
      pre.length = ((x, y, z), (b, c), v) := by
  -- each member is read behind those in front of it
  have hx := uint32At_bytes32 beyond pre
    (bytes32 y ++ bytes32 z ++ [b, c] ++ bytes16 v ++ post) x
  have hy := uint32At_bytes32 beyond (pre ++ bytes32 x)
    (bytes32 z ++ [b, c] ++ bytes16 v ++ post) y
  have hz := uint32At_bytes32 beyond (pre ++ bytes32 x ++ bytes32 y)
    ([b, c] ++ bytes16 v ++ post) z
  have hb := byteAt_append beyond (pre ++ bytes32 x ++ bytes32 y ++ bytes32 z)
    ([c] ++ bytes16 v ++ post) b
  have hc := byteAt_append beyond (pre ++ bytes32 x ++ bytes32 y ++ bytes32 z ++ [b])
    (bytes16 v ++ post) c
  have hv := uint16At_bytes16 beyond (pre ++ bytes32 x ++ bytes32 y ++ bytes32 z ++ [b, c]) post v
  -- the lengths of those are the offsets
  have hlen (w : BitVec 32) : (bytes32 w).length = 4 := rfl
  simp only [List.append_assoc, List.length_append, hlen, List.length_cons, List.length_nil,
    Nat.cast_add, Nat.cast_ofNat, Nat.cast_one, List.cons_append, List.nil_append, zero_add,
    Int.reduceAdd] at hx hy hz hb hc hv
  unfold membersAt
  simp only [List.append_assoc, List.cons_append, List.nil_append]
  rw [hx, hy, hz, hb, hc, hv]

variable {K : Type} [Field K] [LinearOrder K] [FloorRing K] (input : PointCloud2 K)

/-- What the adapter has made of the input point at `a` reads back. -/
theorem membersAt_pointAt (beyond' : ℤ → BitVec 8) (pre post : List (BitVec 8)) (a : ℤ) :
    membersAt beyond' (pre ++ pointAt beyond input a ++ post) pre.length =
      ((readFloat32 beyond input a (fieldOffset input "x"),
          readFloat32 beyond input a (fieldOffset input "y"),
          readFloat32 beyond input a (fieldOffset input "z")),
        (intensityToUint8
          (float32 (K := K) (readFloat32 beyond input a (fieldOffset input "intensity"))), 1),
        readUint16 beyond input a (channelOffset input)) :=
  membersAt_append beyond' pre post _ _ _ _ _ _

/-- The same point has the same first coordinate. -/
theorem readFloat32_of_pointAt {a b : ℤ} (h : pointAt beyond input a = pointAt beyond input b) :
    readFloat32 beyond input a (fieldOffset input "x") =
      readFloat32 beyond input b (fieldOffset input "x") := by
  have ha := membersAt_pointAt beyond input beyond [] [] a
  have hb := membersAt_pointAt beyond input beyond [] [] b
  rw [h] at ha
  exact congrArg (fun members => members.1.1) (ha.symm.trans hb)

end Output

end Adapter
end Sensing
end WtbAutoware
