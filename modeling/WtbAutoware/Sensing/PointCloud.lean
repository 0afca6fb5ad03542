import WtbAutoware.Platform

/-!
# Point clouds on the wire

A `sensor_msgs/PointCloud2` is a byte array together with a list of fields, which say
where in the bytes of a point a value lies and of what type it is. The adapters look a
field up by its name (`fieldOffset`, `fieldDatatype`) and then copy bytes from the
array, at an index that they do not compare with its length. What such a copy finds
outside the array is `beyond`, so that a model of an adapter is defined for every
message.

The values are IEEE floats and doubles, decoded exactly (`float32`, `float64`).
-/

namespace WtbAutoware
namespace Sensing

/-- `sensor_msgs/PointField`. -/
structure PointField where
  name : String
  offset : BitVec 32
  datatype : BitVec 8
  count : BitVec 32
  deriving DecidableEq

/-- `PointField::UINT8`. -/
def PointField.UINT8 : ℤ := 2

/-- `PointField::UINT16`. -/
def PointField.UINT16 : ℤ := 4

/-- `PointField::UINT32`. -/
def PointField.UINT32 : ℤ := 6

/-- `PointField::FLOAT32`. -/
def PointField.FLOAT32 : ℤ := 7

/-- `PointField::FLOAT64`. -/
def PointField.FLOAT64 : ℤ := 8

/-- `sensor_msgs/PointCloud2`. -/
structure PointCloud2 (K : Type) where
  header : Header K
  height : BitVec 32
  width : BitVec 32
  fields : List PointField
  isBigendian : Bool
  pointStep : BitVec 32
  rowStep : BitVec 32
  data : List (BitVec 8)
  isDense : Bool
  deriving DecidableEq

/-- `pcl::PointCloud`. -/
structure PclCloud (P : Type) where
  height : BitVec 32
  width : BitVec 32
  isDense : Bool
  points : List P
  deriving DecidableEq

/-- `pcl::PointXYZI`. -/
structure PointXYZI (K : Type) where
  x : Flt K
  y : Flt K
  z : Flt K
  intensity : Flt K
  deriving DecidableEq

/-! ### Fields -/

section Fields

variable {K : Type} (cloud : PointCloud2 K) (name : String)

/-- The first field of that name. -/
def findField : Option PointField := cloud.fields.find? fun field => field.name = name

/-- `field_offset`: an `int`, so an offset from 2^31 on comes out negative. -/
def fieldOffset : ℤ :=
  match findField cloud name with
  | some field => field.offset.toInt
  | none => -1

/-- `field_datatype`. -/
def fieldDatatype : ℤ :=
  match findField cloud name with
  | some field => field.datatype.toNat
  | none => -1

end Fields

/-! ### Bytes -/

section Bytes

variable (beyond : ℤ → BitVec 8) (data : List (BitVec 8))

/-- The byte at index `a` from the start of `data`, inside it or not. -/
def byteAt (a : ℤ) : BitVec 8 := if 0 ≤ a then data.getD a.toNat (beyond a) else beyond a

/-- `memcpy` into a `uint16_t`, little-endian. -/
def uint16At (a : ℤ) : BitVec 16 := byteAt beyond data (a + 1) ++ byteAt beyond data a

/-- `memcpy` into a `uint32_t`. -/
def uint32At (a : ℤ) : BitVec 32 := uint16At beyond data (a + 2) ++ uint16At beyond data a

/-- `memcpy` into eight bytes. -/
def uint64At (a : ℤ) : BitVec 64 := uint32At beyond data (a + 4) ++ uint32At beyond data a

end Bytes

section Congr

variable {beyond beyond' : ℤ → BitVec 8} {data data' : List (BitVec 8)} {a : ℤ}

/-- Inside the array, nothing around it is read. -/
theorem byteAt_of_inside (h0 : 0 ≤ a) (h : a < data.length) :
    byteAt beyond data a = byteAt beyond' data a := by
  have hlt : a.toNat < data.length := by omega
  unfold byteAt
  rw [if_pos h0, if_pos h0, List.getD_eq_getElem _ _ hlt, List.getD_eq_getElem _ _ hlt]

theorem uint16At_congr
    (h : ∀ b, a ≤ b → b < a + 2 → byteAt beyond data b = byteAt beyond' data' b) :
    uint16At beyond data a = uint16At beyond' data' a := by
  unfold uint16At
  rw [h a (by omega) (by omega), h (a + 1) (by omega) (by omega)]

theorem uint32At_congr
    (h : ∀ b, a ≤ b → b < a + 4 → byteAt beyond data b = byteAt beyond' data' b) :
    uint32At beyond data a = uint32At beyond' data' a := by
  unfold uint32At
  rw [uint16At_congr fun b hlo hhi => h b (by omega) (by omega),
    uint16At_congr fun b hlo hhi => h b (by omega) (by omega)]

theorem uint64At_congr
    (h : ∀ b, a ≤ b → b < a + 8 → byteAt beyond data b = byteAt beyond' data' b) :
    uint64At beyond data a = uint64At beyond' data' a := by
  unfold uint64At
  rw [uint32At_congr fun b hlo hhi => h b (by omega) (by omega),
    uint32At_congr fun b hlo hhi => h b (by omega) (by omega)]

end Congr

/-! ### Floating-point bit patterns -/

section Ieee

variable {K : Type} [Field K]

/-- The value of an IEEE pattern with `e` bits of exponent and `m` bits of fraction. -/
def ieee (e m : ℕ) (negative : Bool) (exponent fraction : ℕ) : Flt K :=
  if exponent = 2 ^ e - 1 then
    if fraction ≠ 0 then .nan else if negative then .negInf else .posInf
  else
    -- a zero exponent marks the subnormal numbers, which have no leading one
    let significand : K := if exponent = 0 then fraction else 2 ^ m + fraction
    let magnitude := significand * 2 ^ ((max exponent 1 : ℤ) - (2 ^ (e - 1) - 1) - m)
    .fin (if negative then -magnitude else magnitude)

/-- The `float` with these bits. -/
def float32 (b : BitVec 32) : Flt K :=
  ieee 8 23 b.msb (b.extractLsb' 23 8).toNat (b.extractLsb' 0 23).toNat

/-- The `double` with these bits. -/
def float64 (b : BitVec 64) : Flt K :=
  ieee 11 52 b.msb (b.extractLsb' 52 11).toNat (b.extractLsb' 0 52).toNat

example : float32 (K := ℚ) 0xc0490000 = .fin (-201 / 64) := by decide +kernel

end Ieee

/-! ### Conversion to points -/

section Pcl

variable {K : Type}

/-- Where the points of a message start, row by row. -/
def pointStarts (m : PointCloud2 K) : List ℤ :=
  (List.range m.height.toNat).flatMap fun r =>
    (List.range m.width.toNat).map fun c => r * m.rowStep.toNat + c * m.pointStep.toNat

/-- The offset of the field that PCL maps to a member of this name and type. -/
def memberOffset (m : PointCloud2 K) (name : String) (datatype : ℤ) : Option ℤ :=
  (m.fields.find? fun f =>
    f.name = name ∧ (f.datatype.toNat : ℤ) = datatype ∧ f.count.toNat ≤ 1).map
      fun f => f.offset.toNat

variable [Field K]

/-- The `float` member of the point that starts at `a`; one that no field is mapped to
keeps its initial value. -/
def floatMember (m : PointCloud2 K) (a : ℤ) (name : String) : Flt K :=
  match memberOffset m name PointField.FLOAT32 with
  | some offset => float32 (uint32At (fun _ => 0) m.data (a + offset))
  | none => .fin 0

/-- `pcl::fromROSMsg` into `pcl::PointXYZI`, as PCL does it on a message whose bytes are
all there; it throws where they are not. -/
def fromROSMsgXyzi (m : PointCloud2 K) : Option (PclCloud (PointXYZI K)) :=
  if m.data.length < m.height.toNat * m.rowStep.toNat then none
  else
    some
      { height := m.height
        width := m.width
        isDense := m.isDense
        points := (pointStarts m).map fun a =>
          { x := floatMember m a "x"
            y := floatMember m a "y"
            z := floatMember m a "z"
            intensity := floatMember m a "intensity" } }

end Pcl

end Sensing
end WtbAutoware
