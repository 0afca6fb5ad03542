import WtbAutoware.Framework.Grid
import WtbAutoware.Sensing.Adapter
import WtbAutoware.Sensing.LockStep

/-!
# Clouds with more than one row

A `PointCloud2` may pad its rows, so point `i` of a cloud of width `w` starts at
`(i / w) * row_step + (i % w) * point_step` (`ownStart`), which is where PCL takes its
coordinates from. Both adapters look for it at `i * point_step`: the transformer for ring
and time, the old adapter for everything. The two places differ by the padding of the rows
in front (`ownStart_eq`), and in the transformer also if the point step does not fit into
an `int` (`pointStart_eq_ownStart_iff`).

Where they differ, some contents of the message tell them apart (`exists_data_ne`). So an
adapter takes the attributes of every point from that point, for all contents of a message,
exactly if the places are the same: `transformer_ownPoints_iff` and
`adapter_ownPoints_iff`, put together in `ownPoints_iff`. `paddedCloud` is a cloud of two
rows with padding.
-/

namespace WtbAutoware
namespace Sensing

open Reactive

/-! ### The place of a point -/

section Place

variable {K : Type} (m : PointCloud2 K)

/-- Where the bytes of point `i` start in the format. -/
def ownStart (i : ℕ) : ℤ :=
  (i / m.width.toNat : ℕ) * m.rowStep.toNat + (i % m.width.toNat : ℕ) * m.pointStep.toNat

/-- PCL's points are those of the format. -/
theorem pointStarts_eq_map :
    pointStarts m = (List.range (m.height.toNat * m.width.toNat)).map (ownStart m) := by
  have hcast (n : ℕ) : (do let a ← List.range n; pure (a : ℤ)) = (List.range n).map Nat.cast :=
    List.flatMap_pure_eq_map ..
  unfold pointStarts
  rw [hcast, hcast, List.flatMap_map]
  simp only [List.map_map]
  exact Grid.rowMajor_eq_map m.height.toNat m.width.toNat
    fun r c => (r : ℤ) * m.rowStep.toNat + c * m.pointStep.toNat

/-- The rows hold their points, and may be padded. -/
def RowsHold : Prop := m.width.toNat * m.pointStep.toNat ≤ m.rowStep.toNat

instance : Decidable (RowsHold m) := inferInstanceAs (Decidable (_ ≤ _))

variable {m}

/-- The padding of the rows in front comes on top of `i * point_step`. -/
theorem ownStart_eq (i : ℕ) :
    ownStart m i = i * m.pointStep.toNat +
      (i / m.width.toNat : ℕ) * (m.rowStep.toNat - m.width.toNat * m.pointStep.toNat) := by
  have hdiv : (m.width.toNat : ℤ) * (i / m.width.toNat : ℕ) + (i % m.width.toNat : ℕ) = i := by
    exact_mod_cast Nat.div_add_mod i m.width.toNat
  unfold ownStart
  calc ((i / m.width.toNat : ℕ) : ℤ) * m.rowStep.toNat + (i % m.width.toNat : ℕ) * m.pointStep.toNat
      = (m.width.toNat * (i / m.width.toNat : ℕ) + (i % m.width.toNat : ℕ)) * m.pointStep.toNat +
          (i / m.width.toNat : ℕ) * (m.rowStep.toNat - m.width.toNat * m.pointStep.toNat) := by ring
    _ = i * m.pointStep.toNat +
          (i / m.width.toNat : ℕ) * (m.rowStep.toNat - m.width.toNat * m.pointStep.toNat) := by
        rw [hdiv]

/-- A single row, or no padding. -/
theorem ownStart_eq_mul {i : ℕ} (hi : i < m.width.toNat * m.height.toNat)
    (h : m.height.toNat ≤ 1 ∨ m.rowStep.toNat = m.width.toNat * m.pointStep.toNat) :
    ownStart m i = i * m.pointStep.toNat := by
  rw [ownStart_eq]
  rcases h with hone | hstep
  · have hrow : i / m.width.toNat = 0 := by
      refine Nat.div_eq_of_lt (hi.trans_le ?_)
      calc m.width.toNat * m.height.toNat ≤ m.width.toNat * 1 := Nat.mul_le_mul_left _ hone
        _ = m.width.toNat := Nat.mul_one _
    rw [hrow, Nat.cast_zero, zero_mul, add_zero]
  · rw [hstep, Nat.cast_mul, sub_self, mul_zero, add_zero]

/-- The second row starts one row step after the first. -/
theorem ownStart_width (hw : 0 < m.width.toNat) : ownStart m m.width.toNat = m.rowStep.toNat := by
  unfold ownStart
  rw [Nat.div_self hw, Nat.mod_self, Nat.cast_one, Nat.cast_zero, one_mul, zero_mul, add_zero]

theorem pointStep_toInt (m : PointCloud2 K) :
    m.pointStep.toInt = m.pointStep.toNat ∨
      2 ^ 31 ≤ m.pointStep.toNat ∧ m.pointStep.toInt = m.pointStep.toNat - 2 ^ 32 := by
  rw [BitVec.toInt_eq_toNat_cond]
  split
  · exact Or.inl rfl
  · refine Or.inr ⟨by omega, ?_⟩
    norm_num

/-- Where the transformer finds the first point of the second row, there is no padding in front
of it, and the step is not read as a negative number. -/
theorem fits_of_second_row (hpos : 0 < m.width.toNat)
    (h : pointStart m m.width.toNat = ownStart m m.width.toNat) :
    m.rowStep.toNat = m.width.toNat * m.pointStep.toNat ∧ m.pointStep.toNat < 2 ^ 31 := by
  rw [ownStart_width hpos, pointStart] at h
  rcases pointStep_toInt m with hfit | ⟨hbig, hneg⟩
  · rw [hfit] at h
    have hint := BitVec.toInt_lt (x := m.pointStep)
    exact ⟨by exact_mod_cast h.symm, by omega⟩
  · -- a step that is read as negative leads away from the data
    have hlt : m.pointStep.toInt < 0 := by
      have := m.pointStep.isLt
      omega
    have hprod : (m.width.toNat : ℤ) * m.pointStep.toInt < 0 :=
      mul_neg_of_pos_of_neg (by exact_mod_cast hpos) hlt
    omega

/-- In a single row, a step that is read as negative is that of a single point. -/
theorem pointStart_of_one_row (hrows : RowsHold m) (hone : m.height.toNat ≤ 1) {i : ℕ}
    (hi : i < m.width.toNat * m.height.toNat) : pointStart m i = i * m.pointStep.toNat := by
  have hrow : m.rowStep.toNat < 2 ^ 32 := m.rowStep.isLt
  unfold RowsHold at hrows
  rw [pointStart]
  rcases pointStep_toInt m with hfit | ⟨hbig, -⟩
  · rw [hfit]
  · -- two points with so large a step would not fit in a row
    have hwidth : m.width.toNat ≤ 1 := by
      by_contra hwide
      have : 2 * 2 ^ 31 ≤ m.width.toNat * m.pointStep.toNat :=
        Nat.mul_le_mul (not_le.mp hwide) hbig
      omega
    have hzero : i = 0 := by
      have := Nat.mul_le_mul hwidth hone
      omega
    rw [hzero, Nat.cast_zero, zero_mul, zero_mul]

/-- The transformer finds every point of a cloud whose rows hold their points exactly if
there is one row, or the rows are not padded and the point step fits into an `int`. -/
theorem pointStart_eq_ownStart_iff (hrows : RowsHold m) :
    (∀ i < m.width.toNat * m.height.toNat, pointStart m i = ownStart m i) ↔
      m.width.toNat = 0 ∨ m.height.toNat ≤ 1 ∨
        m.rowStep.toNat = m.width.toNat * m.pointStep.toNat ∧ m.pointStep.toNat < 2 ^ 31 := by
  refine ⟨?_, ?_⟩
  · intro h
    by_contra hcon
    push Not at hcon
    obtain ⟨hw, hh, hstep⟩ := hcon
    have hpos : 0 < m.width.toNat := Nat.pos_of_ne_zero hw
    -- the first point of the second row tells
    obtain ⟨heq, hfit⟩ := fits_of_second_row hpos (h _ (lt_mul_of_one_lt_right hpos hh))
    exact absurd hfit (not_lt.mpr (hstep heq))
  · intro h i hi
    rcases h with hw | hone | ⟨hstep, hfit⟩
    · rw [hw, Nat.zero_mul] at hi
      exact absurd hi (Nat.not_lt_zero i)
    · rw [ownStart_eq_mul hi (Or.inl hone), pointStart_of_one_row hrows hone hi]
    · rw [ownStart_eq_mul hi (Or.inr hstep), pointStart]
      rcases pointStep_toInt m with hfit' | ⟨hbig, -⟩
      · rw [hfit']
      · omega

/-- The old adapter finds every point exactly if there is one row or the rows are not
padded. -/
theorem mul_eq_ownStart_iff :
    (∀ i < m.width.toNat * m.height.toNat, (i * m.pointStep.toNat : ℤ) = ownStart m i) ↔
      m.width.toNat = 0 ∨ m.height.toNat ≤ 1 ∨
        m.rowStep.toNat = m.width.toNat * m.pointStep.toNat := by
  refine ⟨?_, ?_⟩
  · intro h
    by_contra hcon
    push Not at hcon
    obtain ⟨hw, hh, hstep⟩ := hcon
    have hpos : 0 < m.width.toNat := Nat.pos_of_ne_zero hw
    -- the first point of the second row tells
    have hsecond := h m.width.toNat (lt_mul_of_one_lt_right hpos hh)
    rw [ownStart_width hpos] at hsecond
    exact hstep (by exact_mod_cast hsecond.symm)
  · intro h i hi
    rcases h with hw | h
    · rw [hw, Nat.zero_mul] at hi
      exact absurd hi (Nat.not_lt_zero i)
    · exact (ownStart_eq_mul hi h).symm

end Place

/-! ### Contents that tell two places apart -/

section Separate

variable (beyond : ℤ → BitVec 8)

/-- The last byte of a word tells its place from every place in front of it. The word is
read by `read` from `size` bytes, and `top` is the last of them. -/
theorem exists_data_ne {α : Type} {read : List (BitVec 8) → ℤ → α} (top : α → BitVec 8)
    {size : ℤ} (hsize : 0 < size)
    (htop : ∀ data a, top (read data a) = byteAt beyond data (a + size - 1))
    (hcongr : ∀ data data' a, (∀ c, a ≤ c → c < a + size →
      byteAt beyond data c = byteAt beyond data' c) → read data a = read data' a)
    {a b : ℤ} {n : ℕ} (hab : a < b) (hb : 0 ≤ b) (hn : b + size ≤ n) :
    ∃ data : List (BitVec 8), data.length = n ∧ read data a ≠ read data b := by
  by_contra hcon
  push Not at hcon
  -- two contents that differ in the last byte of the word at `b`
  let zeros : List (BitVec 8) := List.replicate n 0
  let marked : List (BitVec 8) := zeros.set (b + size - 1).toNat 1
  have hlast : (b + size - 1).toNat < zeros.length := by
    rw [List.length_replicate]
    omega
  have hsame (c : ℤ) (hc : c ≠ b + size - 1) :
      byteAt beyond zeros c = byteAt beyond marked c := by
    unfold byteAt
    by_cases h0 : 0 ≤ c
    · have hne : (b + size - 1).toNat ≠ c.toNat := by omega
      rw [if_pos h0, if_pos h0, List.getD_eq_getElem?_getD, List.getD_eq_getElem?_getD,
        List.getElem?_set_ne hne]
    · rw [if_neg h0, if_neg h0]
  have hread : read zeros b = read marked b :=
    calc read zeros b = read zeros a := (hcon zeros (List.length_replicate ..)).symm
      _ = read marked a := hcongr _ _ _ fun c _ hc => hsame c (by omega)
      _ = read marked b := hcon marked (by rw [List.length_set, List.length_replicate])
  have hzero : byteAt beyond zeros (b + size - 1) = 0 := by
    rw [byteAt, if_pos (by omega), List.getD_eq_getElem _ _ hlast, List.getElem_replicate]
  have hone : byteAt beyond marked (b + size - 1) = 1 := by
    have hlast' : (b + size - 1).toNat < marked.length := by rwa [List.length_set]
    rw [byteAt, if_pos (by omega), List.getD_eq_getElem _ _ hlast', List.getElem_set_self]
  have hclash := congrArg top hread
  rw [htop, htop, hzero, hone] at hclash
  exact absurd hclash (by decide)

theorem exists_uint16At_ne {a b : ℤ} {n : ℕ} (hab : a < b) (hb : 0 ≤ b) (hn : b + 2 ≤ n) :
    ∃ data : List (BitVec 8), data.length = n ∧
      uint16At beyond data a ≠ uint16At beyond data b := by
  refine exists_data_ne beyond (fun v => v.extractLsb' 8 8) (by decide : (0 : ℤ) < 2) ?_
    (fun _ _ _ => uint16At_congr) hab hb hn
  intro data a
  rw [show a + 2 - 1 = a + 1 by ring, uint16At]
  exact BitVec.extractLsb'_append_eq_left

theorem exists_uint32At_ne {a b : ℤ} {n : ℕ} (hab : a < b) (hb : 0 ≤ b) (hn : b + 4 ≤ n) :
    ∃ data : List (BitVec 8), data.length = n ∧
      uint32At beyond data a ≠ uint32At beyond data b := by
  refine exists_data_ne beyond (fun v => (v.extractLsb' 16 16).extractLsb' 8 8)
    (by decide : (0 : ℤ) < 4) ?_ (fun _ _ _ => uint32At_congr) hab hb hn
  intro data a
  rw [show a + 4 - 1 = a + 2 + 1 by ring, uint32At]
  rw [BitVec.extractLsb'_append_eq_left, uint16At]
  exact BitVec.extractLsb'_append_eq_left

end Separate

/-! ### The transformer -/

/-- The same message with other contents. -/
def PointCloud2.withData {K : Type} (m : PointCloud2 K) (data : List (BitVec 8)) :
    PointCloud2 K :=
  { m with data := data }

section Transformer

variable {K : Type} [Field K] [LinearOrder K]

/-- The point that PCL makes of the bytes that start at `a`. -/
def xyziAt (m : PointCloud2 K) (a : ℤ) : PointXYZI K where
  x := floatMember m a "x"
  y := floatMember m a "y"
  z := floatMember m a "z"
  intensity := floatMember m a "intensity"

/-- `pcl::fromROSMsg` returns point `i` at index `i`. -/
def ReturnsInPlace (E : Env K) (m : PointCloud2 K) : Prop :=
  ∃ cloudIn, E.fromROSMsg m = some cloudIn ∧ cloudIn.points = (pointStarts m).map (xyziAt m)

theorem returnsInPlace_fromROSMsgXyzi {E : Env K} {m : PointCloud2 K}
    (hE : E.fromROSMsg m = fromROSMsgXyzi m)
    (hlen : m.height.toNat * m.rowStep.toNat ≤ m.data.length) : ReturnsInPlace E m := by
  unfold ReturnsInPlace
  rw [hE, fromROSMsgXyzi, if_neg (not_lt.mpr hlen)]
  exact ⟨_, rfl, rfl⟩

variable (E : Env K) (s : State) (m : PointCloud2 K)

/-- The relative time of the point that starts at `a`. -/
def timeAt (a : ℤ) : Flt K :=
  if 0 ≤ s.timeOffset then absTime E s m (a + s.timeOffset) - .fin m.header.stamp else .fin 0

/-- The point that starts at `a`, in the LIO-SAM format. -/
def liosamPointAt (a : ℤ) : PointXYZIRT K where
  x := transformRow E 0 (xyziAt m a)
  y := transformRow E 1 (xyziAt m a)
  z := transformRow E 2 (xyziAt m a)
  intensity := (xyziAt m a).intensity
  ring := readUint16 E m a s.ringOffset
  time := timeAt E s m a

variable [FloorRing K]

/-- The point that starts at `a`, in the Autoware format. -/
def autowarePointAt (a : ℤ) : PointXYZIRC K where
  x := transformRow E 0 (xyziAt m a)
  y := transformRow E 1 (xyziAt m a)
  z := transformRow E 2 (xyziAt m a)
  intensity := intensityByte (xyziAt m a).intensity
  returnType := E.singleStrongest
  channel := readUint16 E m a s.ringOffset

/-- Every point that the transformer publishes is made of one input point. -/
def TransformerOwnPoints (P : Params K) (s : State) (m : PointCloud2 K) : Prop :=
  ∀ cloudIn, E.fromROSMsg m = some cloudIn →
    ∀ k i : ℕ, (retainedIndices E P cloudIn.points)[k]? = some i →
      (autowareOf ((pointCloudTransformer E P).out s m))[k]? =
          some (autowarePointAt E (resolveOffsets m s) m (ownStart m i)) ∧
        (liosamOf ((pointCloudTransformer E P).out s m))[k]? =
          some (liosamPointAt E (resolveOffsets m s) m (ownStart m i))

/-- What is published is made of the coordinates at the place of the point and of the ring
and time at the place where the callback looks. -/
theorem published_at {P : Params K} {s : State} {m : PointCloud2 K}
    {cloudIn : PclCloud (PointXYZI K)} (hpcl : E.fromROSMsg m = some cloudIn)
    (hpoints : cloudIn.points = (pointStarts m).map (xyziAt m)) {k i : ℕ}
    (hk : (retainedIndices E P cloudIn.points)[k]? = some i) :
    i < m.width.toNat * m.height.toNat ∧
    (autowareOf ((pointCloudTransformer E P).out s m))[k]? =
        some (autowarePoint E (resolveOffsets m s) m i (xyziAt m (ownStart m i))) ∧
      (liosamOf ((pointCloudTransformer E P).out s m))[k]? =
        some (liosamPoint E (resolveOffsets m s) m i (xyziAt m (ownStart m i))) := by
  rw [retainedIndices, List.getElem?_map, Option.map_eq_some_iff] at hk
  obtain ⟨⟨p, j⟩, hp, rfl⟩ := hk
  -- the point at index `j` is the one that starts at `ownStart m j`
  have hj := ((mem_retained E P).mp (List.mem_of_getElem? hp)).1
  rw [hpoints, pointStarts_eq_map, List.map_map, List.getElem?_map, Option.map_eq_some_iff] at hj
  obtain ⟨j', hj', rfl⟩ := hj
  obtain ⟨hlt, rfl⟩ := List.getElem?_eq_some_iff.mp hj'
  rw [List.getElem_range] at *
  rw [List.length_range, Nat.mul_comm] at hlt
  refine ⟨hlt, ?_, ?_⟩
  · rw [autowareOf_out E s m P hpcl, autowarePoints, List.getElem?_map, hp]
    rfl
  · rw [liosamOf_out E s m P hpcl, liosamPoints, List.getElem?_map, hp]
    rfl

omit [FloorRing K] in
/-- With the filter off, every point is let through. -/
theorem retainedIndices_of_unfiltered {P : Params K} (hP : P.useHeightFilter = false)
    (points : List (PointXYZI K)) : retainedIndices E P points = List.range points.length := by
  have hall : retained E P points = points.zipIdx := by
    refine List.filter_eq_self.mpr ?_
    intro q _
    have hkept : ¬ Dropped E P q.1 := fun h => Bool.false_ne_true (hP.symm.trans h.1)
    exact decide_eq_true hkept
  rw [retainedIndices, hall, List.zipIdx_map_snd, ← List.range_eq_range']

omit [Field K] [LinearOrder K] [FloorRing K] in
/-- A point lies in its row, and the row in the data. -/
theorem ownStart_add_le {m : PointCloud2 K} (hrows : RowsHold m) {i : ℕ}
    (hi : i < m.width.toNat * m.height.toNat) :
    0 ≤ ownStart m i ∧
      ownStart m i + m.pointStep.toNat ≤ (m.height.toNat * m.rowStep.toNat : ℕ) := by
  have hw : 0 < m.width.toNat := Nat.pos_of_mul_pos_right (Nat.zero_lt_of_lt hi)
  have hrow : i / m.width.toNat < m.height.toNat := Nat.div_lt_of_lt_mul hi
  have hcol : i % m.width.toNat < m.width.toNat := Nat.mod_lt i hw
  -- a point ends with its row at the latest, and a row with the data
  have hend : i / m.width.toNat * m.rowStep.toNat + i % m.width.toNat * m.pointStep.toNat +
      m.pointStep.toNat ≤ m.height.toNat * m.rowStep.toNat :=
    calc i / m.width.toNat * m.rowStep.toNat + i % m.width.toNat * m.pointStep.toNat +
          m.pointStep.toNat
        = i / m.width.toNat * m.rowStep.toNat +
            (i % m.width.toNat + 1) * m.pointStep.toNat := by ring
      _ ≤ i / m.width.toNat * m.rowStep.toNat + m.width.toNat * m.pointStep.toNat :=
          Nat.add_le_add_left (Nat.mul_le_mul_right _ hcol) _
      _ ≤ i / m.width.toNat * m.rowStep.toNat + m.rowStep.toNat := Nat.add_le_add_left hrows _
      _ = (i / m.width.toNat + 1) * m.rowStep.toNat := (Nat.succ_mul ..).symm
      _ ≤ m.height.toNat * m.rowStep.toNat := Nat.mul_le_mul_right _ hrow
  unfold ownStart
  exact ⟨by positivity, by exact_mod_cast hend⟩

omit [Field K] [LinearOrder K] [FloorRing K] in
/-- The callbacks never look behind the place of a point. -/
theorem mul_le_ownStart {m : PointCloud2 K} (hrows : RowsHold m) (i : ℕ) :
    (i * m.pointStep.toNat : ℤ) ≤ ownStart m i := by
  have hpad : (0 : ℤ) ≤ m.rowStep.toNat - m.width.toNat * m.pointStep.toNat := by
    have : ((m.width.toNat * m.pointStep.toNat : ℕ) : ℤ) ≤ m.rowStep.toNat := by
      exact_mod_cast hrows
    push_cast at this
    exact sub_nonneg.mpr this
  rw [ownStart_eq]
  exact le_add_of_nonneg_right (mul_nonneg (Int.natCast_nonneg _) hpad)

omit [Field K] [LinearOrder K] [FloorRing K] in
theorem pointStart_le_ownStart {m : PointCloud2 K} (hrows : RowsHold m) (i : ℕ) :
    pointStart m i ≤ ownStart m i := by
  have hstep : m.pointStep.toInt ≤ m.pointStep.toNat := by
    rcases pointStep_toInt m with h | ⟨-, h⟩
    · exact h.le
    · omega
  exact (mul_le_mul_of_nonneg_left hstep (Int.natCast_nonneg i)).trans (mul_le_ownStart hrows i)

/-- **The transformer.** For a message shape whose rows hold their points and whose ring
lies in the point: for all contents and all parameters, what is published is made of one
input point each, if and only if there is at most one row, or the rows are not padded and
the point step fits into an `int`. -/
theorem transformer_ownPoints_iff (s : State) (m : PointCloud2 K) (hrows : RowsHold m)
    (hring : 0 ≤ (resolveOffsets m s).ringOffset)
    (hring' : (resolveOffsets m s).ringOffset + 2 ≤ m.pointStep.toNat)
    (hpcl : ∀ data, data.length = m.height.toNat * m.rowStep.toNat →
      ReturnsInPlace E (m.withData data)) :
    (∀ P data, data.length = m.height.toNat * m.rowStep.toNat →
      TransformerOwnPoints E P s (m.withData data)) ↔
      m.width.toNat = 0 ∨ m.height.toNat ≤ 1 ∨
        m.rowStep.toNat = m.width.toNat * m.pointStep.toNat ∧ m.pointStep.toNat < 2 ^ 31 := by
  rw [← pointStart_eq_ownStart_iff hrows]
  refine ⟨?_, ?_⟩
  · intro h i hi
    by_contra hne
    have hlt : pointStart m i + (resolveOffsets m s).ringOffset <
        ownStart m i + (resolveOffsets m s).ringOffset := by
      have := lt_of_le_of_ne (pointStart_le_ownStart hrows i) hne
      omega
    obtain ⟨hplace, hend⟩ := ownStart_add_le hrows hi
    -- contents whose rings differ at the two places
    obtain ⟨data, hlen, hdiff⟩ := exists_uint16At_ne E.beyond
      (n := m.height.toNat * m.rowStep.toNat) hlt (by omega) (by omega)
    obtain ⟨cloudIn, hcloud, hpoints⟩ := hpcl data hlen
    have hcount : i < cloudIn.points.length := by
      rw [hpoints, List.length_map, pointStarts_eq_map, List.length_map, List.length_range,
        Nat.mul_comm]
      exact hi
    have hk : (retainedIndices E Params.default cloudIn.points)[i]? = some i := by
      rw [retainedIndices_of_unfiltered E rfl, List.getElem?_range hcount]
    obtain ⟨-, hown⟩ := h Params.default data hlen cloudIn hcloud i i hk
    obtain ⟨-, -, hread⟩ := published_at E (s := s) hcloud hpoints hk
    have hrings : readUint16 E (m.withData data) (ownStart m i) (resolveOffsets m s).ringOffset =
        readUint16 E (m.withData data) (pointStart m i) (resolveOffsets m s).ringOffset :=
      congrArg PointXYZIRT.ring (Option.some.inj (hown.symm.trans hread))
    unfold readUint16 at hrings
    rw [if_neg (not_lt.mpr hring), if_neg (not_lt.mpr hring)] at hrings
    exact hdiff hrings.symm
  · intro h P data hlen cloudIn hcloud k i hk
    obtain ⟨cloudIn', hcloud', hpoints⟩ := hpcl data hlen
    obtain rfl := Option.some.inj (hcloud.symm.trans hcloud')
    obtain ⟨hi, haw, hls⟩ := published_at E (s := s) hcloud hpoints hk
    have hplace : pointStart (m.withData data) i = ownStart (m.withData data) i := h i hi
    refine ⟨haw.trans ?_, hls.trans ?_⟩
    · unfold autowarePoint autowarePointAt
      rw [hplace]
    · unfold liosamPoint liosamPointAt pointTime timeAt
      rw [hplace]

end Transformer

/-! ### The old adapter -/

namespace Adapter

variable {K : Type} [Field K] [LinearOrder K] [FloorRing K]
variable (beyond : ℤ → BitVec 8) (now : K) (m : PointCloud2 K)

/-- The sixteen bytes of point `i` of a cloud. -/
def pointBytes (data : List (BitVec 8)) (i : ℕ) : List (BitVec 8) := (data.drop (i * 16)).take 16

/-- Every point that the adapter publishes is made of one input point. -/
def OwnPoints : Prop :=
  ∃ output, onPointcloud beyond m now = some output ∧
    ∀ i < m.width.toNat * m.height.toNat,
      pointBytes output.data i = pointAt beyond m (ownStart m i)

omit [Field K] [LinearOrder K] [FloorRing K] in
/-- The message declares coordinates and intensity, as floats inside the point. -/
def DeclaresXyzi : Prop :=
  ∀ name ∈ ["x", "y", "z", "intensity"],
    0 ≤ fieldOffset m name ∧ fieldOffset m name + 4 ≤ m.pointStep.toNat

omit [Field K] [LinearOrder K] [FloorRing K] in
instance : Decidable (DeclaresXyzi m) :=
  inferInstanceAs (Decidable (∀ name ∈ ["x", "y", "z", "intensity"], _))

variable {m}

omit [Field K] [LinearOrder K] [FloorRing K] in
theorem DeclaresXyzi.not_missing (h : DeclaresXyzi m) : ¬ Missing m := by
  rintro (hx | hy | hz | hi)
  · exact absurd (h "x" (by simp)).1 (not_le.mpr hx)
  · exact absurd (h "y" (by simp)).1 (not_le.mpr hy)
  · exact absurd (h "z" (by simp)).1 (not_le.mpr hz)
  · exact absurd (h "intensity" (by simp)).1 (not_le.mpr hi)

omit [Field K] [LinearOrder K] [FloorRing K] in
/-- A field inside the point is read where it is. -/
theorem readFloat32_of_inside {data : List (BitVec 8)} {point offset : ℤ} (h0 : 0 ≤ offset)
    (h : offset + 4 ≤ m.pointStep.toNat) :
    readFloat32 beyond (m.withData data) point offset = uint32At beyond data (point + offset) :=
  if_neg (not_or.mpr ⟨not_lt.mpr h0, not_lt.mpr h⟩)

/-- A buffer of blocks of sixteen bytes has block `i` at `16 * i`. -/
theorem flatMap_eq_append {point : ℕ → List (BitVec 8)} (hpoint : ∀ i, (point i).length = 16)
    {i n : ℕ} (hi : i < n) :
    ∃ pre post, (List.range n).flatMap point = pre ++ point i ++ post ∧ pre.length = i * 16 := by
  obtain ⟨d, rfl⟩ := Nat.exists_eq_add_of_lt hi
  refine ⟨(List.range i).flatMap point, (List.range d).flatMap fun j => point (i + 1 + j), ?_, ?_⟩
  · rw [show i + d + 1 = i + 1 + d by ring, List.range_add, List.flatMap_append, List.flatMap_map,
      List.range_succ, List.flatMap_append, List.flatMap_singleton]
  · rw [List.length_flatMap]
    simp [hpoint]

theorem pointBytes_flatMap {point : ℕ → List (BitVec 8)} (hpoint : ∀ i, (point i).length = 16)
    {i n : ℕ} (hi : i < n) : pointBytes ((List.range n).flatMap point) i = point i := by
  obtain ⟨pre, post, heq, hlen⟩ := flatMap_eq_append hpoint hi
  unfold pointBytes
  rw [heq, ← hlen, List.append_assoc, List.drop_left, ← hpoint i, List.take_left]

/-- With room for its points, the output holds what the loop has made of each place. -/
theorem pointBytes_outputData (h : 16 * m.width.toNat < 2 ^ 32) {i : ℕ}
    (hi : i < m.width.toNat * m.height.toNat) :
    pointBytes (outputData beyond m) i = pointAt beyond m (i * m.pointStep.toNat) := by
  rw [outputData_eq_flatMap beyond h, pointBytes_flatMap (length_outPoint beyond m) hi]
  rfl

theorem length_writeAt (data : List (BitVec 8)) (a : ℕ) (bytes : List (BitVec 8)) :
    (writeAt data a bytes).length = data.length := by
  unfold writeAt
  induction bytes generalizing data a with
  | nil => rfl
  | cons b bytes ih => exact (ih (data.set a b) (a + 1)).trans List.length_set

theorem length_outputData :
    (outputData beyond m).length = m.height.toNat * (outRowStep m).toNat := by
  unfold outputData
  induction List.range (m.width.toNat * m.height.toNat) using List.reverseRecOn with
  | nil => rw [List.foldl_nil, List.length_replicate]
  | append_singleton is i ih =>
    rw [List.foldl_append, List.foldl_cons, List.foldl_nil, length_writeAt]
    exact ih

/-- Without room for its points, the output ends before the last of them. -/
theorem length_outputData_le (hh : 0 < m.height.toNat) (h : 2 ^ 32 ≤ 16 * m.width.toNat) :
    (outputData beyond m).length ≤ (m.width.toNat * m.height.toNat - 1) * 16 := by
  have hstep : (outRowStep m).toNat + 2 ^ 32 ≤ 16 * m.width.toNat := by
    have hmod : (outRowStep m).toNat = 16 * m.width.toNat % 2 ^ 32 := BitVec.toNat_mul ..
    rw [hmod, Nat.mod_eq_sub_mod h]
    have := Nat.mod_le (16 * m.width.toNat - 2 ^ 32) (2 ^ 32)
    omega
  have hrows : m.height.toNat * ((outRowStep m).toNat + 16) ≤
      m.height.toNat * (16 * m.width.toNat) := Nat.mul_le_mul_left _ (by omega)
  have hcomm : m.height.toNat * (16 * m.width.toNat) = m.width.toNat * m.height.toNat * 16 := by
    ring
  rw [hcomm, Nat.mul_add] at hrows
  rw [length_outputData]
  omega

theorem pointBytes_last (hh : 0 < m.height.toNat) (h : 2 ^ 32 ≤ 16 * m.width.toNat) :
    pointBytes (outputData beyond m) (m.width.toNat * m.height.toNat - 1) = [] := by
  unfold pointBytes
  rw [List.drop_eq_nil_of_le (length_outputData_le beyond hh h), List.take_nil]

/-- A message with these fields is answered with `outputData`. -/
theorem ownPoints_withData_iff (hfields : DeclaresXyzi m) (data : List (BitVec 8)) :
    OwnPoints beyond now (m.withData data) ↔
      ∀ i < m.width.toNat * m.height.toNat,
        pointBytes (outputData beyond (m.withData data)) i =
          pointAt beyond (m.withData data) (ownStart m i) := by
  have hpublish : ¬ Missing (m.withData data) := hfields.not_missing
  rw [OwnPoints, onPointcloud, if_neg hpublish]
  refine ⟨?_, fun hown => ⟨_, rfl, hown⟩⟩
  rintro ⟨output, hout, hown⟩
  obtain rfl := Option.some.inj hout
  exact hown

omit [Field K] [LinearOrder K] [FloorRing K] in
/-- A cloud that has a point has a row, so its row steps fit. -/
theorem fits_of_lt (hroom : m.height.toNat = 0 ∨ 16 * m.width.toNat < 2 ^ 32) {i : ℕ}
    (hi : i < m.width.toNat * m.height.toNat) : 16 * m.width.toNat < 2 ^ 32 := by
  rcases hroom with hzero | hfit
  · rw [hzero, Nat.mul_zero] at hi
    exact absurd hi (Nat.not_lt_zero i)
  · exact hfit

/-- Where the row step of the output wraps around, the last point is not there. -/
theorem room_of_ownPoints (hfields : DeclaresXyzi m)
    (h : ∀ data, data.length = m.height.toNat * m.rowStep.toNat →
      OwnPoints beyond now (m.withData data)) :
    m.height.toNat = 0 ∨ 16 * m.width.toNat < 2 ^ 32 := by
  by_contra hcon
  push Not at hcon
  obtain ⟨hh, hwide⟩ := hcon
  have hown := (ownPoints_withData_iff beyond now hfields _).mp
    (h (List.replicate (m.height.toNat * m.rowStep.toNat) 0) List.length_replicate)
  have hpos : 0 < m.width.toNat * m.height.toNat :=
    Nat.mul_pos (by omega) (Nat.pos_of_ne_zero hh)
  have hlast := hown (m.width.toNat * m.height.toNat - 1) (Nat.sub_lt hpos one_pos)
  exact absurd (hlast.symm.trans (pointBytes_last beyond (Nat.pos_of_ne_zero hh) hwide))
    (List.cons_ne_nil _ _)

/-- Where a point is not at the place that the loop reads, some contents tell the two apart. -/
theorem place_of_ownPoints (hrows : RowsHold m) (hfields : DeclaresXyzi m)
    (h : ∀ data, data.length = m.height.toNat * m.rowStep.toNat →
      OwnPoints beyond now (m.withData data)) {i : ℕ}
    (hi : i < m.width.toNat * m.height.toNat) :
    (i * m.pointStep.toNat : ℤ) = ownStart m i := by
  by_contra hne
  have hfit := fits_of_lt (room_of_ownPoints beyond now hfields h) hi
  obtain ⟨hx, hx'⟩ := hfields "x" (by simp)
  have hlt : (i * m.pointStep.toNat : ℤ) + fieldOffset m "x" <
      ownStart m i + fieldOffset m "x" :=
    Int.add_lt_add_right (lt_of_le_of_ne (mul_le_ownStart hrows i) hne) _
  obtain ⟨hplace, hend⟩ := ownStart_add_le hrows hi
  -- contents whose `x` differs at the two places
  obtain ⟨data, hlen, hdiff⟩ := exists_uint32At_ne beyond (n := m.height.toNat * m.rowStep.toNat)
    hlt (by omega) (by omega)
  have hown := (ownPoints_withData_iff beyond now hfields data).mp (h data hlen)
  have hpoint : pointAt beyond (m.withData data) (i * m.pointStep.toNat) =
      pointAt beyond (m.withData data) (ownStart m i) :=
    (pointBytes_outputData (m := m.withData data) beyond hfit hi).symm.trans (hown i hi)
  have hxs : readFloat32 beyond (m.withData data) (i * m.pointStep.toNat) (fieldOffset m "x") =
      readFloat32 beyond (m.withData data) (ownStart m i) (fieldOffset m "x") :=
    readFloat32_of_pointAt beyond (m.withData data) hpoint
  rw [readFloat32_of_inside beyond hx hx', readFloat32_of_inside beyond hx hx'] at hxs
  exact hdiff hxs

/-- **The old adapter.** For a message shape whose rows hold their points and whose
coordinates and intensity lie in the point: for all contents, every output point is made of
one input point, if and only if there is at most one row or the rows are not padded, and
the row step of the output fits in 32 bits. -/
theorem adapter_ownPoints_iff (hrows : RowsHold m) (hfields : DeclaresXyzi m) :
    (∀ data, data.length = m.height.toNat * m.rowStep.toNat →
      OwnPoints beyond now (m.withData data)) ↔
      (m.width.toNat = 0 ∨ m.height.toNat ≤ 1 ∨
          m.rowStep.toNat = m.width.toNat * m.pointStep.toNat) ∧
        (m.height.toNat = 0 ∨ 16 * m.width.toNat < 2 ^ 32) := by
  rw [← mul_eq_ownStart_iff]
  refine ⟨?_, ?_⟩
  · intro h
    exact ⟨fun i hi => place_of_ownPoints beyond now hrows hfields h hi,
      room_of_ownPoints beyond now hfields h⟩
  · rintro ⟨hplace, hroom⟩ data -
    rw [ownPoints_withData_iff beyond now hfields]
    intro i hi
    rw [← hplace i hi]
    exact pointBytes_outputData (m := m.withData data) beyond (fits_of_lt hroom hi) hi

end Adapter

/-! ### Both adapters -/

/-- **When output points are made of one input point.** For a message shape of any width and
height whose rows hold their points and may be padded, with coordinates, intensity and ring
inside the point: for all contents of that shape, every point of the transformer is made of
one input point if and only if there is at most one row (or no column), or the rows are not
padded and the point step fits into an `int`. Every point of the old adapter is if and only
if there is at most one row (or no column) or the rows are not padded, and the row step of
the output fits in 32 bits. -/
theorem ownPoints_iff {K : Type} [Field K] [LinearOrder K] [FloorRing K] (E : Env K) (s : State)
    (beyond : ℤ → BitVec 8) (now : K) (m : PointCloud2 K) (hrows : RowsHold m)
    (hfields : Adapter.DeclaresXyzi m) (hring : 0 ≤ (resolveOffsets m s).ringOffset)
    (hring' : (resolveOffsets m s).ringOffset + 2 ≤ m.pointStep.toNat)
    (hpcl : ∀ data, data.length = m.height.toNat * m.rowStep.toNat →
      ReturnsInPlace E (m.withData data)) :
    ((∀ P data, data.length = m.height.toNat * m.rowStep.toNat →
        TransformerOwnPoints E P s (m.withData data)) ↔
      m.width.toNat = 0 ∨ m.height.toNat ≤ 1 ∨
        m.rowStep.toNat = m.width.toNat * m.pointStep.toNat ∧ m.pointStep.toNat < 2 ^ 31) ∧
    ((∀ data, data.length = m.height.toNat * m.rowStep.toNat →
        Adapter.OwnPoints beyond now (m.withData data)) ↔
      (m.width.toNat = 0 ∨ m.height.toNat ≤ 1 ∨
          m.rowStep.toNat = m.width.toNat * m.pointStep.toNat) ∧
        (m.height.toNat = 0 ∨ 16 * m.width.toNat < 2 ^ 32)) :=
  ⟨transformer_ownPoints_iff E s m hrows hring hring' hpcl,
    Adapter.adapter_ownPoints_iff beyond now hrows hfields⟩

section Padded

/-- Two rows of one point, with rings 3 and 5 and four bytes of padding. -/
def paddedCloud : PointCloud2 ℚ :=
  { singlePoint 16 with
    height := 2
    rowStep := 24
    data := List.replicate 16 0 ++ [3, 0, 0, 0] ++ List.replicate 20 0 ++ [5, 0, 0, 0] ++
      List.replicate 4 0 }

theorem ownPoints_iff_paddedCloud :
    ((∀ P data, data.length = 2 * 24 →
        TransformerOwnPoints Env.rat P State.initial (paddedCloud.withData data)) ↔
      1 = 0 ∨ 2 ≤ 1 ∨ 24 = 1 * 20 ∧ 20 < 2 ^ 31) ∧
    ((∀ data, data.length = 2 * 24 →
        Adapter.OwnPoints (fun _ => 0) 0 (paddedCloud.withData data)) ↔
      (1 = 0 ∨ 2 ≤ 1 ∨ 24 = 1 * 20) ∧ (2 = 0 ∨ 16 * 1 < 2 ^ 32)) :=
  ownPoints_iff Env.rat State.initial (fun _ => 0) 0 paddedCloud (by decide) (by decide)
    (by decide) (by decide)
    fun data hlen => returnsInPlace_fromROSMsgXyzi rfl hlen.ge

/-- Its second point is published with ring 0, by either adapter. -/
theorem paddedCloud_mixed :
    ¬ TransformerOwnPoints Env.rat Params.default State.initial paddedCloud ∧
      ¬ Adapter.OwnPoints (fun _ => 0) 0 paddedCloud := by
  refine ⟨?_, ?_⟩
  · intro h
    obtain ⟨-, hown⟩ := h ⟨2, 1, true, List.replicate 2 ⟨.fin 0, .fin 0, .fin 0, .fin 0⟩⟩
      (by decide +kernel) 1 1 (by decide +kernel)
    revert hown
    decide +kernel
  · rintro ⟨output, hout, hown⟩
    have hsecond := hown 1 (by decide)
    obtain rfl := Option.some.inj hout
    revert hsecond
    decide +kernel

end Padded

end Sensing
end WtbAutoware
