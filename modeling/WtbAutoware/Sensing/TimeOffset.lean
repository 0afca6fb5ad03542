import WtbAutoware.Sensing.LockStep

/-!
# The time of a point

The third field of the LIO-SAM format is the time of the point relative to the stamp of its
cloud. Drivers write the instant of a point in three ways (`TimeEncoding`): as the absolute
time, or as that very offset, in seconds or in nanoseconds. `PointCloudTransformer2` accepts
all three, and subtracts the stamp from each.

So the published time is the offset exactly if the field that is read holds the instant as
an absolute time (`pointTime_eq_iff`). The field of the cloud does if it is the absolute time,
and otherwise under a stamp of zero only. Another field may have been resolved before, and
then it depends on its bytes (`time_iff`). `velodynePoint` is a cloud in the encoding of the
Velodyne and LSLiDAR drivers.
-/

namespace WtbAutoware
namespace Sensing

open Reactive

/-- How a driver writes the instant of a point. -/
inductive TimeEncoding where
  /-- The absolute time, in seconds. -/
  | absolute
  /-- The offset from the stamp, in seconds. -/
  | seconds
  /-- The offset from the stamp, in nanoseconds. -/
  | nanoseconds
  deriving DecidableEq

namespace TimeEncoding

/-- The name of the field. -/
def field : TimeEncoding → String
  | .absolute => "timestamp"
  | .seconds => "time"
  | .nanoseconds => "t"

/-- The datatype of the field. -/
def datatype : TimeEncoding → ℤ
  | .absolute => PointField.FLOAT64
  | .seconds => PointField.FLOAT32
  | .nanoseconds => PointField.UINT32

/-- The number of bytes of the field. -/
def size : TimeEncoding → ℤ
  | .absolute => 8
  | .seconds => 4
  | .nanoseconds => 4

variable {K : Type} [Field K]

/-- What the encoding writes for a point at `stamp + d`. -/
def written : TimeEncoding → K → K → K
  | .absolute, stamp, d => stamp + d
  | .seconds, _, d => d
  | .nanoseconds, _, d => d

/-- The value of the field with its bytes at `a`, in seconds. -/
def valueAt (data : List (BitVec 8)) (a : ℤ) : TimeEncoding → Flt K
  | .absolute => float64 (uint64At (fun _ => 0) data a)
  | .seconds => float32 (uint32At (fun _ => 0) data a)
  | .nanoseconds => .fin ((uint32At (fun _ => 0) data a).toNat / 1000000000)

/-- The message has at `a` the instant `d` after its stamp. -/
structure Holds (enc : TimeEncoding) (m : PointCloud2 K) (a : ℤ) (d : K) : Prop where
  nonneg : 0 ≤ a
  inside : a + enc.size ≤ m.data.length
  value : enc.valueAt m.data a = .fin (enc.written m.header.stamp d)

end TimeEncoding

section Law

variable {K : Type} [Field K] [LinearOrder K] [FloorRing K]
variable (E : Env K) (P : Params K)

/-- Every encoding gives the time of a retained point as its distance from the stamp. -/
def YieldsOffsets : Prop :=
  ∀ (history : List (PointCloud2 K)) (m : PointCloud2 K) (enc : TimeEncoding) (offset : ℤ)
    (cloudIn : PclCloud (PointXYZI K)),
    declared m enc.field = some (offset, enc.datatype) →
    E.fromROSMsg m = some cloudIn →
    ∀ (k i : ℕ) (d : K), (retainedIndices E P cloudIn.points)[k]? = some i →
      |d| ≤ 1 → enc.Holds m (pointStart m i + offset) d →
      ∃ l, (liosamOf ((pointCloudTransformer E P).out
        ((pointCloudTransformer E P).run history) m))[k]? = some l ∧ l.time = .fin d

end Law

section Time

variable {K : Type} [Field K] [LinearOrder K]

theorem time_of_layout {s : State} {offset datatype : ℤ}
    (h : s.layout.time = some (offset, datatype)) :
    0 ≤ s.timeOffset ∧ s.timeOffset = offset ∧ s.timeDatatype = datatype := by
  unfold State.layout at h
  dsimp only at h
  split at h
  · exact absurd h (by simp)
  · next hneg =>
    obtain ⟨ho, hd⟩ := Prod.mk.inj (Option.some.inj h)
    exact ⟨not_lt.mp hneg, ho, hd⟩

/-- The callback reads the value of the field, by its datatype. -/
theorem absTime_eq (E : Env K) {s : State} {m : PointCloud2 K} {enc : TimeEncoding} {a : ℤ} {d : K}
    (hs : s.timeDatatype = enc.datatype) (h : enc.Holds m a d) :
    absTime E s m a = .fin (enc.written m.header.stamp d) := by
  rw [← h.value]
  unfold absTime
  rw [hs]
  -- the value lies in the data, so no byte behind it is read
  have hinside (b : ℤ) (hlo : a ≤ b) (hhi : b < a + enc.size) :
      byteAt E.beyond m.data b = byteAt (fun _ => 0) m.data b :=
    byteAt_of_inside (h.nonneg.trans hlo) (hhi.trans_le h.inside)
  cases enc with
  | absolute =>
    rw [if_pos (show TimeEncoding.absolute.datatype = PointField.FLOAT64 from rfl)]
    exact congrArg float64 (uint64At_congr hinside)
  | seconds =>
    rw [if_neg (by decide),
      if_pos (show TimeEncoding.seconds.datatype = PointField.FLOAT32 from rfl)]
    exact congrArg float32 (uint32At_congr hinside)
  | nanoseconds =>
    rw [if_neg (by decide), if_neg (by decide),
      if_pos (show TimeEncoding.nanoseconds.datatype = PointField.UINT32 from rfl),
      uint32At_congr hinside]
    rfl

/-- The field of point `i` holds, as the callback reads it, the instant `d` after the stamp as
an absolute time. -/
def HoldsAbsolute (E : Env K) (m : PointCloud2 K) (field : ℤ × ℤ) (i : ℕ) (d : K) : Prop :=
  absTime E ⟨-1, field.1, field.2⟩ m (pointStart m i + field.1) = .fin (m.header.stamp + d)

omit [LinearOrder K] in
theorem sub_fin_eq_fin_iff (x : Flt K) (a d : K) : x - .fin a = .fin d ↔ x = .fin (a + d) := by
  cases x with
  | fin y =>
    rw [Flt.fin_sub_fin, Flt.fin.injEq, Flt.fin.injEq, sub_eq_iff_eq_add']
  | posInf => exact iff_of_false (by rintro ⟨⟩) (by rintro ⟨⟩)
  | negInf => exact iff_of_false (by rintro ⟨⟩) (by rintro ⟨⟩)
  | nan => exact iff_of_false (by rintro ⟨⟩) (by rintro ⟨⟩)

/-- **The published time** is that of the field that has been resolved, less the stamp. -/
theorem pointTime_eq_iff (E : Env K) {s : State} {m : PointCloud2 K} {field : ℤ × ℤ} {i : ℕ}
    {d : K} (hs : s.layout.time = some field) :
    pointTime E s m i = .fin d ↔ HoldsAbsolute E m field i d := by
  obtain ⟨hnonneg, hoffset, hdatatype⟩ := time_of_layout hs
  unfold pointTime HoldsAbsolute absTime
  rw [if_pos hnonneg, sub_fin_eq_fin_iff, hoffset, hdatatype]

/-- The field that a driver has written holds the absolute time if that is its encoding, and
otherwise under a stamp of zero only. -/
theorem holdsAbsolute_iff (E : Env K) {m : PointCloud2 K} {enc : TimeEncoding} {offset : ℤ}
    {i : ℕ} {d : K} (h : enc.Holds m (pointStart m i + offset) d) :
    HoldsAbsolute E m (offset, enc.datatype) i d ↔ enc = .absolute ∨ m.header.stamp = 0 := by
  unfold HoldsAbsolute
  rw [absTime_eq E rfl h, Flt.fin.injEq]
  cases enc with
  | absolute => exact iff_of_true rfl (Or.inl rfl)
  | seconds => simp [TimeEncoding.written]
  | nanoseconds => simp [TimeEncoding.written]

omit [Field K] [LinearOrder K] in
/-- After a cloud that declares a time field, one is resolved. -/
theorem exists_firstLayout_time (history : List (PointCloud2 K)) {m : PointCloud2 K}
    {enc : TimeEncoding} {field : ℤ × ℤ} (h : declared m enc.field = some field) :
    ∃ first, (firstLayout (history ++ [m])).time = some first := by
  refine Option.isSome_iff_exists.mp ?_
  refine List.findSome?_isSome_iff.mpr ⟨m, List.mem_append_right _ (List.mem_singleton_self m), ?_⟩
  refine List.findSome?_isSome_iff.mpr ⟨enc.field, ?_, by rw [h]; rfl⟩
  cases enc <;> decide

variable [FloorRing K]

/-- **When the time is the offset.** After any history, for a cloud that declares one of
the three encodings, and for every retained point whose field holds the instant `d` after the
stamp: the point is published with the time `d` if and only if this is the field that has
been resolved, and it is the absolute time or the stamp is zero, or the bytes of another one
happen to hold the absolute time. -/
theorem time_iff (E : Env K) (P : Params K) (history : List (PointCloud2 K))
    (m : PointCloud2 K) (enc : TimeEncoding) (offset : ℤ) (cloudIn : PclCloud (PointXYZI K))
    (hdeclared : declared m enc.field = some (offset, enc.datatype))
    (hpcl : E.fromROSMsg m = some cloudIn) (k i : ℕ) (d : K)
    (hk : (retainedIndices E P cloudIn.points)[k]? = some i)
    (henc : enc.Holds m (pointStart m i + offset) d) :
    (∃ l, (liosamOf ((pointCloudTransformer E P).out
        ((pointCloudTransformer E P).run history) m))[k]? = some l ∧ l.time = .fin d) ↔
      (firstLayout (history ++ [m])).time = some (offset, enc.datatype) ∧
          (enc = .absolute ∨ m.header.stamp = 0) ∨
        ∃ field ≠ (offset, enc.datatype),
          (firstLayout (history ++ [m])).time = some field ∧ HoldsAbsolute E m field i d := by
  obtain ⟨first, hfirst⟩ := exists_firstLayout_time history hdeclared
  -- what has been resolved is what the clouds have declared first
  have hstate : (resolveOffsets m ((pointCloudTransformer E P).run history)).layout.time =
      some first := by
    rw [← next_eq E P, ← Machine.run_concat, layout_run, hfirst]
  -- the point that is published in place `k`
  rw [retainedIndices, List.getElem?_map, Option.map_eq_some_iff] at hk
  obtain ⟨⟨p, j⟩, hp, rfl⟩ := hk
  have htime : (∃ l, (liosamOf ((pointCloudTransformer E P).out
      ((pointCloudTransformer E P).run history) m))[k]? = some l ∧ l.time = .fin d) ↔
        HoldsAbsolute E m first j d := by
    rw [liosamOf_out E _ m P hpcl, liosamPoints, List.getElem?_map, hp,
      ← pointTime_eq_iff E hstate]
    refine ⟨?_, fun h => ⟨_, rfl, h⟩⟩
    rintro ⟨l, hl, hd⟩
    obtain rfl := Option.some.inj hl
    exact hd
  rw [htime, hfirst]
  by_cases hown : first = (offset, enc.datatype)
  · -- the field of the cloud
    subst hown
    rw [holdsAbsolute_iff E henc]
    refine ⟨fun h => Or.inl ⟨rfl, h⟩, ?_⟩
    rintro (⟨-, h⟩ | ⟨field, hne, heq, -⟩)
    · exact h
    · exact absurd (Option.some.inj heq).symm hne
  · -- another one
    refine ⟨fun h => Or.inr ⟨first, hown, rfl, h⟩, ?_⟩
    rintro (⟨heq, -⟩ | ⟨field, -, heq, h⟩)
    · exact absurd (Option.some.inj heq) hown
    · exact (Option.some.inj heq).symm ▸ h

end Time

/-! ### An offset in seconds -/

section Velodyne

/-- A cloud of one point, half a second after the stamp. -/
def velodynePoint : PointCloud2 ℚ :=
  { singlePoint 16 with
    header := { stamp := 100, frameId := "laser" }
    fields := (singlePoint 16).fields ++ [⟨"time", 20, 7, 1⟩]
    pointStep := 24
    rowStep := 24
    data := List.replicate 16 0 ++ [3, 0, 0, 0] ++ [0, 0, 0, 0x3f] }

theorem time_iff_velodynePoint :
    (∃ l, (liosamOf ((pointCloudTransformer Env.rat Params.default).out
        ((pointCloudTransformer Env.rat Params.default).run []) velodynePoint))[0]? = some l ∧
        l.time = .fin (1 / 2)) ↔
      (firstLayout ([] ++ [velodynePoint])).time = some (20, TimeEncoding.seconds.datatype) ∧
          (TimeEncoding.seconds = .absolute ∨ velodynePoint.header.stamp = 0) ∨
        ∃ field ≠ (20, TimeEncoding.seconds.datatype),
          (firstLayout ([] ++ [velodynePoint])).time = some field ∧
            HoldsAbsolute Env.rat velodynePoint field 0 (1 / 2) :=
  time_iff Env.rat Params.default [] velodynePoint .seconds 20
    ⟨1, 1, true, [⟨.fin 0, .fin 0, .fin 0, .fin 0⟩]⟩ (by decide) (by decide +kernel) 0 0 (1 / 2)
    (by decide +kernel) ⟨by decide, by decide, by decide +kernel⟩

/-- It is published with the time -99.5. -/
theorem velodynePoint_misplaced : ¬ YieldsOffsets Env.rat Params.default := by
  intro h
  obtain ⟨l, hl, hd⟩ := h [] velodynePoint .seconds 20
    ⟨1, 1, true, [⟨.fin 0, .fin 0, .fin 0, .fin 0⟩]⟩ (by decide) (by decide +kernel) 0 0 (1 / 2)
    (by decide +kernel) (by norm_num [abs_of_pos])
    ⟨by decide, by decide, by decide +kernel⟩
  have hpublished : (liosamOf ((pointCloudTransformer Env.rat Params.default).out
      ((pointCloudTransformer Env.rat Params.default).run []) velodynePoint))[0]?.map
        (fun l => l.time) = some (.fin (-199 / 2)) := by decide +kernel
  rw [hl, Option.map_some, hd] at hpublished
  exact absurd (Flt.fin.inj (Option.some.inj hpublished)) (by norm_num)

end Velodyne

end Sensing
end WtbAutoware
