import WtbAutoware.Sensing.Rows

/-!
# The raw accesses of the adapters

Both adapters copy values from the bytes of a message, at an offset that the message itself
declares and a step that it declares as well. `Adapter.bytesRead` and `bytesRead` list every
byte that they read in that way, and `Adapter.bytesWritten` every byte of the output that the
old adapter writes. They are all that the model reads: where the bytes agree, so do the
clouds (`Adapter.onPointcloud_congr`, `out_congr`), so as long as the reads stay inside the
message, the bytes around it do not matter (`clouds_of_readsInBounds`).

The old adapter compares an offset with the point step, and neither compares anything with
the length of the data. So the reads are inside exactly if those of the last point are, or
in the transformer, whose point step may come out negative, those of the first and of the
last point that is let through (`Adapter.readsInBounds_iff`, `readsInBounds_iff`). The
writes are inside exactly if the row step of the output did not wrap
(`Adapter.writesInBounds_iff`). `inBounds_iff` puts the three together.
-/

namespace WtbAutoware
namespace Sensing

open Reactive

/-! ### Values at an offset -/

/-- A value in the bytes of a point: where it starts and how many bytes it has. -/
structure RawField where
  offset : ℤ
  size : ℕ
  deriving DecidableEq

namespace RawField

/-- The bytes of the value, in the point that starts at `start`. -/
def bytes (f : RawField) (start : ℤ) : List ℤ :=
  (List.range f.size).map fun b : ℕ => start + f.offset + b

theorem mem_bytes {f : RawField} {start a : ℤ} :
    a ∈ f.bytes start ↔ start + f.offset ≤ a ∧ a < start + f.offset + f.size := by
  unfold bytes
  rw [List.mem_map]
  refine ⟨?_, ?_⟩
  · rintro ⟨b, hb, rfl⟩
    have := List.mem_range.mp hb
    omega
  · rintro ⟨hlo, hhi⟩
    exact ⟨(a - (start + f.offset)).toNat, List.mem_range.mpr (by omega), by omega⟩

/-- The value has no bytes, or lies inside an array of that length. -/
def Inside (f : RawField) (start : ℤ) (length : ℕ) : Prop :=
  f.size = 0 ∨ 0 ≤ start + f.offset ∧ start + f.offset + f.size ≤ length

theorem forall_bytes_iff {f : RawField} {start : ℤ} {length : ℕ} :
    (∀ a ∈ f.bytes start, 0 ≤ a ∧ a < length) ↔ f.Inside start length := by
  unfold Inside
  refine ⟨?_, ?_⟩
  · intro h
    rcases Nat.eq_zero_or_pos f.size with hzero | hpos
    · exact Or.inl hzero
    · -- its first and its last byte
      have hfirst := h (start + f.offset) (mem_bytes.mpr ⟨le_rfl, by omega⟩)
      have hlast := h (start + f.offset + f.size - 1) (mem_bytes.mpr ⟨by omega, by omega⟩)
      exact Or.inr ⟨hfirst.1, by omega⟩
  · rintro (hzero | ⟨hlo, hhi⟩) a ha
    · obtain ⟨h1, h2⟩ := mem_bytes.mp ha
      omega
    · obtain ⟨h1, h2⟩ := mem_bytes.mp ha
      exact ⟨hlo.trans h1, h2.trans_le hhi⟩

/-- Between two places at which the value lies inside, it does as well. -/
theorem Inside.between {f : RawField} {start lo hi : ℤ} {length : ℕ} (hlo : f.Inside lo length)
    (hhi : f.Inside hi length) (h : lo ≤ start ∧ start ≤ hi ∨ hi ≤ start ∧ start ≤ lo) :
    f.Inside start length := by
  rcases hlo with hzero | hlo
  · exact Or.inl hzero
  · rcases hhi with hzero | hhi
    · exact Or.inl hzero
    · refine Or.inr ?_
      rcases h with h | h
      · omega
      · omega

end RawField

/-! ### The old adapter -/

namespace Adapter

section Reads

variable {K : Type} (m : PointCloud2 K)

/-- The values that the loop looks for, and their sizes. -/
def fieldsRead : List RawField :=
  [⟨fieldOffset m "x", 4⟩, ⟨fieldOffset m "y", 4⟩, ⟨fieldOffset m "z", 4⟩,
    ⟨fieldOffset m "intensity", 4⟩, ⟨channelOffset m, 2⟩]

/-- A value passes the guard of `read_float32` and `read_uint16`. -/
def Passes (f : RawField) : Prop := 0 ≤ f.offset ∧ f.offset + f.size ≤ m.pointStep.toNat

instance (f : RawField) : Decidable (Passes m f) := inferInstanceAs (Decidable (_ ∧ _))

/-- Every byte of the message that `on_pointcloud` reads. -/
def bytesRead : List ℤ :=
  if Missing m then []
  else
    (List.range (m.width.toNat * m.height.toNat)).flatMap fun i =>
      ((fieldsRead m).filter (Passes m ·)).flatMap fun f => f.bytes (i * m.pointStep.toNat)

/-- They all lie in the message. -/
def ReadsInBounds : Prop := ∀ a ∈ bytesRead m, 0 ≤ a ∧ a < m.data.length

theorem mem_bytesRead {a : ℤ} :
    a ∈ bytesRead m ↔ ¬ Missing m ∧ ∃ i < m.width.toNat * m.height.toNat, ∃ f ∈ fieldsRead m,
      Passes m f ∧ a ∈ f.bytes (i * m.pointStep.toNat) := by
  unfold bytesRead
  by_cases hmissing : Missing m
  · simp [hmissing]
  · simp [hmissing, and_assoc]

/-- **Reads of the old adapter.** They stay in the message exactly if the callback gives up,
the cloud has no points, or the values of its last point lie in the message. -/
theorem readsInBounds_iff :
    ReadsInBounds m ↔ Missing m ∨ m.width.toNat * m.height.toNat = 0 ∨
      ∀ f ∈ fieldsRead m, Passes m f →
        ((m.width.toNat * m.height.toNat - 1 : ℕ) : ℤ) * m.pointStep.toNat + f.offset + f.size ≤
          m.data.length := by
  unfold ReadsInBounds
  refine ⟨?_, ?_⟩
  · intro h
    by_contra hcon
    push Not at hcon
    obtain ⟨hpublish, hcount, f, hf, hpass, hlong⟩ := hcon
    -- the last byte of the value, in the last point
    have hsize : 0 < f.size := by
      rcases List.mem_cons.mp hf with rfl | hf
      · exact Nat.succ_pos _
      · simp only [List.mem_cons, List.not_mem_nil, or_false] at hf
        rcases hf with rfl | rfl | rfl | rfl <;> exact Nat.succ_pos _
    have hlast := h (((m.width.toNat * m.height.toNat - 1 : ℕ) : ℤ) * m.pointStep.toNat + f.offset +
      f.size - 1) ((mem_bytesRead m).mpr ⟨hpublish, m.width.toNat * m.height.toNat - 1,
        Nat.sub_lt (Nat.pos_of_ne_zero hcount) one_pos, f, hf, hpass,
        RawField.mem_bytes.mpr ⟨by omega, by omega⟩⟩)
    omega
  · intro h a ha
    obtain ⟨hpublish, i, hi, f, hf, hpass, hmem⟩ := (mem_bytesRead m).mp ha
    obtain ⟨hlo, hhi⟩ := RawField.mem_bytes.mp hmem
    have hplace : (i * m.pointStep.toNat : ℤ) ≤
        ((m.width.toNat * m.height.toNat - 1 : ℕ) : ℤ) * m.pointStep.toNat :=
      mul_le_mul_of_nonneg_right (by omega) (Int.natCast_nonneg _)
    have hstart : (0 : ℤ) ≤ i * m.pointStep.toNat := by positivity
    rcases h with hmissing | hzero | hend
    · exact absurd hmissing hpublish
    · rw [hzero] at hi
      exact absurd hi (Nat.not_lt_zero i)
    · have hlast := hend f hf hpass
      have hoffset := hpass.1
      omega

variable {m}

/-- A value is read from its bytes. -/
theorem readFloat32_congr {beyond beyond' : ℤ → BitVec 8} {a offset : ℤ}
    (h : Passes m ⟨offset, 4⟩ → ∀ b ∈ RawField.bytes ⟨offset, 4⟩ a,
      byteAt beyond m.data b = byteAt beyond' m.data b) :
    readFloat32 beyond m a offset = readFloat32 beyond' m a offset := by
  unfold readFloat32
  split
  · rfl
  · next hpass =>
    push Not at hpass
    refine uint32At_congr ?_
    intro b hlo hhi
    exact h hpass b (RawField.mem_bytes.mpr ⟨hlo, hhi⟩)

theorem readUint16_congr {beyond beyond' : ℤ → BitVec 8} {a offset : ℤ}
    (h : Passes m ⟨offset, 2⟩ → ∀ b ∈ RawField.bytes ⟨offset, 2⟩ a,
      byteAt beyond m.data b = byteAt beyond' m.data b) :
    readUint16 beyond m a offset = readUint16 beyond' m a offset := by
  unfold readUint16
  split
  · rfl
  · next hpass =>
    push Not at hpass
    refine uint16At_congr ?_
    intro b hlo hhi
    exact h hpass b (RawField.mem_bytes.mpr ⟨hlo, hhi⟩)

end Reads

section Output

variable {K : Type} [Field K] [LinearOrder K] [FloorRing K]
variable (beyond : ℤ → BitVec 8) (m : PointCloud2 K)

/-- The output depends on the bytes that are read, and on no others. -/
theorem onPointcloud_congr {beyond beyond' : ℤ → BitVec 8} {m : PointCloud2 K} (now : K)
    (h : ∀ a ∈ bytesRead m, byteAt beyond m.data a = byteAt beyond' m.data a) :
    onPointcloud beyond m now = onPointcloud beyond' m now := by
  unfold onPointcloud
  split
  · rfl
  · next hpublish =>
    -- every field that a point is made of is read, apart from what its guard leaves out
    have hfield (i : ℕ) (hi : i < m.width.toNat * m.height.toNat) (f : RawField)
        (hf : f ∈ fieldsRead m) : Passes m f → ∀ b ∈ f.bytes (i * m.pointStep.toNat),
          byteAt beyond m.data b = byteAt beyond' m.data b :=
      fun hpass b hb => h b ((mem_bytesRead m).mpr ⟨hpublish, i, hi, f, hf, hpass, hb⟩)
    have hpoint (i : ℕ) (hi : i < m.width.toNat * m.height.toNat) :
        outPoint beyond m i = outPoint beyond' m i := by
      unfold outPoint pointAt
      rw [readFloat32_congr (hfield i hi ⟨fieldOffset m "x", 4⟩ (by simp [fieldsRead])),
        readFloat32_congr (hfield i hi ⟨fieldOffset m "y", 4⟩ (by simp [fieldsRead])),
        readFloat32_congr (hfield i hi ⟨fieldOffset m "z", 4⟩ (by simp [fieldsRead])),
        readFloat32_congr (hfield i hi ⟨fieldOffset m "intensity", 4⟩ (by simp [fieldsRead])),
        readUint16_congr (hfield i hi ⟨channelOffset m, 2⟩ (by simp [fieldsRead]))]
    -- so the loop writes the same points
    have hdata : outputData beyond m = outputData beyond' m := by
      unfold outputData
      refine List.foldl_ext _ _ _ ?_
      intro data i hi
      rw [hpoint i (List.mem_range.mp hi)]
    rw [hdata]

/-- Every byte of `output.data` that the loop writes. -/
def bytesWritten : List ℕ :=
  if Missing m then []
  else
    (List.range (m.width.toNat * m.height.toNat)).flatMap fun i =>
      ((outPoint beyond m i).zipIdx (i * 16)).map Prod.snd

/-- They all lie in the output. -/
def WritesInBounds : Prop := ∀ a ∈ bytesWritten beyond m, a < (outputData beyond m).length

theorem mem_bytesWritten {a : ℕ} :
    a ∈ bytesWritten beyond m ↔
      ¬ Missing m ∧ ∃ i < m.width.toNat * m.height.toNat, i * 16 ≤ a ∧ a < i * 16 + 16 := by
  unfold bytesWritten
  by_cases hmissing : Missing m
  · simp [hmissing]
  · simp [hmissing, List.zipIdx_map_snd, length_outPoint, List.mem_range'_1]

/-- **Writes of the old adapter.** They stay in the output exactly if the callback gives up,
the cloud has no points, or the row step of the output fits in 32 bits. -/
theorem writesInBounds_iff :
    WritesInBounds beyond m ↔ Missing m ∨ m.width.toNat * m.height.toNat = 0 ∨
      16 * m.width.toNat < 2 ^ 32 := by
  unfold WritesInBounds
  refine ⟨?_, ?_⟩
  · intro h
    by_contra hcon
    push Not at hcon
    obtain ⟨hpublish, hcount, hwide⟩ := hcon
    -- the first byte of the last point
    have hlast := h ((m.width.toNat * m.height.toNat - 1) * 16)
      ((mem_bytesWritten beyond m).mpr ⟨hpublish, m.width.toNat * m.height.toNat - 1,
        Nat.sub_lt (Nat.pos_of_ne_zero hcount) one_pos, le_rfl, by omega⟩)
    have hshort := length_outputData_le beyond
      (Nat.pos_of_ne_zero (right_ne_zero_of_mul hcount)) hwide
    exact absurd hlast (not_lt.mpr hshort)
  · intro h a ha
    obtain ⟨hpublish, i, hi, hlo, hhi⟩ := (mem_bytesWritten beyond m).mp ha
    rcases h with hmissing | hzero | hfit
    · exact absurd hmissing hpublish
    · rw [hzero] at hi
      exact absurd hi (Nat.not_lt_zero i)
    · rw [length_outputData, toNat_outRowStep hfit]
      have hcomm : m.height.toNat * (16 * m.width.toNat) = m.width.toNat * m.height.toNat * 16 := by
        ring
      omega

end Output

end Adapter

/-! ### The transformer -/

section Sorted

variable {l : List ℕ} (h : l.Pairwise (· < ·)) {i : ℕ} (hi : i ∈ l)
include h hi

theorem exists_head_le : ∃ a, l.head? = some a ∧ a ≤ i := by
  cases l with
  | nil => exact absurd hi List.not_mem_nil
  | cons a l =>
    refine ⟨a, rfl, ?_⟩
    rcases List.mem_cons.mp hi with rfl | hmem
    · exact le_rfl
    · exact ((List.pairwise_cons.mp h).1 i hmem).le

theorem exists_le_getLast : ∃ b, l.getLast? = some b ∧ i ≤ b := by
  rcases List.eq_nil_or_concat l with rfl | ⟨front, b, rfl⟩
  · exact absurd hi List.not_mem_nil
  · rw [List.concat_eq_append] at h hi ⊢
    refine ⟨b, List.getLast?_concat, ?_⟩
    rcases List.mem_append.mp hi with hmem | hlast
    · exact ((List.pairwise_append.mp h).2.2 i hmem b (List.mem_singleton_self b)).le
    · exact (List.mem_singleton.mp hlast).le

end Sorted

/-- The bytes of the time, by its datatype. One that is not handled is not read. -/
def State.timeSize (s : State) : ℕ :=
  if s.timeDatatype = PointField.FLOAT64 then 8
  else if s.timeDatatype = PointField.FLOAT32 then 4
  else if s.timeDatatype = PointField.UINT32 then 4
  else 0

/-- The values that the loop copies, with the offsets in the members `s`. -/
def State.fieldsRead (s : State) : List RawField :=
  (if s.ringOffset < 0 then [] else [⟨s.ringOffset, 2⟩]) ++
    if 0 ≤ s.timeOffset then [⟨s.timeOffset, s.timeSize⟩] else []

section Transformer

variable {K : Type} [Field K] [LinearOrder K]
variable (E : Env K) (P : Params K) (s : State) (m : PointCloud2 K)

/-- Every byte of `msg->data` that the callback reads itself. -/
def bytesRead : List ℤ :=
  match E.fromROSMsg m with
  | none => []
  | some cloudIn =>
    (retainedIndices E P cloudIn.points).flatMap fun i =>
      (resolveOffsets m s).fieldsRead.flatMap fun f => f.bytes (pointStart m i)

/-- They all lie in the message. -/
def ReadsInBounds : Prop := ∀ a ∈ bytesRead E P s m, 0 ≤ a ∧ a < m.data.length

variable {E P s m}

theorem mem_bytesRead {cloudIn : PclCloud (PointXYZI K)} (hpcl : E.fromROSMsg m = some cloudIn)
    {a : ℤ} :
    a ∈ bytesRead E P s m ↔ ∃ i ∈ retainedIndices E P cloudIn.points,
      ∃ f ∈ (resolveOffsets m s).fieldsRead, a ∈ f.bytes (pointStart m i) := by
  unfold bytesRead
  rw [hpcl]
  simp only [List.mem_flatMap]

omit [Field K] [LinearOrder K] in
/-- The points of a cloud start between the first and the last of them. -/
theorem pointStart_between {i lo hi : ℕ} (hlo : lo ≤ i) (hhi : i ≤ hi) :
    pointStart m lo ≤ pointStart m i ∧ pointStart m i ≤ pointStart m hi ∨
      pointStart m hi ≤ pointStart m i ∧ pointStart m i ≤ pointStart m lo := by
  have hlo' : (lo : ℤ) ≤ i := by exact_mod_cast hlo
  have hhi' : (i : ℤ) ≤ hi := by exact_mod_cast hhi
  unfold pointStart
  rcases le_total 0 m.pointStep.toInt with hstep | hstep
  · exact Or.inl ⟨mul_le_mul_of_nonneg_right hlo' hstep, mul_le_mul_of_nonneg_right hhi' hstep⟩
  · exact Or.inr ⟨mul_le_mul_of_nonpos_right hhi' hstep, mul_le_mul_of_nonpos_right hlo' hstep⟩

variable (E P s m)

/-- **Reads of the transformer.** They stay in the message exactly if PCL throws, or ring
and time of the first and of the last point that is let through lie in the message. -/
theorem readsInBounds_iff :
    ReadsInBounds E P s m ↔ ∀ cloudIn, E.fromROSMsg m = some cloudIn →
      ∀ i, (retainedIndices E P cloudIn.points).head? = some i ∨
          (retainedIndices E P cloudIn.points).getLast? = some i →
        ∀ f ∈ (resolveOffsets m s).fieldsRead, f.Inside (pointStart m i) m.data.length := by
  unfold ReadsInBounds
  refine ⟨?_, ?_⟩
  · intro h cloudIn hpcl i hi f hf
    have hmem : i ∈ retainedIndices E P cloudIn.points := by
      rcases hi with hi | hi
      · exact List.mem_of_head? hi
      · exact List.mem_of_getLast? hi
    refine RawField.forall_bytes_iff.mp ?_
    intro a ha
    exact h a ((mem_bytesRead hpcl).mpr ⟨i, hmem, f, hf, ha⟩)
  · intro h a ha
    cases hpcl : E.fromROSMsg m with
    | none =>
      rw [bytesRead, hpcl] at ha
      exact absurd ha List.not_mem_nil
    | some cloudIn =>
      obtain ⟨i, hi, f, hf, hmem⟩ := (mem_bytesRead hpcl).mp ha
      have hsorted := pairwise_retainedIndices E P cloudIn.points
      obtain ⟨lo, hhead, hlo⟩ := exists_head_le hsorted hi
      obtain ⟨hi', hlast, hhi⟩ := exists_le_getLast hsorted hi
      -- the first and the last point enclose the others
      have hinside : f.Inside (pointStart m i) m.data.length :=
        (h cloudIn hpcl lo (Or.inl hhead) f hf).between (h cloudIn hpcl hi' (Or.inr hlast) f hf)
          (pointStart_between hlo hhi)
      exact RawField.forall_bytes_iff.mpr hinside a hmem

variable {E s m}

/-- The ring is read from its bytes. -/
theorem readRing_congr {beyond' : ℤ → BitVec 8} {a : ℤ}
    (h : ∀ f ∈ s.fieldsRead, ∀ b ∈ f.bytes a,
      byteAt E.beyond m.data b = byteAt beyond' m.data b) :
    readUint16 E m a s.ringOffset =
      readUint16 { E with beyond := beyond' } m a s.ringOffset := by
  unfold readUint16
  split
  · rfl
  · next hring =>
    refine uint16At_congr ?_
    intro b hlo hhi
    -- a ring with an offset is one of the fields
    refine h ⟨s.ringOffset, 2⟩ ?_ b (RawField.mem_bytes.mpr ⟨hlo, hhi⟩)
    rw [State.fieldsRead, if_neg hring]
    exact List.mem_append_left _ (List.mem_singleton_self _)

/-- So is the time. -/
theorem readTime_congr {beyond' : ℤ → BitVec 8} {i : ℕ}
    (h : ∀ f ∈ s.fieldsRead, ∀ b ∈ f.bytes (pointStart m i),
      byteAt E.beyond m.data b = byteAt beyond' m.data b) :
    pointTime E s m i = pointTime { E with beyond := beyond' } s m i := by
  unfold pointTime
  split
  · next htime =>
    -- a time with an offset is one of the fields, as wide as its type
    have hbytes (b : ℤ) (hlo : pointStart m i + s.timeOffset ≤ b)
        (hhi : b < pointStart m i + s.timeOffset + s.timeSize) :
        byteAt E.beyond m.data b = byteAt beyond' m.data b := by
      refine h ⟨s.timeOffset, s.timeSize⟩ ?_ b (RawField.mem_bytes.mpr ⟨hlo, hhi⟩)
      rw [State.fieldsRead, if_pos htime]
      exact List.mem_append_right _ (List.mem_singleton_self _)
    -- one case for each type of the time
    have habs : absTime E s m (pointStart m i + s.timeOffset) =
        absTime { E with beyond := beyond' } s m (pointStart m i + s.timeOffset) := by
      unfold State.timeSize at hbytes
      unfold absTime
      split
      · next h64 =>
        rw [if_pos h64] at hbytes
        exact congrArg float64 (uint64At_congr hbytes)
      · next h64 =>
        rw [if_neg h64] at hbytes
        split
        · next h32 =>
          rw [if_pos h32] at hbytes
          exact congrArg float32 (uint32At_congr hbytes)
        · next h32 =>
          rw [if_neg h32] at hbytes
          split
          · next hu32 =>
            rw [if_pos hu32] at hbytes
            rw [uint32At_congr hbytes]
          · rfl
    rw [habs]
  · rfl

variable [FloorRing K]

/-- The Autoware points depend on the fields of what is let through. -/
theorem autowarePoints_congr {beyond' : ℤ → BitVec 8} {points : List (PointXYZI K)}
    (h : ∀ q ∈ retained E P points, ∀ f ∈ s.fieldsRead, ∀ b ∈ f.bytes (pointStart m q.2),
      byteAt E.beyond m.data b = byteAt beyond' m.data b) :
    autowarePoints E s m P points = autowarePoints { E with beyond := beyond' } s m P points := by
  refine List.map_congr_left ?_
  rintro ⟨p, i⟩ hq
  change autowarePoint E s m i p = autowarePoint { E with beyond := beyond' } s m i p
  unfold autowarePoint
  rw [readRing_congr (h (p, i) hq)]
  rfl

omit [FloorRing K] in
/-- So do the LIO-SAM points. -/
theorem liosamPoints_congr {beyond' : ℤ → BitVec 8} {points : List (PointXYZI K)}
    (h : ∀ q ∈ retained E P points, ∀ f ∈ s.fieldsRead, ∀ b ∈ f.bytes (pointStart m q.2),
      byteAt E.beyond m.data b = byteAt beyond' m.data b) :
    liosamPoints E s m P points = liosamPoints { E with beyond := beyond' } s m P points := by
  refine List.map_congr_left ?_
  rintro ⟨p, i⟩ hq
  change liosamPoint E s m i p = liosamPoint { E with beyond := beyond' } s m i p
  unfold liosamPoint
  rw [readRing_congr (h (p, i) hq), readTime_congr (h (p, i) hq)]
  rfl

/-- The clouds depend on the bytes that are read, and on no others. -/
theorem out_congr {beyond' : ℤ → BitVec 8}
    (h : ∀ a ∈ bytesRead E P s m, byteAt E.beyond m.data a = byteAt beyond' m.data a) :
    (pointCloudTransformer E P).out s m =
      (pointCloudTransformer { E with beyond := beyond' } P).out s m := by
  cases hpcl : E.fromROSMsg m with
  | none =>
    -- nothing is read of a message that PCL refuses
    change (pointCloudCallback E P s m).2 =
      (pointCloudCallback { E with beyond := beyond' } P s m).2
    unfold pointCloudCallback
    dsimp only
    rw [hpcl]
  | some cloudIn =>
    -- the fields of the points that are let through are read
    have hbytes (q : PointXYZI K × ℕ) (hq : q ∈ retained E P cloudIn.points) :
        ∀ f ∈ (resolveOffsets m s).fieldsRead, ∀ b ∈ f.bytes (pointStart m q.2),
          byteAt E.beyond m.data b = byteAt beyond' m.data b :=
      fun f hf b hb => h b ((mem_bytesRead hpcl).mpr ⟨q.2, List.mem_map_of_mem hq, f, hf, hb⟩)
    rw [out_eq_publishClouds E s m P hpcl,
      out_eq_publishClouds { E with beyond := beyond' } s m P hpcl, publishClouds_eq,
      publishClouds_eq]
    rw [autowarePoints_congr P hbytes, liosamPoints_congr P hbytes]
    rfl

end Transformer

/-! ### Both adapters -/

/-- **Inside the message, nothing else is read.** As long as the reads stay in the message, the
clouds do not depend on the bytes around it. -/
theorem clouds_of_readsInBounds {K : Type} [Field K] [LinearOrder K] [FloorRing K] (E : Env K)
    (P : Params K) (s : State) {beyond beyond' : ℤ → BitVec 8} (m : PointCloud2 K) (now : K) :
    (Adapter.ReadsInBounds m →
      Adapter.onPointcloud beyond m now = Adapter.onPointcloud beyond' m now) ∧
    (ReadsInBounds E P s m →
      (pointCloudTransformer E P).out s m =
        (pointCloudTransformer { E with beyond := beyond' } P).out s m) := by
  refine ⟨?_, ?_⟩
  · intro h
    exact Adapter.onPointcloud_congr now fun a ha => byteAt_of_inside (h a ha).1 (h a ha).2
  · intro h
    exact out_congr P fun a ha => byteAt_of_inside (h a ha).1 (h a ha).2

/-- **When the raw accesses are in bounds.** For every message, and in any state of the
transformer. The old adapter reads inside the data if and only if it gives up, there are no
points, or the values of the last point that pass its guard lie inside. It writes inside its
output if and only if it gives up, there are no points, or sixteen times the width fits in
32 bits. The transformer reads inside the data if and only if PCL throws, or ring and time
of the first and of the last point that is let through lie inside. -/
theorem inBounds_iff {K : Type} [Field K] [LinearOrder K] [FloorRing K] (E : Env K)
    (P : Params K) (s : State) (beyond : ℤ → BitVec 8) (m : PointCloud2 K) :
    (Adapter.ReadsInBounds m ↔
      Adapter.Missing m ∨ m.width.toNat * m.height.toNat = 0 ∨
        ∀ f ∈ Adapter.fieldsRead m, Adapter.Passes m f →
          ((m.width.toNat * m.height.toNat - 1 : ℕ) : ℤ) * m.pointStep.toNat + f.offset + f.size ≤
            m.data.length) ∧
    (Adapter.WritesInBounds beyond m ↔
      Adapter.Missing m ∨ m.width.toNat * m.height.toNat = 0 ∨ 16 * m.width.toNat < 2 ^ 32) ∧
    (ReadsInBounds E P s m ↔
      ∀ cloudIn, E.fromROSMsg m = some cloudIn →
        ∀ i, (retainedIndices E P cloudIn.points).head? = some i ∨
            (retainedIndices E P cloudIn.points).getLast? = some i →
          ∀ f ∈ (resolveOffsets m s).fieldsRead, f.Inside (pointStart m i) m.data.length) :=
  ⟨Adapter.readsInBounds_iff m, Adapter.writesInBounds_iff beyond m, readsInBounds_iff E P s m⟩

section Outside

/-- The data end after the first coordinate. -/
def truncatedCloud : PointCloud2 ℚ := { singlePoint 16 with data := List.replicate 4 0 }

/-- A row of 2^28 points. -/
def wideCloud : PointCloud2 ℚ := { singlePoint 16 with width := 0x10000000 }

/-- The old adapter reads past the end of one cloud and writes past the end of its output for
another, and the transformer reads a ring at an offset behind its point. -/
theorem accesses_outside :
    ¬ Adapter.ReadsInBounds truncatedCloud ∧
    ¬ Adapter.WritesInBounds (fun _ => 0) wideCloud ∧
    ¬ ReadsInBounds Env.rat Params.default State.initial (singlePoint 100) := by
  refine ⟨?_, ?_, ?_⟩
  · intro h
    exact absurd (h 4 (by decide +kernel)).2 (by decide)
  · rw [Adapter.writesInBounds_iff]
    decide
  · intro h
    exact absurd (h 100 (by decide +kernel)).2 (by decide)

end Outside

end Sensing
end WtbAutoware
