import WtbAutoware.Sensing.Rows

/-!
# The transformer in place of the adapter

The launch file has the transformer in the place of the old adapter. Both publish the points
of a cloud under the frame `base_link`. They differ in what they do to a point: the
transformer moves it into that frame and truncates its intensity, the adapter leaves it in
the frame of the laser and rounds its intensity. They also differ in the stamp, which the
adapter takes from its own clock.

So they publish the same cloud exactly if none of that makes a difference
(`sameCloud_iff`): the clock reads the stamp of the message, the transform leaves every
point where it is (`fixes_iff`), and every intensity rounds down
(`intensityByte_eq_iff`), and the ring of the cloud is where the transformer has resolved it
to be (`ReadsRing`). `brightPoint` is a point for which two of these fail.
-/

namespace WtbAutoware
namespace Sensing

open Reactive

/-! ### A point that the transform leaves where it is -/

section Rows

variable {K : Type} [Field K] [LinearOrder K] (E : Env K)

variable {E} in
/-- A sum is finite only if its terms are. -/
theorem exists_fin_of_add {x y : Flt K} {r : K} (h : E.add x y = .fin r) :
    (∃ a, x = .fin a) ∧ ∃ b, y = .fin b := by
  obtain ⟨s, hs⟩ := Flt.exists_fin_of_rounded h
  change Flt.add x y = .fin s at hs
  cases x <;> cases y <;> simp_all [Flt.add]

theorem nan_add (x : Flt K) : E.add .nan x = .nan := by
  change (Flt.add .nan x).rounded E.float = .nan
  cases x <;> rfl

theorem add_nan (x : Flt K) : E.add x .nan = .nan := by
  change (Flt.add x .nan).rounded E.float = .nan
  cases x <;> rfl

/-- Terms that are not finite add up to an infinity only if each of them is that infinity. -/
theorem sum_eq_inf_iff {a b c i : Flt K} {t : K} (ha : ∀ r, a ≠ .fin r) (hb : ∀ r, b ≠ .fin r)
    (hc : ∀ r, c ≠ .fin r) (hi : i = .posInf ∨ i = .negInf) :
    E.add (E.add (E.add a b) c) (.fin t) = i ↔ a = i ∧ b = i ∧ c = i := by
  change ((((Flt.add (((Flt.add a b).rounded E.float)) c).rounded E.float).add
    (.fin t)).rounded E.float) = i ↔ _
  rcases hi with rfl | rfl
  · cases a <;> cases b <;> cases c <;> simp_all [Flt.add, Flt.rounded]
  · cases a <;> cases b <;> cases c <;> simp_all [Flt.add, Flt.rounded]

/-- A finite factor makes nothing finite. -/
theorem exists_fin_of_mulConst {x : Flt K} {c r : K} (h : x.mulConst c = .fin r) :
    ∃ a, x = .fin a := by
  unfold Flt.mulConst Flt.scaleInf at h
  cases x with
  | fin a => exact ⟨a, rfl⟩
  | posInf =>
    dsimp only at h
    split at h
    · cases h
    · split at h <;> cases h
  | negInf =>
    dsimp only at h
    split at h
    · cases h
    · split at h <;> cases h
  | nan => cases h

variable {E} in
theorem exists_fin_of_mul {x : Flt K} {c r : K} (h : E.mul x c = .fin r) : ∃ a, x = .fin a := by
  obtain ⟨s, hs⟩ := Flt.exists_fin_of_rounded h
  exact exists_fin_of_mulConst hs

/-- The three coordinates of a point. -/
def PointXYZI.coordinate {K : Type} (p : PointXYZI K) : Fin 3 → Flt K := ![p.x, p.y, p.z]

/-- Row `j` of the product, for finite coordinates: a sum of products, rounded term by term. -/
def Env.row (j : Fin 4) (v : Fin 3 → K) : K :=
  E.float (E.float (E.float (E.float (v 0 * E.T j 0) + E.float (v 1 * E.T j 1)) +
    E.float (v 2 * E.T j 2)) + E.T j 3)

/-- The transform leaves the point where it is. The rounded product maps finite coordinates to
themselves. If they are all NaN it cannot but do so, and if they are all infinite, its
coefficients carry the sign of each of them to that of every other. -/
def Fixes (p : PointXYZI K) : Prop :=
  (∃ v : Fin 3 → K, (∀ k, p.coordinate k = .fin (v k)) ∧ ∀ j : Fin 3, E.row j.castSucc v = v j) ∨
    (∀ k, p.coordinate k = .nan) ∨
    (∀ k, p.coordinate k = .posInf ∨ p.coordinate k = .negInf) ∧
      ∀ j k : Fin 3, (p.coordinate k).mulConst (E.T j.castSucc k.castSucc) = p.coordinate j

variable (p : PointXYZI K)

/-- A row of the product, term by term. -/
theorem transformRow_eq_sum (j : Fin 4) :
    transformRow E j p =
      E.add (E.add (E.add (E.mul (p.coordinate 0) (E.T j (0 : Fin 3).castSucc))
        (E.mul (p.coordinate 1) (E.T j (1 : Fin 3).castSucc)))
        (E.mul (p.coordinate 2) (E.T j (2 : Fin 3).castSucc))) (.fin (E.T j 3)) := rfl

theorem transformRow_of_fin {v : Fin 3 → K} (hv : ∀ k, p.coordinate k = .fin (v k)) (j : Fin 4) :
    transformRow E j p = .fin (E.row j v) := by
  rw [transformRow_eq_sum, hv 0, hv 1, hv 2]
  rfl

/-- A row is finite only if the coordinates are. -/
theorem exists_fin_of_row {j : Fin 4} {r : K} (h : transformRow E j p = .fin r) (k : Fin 3) :
    ∃ a, p.coordinate k = .fin a := by
  rw [transformRow_eq_sum] at h
  obtain ⟨⟨s, hs⟩, -⟩ := exists_fin_of_add h
  obtain ⟨⟨t, ht⟩, ⟨c, hc⟩⟩ := exists_fin_of_add hs
  obtain ⟨⟨a, ha⟩, ⟨b, hb⟩⟩ := exists_fin_of_add ht
  match k with
  | 0 => exact exists_fin_of_mul ha
  | 1 => exact exists_fin_of_mul hb
  | 2 => exact exists_fin_of_mul hc

/-- A NaN spreads to every row. -/
theorem transformRow_of_nan {k : Fin 3} (h : p.coordinate k = .nan) (j : Fin 4) :
    transformRow E j p = .nan := by
  have hnan (c : K) : E.mul .nan c = .nan := rfl
  rw [transformRow_eq_sum]
  match k with
  | 0 => rw [h, hnan, nan_add, nan_add, nan_add]
  | 1 => rw [h, hnan, add_nan, nan_add, nan_add]
  | 2 => rw [h, hnan, add_nan, nan_add]

/-- The rows of infinite coordinates are the coordinates exactly if every term of the row is. -/
theorem rows_eq_iff_of_inf (hinf : ∀ k, p.coordinate k = .posInf ∨ p.coordinate k = .negInf) :
    (∀ j : Fin 3, transformRow E j.castSucc p = p.coordinate j) ↔
      ∀ j k : Fin 3, (p.coordinate k).mulConst (E.T j.castSucc k.castSucc) = p.coordinate j := by
  -- no factor makes an infinity finite
  have hprod (j : Fin 4) (k : Fin 3) (r : K) :
      (p.coordinate k).mulConst (E.T j k.castSucc) ≠ .fin r := by
    intro hr
    obtain ⟨a, ha⟩ := exists_fin_of_mulConst hr
    rcases hinf k with hk | hk
    · cases hk.symm.trans ha
    · cases hk.symm.trans ha
  -- so there is nothing to round, and the offset of the row, which is finite, plays no part
  have hmul (j : Fin 4) (k : Fin 3) : E.mul (p.coordinate k) (E.T j k.castSucc) =
      (p.coordinate k).mulConst (E.T j k.castSucc) :=
    Flt.rounded_eq_of_not_fin E.float (hprod j k)
  refine forall_congr' fun j => ?_
  rw [transformRow_eq_sum, hmul, hmul, hmul,
    sum_eq_inf_iff E (hprod _ 0) (hprod _ 1) (hprod _ 2) (hinf j)]
  refine ⟨?_, fun h => ⟨h 0, h 1, h 2⟩⟩
  rintro ⟨h0, h1, h2⟩ k
  match k with
  | 0 => exact h0
  | 1 => exact h1
  | 2 => exact h2

/-- If the rows are the coordinates, these are of one kind. -/
theorem coordinates_of_rows (h : ∀ j : Fin 3, transformRow E j.castSucc p = p.coordinate j) :
    (∀ k, ∃ r, p.coordinate k = .fin r) ∨ (∀ k, p.coordinate k = .nan) ∨
      ∀ k, p.coordinate k = .posInf ∨ p.coordinate k = .negInf := by
  by_cases hfin : ∃ k r, p.coordinate k = .fin r
  · -- a row is finite
    obtain ⟨k, r, hr⟩ := hfin
    exact Or.inl (exists_fin_of_row E p ((h k).trans hr))
  · by_cases hnan : ∃ k, p.coordinate k = .nan
    · -- every row is NaN
      obtain ⟨k, hk⟩ := hnan
      refine Or.inr (Or.inl fun j => ?_)
      rw [← h j, transformRow_of_nan E p hk]
    · refine Or.inr (Or.inr fun k => ?_)
      cases hc : p.coordinate k with
      | fin r => exact absurd ⟨k, r, hc⟩ hfin
      | posInf => exact Or.inl rfl
      | negInf => exact Or.inr rfl
      | nan => exact absurd ⟨k, hc⟩ hnan

/-- **The transform leaves a point where it is** if every row of the product gives the
coordinate back. -/
theorem fixes_iff :
    (∀ j : Fin 3, transformRow E j.castSucc p = p.coordinate j) ↔ Fixes E p := by
  refine ⟨?_, ?_⟩
  · intro h
    rcases coordinates_of_rows E p h with hfin | hnan | hinf
    · -- finite rows are those of finite coordinates
      left
      choose v hv using hfin
      refine ⟨v, hv, fun j => ?_⟩
      have hj := h j
      rw [transformRow_of_fin E p hv, hv j] at hj
      exact Flt.fin.inj hj
    · exact Or.inr (Or.inl hnan)
    · exact Or.inr (Or.inr ⟨hinf, (rows_eq_iff_of_inf E p hinf).mp h⟩)
  · rintro (⟨v, hv, h⟩ | hnan | ⟨hinf, h⟩)
    · intro j
      rw [transformRow_of_fin E p hv, h j, hv j]
    · intro j
      rw [transformRow_of_nan E p (hnan 0), hnan j]
    · exact (rows_eq_iff_of_inf E p hinf).mpr h

end Rows

/-! ### An intensity that rounds down -/

section Intensity

variable {K : Type} [Field K] [LinearOrder K] [FloorRing K]

/-- Clamped to a byte, the intensity has a fraction below one half. It is not infinite. -/
def RoundsDown : Flt K → Prop
  | .fin x => Int.fract (stdClamp x 0 255) < 1 / 2
  | .posInf => False
  | .negInf => True
  | .nan => True

variable [IsStrictOrderedRing K]

omit [FloorRing K] in
theorem min_max_eq_stdClamp (x : K) : min 255 (max 0 x) = stdClamp x 0 255 := by
  have h255 : (0 : K) ≤ 255 := by norm_num
  unfold stdClamp
  split
  · next hneg => rw [max_eq_left hneg.le, min_eq_right h255]
  · next hneg =>
    rw [max_eq_right (not_lt.mp hneg)]
    split
    · next hbig => exact min_eq_left hbig.le
    · next hbig => exact min_eq_right (not_lt.mp hbig)

/-- Integers that fit in a byte are told apart by it. -/
theorem ofInt_8_inj {a b : ℤ} (ha : 0 ≤ a) (ha' : a < 256) (hb : 0 ≤ b) (hb' : b < 256) :
    BitVec.ofInt 8 a = BitVec.ofInt 8 b ↔ a = b := by
  refine ⟨?_, congrArg _⟩
  intro h
  have hnat := congrArg BitVec.toNat h
  rw [BitVec.toNat_ofInt, BitVec.toNat_ofInt] at hnat
  omega

theorem floor_add_half_eq_iff (x : K) : ⌊x⌋ = ⌊x + 1 / 2⌋ ↔ Int.fract x < 1 / 2 := by
  have hle : (⌊x⌋ : K) ≤ x := Int.floor_le x
  rw [eq_comm, Int.floor_eq_iff, Int.fract]
  refine ⟨?_, ?_⟩
  · rintro ⟨-, h⟩
    linarith
  · intro h
    exact ⟨by linarith, by linarith⟩

/-- What `std::max` takes to zero is sent as zero. -/
theorem intensityByte_of_stdMax {v : Flt K} (h : stdMax (.fin 0) v = .fin 0) :
    intensityByte v = BitVec.ofInt 8 0 := by
  unfold intensityByte
  rw [h, stdMin_fin, min_eq_right (by norm_num)]
  exact congrArg (BitVec.ofInt 8) truncZ_zero

/-- **The two intensity bytes** agree exactly on the intensities that round down. -/
theorem intensityByte_eq_iff (v : Flt K) :
    intensityByte v = Adapter.intensityToUint8 v ↔ RoundsDown v := by
  have h255 : truncZ (255 : K) = 255 := by exact_mod_cast truncZ_intCast (K := K) 255
  cases v with
  | fin x =>
    -- within the range of a byte, one truncates and the other rounds
    have h0 : 0 ≤ stdClamp x 0 255 := le_stdClamp (by norm_num)
    have h1 : stdClamp x 0 255 ≤ 255 := stdClamp_le (by norm_num)
    have hfloor : ⌊stdClamp x 0 255⌋ < 256 := Int.floor_lt.mpr (by push_cast; linarith)
    have hround : ⌊stdClamp x 0 255 + 1 / 2⌋ < 256 := Int.floor_lt.mpr (by push_cast; linarith)
    have htrunc : intensityByte (.fin x) = BitVec.ofInt 8 ⌊stdClamp x 0 255⌋ := by
      unfold intensityByte
      rw [stdMax_fin, stdMin_fin, min_max_eq_stdClamp, ← truncZ_of_nonneg h0]
      rfl
    have hlround : Adapter.intensityToUint8 (.fin x) =
        BitVec.ofInt 8 ⌊stdClamp x 0 255 + 1 / 2⌋ := by
      change BitVec.ofInt 8 (Adapter.lround (stdClamp x 0 255)) = _
      rw [Adapter.lround, if_pos h0]
    rw [htrunc, hlround, ofInt_8_inj (Int.floor_nonneg.mpr h0) hfloor
      (Int.floor_nonneg.mpr (by linarith)) hround]
    exact floor_add_half_eq_iff _
  | posInf =>
    have hmax : intensityByte (.posInf : Flt K) = BitVec.ofInt 8 (truncZ (255 : K)) := rfl
    refine iff_of_false ?_ id
    rw [hmax, h255]
    exact (by decide : ¬ BitVec.ofInt 8 255 = 0)
  | negInf => exact iff_of_true (intensityByte_of_stdMax rfl) trivial
  | nan => exact iff_of_true (intensityByte_of_stdMax rfl) trivial

end Intensity

/-! ### Well-formed clouds -/

section WellFormed

variable {K : Type} (m : PointCloud2 K)

/-- The message has the field `name`, of that datatype and size, inside the point. -/
def HasField (name : String) (datatype size : ℤ) : Prop :=
  ∃ field ∈ findField m name, (field.datatype.toNat : ℤ) = datatype ∧
    field.count.toNat ≤ 1 ∧ 0 ≤ field.offset.toInt ∧ field.offset.toInt + size ≤ m.pointStep.toNat

instance (name : String) (datatype size : ℤ) : Decidable (HasField m name datatype size) :=
  inferInstanceAs (Decidable (∃ field ∈ findField m name, _))

/-- A cloud of the laser: no padding, coordinates and intensity as floats, and the ring. The
five of them do not overlap, so a point has room for their eighteen bytes. -/
structure WellFormed : Prop where
  unpadded : Unpadded m
  room : 18 ≤ m.pointStep.toNat
  floats : ∀ name ∈ ["x", "y", "z", "intensity"], HasField m name PointField.FLOAT32 4
  ring : HasField m "ring" PointField.UINT16 2

variable {m}

theorem HasField.offset_bounds {name : String} {datatype size : ℤ}
    (h : HasField m name datatype size) :
    0 ≤ fieldOffset m name ∧ fieldOffset m name + size ≤ m.pointStep.toNat := by
  obtain ⟨field, hfind, -, -, hlo, hhi⟩ := h
  unfold fieldOffset
  rw [hfind]
  exact ⟨hlo, hhi⟩

/-- PCL maps the member of that name to the field that the adapters look up. -/
theorem HasField.memberOffset_eq {name : String} {datatype size : ℤ}
    (h : HasField m name datatype size) :
    memberOffset m name datatype = some (fieldOffset m name) := by
  obtain ⟨field, hfind, hdatatype, hcount, hlo, -⟩ := h
  -- PCL finds the field that goes by its name alone
  have hsame : (m.fields.find? fun f =>
      f.name = name ∧ (f.datatype.toNat : ℤ) = datatype ∧ f.count.toNat ≤ 1) = some field := by
    obtain ⟨hname, front, back, hfields, hfront⟩ := List.find?_eq_some_iff_append.mp hfind
    refine List.find?_eq_some_iff_append.mpr ⟨?_, front, back, hfields, ?_⟩
    · exact decide_eq_true ⟨of_decide_eq_true hname, hdatatype, hcount⟩
    · intro f hf
      have hother := hfront f hf
      simp only [Bool.not_eq_true', decide_eq_false_iff_not] at hother ⊢
      exact fun hf => hother hf.1
  -- an offset that is read as positive is the offset itself
  have hoffset : fieldOffset m name = field.offset.toNat := by
    unfold fieldOffset
    rw [hfind]
    change field.offset.toInt = _
    rw [BitVec.toInt_eq_toNat_cond] at hlo ⊢
    split at hlo
    · next hsmall => rw [if_pos hsmall]
    · next hbig =>
      have := field.offset.isLt
      omega
  unfold memberOffset
  rw [hsame, hoffset]
  rfl

/-- In an unpadded cloud, every point is found by either adapter. -/
theorem Unpadded.starts_eq (h : Unpadded m) {i : ℕ} (hi : i < m.width.toNat * m.height.toNat) :
    pointStart m i = ownStart m i ∧ (i * m.pointStep.toNat : ℤ) = ownStart m i := by
  have hrows : RowsHold m := h.rowStep.ge
  refine ⟨(pointStart_eq_ownStart_iff hrows).mpr ?_ i hi,
    (ownStart_eq_mul hi (Or.inr h.rowStep)).symm⟩
  by_cases hw : m.width.toNat = 0
  · exact Or.inl hw
  · by_cases hh : m.height.toNat ≤ 1
    · exact Or.inr (Or.inl hh)
    · refine Or.inr (Or.inr ⟨h.rowStep, ?_⟩)
      -- two points with a step of 2^31 fill more than a message can hold
      by_contra hbig
      have hwire := h.wire
      have hdata : 2 * (1 * 2 ^ 31) ≤ m.height.toNat * (m.width.toNat * m.pointStep.toNat) :=
        Nat.mul_le_mul (not_le.mp hh)
          (Nat.mul_le_mul (Nat.one_le_iff_ne_zero.mpr hw) (not_lt.mp hbig))
      rw [h.length, h.rowStep] at hwire
      omega

end WellFormed

/-! ### The two clouds -/

section Clouds

variable {K : Type} [Field K]

/-- The points of a message in the format of Autoware, as a subscriber reads them. -/
def xyzircOf (output : PointCloud2 K) : List (PointXYZIRC K) :=
  (pointStarts output).map fun a =>
    let members := Adapter.membersAt (fun _ => 0) output.data a
    { x := float32 members.1.1
      y := float32 members.1.2.1
      z := float32 members.1.2.2
      intensity := members.2.1.1
      returnType := members.2.1.2
      channel := members.2.2 }

variable [LinearOrder K] [FloorRing K]

/-- The two nodes publish the same cloud for `m`: with the same points, in `base_link`, and
under the stamp of `m`. -/
def SameCloud (E : Env K) (P : Params K) (s : State) (beyond : ℤ → BitVec 8) (now : K)
    (m : PointCloud2 K) : Prop :=
  ∃ output header cloud others,
    Adapter.onPointcloud beyond m now = some output ∧
    (pointCloudTransformer E P).out s m = .autoware header cloud :: others ∧
    output.header = { stamp := m.header.stamp, frameId := "base_link" } ∧
    header = { stamp := m.header.stamp, frameId := "base_link" } ∧
    cloud.points = xyzircOf output

theorem SameCloud.points_eq {E : Env K} {P : Params K} {s : State} {beyond : ℤ → BitVec 8}
    {now : K} {m : PointCloud2 K} (h : SameCloud E P s beyond now m) :
    ∃ output, Adapter.onPointcloud beyond m now = some output ∧
      autowareOf (((pointCloudTransformer E P).out s m).take 1) = xyzircOf output := by
  obtain ⟨output, header, cloud, others, hout, hcloud, -, -, hsame⟩ := h
  refine ⟨output, hout, ?_⟩
  rw [hcloud, ← hsame]
  exact List.append_nil _

/-- The point at index `i` as the old adapter copies it. -/
def copiedPoint (m : PointCloud2 K) (i : ℕ) : PointXYZIRC K where
  x := (xyziAt m (ownStart m i)).x
  y := (xyziAt m (ownStart m i)).y
  z := (xyziAt m (ownStart m i)).z
  intensity := Adapter.intensityToUint8 (xyziAt m (ownStart m i)).intensity
  returnType := 1
  channel := uint16At (fun _ => 0) m.data (ownStart m i + fieldOffset m "ring")

/-- The point at index `i` as the transformer moves it. -/
def movedPoint (E : Env K) (s : State) (m : PointCloud2 K) (i : ℕ) : PointXYZIRC K where
  x := transformRow E 0 (xyziAt m (ownStart m i))
  y := transformRow E 1 (xyziAt m (ownStart m i))
  z := transformRow E 2 (xyziAt m (ownStart m i))
  intensity := intensityByte (xyziAt m (ownStart m i)).intensity
  returnType := E.singleStrongest
  channel := readUint16 E m (ownStart m i) (resolveOffsets m s).ringOffset

/-- The ring that the transformer reads for point `i` is the one in the field `ring`. -/
def ReadsRing (E : Env K) (s : State) (m : PointCloud2 K) (i : ℕ) : Prop :=
  readUint16 E m (ownStart m i) (resolveOffsets m s).ringOffset =
    uint16At (fun _ => 0) m.data (ownStart m i + fieldOffset m "ring")

/-- A copied and a moved point are the same if the transform leaves the point where it is, its
intensity rounds down, and the ring is found. -/
theorem movedPoint_eq_iff [IsStrictOrderedRing K] {E : Env K} {s : State} {m : PointCloud2 K}
    {i : ℕ} (hstrongest : E.singleStrongest = 1) :
    movedPoint E s m i = copiedPoint m i ↔
      Fixes E (xyziAt m (ownStart m i)) ∧ RoundsDown (xyziAt m (ownStart m i)).intensity ∧
        ReadsRing E s m i := by
  rw [← fixes_iff, ← intensityByte_eq_iff]
  unfold movedPoint copiedPoint
  -- member by member; the return type is the same anyway
  rw [PointXYZIRC.mk.injEq]
  refine ⟨?_, ?_⟩
  · rintro ⟨hx, hy, hz, hintensity, -, hchannel⟩
    refine ⟨?_, hintensity, hchannel⟩
    intro j
    match j with
    | 0 => exact hx
    | 1 => exact hy
    | 2 => exact hz
  · rintro ⟨hrows, hintensity, hchannel⟩
    exact ⟨hrows 0, hrows 1, hrows 2, hintensity, hstrongest, hchannel⟩

variable {m : PointCloud2 K} (hm : WellFormed m)
include hm

omit [Field K] [LinearOrder K] [FloorRing K] in
/-- The bytes of a field lie in the message. -/
theorem WellFormed.inside {name : String} {datatype size : ℤ} (h : HasField m name datatype size)
    {i : ℕ} (hi : i < m.width.toNat * m.height.toNat) {beyond beyond' : ℤ → BitVec 8} (b : ℤ)
    (hlo : ownStart m i + fieldOffset m name ≤ b)
    (hhi : b < ownStart m i + fieldOffset m name + size) :
    byteAt beyond m.data b = byteAt beyond' m.data b := by
  obtain ⟨hstart, hend⟩ := ownStart_add_le hm.unpadded.rowStep.ge hi
  obtain ⟨hoffset, hsize⟩ := h.offset_bounds
  have hlength : (m.data.length : ℤ) = (m.height.toNat * m.rowStep.toNat : ℕ) := by
    exact_mod_cast hm.unpadded.length
  exact byteAt_of_inside (by omega) (by omega)

omit [LinearOrder K] [FloorRing K] in
/-- The old adapter reads the float that PCL converts. -/
theorem WellFormed.float32_readFloat32 {name : String}
    (h : HasField m name PointField.FLOAT32 4) {i : ℕ} (hi : i < m.width.toNat * m.height.toNat)
    (beyond : ℤ → BitVec 8) :
    float32 (Adapter.readFloat32 beyond m (ownStart m i) (fieldOffset m name)) =
      floatMember m (ownStart m i) name := by
  obtain ⟨hoffset, hsize⟩ := h.offset_bounds
  unfold Adapter.readFloat32 floatMember
  rw [if_neg (not_or.mpr ⟨not_lt.mpr hoffset, not_lt.mpr hsize⟩), h.memberOffset_eq]
  exact congrArg float32 (uint32At_congr (hm.inside h hi))

omit [LinearOrder K] [FloorRing K] [Field K] in
/-- Points of eighteen bytes and more leave room for sixteen of each in a row. -/
theorem WellFormed.outRowStep_fits (hh : 0 < m.height.toNat) : 16 * m.width.toNat < 2 ^ 32 := by
  have hwire := hm.unpadded.wire
  rw [hm.unpadded.length, hm.unpadded.rowStep] at hwire
  calc 16 * m.width.toNat = 1 * (m.width.toNat * 16) := by ring
    _ ≤ m.height.toNat * (m.width.toNat * m.pointStep.toNat) :=
        Nat.mul_le_mul hh (Nat.mul_le_mul_left _ (Nat.le_of_lt_succ (by have := hm.room; omega)))
    _ < 2 ^ 32 := hwire

/-- **What the old adapter publishes**: its points are copied. -/
theorem WellFormed.xyzircOf_output {beyond : ℤ → BitVec 8} {now : K} {output : PointCloud2 K}
    (hout : Adapter.onPointcloud beyond m now = some output) :
    xyzircOf output = (List.range (m.width.toNat * m.height.toNat)).map (copiedPoint m) := by
  obtain ⟨-, hheight, hwidth, hpointStep, hrowStep, hdata⟩ :=
    Adapter.output_of_onPointcloud beyond m hout
  unfold xyzircOf
  rw [pointStarts_eq_map, List.map_map, hheight, hwidth, Nat.mul_comm]
  refine List.map_congr_left ?_
  intro i hi
  have hlt : i < m.width.toNat * m.height.toNat := List.mem_range.mp hi
  have hfit := hm.outRowStep_fits (Nat.pos_of_mul_pos_left (Nat.zero_lt_of_lt hlt))
  have hplace := (hm.unpadded.starts_eq hlt).2
  have hstart : ownStart output i = (i * 16 : ℕ) := by
    have hstep : output.rowStep.toNat = output.width.toNat * output.pointStep.toNat := by
      rw [hrowStep, hwidth, hpointStep, Adapter.toNat_outRowStep hfit, Nat.mul_comm]
      rfl
    rw [ownStart_eq_mul (by rwa [hwidth, hheight]) (Or.inr hstep), hpointStep, Nat.cast_mul]
    rfl
  have hchannel : Adapter.readUint16 beyond m (ownStart m i) (Adapter.channelOffset m) =
      uint16At (fun _ => 0) m.data (ownStart m i + fieldOffset m "ring") := by
    obtain ⟨hoffset, hsize⟩ := hm.ring.offset_bounds
    rw [Adapter.channelOffset, if_pos hoffset, Adapter.readUint16,
      if_neg (not_or.mpr ⟨not_lt.mpr hoffset, not_lt.mpr hsize⟩)]
    exact uint16At_congr (hm.inside hm.ring hlt)
  -- the sixteen bytes of the point in the output
  obtain ⟨pre, post, hsplit, hlen⟩ := Adapter.flatMap_eq_append
    (Adapter.length_outPoint beyond m) hlt
  have hmembers := Adapter.membersAt_pointAt beyond m (fun _ => 0) pre post
    (i * m.pointStep.toNat)
  change Adapter.membersAt _ (pre ++ Adapter.outPoint beyond m i ++ post) _ = _ at hmembers
  rw [← hsplit, ← Adapter.outputData_eq_flatMap beyond hfit, ← hdata, hlen, ← hstart, hplace,
    hchannel] at hmembers
  have hfloat (name : String) (hname : name ∈ ["x", "y", "z", "intensity"]) :=
    hm.float32_readFloat32 (hm.floats name hname) hlt beyond
  unfold copiedPoint xyziAt
  rw [Function.comp_apply, hmembers, hfloat "intensity" (by simp), ← hfloat "x" (by simp),
    ← hfloat "y" (by simp), ← hfloat "z" (by simp)]

/-- **What the transformer publishes**: its points are moved. -/
theorem WellFormed.autowareOf_out {E : Env K} {P : Params K} {s : State}
    (hP : P.useHeightFilter = false) (hpcl : ReturnsInPlace E m) :
    autowareOf ((pointCloudTransformer E P).out s m) =
      (List.range (m.width.toNat * m.height.toNat)).map (movedPoint E s m) := by
  obtain ⟨cloudIn, hcloud, hpoints⟩ := hpcl
  have hcount : cloudIn.points.length = m.width.toNat * m.height.toNat := by
    rw [hpoints, List.length_map, pointStarts_eq_map, List.length_map, List.length_range,
      Nat.mul_comm]
  have hindices := retainedIndices_of_unfiltered E hP cloudIn.points
  refine List.ext_getElem? ?_
  intro k
  by_cases hk : k < m.width.toNat * m.height.toNat
  · have hretained : (retainedIndices E P cloudIn.points)[k]? = some k := by
      rw [hindices, hcount, List.getElem?_range hk]
    obtain ⟨-, haw, -⟩ := published_at E (s := s) hcloud hpoints hretained
    rw [haw, List.getElem?_map, List.getElem?_range hk, Option.map_some]
    unfold autowarePoint movedPoint
    rw [(hm.unpadded.starts_eq hk).1]
  · -- neither list is that long
    have hlen : (autowareOf ((pointCloudTransformer E P).out s m)).length =
        m.width.toNat * m.height.toNat := by
      rw [Sensing.autowareOf_out E s m P hcloud, autowarePoints, List.length_map, ← hcount,
        ← List.length_range (n := cloudIn.points.length), ← hindices, retainedIndices,
        List.length_map]
    rw [List.getElem?_eq_none (by rw [hlen]; exact not_lt.mp hk), List.getElem?_eq_none]
    rw [List.length_map, List.length_range]
    exact not_lt.mp hk

/-- **When the transformer replaces the adapter.** For every well-formed cloud of the laser
that PCL converts, and with the height filter off: the two nodes publish the same cloud,
under the stamp of the input, if and only if the clock of the adapter reads that stamp, and
every point stays where it is under the transform, has an intensity that rounds down, and
has its ring where the transformer looks for it. -/
theorem sameCloud_iff [IsStrictOrderedRing K] (E : Env K) (P : Params K) (s : State)
    (beyond : ℤ → BitVec 8) (now : K) (hP : P.useHeightFilter = false)
    (hstrongest : E.singleStrongest = 1) (hpcl : ReturnsInPlace E m) :
    SameCloud E P s beyond now m ↔
      now = m.header.stamp ∧ ∀ i < m.width.toNat * m.height.toNat,
        Fixes E (xyziAt m (ownStart m i)) ∧
          RoundsDown (xyziAt m (ownStart m i)).intensity ∧ ReadsRing E s m i := by
  have hfields : Adapter.DeclaresXyzi m := fun name hname => (hm.floats name hname).offset_bounds
  have hmoved := hm.autowareOf_out (P := P) (s := s) hP hpcl
  obtain ⟨cloudIn, hcloudIn, -⟩ := hpcl
  have hpublished : (pointCloudTransformer E P).out s m = _ :=
    (out_eq_publishClouds E s m P hcloudIn).trans
      (publishClouds_eq E (resolveOffsets m s) m P cloudIn)
  rw [Sensing.autowareOf_out E s m P hcloudIn] at hmoved
  -- the points agree if each moved point is the copied one
  have hpoints {output : PointCloud2 K} (hout : Adapter.onPointcloud beyond m now = some output) :
      autowarePoints E (resolveOffsets m s) m P cloudIn.points = xyzircOf output ↔
        ∀ i < m.width.toNat * m.height.toNat, Fixes E (xyziAt m (ownStart m i)) ∧
          RoundsDown (xyziAt m (ownStart m i)).intensity ∧ ReadsRing E s m i := by
    rw [hmoved, hm.xyzircOf_output hout, List.map_inj_left]
    refine forall_congr' fun i => ?_
    rw [List.mem_range, movedPoint_eq_iff hstrongest]
  unfold SameCloud
  rw [hpublished]
  refine ⟨?_, ?_⟩
  · rintro ⟨output, header, cloud, others, hout, hcloud, hheader, -, hsame⟩
    obtain ⟨rfl, rfl⟩ := Output.autoware.inj (List.cons.inj hcloud).1
    refine ⟨?_, (hpoints hout).mp hsame⟩
    have hnow := (Adapter.output_of_onPointcloud beyond m hout).1.symm.trans hheader
    exact congrArg Header.stamp hnow
  · rintro ⟨rfl, hall⟩
    obtain ⟨output, hout⟩ : ∃ output, Adapter.onPointcloud beyond m m.header.stamp = some output :=
      ⟨_, if_neg hfields.not_missing⟩
    exact ⟨output, _, _, _, hout, rfl, (Adapter.output_of_onPointcloud beyond m hout).1, rfl,
      (hpoints hout).mpr hall⟩

end Clouds

section Bright

/-- A point at the laser whose intensity is 1.5, under a stamp of 100. -/
def brightPoint : PointCloud2 ℚ :=
  { singlePoint 16 with
    header := { stamp := 100, frameId := "laser" }
    data := List.replicate 12 0 ++ [0, 0, 0xc0, 0x3f] ++ [3, 0, 0, 0] }

theorem wellFormed_brightPoint : WellFormed brightPoint :=
  ⟨⟨by decide, by decide, by decide, by decide⟩, by decide, by decide, by decide⟩

theorem sameCloud_iff_brightPoint :
    SameCloud Env.rat Params.default State.initial (fun _ => 0) 101 brightPoint ↔
      (101 : ℚ) = 100 ∧ ∀ i < 1 * 1,
        Fixes Env.rat (xyziAt brightPoint (ownStart brightPoint i)) ∧
          RoundsDown (xyziAt brightPoint (ownStart brightPoint i)).intensity ∧
          ReadsRing Env.rat State.initial brightPoint i :=
  sameCloud_iff wellFormed_brightPoint Env.rat Params.default State.initial (fun _ => 0) 101 rfl rfl
    (returnsInPlace_fromROSMsgXyzi rfl (by decide))

/-- A laser that is mounted away from the origin of `base_link`. -/
def Env.mounted : Env ℚ := { Env.rat with T := fun i j => if i = j ∨ j = 3 then 1 else 0 }

/-- The adapter publishes it with the stamp of its clock, without the transform, and with
intensity 2 where the transformer has 1. Each of these makes the clouds differ. -/
theorem brightPoint_differs :
    ¬ SameCloud Env.rat Params.default State.initial (fun _ => 0) 101 brightPoint ∧
    ¬ SameCloud Env.mounted Params.default State.initial (fun _ => 0) 0 (singlePoint 16) ∧
    ¬ SameCloud Env.rat Params.default State.initial (fun _ => 0) 100 brightPoint := by
  refine ⟨?_, ?_, ?_⟩
  · -- the stamp is the time of the callback
    rintro ⟨output, header, cloud, others, hout, -, hheader, -, -⟩
    have hnow := (Adapter.output_of_onPointcloud _ _ hout).1.symm.trans hheader
    exact absurd (congrArg Header.stamp hnow) (by decide +kernel)
  · -- the sensor is not mounted at the origin
    intro h
    obtain ⟨output, hout, hpoints⟩ := h.points_eq
    obtain rfl := Option.some.inj hout
    revert hpoints
    decide +kernel
  · -- a half is rounded up by one of the two
    intro h
    obtain ⟨output, hout, hpoints⟩ := h.points_eq
    obtain rfl := Option.some.inj hout
    revert hpoints
    decide +kernel

end Bright

end Sensing
end WtbAutoware
