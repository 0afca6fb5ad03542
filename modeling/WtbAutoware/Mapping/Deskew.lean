import WtbAutoware.Mapping.ImageProjection

/-!
# The instants at which points are deskewed

A point with time `t` in a cloud stamped `H` was measured at `H + t`. LIO-SAM looks its
rotation up at `timeScanCur + t` (`findRotation_trace`, an induction over the loop and
then over the run), so the instant is right exactly if the scan is taken to start at `H`.

* If the header marks the start of the scan, it is, and then the instant also lies within
  the scan.
* If the header marks its end, `timeScanCur` has been moved to the first point already,
  while the times still count from `H`. Every point is looked up too early, by the length
  of the scan (`pointTime_of_endStamped`).

`instants_iff` puts the two together: of a cloud in either convention, the instants are
right if and only if its first time is not below the threshold. `endStampedRun` is a run
with a cloud of the other kind.
-/

namespace WtbAutoware
namespace Mapping

open Reactive Sensing

section Law

variable {K : Type} [Field K] [LinearOrder K] (P : Params K) (E : Env K)

/-- The times of the points of a cloud, relative to its header. -/
def times (cloud : PointCloud2 K) : List K := (laserCloudIn P E cloud).map LaserPoint.time

/-- The header marks the start of the scan. -/
def StartStamped (ts : List K) : Prop := ∀ t ∈ ts, 0 ≤ t

/-- The header marks the end of the scan. -/
def EndStamped (ts : List K) : Prop :=
  (∃ t ∈ ts.head?, t < -(1 / 1000000)) ∧ ∀ t ∈ ts, t ≤ 0

/-- The first time is the smallest and the last time the largest. -/
def InOrder (ts : List K) : Prop :=
  (∀ t₁ ∈ ts.head?, ∀ t ∈ ts, t₁ ≤ t) ∧ ∀ tₙ ∈ ts.getLast?, ∀ t ∈ ts, t ≤ tₙ

/-- Point `i` is looked up at the instant of its measurement, which lies within the scan. -/
def InstantRight (cloud : PointCloud2 K) (i : ℕ) (pointTime : K) : Prop :=
  (∀ t ∈ (times P E cloud)[i]?, pointTime = cloud.header.stamp + t) ∧
    (InOrder (times P E cloud) →
      (getScan P E cloud).timeScanCur ≤ pointTime ∧ pointTime ≤ (getScan P E cloud).timeScanEnd)

variable [FloorRing K]

/-- Every point of a cloud in either convention is looked up at the right instant. -/
def InstantsRight (es : List (Event K)) : Prop :=
  ∀ cloud i pointTime, .findRotation cloud i pointTime ∈ (imageProjection P E).trace es →
    StartStamped (times P E cloud) ∨ EndStamped (times P E cloud) →
    InstantRight P E cloud i pointTime

end Law

/-! ### The calls of `findRotation` -/

section Calls

variable {K : Type} [Field K] [LinearOrder K] {P : Params K} {E : Env K}

theorem calls_deskewPoint {deskewFlag : ℤ} {scan : Scan K} {imu : List (ImuRotation K)}
    {image : Image K} {i : ℕ} {relTime : K} {p : Point K} {call : ℕ × K}
    (h : call ∈ (deskewPoint E deskewFlag scan imu image i relTime p).1.calls) :
    call ∈ image.calls ∨ call = (i, scan.timeScanCur + relTime) := by
  unfold deskewPoint at h
  split at h
  · exact Or.inl h
  · rcases List.mem_append.mp h with hold | hnew
    · exact Or.inl hold
    · exact Or.inr (List.mem_singleton.mp hnew)

variable [FloorRing K]

theorem calls_projectPoint {deskewFlag : ℤ} {scan : Scan K} {imu : List (ImuRotation K)}
    {image : Image K} {p : LaserPoint K} {i : ℕ} {call : ℕ × K}
    (h : call ∈ (projectPoint P E deskewFlag scan imu image (p, i)).calls) :
    call ∈ image.calls ∨ call = (i, scan.timeScanCur + p.time) := by
  unfold projectPoint at h
  dsimp only at h
  split at h
  · exact Or.inl h
  · exact calls_deskewPoint h

/-- A point is looked up at its time after `timeScanCur`. -/
theorem calls_projectPointCloud {deskewFlag : ℤ} {scan : Scan K} {imu : List (ImuRotation K)}
    {call : ℕ × K} (h : call ∈ (projectPointCloud P E deskewFlag scan imu).calls) :
    ∃ p, scan.laserCloudIn[call.1]? = some p ∧ call.2 = scan.timeScanCur + p.time := by
  unfold projectPointCloud at h
  -- the loop, with the invariant that every call so far is one of the kind
  refine List.foldlRecOn (motive := fun image : Image K => ∀ c ∈ image.calls,
    ∃ p, scan.laserCloudIn[c.1]? = some p ∧ c.2 = scan.timeScanCur + p.time)
    scan.laserCloudIn.zipIdx _ ?_ ?_ call h
  · intro c hc
    exact absurd hc List.not_mem_nil
  · intro image ih a ha c hc
    obtain ⟨p, i⟩ := a
    rcases calls_projectPoint hc with hold | hnew
    · exact ih c hold
    · subst hnew
      exact ⟨p, List.mk_mem_zipIdx_iff_getElem?.mp ha, rfl⟩

variable (P E)

/-- What the trace says of an output: a call is for a point of the cloud, at its time after
the start of the scan. -/
def CallAfterStart : Output K → Prop
  | .findRotation cloud i pointTime =>
    ∃ t, (times P E cloud)[i]? = some t ∧ pointTime = (getScan P E cloud).timeScanCur + t
  | .cloudDeskewed _ _ => True

theorem callAfterStart_handleScan (s : State K) (cloud : PointCloud2 K) :
    ∀ o ∈ (handleScan P E s cloud).2, CallAfterStart P E o := by
  intro o ho
  unfold handleScan at ho
  dsimp only at ho
  split at ho
  · exact absurd ho List.not_mem_nil
  · rcases List.mem_append.mp ho with hcall | hlast
    · obtain ⟨⟨i, pointTime⟩, hmem, rfl⟩ := List.mem_map.mp hcall
      obtain ⟨p, hp, htime⟩ := calls_projectPointCloud hmem
      refine ⟨p.time, ?_, htime⟩
      have hpoints : (getScan P E cloud).laserCloudIn = laserCloudIn P E cloud := by
        unfold getScan
        dsimp only
        split <;> rfl
      rw [hpoints] at hp
      rw [times, List.getElem?_map, hp, Option.map_some]
    · obtain rfl := List.mem_singleton.mp hlast
      trivial

theorem callAfterStart_step (s : State K) (e : Event K) :
    ∀ o ∈ (step P E s e).2, CallAfterStart P E o := by
  intro o ho
  cases e with
  | imu msg =>
    have hnil : (step P E s (.imu msg)).2 = [] := by
      rw [step]
      split <;> rfl
    rw [hnil] at ho
    exact absurd ho List.not_mem_nil
  | cloud msg =>
    have hstep : (step P E s (.cloud msg)).2 = [] ∨
        (step P E s (.cloud msg)).2 = (cloudHandler P E s msg).2 := by
      rw [step]
      cases s.ok with
      | true => exact Or.inr rfl
      | false => exact Or.inl rfl
    rcases hstep with hnil | hcloud
    · rw [hnil] at ho
      exact absurd ho List.not_mem_nil
    · rw [hcloud, cloudHandler] at ho
      split at ho
      · exact callAfterStart_handleScan P E _ _ o ho
      · exact absurd ho List.not_mem_nil

variable {P E}

/-- Over a whole run, every point is looked up at its time after `timeScanCur`. -/
theorem findRotation_trace {es : List (Event K)} {cloud : PointCloud2 K} {i : ℕ} {pointTime : K}
    (h : .findRotation cloud i pointTime ∈ (imageProjection P E).trace es) :
    ∃ t, (times P E cloud)[i]? = some t ∧ pointTime = (getScan P E cloud).timeScanCur + t := by
  have hall : ∀ o ∈ (imageProjection P E).trace es, CallAfterStart P E o :=
    Machine.traceFrom_forall _ (I := fun _ => True)
      (fun s e _ _ => ⟨trivial, callAfterStart_step P E s e⟩) trivial
  exact hall _ h

end Calls

/-! ### The start and end of the scan -/

section Conventions

variable {K : Type} [Field K] [LinearOrder K] {P : Params K} {E : Env K}
variable {cloud : PointCloud2 K}

omit [LinearOrder K] in
theorem firstTime_eq {t : K} (h : t ∈ (times P E cloud).head?) :
    firstTime E (laserCloudIn P E cloud) = t := by
  rw [times, List.head?_map] at h
  rw [firstTime, h, Option.getD_some]

omit [LinearOrder K] in
theorem lastTime_eq {t : K} (h : t ∈ (times P E cloud).getLast?) :
    lastTime E (laserCloudIn P E cloud) = t := by
  rw [times, List.getLast?_map] at h
  rw [lastTime, h, Option.getD_some]

theorem timeScanCur_of_lt {t₁ : K} (hhead : t₁ ∈ (times P E cloud).head?)
    (h : t₁ < -(1 / 1000000)) : (getScan P E cloud).timeScanCur = cloud.header.stamp + t₁ := by
  have hfirst := firstTime_eq hhead
  unfold getScan
  dsimp only
  rw [hfirst, if_pos h]

theorem getScan_of_not_lt {t₁ tₙ : K} (hhead : t₁ ∈ (times P E cloud).head?)
    (hlast : tₙ ∈ (times P E cloud).getLast?) (h : ¬ t₁ < -(1 / 1000000)) :
    (getScan P E cloud).timeScanCur = cloud.header.stamp ∧
      (getScan P E cloud).timeScanEnd = cloud.header.stamp + tₙ := by
  have hfirst := firstTime_eq hhead
  have hend := lastTime_eq hlast
  unfold getScan
  dsimp only
  rw [hfirst, if_neg h]
  exact ⟨rfl, by rw [hend]⟩

variable [FloorRing K]

/-- In a cloud whose header marks the end of the scan, the time of the first point is added
twice. -/
theorem pointTime_of_endStamped {es : List (Event K)} {i : ℕ} {pointTime t₁ : K}
    (hcall : .findRotation cloud i pointTime ∈ (imageProjection P E).trace es)
    (hhead : t₁ ∈ (times P E cloud).head?) (h : t₁ < -(1 / 1000000)) :
    ∃ t, (times P E cloud)[i]? = some t ∧ pointTime = cloud.header.stamp + t₁ + t := by
  obtain ⟨t, ht, htime⟩ := findRotation_trace hcall
  refine ⟨t, ht, ?_⟩
  rw [htime, timeScanCur_of_lt hhead h]

variable [IsStrictOrderedRing K] {es : List (Event K)} {i : ℕ} {pointTime : K}

/-- If the instant is right, the time of the first point has not been added to it. -/
theorem front_of_instantRight
    (hcall : .findRotation cloud i pointTime ∈ (imageProjection P E).trace es)
    (hright : InstantRight P E cloud i pointTime) :
    ∀ t₁ ∈ (times P E cloud).head?, -(1 / 1000000) ≤ t₁ := by
  intro t₁ hhead
  by_contra hlt
  have hneg : t₁ < -(1 / 1000000) := not_le.mp hlt
  obtain ⟨t, ht, htwice⟩ := pointTime_of_endStamped hcall hhead hneg
  have heq : cloud.header.stamp + t₁ + t = cloud.header.stamp + t :=
    htwice.symm.trans (hright.1 t ht)
  -- so it would be zero, which is not below the threshold
  have hzero : t₁ = 0 := by linarith
  have hpos : (0 : K) < 1 / 1000000 := by positivity
  rw [hzero] at hneg
  linarith

/-- If the scan is taken to start at the header, the instants are right and within it. -/
theorem instantRight_of_front
    (hcall : .findRotation cloud i pointTime ∈ (imageProjection P E).trace es)
    (hconvention : StartStamped (times P E cloud) ∨ EndStamped (times P E cloud))
    (hfirst : ∀ t₁ ∈ (times P E cloud).head?, -(1 / 1000000) ≤ t₁) :
    InstantRight P E cloud i pointTime := by
  obtain ⟨t, ht, htime⟩ := findRotation_trace hcall
  have hmem : t ∈ times P E cloud := List.mem_of_getElem? ht
  have hne : times P E cloud ≠ [] := List.ne_nil_of_mem hmem
  have hhead := List.head?_eq_some_head hne
  have hlast := List.getLast?_eq_some_getLast hne
  obtain ⟨hcur, hend⟩ := getScan_of_not_lt hhead hlast (not_lt.mpr (hfirst _ hhead))
  refine ⟨?_, ?_⟩
  · intro t' ht'
    obtain rfl : t = t' := Option.some.inj (ht.symm.trans ht')
    rw [htime, hcur]
  · rintro ⟨-, hlargest⟩
    -- the first time rules the other convention out
    have hstart : StartStamped (times P E cloud) := by
      rcases hconvention with hstart | ⟨⟨t₁, hfront, hneg⟩, -⟩
      · exact hstart
      · exact absurd (hfirst t₁ hfront) (not_le.mpr hneg)
    have hnonneg : 0 ≤ t := hstart t hmem
    have hle : t ≤ (times P E cloud).getLast hne := hlargest _ hlast t hmem
    rw [htime, hcur, hend]
    exact ⟨by linarith, by linarith⟩

/-- **When points are deskewed at their own instants.** In any run, a point of a cloud in
either convention is looked up at the right instant if and only if the cloud's first time
is not below the threshold at which the header is taken to mark the end. -/
theorem instants_iff
    (hcall : .findRotation cloud i pointTime ∈ (imageProjection P E).trace es)
    (hconvention : StartStamped (times P E cloud) ∨ EndStamped (times P E cloud)) :
    InstantRight P E cloud i pointTime ↔
      ∀ t₁ ∈ (times P E cloud).head?, -(1 / 1000000) ≤ t₁ :=
  ⟨front_of_instantRight hcall, instantRight_of_front hcall hconvention⟩

end Conventions

/-! ### A cloud in either convention -/

section Runs

/-- The value of a float that has one. -/
def finite : Flt ℚ → ℚ
  | .fin x => x
  | _ => 0

/-- `pcl::moveFromROSMsg` into `VelodynePointXYZIRT`, as PCL does it on finite values. -/
def moveFromROSMsgXyzirt (m : PointCloud2 ℚ) : PclCloud (LaserPoint ℚ) where
  height := m.height
  width := m.width
  isDense := m.isDense
  points := (pointStarts m).map fun a =>
    { x := finite (floatMember m a "x")
      y := finite (floatMember m a "y")
      z := finite (floatMember m a "z")
      intensity := finite (floatMember m a "intensity")
      ring :=
        match memberOffset m "ring" PointField.UINT16 with
        | some offset => uint16At (fun _ => 0) m.data (a + offset)
        | none => 0
      time := finite (floatMember m a "time") }

/-- The surroundings of a vehicle that does not turn, with all points straight ahead. -/
def Env.rat : Env ℚ where
  velodyneCloud := moveFromROSMsgXyzirt
  ousterCloud := fun m => ⟨m.height, m.width, m.isDense, []⟩
  robosenseCloud := fun m => ⟨m.height, m.width, m.isDense, []⟩
  noFrontTime := 0
  noBackTime := 0
  pointDistance := fun p => |p.x|
  horizonAngle := fun _ => 90
  columnIdnCount := fun _ => 0
  rotateToStart := fun _ _ p => p

/-- The parameters of `wtb_mapping_params.yaml`. -/
def Params.wtbMapping : Params ℚ where
  sensor := .velodyne
  nScan := 16
  horizonScan := 1500
  downsampleRate := 1
  lidarMinRange := 3 / 20
  lidarMaxRange := 200
  extRot := 1
  lidarFrame := "base_link"

/-- A cloud stamped 10 s of two points at (1, 0, 0) on the rings 0 and 1, with the bytes of
their times. -/
def twoPoints (time time' : List (BitVec 8)) : PointCloud2 ℚ where
  header := { stamp := 10, frameId := "base_link" }
  height := 1
  width := 2
  fields :=
    [⟨"x", 0, 7, 1⟩, ⟨"y", 4, 7, 1⟩, ⟨"z", 8, 7, 1⟩, ⟨"intensity", 12, 7, 1⟩, ⟨"ring", 16, 4, 1⟩,
      ⟨"time", 20, 7, 1⟩]
  isBigendian := false
  pointStep := 24
  rowStep := 48
  data :=
    [0, 0, 0x80, 0x3f] ++ List.replicate 12 0 ++ [0, 0, 0, 0] ++ time ++
      ([0, 0, 0x80, 0x3f] ++ List.replicate 12 0 ++ [1, 0, 0, 0] ++ time')
  isDense := true

/-- The cloud arrives, and two more after it, while the IMU covers the scan. -/
def runOf (scanStart scanEnd : ℚ) (cloud : PointCloud2 ℚ) : List (Event ℚ) :=
  [.imu ⟨scanStart, 0⟩, .imu ⟨scanEnd, 0⟩, .cloud cloud, .cloud cloud, .cloud cloud]

/-- Measured from 10 s to 10.125 s: the times are 0 and 1/8. -/
def startStamped : PointCloud2 ℚ := twoPoints [0, 0, 0, 0] [0, 0, 0, 0x3e]

/-- Measured from 9.875 s to 10 s: the times are -1/8 and 0. -/
def endStamped : PointCloud2 ℚ := twoPoints [0, 0, 0, 0xbe] [0, 0, 0, 0]

def startStampedRun : List (Event ℚ) := runOf 10 (81 / 8) startStamped

def endStampedRun : List (Event ℚ) := runOf (79 / 8) 10 endStamped

theorem instants_startStamped :
    InstantRight Params.wtbMapping Env.rat startStamped 1 (81 / 8) :=
  (instants_iff
    (show _ ∈ (imageProjection Params.wtbMapping Env.rat).trace startStampedRun by decide +kernel)
    (Or.inl (by unfold StartStamped; decide +kernel))).mpr (by decide +kernel)

/-- Both points are looked up an eighth of a second before they were measured. -/
theorem endStamped_too_early : ¬ InstantsRight Params.wtbMapping Env.rat endStampedRun := by
  intro h
  have hends : EndStamped (times Params.wtbMapping Env.rat endStamped) := by
    unfold EndStamped
    decide +kernel
  have hright := h endStamped 0 (39 / 4) (by decide +kernel) (Or.inr hends)
  unfold InstantRight at hright
  exact absurd hright.1 (by decide +kernel)

end Runs

end Mapping
end WtbAutoware
