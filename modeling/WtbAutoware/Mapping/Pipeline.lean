import WtbAutoware.Mapping.Arrays
import WtbAutoware.Mapping.Deskew
import WtbAutoware.Mapping.Rotation
import WtbAutoware.Mapping.SlotFour

/-!
# From the clouds to the features

The node with its arrays (`stepArrays`) refines the node with its range images
(`imageProjection`). It leaves its arrays exactly if it handles a scan with more IMU readings than
the arrays for the rotations have entries, or looks up the column of a livox point (`Overruns`). In
every other run it publishes the same clouds, so that nothing an earlier scan has left in the
arrays is ever published (`arrays_refine`). Each message it publishes is well formed
(`cloudInfo_wellFormed`): in a ring the columns grow, and the ranges are within the limits.

`FeatureExtraction` relies on both. `pipeline_run` puts the two nodes one behind the other.
-/

namespace WtbAutoware
namespace Mapping

open Buffers Reactive Sensing

section Node

variable {K : Type} [Field K] [LinearOrder K] [FloorRing K] {P : Params K} {E : Env K}

/-! ### One scan -/

/-- The arrays have the sizes that `allocateMemory` gives them. -/
structure Arrays.Sized (P : Params K) (a : Arrays K) : Prop where
  fullCloud : a.fullCloud.size = (P.nScan * P.horizonScan).toNat
  pointColInd : a.cloudInfo.pointColInd.size = (P.nScan * P.horizonScan).toNat
  pointRange : a.cloudInfo.pointRange.size = (P.nScan * P.horizonScan).toNat
  startRingIndex : a.cloudInfo.startRingIndex.length = P.nScan.toNat
  endRingIndex : a.cloudInfo.endRingIndex.length = P.nScan.toNat

/-- What of a message both nodes publish. -/
def ArrayOutput.cells (P : Params K) : ArrayOutput K → Output K
  | .findRotation cloud index pointTime => .findRotation cloud index pointTime
  | .cloudInfo header info => .cloudDeskewed ⟨header.stamp, P.lidarFrame⟩ info.cloudDeskewed

/-- The message comes from a range image. -/
def FromImage (P : Params K) (info : CloudInfo K) : Prop :=
  ∃ image s, Represents P image s ∧ Published P image s info

/-- What is true of the messages of one event or of a run. -/
def AllFromImages (P : Params K) (out : List (ArrayOutput K)) : Prop :=
  ∀ header info, .cloudInfo header info ∈ out → FromImage P info

/-- The scan of a cloud that is handled does not fit the arrays: it has too many IMU readings, or a
column is looked up for one of its points. -/
def ScanOverruns (P : Params K) (E : Env K) (s : State K) (cloud : PointCloud2 K) : Prop :=
  ∃ q ∈ deskewInfo (checkCloud P E s cloud).imuQueue (getScan P E cloud),
    queueLength < q.2.length ∨ ∃ p ∈ (getScan P E cloud).laserCloudIn, LooksUp P E p

/-- The event makes the node handle such a cloud: it is the third cloud in the queue. -/
def Overruns (P : Params K) (E : Env K) (s : State K) : Event K → Prop
  | .imu _ => False
  | .cloud msg => s.ok = true ∧ ∃ current second third rest,
      s.cloudQueue ++ [msg] = current :: second :: third :: rest ∧
        ScanOverruns P E { s with cloudQueue := second :: third :: rest } current

variable {s : State K} {a : Arrays K}

/-- A scan that does not fit the arrays ends the run. -/
theorem handleScanArrays_eq_none {cloud : PointCloud2 K} (h : ScanOverruns P E s cloud) :
    handleScanArrays P E s a cloud = none := by
  obtain ⟨⟨imuQueue, imu⟩, hdeskew, hover⟩ := h
  unfold handleScanArrays
  dsimp only
  rw [Option.mem_def.mp hdeskew]
  dsimp only
  rcases hover with hlong | ⟨p, hp, hlook⟩
  · rw [if_pos hlong]
  · rw [projectArrays_eq_none P E _ _ imu hp hlook]
    exact ite_self none

/-- Any other scan goes well. -/
theorem handleScanArrays_refines (ha : a.Sized P) {cloud : PointCloud2 K}
    (h : ¬ ScanOverruns P E s cloud) :
    ∃ s' a' out, handleScanArrays P E s a cloud = some ((s', a'), out) ∧ a'.Sized P ∧
      (s', out.map (ArrayOutput.cells P)) = handleScan P E s cloud ∧ AllFromImages P out := by
  unfold handleScanArrays handleScan
  dsimp only
  cases hdeskew : deskewInfo (checkCloud P E s cloud).imuQueue (getScan P E cloud) with
  | none => exact ⟨_, a, [], rfl, ha, rfl, fun _ _ h => absurd h List.not_mem_nil⟩
  | some q =>
    obtain ⟨imuQueue, imu⟩ := q
    have hfits : ¬ (queueLength < imu.length ∨
        ∃ p ∈ (getScan P E cloud).laserCloudIn, LooksUp P E p) :=
      fun hover => h ⟨_, hdeskew, hover⟩
    obtain ⟨hlong, hlook⟩ := not_or.mp hfits
    obtain ⟨img, hproject, hrep⟩ := projectArrays_represents P E
      (checkCloud P E s cloud).deskewFlag (getScan P E cloud) imu ha.fullCloud
      fun p hp hl => hlook ⟨p, hp, hl⟩
    obtain ⟨x, hextract, hpub⟩ := extractArrays_published hrep ha.pointColInd ha.pointRange
      ha.startRingIndex ha.endRingIndex
    dsimp only
    rw [if_neg hlong]
    refine ⟨_, ⟨img.fullCloud, x.cloudInfo⟩, _, Option.bind_eq_some_iff.mpr ⟨img, hproject,
      Option.bind_eq_some_iff.mpr ⟨x, hextract, rfl⟩⟩,
      ⟨hrep.size, hpub.colSize, hpub.rangeSize, hpub.starts, hpub.ends⟩, ?_, ?_⟩
    · rw [List.map_append, List.map_map, hrep.calls]
      simp only [List.map_singleton, ArrayOutput.cells, hpub.cloud]
      rfl
    · intro header info hmem
      rcases List.mem_append.mp hmem with hcall | hcloud
      · obtain ⟨c, -, heq⟩ := List.mem_map.mp hcall
        cases heq
      · cases List.mem_singleton.mp hcloud
        exact ⟨_, img, hrep, hpub⟩

theorem stepArrays_eq_none {e : Event K} (h : Overruns P E s e) : stepArrays P E s a e = none := by
  cases e with
  | imu msg => exact h.elim
  | cloud msg =>
    obtain ⟨hok, current, second, third, rest, hqueue, hscan⟩ := h
    unfold stepArrays cloudHandlerArrays
    dsimp only
    rw [if_pos hok, hqueue]
    exact handleScanArrays_eq_none hscan

/-- One event. -/
theorem stepArrays_refines (ha : a.Sized P) {e : Event K} (h : ¬ Overruns P E s e) :
    ∃ s' a' out, stepArrays P E s a e = some ((s', a'), out) ∧ a'.Sized P ∧
      (s', out.map (ArrayOutput.cells P)) = step P E s e ∧ AllFromImages P out := by
  have hnone : AllFromImages P ([] : List (ArrayOutput K)) :=
    fun _ _ h => absurd h List.not_mem_nil
  cases e with
  | imu msg =>
    unfold stepArrays step
    dsimp only
    by_cases hok : s.ok = true
    · rw [if_pos hok, if_pos hok]
      exact ⟨_, a, [], rfl, ha, rfl, hnone⟩
    · rw [if_neg hok, if_neg hok]
      exact ⟨_, a, [], rfl, ha, rfl, hnone⟩
  | cloud msg =>
    unfold stepArrays step
    dsimp only
    by_cases hok : s.ok = true
    · rw [if_pos hok, if_pos hok]
      unfold cloudHandlerArrays cloudHandler
      -- nothing happens before the third cloud
      generalize hqueue : s.cloudQueue ++ [msg] = clouds
      rcases clouds with _ | ⟨current, _ | ⟨second, _ | ⟨third, rest⟩⟩⟩
      · exact ⟨_, a, [], rfl, ha, rfl, hnone⟩
      · exact ⟨_, a, [], rfl, ha, rfl, hnone⟩
      · exact ⟨_, a, [], rfl, ha, rfl, hnone⟩
      · exact handleScanArrays_refines ha fun hscan =>
          h ⟨hok, current, second, third, rest, hqueue, hscan⟩
    · rw [if_neg hok, if_neg hok]
      exact ⟨_, a, [], rfl, ha, rfl, hnone⟩

/-! ### Runs -/

/-- Some event of a run makes the node handle a scan that does not fit its arrays. -/
def RunOverruns (P : Params K) (E : Env K) (s : State K) (es : List (Event K)) : Prop :=
  ∃ pre e post, es = pre ++ e :: post ∧ Overruns P E ((imageProjection P E).runFrom s pre) e

theorem runOverruns_cons {e : Event K} {es : List (Event K)} :
    RunOverruns P E s (e :: es) ↔ Overruns P E s e ∨ RunOverruns P E (step P E s e).1 es := by
  refine ⟨?_, ?_⟩
  · rintro ⟨pre, e', post, heq, hover⟩
    cases pre with
    | nil =>
      cases heq
      exact Or.inl hover
    | cons e'' pre =>
      cases heq
      exact Or.inr ⟨pre, e', post, rfl, hover⟩
  · rintro (hover | ⟨pre, e', post, rfl, hover⟩)
    · exact ⟨[], e, es, rfl, hover⟩
    · exact ⟨e :: pre, e', post, rfl, hover⟩

/-- A run with such an event leaves the arrays. -/
theorem traceArrays_eq_none (ha : a.Sized P) {es : List (Event K)} (h : RunOverruns P E s es) :
    traceArrays P E es s a = none := by
  induction es generalizing s a with
  | nil =>
    obtain ⟨pre, e, post, heq, -⟩ := h
    simp at heq
  | cons e es ih =>
    unfold traceArrays
    by_cases hnow : Overruns P E s e
    · rw [stepArrays_eq_none hnow]
      rfl
    · obtain ⟨s', a', out, hstep, ha', hsame, -⟩ := stepArrays_refines ha hnow
      have hstate : s' = (step P E s e).1 := congrArg Prod.fst hsame
      have hlater := (runOverruns_cons.mp h).resolve_left hnow
      rw [← hstate] at hlater
      rw [hstep, Option.bind_eq_bind, Option.bind_some]
      dsimp only
      rw [ih ha' hlater]
      rfl

/-- From any state: the invariant along the run is that the arrays have their sizes. -/
theorem traceArrays_from (ha : a.Sized P) {es : List (Event K)} (h : ¬ RunOverruns P E s es) :
    ∃ out, traceArrays P E es s a = some out ∧
      out.map (ArrayOutput.cells P) = (imageProjection P E).traceFrom s es ∧
      AllFromImages P out := by
  induction es generalizing s a with
  | nil => exact ⟨[], rfl, rfl, fun _ _ h => absurd h List.not_mem_nil⟩
  | cons e es ih =>
    obtain ⟨hnow, hlater⟩ := not_or.mp (runOverruns_cons.not.mp h)
    obtain ⟨s', a', out, hstep, ha', hsame, himages⟩ := stepArrays_refines ha hnow
    -- the same state and the same messages, so the rest of the run is the same too
    have hstate : s' = (step P E s e).1 := congrArg Prod.fst hsame
    have hout : out.map (ArrayOutput.cells P) = (step P E s e).2 := congrArg Prod.snd hsame
    obtain ⟨rest, hrest, htrace, hall⟩ := ih ha' (hstate ▸ hlater)
    refine ⟨out ++ rest, Option.bind_eq_some_iff.mpr ⟨((s', a'), out), hstep,
      Option.bind_eq_some_iff.mpr ⟨rest, hrest, rfl⟩⟩, ?_, ?_⟩
    · rw [Machine.traceFrom_cons, List.map_append, htrace]
      change _ = (step P E s e).2 ++ (imageProjection P E).traceFrom (step P E s e).1 es
      rw [← hstate, ← hout]
    · intro header info hmem
      rcases List.mem_append.mp hmem with hnow | hlater
      · exact himages header info hnow
      · exact hall header info hlater

omit [LinearOrder K] [FloorRing K] in
theorem sized_initial (point : Point K) : (Arrays.initial P point).Sized P :=
  ⟨rfl, rfl, rfl, List.length_replicate, List.length_replicate⟩

/-- **Refinement.** The node with its arrays leaves them exactly if it handles a scan that does not
fit them. Otherwise it publishes what the node with range images publishes: never a point that an
earlier scan has left behind. -/
theorem arrays_refine (point : Point K) (es : List (Event K)) :
    (traceArrays P E es .initial (Arrays.initial P point) = none ∧
      RunOverruns P E .initial es) ∨
    (∃ out, traceArrays P E es .initial (Arrays.initial P point) = some out ∧
      out.map (ArrayOutput.cells P) = (imageProjection P E).trace es) ∧
      ¬ RunOverruns P E .initial es := by
  by_cases hover : RunOverruns P E .initial es
  · exact Or.inl ⟨traceArrays_eq_none (sized_initial point) hover, hover⟩
  · obtain ⟨out, hrun, htrace, -⟩ := traceArrays_from (sized_initial point) hover
    exact Or.inr ⟨⟨out, hrun, htrace⟩, hover⟩

/-- What a run that is defined has published comes from range images. -/
theorem allFromImages {point : Point K} {es : List (Event K)} {out : List (ArrayOutput K)}
    (hrun : traceArrays P E es .initial (Arrays.initial P point) = some out) :
    AllFromImages P out := by
  have hover : ¬ RunOverruns P E .initial es := fun hover =>
    Option.some_ne_none out (hrun.symm.trans (traceArrays_eq_none (sized_initial point) hover))
  obtain ⟨out', hrun', -, hall⟩ := traceArrays_from (sized_initial point) hover
  obtain rfl : out = out' := Option.some.inj (hrun.symm.trans hrun')
  exact hall

/-! ### Short runs -/

omit [FloorRing K] in
/-- A scan takes no readings that are not in the queue. -/
theorem length_le_of_deskewInfo {imuQueue : List (Imu K)} {scan : Scan K}
    {q : List (Imu K) × List (ImuRotation K)} (h : q ∈ deskewInfo imuQueue scan) :
    q.1.length ≤ imuQueue.length ∧ q.2.length ≤ imuQueue.length := by
  have hlen : ∀ ms : List (Imu K), (imuRotations ms).length = ms.length := fun ms => by
    simpa using congrArg List.length (time_imuRotations ms)
  unfold deskewInfo at h
  split at h
  · split at h
    · cases h
    · cases h
      unfold imuDeskewInfo
      dsimp only
      rw [hlen]
      have hdrop := (List.dropWhile_sublist
        (fun m : Imu K => decide (m.stamp < scan.timeScanCur - 1 / 100))
        (l := imuQueue)).length_le
      exact ⟨hdrop, (List.takeWhile_sublist _).length_le.trans hdrop⟩
  · cases h

theorem length_handleScan (s : State K) (cloud : PointCloud2 K) :
    (handleScan P E s cloud).1.imuQueue.length ≤ s.imuQueue.length := by
  unfold handleScan
  dsimp only
  cases h : deskewInfo (checkCloud P E s cloud).imuQueue (getScan P E cloud) with
  | none => exact le_rfl
  | some q => exact (length_le_of_deskewInfo h).1

theorem length_step (s : State K) (e : Event K) :
    (step P E s e).1.imuQueue.length ≤ s.imuQueue.length + 1 := by
  cases e with
  | imu msg =>
    unfold step
    dsimp only
    split
    · exact (List.length_append).le
    · exact Nat.le_succ _
  | cloud msg =>
    unfold step cloudHandler
    dsimp only
    split
    · split
      · exact (length_handleScan _ _).trans (Nat.le_succ _)
      · exact Nat.le_succ _
    · exact Nat.le_succ _

/-- A run with no more events than the arrays have entries fits them, unless there are columns to
look up. -/
theorem not_runOverruns {es : List (Event K)} (hsensor : P.sensor ≠ .livox)
    (hlen : s.imuQueue.length + es.length ≤ queueLength) : ¬ RunOverruns P E s es := by
  induction es generalizing s with
  | nil =>
    rintro ⟨pre, e, post, heq, -⟩
    simp at heq
  | cons e es ih =>
    rw [List.length_cons] at hlen
    rw [runOverruns_cons, not_or]
    refine ⟨fun hnow => ?_, ih (by have := length_step (P := P) (E := E) s e; omega)⟩
    cases e with
    | imu msg => exact hnow
    | cloud msg =>
      obtain ⟨-, current, second, third, rest, -, q, hq, hlong | ⟨p, -, hlook⟩⟩ := hnow
      · have hle := (length_le_of_deskewInfo hq).2
        change _ ≤ s.imuQueue.length at hle
        omega
      · exact hsensor hlook.1

/-! ### A run to apply the results to -/

/-- A lidar with three rings and four columns. -/
def Params.fourColumns : Params ℚ :=
  { Params.wtbMapping with nScan := 3, horizonScan := 4 }

/-- The surroundings of a vehicle that does not turn, with all points on the axes. -/
def Env.axes : Env ℚ :=
  { Env.rat with
    pointDistance := fun p => |p.x| + |p.y| + |p.z|
    horizonAngle := fun p =>
      if 0 < p.x then 90 else if p.x < 0 then -90 else if p.y < 0 then 180 else 0 }

/-- The bytes of a point, from those of the upper halves of `x` and `y`. -/
def axisPoint (x y : List (BitVec 8)) (ring : BitVec 8) : List (BitVec 8) :=
  [0, 0] ++ x ++ [0, 0] ++ y ++ List.replicate 8 0 ++ [ring, 0, 0, 0] ++ List.replicate 4 0

/-- On each ring one point in each of the four directions, a metre away. -/
def axisCloud : PointCloud2 ℚ :=
  { startStamped with
    width := 12
    rowStep := 288
    data := [0, 1, 2].flatMap fun ring =>
      axisPoint [0x80, 0x3f] [0, 0] ring ++ axisPoint [0x80, 0xbf] [0, 0] ring ++
        axisPoint [0, 0] [0x80, 0x3f] ring ++ axisPoint [0, 0] [0x80, 0xbf] ring }

def axisRun : List (Event ℚ) := runOf 10 (2001 / 200) axisCloud

theorem axisRun_fits : ¬ RunOverruns Params.fourColumns Env.axes .initial axisRun :=
  not_runOverruns (by decide) (by decide)

/-- The cloud with all of its points, if the message is one. -/
def Output.points {K : Type} : Output K → Option (List (Point K))
  | .findRotation _ _ _ => none
  | .cloudDeskewed _ points => some points

theorem axisRun_points :
    ((imageProjection Params.fourColumns Env.axes).trace axisRun).filterMap
      (fun o => o.points.map List.length) = [12] := by
  decide +kernel

/-! ### Messages -/

omit [Field K] [LinearOrder K] [FloorRing K] in
/-- The points of ring `i` are those of the cells of row `i`. -/
theorem cellsBefore_getElem? (P : Params K) (image : Image K) {i m n : ℕ} (him : i < m)
    (hlo : (cellsBefore P image i).length ≤ n) (hhi : n < (cellsBefore P image (i + 1)).length) :
    (cellsBefore P image m)[n]? =
      (rowCells P image i)[n - (cellsBefore P image i).length]? := by
  -- the rows behind row `i` come later
  have hprefix : ∀ k, cellsBefore P image (i + 1) <+: cellsBefore P image (i + 1 + k) := by
    intro k
    induction k with
    | zero => exact List.prefix_refl _
    | succ k ih =>
      refine ih.trans ?_
      rw [← add_assoc, cellsBefore_succ (i + 1 + k)]
      exact List.prefix_append _ _
  have hm := hprefix (m - (i + 1))
  rw [show i + 1 + (m - (i + 1)) = m by omega] at hm
  obtain ⟨rest, hrest⟩ := hm
  rw [← hrest, List.getElem?_append_left hhi, cellsBefore_succ, List.getElem?_append_right hlo]

omit [Field K] [LinearOrder K] [FloorRing K] in
/-- In a row, the columns grow. -/
theorem pairwise_rowCells (image : Image K) (i : ℤ) :
    (rowCells P image i).Pairwise fun c c' => c.2 < c'.2 := by
  unfold rowCells
  refine List.Pairwise.map _ (fun j j' h => h) (List.Pairwise.filter _ ?_)
  exact List.Pairwise.map _ (fun m n h => by omega) List.pairwise_lt_range

omit [Field K] [FloorRing K] in
/-- What a message says about the points of a ring. -/
theorem Published.ring {image : Image K} {img : RangeImage K} {info : CloudInfo K}
    (hrep : Represents P image img) (h : Published P image img info) {i n : ℕ}
    (hi : i < P.nScan.toNat) (hlo : firstOf P image i ≤ n)
    (hhi : (n : ℤ) < firstOf P image (i + 1)) :
    ∃ c, (rowCells P image i)[n - (cellsBefore P image i).length]? = some c ∧
      info.pointColInd.cell n = c.2 ∧
      P.lidarMinRange ≤ info.pointRange.cell n ∧ info.pointRange.cell n ≤ P.lidarMaxRange := by
  have hn : n < (cellsBefore P image P.nScan.toNat).length := by
    have hmono := firstOf_mono P image (show i + 1 ≤ P.nScan.toNat from hi)
    unfold firstOf at hmono hhi
    omega
  unfold firstOf at hlo hhi
  have hcell := cellsBefore_getElem? P image hi (show _ ≤ n by omega) (by omega)
  rw [List.getElem?_eq_getElem hn] at hcell
  obtain ⟨hmin, hmax⟩ := hrep.range _ _ (h.ranges n hn)
  exact ⟨_, hcell.symm, h.columns n hn, hmin, hmax⟩

/-- The rings of a message lie one behind the other, five points are left out at each end of a
ring, its columns grow, and its ranges are within the limits. -/
def WellFormed (P : Params K) (info : CloudInfo K) : Prop :=
  ∃ first : ℕ → ℤ, Rings info P.nScan.toNat first ∧
    ∀ i < P.nScan.toNat, first (i + 1) ≤ first i + P.horizonScan.toNat ∧
      ∀ n : ℕ, first i ≤ n → (n : ℤ) < first (i + 1) →
        (P.lidarMinRange ≤ info.pointRange.cell n ∧
          info.pointRange.cell n ≤ P.lidarMaxRange) ∧
        (0 ≤ info.pointColInd.cell n ∧ info.pointColInd.cell n < P.horizonScan) ∧
        ∀ m : ℕ, n < m → (m : ℤ) < first (i + 1) →
          info.pointColInd.cell n < info.pointColInd.cell m

/-- **Every message is well formed.** -/
theorem cloudInfo_wellFormed {point : Point K} {es : List (Event K)} {out : List (ArrayOutput K)}
    (hrun : traceArrays P E es .initial (Arrays.initial P point) = some out) {header : Header K}
    {info : CloudInfo K} (hmem : .cloudInfo header info ∈ out) : WellFormed P info := by
  obtain ⟨image, img, hrep, h⟩ := allFromImages hrun header info hmem
  refine ⟨firstOf P image, h.rings, fun i hi => ⟨firstOf_succ_le P image i, fun n hlo hhi => ?_⟩⟩
  obtain ⟨c, hc, hcol, hrange⟩ := h.ring hrep hi hlo hhi
  refine ⟨hrange, ?_, fun m hnm hm => ?_⟩
  · have hmem := List.mem_of_getElem? hc
    obtain ⟨j, hj, rfl⟩ := List.mem_map.mp hmem
    obtain ⟨h₁, h₂⟩ := Int.mem_range_iff.mp (List.mem_of_mem_filter hj)
    rw [hcol]
    exact ⟨h₁, h₂⟩
  · obtain ⟨c', hc', hcol', -⟩ := h.ring hrep hi (hlo.trans (by omega)) hm
    rw [hcol, hcol']
    obtain ⟨hn, rfl⟩ := List.getElem?_eq_some_iff.mp hc
    obtain ⟨hm', rfl⟩ := List.getElem?_eq_some_iff.mp hc'
    refine List.pairwise_iff_getElem.mp (pairwise_rowCells image i) _ _ hn hm' ?_
    have hlo' : (cellsBefore P image i).length ≤ n := by
      unfold firstOf at hlo
      omega
    omega

/-- It applies to the message of a run. -/
theorem cloudInfo_wellFormed_axes : ∃ out header info,
    traceArrays Params.fourColumns Env.axes axisRun .initial
      (Arrays.initial Params.fourColumns ⟨0, 0, 0, 0⟩) = some out ∧
    .cloudInfo header info ∈ out ∧ WellFormed Params.fourColumns info := by
  obtain ⟨out, hrun, htrace, -⟩ := traceArrays_from (sized_initial ⟨0, 0, 0, 0⟩) axisRun_fits
  have hlen : 12 ∈ ((imageProjection Params.fourColumns Env.axes).trace axisRun).filterMap
      fun o => o.points.map List.length := by
    rw [axisRun_points]
    exact List.mem_singleton_self 12
  obtain ⟨o, ho, hpoints⟩ := List.mem_filterMap.mp hlen
  have hout : o ∈ out.map (ArrayOutput.cells Params.fourColumns) := by
    rw [htrace]
    exact ho
  obtain ⟨o', ho', rfl⟩ := List.mem_map.mp hout
  cases o' with
  | findRotation cloud index pointTime => cases hpoints
  | cloudInfo header info => exact ⟨out, header, info, hrun, ho', cloudInfo_wellFormed hrun ho'⟩

/-! ### Both nodes -/

/-- The messages on `lio_sam/deskew/cloud_info`. -/
def infos (out : List (ArrayOutput K)) : List (CloudInfo K) :=
  out.filterMap fun
    | .findRotation _ _ _ => none
    | .cloudInfo _ info => some info

/-- Every cloud that is published has as many points as a ring can have. -/
def FullClouds (P : Params K) (E : Env K) (es : List (Event K)) : Prop :=
  ∀ header points, .cloudDeskewed header points ∈ (imageProjection P E).trace es →
    P.horizonScan.toNat ≤ points.length

/-- **Both nodes**, one behind the other. If every scan fits the arrays of `ImageProjection` and has
as many points as a ring can have, and point 0 is marked when `FeatureExtraction` starts, neither
node ever leaves its arrays. -/
theorem pipeline_run {Q : FeatureParams K} {s : Features K} (point : Point K)
    {es : List (Event K)} (hover : ¬ RunOverruns P E .initial es) (hfull : FullClouds P E es)
    (hscan : Q.nScan = P.nScan.toNat) (hsize : 0 < (P.nScan * P.horizonScan).toNat)
    (hs : Settled (P.nScan * P.horizonScan).toNat P.horizonScan.toNat s) :
    ∃ out, traceArrays P E es .initial (Arrays.initial P point) = some out ∧
      ∃ s', handleScans Q (infos out) s = some s' := by
  obtain ⟨out, hrun, htrace, himages⟩ := traceArrays_from (sized_initial point) hover
  refine ⟨out, hrun, ?_⟩
  obtain ⟨s', hall, -⟩ := features_run (P := Q) hsize hs (infos out) fun info hmem => by
    obtain ⟨o, ho, heq⟩ := List.mem_filterMap.mp hmem
    cases o with
    | findRotation cloud index pointTime => cases heq
    | cloudInfo header info' =>
      cases heq
      obtain ⟨image, img, -, h⟩ := himages header info ho
      have hout : ArrayOutput.cells P (.cloudInfo header info) ∈
          (imageProjection P E).traceFrom .initial es := htrace ▸ List.mem_map_of_mem ho
      exact ⟨⟨firstOf P image, hscan ▸ h.rings, firstOf_succ_le P image⟩, h.colSize, h.room,
        Int.ofNat_le.mpr (hfull _ _ hout)⟩
  exact ⟨s', hall⟩

theorem axisRun_full : FullClouds Params.fourColumns Env.axes axisRun := by
  intro header points hmem
  have hlen : points.length ∈ ((imageProjection Params.fourColumns Env.axes).trace
      axisRun).filterMap fun o => o.points.map List.length :=
    List.mem_filterMap.mpr ⟨_, hmem, rfl⟩
  rw [axisRun_points, List.mem_singleton] at hlen
  rw [hlen]
  decide

/-- It applies to a run with a full scan, of 12 points. -/
theorem pipeline_run_axes :
    ∃ out, traceArrays Params.fourColumns Env.axes axisRun .initial
        (Arrays.initial Params.fourColumns ⟨0, 0, 0, 0⟩) = some out ∧
      ∃ s', handleScans { sampleParams with nScan := 3 } (infos out)
        (.initial 12 (fun _ => 0) (fun i => i = 0) fun _ => 0) = some s' :=
  pipeline_run ⟨0, 0, 0, 0⟩ axisRun_fits axisRun_full rfl (by decide)
    ⟨rfl, rfl, rfl, rfl, Or.inl ⟨rfl, rfl⟩⟩

end Node

end Mapping
end WtbAutoware
