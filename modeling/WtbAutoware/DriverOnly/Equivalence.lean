import WtbAutoware.Driver.Bicycle
import WtbAutoware.DriverOnly.Node

/-!
# Two drivers, one odometry

`wtb_car` and `wtb_car_only` decode, calibrate and integrate feedback by two copies of the
same code. The comment on the steering calibration promises the same in both, an offset
taken off and the angle limited; in `wtb_car` the limit is commented out.

`odometry_iff` runs the two side by side on the same frames and clock readings. They
publish the same poses and twists exactly if every frame that is integrated has the same
yaw rate with and without the limit (`SameYawRate`): at rest, or where the limit does not
change the tangent, which it does not up to 30° (`sameYawRate_of_le`). The simulation
relation is `SamePosition`, and the steps go through the lockstep rule. `limit_differs` is
a feedback of 45° at 1 m/s.
-/

namespace WtbAutoware
namespace DriverOnly

open Reactive
open Driver (feedbackAngle feedbackSpeed parseCtrlFb reportedSpeed reportedYawRate updateInterval
  usedInterval)

variable {K : Type} [Field K] [LinearOrder K] [IsStrictOrderedRing K] [FloorRing K]
  (P : Driver.Params K) (Q : Params K) (pf : Platform K) (atan : K → K)

/-- Pose and twist of an odometry message. -/
structure PoseTwist (K : Type) where
  positionX : Flt K
  positionY : Flt K
  orientationZ : Flt K
  orientationW : Flt K
  linearX : Flt K
  linearY : Flt K
  angularZ : Flt K
  deriving DecidableEq

/-- The pose and the twist of a message on `/car_odom`. -/
def poseTwist {K : Type} (o : Odometry K) : PoseTwist K where
  positionX := o.positionX
  positionY := o.positionY
  orientationZ := o.orientationZ
  orientationW := o.orientationW
  linearX := o.linearX
  linearY := o.linearY
  angularZ := o.angularZ

/-- What `wtb_car` publishes on `/car_odom`. -/
def carOdom {K : Type} : Driver.Output K → Option (PoseTwist K)
  | .odom o => some (poseTwist o)
  | _ => none

/-- What `wtb_car_only` publishes there. -/
def carOdomOnly {K : Type} : Output K → Option (PoseTwist K)
  | .odom o => some (poseTwist o)
  | _ => none

/-- The two nodes have the three parameters in common. -/
structure SameParams : Prop where
  wheelbase : Q.wheelbase = P.wheelbase
  velScale : Q.velScale = P.velScale
  steerOffset : Q.steerOffset = P.steerOffset

/-- Feedback frames and the clock readings at which they are handled. -/
abbrev Feed (K : Type) := List (K × Frame K)

/-- The run of `wtb_car` on a feed. -/
def carRun {K : Type} (feed : Feed K) : List (Timed K (Driver.Event K)) :=
  feed.map fun st => ⟨st.1, .canTx st.2⟩

/-- The run of `wtb_car_only` on it. -/
def onlyRun {K : Type} (feed : Feed K) : List (Timed K (Event K)) :=
  feed.map fun st => ⟨st.1, .canTx st.2⟩

/-- The two nodes, constructed at the same time, publish the same poses and twists. -/
def SameOdometry (t₀ : K) (feed : Feed K) : Prop :=
  ((Driver.wtbCarNode P pf t₀).trace (carRun feed)).filterMap carOdom =
    ((wtbCarOnly Q pf atan t₀).trace (onlyRun feed)).filterMap carOdomOnly

/-- The limit on the steering angle does not show in the yaw rate of the frame. -/
def SameYawRate (msg : Frame K) : Prop :=
  reportedSpeed P msg = 0 ∨ |P.wheelbase| ≤ 1 / 1000000 ∨
    pf.tan (feedbackAngle pf msg - P.steerOffset) =
      pf.tan (max (min (feedbackAngle pf msg - P.steerOffset) (maxDelta pf)) (-maxDelta pf))

/-! ### The step of `wtb_car_only` -/

/-- The yaw rate that `wtb_car_only` derives from a feedback frame. -/
def limitedYawRate (msg : Frame K) : K :=
  if 1 / 1000000 < |P.wheelbase| then
    reportedSpeed P msg *
      pf.tan (max (min (feedbackAngle pf msg - P.steerOffset) (maxDelta pf)) (-maxDelta pf)) /
      P.wheelbase
  else 0

omit [FloorRing K] in
theorem yawRate_eq_iff (msg : Frame K) :
    reportedYawRate P pf msg = limitedYawRate P pf msg ↔ SameYawRate P pf msg := by
  unfold reportedYawRate Driver.yawRate limitedYawRate SameYawRate
  by_cases hbase : 1 / 1000000 < |P.wheelbase|
  · have hne : P.wheelbase ≠ 0 := by
      intro hzero
      rw [hzero, abs_zero] at hbase
      exact absurd hbase (not_lt.mpr (by positivity))
    -- the wheelbase cancels, and the speed does unless it is zero
    rw [if_pos hbase, if_pos hbase, div_left_inj' hne, mul_eq_mul_left_iff]
    refine ⟨?_, ?_⟩
    · rintro (htan | hzero)
      · exact Or.inr (Or.inr htan)
      · exact Or.inl hzero
    · rintro (hzero | hle | htan)
      · exact Or.inr hzero
      · exact absurd hbase (not_lt.mpr hle)
      · exact Or.inl htan
  · -- without a wheelbase neither turns
    rw [if_neg hbase, if_neg hbase]
    exact iff_of_true rfl (Or.inr (Or.inl (not_lt.mp hbase)))

omit [FloorRing K] in
/-- Up to 30°, the limit changes nothing. -/
theorem sameYawRate_of_le {msg : Frame K}
    (h : |feedbackAngle pf msg - P.steerOffset| ≤ maxDelta pf) : SameYawRate P pf msg := by
  obtain ⟨hlo, hhi⟩ := abs_le.mp h
  refine Or.inr (Or.inr ?_)
  rw [min_eq_left hhi, max_eq_left hlo]

/-- The same feedback frame at the same clock reading. -/
def SameFrame {K : Type} (e : Timed K (Driver.Event K)) (e' : Timed K (Event K)) : Prop :=
  e'.time = e.time ∧ ∃ msg, e.ev = .canTx msg ∧ e'.ev = .canTx msg

/-- The condition on one frame: the limit does not show, if the frame is integrated. -/
def LimitUnseen (s : Driver.State K) (e : Timed K (Driver.Event K)) : Prop :=
  ∀ msg, e.ev = .canTx msg → usedInterval s e ≠ none → SameYawRate P pf msg

/-- The same position, heading and time of the last update. -/
structure SamePosition (s : Driver.State K) (s' : State K) : Prop where
  x : s'.x = s.x
  y : s'.y = s.y
  theta : s'.theta = s.theta
  lastTime : s'.lastTime = s.lastTime

variable {P Q} {s : Driver.State K} {s' : State K}

/-- Where `wtb_car_only` does not update its odometry, nothing moves. -/
theorem canTx_skips (hI : SamePosition s s') {now : K} {msg : Frame K}
    (h : usedInterval s ⟨now, .canTx msg⟩ = none) :
    SamePosition s (canTxCallback Q pf now s' msg).1 ∧
      odometryOut (canTxCallback Q pf now s' msg).2 = [] := by
  unfold canTxCallback
  by_cases hid : msg.id = 0x18C4D2EF
  · -- feedback, but the clock has not moved on
    have hnone : updateInterval now s = none := (if_pos hid).symm.trans h
    have hdt : now - s'.lastTime ≤ 0 := by
      rw [hI.lastTime]
      exact sub_nonpos.mpr ((Driver.updateInterval_eq_none_iff now s).mp hnone)
    rw [if_pos hid]
    dsimp only
    rw [calculateAndPublished_skip]
    · exact ⟨⟨hI.x, hI.y, hI.theta, hI.lastTime⟩, rfl⟩
    · exact hdt
  · rw [if_neg hid]
    exact ⟨hI, rfl⟩

/-- Where it does, the pose moves from the common position at the common speed, and turns
at the limited yaw rate. -/
theorem canTx_moves (hparams : SameParams P Q) (hI : SamePosition s s') {now dt : K}
    {msg : Frame K} (h : usedInterval s ⟨now, .canTx msg⟩ = some dt) :
    let v := reportedSpeed P msg
    let omega := limitedYawRate P pf msg
    let next := (canTxCallback Q pf now s' msg).1
    next.x = s.x + v * pf.cos s.theta * dt ∧ next.y = s.y + v * pf.sin s.theta * dt ∧
      next.theta = Driver.normalizeAngle pf (s.theta + omega * dt) ∧ next.lastTime = now ∧
      odometryOut (canTxCallback Q pf now s' msg).2 =
        [publishOdom Q pf now next.x next.y next.theta v omega] := by
  by_cases hid : msg.id = 0x18C4D2EF
  · have hdt : updateInterval now s = some dt := (if_pos hid).symm.trans h
    have hpos : 0 < now - s.lastTime := by
      have hbounds := Driver.updateInterval_bounds hdt
      linarith
    have hlen : min (now - s.lastTime) (1 / 10) = dt :=
      Option.some.inj ((Driver.updateInterval_of_pos now s hpos).symm.trans hdt)
    have hpos' : 0 < now - s'.lastTime := by
      rw [hI.lastTime]
      exact hpos
    unfold canTxCallback
    rw [if_pos hid]
    dsimp only
    -- the members that the frame has just overwritten do not belong to the pose
    rw [calculateAndPublished_eq]
    · dsimp only
      rw [hI.lastTime, hlen, hI.x, hI.y, hI.theta]
      -- the two copies agree in all but the limit
      unfold odomOmega odomSpeed limitedYawRate correctedAngle
      rw [hparams.wheelbase, hparams.velScale, hparams.steerOffset]
      exact ⟨rfl, rfl, rfl, rfl, rfl⟩
    · exact hpos'
  · exact absurd ((if_neg hid).symm.trans h) (by simp)

/-! ### The two drivers in lockstep -/

theorem filterMap_carOdom {K : Type} (os : List (Driver.Output K)) :
    os.filterMap carOdom = (Driver.odometryOut os).map poseTwist := by
  unfold Driver.odometryOut
  rw [List.map_filterMap]
  congr 1
  funext o
  cases o with
  | odom o => rfl
  | can f => rfl
  | carMsg m => rfl

theorem filterMap_carOdomOnly {K : Type} (os : List (Output K)) :
    os.filterMap carOdomOnly = (odometryOut os).map poseTwist := by
  unfold odometryOut
  rw [List.map_filterMap]
  congr 1
  funext o
  cases o with
  | odom o => rfl
  | can f => rfl

omit [IsStrictOrderedRing K] [FloorRing K] in
/-- The condition on the event is one on its frame. -/
theorem limitUnseen_canTx_iff (now : K) (msg : Frame K) :
    LimitUnseen P pf s ⟨now, .canTx msg⟩ ↔
      (usedInterval s ⟨now, .canTx msg⟩ ≠ none → SameYawRate P pf msg) := by
  refine ⟨fun h => h msg rfl, ?_⟩
  rintro h _ ⟨⟩
  exact h

/-- Where one of the two does not integrate, the other does not either, and both are silent. -/
theorem canTx_both_skip (hI : SamePosition s s') {now : K} {msg : Frame K}
    (h : usedInterval s ⟨now, .canTx msg⟩ = none) :
    Driver.odometryOut (Driver.canTxCallback P pf now s msg).2 = [] ∧
      odometryOut (canTxCallback Q pf now s' msg).2 = [] ∧
      SamePosition (Driver.canTxCallback P pf now s msg).1 (canTxCallback Q pf now s' msg).1 := by
  obtain ⟨hsame', hout'⟩ := canTx_skips (Q := Q) pf hI h
  rcases Driver.canTx_odometry P pf now s msg with ⟨dt, hdt, -⟩ | ⟨-, hsame, hout⟩
  · exact absurd (h.symm.trans hdt) (by simp)
  · exact ⟨hout, hout',
      ⟨hsame'.x.trans hsame.x.symm, hsame'.y.trans hsame.y.symm,
        hsame'.theta.trans hsame.theta.symm, hsame'.lastTime.trans hsame.lastTime.symm⟩⟩

/-- **One frame in both drivers.** From the same position both publish once or neither
does, the same exactly if the limit does not show; the positions then agree again. -/
theorem lockstep (hparams : SameParams P Q) (t₀ : K) (hI : SamePosition s s')
    {e : Timed K (Driver.Event K)} {e' : Timed K (Event K)} (he : SameFrame e e') :
    (((Driver.wtbCarNode P pf t₀).out s e).filterMap carOdom).length =
        (((wtbCarOnly Q pf atan t₀).out s' e').filterMap carOdomOnly).length ∧
      (((Driver.wtbCarNode P pf t₀).out s e).filterMap carOdom =
        ((wtbCarOnly Q pf atan t₀).out s' e').filterMap carOdomOnly ↔
          LimitUnseen P pf s e) ∧
      (LimitUnseen P pf s e →
        SamePosition ((Driver.wtbCarNode P pf t₀).next s e)
          ((wtbCarOnly Q pf atan t₀).next s' e')) := by
  obtain ⟨now, ev⟩ := e
  obtain ⟨now', ev'⟩ := e'
  obtain ⟨htime, msg, hev, hev'⟩ := he
  obtain rfl : now' = now := htime
  obtain rfl : ev = .canTx msg := hev
  obtain rfl : ev' = .canTx msg := hev'
  rw [filterMap_carOdom, filterMap_carOdomOnly]
  change ((Driver.odometryOut (Driver.canTxCallback P pf now' s msg).2).map poseTwist).length =
      ((odometryOut (canTxCallback Q pf now' s' msg).2).map poseTwist).length ∧
    ((Driver.odometryOut (Driver.canTxCallback P pf now' s msg).2).map poseTwist =
      (odometryOut (canTxCallback Q pf now' s' msg).2).map poseTwist ↔ _) ∧
    (_ → SamePosition (Driver.canTxCallback P pf now' s msg).1 (canTxCallback Q pf now' s' msg).1)
  rw [limitUnseen_canTx_iff]
  cases hused : usedInterval s ⟨now', .canTx msg⟩ with
  | none =>
    -- neither integrates, and neither publishes
    obtain ⟨hout, hout', hsame⟩ := canTx_both_skip (P := P) (Q := Q) pf hI hused
    rw [hout, hout']
    exact ⟨rfl, iff_of_true rfl (fun h => absurd rfl h), fun _ => hsame⟩
  | some dt =>
    have hid : msg.id = 0x18C4D2EF := by
      by_contra hne
      exact absurd ((if_neg hne).symm.trans hused) (by simp)
    obtain ⟨hx, hy, htheta, htime, hout⟩ :=
      Driver.canTx_bicycle P pf now' s hid ((if_pos hid).symm.trans hused)
    obtain ⟨hx', hy', htheta', htime', hout'⟩ := canTx_moves pf hparams hI hused
    have himp : (some dt ≠ none → SameYawRate P pf msg) ↔
        reportedYawRate P pf msg = limitedYawRate P pf msg := by
      rw [yawRate_eq_iff]
      exact ⟨fun h => h (by simp), fun h _ => h⟩
    rw [himp, hout, hout']
    refine ⟨rfl, ⟨?_, ?_⟩, ?_⟩
    · intro hmsg
      -- the twist shows the yaw rate
      have htwist := congrArg PoseTwist.angularZ (List.singleton_inj.mp hmsg)
      exact Flt.fin.inj htwist
    · intro homega
      rw [hx, hy, htheta, hx', hy', htheta', homega]
      rfl
    · intro homega
      exact ⟨hx'.trans hx.symm, hy'.trans hy.symm,
        by rw [htheta', htheta, homega], htime'.trans htime.symm⟩

variable (P Q)

/-- Both runs are the same exactly if the limit is unseen in every frame. -/
theorem sameOdometry_iff_unseen (hparams : SameParams P Q) (t₀ : K) (feed : Feed K) :
    SameOdometry P Q pf atan t₀ feed ↔
      ∀ i e e', (carRun feed)[i]? = some e → (onlyRun feed)[i]? = some e' →
        LimitUnseen P pf ((Driver.wtbCarNode P pf t₀).run ((carRun feed).take i)) e := by
  have hframes : List.Forall₂ SameFrame (carRun feed) (onlyRun feed) := by
    unfold carRun onlyRun
    rw [List.forall₂_map_left_iff, List.forall₂_map_right_iff, List.forall₂_same]
    intro st _
    exact ⟨rfl, st.2, rfl, rfl⟩
  exact Machine.traceFrom_eq_iff (Driver.wtbCarNode P pf t₀) (wtbCarOnly Q pf atan t₀)
    (I := SamePosition) (R := SameFrame) (C := fun s e _ => LimitUnseen P pf s e)
    (fun _ _ _ _ hI he => lockstep pf atan hparams t₀ hI he) ⟨rfl, rfl, rfl, rfl⟩ hframes

/-- **The two drivers, over every feed.** With the parameters in common and from the same
construction time, the poses and twists published are the same if and only if the limit
on the steering angle changes no yaw rate of a frame that is integrated. -/
theorem odometry_iff (hparams : SameParams P Q) (t₀ : K) (feed : Feed K) :
    SameOdometry P Q pf atan t₀ feed ↔
      Each (fun pre st =>
        usedInterval ((Driver.wtbCarNode P pf t₀).run (carRun pre)) ⟨st.1, .canTx st.2⟩ ≠ none →
          SameYawRate P pf st.2) feed := by
  rw [sameOdometry_iff_unseen P Q pf atan hparams, each_iff_getElem]
  -- the run on a prefix of the feed is the prefix of the run
  refine ⟨?_, ?_⟩
  · intro hall i hi hused
    have htake : (carRun feed).take i = carRun (feed.take i) := (List.map_take ..).symm
    have hunseen := hall i ⟨feed[i].1, .canTx feed[i].2⟩ ⟨feed[i].1, .canTx feed[i].2⟩
      (by simp [carRun, hi]) (by simp [onlyRun, hi])
    rw [htake] at hunseen
    exact hunseen _ rfl hused
  · intro hall i e e' he _ msg hmsg hused
    have htake : (carRun feed).take i = carRun (feed.take i) := (List.map_take ..).symm
    obtain ⟨st, hst, rfl⟩ : ∃ st, feed[i]? = some st ∧ ⟨st.1, .canTx st.2⟩ = e := by
      simpa [carRun] using he
    obtain ⟨hi, rfl⟩ := List.getElem?_eq_some_iff.mp hst
    obtain rfl : feed[i].2 = msg := by simpa using hmsg
    rw [htake] at hused
    exact hall i hi hused

/-! ### Two angles -/

section Angles

/-- A feedback frame in gear D, at 1 m/s and a steering angle in hundredths of a degree. -/
def turnFrame (angle : BitVec 32) : Frame ℝ where
  header := ⟨0, ""⟩
  id := 0x18C4D2EF
  isRtr := false
  isExtended := true
  isError := false
  dlc := 8
  data := Driver.ctrlBytes (Driver.gearMapping .D) 1000 angle 0

theorem sameParams_default :
    SameParams (Driver.Params.default : Driver.Params ℝ) Params.default :=
  ⟨rfl, rfl, rfl⟩

theorem reportedSpeed_turnFrame (angle : BitVec 32) :
    reportedSpeed Driver.Params.default (turnFrame angle) = 1 := by
  have hfb : (parseCtrlFb (turnFrame angle).data : Driver.Gear × ℝ × ℝ).1 = .D ∧
      (parseCtrlFb (turnFrame angle).data : Driver.Gear × ℝ × ℝ).2.1 = 1 := by
    rw [turnFrame, Driver.parseCtrlFb_ctrlBytes (show Driver.Gear.D.Known from trivial)]
    have hraw : (1000 : BitVec 32).toNat % 65536 = 1000 := rfl
    refine ⟨rfl, ?_⟩
    rw [hraw]
    norm_num
  have hspeed : feedbackSpeed (parseCtrlFb (turnFrame angle).data : Driver.Gear × ℝ × ℝ) = 1 := by
    unfold feedbackSpeed
    rw [hfb.1, hfb.2]
    exact if_neg (by decide)
  unfold reportedSpeed
  rw [hspeed]
  norm_num [Driver.Params.default]

theorem feedbackAngle_turnFrame {angle : BitVec 32} {A : ℤ}
    (h : (Driver.signed16 (Driver.angleRaw
      (Driver.ctrlBytes (Driver.gearMapping .D) 1000 angle 0))).toInt = A) :
    feedbackAngle Platform.x86 (turnFrame angle) - Driver.Params.default.steerOffset =
      A / 18000 * Platform.x86.pi := by
  unfold feedbackAngle turnFrame parseCtrlFb
  dsimp only
  rw [h]
  change (A : ℝ) * (1 / 100) * Platform.x86.pi / 180 - 0 = A / 18000 * Platform.x86.pi
  ring

/-- At 1 m/s and 45°, `wtb_car` publishes a higher yaw rate than `wtb_car_only`. -/
theorem limit_differs :
    ¬ SameOdometry Driver.Params.default Params.default Platform.x86 Real.arctan 0
      [(1 / 20, turnFrame 4500)] := by
  rw [sameOdometry_iff_unseen _ _ _ _ sameParams_default]
  intro hall
  have hused : usedInterval (Driver.State.initial (0 : ℝ)) ⟨1 / 20, .canTx (turnFrame 4500)⟩ =
      some (min (1 / 20 - 0) (1 / 10)) :=
    Driver.updateInterval_of_pos (1 / 20) (Driver.State.initial 0)
      (by norm_num [Driver.State.initial])
  have hsame : SameYawRate Driver.Params.default Platform.x86 (turnFrame 4500) :=
    hall 0 _ ⟨1 / 20, .canTx (turnFrame 4500)⟩ rfl rfl _ rfl
      (fun hnone => absurd (hused.symm.trans hnone) (by simp))
  have hpi := Platform.x86.pi_pos
  have hangle : feedbackAngle Platform.x86 (turnFrame 4500) -
      Driver.Params.default.steerOffset = Platform.x86.pi / 4 := by
    rw [feedbackAngle_turnFrame (A := 4500) (by decide)]
    push_cast
    ring
  have hlimit : maxDelta Platform.x86 < Platform.x86.pi / 4 := by
    unfold maxDelta
    linarith
  have htan : Real.tan (maxDelta Platform.x86) < Real.tan (Platform.x86.pi / 4) := by
    have hbelow : Platform.x86.pi / 4 < Real.pi / 2 := by
      have hlow := Real.pi_gt_three
      change (884279719003555 / 281474976710656 : ℝ) / 4 < Real.pi / 2
      linarith
    have hdelta : 0 < maxDelta Platform.x86 := by
      unfold maxDelta
      positivity
    exact Real.tan_lt_tan_of_lt_of_lt_pi_div_two (by linarith [Real.pi_pos]) hbelow hlimit
  rcases hsame with hrest | hbase | heq
  · rw [reportedSpeed_turnFrame] at hrest
    exact absurd hrest one_ne_zero
  · norm_num [Driver.Params.default] at hbase
  · rw [hangle, min_eq_right hlimit.le, max_eq_left (by unfold maxDelta; linarith)] at heq
    exact absurd heq htan.ne'

/-- `odometry_iff` at 20°, within the limit. -/
theorem odometry_iff_slight :
    SameOdometry Driver.Params.default Params.default Platform.x86 Real.arctan 0
      [(1 / 20, turnFrame 2000), (1 / 10, turnFrame 2000)] := by
  have hslight : SameYawRate Driver.Params.default Platform.x86 (turnFrame 2000) := by
    apply sameYawRate_of_le
    have hpi := Platform.x86.pi_pos
    rw [feedbackAngle_turnFrame (A := 2000) (by decide), abs_of_pos (by positivity)]
    unfold maxDelta
    push_cast
    linarith
  refine (odometry_iff Driver.Params.default Params.default Platform.x86 Real.arctan
    sameParams_default 0 _).mpr ?_
  intro pre st post hfeed _
  have hst : st ∈ [((1 : ℝ) / 20, turnFrame 2000), ((1 : ℝ) / 10, turnFrame 2000)] := by
    rw [hfeed]
    simp
  have hframe : st.2 = turnFrame 2000 := by
    simp only [List.mem_cons, List.not_mem_nil, or_false] at hst
    rcases hst with rfl | rfl
    · rfl
    · rfl
  rw [hframe]
  exact hslight

end Angles

end DriverOnly
end WtbAutoware
