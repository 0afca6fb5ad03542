import WtbAutoware.Driver.Node

/-!
# Odometry and elapsed time

`CalculateAndPublished` integrates the reported speed over the time since the
last update. The clock it reads may stand still or go back; such a reading is
skipped, and leaves the time of the last update where it was. A reading far ahead
moves that time by more than the interval that is integrated, which is capped.
Either way an update never integrates more time than `last_time_` gains, whatever
the clock does:

* `UpdateOf` says what one update does to the pose over an interval, and
  `canTx_odometry` that a callback is such an update over its `usedInterval`, or
  skips;
* `usedInterval_add_le` and `stepLength_add_le` compare one callback with the
  growth of `last_time_`;
* `odometry_bounded` adds the steps of a run up.

The length of a step is Euclidean, so the law is stated over `ℝ`, with the real
sine and cosine (`Platform.real`).
-/

namespace WtbAutoware
namespace Driver

open Reactive

section Update

variable {K : Type} [Field K] [LinearOrder K] [IsStrictOrderedRing K] [FloorRing K]
  (P : Params K) (pf : Platform K)

/-- The interval that `CalculateAndPublished` integrates over at time `now`, if it
integrates at all. -/
def updateInterval (now : K) (s : State K) : Option K :=
  let dt := now - s.lastTime
  if dt ≤ 0 then none else some (if 1 / 10 < dt then 1 / 10 else dt)

/-- The interval that a callback integrates over. Feedback frames alone update the
odometry. -/
def usedInterval (s : State K) (e : Timed K (Event K)) : Option K :=
  match e.ev with
  | .canTx msg => if msg.id = 0x18C4D2EF then updateInterval e.time s else none
  | _ => none

/-- From `s` to `s'` the pose moves for the interval `dt` at the speed `v`, along the
old heading, and the update counts as done at `now`. -/
structure UpdateOf (now v dt : K) (s s' : State K) : Prop where
  x : s'.x = s.x + v * pf.cos s.theta * dt
  y : s'.y = s.y + v * pf.sin s.theta * dt
  lastTime : s'.lastTime = now

/-- The pose and the time of the last update are untouched. -/
structure SamePose (s s' : State K) : Prop where
  x : s'.x = s.x
  y : s'.y = s.y
  theta : s'.theta = s.theta
  lastTime : s'.lastTime = s.lastTime

/-- The odometry among the published messages. -/
def odometryOut {K : Type} (os : List (Output K)) : List (Odometry K) :=
  os.filterMap fun
    | .odom o => some o
    | _ => none

/-! ### One callback -/

section Step

variable (now : K) (s : State K)

omit [FloorRing K] in
theorem updateInterval_eq_none_iff : updateInterval now s = none ↔ now ≤ s.lastTime := by
  unfold updateInterval
  dsimp only
  split
  · next h => exact ⟨fun _ => sub_nonpos.mp h, fun _ => rfl⟩
  · next h => exact ⟨fun hnone => absurd hnone (by simp), fun hle => absurd (sub_nonpos.mpr hle) h⟩

variable {now s}

omit [FloorRing K] in
theorem updateInterval_bounds {dt : K} (h : updateInterval now s = some dt) :
    0 < dt ∧ dt ≤ 1 / 10 ∧ dt + s.lastTime ≤ now := by
  unfold updateInterval at h
  dsimp only at h
  split at h
  · exact absurd h (by simp)
  · next hpos =>
    obtain rfl := Option.some.inj h
    have hdt : 0 < now - s.lastTime := not_le.mp hpos
    split
    · -- capped: a tenth, out of an interval that is longer
      next hcap =>
      refine ⟨by positivity, le_rfl, ?_⟩
      linarith
    · next hcap => exact ⟨hdt, not_lt.mp hcap, by linarith⟩

omit [FloorRing K] in
/-- An interval that is used is positive, at most a tenth of a second, and at most
what has passed since the last update. -/
theorem usedInterval_bounds {e : Timed K (Event K)} {dt : K} (h : usedInterval s e = some dt) :
    0 < dt ∧ dt ≤ 1 / 10 ∧ dt + s.lastTime ≤ e.time := by
  obtain ⟨now, ev⟩ := e
  cases ev with
  | canTx msg =>
    change (if msg.id = 0x18C4D2EF then updateInterval now s else none) = some dt at h
    split at h
    · exact updateInterval_bounds h
    · exact absurd h (by simp)
  | cmdVel twistAux => exact absurd h (by simp [usedInterval])
  | twistCmd twistAux => exact absurd h (by simp [usedInterval])
  | runStatic data => exact absurd h (by simp [usedInterval])

variable (now s)

theorem calculateAndPublished_none (h : updateInterval now s = none) :
    calculateAndPublished P pf now s = (s, []) := by
  have hdt : now - s.lastTime ≤ 0 :=
    sub_nonpos.mpr ((updateInterval_eq_none_iff now s).mp h)
  unfold calculateAndPublished
  exact if_pos hdt

/-- **One update, written out**, over the interval that it uses. -/
theorem calculateAndPublished_eq {dt : K} (h : updateInterval now s = some dt) :
    calculateAndPublished P pf now s =
      let v := odomSpeed P s
      let omega := odomOmega P pf s
      let x := s.x + v * pf.cos s.theta * dt
      let y := s.y + v * pf.sin s.theta * dt
      let theta := normalizeAngle pf (s.theta + omega * dt)
      ({ s with x := x, y := y, theta := theta, lastTime := now },
        [.odom (publishOdom P pf now x y theta v omega)]) := by
  unfold updateInterval at h
  dsimp only at h
  split at h
  · exact absurd h (by simp)
  · next hpos =>
    obtain rfl := Option.some.inj h
    unfold calculateAndPublished
    exact if_neg hpos

theorem calculateAndPublished_some {dt : K} (h : updateInterval now s = some dt) :
    UpdateOf pf now (odomSpeed P s) dt s (calculateAndPublished P pf now s).1 := by
  rw [calculateAndPublished_eq P pf now s h]
  exact ⟨rfl, rfl, rfl⟩

/-- The speed that a feedback frame reports, calibrated, and 0 in the dead band. -/
def reportedSpeed (msg : Frame K) : K :=
  let linearVelocity := feedbackSpeed (parseCtrlFb msg.data) * P.velScale
  if |linearVelocity| < 5 / 1000 then 0 else linearVelocity

/-- A feedback frame is stored, and what moves the pose is the update behind that. -/
theorem canTx_feedback {msg : Frame K} (hid : msg.id = 0x18C4D2EF) :
    SamePose (calculateAndPublished P pf now (withFeedback pf s msg)).1
        (canTxCallback P pf now s msg).1 ∧
      odometryOut (canTxCallback P pf now s msg).2 =
        odometryOut (calculateAndPublished P pf now (withFeedback pf s msg)).2 := by
  unfold canTxCallback
  rw [if_pos hid]
  refine ⟨⟨rfl, rfl, rfl, rfl⟩, ?_⟩
  -- the `CarMsg` behind it is no odometry
  exact List.filterMap_append.trans (List.append_nil _)

/-- **What a CAN frame does to the pose.** Over the interval that is used the pose
moves at the speed of this very frame; without one nothing moves, and no odometry
is published. -/
theorem canTx_odometry (msg : Frame K) :
    (∃ dt, usedInterval s ⟨now, .canTx msg⟩ = some dt ∧
      UpdateOf pf now (reportedSpeed P msg) dt s (canTxCallback P pf now s msg).1) ∨
    (usedInterval s ⟨now, .canTx msg⟩ = none ∧
      SamePose s (canTxCallback P pf now s msg).1 ∧
      odometryOut (canTxCallback P pf now s msg).2 = []) := by
  unfold usedInterval
  dsimp only
  by_cases hid : msg.id = 0x18C4D2EF
  · rw [if_pos hid]
    obtain ⟨hpose, hout⟩ := canTx_feedback P pf now s hid
    -- the members that the frame has just overwritten do not belong to the pose
    have hsame : updateInterval now s = updateInterval now (withFeedback pf s msg) := rfl
    cases hdt : updateInterval now s with
    | none =>
      rw [calculateAndPublished_none P pf now (withFeedback pf s msg) (hsame ▸ hdt)] at hpose hout
      exact Or.inr ⟨rfl, ⟨hpose.x, hpose.y, hpose.theta, hpose.lastTime⟩, hout⟩
    | some dt =>
      obtain ⟨hx, hy, htime⟩ :=
        calculateAndPublished_some P pf now (withFeedback pf s msg) (hsame ▸ hdt)
      exact Or.inl ⟨dt, rfl, ⟨hpose.x.trans hx, hpose.y.trans hy, hpose.lastTime.trans htime⟩⟩
  · unfold canTxCallback
    rw [if_neg hid, if_neg hid]
    -- the battery frame, or one that the node ignores
    split
    · exact Or.inr ⟨rfl, ⟨rfl, rfl, rfl, rfl⟩, rfl⟩
    · exact Or.inr ⟨rfl, ⟨rfl, rfl, rfl, rfl⟩, rfl⟩

/-- The other callbacks leave the pose alone. -/
theorem samePose_step {e : Timed K (Event K)} (h : ∀ msg, e.ev ≠ .canTx msg) :
    SamePose s (step P pf s e).1 ∧ odometryOut (step P pf s e).2 = [] := by
  obtain ⟨now, ev⟩ := e
  cases ev with
  | cmdVel twistAux =>
    change SamePose s (cmdVelCallback P pf now s twistAux).1 ∧
      odometryOut (cmdVelCallback P pf now s twistAux).2 = []
    rw [cmdVelCallback_eq]
    split
    · exact ⟨⟨rfl, rfl, rfl, rfl⟩, rfl⟩
    · exact ⟨⟨rfl, rfl, rfl, rfl⟩, rfl⟩
  | twistCmd twistAux => exact ⟨⟨rfl, rfl, rfl, rfl⟩, rfl⟩
  | runStatic data =>
    change SamePose s (runStaticCallback pf now s data).1 ∧
      odometryOut (runStaticCallback pf now s data).2 = []
    rcases runStaticCallback_cases pf now s data with ⟨-, heq⟩ | ⟨-, hcase⟩
    · rw [heq]
      exact ⟨⟨rfl, rfl, rfl, rfl⟩, rfl⟩
    · rcases hcase with ⟨-, heq⟩ | ⟨-, -, heq⟩ | ⟨-, -, heq⟩ | ⟨-, -, heq⟩ <;>
        rw [heq] <;> exact ⟨⟨rfl, rfl, rfl, rfl⟩, rfl⟩
  | canTx msg => exact absurd rfl (h msg)

/-- **One callback.** Either it uses an interval, and the pose moves at a speed that
some feedback frame reports, or it leaves the pose alone and publishes no
odometry. -/
theorem step_odometry (e : Timed K (Event K)) :
    (∃ dt msg, usedInterval s e = some dt ∧
      UpdateOf pf e.time (reportedSpeed P msg) dt s (step P pf s e).1) ∨
    (usedInterval s e = none ∧ SamePose s (step P pf s e).1 ∧
      odometryOut (step P pf s e).2 = []) := by
  obtain ⟨now, ev⟩ := e
  cases ev with
  | canTx msg =>
    rcases canTx_odometry P pf now s msg with ⟨dt, hupdate⟩ | hskip
    · exact Or.inl ⟨dt, msg, hupdate⟩
    · exact Or.inr hskip
  | cmdVel twistAux => exact Or.inr ⟨rfl, samePose_step P pf s (by simp)⟩
  | twistCmd twistAux => exact Or.inr ⟨rfl, samePose_step P pf s (by simp)⟩
  | runStatic data => exact Or.inr ⟨rfl, samePose_step P pf s (by simp)⟩

end Step

/-! ### How fast the pose moves -/

theorem abs_feedbackSpeed_le (data : Vector (BitVec 8) 8) :
    |feedbackSpeed (parseCtrlFb data : Gear × K × K)| ≤ 65535 / 1000 := by
  have hraw : ((speedRaw data).toNat : K) ≤ 65535 := by
    exact_mod_cast Nat.lt_succ_iff.mp (toNat_speedRaw_lt data)
  -- the gear decides the sign alone
  have habs : |feedbackSpeed (parseCtrlFb data : Gear × K × K)| =
      (speedRaw data).toNat * (1 / 1000) := by
    have hpos : (0 : K) ≤ (speedRaw data).toNat * (1 / 1000) := by positivity
    unfold feedbackSpeed
    split
    · rw [abs_neg]
      exact abs_of_nonneg hpos
    · exact abs_of_nonneg hpos
  rw [habs]
  linarith

/-- No frame reports more than sixteen bits of mm/s. -/
theorem abs_reportedSpeed_le (msg : Frame K) :
    |reportedSpeed P msg| ≤ 65535 / 1000 * |P.velScale| := by
  unfold reportedSpeed
  dsimp only
  split
  · rw [abs_zero]
    positivity
  · rw [abs_mul]
    gcongr
    exact abs_feedbackSpeed_le msg.data

end Update

/-! ### The bound over a run -/

section Run

variable (P : Params ℝ) (pf : Platform ℝ)

/-- How far the position moves from `s` to `s'`. -/
noncomputable def stepLength (s s' : State ℝ) : ℝ :=
  Real.sqrt ((s'.x - s.x) ^ 2 + (s'.y - s.y) ^ 2)

/-- The length of the path of `(x_, y_)` over a run from construction at `t₀`. -/
noncomputable def pathLength (t₀ : ℝ) (es : List (Timed ℝ (Event ℝ))) : ℝ :=
  (wtbCarNode P pf t₀).totalFrom (fun s e => stepLength s (step P pf s e).1)
    (State.initial t₀) es

/-- The time integrated over a run: the sum of the intervals that were used. -/
noncomputable def integratedTime (t₀ : ℝ) (es : List (Timed ℝ (Event ℝ))) : ℝ :=
  (wtbCarNode P pf t₀).totalFrom (fun s e => (usedInterval s e).getD 0) (State.initial t₀) es

theorem stepLength_samePose {s s' : State ℝ} (h : SamePose s s') : stepLength s s' = 0 := by
  rw [stepLength, h.x, h.y]
  simp

/-- An update moves the position by speed times interval, whatever the heading. -/
theorem stepLength_updateOf {now v dt : ℝ} {s s' : State ℝ}
    (hunit : ∀ θ, pf.cos θ ^ 2 + pf.sin θ ^ 2 = 1) (h : UpdateOf pf now v dt s s') :
    stepLength s s' = |v| * |dt| := by
  have hsq : (s'.x - s.x) ^ 2 + (s'.y - s.y) ^ 2 = (v * dt) ^ 2 := by
    rw [h.x, h.y]
    calc (s.x + v * pf.cos s.theta * dt - s.x) ^ 2 + (s.y + v * pf.sin s.theta * dt - s.y) ^ 2
        = (v * dt) ^ 2 * (pf.cos s.theta ^ 2 + pf.sin s.theta ^ 2) := by ring
      _ = (v * dt) ^ 2 := by rw [hunit, mul_one]
  rw [stepLength, hsq, Real.sqrt_sq_eq_abs, abs_mul]

variable (s : State ℝ) (e : Timed ℝ (Event ℝ))

/-- A callback uses at most the time by which `last_time_` advances. -/
theorem usedInterval_add_le :
    (usedInterval s e).getD 0 + s.lastTime ≤ (step P pf s e).1.lastTime := by
  rcases step_odometry P pf s e with ⟨dt, msg, hdt, hupdate⟩ | ⟨hnone, hsame, -⟩
  · obtain ⟨-, -, hle⟩ := usedInterval_bounds hdt
    rw [hdt, hupdate.lastTime]
    exact hle
  · rw [hnone, hsame.lastTime]
    exact (zero_add s.lastTime).le

/-- A callback moves the position by at most the top speed times that time. -/
theorem stepLength_add_le (hunit : ∀ θ, pf.cos θ ^ 2 + pf.sin θ ^ 2 = 1) :
    stepLength s (step P pf s e).1 + 65535 / 1000 * |P.velScale| * s.lastTime ≤
      65535 / 1000 * |P.velScale| * (step P pf s e).1.lastTime := by
  rcases step_odometry P pf s e with ⟨dt, msg, hdt, hupdate⟩ | ⟨-, hsame, -⟩
  · obtain ⟨hpos, -, hle⟩ := usedInterval_bounds hdt
    rw [stepLength_updateOf pf hunit hupdate, abs_of_pos hpos, hupdate.lastTime]
    calc |reportedSpeed P msg| * dt + 65535 / 1000 * |P.velScale| * s.lastTime
        ≤ 65535 / 1000 * |P.velScale| * dt + 65535 / 1000 * |P.velScale| * s.lastTime := by
          gcongr
          exact abs_reportedSpeed_le P msg
      _ = 65535 / 1000 * |P.velScale| * (dt + s.lastTime) := by ring
      _ ≤ 65535 / 1000 * |P.velScale| * e.time := by gcongr
  · rw [stepLength_samePose hsame, hsame.lastTime, zero_add]

theorem lastTime_le_step : s.lastTime ≤ (step P pf s e).1.lastTime := by
  rcases step_odometry P pf s e with ⟨dt, msg, hdt, hupdate⟩ | ⟨-, hsame, -⟩
  · obtain ⟨hpos, -, hle⟩ := usedInterval_bounds hdt
    rw [hupdate.lastTime]
    linarith
  · exact hsame.lastTime.ge

/-- `last_time_` never decreases along a run. -/
theorem lastTime_le_runFrom (t₀ : ℝ) (es : List (Timed ℝ (Event ℝ))) :
    s.lastTime ≤ ((wtbCarNode P pf t₀).runFrom s es).lastTime := by
  refine (wtbCarNode P pf t₀).invariant_runFrom (I := fun s' => s.lastTime ≤ s'.lastTime) ?_ le_rfl
  intro s' e _ h
  exact h.trans (lastTime_le_step P pf s' e)

variable (undefUInt undefInt : Flt ℝ → BitVec 32)

/-- **Odometry moves no further than the elapsed time allows.** Over every run, with
any clock and any parameters: `last_time_` never decreases; each interval that is
used lies in `(0, 0.1]` and is what the pose is integrated over; the intervals add up
to at most the growth of `last_time_`, and the path is at most `65.535 * |vel_scale|`
times as long as that. A feedback frame whose clock reading is not past `last_time_`
leaves the pose and `last_time_` as they are, and no odometry is published for it. -/
theorem odometry_bounded (t₀ : ℝ) (es : List (Timed ℝ (Event ℝ))) :
    let pf := Platform.real undefUInt undefInt
    let node := wtbCarNode P pf t₀
    (∀ pre post, es = pre ++ post → (node.run pre).lastTime ≤ (node.run es).lastTime) ∧
    (∀ pre e post dt, es = pre ++ e :: post → usedInterval (node.run pre) e = some dt →
      0 < dt ∧ dt ≤ 1 / 10 ∧ ∃ msg, UpdateOf pf e.time (reportedSpeed P msg) dt
        (node.run pre) (node.run (pre ++ [e]))) ∧
    integratedTime P pf t₀ es ≤ (node.run es).lastTime - t₀ ∧
    pathLength P pf t₀ es ≤ 65535 / 1000 * |P.velScale| * ((node.run es).lastTime - t₀) ∧
    (∀ (s : State ℝ) (now : ℝ) (msg : Frame ℝ), now - s.lastTime ≤ 0 →
      SamePose s (step P pf s ⟨now, .canTx msg⟩).1 ∧
        odometryOut (step P pf s ⟨now, .canTx msg⟩).2 = []) := by
  intro pf node
  have hunit (θ : ℝ) : pf.cos θ ^ 2 + pf.sin θ ^ 2 = 1 := Real.cos_sq_add_sin_sq θ
  refine ⟨?_, ?_, ?_, ?_, ?_⟩
  · rintro pre post rfl
    rw [Machine.run_append]
    exact lastTime_le_runFrom P pf _ t₀ post
  · intro pre e post dt _ hdt
    obtain ⟨hpos, hcap, -⟩ := usedInterval_bounds hdt
    refine ⟨hpos, hcap, ?_⟩
    rw [Machine.run_concat]
    -- the interval is the one that the step has used
    rcases step_odometry P pf (node.run pre) e with ⟨dt', msg, hdt', hupdate⟩ | ⟨hnone, -, -⟩
    · obtain rfl := Option.some.inj (hdt.symm.trans hdt')
      exact ⟨msg, hupdate⟩
    · exact absurd (hnone.symm.trans hdt) (by simp)
  · -- `last_time_` itself is the potential
    have htotal := node.totalFrom_add_le (φ := State.lastTime) (usedInterval_add_le P pf)
      (State.initial t₀) es
    exact le_sub_iff_add_le.mpr htotal
  · -- and scaled by the top speed, the potential for the path
    have htotal := node.totalFrom_add_le
      (φ := fun s => 65535 / 1000 * |P.velScale| * s.lastTime)
      (fun s e => stepLength_add_le P pf s e hunit) (State.initial t₀) es
    rw [mul_sub]
    exact le_sub_iff_add_le.mpr htotal
  · intro s now msg hle
    rcases canTx_odometry P pf now s msg with ⟨dt, hdt, -⟩ | ⟨-, hskip⟩
    · obtain ⟨hpos, -, hlt⟩ := usedInterval_bounds hdt
      exact absurd hle (not_le.mpr (by change dt + s.lastTime ≤ now at hlt; linarith))
    · exact hskip

end Run

end Driver
end WtbAutoware
