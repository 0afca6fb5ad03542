import WtbAutoware.Driver.Bicycle

/-!
# Feedback in bursts

The bridge delivers feedback frames in irregular bursts. As long as they decode to one
speed and one steering angle, the odometry does not depend on how the time between them
is cut: `Integrated` says what a stretch of time does to the pose, `Integrated.trans` puts
two stretches together, and `integrated_feedbackRun` carries this over a run of frames.

The heading is normalised after each frame, and nevertheless ends where a single
normalisation of the total angle ends, at the half turn too: at a constant yaw rate it
always turns the same way (`normalizeAngle_add`). `partition_invariant` is the law. The
position depends on the partition as soon as the vehicle turns; straight on it does not.
-/

namespace WtbAutoware
namespace Driver

open Reactive

variable {K : Type} [Field K] [LinearOrder K] [IsStrictOrderedRing K] [FloorRing K]
  (P : Params K) (pf : Platform K)

/-! ### Constant feedback -/

/-- The calibrated speed for the decoded speed `v₀`, 0 in the dead band. -/
def constantSpeed (v₀ : K) : K := if |v₀ * P.velScale| < 5 / 1000 then 0 else v₀ * P.velScale

/-- The yaw rate for the decoded speed `v₀` and the decoded angle `a₀` in degrees. -/
def constantYawRate (v₀ a₀ : K) : K := yawRate P pf (constantSpeed P v₀) (a₀ * pf.pi / 180)

/-- The time `T`, cut into steps of at most 0.1 s, each ending with a feedback frame for
the speed `v₀` and the angle `a₀`. -/
structure PartitionOf (v₀ a₀ T : K) (steps : List (K × Frame K)) : Prop where
  interval : ∀ st ∈ steps, 0 < st.1 ∧ st.1 ≤ 1 / 10
  feedback : ∀ st ∈ steps, st.2.id = 0x18C4D2EF ∧
    (feedbackSpeed (parseCtrlFb st.2.data : Gear × K × K) = v₀ ∧
      (parseCtrlFb st.2.data : Gear × K × K).2.2 = a₀)
  total : (steps.map Prod.fst).sum = T

/-- The frames, each a step later than the one before. -/
def feedbackRun : K → List (K × Frame K) → List (Timed K (Event K))
  | _, [] => []
  | t, st :: steps => ⟨t + st.1, .canTx st.2⟩ :: feedbackRun (t + st.1) steps

/-- The pose after the frames, from the state `s`. -/
def poseAfter (t₀ : K) (s : State K) (steps : List (K × Frame K)) : State K :=
  (wtbCarNode P pf t₀).runFrom s (feedbackRun s.lastTime steps)

/-! ### Stretches of time -/

/-- What the time `T` at the speed `v` and the yaw rate `omega` makes of the pose. -/
structure Integrated (v omega T : K) (s s' : State K) : Prop where
  theta : s'.theta = normalizeAngle pf (s.theta + omega * T)
  straight : omega = 0 →
    s'.x = s.x + v * T * pf.cos s.theta ∧ s'.y = s.y + v * T * pf.sin s.theta

section Stretch

variable {P} {pf} {v omega T T' : K} {s s' s'' : State K}

theorem Integrated.refl (hθ : -pf.pi ≤ s.theta ∧ s.theta ≤ pf.pi) :
    Integrated pf v omega 0 s s := by
  refine ⟨?_, ?_⟩
  · rw [mul_zero, add_zero, normalizeAngle_of_mem hθ.1 hθ.2]
  · intro _
    rw [mul_zero, zero_mul, zero_mul, add_zero, add_zero]
    exact ⟨rfl, rfl⟩

/-- One stretch after the other. -/
theorem Integrated.trans (hθ : -pf.pi ≤ s.theta ∧ s.theta ≤ pf.pi) (hT : 0 ≤ T) (hT' : 0 ≤ T')
    (h : Integrated pf v omega T s s') (h' : Integrated pf v omega T' s' s'') :
    Integrated pf v omega (T + T') s s'' := by
  have hdir : 0 ≤ omega * T * (omega * T') := by
    have hsq : omega * T * (omega * T') = omega * omega * (T * T') := by ring
    rw [hsq]
    exact mul_nonneg (mul_self_nonneg omega) (mul_nonneg hT hT')
  refine ⟨?_, ?_⟩
  · calc s''.theta = normalizeAngle pf (normalizeAngle pf (s.theta + omega * T) + omega * T') := by
          rw [h'.theta, h.theta]
      _ = normalizeAngle pf (s.theta + omega * T + omega * T') :=
          normalizeAngle_add pf hθ.1 hθ.2 hdir
      _ = normalizeAngle pf (s.theta + omega * (T + T')) := by rw [mul_add, add_assoc]
  · intro hzero
    obtain ⟨hx, hy⟩ := h.straight hzero
    obtain ⟨hx', hy'⟩ := h'.straight hzero
    -- without a yaw rate the heading stays what it was
    have htheta : s'.theta = s.theta := by
      rw [h.theta, hzero, zero_mul, add_zero, normalizeAngle_of_mem hθ.1 hθ.2]
    rw [hx', hy', hx, hy, htheta]
    refine ⟨?_, ?_⟩
    · ring
    · ring

theorem BicycleStep.integrated {now : K} {out : List (Odometry K)}
    (h : BicycleStep P pf now v omega T s s' out) : Integrated pf v omega T s s' := by
  refine ⟨h.theta, ?_⟩
  intro _
  rw [h.x, h.y]
  refine ⟨?_, ?_⟩
  · ring
  · ring

theorem BicycleStep.theta_bounds {now : K} {out : List (Odometry K)}
    (h : BicycleStep P pf now v omega T s s' out) : -pf.pi ≤ s'.theta ∧ s'.theta ≤ pf.pi := by
  rw [h.theta]
  exact normalizeAngle_bounds pf _

end Stretch

/-! ### Runs of frames -/

section Runs

variable {v₀ a₀ : K}

/-- One frame, `h` after the last update. -/
theorem canTx_constant (s : State K) {h : K} {msg : Frame K} (hh : 0 < h ∧ h ≤ 1 / 10)
    (hid : msg.id = 0x18C4D2EF)
    (hv : feedbackSpeed (parseCtrlFb msg.data : Gear × K × K) = v₀)
    (ha : (parseCtrlFb msg.data : Gear × K × K).2.2 = a₀) :
    ∃ out, BicycleStep P pf (s.lastTime + h) (constantSpeed P v₀) (constantYawRate P pf v₀ a₀) h s
      (canTxCallback P pf (s.lastTime + h) s msg).1 out := by
  have hdt : updateInterval (s.lastTime + h) s = some h := by
    have hsub : s.lastTime + h - s.lastTime = h := by ring
    rw [updateInterval_of_pos _ _ (by rw [hsub]; exact hh.1), hsub, min_eq_left hh.2]
  have hspeed : reportedSpeed P msg = constantSpeed P v₀ := by
    rw [← hv]
    rfl
  have hyaw : reportedYawRate P pf msg = constantYawRate P pf v₀ a₀ := by
    unfold reportedYawRate constantYawRate feedbackAngle
    rw [hspeed, ha]
  have hstep := canTx_bicycle P pf (s.lastTime + h) s hid hdt
  rw [hspeed, hyaw] at hstep
  exact ⟨_, hstep⟩

/-- A run of frames integrates the whole time. -/
theorem integrated_feedbackRun (t₀ : K) {steps : List (K × Frame K)} {T : K}
    (h : PartitionOf v₀ a₀ T steps) {s : State K}
    (hθ : -pf.pi ≤ s.theta ∧ s.theta ≤ pf.pi) :
    Integrated pf (constantSpeed P v₀) (constantYawRate P pf v₀ a₀) T s
      (poseAfter P pf t₀ s steps) := by
  obtain ⟨hint, hfb, rfl⟩ := h
  induction steps generalizing s with
  | nil => exact Integrated.refl hθ
  | cons st steps ih =>
    obtain ⟨hid, hv, ha⟩ := hfb st List.mem_cons_self
    obtain ⟨hpos, hle⟩ := hint st List.mem_cons_self
    obtain ⟨out, hstep⟩ := canTx_constant P pf s ⟨hpos, hle⟩ hid hv ha
    have hint' : ∀ st' ∈ steps, 0 < st'.1 ∧ st'.1 ≤ 1 / 10 :=
      fun st' hst' => hint st' (List.mem_cons_of_mem _ hst')
    have hrest := ih hstep.theta_bounds hint'
      (fun st' hst' => hfb st' (List.mem_cons_of_mem _ hst'))
    -- the rest of the run starts with the clock that this frame has set
    have hpose : poseAfter P pf t₀ s (st :: steps) =
        poseAfter P pf t₀ (canTxCallback P pf (s.lastTime + st.1) s st.2).1 steps := by
      unfold poseAfter
      rw [hstep.lastTime]
      rfl
    have hsum : 0 ≤ (steps.map Prod.fst).sum := by
      apply List.sum_nonneg
      intro h hmem
      obtain ⟨st', hst', rfl⟩ := List.mem_map.mp hmem
      exact (hint' st' hst').1.le
    rw [hpose, List.map_cons, List.sum_cons]
    exact hstep.integrated.trans hθ hpos.le hsum hrest

/-- **Odometry does not depend on the partition.** From every state with its heading in
range, over every partition of the time `T`: the heading ends in range and congruent to
the one that the yaw rate leads to in the time `T`, and it is the same for every other
partition. If the yaw rate is 0 the position ends exactly as far along the heading as the
speed leads in the time `T`. -/
theorem partition_invariant (t₀ : K) (s : State K) (hθ : -pf.pi ≤ s.theta ∧ s.theta ≤ pf.pi)
    (T : K) (steps : List (K × Frame K)) (h : PartitionOf v₀ a₀ T steps) :
    let v := constantSpeed P v₀
    let omega := constantYawRate P pf v₀ a₀
    let s' := poseAfter P pf t₀ s steps
    (-pf.pi ≤ s'.theta ∧ s'.theta ≤ pf.pi) ∧
      (∃ n : ℤ, s'.theta = s.theta + omega * T + n * (2 * pf.pi)) ∧
      (∀ steps', PartitionOf v₀ a₀ T steps' →
        (poseAfter P pf t₀ s steps').theta = s'.theta) ∧
      (omega = 0 →
        s'.x = s.x + v * T * pf.cos s.theta ∧ s'.y = s.y + v * T * pf.sin s.theta) := by
  intro v omega s'
  obtain ⟨htheta, hstraight⟩ := integrated_feedbackRun P pf t₀ h hθ
  refine ⟨?_, ?_, ?_, hstraight⟩
  · rw [htheta]
    exact normalizeAngle_bounds pf _
  · rw [htheta]
    exact normalizeAngle_congr pf _
  · intro steps' h'
    rw [htheta, (integrated_feedbackRun P pf t₀ h' hθ).theta]

end Runs

/-- `partition_invariant` at 1 m/s straight on: a tenth of a second, in two unequal steps. -/
theorem partition_two_steps :
    (poseAfter Params.default Platform.rat 0 (State.initial 0)
      [(3 / 100, crawlFrame 1000), (7 / 100, crawlFrame 1000)]).x = 1 / 10 := by
  have hpartition : PartitionOf (1 : ℚ) 0 (1 / 10)
      [(3 / 100, crawlFrame 1000), (7 / 100, crawlFrame 1000)] := by
    refine ⟨?_, ?_, ?_⟩
    · decide +kernel
    · decide +kernel
    · decide +kernel
  have h := (partition_invariant Params.default Platform.rat 0 (State.initial 0)
    (by decide +kernel) (1 / 10) _ hpartition).2.2.2 (by decide +kernel)
  rw [h.1]
  decide +kernel

end Driver
end WtbAutoware
