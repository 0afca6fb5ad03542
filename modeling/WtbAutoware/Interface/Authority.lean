import WtbAutoware.Interface.Mode

/-!
# Authority in the partial modes

AUTONOMOUS_STEER_ONLY and AUTONOMOUS_VELOCITY_ONLY are accepted and reported as modes of
their own. To `isAutonomousControlMode` they are autonomous like AUTONOMOUS, and no
callback tells them apart: in each of the three a control command is published with both
of its components.

What is left of the separation is between the components. `authority` compares two runs
that differ only in one component of control commands, the one that their mode should
withhold (`DifferOnly`): the other component of all chassis commands is the same, and so
is this one exactly if the requests that differ are clamped to the same value. It holds
in every mode (`values_other_eq`, `values_eq_iff`), by the lockstep rule over
`commands_altered`. `steerOnly_moves` is a velocity that gets through in
AUTONOMOUS_STEER_ONLY.
-/

namespace WtbAutoware
namespace Interface

open Reactive

/-- The components of a control command, and of a chassis command. -/
inductive Component where
  | velocity
  | steering

namespace Component

variable {K : Type} (msgs : VehicleMsgs) (P : Params K)

/-- The component that is left. -/
def other : Component → Component
  | .velocity => .steering
  | .steering => .velocity

/-- What a control command asks for. -/
def request : Component → Control K → Flt K
  | .velocity, msg => msg.velocity
  | .steering, msg => msg.steeringTireAngle

/-- What a chassis command carries. -/
def value : Component → Twist K → Flt K
  | .velocity, c => c.linearX
  | .steering, c => c.angularZ

/-- The limit of the interface. -/
def limit : Component → K
  | .velocity => P.maxSpeed
  | .steering => P.maxSteeringAngle

/-- The mode whose name withholds the component. -/
def withheldIn : Component → BitVec 8
  | .velocity => msgs.report.autonomousSteerOnly
  | .steering => msgs.report.autonomousVelocityOnly

end Component

variable {K : Type} [Field K] [LinearOrder K] (P : Params K) (msgs : VehicleMsgs) (t₀ : K)

/-- The request, clamped. -/
def clampedRequest (comp : Component) (msg : Control K) : Flt K :=
  stdClamp (comp.request msg) (.fin (-comp.limit P)) (.fin (comp.limit P))

/-- One component of the chassis commands among the published messages. -/
def values {K : Type} (comp : Component) (os : List (Output K)) : List (Flt K) :=
  os.filterMap fun o => o.chassisCommand.map comp.value

/-- The same event, or two control commands that differ in the component at most. -/
def SameUpTo {K : Type} (comp : Component) (e e' : Timed K (Event K)) : Prop :=
  e.time = e'.time ∧
    (e.ev = e'.ev ∨ ∃ msg msg', e.ev = .controlCmd msg ∧ e'.ev = .controlCmd msg' ∧
      comp.other.request msg = comp.other.request msg')

/-- Two runs with the same events and times, except that control commands received in the
mode that withholds the component may differ in it. -/
structure DifferOnly (comp : Component) (es es' : Run K) : Prop where
  sameUpTo : List.Forall₂ (SameUpTo comp) es es'
  withheld : ∀ (i : ℕ) e e', es[i]? = some e → es'[i]? = some e' → e ≠ e' →
    (stateAfter P msgs t₀ (es.take i)).currentControlMode = comp.withheldIn msgs

/-- The partial modes confine authority: what a mode withholds does not show. -/
def Confined : Prop :=
  ∀ (comp : Component) (es es' : Run K), DifferOnly P msgs t₀ comp es es' →
    values comp ((vehicleInterface P msgs t₀).trace es) =
      values comp ((vehicleInterface P msgs t₀).trace es')

/-! ### One step -/

section Step

variable {comp : Component} {e e' : Timed K (Event K)} (s : State K)

omit [Field K] [LinearOrder K] in
theorem values_eq_map (os : List (Output K)) :
    values comp os = (chassisCommands os).map comp.value := by
  unfold values chassisCommands
  rw [List.map_filterMap]

theorem value_clampCommand (msg : Control K) :
    comp.value (clampCommand P msg) = clampedRequest P comp msg := by
  cases comp <;> rfl

/-- The two steps leave the same state: of a control command only the time is kept. -/
theorem state_altered (h : SameUpTo comp e e') :
    (step P msgs s e).1 = (step P msgs s e').1 := by
  obtain ⟨htime, hev | ⟨msg, msg', hmsg, hmsg', -⟩⟩ := h
  · rw [state_step, state_step, htime, hev]
  · rw [state_step, state_step, htime, hmsg, hmsg']

/-- The two steps publish the same chassis commands, or one each for the control commands
that differ. -/
theorem commands_altered (h : SameUpTo comp e e') :
    chassisCommands (step P msgs s e).2 = chassisCommands (step P msgs s e').2 ∨
      ∃ msg msg', e.ev = .controlCmd msg ∧ e'.ev = .controlCmd msg' ∧
        comp.other.request msg = comp.other.request msg' ∧
        IsAutonomous msgs s.currentControlMode ∧
        chassisCommands (step P msgs s e).2 = [clampCommand P msg] ∧
        chassisCommands (step P msgs s e').2 = [clampCommand P msg'] := by
  obtain ⟨htime, hev | ⟨msg, msg', hmsg, hmsg', hother⟩⟩ := h
  · refine Or.inl ?_
    rw [commands_step, commands_step, htime, hev]
  · rw [commands_step, commands_step, hmsg, hmsg']
    dsimp only
    by_cases hauto : IsAutonomous msgs s.currentControlMode
    · rw [if_pos hauto, if_pos hauto]
      exact Or.inr ⟨msg, msg', rfl, rfl, hother, hauto, rfl, rfl⟩
    · -- outside the autonomous modes neither of them is published
      rw [if_neg hauto, if_neg hauto]
      exact Or.inl rfl

/-- What the steps publish has the same length, seen from either component. -/
theorem length_values_altered (h : SameUpTo comp e e') (comp' : Component) :
    (values comp' (step P msgs s e).2).length = (values comp' (step P msgs s e').2).length := by
  rw [values_eq_map, values_eq_map]
  rcases commands_altered P msgs s h with heq | ⟨msg, msg', -, -, -, -, hone, hone'⟩
  · rw [heq]
  · rw [hone, hone']
    rfl

/-- The other component does not change. -/
theorem values_other_altered (h : SameUpTo comp e e') :
    values comp.other (step P msgs s e).2 = values comp.other (step P msgs s e').2 := by
  rw [values_eq_map, values_eq_map]
  rcases commands_altered P msgs s h with heq | ⟨msg, msg', -, -, hother, -, hone, hone'⟩
  · rw [heq]
  · rw [hone, hone', List.map_singleton, List.map_singleton, value_clampCommand,
      value_clampCommand, clampedRequest, clampedRequest, hother]

/-- The component itself changes with the clamped request, in every autonomous mode. -/
theorem values_altered_iff (h : SameUpTo comp e e') :
    values comp (step P msgs s e).2 = values comp (step P msgs s e').2 ↔
      ∀ msg msg', e.ev = .controlCmd msg → e'.ev = .controlCmd msg' →
        IsAutonomous msgs s.currentControlMode →
        clampedRequest P comp msg = clampedRequest P comp msg' := by
  rw [values_eq_map, values_eq_map]
  refine ⟨?_, ?_⟩
  · intro heq msg msg' hmsg hmsg' hauto
    rw [commands_step, commands_step, hmsg, hmsg'] at heq
    dsimp only at heq
    rw [if_pos hauto, if_pos hauto, List.map_singleton, List.map_singleton, value_clampCommand,
      value_clampCommand] at heq
    exact List.singleton_inj.mp heq
  · intro hclamped
    rcases commands_altered P msgs s h with heq | ⟨msg, msg', hmsg, hmsg', -, hauto, hone, hone'⟩
    · rw [heq]
    · rw [hone, hone', List.map_singleton, List.map_singleton, value_clampCommand,
        value_clampCommand, hclamped msg msg' hmsg hmsg' hauto]

end Step

/-! ### Two runs -/

section Runs

variable {comp : Component} {es es' : Run K}

theorem values_other_eq (h : List.Forall₂ (SameUpTo comp) es es') :
    values comp.other ((vehicleInterface P msgs t₀).trace es) =
      values comp.other ((vehicleInterface P msgs t₀).trace es') := by
  refine (Machine.traceFrom_eq_iff (vehicleInterface P msgs t₀) (vehicleInterface P msgs t₀)
    (I := Eq) (C := fun _ _ _ => True) ?_ rfl h).mpr ?_
  · rintro s _ e e' rfl hsame
    exact ⟨length_values_altered P msgs s hsame comp.other,
      iff_of_true (values_other_altered P msgs s hsame) trivial,
      fun _ => state_altered P msgs s hsame⟩
  · intro i e e' _ _
    trivial

theorem values_eq_iff (h : List.Forall₂ (SameUpTo comp) es es') :
    values comp ((vehicleInterface P msgs t₀).trace es) =
        values comp ((vehicleInterface P msgs t₀).trace es') ↔
      ∀ (i : ℕ) e e', es[i]? = some e → es'[i]? = some e' →
        ∀ msg msg', e.ev = .controlCmd msg → e'.ev = .controlCmd msg' →
          IsAutonomous msgs (stateAfter P msgs t₀ (es.take i)).currentControlMode →
          clampedRequest P comp msg = clampedRequest P comp msg' := by
  refine Machine.traceFrom_eq_iff (vehicleInterface P msgs t₀) (vehicleInterface P msgs t₀)
    (I := Eq)
    (C := fun s e e' => ∀ msg msg', e.ev = .controlCmd msg → e'.ev = .controlCmd msg' →
      IsAutonomous msgs s.currentControlMode →
      clampedRequest P comp msg = clampedRequest P comp msg') ?_ rfl h
  rintro s _ e e' rfl hsame
  exact ⟨length_values_altered P msgs s hsame comp, values_altered_iff P msgs s hsame,
    fun _ => state_altered P msgs s hsame⟩

omit [Field K] [LinearOrder K] in
theorem isAutonomous_withheldIn (comp : Component) : IsAutonomous msgs (comp.withheldIn msgs) := by
  cases comp with
  | velocity => exact Or.inr (Or.inl rfl)
  | steering => exact Or.inr (Or.inr rfl)

/-- **The authority of the partial modes.** For every two runs that differ only in what the
current mode should withhold: the other component of all chassis commands is the same, and
the component itself is the same if and only if the requests that differ are clamped to
the same value. -/
theorem authority (h : DifferOnly P msgs t₀ comp es es') :
    values comp.other ((vehicleInterface P msgs t₀).trace es) =
        values comp.other ((vehicleInterface P msgs t₀).trace es') ∧
      (values comp ((vehicleInterface P msgs t₀).trace es) =
          values comp ((vehicleInterface P msgs t₀).trace es') ↔
        ∀ (i : ℕ) e e' msg msg', es[i]? = some e → es'[i]? = some e' →
          e.ev = .controlCmd msg → e'.ev = .controlCmd msg' →
          clampedRequest P comp msg = clampedRequest P comp msg') := by
  refine ⟨values_other_eq P msgs t₀ h.sameUpTo, ?_⟩
  rw [values_eq_iff P msgs t₀ h.sameUpTo]
  refine ⟨?_, ?_⟩
  · intro hall i e e' msg msg' he he' hmsg hmsg'
    by_cases hsame : e = e'
    · rw [← hsame, hmsg] at hmsg'
      rw [Event.controlCmd.inj hmsg']
    · -- received in a partial mode, which is an autonomous one
      refine hall i e e' he he' msg msg' hmsg hmsg' ?_
      rw [h.withheld i e e' he he' hsame]
      exact isAutonomous_withheldIn msgs comp
  · intro hall i e e' he he' msg msg' hmsg hmsg' _
    exact hall i e e' msg msg' he he' hmsg hmsg'

end Runs

/-! ### A velocity that gets through -/

/-- AUTONOMOUS_STEER_ONLY, and a control command with the velocity `v`. -/
def steerOnlyRun (v : ℚ) : Run ℚ :=
  [⟨0, .controlModeRequest 2⟩, ⟨1, .controlCmd ⟨.fin v, .fin 0⟩⟩]

theorem steerOnlyRun_differ (v v' : ℚ) :
    DifferOnly Params.default VehicleMsgs.autoware 0 .velocity (steerOnlyRun v)
      (steerOnlyRun v') where
  sameUpTo := .cons ⟨rfl, .inl rfl⟩ (.cons ⟨rfl, .inr ⟨_, _, rfl, rfl, rfl⟩⟩ .nil)
  withheld := by
    intro i e e' he he' hne
    match i with
    | 0 => exact absurd (Option.some.inj (he.symm.trans he')) hne
    | 1 => rfl
    | i + 2 => exact absurd he (by simp [steerOnlyRun])

/-- 0.5 m/s and 0 m/s are both published. -/
theorem steerOnly_moves : ¬ Confined (Params.default : Params ℚ) VehicleMsgs.autoware 0 := by
  intro h
  have hsame := h .velocity _ _ (steerOnlyRun_differ (1 / 2) 0)
  revert hsame
  decide +kernel

/-- `authority` for 2 m/s and 3 m/s, which are clamped alike. -/
theorem authority_clamped :
    values .velocity ((vehicleInterface Params.default VehicleMsgs.autoware 0).trace
        (steerOnlyRun 2)) =
      values .velocity ((vehicleInterface Params.default VehicleMsgs.autoware 0).trace
        (steerOnlyRun 3)) := by
  refine (authority Params.default VehicleMsgs.autoware 0 (steerOnlyRun_differ 2 3)).2.mpr ?_
  intro i e e' msg msg' he he' hmsg hmsg'
  match i with
  | 0 =>
    obtain rfl := Option.some.inj he
    exact absurd hmsg (by simp)
  | 1 =>
    obtain rfl := Option.some.inj he
    obtain rfl := Option.some.inj he'
    obtain rfl := Event.controlCmd.inj hmsg
    obtain rfl := Event.controlCmd.inj hmsg'
    decide +kernel
  | i + 2 => exact absurd he (by simp [steerOnlyRun])

end Interface
end WtbAutoware
