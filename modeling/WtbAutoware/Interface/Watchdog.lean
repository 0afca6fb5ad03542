import WtbAutoware.Interface.Node

/-!
# The command watchdog

`onTimer` stops the car when the latest control input is older than
`command_timeout_sec`. The law, `Watched`: right after every tick, a chassis
command other than `(0, 0)` stands only if a control command was accepted within
the timeout.

The time stamp that the watchdog reads, `last_control_time_`, is also written by
every accepted mode request, and a request for an autonomous mode publishes no
stop. So a request that arrives while a nonzero command stands passes for control
input: `autonomous_rearms` is a run in which the car drives on a command that has
timed out. The law holds in every run whose autonomous requests find the car
commanded to rest (`RequestAtRest`), and a request that does not can always be
followed by a tick that breaks it (`not_watched_of_rearm`).

The invariant is `Backed`: the car is commanded to rest, or the mode is
autonomous and a control command was accepted at `last_control_time_`.
-/

namespace WtbAutoware
namespace Interface

open Reactive

variable {K : Type} [Field K] [LinearOrder K] (P : Params K) (msgs : VehicleMsgs) (t₀ : K)

/-! ### The law -/

/-- The most recently published chassis command of a run. -/
def standing (es : Run K) : Option (Twist K) :=
  (chassisCommands ((vehicleInterface P msgs t₀).trace es)).getLast?

/-- No chassis command stands other than `(0, 0)`. -/
def AtRest (es : Run K) : Prop := ∀ c, standing P msgs t₀ es = some c → c = zeroTwist

/-- `onControlCmd` accepted a control command at the time `t`. -/
def AcceptedAt (es : Run K) (t : K) : Prop :=
  ∃ pre msg post, es = pre ++ ⟨t, .controlCmd msg⟩ :: post ∧
    IsAutonomous msgs (stateAfter P msgs t₀ pre).currentControlMode

/-- After every tick, a nonzero command stands only on fresh control input. -/
def Watched (es : Run K) : Prop :=
  ∀ pre t post, es = pre ++ ⟨t, .timer⟩ :: post →
    ¬ AtRest P msgs t₀ (pre ++ [⟨t, .timer⟩]) →
    ∃ t', AcceptedAt P msgs t₀ pre t' ∧ t - P.commandTimeoutSec ≤ t' ∧ t' ≤ t

/-- A request for an autonomous mode finds the car commanded to rest, or comes at
the very instant that the watchdog has on record. -/
def RequestAtRest (pre : Run K) (e : Timed K (Event K)) : Prop :=
  ∀ mode, e.ev = .controlModeRequest mode → IsAutonomous msgs mode →
    AtRest P msgs t₀ pre ∨ e.time = (stateAfter P msgs t₀ pre).lastControlTime

/-! ### What stands after a step -/

section Steps

variable {es : Run K} {e : Timed K (Event K)}

theorem standing_concat :
    standing P msgs t₀ (es ++ [e]) =
      (chassisCommands (step P msgs (stateAfter P msgs t₀ es) e).2).getLast?.or
        (standing P msgs t₀ es) := by
  rw [standing, Machine.trace_concat, chassisCommands_append, List.getLast?_append]
  rfl

/-- A step that stops the car leaves it at rest. -/
theorem atRest_of_stop
    (h : chassisCommands (step P msgs (stateAfter P msgs t₀ es) e).2 = [zeroTwist]) :
    AtRest P msgs t₀ (es ++ [e]) := by
  intro c hc
  rw [standing_concat, h] at hc
  exact (Option.some.inj hc).symm

/-- A step that publishes no chassis command leaves what stands. -/
theorem atRest_of_silent
    (h : chassisCommands (step P msgs (stateAfter P msgs t₀ es) e).2 = []) :
    AtRest P msgs t₀ (es ++ [e]) ↔ AtRest P msgs t₀ es := by
  unfold AtRest
  rw [standing_concat, h]
  rfl

theorem AcceptedAt.concat {t : K} (h : AcceptedAt P msgs t₀ es t) :
    AcceptedAt P msgs t₀ (es ++ [e]) t := by
  obtain ⟨pre, msg, post, rfl, hauto⟩ := h
  exact ⟨pre, msg, post ++ [e], by simp, hauto⟩

end Steps

/-! ### The invariant -/

/-- The car is commanded to rest, or a control command accepted at
`last_control_time_` backs what stands. -/
def Backed (es : Run K) : Prop :=
  AtRest P msgs t₀ es ∨
    IsAutonomous msgs (stateAfter P msgs t₀ es).currentControlMode ∧
      AcceptedAt P msgs t₀ es (stateAfter P msgs t₀ es).lastControlTime

section Invariant

variable {es : Run K} {e : Timed K (Event K)}

/-- A silent step that keeps the mode and the recorded time keeps `Backed`. -/
theorem backed_of_silent (h : Backed P msgs t₀ es)
    (hcmd : chassisCommands (step P msgs (stateAfter P msgs t₀ es) e).2 = [])
    (hmode : IsAutonomous msgs (stateAfter P msgs t₀ es).currentControlMode →
      IsAutonomous msgs (stateAfter P msgs t₀ (es ++ [e])).currentControlMode)
    (htime : (stateAfter P msgs t₀ (es ++ [e])).lastControlTime =
      (stateAfter P msgs t₀ es).lastControlTime) :
    Backed P msgs t₀ (es ++ [e]) := by
  rcases h with hrest | ⟨hauto, hacc⟩
  · exact Or.inl ((atRest_of_silent P msgs t₀ hcmd).mpr hrest)
  · refine Or.inr ⟨hmode hauto, ?_⟩
    rw [htime]
    exact hacc.concat

theorem stateAfter_concat :
    stateAfter P msgs t₀ (es ++ [e]) = (step P msgs (stateAfter P msgs t₀ es) e).1 :=
  (vehicleInterface P msgs t₀).run_concat es e

/-- **Step.** Every callback keeps `Backed`, an autonomous request under the
condition. -/
theorem backed_step (h : Backed P msgs t₀ es) (hreq : RequestAtRest P msgs t₀ es e) :
    Backed P msgs t₀ (es ++ [e]) := by
  have hcmds := commands_step P msgs (stateAfter P msgs t₀ es) e
  have hmode := currentControlMode_step P msgs (stateAfter P msgs t₀ es) e
  have htime := lastControlTime_step P msgs (stateAfter P msgs t₀ es) e
  rw [← stateAfter_concat] at hmode htime
  obtain ⟨now, ev⟩ := e
  cases ev with
  | controlCmd msg =>
    dsimp only at hcmds hmode htime
    by_cases hauto : IsAutonomous msgs (stateAfter P msgs t₀ es).currentControlMode
    · -- accepted: the command itself is the one on record
      rw [if_pos hauto] at htime
      refine Or.inr ⟨by rw [hmode]; exact hauto, ?_⟩
      rw [htime]
      exact ⟨es, msg, [], rfl, hauto⟩
    · -- not accepted: nothing changes
      rw [if_neg hauto] at hcmds htime
      exact backed_of_silent P msgs t₀ h hcmds (fun ha => absurd ha hauto) htime
  | gearCmd command =>
    -- PARK and NEUTRAL stop the car, and any other gear publishes no command
    dsimp only at hcmds hmode htime
    split at hcmds
    · exact Or.inl (atRest_of_stop P msgs t₀ hcmds)
    · exact backed_of_silent P msgs t₀ h hcmds (fun ha => by rw [hmode]; exact ha) htime
  | odom msg => exact backed_of_silent P msgs t₀ h hcmds (fun ha => by rw [hmode]; exact ha) htime
  | carStatus msg =>
    exact backed_of_silent P msgs t₀ h hcmds (fun ha => by rw [hmode]; exact ha) htime
  | timer =>
    -- the watchdog stops the car, or publishes no command
    dsimp only at hcmds hmode htime
    split at hcmds
    · exact Or.inl (atRest_of_stop P msgs t₀ hcmds)
    · exact backed_of_silent P msgs t₀ h hcmds (fun ha => by rw [hmode]; exact ha) htime
  | controlModeRequest mode =>
    dsimp only at hcmds hmode htime
    by_cases hman : mode = msgs.report.manual
    · -- MANUAL stops the car
      rw [if_pos hman] at hcmds
      exact Or.inl (atRest_of_stop P msgs t₀ hcmds)
    · rw [if_neg hman] at hcmds
      by_cases hacc : AcceptedMode msgs mode
      · -- an autonomous request: silent, and it overwrites the recorded time
        have hauto := ((acceptedMode_iff msgs mode).mp hacc).resolve_right hman
        rw [if_pos hacc] at hmode htime
        rcases hreq mode rfl hauto with hrest | hsame
        · exact Or.inl ((atRest_of_silent P msgs t₀ hcmds).mpr hrest)
        · exact backed_of_silent P msgs t₀ h hcmds (fun _ => by rw [hmode]; exact hauto)
            (htime.trans hsame)
      · -- refused: nothing changes
        rw [if_neg hacc] at hmode htime
        exact backed_of_silent P msgs t₀ h hcmds (fun ha => by rw [hmode]; exact ha) htime

/-- **Run.** -/
theorem backed_run (hreq : Each (RequestAtRest P msgs t₀) es) : Backed P msgs t₀ es := by
  refine run_induction (I := Backed P msgs t₀) (Or.inl ?_) ?_ hreq
  · -- nothing stands before the first step
    intro c hc
    simp [standing] at hc
  · intro es e _ ih he
    exact backed_step P msgs t₀ ih he

/-- **The watchdog law.** In every run whose clock does not go back and whose
autonomous requests find the car commanded to rest, a nonzero command stands
after a tick only on a control command accepted within the timeout. -/
theorem watchdog_fresh [IsStrictOrderedRing K] (hclock : NonDecreasing es)
    (hreq : Each (RequestAtRest P msgs t₀) es) : Watched P msgs t₀ es := by
  intro pre t post hes hmoving
  have hpre : Backed P msgs t₀ pre := backed_run P msgs t₀ (hes ▸ hreq).left
  have hcmds := commands_step P msgs (stateAfter P msgs t₀ pre) ⟨t, .timer⟩
  dsimp only at hcmds
  split at hcmds
  · -- the watchdog fired, and nothing stands but its stop
    exact absurd (atRest_of_stop P msgs t₀ hcmds) hmoving
  · next hquiet =>
    rw [atRest_of_silent P msgs t₀ hcmds] at hmoving
    obtain ⟨hauto, hacc⟩ := hpre.resolve_left hmoving
    refine ⟨_, hacc, ?_, ?_⟩
    · -- the tick did not fire, so the recorded time is recent
      have hle := not_lt.mp fun hlt => hquiet ⟨hauto, hlt⟩
      exact sub_le_comm.mp hle
    · -- and it is a time of the run before the tick
      obtain ⟨p, msg, q, hp, -⟩ := hacc
      rw [hes, hp] at hclock
      exact hclock.between.1

end Invariant

/-! ### The condition is exact -/

section Exact

variable {es : Run K} {e : Timed K (Event K)}

theorem acceptedAt_concat {t : K} (h : AcceptedAt P msgs t₀ (es ++ [e]) t) :
    AcceptedAt P msgs t₀ es t ∨
      ∃ msg, e = ⟨t, .controlCmd msg⟩ ∧
        IsAutonomous msgs (stateAfter P msgs t₀ es).currentControlMode := by
  obtain ⟨pre, msg, post, heq, hauto⟩ := h
  rcases List.eq_nil_or_concat post with rfl | ⟨post', x, rfl⟩
  · -- the control command is the new event
    obtain ⟨rfl, hlast⟩ := List.append_inj' heq rfl
    exact Or.inr ⟨msg, List.head_eq_of_cons_eq hlast, hauto⟩
  · rw [List.concat_eq_append, ← List.cons_append, ← List.append_assoc] at heq
    obtain ⟨rfl, -⟩ := List.append_inj' heq rfl
    exact Or.inl ⟨pre, msg, post', rfl, hauto⟩

/-- No control command was accepted later than the recorded time. -/
theorem acceptedAt_le (hclock : NonDecreasing es) {t : K} (h : AcceptedAt P msgs t₀ es t) :
    t ≤ (stateAfter P msgs t₀ es).lastControlTime := by
  induction es using List.reverseRecOn with
  | nil =>
    obtain ⟨pre, msg, post, heq, -⟩ := h
    simp at heq
  | append_singleton es e ih =>
    obtain ⟨hes, hlast⟩ := nonDecreasing_concat.mp hclock
    have htime := lastControlTime_step P msgs (stateAfter P msgs t₀ es) e
    rw [← stateAfter_concat] at htime
    rcases acceptedAt_concat P msgs t₀ h with hold | ⟨msg, rfl, hauto⟩
    · have hle := ih hes hold
      have hlt : t ≤ e.time := by
        obtain ⟨pre, msg, post, rfl, -⟩ := hold
        exact hlast ⟨t, .controlCmd msg⟩ (by simp)
      -- the step wrote its own time, or left the record alone
      have hor : (stateAfter P msgs t₀ (es ++ [e])).lastControlTime = e.time ∨
          (stateAfter P msgs t₀ (es ++ [e])).lastControlTime =
            (stateAfter P msgs t₀ es).lastControlTime := by
        rw [htime]
        obtain ⟨now, ev⟩ := e
        cases ev with
        | controlCmd msg => exact (ite_eq_or_eq _ _ _)
        | controlModeRequest mode => exact (ite_eq_or_eq _ _ _)
        | _ => exact Or.inr rfl
      rcases hor with heq | heq
      · rw [heq]
        exact hlt
      · rw [heq]
        exact hle
    · rw [htime]
      exact (if_pos hauto).ge

/-- **Every request that breaks the condition defeats the watchdog.** If a nonzero
command stands and an autonomous request comes later than the recorded time, then
a tick at the timeout after the request lets the command stand. -/
theorem not_watched_of_rearm [IsStrictOrderedRing K] (hclock : NonDecreasing es) {t : K}
    {mode : BitVec 8} (hauto : IsAutonomous msgs mode)
    (hmoving : ¬ AtRest P msgs t₀ es) (hlate : (stateAfter P msgs t₀ es).lastControlTime < t) :
    ¬ Watched P msgs t₀
      (es ++ [⟨t, .controlModeRequest mode⟩] ++ [⟨t + P.commandTimeoutSec, .timer⟩]) := by
  intro hwatch
  have hacc : AcceptedMode msgs mode := (acceptedMode_iff msgs mode).mpr (Or.inl hauto)
  have hman : mode ≠ msgs.report.manual := by
    rintro rfl
    exact not_isAutonomous_manual msgs hauto
  have hcmds := commands_step P msgs (stateAfter P msgs t₀ es) ⟨t, .controlModeRequest mode⟩
  have htime := lastControlTime_step P msgs (stateAfter P msgs t₀ es) ⟨t, .controlModeRequest mode⟩
  rw [← stateAfter_concat] at htime
  dsimp only at hcmds htime
  rw [if_neg hman] at hcmds
  rw [if_pos hacc] at htime
  -- neither the request nor the tick publishes anything
  have hstill := (atRest_of_silent P msgs t₀ hcmds).not.mpr hmoving
  have htick := commands_step P msgs (stateAfter P msgs t₀ (es ++ [⟨t, .controlModeRequest mode⟩]))
    ⟨t + P.commandTimeoutSec, .timer⟩
  dsimp only at htick
  rw [htime, add_sub_cancel_left, if_neg (fun h => lt_irrefl _ h.2)] at htick
  obtain ⟨t', hacc', hlo, -⟩ :=
    hwatch _ _ [] rfl ((atRest_of_silent P msgs t₀ htick).not.mpr hstill)
  -- the input that would back the command is older than the request
  rcases acceptedAt_concat P msgs t₀ hacc' with hold | ⟨msg, heq, -⟩
  · rw [add_sub_cancel_right] at hlo
    exact absurd (hlo.trans (acceptedAt_le P msgs t₀ hclock hold)) (not_le.mpr hlate)
  · exact absurd (congrArg Timed.ev heq) (by simp)

end Exact

/-! ### The request that passes for control input -/

/-- A command, a second AUTONOMOUS request 0.4 s later, and a tick 0.6 s after the
command, with a timeout of 0.5 s. -/
def rearmed : Run ℚ :=
  [⟨0, .controlModeRequest 1⟩, ⟨0, .controlCmd ⟨.fin 1, .fin 0⟩⟩,
    ⟨2 / 5, .controlModeRequest 1⟩, ⟨3 / 5, .timer⟩]

/-- With the default parameters `rearmed` breaks the law. -/
theorem autonomous_rearms :
    NonDecreasing rearmed ∧ ¬ Watched Params.default VehicleMsgs.autoware 0 rearmed := by
  refine ⟨by unfold NonDecreasing; decide +kernel, ?_⟩
  intro h
  obtain ⟨t', ⟨pre, msg, post, hes, -⟩, hlo, -⟩ :=
    h [⟨0, .controlModeRequest 1⟩, ⟨0, .controlCmd ⟨.fin 1, .fin 0⟩⟩,
        ⟨2 / 5, .controlModeRequest 1⟩] (3 / 5) [] rfl fun hrest => by
        have hzero := hrest ⟨.fin 1, .fin 0⟩ (by decide +kernel)
        exact absurd hzero (by decide +kernel)
  -- the one control command of the run is 0.6 s old
  have hmem : (⟨t', .controlCmd msg⟩ : Timed ℚ (Event ℚ)) ∈
      pre ++ ⟨t', .controlCmd msg⟩ :: post := by simp
  rw [← hes] at hmem
  obtain ⟨rfl, -⟩ : t' = 0 ∧ msg = ⟨.fin 1, .fin 0⟩ := by simpa using hmem
  revert hlo
  decide +kernel

/-- One command and two ticks, the second of which finds it timed out. -/
def timedOut : Run ℚ :=
  [⟨0, .controlModeRequest 1⟩, ⟨0, .controlCmd ⟨.fin 1, .fin 0⟩⟩, ⟨2 / 5, .timer⟩, ⟨3 / 5, .timer⟩]

/-- `watchdog_fresh` on the run `timedOut`. -/
theorem watchdog_fresh_timedOut : Watched Params.default VehicleMsgs.autoware 0 timedOut := by
  refine watchdog_fresh Params.default VehicleMsgs.autoware 0
    (by unfold NonDecreasing; decide +kernel) (each_iff_getElem.mpr ?_)
  intro i hi
  match i, hi with
  | 0, _ =>
    -- the one autonomous request is the first event
    intro mode _ _
    refine Or.inl ?_
    intro c hc
    simp [standing] at hc
  | 1, _ => exact fun mode h => absurd h (by simp [timedOut])
  | 2, _ => exact fun mode h => absurd h (by simp [timedOut])
  | 3, _ => exact fun mode h => absurd h (by simp [timedOut])

end Interface
end WtbAutoware
