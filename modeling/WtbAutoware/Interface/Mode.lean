import WtbAutoware.Interface.Node

/-!
# Control modes

The control mode of the vehicle interface is a function of the requests it has
accepted, and it gates everything that can move the car. `ModeGated` states the
law for a run, field by field: where nonzero chassis commands come from, what a
MANUAL request silences, which mode the node is in, and what a refused request
leaves behind. `mode_gating` says that every run obeys it.

The proof of `manual_silences` carries "not in an autonomous mode" over the
segment; the other fields are read off single steps.
-/

namespace WtbAutoware
namespace Interface

open Reactive

variable {K : Type} [Field K] [LinearOrder K] (P : Params K) (msgs : VehicleMsgs) (t₀ : K)

/-- The mode of an accepted request. -/
def acceptedRequest (e : Timed K (Event K)) : Option (BitVec 8) :=
  match e.ev with
  | .controlModeRequest mode => if AcceptedMode msgs mode then some mode else none
  | _ => none

/-- The modes of the accepted requests of a run, in order. -/
def acceptedRequests (es : Run K) : List (BitVec 8) := es.filterMap (acceptedRequest msgs)

/-- The gating of chassis commands by the control mode, over the run `es`. -/
structure ModeGated (es : Run K) : Prop where
  /-- A chassis command other than `(0, 0)` is published while a control command
  is handled in an autonomous mode. -/
  nonzero_source : ∀ pre e post, es = pre ++ e :: post →
    ∀ c ∈ chassisCommands (step P msgs (stateAfter P msgs t₀ pre) e).2, c ≠ zeroTwist →
      (∃ msg, e.ev = .controlCmd msg) ∧
        IsAutonomous msgs (stateAfter P msgs t₀ pre).currentControlMode
  /-- A MANUAL request publishes a chassis command, and as long as no autonomous
  request follows, all chassis commands from then on are `(0, 0)`. -/
  manual_silences : ∀ pre t mid post,
    es = pre ++ ⟨t, .controlModeRequest msgs.request.manual⟩ :: mid ++ post →
    (∀ e ∈ mid, ∀ mode, acceptedRequest msgs e = some mode → ¬ IsAutonomous msgs mode) →
    chassisCommands (step P msgs (stateAfter P msgs t₀ pre)
      ⟨t, .controlModeRequest msgs.request.manual⟩).2 = [zeroTwist] ∧
    ∀ c ∈ chassisCommands ((vehicleInterface P msgs t₀).traceFrom (stateAfter P msgs t₀ pre)
      (⟨t, .controlModeRequest msgs.request.manual⟩ :: mid)), c = zeroTwist
  /-- The mode is MANUAL or autonomous, and that of the last accepted request. -/
  mode_latest : ∀ pre post, es = pre ++ post →
    ((stateAfter P msgs t₀ pre).currentControlMode = msgs.report.manual ∨
      IsAutonomous msgs (stateAfter P msgs t₀ pre).currentControlMode) ∧
    (stateAfter P msgs t₀ pre).currentControlMode =
      (acceptedRequests msgs pre).getLast?.getD msgs.report.manual
  /-- A request with an unsupported mode is answered with `success = false`, and
  does nothing else. -/
  unsupported : ∀ pre t mode post, es = pre ++ ⟨t, .controlModeRequest mode⟩ :: post →
    ¬ AcceptedMode msgs mode → mode ≠ msgs.request.noCommand →
    step P msgs (stateAfter P msgs t₀ pre) ⟨t, .controlModeRequest mode⟩ =
      (stateAfter P msgs t₀ pre, [.response false])
  /-- NO_COMMAND is answered with `success = true`, and does nothing else. -/
  noCommand : ∀ pre t post, es = pre ++ ⟨t, .controlModeRequest msgs.request.noCommand⟩ :: post →
    step P msgs (stateAfter P msgs t₀ pre) ⟨t, .controlModeRequest msgs.request.noCommand⟩ =
      (stateAfter P msgs t₀ pre, [.response true])
  /-- An accepted request answers `success = true`. -/
  accepted : ∀ pre t mode post, es = pre ++ ⟨t, .controlModeRequest mode⟩ :: post →
    AcceptedMode msgs mode →
    Output.response true ∈
      (step P msgs (stateAfter P msgs t₀ pre) ⟨t, .controlModeRequest mode⟩).2

/-! ### Single steps -/

section Steps

variable (s : State K) {e : Timed K (Event K)}

theorem step_refused (t : K) {mode : BitVec 8} (h : ¬ AcceptedMode msgs mode) :
    step P msgs s ⟨t, .controlModeRequest mode⟩ =
      (s, [.response (decide (mode = msgs.request.noCommand))]) := by
  change onControlModeRequest P msgs t s mode = _
  unfold onControlModeRequest
  rw [if_neg h]
  by_cases hno : mode = msgs.request.noCommand
  · rw [if_pos hno, decide_eq_true hno]
  · rw [if_neg hno, decide_eq_false hno]

theorem step_accepted (t : K) {mode : BitVec 8} (h : AcceptedMode msgs mode) :
    Output.response true ∈ (step P msgs s ⟨t, .controlModeRequest mode⟩).2 := by
  change _ ∈ (onControlModeRequest P msgs t s mode).2
  unfold onControlModeRequest
  rw [if_pos h]
  -- the answer comes last, whatever is published before it
  exact List.mem_append_right _ List.mem_cons_self

/-- The mode after a step, in terms of the request that the step accepts. -/
theorem mode_step :
    (step P msgs s e).1.currentControlMode =
      (acceptedRequest msgs e).getD s.currentControlMode := by
  rw [currentControlMode_step]
  obtain ⟨now, ev⟩ := e
  cases ev with
  | controlModeRequest mode =>
    change (if AcceptedMode msgs mode then mode else s.currentControlMode) =
      (if AcceptedMode msgs mode then some mode else none).getD s.currentControlMode
    split <;> rfl
  | _ => rfl

omit [Field K] [LinearOrder K] in
theorem acceptedRequest_manual (t : K) :
    acceptedRequest msgs ⟨t, .controlModeRequest msgs.request.manual⟩ =
      some msgs.report.manual := by
  have hman : AcceptedMode msgs msgs.request.manual := Or.inr (Or.inr (Or.inr rfl))
  change (if AcceptedMode msgs msgs.request.manual then some msgs.request.manual else none) = _
  rw [if_pos hman, msgs.request_eq_report]

/-- A MANUAL request stops the car on the spot. -/
theorem commands_manual (t : K) :
    chassisCommands (step P msgs s ⟨t, .controlModeRequest msgs.request.manual⟩).2 =
      [zeroTwist] := by
  rw [commands_step]
  change (if msgs.request.manual = msgs.report.manual then [zeroTwist] else []) = [zeroTwist]
  rw [msgs.request_eq_report, if_pos rfl]

/-- Outside the autonomous modes a step publishes `(0, 0)` or nothing, and it
leaves them only by an autonomous request. -/
theorem silent_step (h : ¬ IsAutonomous msgs s.currentControlMode)
    (hreq : ∀ mode, acceptedRequest msgs e = some mode → ¬ IsAutonomous msgs mode) :
    ¬ IsAutonomous msgs (step P msgs s e).1.currentControlMode ∧
      ∀ c ∈ chassisCommands (step P msgs s e).2, c = zeroTwist := by
  refine ⟨?_, ?_⟩
  · rw [mode_step]
    cases hacc : acceptedRequest msgs e with
    | none => exact h
    | some mode => exact hreq mode hacc
  · intro c hc
    by_contra hne
    -- a command other than `(0, 0)` would need an autonomous mode
    obtain ⟨-, -, hauto, -⟩ := controlCmd_of_nonzero P msgs s e hc hne
    exact h hauto

end Steps

/-! ### Runs -/

/-- The node's mode is that of the last accepted request. -/
theorem currentControlMode_run (es : Run K) :
    (stateAfter P msgs t₀ es).currentControlMode =
      (acceptedRequests msgs es).getLast?.getD msgs.report.manual := by
  induction es using List.reverseRecOn with
  | nil => rfl
  | append_singleton es e ih =>
    rw [stateAfter, Machine.run_concat]
    change (step P msgs (stateAfter P msgs t₀ es) e).1.currentControlMode = _
    rw [mode_step, acceptedRequests, List.filterMap_append]
    cases hacc : acceptedRequest msgs e with
    | none =>
      -- no new request: the list of accepted requests is the old one
      rw [List.filterMap_cons_none hacc, List.filterMap_nil, List.append_nil]
      exact ih
    | some mode =>
      rw [List.filterMap_cons_some hacc, List.filterMap_nil, List.getLast?_concat]
      rfl

/-- The node is never in a mode other than MANUAL and the three autonomous ones. -/
theorem currentControlMode_known (es : Run K) :
    (stateAfter P msgs t₀ es).currentControlMode = msgs.report.manual ∨
      IsAutonomous msgs (stateAfter P msgs t₀ es).currentControlMode := by
  refine (vehicleInterface P msgs t₀).invariant_runFrom
    (I := fun s => s.currentControlMode = msgs.report.manual ∨
      IsAutonomous msgs s.currentControlMode) ?_ (Or.inl rfl)
  intro s e _ h
  change (step P msgs s e).1.currentControlMode = _ ∨
    IsAutonomous msgs (step P msgs s e).1.currentControlMode
  rw [mode_step]
  obtain ⟨now, ev⟩ := e
  cases ev with
  | controlModeRequest mode =>
    change (if AcceptedMode msgs mode then some mode else none).getD _ = _ ∨
      IsAutonomous msgs ((if AcceptedMode msgs mode then some mode else none).getD _)
    by_cases hacc : AcceptedMode msgs mode
    · -- the accepted modes are exactly these
      rw [if_pos hacc]
      exact ((acceptedMode_iff msgs mode).mp hacc).symm
    · rw [if_neg hacc]
      exact h
  | _ => exact h

/-- Over a segment without autonomous requests, from a state outside the
autonomous modes, every chassis command is `(0, 0)`. -/
theorem silent_traceFrom {s : State K} {mid : Run K}
    (h : ¬ IsAutonomous msgs s.currentControlMode)
    (hmid : ∀ e ∈ mid, ∀ mode, acceptedRequest msgs e = some mode → ¬ IsAutonomous msgs mode) :
    ∀ c ∈ chassisCommands ((vehicleInterface P msgs t₀).traceFrom s mid), c = zeroTwist := by
  intro c hc
  obtain ⟨o, ho, hoc⟩ := List.mem_filterMap.mp hc
  refine (vehicleInterface P msgs t₀).traceFrom_forall
    (I := fun s => ¬ IsAutonomous msgs s.currentControlMode)
    (G := fun o => ∀ c, o.chassisCommand = some c → c = zeroTwist) ?_ h o ho c hoc
  intro s e he hs
  obtain ⟨hnext, hout⟩ := silent_step P msgs s hs (hmid e he)
  refine ⟨hnext, ?_⟩
  intro o ho c hoc
  exact hout c (List.mem_filterMap.mpr ⟨o, ho, hoc⟩)

/-- **The control mode gates the chassis commands**, in every run. -/
theorem mode_gating (es : Run K) : ModeGated P msgs t₀ es where
  nonzero_source := by
    intro pre e post _ c hc hne
    obtain ⟨msg, hev, hauto, -⟩ := controlCmd_of_nonzero P msgs _ e hc hne
    exact ⟨⟨msg, hev⟩, hauto⟩
  manual_silences := by
    intro pre t mid post _ hmid
    refine ⟨commands_manual P msgs _ t, ?_⟩
    intro c hc
    rw [Machine.traceFrom_cons, chassisCommands_append] at hc
    rcases List.mem_append.mp hc with hfirst | hrest
    · -- the request itself
      change c ∈ chassisCommands (step P msgs _ _).2 at hfirst
      rw [commands_manual, List.mem_singleton] at hfirst
      exact hfirst
    · -- the segment behind it starts outside the autonomous modes
      refine silent_traceFrom P msgs t₀ ?_ hmid c hrest
      change ¬ IsAutonomous msgs (step P msgs _ _).1.currentControlMode
      rw [mode_step, acceptedRequest_manual]
      exact not_isAutonomous_manual msgs
  mode_latest := by
    intro pre post _
    exact ⟨currentControlMode_known P msgs t₀ pre, currentControlMode_run P msgs t₀ pre⟩
  unsupported := by
    intro pre t mode post _ hacc hno
    rw [step_refused P msgs _ t hacc, decide_eq_false hno]
  noCommand := by
    intro pre t post _
    rw [step_refused P msgs _ t (not_acceptedMode_noCommand msgs), decide_eq_true rfl]
  accepted := by
    intro pre t mode post _ hacc
    exact step_accepted P msgs _ t hacc

end Interface
end WtbAutoware
