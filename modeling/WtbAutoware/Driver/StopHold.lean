import WtbAutoware.Driver.Node

/-!
# The stop hold of the chassis driver

A "stop" on `/run_static` disables the node. Motion comes back with a "start",
or with the first `/cmd_vel` command after the hold time `stop_time_threshold`
(never, if that is negative). The laws, read off a run:

* `StopHolds` — while the latest "stop" has neither been followed by a "start"
  nor expired, `/cmd_vel` sends no frame with a nonzero speed field;
* `StopDisables` — every delivered "stop" leaves the node disabled.

Both hold as long as every "stop" is *heard* (`StopHeard`) and every hold is
*measured* (`HoldMeasuredAt`). The duplicate filter of `run_static_callback` comes
before the stop logic and the time-out does not reset it, so a "stop" that repeats
the last command string is dropped even though an earlier hold has expired;
`repeatedStop` is such a run. And the time since the stop is narrowed to `float`
before it is compared, which can carry it over the threshold (`narrowedHold`), though
not over one that is itself a `float` (`holdMeasured_of_float`).

The segment invariant is `StopHeld t₀`: the node is disabled by a stop no older than
`t₀`. It is established by a stop that is heard (`stopHeld_of_heard`), kept by
everything but a "start" where the gate of `/cmd_vel` is closed (`stopHeld_step`), and
closes that gate: inside the hold time by the node's own measure
(`stopInForce_of_held`), or by the clock if the hold is measured
(`stopInForce_of_measured`).

`/twist_cmd` has no gate at all: `stop_gates_iff` says that a callback respects
the stop in force exactly if it is not a `/twist_cmd` delivery.
-/

namespace WtbAutoware
namespace Driver

open Reactive

variable {K : Type} [Field K] [LinearOrder K] [IsStrictOrderedRing K] [FloorRing K]
  (P : Params K) (pf : Platform K)

/-- A run of the node. -/
abbrev Run (K : Type) := List (Timed K (Event K))

/-- The node after a run from construction at `t₀`. -/
abbrev stateAfter (t₀ : K) (es : Run K) : State K := (wtbCarNode P pf t₀).run es

/-! ### The laws -/

/-- After the latest "stop", with no "start" since, `/cmd_vel` sends no nonzero
speed before the hold time is over. -/
def StopHolds (t₀ : K) (es : Run K) : Prop :=
  ∀ (pre mid post : Run K) (t t' : K) (tw : Twist K),
    es = pre ++ ⟨t, .runStatic "stop"⟩ :: mid ++ ⟨t', .cmdVel tw⟩ :: post →
    (∀ e ∈ mid, e.ev ≠ .runStatic "start" ∧ e.ev ≠ .runStatic "stop") →
    ¬ (0 ≤ P.stopTimeThreshold ∧ P.stopTimeThreshold < t' - t) →
    ∀ f ∈ frames (cmdVelCallback P pf t'
        (stateAfter P pf t₀ (pre ++ ⟨t, .runStatic "stop"⟩ :: mid)) tw).2,
      speedField f = 0

/-- Every delivered "stop" leaves the node disabled. -/
def StopDisables (t₀ : K) (es : Run K) : Prop :=
  ∀ (pre post : Run K) (t : K), es = pre ++ ⟨t, .runStatic "stop"⟩ :: post →
    (stateAfter P pf t₀ (pre ++ [⟨t, .runStatic "stop"⟩])).enableRun = false

/-- A "stop" delivered in the state `s` is heard: it does not repeat the last
command string, or the hold that it repeats never expires, or it comes at the
very instant of the stop that it repeats. -/
def HearsStop (now : K) (s : State K) : Prop :=
  s.lastRunStaticCommand ≠ "stop" ∨ P.stopTimeThreshold < 0 ∨
    s.enableRun = false ∧ s.enableLastTime = now

/-- The event `e`, if it is a "stop", is heard after `pre`. -/
def StopHeard (t₀ : K) (pre : Run K) (e : Timed K (Event K)) : Prop :=
  e.ev = .runStatic "stop" → HearsStop P e.time (stateAfter P pf t₀ pre)

/-- Where the node, disabled, finds its hold to be over by the narrowed time, the hold
is over by the clock. -/
def HoldMeasured (now : K) (s : State K) : Prop :=
  s.enableRun = false → 0 ≤ P.stopTimeThreshold →
    P.stopTimeThreshold < pf.float (now - s.enableLastTime) →
    P.stopTimeThreshold < now - s.enableLastTime

instance (now : K) (s : State K) : Decidable (HoldMeasured P pf now s) :=
  inferInstanceAs (Decidable (_ → _))

/-- The hold is measured at `e`, if that is a `/cmd_vel`, after `pre`. -/
def HoldMeasuredAt (t₀ : K) (pre : Run K) (e : Timed K (Event K)) : Prop :=
  ∀ tw, e.ev = .cmdVel tw → HoldMeasured P pf e.time (stateAfter P pf t₀ pre)

omit [IsStrictOrderedRing K] [FloorRing K] in
/-- A threshold that is a `float` is not passed by narrowing. -/
theorem holdMeasured_of_float (hthr : pf.float P.stopTimeThreshold = P.stopTimeThreshold) (now : K)
    (s : State K) : HoldMeasured P pf now s := by
  intro _ _ hover
  by_contra hle
  -- narrowing keeps the order, so it leaves the time at or below the threshold
  have hmono := pf.float.mono (not_lt.mp hle)
  rw [hthr] at hmono
  exact absurd hover (not_lt.mpr hmono)

/-! ### The segment invariant -/

section Segment

variable (t₀ : K) {s : State K} {e : Timed K (Event K)}

/-- The node is disabled, by a stop that is not older than `t₀` if it can
expire. -/
def StopHeld (s : State K) : Prop :=
  s.enableRun = false ∧ (P.stopTimeThreshold < 0 ∨ t₀ ≤ s.enableLastTime)

variable {t₀} in
omit [FloorRing K] in
/-- A held stop is in force until the hold time has passed since `t₀`, as the node
measures it. -/
theorem stopInForce_of_held {now : K} (h : StopHeld P t₀ s)
    (hwin : ¬ (0 ≤ P.stopTimeThreshold ∧ P.stopTimeThreshold < pf.float (now - t₀))) :
    StopInForce P pf now s := by
  refine ⟨h.1, ?_⟩
  rcases lt_or_ge P.stopTimeThreshold 0 with hthr | hthr
  · exact Or.inl hthr
  · -- the stop on record is not older than `t₀`, so its hold lasts at least as long
    have hle : pf.float (now - t₀) ≤ P.stopTimeThreshold := not_lt.mp fun hlt => hwin ⟨hthr, hlt⟩
    rcases h.2 with hneg | hlast
    · exact Or.inl hneg
    · refine Or.inr ?_
      calc pf.float (now - s.enableLastTime) ≤ pf.float (now - t₀) :=
          pf.float.mono (sub_le_sub_left hlast now)
        _ ≤ P.stopTimeThreshold := hle

variable {t₀} in
omit [FloorRing K] in
/-- A held stop whose hold is measured is in force until the hold time has passed since
`t₀`, by the clock. -/
theorem stopInForce_of_measured {now : K} (h : StopHeld P t₀ s)
    (hmeasured : HoldMeasured P pf now s)
    (hwin : ¬ (0 ≤ P.stopTimeThreshold ∧ P.stopTimeThreshold < now - t₀)) :
    StopInForce P pf now s := by
  refine ⟨h.1, ?_⟩
  rcases h.2 with hneg | hlast
  · exact Or.inl hneg
  · refine or_iff_not_imp_left.mpr ?_
    intro hthr
    by_contra hover
    -- over by the narrowed time, so over by the clock, and since `t₀` all the more
    have hclock := hmeasured h.1 (not_lt.mp hthr) (not_le.mp hover)
    refine hwin ⟨not_lt.mp hthr, ?_⟩
    calc P.stopTimeThreshold < now - s.enableLastTime := hclock
      _ ≤ now - t₀ := sub_le_sub_left hlast now

omit [IsStrictOrderedRing K] in
/-- What `run_static_callback` leaves of the stop state, command by command. -/
theorem runStatic_cases (now : K) (s : State K) (data : String) :
    (data = s.lastRunStaticCommand ∧ (runStaticCallback pf now s data).1 = s) ∨
    (runStaticCallback pf now s data).1.lastRunStaticCommand = data ∧
      ((data = "start" ∧ (runStaticCallback pf now s data).1.enableRun = true) ∨
       (data = "stop" ∧ (runStaticCallback pf now s data).1.enableRun = false ∧
          (runStaticCallback pf now s data).1.enableLastTime = now) ∨
       (data ≠ "start" ∧ data ≠ "stop" ∧
          (runStaticCallback pf now s data).1.enableRun = s.enableRun ∧
          (runStaticCallback pf now s data).1.enableLastTime = s.enableLastTime)) := by
  rcases runStaticCallback_cases pf now s data with ⟨hdup, heq⟩ | ⟨-, hcase⟩
  · exact Or.inl ⟨hdup, by rw [heq]⟩
  · refine Or.inr ?_
    rcases hcase with ⟨hstart, heq⟩ | ⟨hstop, -, heq⟩ | ⟨hstop, hoff, heq⟩ | ⟨hstart, hstop, heq⟩
    · rw [heq]
      exact ⟨rfl, Or.inl ⟨hstart, rfl⟩⟩
    · rw [heq]
      exact ⟨rfl, Or.inr (Or.inl ⟨hstop, rfl, rfl⟩)⟩
    · rw [heq]
      exact ⟨rfl, Or.inr (Or.inl ⟨hstop, hoff, rfl⟩)⟩
    · rw [heq]
      exact ⟨rfl, Or.inr (Or.inr ⟨hstart, hstop, rfl, rfl⟩)⟩

/-- A stop held since `t₀` closes the gate of `/cmd_vel` at `e`. -/
def HoldsGate (s : State K) (e : Timed K (Event K)) : Prop :=
  ∀ tw, e.ev = .cmdVel tw → StopHeld P t₀ s → StopInForce P pf e.time s

/-- **Segment step.** Whatever is delivered, other than a "start", leaves the stop held
as long as it closes the gate. -/
theorem stopHeld_step (h : StopHeld P t₀ s) (hstart : e.ev ≠ .runStatic "start")
    (hmono : t₀ ≤ e.time) (hgate : HoldsGate P pf t₀ s e) :
    StopHeld P t₀ (step P pf s e).1 := by
  obtain ⟨now, ev⟩ := e
  cases ev with
  | cmdVel tw =>
    -- the gate is closed, so the callback returns at once
    change StopHeld P t₀ (cmdVelCallback P pf now s tw).1
    rw [cmdVelCallback_eq, if_pos (hgate tw rfl h)]
    exact h
  | twistCmd tw => exact h
  | runStatic data =>
    -- a repeated string and an unknown one change nothing, and a "stop" is newer than `t₀`
    change StopHeld P t₀ (runStaticCallback pf now s data).1
    rcases runStatic_cases pf now s data with ⟨-, heq⟩ | ⟨-, hcase⟩
    · rw [heq]
      exact h
    · rcases hcase with ⟨rfl, -⟩ | ⟨-, hrun, htime⟩ | ⟨-, -, hrun, htime⟩
      · exact absurd rfl hstart
      · exact ⟨hrun, Or.inr (by rw [htime]; exact hmono)⟩
      · exact ⟨by rw [hrun]; exact h.1, by rw [htime]; exact h.2⟩
  | canTx msg =>
    obtain ⟨hsame, -⟩ := canTx_frame P pf now s msg
    refine ⟨?_, ?_⟩
    · exact hsame.enableRun.trans h.1
    · refine h.2.imp_right ?_
      intro hlast
      exact hlast.trans hsame.enableLastTime.ge

/-- **Segment run.** A stop held at `t₀` is held after any segment that delivers no
"start", and over which it closes the gate. -/
theorem stopHeld_run {pre mid : Run K} (c : K) (h : StopHeld P t₀ (stateAfter P pf c pre))
    (hstart : ∀ e ∈ mid, e.ev ≠ .runStatic "start") (hmono : ∀ e ∈ mid, t₀ ≤ e.time)
    (hgate : Each (fun p e => HoldsGate P pf t₀ (stateAfter P pf c (pre ++ p)) e) mid) :
    StopHeld P t₀ (stateAfter P pf c (pre ++ mid)) := by
  induction mid using List.reverseRecOn with
  | nil => rwa [List.append_nil]
  | append_singleton mid e ih =>
    obtain ⟨hgates, hlast⟩ := each_concat.mp hgate
    have hheld := ih (fun e' he' => hstart e' (by simp [he']))
      (fun e' he' => hmono e' (by simp [he'])) hgates
    rw [← List.append_assoc, stateAfter, Machine.run_concat]
    exact stopHeld_step P pf t₀ hheld (hstart e (by simp)) (hmono e (by simp)) hlast

/-- While a stop that cannot expire is the last command, the node is disabled. -/
def StopPermanent (s : State K) : Prop :=
  P.stopTimeThreshold < 0 → s.lastRunStaticCommand = "stop" → s.enableRun = false

theorem stopPermanent_step (h : StopPermanent P s) : StopPermanent P (step P pf s e).1 := by
  intro hthr hlast
  obtain ⟨now, ev⟩ := e
  cases ev with
  | cmdVel tw =>
    change (cmdVelCallback P pf now s tw).1.lastRunStaticCommand = "stop" at hlast
    change (cmdVelCallback P pf now s tw).1.enableRun = false
    rw [cmdVelCallback_eq] at hlast ⊢
    by_cases hforce : StopInForce P pf now s
    · rw [if_pos hforce]
      exact hforce.1
    · -- an open gate means that the node was enabled, so "stop" was not the last command
      rw [if_neg hforce] at hlast
      exact absurd ⟨h hthr hlast, Or.inl hthr⟩ hforce
  | twistCmd tw => exact h hthr hlast
  | runStatic data =>
    change (runStaticCallback pf now s data).1.lastRunStaticCommand = "stop" at hlast
    change (runStaticCallback pf now s data).1.enableRun = false
    rcases runStatic_cases pf now s data with ⟨-, heq⟩ | ⟨hdata, hcase⟩
    · rw [heq] at hlast ⊢
      exact h hthr hlast
    · rw [hdata] at hlast
      rcases hcase with ⟨rfl, -⟩ | ⟨-, hrun, -⟩ | ⟨-, hstop, -⟩
      · exact absurd hlast (by decide)
      · -- this very "stop"
        exact hrun
      · exact absurd hlast hstop
  | canTx msg =>
    obtain ⟨hsame, -⟩ := canTx_frame P pf now s msg
    change (canTxCallback P pf now s msg).1.lastRunStaticCommand = "stop" at hlast
    change (canTxCallback P pf now s msg).1.enableRun = false
    rw [hsame.enableRun]
    exact h hthr (by rw [← hsame.lastRunStaticCommand]; exact hlast)

end Segment

/-! ### Every stop that is heard is honoured -/

section Runs

variable (t₀ : K)

theorem stopPermanent_run (es : Run K) : StopPermanent P (stateAfter P pf t₀ es) := by
  refine (wtbCarNode P pf t₀).invariant_runFrom ?_ ?_
  · intro s e _ h
    exact stopPermanent_step P pf h
  · -- the last command string starts out empty
    intro _ hlast
    exact absurd (show "" = "stop" from hlast) (by decide)

/-- A stop that is heard establishes the segment invariant. -/
theorem stopHeld_of_heard {pre : Run K} {t : K}
    (h : HearsStop P t (stateAfter P pf t₀ pre)) :
    StopHeld P t (stateAfter P pf t₀ (pre ++ [⟨t, .runStatic "stop"⟩])) := by
  rw [stateAfter, Machine.run_concat]
  change StopHeld P t (runStaticCallback pf t (stateAfter P pf t₀ pre) "stop").1
  rcases runStatic_cases pf t (stateAfter P pf t₀ pre) "stop" with ⟨hdup, heq⟩ | ⟨-, hcase⟩
  · -- the filter drops the message: the state is the one before it
    rw [heq]
    rcases h with hlast | hthr | ⟨hrun, htime⟩
    · exact absurd hdup.symm hlast
    · exact ⟨stopPermanent_run P pf t₀ pre hthr hdup.symm, Or.inl hthr⟩
    · exact ⟨hrun, Or.inr htime.ge⟩
  · rcases hcase with ⟨hne, -⟩ | ⟨-, hrun, htime⟩ | ⟨-, hne, -⟩
    · exact absurd hne (by decide)
    · exact ⟨hrun, Or.inr htime.ge⟩
    · exact absurd rfl hne

/-- A stop that is heard silences `/cmd_vel` until a "start", as long as it closes the
gate. -/
theorem cmdVel_silent_of_heard {pre mid : Run K} {t t' : K} {tw : Twist K}
    (hheard : HearsStop P t (stateAfter P pf t₀ pre))
    (hstart : ∀ e ∈ mid, e.ev ≠ .runStatic "start") (hmono : ∀ e ∈ mid, t ≤ e.time)
    (hgate : Each (fun p e => HoldsGate P pf t
      (stateAfter P pf t₀ (pre ++ [⟨t, .runStatic "stop"⟩] ++ p)) e) (mid ++ [⟨t', .cmdVel tw⟩])) :
    frames (cmdVelCallback P pf t'
      (stateAfter P pf t₀ (pre ++ ⟨t, .runStatic "stop"⟩ :: mid)) tw).2 = [] := by
  obtain ⟨hgates, hlast⟩ := each_concat.mp hgate
  -- carry the stop over the segment up to the command
  have hseg := stopHeld_run P pf t t₀ (stopHeld_of_heard P pf t₀ hheard) hstart hmono hgates
  have hforce := hlast tw rfl hseg
  rw [List.append_assoc, List.singleton_append] at hforce
  rw [cmdVelCallback_eq, if_pos hforce]
  rfl

/-- **The stop hold.** In every run whose clock does not go back, in which every
delivered "stop" is heard and every hold measured, the latest stop holds on `/cmd_vel`
until a "start" or until its hold time is over, and every stop disables the node. -/
theorem stop_hold {es : Run K} (hclock : NonDecreasing es)
    (hheard : Each (StopHeard P pf t₀) es) (hmeasured : Each (HoldMeasuredAt P pf t₀) es) :
    StopHolds P pf t₀ es ∧ StopDisables P pf t₀ es := by
  refine ⟨?_, ?_⟩
  · intro pre mid post t t' tw hes hmid hwin f hf
    have hsplit : es = pre ++ ⟨t, .runStatic "stop"⟩ :: (mid ++ ⟨t', .cmdVel tw⟩ :: post) := by
      rw [hes]; simp
    obtain ⟨htt', hbetween⟩ := NonDecreasing.between (hes ▸ hclock)
    -- what is not over at the command is not over at any event before it
    have hbefore : ∀ e ∈ mid ++ [(⟨t', .cmdVel tw⟩ : Timed K (Event K))], e.time ≤ t' := by
      intro e he
      rcases List.mem_append.mp he with h | h
      · exact (hbetween e h).2
      · obtain rfl := List.mem_singleton.mp h
        exact le_refl _
    have hgate : Each (fun p e => HoldsGate P pf t
        (stateAfter P pf t₀ (pre ++ [⟨t, .runStatic "stop"⟩] ++ p)) e)
        (mid ++ [⟨t', .cmdVel tw⟩]) := by
      intro p e q hpq tw' hev hheld
      refine stopInForce_of_measured P pf hheld (hmeasured _ e (q ++ post) ?_ tw' hev) ?_
      · rw [hsplit, ← List.singleton_append (x := ⟨t', .cmdVel tw⟩) (l := post),
          ← List.append_assoc mid, hpq]
        simp
      · rintro ⟨hthr, hover⟩
        refine hwin ⟨hthr, lt_of_lt_of_le hover (sub_le_sub_right (hbefore e ?_) t)⟩
        rw [hpq]
        simp
    -- no frame is sent at all
    rw [cmdVel_silent_of_heard P pf t₀ (hheard pre _ _ hsplit rfl) (fun e he => (hmid e he).1)
      (fun e he => (hbetween e he).1) hgate] at hf
    exact absurd hf List.not_mem_nil
  · intro pre post t hes
    exact (stopHeld_of_heard P pf t₀ (hheard pre _ _ hes rfl)).1

end Runs

/-! ### The stop that is not heard -/

/-- A "stop" whose hold expires, and a second "stop" that the duplicate filter
drops: the command one second later drives on. -/
def repeatedStop : Run ℚ :=
  [⟨0, .runStatic "stop"⟩, ⟨4, .cmdVel ⟨.fin 1, .fin 0⟩⟩, ⟨5, .runStatic "stop"⟩,
    ⟨6, .cmdVel ⟨.fin 1, .fin 0⟩⟩]

/-- With the default parameters `repeatedStop` breaks both laws. -/
theorem repeatedStop_drives_on :
    NonDecreasing repeatedStop ∧
      ¬ StopHolds Params.default Platform.rat 0 repeatedStop ∧
      ¬ StopDisables Params.default Platform.rat 0 repeatedStop := by
  refine ⟨by unfold NonDecreasing; decide +kernel, ?_, ?_⟩
  · -- the second stop is one second old when the command arrives
    intro h
    have hzero := h [⟨0, .runStatic "stop"⟩, ⟨4, .cmdVel ⟨.fin 1, .fin 0⟩⟩] [] [] 5 6
      ⟨.fin 1, .fin 0⟩ rfl (by simp) (by norm_num [Params.default])
    revert hzero
    decide +kernel
  · intro h
    have hoff := h [⟨0, .runStatic "stop"⟩, ⟨4, .cmdVel ⟨.fin 1, .fin 0⟩⟩]
      [⟨6, .cmdVel ⟨.fin 1, .fin 0⟩⟩] 5 rfl
    revert hoff
    decide +kernel

/-- The default parameters with a hold of 1.1 s. -/
def holdOneTenth : Params ℚ := { Params.default with stopTimeThreshold := 11 / 10 }

/-- A stop, and a command 1.09999999 s after the stop, which is above 1.1 s as a
`float`. -/
def narrowedHold : Run ℚ :=
  [⟨0, .runStatic "stop"⟩, ⟨109999999 / 100000000, .cmdVel ⟨.fin 1, .fin 0⟩⟩]

/-- With a hold of 1.1 s the command of `narrowedHold` drives inside it: the stop is heard,
but its hold is not measured. -/
theorem narrowedHold_drives_on :
    ¬ StopHolds holdOneTenth Platform.rat 0 narrowedHold ∧
      ¬ HoldMeasured holdOneTenth Platform.rat
        (109999999 / 100000000)
        (stateAfter holdOneTenth Platform.rat 0 [⟨0, .runStatic "stop"⟩]) := by
  refine ⟨?_, by decide +kernel⟩
  intro h
  have hzero := h [] [] [] 0 (109999999 / 100000000) ⟨.fin 1, .fin 0⟩ rfl (by simp)
    (by norm_num [holdOneTenth])
  revert hzero
  decide +kernel

/-- `stop_hold` on a run with one stop, a command inside the hold time, and
another stop after a "start". -/
theorem stop_hold_startBetween :
    StopHolds Params.default Platform.rat 0
        [⟨0, .runStatic "stop"⟩, ⟨2, .cmdVel ⟨.fin 1, .fin 0⟩⟩, ⟨3, .runStatic "start"⟩,
          ⟨4, .runStatic "stop"⟩] ∧
      StopDisables Params.default Platform.rat 0
        [⟨0, .runStatic "stop"⟩, ⟨2, .cmdVel ⟨.fin 1, .fin 0⟩⟩, ⟨3, .runStatic "start"⟩,
          ⟨4, .runStatic "stop"⟩] := by
  refine stop_hold Params.default Platform.rat 0 (by unfold NonDecreasing; decide +kernel) ?_
    (fun _ e _ _ _ _ =>
      holdMeasured_of_float Params.default Platform.rat (by decide +kernel) e.time _)
  have hlast (pre : Run ℚ) (e : Timed ℚ (Event ℚ))
      (h : (stateAfter Params.default Platform.rat 0 pre).lastRunStaticCommand ≠ "stop") :
      StopHeard Params.default Platform.rat 0 pre e := fun _ => Or.inl h
  rw [each_iff_getElem]
  intro i hi
  -- the two stops follow nothing and a "start"
  match i, hi with
  | 0, _ => exact hlast _ _ (by decide +kernel)
  | 1, _ => exact fun h => absurd h (by simp)
  | 2, _ => exact fun h => absurd h (by simp)
  | 3, _ => exact hlast _ _ (by decide +kernel)

/-! ### Which callbacks respect a stop in force -/

/-- The event `e` is handled as a stop in force demands: no frame with a nonzero
speed field is sent, and a command on `/twist_cmd` is gated exactly as the same
command on `/cmd_vel` would be. -/
def RespectsStop (s : State K) (e : Timed K (Event K)) : Prop :=
  (∀ f ∈ frames (step P pf s e).2, speedField f = 0) ∧
    ∀ ts : TwistStamped K, e.ev = .twistCmd ts →
      frames (step P pf s e).2 = frames (step P pf s ⟨e.time, .cmdVel ts.twist⟩).2

/-- Under a stop in force nothing but `/twist_cmd` sends a frame. -/
theorem frames_step_of_stopInForce {s : State K} {e : Timed K (Event K)}
    (h : StopInForce P pf e.time s) (hne : ∀ ts, e.ev ≠ .twistCmd ts) :
    frames (step P pf s e).2 = [] := by
  obtain ⟨now, ev⟩ := e
  cases ev with
  | cmdVel tw =>
    change frames (cmdVelCallback P pf now s tw).2 = []
    rw [cmdVelCallback_eq, if_pos h]
    rfl
  | twistCmd ts => exact absurd rfl (hne ts)
  | runStatic data =>
    change frames (runStaticCallback pf now s data).2 = []
    rcases runStaticCallback_cases pf now s data with ⟨-, heq⟩ | ⟨-, hcase⟩
    · rw [heq]
      rfl
    · rcases hcase with ⟨-, heq⟩ | ⟨-, hon, -⟩ | ⟨-, -, heq⟩ | ⟨-, -, heq⟩
      · rw [heq]
        rfl
      · -- the node is already disabled, so not even a "stop" sends its zero frames
        exact absurd (hon.symm.trans h.1) (by decide)
      · rw [heq]
        rfl
      · rw [heq]
        rfl
  | canTx msg => exact (canTx_frame P pf now s msg).2

/-- **A stop in force covers exactly the callbacks other than `/twist_cmd`.** In
every reachable state with a stop in force, the next callback respects the stop
if and only if it does not deliver a `/twist_cmd` message: `TwistCmdVelCallback`
does not look at `enable_run_`. -/
theorem stop_gates_iff (t₀ : K) (es : Run K) (e : Timed K (Event K))
    (h : StopInForce P pf e.time (stateAfter P pf t₀ es)) :
    RespectsStop P pf (stateAfter P pf t₀ es) e ↔ ∀ ts, e.ev ≠ .twistCmd ts := by
  refine ⟨?_, ?_⟩
  · rintro ⟨-, hgate⟩ ts hev
    -- the same command on `/cmd_vel` sends nothing, while `/twist_cmd` sends three frames
    have hsame := hgate ts hev
    rw [frames_step_of_stopInForce P pf (e := ⟨e.time, .cmdVel ts.twist⟩) h (by simp)] at hsame
    obtain ⟨now, ev⟩ := e
    obtain rfl : ev = .twistCmd ts := hev
    change frames (limitAndSend P pf now _ ts.twist).2 = [] at hsame
    rw [limitAndSend, sendSpeedToAKM_eq] at hsame
    exact absurd hsame (by simp)
  · intro hne
    rw [RespectsStop, frames_step_of_stopInForce P pf h hne]
    exact ⟨by simp, fun ts hev => absurd hev (hne ts)⟩

/-- One second into a hold of three, a `/twist_cmd` of 1 m/s is driven. -/
theorem twistCmd_ignores_stop :
    StopInForce Params.default Platform.rat 1
        (stateAfter Params.default Platform.rat 0 [⟨0, .runStatic "stop"⟩]) ∧
      ∃ f ∈ frames (step Params.default Platform.rat
          (stateAfter Params.default Platform.rat 0 [⟨0, .runStatic "stop"⟩])
          ⟨1, .twistCmd ⟨⟨1, "base_link"⟩, ⟨.fin 1, .fin 0⟩⟩⟩).2,
        speedField f ≠ 0 := by
  refine ⟨⟨by decide +kernel, ?_⟩, by decide +kernel⟩
  decide +kernel

/-- `stop_gates_iff` at a `/cmd_vel` command one second into a hold. -/
theorem stop_gates_cmdVel :
    RespectsStop Params.default Platform.rat
      (stateAfter Params.default Platform.rat 0 [⟨0, .runStatic "stop"⟩])
      ⟨1, .cmdVel ⟨.fin 1, .fin 0⟩⟩ :=
  (stop_gates_iff Params.default Platform.rat 0 [⟨0, .runStatic "stop"⟩] ⟨1, _⟩
    ⟨by decide +kernel, by decide +kernel⟩).mpr (by simp)

end Driver
end WtbAutoware
