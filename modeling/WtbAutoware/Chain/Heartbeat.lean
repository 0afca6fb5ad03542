import WtbAutoware.Chain.Topics
import WtbAutoware.Driver.StopHold

/-!
# An external stop and the heartbeat

While its gear is DRIVE, the vehicle interface publishes "start" on `/run_static`
every 100 ms, to keep the chassis in the start state. The driver cannot tell that
"start" from one that an operator sends: `heartbeat_cancels_stop` is a run in which the
first tick after an external "stop" lets the next `/cmd_vel` command drive.

What the nodes do guarantee is `stop_until_cancelled`: after an external "stop"
that is heard, `/cmd_vel` stays silent until the hold time is over, an external
"start" is processed, or a heartbeat is (`HeartbeatProcessed`): a "start" that
`onTimer` published in DRIVE, and that was in flight when the stop was processed
or was published since. So an interface that has left DRIVE, with no heartbeat
left in flight, cannot cancel a stop.

The proof reads the run through its two projections: the driver's is a run of
`wtbCarNode`, where `cmdVel_silent_of_heard` applies as long as no "start" is
handled, and the envelope of a "start" that is handled names the tick that posted
it.
-/

namespace WtbAutoware
namespace Chain

open Reactive Driver

variable {K : Type} [Field K] [LinearOrder K] [IsStrictOrderedRing K] [FloorRing K]
  (C : Config K)

/-! ### The laws -/

/-- The hold time of a stop at `t` is over at `t'`, as the driver measures the time
between them: in seconds that are narrowed to `float`. -/
def HoldOver (t t' : K) : Prop :=
  0 ≤ C.driver.stopTimeThreshold ∧ C.driver.stopTimeThreshold < C.platform.float (t' - t)

instance (t t' : K) : Decidable (HoldOver C t t') := inferInstanceAs (Decidable (_ ∧ _))

/-- A "start" from outside is processed in the segment. -/
def ExternalStart {K : Type} (mid : Run K) : Prop :=
  ∃ u, (.outside ⟨u, .runStatic "start"⟩ : LinkEvent K _ _) ∈ mid

/-- In the segment `mid` from the state `s` the driver processes a heartbeat
"start", which the interface published in DRIVE, on a tick: before the segment, so
that it is in flight in `s`, or on a tick of the segment. -/
def HeartbeatProcessed (s : State K) (mid : Run K) : Prop :=
  ∃ p i u q env, mid = p ++ .deliver i u :: q ∧
    (C.chain.machine.runFrom s p).flight[i]? = some env ∧
    env.msg = .runStatic "start" ∧ env.cause.ev = .timer ∧
    env.src.currentGear = C.msgs.gearCommand.drive ∧
    (env ∈ s.flight ∨ ∃ p' q', p = p' ++ .up env.cause :: q' ∧
      env.src = (C.chain.machine.runFrom s p').up)

/-- After every external "stop", `/cmd_vel` sends no nonzero speed until an
external "start" is processed or the hold time is over. -/
def StopUntilExternalStart (es : Run K) : Prop :=
  ∀ pre t mid ce post t' tw,
    es = pre ++ .outside ⟨t, .runStatic "stop"⟩ :: mid ++ ce :: post →
    (C.after (pre ++ .outside ⟨t, .runStatic "stop"⟩ :: mid)).handled ce =
      some ⟨t', .cmdVel tw⟩ →
    ¬ HoldOver C t t' → ¬ ExternalStart mid →
    ∀ f ∈ frames (cmdVelCallback C.driver C.platform t'
        (C.after (pre ++ .outside ⟨t, .runStatic "stop"⟩ :: mid)).down tw).2,
      speedField f = 0

/-! ### Starts that the driver processes -/

section Starts

variable {pre mid : Run K} {s : State K} {e : Timed K (Driver.Event K)}

/-- A message that the driver handles in a segment came from outside, or was in
flight. -/
theorem outside_or_deliver (h : e ∈ C.chain.handledFrom s mid) :
    (.outside e : LinkEvent K _ _) ∈ mid ∨
      ∃ p i q env, mid = p ++ .deliver i e.time :: q ∧
        (C.chain.machine.runFrom s p).flight[i]? = some env ∧ env.msg = e.ev := by
  obtain ⟨p, ce, q, rfl, hce⟩ := C.chain.mem_handledFrom h
  cases ce with
  | up e' => exact absurd hce (by simp [LinkState.handled])
  | lose i => exact absurd hce (by simp [LinkState.handled])
  | outside e' =>
    obtain rfl := Option.some.inj hce
    exact Or.inl (by simp)
  | deliver i t =>
    obtain ⟨env, henv, rfl⟩ := Option.map_eq_some_iff.mp hce
    exact Or.inr ⟨p, i, q, env, rfl, henv, rfl⟩

/-- A "start" that the driver handles in a segment is external, or a heartbeat. -/
theorem start_external_or_heartbeat (h : e ∈ C.chain.handledFrom (C.after pre) mid)
    (hev : e.ev = .runStatic "start") :
    ExternalStart mid ∨ HeartbeatProcessed C (C.after pre) mid := by
  rcases outside_or_deliver C h with hout | ⟨p, i, q, env, rfl, henv, hmsg⟩
  · obtain ⟨u, ev⟩ := e
    obtain rfl : ev = .runStatic "start" := hev
    exact Or.inl ⟨u, hout⟩
  · have hmem := List.mem_of_getElem? henv
    have hstart : env.msg = .runStatic "start" := hmsg.trans hev
    -- the envelope was posted by a tick of the interface, in DRIVE
    have hposted : env ∈ C.chain.posted env.src env.cause := by
      have hrun : env ∈ (C.chain.machine.run (pre ++ p)).flight := by
        rw [Machine.run_append]
        exact hmem
      exact (C.chain.posted_of_mem_flight hrun).2
    obtain ⟨htimer, -, hdrive⟩ := C.heartbeat_of_posted hposted hstart
    refine Or.inr ⟨p, i, e.time, q, env, rfl, henv, hstart, htimer, hdrive, ?_⟩
    -- it was in flight when the segment began, or its tick lies in the segment
    rcases C.chain.mem_flight_runFrom hmem with hold | ⟨p', q', hp, hsrc, -⟩
    · exact Or.inl hold
    · exact Or.inr ⟨p', q', hp, hsrc⟩

end Starts

/-! ### The stop on the linked nodes -/

/-- **An external stop holds until it is cancelled.** In every run of the two
nodes whose driver clock does not go back: if a `/cmd_vel` command sends a nonzero
speed after an external "stop" that was heard, then the hold time of that stop is
over, or an external "start" was processed since, or a heartbeat was. -/
theorem stop_until_cancelled (es pre mid post : Run K)
    (ce : LinkEvent K (Timed K (Interface.Event K)) (Driver.Event K)) (t t' : K) (tw : Twist K)
    (hclock : NonDecreasing (C.chain.downEvents es))
    (hes : es = pre ++ .outside ⟨t, .runStatic "stop"⟩ :: mid ++ ce :: post)
    (hheard : HearsStop C.driver t (C.after pre).down)
    (hce : (C.after (pre ++ .outside ⟨t, .runStatic "stop"⟩ :: mid)).handled ce =
      some ⟨t', .cmdVel tw⟩)
    (hmoves : ∃ f ∈ frames (cmdVelCallback C.driver C.platform t'
        (C.after (pre ++ .outside ⟨t, .runStatic "stop"⟩ :: mid)).down tw).2,
      speedField f ≠ 0) :
    HoldOver C t t' ∨ ExternalStart mid ∨
      HeartbeatProcessed C (C.after (pre ++ [.outside ⟨t, .runStatic "stop"⟩])) mid := by
  -- what the driver handles up to the command: the run before the stop, the stop, the segment
  have hsplit : C.chain.downEvents (pre ++ .outside ⟨t, .runStatic "stop"⟩ :: mid) =
      C.chain.downEvents pre ++ ⟨t, .runStatic "stop"⟩ ::
        C.chain.handledFrom (C.after (pre ++ [.outside ⟨t, .runStatic "stop"⟩])) mid := by
    rw [C.chain.downEvents_append, C.chain.handledFrom_cons_of_handled rfl,
      ← C.chain.machine.run_concat]
  have hdown : (C.after (pre ++ .outside ⟨t, .runStatic "stop"⟩ :: mid)).down =
      stateAfter C.driver C.platform C.driverStart (C.chain.downEvents pre ++
        ⟨t, .runStatic "stop"⟩ ::
          C.chain.handledFrom (C.after (pre ++ [.outside ⟨t, .runStatic "stop"⟩])) mid) := by
    rw [C.after_down, hsplit]
  have hbetween : ∀ e ∈
      C.chain.handledFrom (C.after (pre ++ [.outside ⟨t, .runStatic "stop"⟩])) mid,
      t ≤ e.time ∧ e.time ≤ t' := by
    rw [hes, C.chain.downEvents_append, hsplit, C.chain.handledFrom_cons_of_handled hce] at hclock
    exact hclock.between.2
  -- the driver's side of the run is a run of the driver
  rw [C.after_down] at hheard
  -- suppose that none of the three has happened: then no "start" was handled
  by_contra hnone
  rw [not_or, not_or] at hnone
  obtain ⟨hover, hexternal, hheartbeat⟩ := hnone
  have hstart : ∀ e ∈ C.chain.handledFrom (C.after (pre ++ [.outside ⟨t, .runStatic "stop"⟩])) mid,
      e.ev ≠ .runStatic "start" := by
    intro e he hev
    rcases start_external_or_heartbeat C he hev with h | h
    · exact hexternal h
    · exact hheartbeat h
  -- and without one the driver's gate is closed, up to the command
  have hbefore : ∀ e ∈
      C.chain.handledFrom (C.after (pre ++ [.outside ⟨t, .runStatic "stop"⟩])) mid ++
        [(⟨t', .cmdVel tw⟩ : Timed K (Driver.Event K))], e.time ≤ t' := by
    intro e he
    rcases List.mem_append.mp he with h | h
    · exact (hbetween e h).2
    · obtain rfl := List.mem_singleton.mp h
      exact le_refl _
  obtain ⟨f, hf, -⟩ := hmoves
  rw [hdown, @cmdVel_silent_of_heard _ _ _ _ _ C.driver C.platform C.driverStart _ _ t t' tw hheard
    hstart (fun e he => (hbetween e he).1) ?_] at hf
  · exact absurd hf List.not_mem_nil
  · intro p e q hpq _ _ hheld
    refine stopInForce_of_held C.driver C.platform hheld ?_
    rintro ⟨hthr, hexp⟩
    -- what is over at `e` is over at the command
    refine hover ⟨hthr, lt_of_lt_of_le hexp (C.platform.float.mono (sub_le_sub_right ?_ t))⟩
    exact hbefore e (by rw [hpq]; simp)

/-! ### The heartbeat that cancels a stop -/

/-- An external "stop", a tick of the interface in DRIVE, the heartbeat of that
tick, and a command 0.2 s after the stop. -/
def heartbeatRun : Run ℚ :=
  [.outside ⟨0, .runStatic "stop"⟩, .up ⟨1 / 10, .timer⟩, .deliver 0 (3 / 20),
    .outside ⟨1 / 5, .cmdVel ⟨.fin 1, .fin 0⟩⟩]

/-- With the default parameters `heartbeatRun` drives on through the stop. -/
theorem heartbeat_cancels_stop :
    NonDecreasing (Config.default.chain.downEvents heartbeatRun) ∧
      ¬ StopUntilExternalStart Config.default heartbeatRun := by
  refine ⟨by unfold NonDecreasing; decide +kernel, ?_⟩
  intro h
  -- the command is 0.2 s younger than the stop, and the only "start" came from the interface
  have hzero := h [] 0 [.up ⟨1 / 10, .timer⟩, .deliver 0 (3 / 20)]
    (.outside ⟨1 / 5, .cmdVel ⟨.fin 1, .fin 0⟩⟩) [] (1 / 5) ⟨.fin 1, .fin 0⟩ rfl rfl
    (by decide +kernel) (by simp [ExternalStart])
  revert hzero
  decide +kernel

/-- `stop_until_cancelled` on `heartbeatRun`, where the heartbeat is to blame. -/
theorem stop_until_cancelled_heartbeat :
    HoldOver Config.default 0 (1 / 5) ∨
      ExternalStart ([.up ⟨1 / 10, .timer⟩, .deliver 0 (3 / 20)] : Run ℚ) ∨
      HeartbeatProcessed Config.default (Config.default.after [.outside ⟨0, .runStatic "stop"⟩])
        [.up ⟨1 / 10, .timer⟩, .deliver 0 (3 / 20)] :=
  stop_until_cancelled Config.default heartbeatRun [] [.up ⟨1 / 10, .timer⟩, .deliver 0 (3 / 20)] []
    (.outside ⟨1 / 5, .cmdVel ⟨.fin 1, .fin 0⟩⟩) 0 (1 / 5) ⟨.fin 1, .fin 0⟩
    (by unfold NonDecreasing; decide +kernel) rfl (Or.inl (by decide +kernel)) rfl
    (by decide +kernel)

end Chain
end WtbAutoware
