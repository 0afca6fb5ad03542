import WtbAutoware.Driver.Node

/-!
# The stream of control frames

Every control frame that the node publishes is well formed and carries the
number of its position in the stream, modulo 16 (`WellFormed`), and the stream
is cut into groups of three, one for each command that is acted on and one for
each `stop()` (`IsGroup`, `Acts`).

The rolling counter is advanced inside the frame encoder, so the encoder's three
callers share it. The proof runs on one fact about a step, `frames_step`: a step
that acts sends the three frames that `sendSpeedToAKM_eq` describes, and a step
that does not act sends none and leaves the counter alone. `stream_from` carries
the number of the next frame, `n`, along a run by `aliveCounter = n mod 16`.
-/

namespace WtbAutoware
namespace Driver

open Reactive

variable {K : Type} [Field K] [LinearOrder K] [FloorRing K]

/-! ### One frame -/

/-- A well-formed control frame with the number `k`. -/
structure WellFormed (k : ℕ) (f : Frame K) : Prop where
  id : f.id = 0x18C4D2D0
  isExtended : f.isExtended = true
  dlc : f.dlc = 8
  payload : WellFormedPayload k f.data

/-- Three frames in a row with identical bytes 0 to 5. -/
def IsGroup (g : List (Frame K)) : Prop :=
  ∃ f₀ f₁ f₂ : Frame K, g = [f₀, f₁, f₂] ∧
    ∀ (i : ℕ) (_ : i < 6), f₀.data[i] = f₁.data[i] ∧ f₁.data[i] = f₂.data[i]

@[simp] theorem toNat_nextAlive (c : BitVec 8) : (nextAlive c).toNat = (c.toNat + 1) % 16 := by
  rw [nextAlive, BitVec.toNat_ofNat]
  omega

variable (pf : Platform K)

theorem akmFrame_wellFormed (now : K) {c : BitVec 8} {k : ℕ} (hc : c.toNat = k % 16)
    (lineSpeed angle : Flt K) : WellFormed k (akmFrame pf now c lineSpeed angle) where
  id := rfl
  isExtended := rfl
  dlc := rfl
  payload := by
    have hgear : (akmCommand pf lineSpeed angle).1 = .D ∨
        (akmCommand pf lineSpeed angle).1 = .R := by
      unfold akmCommand
      dsimp only
      split
      · exact Or.inr rfl
      · exact Or.inl rfl
    exact ctrlBytes_wellFormed hgear _ _ hc

/-- The counter is in byte 6, and from there in the checksum; bytes 0 to 5 do
not depend on it. -/
theorem akmFrame_bytes (now : K) (c c' : BitVec 8) (lineSpeed angle : Flt K) (i : ℕ) (h : i < 6) :
    (akmFrame pf now c lineSpeed angle).data[i] = (akmFrame pf now c' lineSpeed angle).data[i] := by
  -- byte by byte, the counter does not occur
  interval_cases i <;> rfl

/-! ### One step -/

variable [IsStrictOrderedRing K] (P : Params K)

/-- The step acts on a command, or calls `stop()`: a `/cmd_vel` that passes the
gate, any `/twist_cmd`, or a "stop" that is not a duplicate and finds the node
enabled. -/
def Acts (s : State K) (e : Timed K (Event K)) : Prop :=
  match e.ev with
  | .cmdVel _ => ¬ StopInForce P pf e.time s
  | .twistCmd _ => True
  | .runStatic data => data = "stop" ∧ data ≠ s.lastRunStaticCommand ∧ s.enableRun = true
  | .canTx _ => False

instance (s : State K) (e : Timed K (Event K)) : Decidable (Acts pf P s e) :=
  match e with
  | ⟨now, .cmdVel _⟩ => inferInstanceAs (Decidable (¬ StopInForce P pf now s))
  | ⟨_, .twistCmd _⟩ => isTrue trivial
  | ⟨_, .runStatic data⟩ => inferInstanceAs
      (Decidable (data = "stop" ∧ data ≠ s.lastRunStaticCommand ∧ s.enableRun = true))
  | ⟨_, .canTx _⟩ => isFalse id

/-- The step sends the three frames of one command, from the counter `c` on. -/
def SendsAt (now : K) (c : BitVec 8) (r : State K × List (Output K)) : Prop :=
  ∃ lineSpeed angle : Flt K,
    frames r.2 = [akmFrame pf now c lineSpeed angle, akmFrame pf now (nextAlive c) lineSpeed angle,
      akmFrame pf now (nextAlive (nextAlive c)) lineSpeed angle] ∧
    r.1.aliveCounter = nextAlive (nextAlive (nextAlive c))

omit [IsStrictOrderedRing K] in
theorem sendsAt_sendSpeedToAKM (now : K) (s : State K) (lineSpeed angle : Flt K) :
    SendsAt pf now s.aliveCounter (sendSpeedToAKM pf now s lineSpeed angle) :=
  ⟨lineSpeed, angle, by rw [sendSpeedToAKM_eq]; rfl, rfl⟩

/-- **What a step does to the stream.** -/
theorem frames_step (s : State K) (e : Timed K (Event K)) :
    (Acts pf P s e ∧ SendsAt pf e.time s.aliveCounter (step P pf s e)) ∨
    (¬ Acts pf P s e ∧ frames (step P pf s e).2 = [] ∧
      (step P pf s e).1.aliveCounter = s.aliveCounter) := by
  obtain ⟨now, ev⟩ := e
  cases ev with
  | cmdVel tw =>
    change (¬ StopInForce P pf now s ∧
        SendsAt pf now s.aliveCounter (cmdVelCallback P pf now s tw)) ∨
      (¬ ¬ StopInForce P pf now s ∧ frames (cmdVelCallback P pf now s tw).2 = [] ∧
        (cmdVelCallback P pf now s tw).1.aliveCounter = s.aliveCounter)
    rw [cmdVelCallback_eq]
    by_cases hforce : StopInForce P pf now s
    · -- gated
      rw [if_pos hforce]
      exact Or.inr ⟨not_not.mpr hforce, rfl, rfl⟩
    · rw [if_neg hforce]
      exact Or.inl ⟨hforce, sendsAt_sendSpeedToAKM pf now { s with enableRun := true } _ _⟩
  | twistCmd ts => exact Or.inl ⟨trivial, sendsAt_sendSpeedToAKM pf now s _ _⟩
  | runStatic data =>
    change (_ ∧ SendsAt pf now s.aliveCounter (runStaticCallback pf now s data)) ∨
      (_ ∧ frames (runStaticCallback pf now s data).2 = [] ∧
        (runStaticCallback pf now s data).1.aliveCounter = s.aliveCounter)
    rcases runStaticCallback_cases pf now s data with ⟨hdup, heq⟩ | ⟨hdup, hcase⟩
    · rw [heq]
      exact Or.inr ⟨fun h => h.2.1 hdup, rfl, rfl⟩
    · rcases hcase with ⟨hstart, heq⟩ | ⟨hstop, hrun, heq⟩ | ⟨-, hoff, heq⟩ | ⟨-, hstop, heq⟩
      · rw [heq]
        exact Or.inr ⟨fun h => absurd (hstart.symm.trans h.1) (by decide), rfl, rfl⟩
      · -- the one command string that calls `stop()`
        rw [heq]
        exact Or.inl ⟨⟨hstop, hdup, hrun⟩, sendsAt_sendSpeedToAKM pf now _ _ _⟩
      · rw [heq]
        exact Or.inr ⟨fun h => absurd (hoff.symm.trans h.2.2) (by decide), rfl, rfl⟩
      · rw [heq]
        exact Or.inr ⟨fun h => hstop h.1, rfl, rfl⟩
  | canTx msg =>
    -- feedback sends no control frame
    obtain ⟨hsame, hout⟩ := canTx_frame P pf now s msg
    exact Or.inr ⟨id, hout, hsame.aliveCounter⟩

omit [IsStrictOrderedRing K] in
/-- The frames that a step sends are a group. -/
theorem SendsAt.isGroup {now : K} {c : BitVec 8} {r : State K × List (Output K)}
    (h : SendsAt pf now c r) : IsGroup (frames r.2) := by
  obtain ⟨lineSpeed, angle, hframes, -⟩ := h
  refine ⟨_, _, _, hframes, ?_⟩
  intro i hi
  refine ⟨?_, ?_⟩
  · exact akmFrame_bytes pf now _ _ lineSpeed angle i hi
  · exact akmFrame_bytes pf now _ _ lineSpeed angle i hi

omit [IsStrictOrderedRing K] in
/-- The frames that a step sends carry the next three numbers. -/
theorem SendsAt.wellFormed {now : K} {c : BitVec 8} {r : State K × List (Output K)} {n : ℕ}
    (h : SendsAt pf now c r) (hc : c.toNat = n % 16) :
    (∀ k f, (frames r.2)[k]? = some f → WellFormed (n + k) f) ∧
      (frames r.2).length = 3 ∧ r.1.aliveCounter.toNat = (n + 3) % 16 := by
  obtain ⟨lineSpeed, angle, hframes, hcounter⟩ := h
  have h1 : (nextAlive c).toNat = (n + 1) % 16 := by rw [toNat_nextAlive]; omega
  have h2 : (nextAlive (nextAlive c)).toNat = (n + 2) % 16 := by rw [toNat_nextAlive]; omega
  refine ⟨?_, by rw [hframes]; rfl, by rw [hcounter, toNat_nextAlive]; omega⟩
  intro k f hf
  rw [hframes] at hf
  -- the three frames, and nothing behind them
  rcases k with _ | _ | _ | k
  · obtain rfl := Option.some.inj hf
    exact akmFrame_wellFormed pf now hc lineSpeed angle
  · obtain rfl := Option.some.inj hf
    exact akmFrame_wellFormed pf now h1 lineSpeed angle
  · obtain rfl := Option.some.inj hf
    exact akmFrame_wellFormed pf now h2 lineSpeed angle
  · simp at hf

/-! ### The stream of a run -/

/-- The steps of a run that act, each with the state it starts from. -/
def actingFrom (s : State K) : List (Timed K (Event K)) → List (State K × Timed K (Event K))
  | [] => []
  | e :: es =>
    if Acts pf P s e then (s, e) :: actingFrom (step P pf s e).1 es
    else actingFrom (step P pf s e).1 es

/-- **The stream from a state.** If the next frame has the number `n`, the
frames of any run from there are well formed and numbered from `n` on, and they
are the groups of its acting steps, one after the other. -/
theorem stream_from (t₀ : K) (s : State K) {n : ℕ} (hn : s.aliveCounter.toNat = n % 16)
    (es : List (Timed K (Event K))) :
    (∀ k f, (frames ((wtbCarNode P pf t₀).traceFrom s es))[k]? = some f → WellFormed (n + k) f) ∧
      frames ((wtbCarNode P pf t₀).traceFrom s es) =
        ((actingFrom pf P s es).map fun a => frames (step P pf a.1 a.2).2).flatten ∧
      ∀ a ∈ actingFrom pf P s es, IsGroup (frames (step P pf a.1 a.2).2) := by
  induction es generalizing s n with
  | nil => simp [actingFrom]
  | cons e es ih =>
    have htrace : frames ((wtbCarNode P pf t₀).traceFrom s (e :: es)) =
        frames (step P pf s e).2 ++
          frames ((wtbCarNode P pf t₀).traceFrom (step P pf s e).1 es) := by
      rw [Machine.traceFrom_cons, frames_append]
      rfl
    rcases frames_step pf P s e with ⟨hacts, hsend⟩ | ⟨hacts, hnone, hcounter⟩
    · -- an acting step: its group, then the stream from three numbers further on
      obtain ⟨hwf, hlen, hcounter⟩ := hsend.wellFormed pf hn
      obtain ⟨ihwf, ihflat, ihgroup⟩ := ih (step P pf s e).1 hcounter
      rw [htrace, actingFrom, if_pos hacts]
      refine ⟨?_, ?_, ?_⟩
      · intro k f hf
        rw [List.getElem?_append] at hf
        split at hf
        · exact hwf k f hf
        · -- frame `k - 3` of the rest, numbered from `n + 3`
          have hk := ihwf _ f hf
          rwa [hlen, show n + 3 + (k - 3) = n + k by omega] at hk
      · rw [List.map_cons, List.flatten_cons, ihflat]
      · rintro a (_ | ⟨_, ha⟩)
        · exact hsend.isGroup pf
        · exact ihgroup a ha
    · -- a step that does not act leaves the stream as it is
      rw [htrace, hnone, List.nil_append, actingFrom, if_neg hacts]
      exact ih (step P pf s e).1 (hcounter.symm ▸ hn)

/-- **Every control frame of every run is well formed and numbered.** The `k`-th
frame since construction carries the number `k`, and the frames are groups of
three with identical bytes 0 to 5, one group for each step that acts. -/
theorem stream_wellFormed (t₀ : K) (es : List (Timed K (Event K))) :
    (∀ k f, (frames ((wtbCarNode P pf t₀).trace es))[k]? = some f → WellFormed k f) ∧
      frames ((wtbCarNode P pf t₀).trace es) =
        ((actingFrom pf P (State.initial t₀) es).map fun a =>
          frames (step P pf a.1 a.2).2).flatten ∧
      ∀ a ∈ actingFrom pf P (State.initial t₀) es, IsGroup (frames (step P pf a.1 a.2).2) := by
  -- the counter starts at 0
  have h := stream_from pf P t₀ (State.initial t₀) (n := 0) rfl es
  simp only [Nat.zero_add] at h
  exact h

/-- `stream_wellFormed` at the last frame of a command and a stop: the sixth
frame carries the number 5. -/
theorem stream_wellFormed_sixth :
    ∃ f, (frames ((wtbCarNode Params.default Platform.rat 0).trace
        [⟨0, .cmdVel ⟨.fin (-1), .fin (1 / 2)⟩⟩, ⟨1, .runStatic "stop"⟩]))[5]? = some f ∧
      WellFormed 5 f := by
  obtain ⟨f, hf⟩ := Option.isSome_iff_exists.mp
    (show ((frames ((wtbCarNode Params.default Platform.rat 0).trace
      [⟨0, .cmdVel ⟨.fin (-1), .fin (1 / 2)⟩⟩, ⟨1, .runStatic "stop"⟩]))[5]?).isSome = true by
        decide +kernel)
  exact ⟨f, hf, (stream_wellFormed Platform.rat Params.default 0 _).1 5 f hf⟩

end Driver
end WtbAutoware
