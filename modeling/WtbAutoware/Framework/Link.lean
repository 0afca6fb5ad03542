import WtbAutoware.Framework.Machine

/-!
# Two machines and a link between them

A `Link` joins an upstream machine to a downstream machine: some of the messages
that the upstream machine publishes (`port`) are put *in flight*, and the
downstream machine handles them later, in any order, or never. It also handles
messages from outside. The composite is again a `Machine`, with events

* `LinkEvent.up e` — the upstream machine handles `e`;
* `LinkEvent.deliver i t` — message `i` of those in flight arrives at time `t`;
* `LinkEvent.lose i` — message `i` is lost;
* `LinkEvent.outside e` — the downstream machine handles `e`, from elsewhere;

so a run of the composite is one interleaving of the two machines with one choice
of delays and losses.

A message in flight is an `Envelope`: it remembers the step that published it.
The two projections of a run are runs of the two machines (`up_runFrom`,
`down_runFrom`), and every envelope in flight is either an old one or was
published by a step of the run, in the state it says (`mem_flight_runFrom`).
-/

namespace Reactive

variable {σ₁ ε₁ ο₁ σ₂ μ ο₂ T : Type}

/-- Two machines, and what travels from the first to the second. -/
structure Link (σ₁ ε₁ ο₁ σ₂ μ ο₂ T : Type) where
  up : Machine σ₁ ε₁ ο₁
  down : Machine σ₂ (Timed T μ) ο₂
  /-- The message that an output puts in flight, if it travels on the link. -/
  port : ο₁ → Option μ

/-- A message in flight, with the step that published it: the state of the
upstream machine before the step, and the event handled. -/
structure Envelope (σ ε μ : Type) where
  src : σ
  cause : ε
  msg : μ

/-- What happens next in a linked pair. -/
inductive LinkEvent (T ε₁ μ : Type) where
  | up (e : ε₁)
  | deliver (i : ℕ) (t : T)
  | lose (i : ℕ)
  | outside (e : Timed T μ)

/-- The state of a linked pair. -/
structure LinkState (σ₁ ε₁ σ₂ μ : Type) where
  up : σ₁
  down : σ₂
  flight : List (Envelope σ₁ ε₁ μ)

/-- What the downstream machine handles in a composite step. -/
def LinkState.handled (s : LinkState σ₁ ε₁ σ₂ μ) : LinkEvent T ε₁ μ → Option (Timed T μ)
  | .up _ => none
  | .deliver i t => s.flight[i]?.map fun env => ⟨t, env.msg⟩
  | .lose _ => none
  | .outside e => some e

namespace Link

variable (L : Link σ₁ ε₁ ο₁ σ₂ μ ο₂ T)

/-- The envelopes that a step of the upstream machine puts in flight. -/
def posted (s : σ₁) (e : ε₁) : List (Envelope σ₁ ε₁ μ) :=
  ((L.up.out s e).filterMap L.port).map fun m => ⟨s, e, m⟩

/-- One step of the pair. -/
def step (s : LinkState σ₁ ε₁ σ₂ μ) (ce : LinkEvent T ε₁ μ) :
    LinkState σ₁ ε₁ σ₂ μ × List (ο₁ ⊕ ο₂) :=
  match ce with
  | .up e =>
    ({ s with up := L.up.next s.up e, flight := s.flight ++ L.posted s.up e },
      (L.up.out s.up e).map Sum.inl)
  | .deliver i t =>
    match s.flight[i]? with
    | some env =>
      ({ s with down := L.down.next s.down ⟨t, env.msg⟩, flight := s.flight.eraseIdx i },
        (L.down.out s.down ⟨t, env.msg⟩).map Sum.inr)
    -- no such message: nothing happens
    | none => (s, [])
  | .lose i => ({ s with flight := s.flight.eraseIdx i }, [])
  | .outside e => ({ s with down := L.down.next s.down e }, (L.down.out s.down e).map Sum.inr)

/-- The linked pair, with nothing in flight. -/
def machine : Machine (LinkState σ₁ ε₁ σ₂ μ) (LinkEvent T ε₁ μ) (ο₁ ⊕ ο₂) where
  init := ⟨L.up.init, L.down.init, []⟩
  step := L.step

/-! ### One step, part by part -/

section Step

variable (s : LinkState σ₁ ε₁ σ₂ μ) (ce : LinkEvent T ε₁ μ)

theorem up_next :
    (L.machine.next s ce).up =
      match ce with
      | .up e => L.up.next s.up e
      | _ => s.up := by
  cases ce with
  | deliver i t =>
    change (L.step s (.deliver i t)).1.up = s.up
    unfold step
    dsimp only
    cases s.flight[i]? <;> rfl
  | _ => rfl

theorem down_next :
    (L.machine.next s ce).down =
      match s.handled ce with
      | some e => L.down.next s.down e
      | none => s.down := by
  cases ce with
  | deliver i t =>
    change (L.step s (.deliver i t)).1.down = _
    unfold step LinkState.handled
    dsimp only
    cases s.flight[i]? <;> rfl
  | _ => rfl

/-- The only step that puts a message in flight is one of the upstream machine. -/
theorem mem_flight_next {env : Envelope σ₁ ε₁ μ} (h : env ∈ (L.machine.next s ce).flight) :
    env ∈ s.flight ∨ ∃ e, ce = .up e ∧ env ∈ L.posted s.up e := by
  cases ce with
  | up e =>
    change env ∈ s.flight ++ L.posted s.up e at h
    rcases List.mem_append.mp h with hold | hnew
    · exact Or.inl hold
    · exact Or.inr ⟨e, rfl, hnew⟩
  | deliver i t =>
    change env ∈ (L.step s (.deliver i t)).1.flight at h
    unfold step at h
    cases hi : s.flight[i]? with
    | none =>
      -- no message has that number: the step does nothing
      simp only [hi] at h
      exact Or.inl h
    | some env' =>
      -- the message that arrives is taken out, and nothing is put in
      simp only [hi] at h
      exact Or.inl (List.mem_of_mem_eraseIdx h)
  | lose i => exact Or.inl (List.mem_of_mem_eraseIdx h)
  | outside e => exact Or.inl h

theorem mem_posted {s : σ₁} {e : ε₁} {env : Envelope σ₁ ε₁ μ} (h : env ∈ L.posted s e) :
    env.src = s ∧ env.cause = e ∧ ∃ o ∈ L.up.out s e, L.port o = some env.msg := by
  obtain ⟨m, hm, rfl⟩ := List.mem_map.mp h
  obtain ⟨o, ho, hport⟩ := List.mem_filterMap.mp hm
  exact ⟨rfl, rfl, o, ho, hport⟩

end Step

/-! ### Runs -/

/-- The events of the upstream machine in a run. -/
def upEvents (es : List (LinkEvent T ε₁ μ)) : List ε₁ :=
  es.filterMap fun
    | .up e => some e
    | _ => none

/-- What the downstream machine handles over a run from `s`. -/
def handledFrom (s : LinkState σ₁ ε₁ σ₂ μ) : List (LinkEvent T ε₁ μ) → List (Timed T μ)
  | [] => []
  | ce :: es => (s.handled ce).toList ++ handledFrom (L.machine.next s ce) es

/-- What the downstream machine handles over a run. -/
def downEvents (es : List (LinkEvent T ε₁ μ)) : List (Timed T μ) :=
  L.handledFrom L.machine.init es

theorem handledFrom_append (s : LinkState σ₁ ε₁ σ₂ μ) (es fs : List (LinkEvent T ε₁ μ)) :
    L.handledFrom s (es ++ fs) =
      L.handledFrom s es ++ L.handledFrom (L.machine.runFrom s es) fs := by
  induction es generalizing s with
  | nil => rfl
  | cons ce es ih =>
    rw [List.cons_append, handledFrom, ih, handledFrom, List.append_assoc]
    rfl

theorem downEvents_append (es fs : List (LinkEvent T ε₁ μ)) :
    L.downEvents (es ++ fs) = L.downEvents es ++ L.handledFrom (L.machine.run es) fs :=
  L.handledFrom_append L.machine.init es fs

theorem handledFrom_cons_of_handled {s : LinkState σ₁ ε₁ σ₂ μ} {ce : LinkEvent T ε₁ μ}
    {e : Timed T μ} (h : s.handled ce = some e) (es : List (LinkEvent T ε₁ μ)) :
    L.handledFrom s (ce :: es) = e :: L.handledFrom (L.machine.next s ce) es := by
  rw [handledFrom, h]
  rfl

/-- **The upstream projection** of a run is a run of the upstream machine. -/
theorem up_runFrom (s : LinkState σ₁ ε₁ σ₂ μ) (es : List (LinkEvent T ε₁ μ)) :
    (L.machine.runFrom s es).up = L.up.runFrom s.up (upEvents es) := by
  induction es generalizing s with
  | nil => rfl
  | cons ce es ih =>
    -- only an upstream event moves the upstream machine, and it is the one listed
    rw [Machine.runFrom_cons, ih, up_next]
    cases ce <;> rfl

/-- **The downstream projection** of a run is a run of the downstream machine on
what it handled. -/
theorem down_runFrom (s : LinkState σ₁ ε₁ σ₂ μ) (es : List (LinkEvent T ε₁ μ)) :
    (L.machine.runFrom s es).down = L.down.runFrom s.down (L.handledFrom s es) := by
  induction es generalizing s with
  | nil => rfl
  | cons ce es ih =>
    -- a step moves the downstream machine on the message that it hands over, if any
    rw [Machine.runFrom_cons, ih, down_next, handledFrom]
    cases s.handled ce <;> rfl

theorem up_run (es : List (LinkEvent T ε₁ μ)) :
    (L.machine.run es).up = L.up.run (upEvents es) :=
  L.up_runFrom L.machine.init es

theorem down_run (es : List (LinkEvent T ε₁ μ)) :
    (L.machine.run es).down = L.down.run (L.downEvents es) :=
  L.down_runFrom L.machine.init es

/-- A handled message, and the step of the pair that handled it. -/
theorem mem_handledFrom {s : LinkState σ₁ ε₁ σ₂ μ} {es : List (LinkEvent T ε₁ μ)}
    {e : Timed T μ} (h : e ∈ L.handledFrom s es) :
    ∃ p ce q, es = p ++ ce :: q ∧ (L.machine.runFrom s p).handled ce = some e := by
  induction es generalizing s with
  | nil => simp [handledFrom] at h
  | cons ce es ih =>
    rcases List.mem_append.mp h with hhead | htail
    · -- handled by the first step of the run
      exact ⟨[], ce, es, rfl, Option.mem_toList.mp hhead⟩
    · obtain ⟨p, ce', q, rfl, hce⟩ := ih htail
      exact ⟨ce :: p, ce', q, rfl, hce⟩

/-- **Provenance.** Whatever is in flight after a run from `s` was in flight in
`s`, or was posted by a step of the run, from the state and on the event that its
envelope names. -/
theorem mem_flight_runFrom {s : LinkState σ₁ ε₁ σ₂ μ} {es : List (LinkEvent T ε₁ μ)}
    {env : Envelope σ₁ ε₁ μ} (h : env ∈ (L.machine.runFrom s es).flight) :
    env ∈ s.flight ∨ ∃ p q, es = p ++ .up env.cause :: q ∧
      env.src = (L.machine.runFrom s p).up ∧ env ∈ L.posted env.src env.cause := by
  induction es generalizing s with
  | nil => exact Or.inl h
  | cons ce es ih =>
    rcases ih h with hnext | ⟨p, q, rfl, hsrc, hpost⟩
    · -- in flight after the first step already
      rcases L.mem_flight_next s ce hnext with hold | ⟨e, rfl, hnew⟩
      · exact Or.inl hold
      · obtain ⟨hsrc, hcause, -⟩ := L.mem_posted hnew
        refine Or.inr ⟨[], es, by rw [hcause]; rfl, hsrc, ?_⟩
        rw [hsrc, hcause]
        exact hnew
    · exact Or.inr ⟨ce :: p, q, rfl, hsrc, hpost⟩

/-- Everything in flight in a reachable state was posted by a step of the
upstream machine's run. -/
theorem posted_of_mem_flight {es : List (LinkEvent T ε₁ μ)} {env : Envelope σ₁ ε₁ μ}
    (h : env ∈ (L.machine.run es).flight) :
    (∃ p q, upEvents es = p ++ env.cause :: q ∧ env.src = L.up.run p) ∧
      env ∈ L.posted env.src env.cause := by
  rcases L.mem_flight_runFrom h with hinit | ⟨p, q, rfl, hsrc, hpost⟩
  · -- a run starts with nothing in flight
    exact absurd hinit List.not_mem_nil
  · refine ⟨⟨upEvents p, upEvents q, ?_, hsrc.trans (L.up_run p)⟩, hpost⟩
    simp [upEvents]

end Link
end Reactive
