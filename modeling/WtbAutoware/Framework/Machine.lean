import Mathlib.Algebra.Order.Monoid.Defs
import Mathlib.Data.List.Induction
import Mathlib.Order.Basic

/-!
# Reactive machines and their runs

A node of a message-passing system reacts to one event at a time: a callback
reads the state and the event, writes the state, and publishes a finite list of
messages. `Machine` is that, with the callbacks folded into one `step`
function, and a *run* is the list of events that the machine has handled.

* `Machine.run` is the state after a run, `Machine.trace` the messages that the
  whole run has published, in order.
* `Each Ok es` says that every event of the run `es` meets the condition `Ok`,
  read at the history in front of it. A condition on the state before a step is
  the special case in which `Ok` looks at the history through `Machine.run`.
* `run_induction` and `Machine.invariant_runFrom` are the two induction rules:
  the first for invariants of the history, the second for invariants of the
  state along a segment of a run.
* `Machine.totalFrom` adds up a quantity over the steps of a run, and
  `Machine.totalFrom_add_le` bounds the total by the growth of a potential.
* `Machine.latch_runFrom` is the rule for a part of the state that is written once
  and kept: after a run it holds what the first event that had a value gave it.
* `Machine.traceFrom_eq_iff` compares what two machines publish, or one machine in two
  runs: the same over a segment exactly if step by step.

Events that carry a clock reading are `Timed` events; `NonDecreasing` says that
the clock of a run never goes back.
-/

namespace Reactive

variable {σ ε ο : Type}

/-- A deterministic reactive machine. -/
structure Machine (σ ε ο : Type) where
  /-- The state after construction. -/
  init : σ
  /-- One callback: the state it leaves and the messages it publishes. -/
  step : σ → ε → σ × List ο

/-! ### Conditions on every step of a run -/

/-- Every event of `es` meets `Ok` at the history in front of it. -/
def Each (Ok : List ε → ε → Prop) (es : List ε) : Prop :=
  ∀ pre e post, es = pre ++ e :: post → Ok pre e

@[simp] theorem each_nil (Ok : List ε → ε → Prop) : Each Ok [] := by
  intro pre e post h
  simp at h

theorem each_concat {Ok : List ε → ε → Prop} {es : List ε} {e : ε} :
    Each Ok (es ++ [e]) ↔ Each Ok es ∧ Ok es e := by
  refine ⟨?_, ?_⟩
  · intro h
    refine ⟨?_, h es e [] rfl⟩
    intro pre e' post he
    -- an occurrence in `es` is one in `es ++ [e]`, with `e` behind it
    exact h pre e' (post ++ [e]) (by rw [he]; simp)
  · rintro ⟨h, he⟩ pre e' post heq
    rcases List.eq_nil_or_concat post with rfl | ⟨post', x, rfl⟩
    · -- nothing behind it: the occurrence is the new event
      obtain ⟨rfl, hlast⟩ := List.append_inj' heq rfl
      obtain rfl : e = e' := by simpa using hlast
      exact he
    · -- something behind it: the occurrence lies in `es`
      rw [List.concat_eq_append, ← List.cons_append, ← List.append_assoc] at heq
      obtain ⟨rfl, -⟩ := List.append_inj' heq rfl
      exact h pre e' post' rfl

theorem Each.left {Ok : List ε → ε → Prop} {pre post : List ε}
    (h : Each Ok (pre ++ post)) : Each Ok pre := by
  intro p e q hp
  exact h p e (q ++ post) (by rw [hp]; simp)

/-- `Each`, position by position. -/
theorem each_iff_getElem {Ok : List ε → ε → Prop} {es : List ε} :
    Each Ok es ↔ ∀ (i : ℕ) (h : i < es.length), Ok (es.take i) es[i] := by
  refine ⟨?_, ?_⟩
  · intro h i hi
    exact h _ _ (es.drop (i + 1)) (by rw [List.getElem_cons_drop, List.take_append_drop])
  · rintro h pre e post rfl
    simpa using h pre.length (by simp)

/-- **Induction along a run.** A property of histories that holds of the empty
one and is kept by every step that meets `Ok` holds of every run whose steps
all meet `Ok`. -/
theorem run_induction {I : List ε → Prop} {Ok : List ε → ε → Prop} (nil : I [])
    (concat : ∀ es e, Each Ok es → I es → Ok es e → I (es ++ [e]))
    {es : List ε} (h : Each Ok es) : I es := by
  induction es using List.reverseRecOn with
  | nil => exact nil
  | append_singleton es e ih =>
    -- the condition on the run splits with its last event
    obtain ⟨hes, he⟩ := each_concat.mp h
    exact concat es e hes (ih hes) he

namespace Machine

variable (m : Machine σ ε ο)

/-- The state after one event. -/
def next (s : σ) (e : ε) : σ := (m.step s e).1

/-- The messages published while one event is handled. -/
def out (s : σ) (e : ε) : List ο := (m.step s e).2

/-- The state after the events `es`, from `s`. -/
def runFrom (s : σ) (es : List ε) : σ := es.foldl m.next s

/-- The messages published over the events `es`, from `s`. -/
def traceFrom (s : σ) : List ε → List ο
  | [] => []
  | e :: es => m.out s e ++ traceFrom (m.next s e) es

/-- The state after a run. -/
def run (es : List ε) : σ := m.runFrom m.init es

/-- The messages of a run, in the order in which they were published. -/
def trace (es : List ε) : List ο := m.traceFrom m.init es

@[simp] theorem runFrom_nil (s : σ) : m.runFrom s [] = s := rfl

@[simp] theorem runFrom_cons (s : σ) (e : ε) (es : List ε) :
    m.runFrom s (e :: es) = m.runFrom (m.next s e) es := rfl

@[simp] theorem traceFrom_nil (s : σ) : m.traceFrom s [] = [] := rfl

@[simp] theorem traceFrom_cons (s : σ) (e : ε) (es : List ε) :
    m.traceFrom s (e :: es) = m.out s e ++ m.traceFrom (m.next s e) es := rfl

theorem runFrom_append (s : σ) (es fs : List ε) :
    m.runFrom s (es ++ fs) = m.runFrom (m.runFrom s es) fs :=
  List.foldl_append ..

theorem traceFrom_append (s : σ) (es fs : List ε) :
    m.traceFrom s (es ++ fs) = m.traceFrom s es ++ m.traceFrom (m.runFrom s es) fs := by
  induction es generalizing s with
  | nil => rfl
  | cons e es ih => simp [ih]

@[simp] theorem run_nil : m.run [] = m.init := rfl

@[simp] theorem trace_nil : m.trace [] = [] := rfl

theorem run_append (es fs : List ε) : m.run (es ++ fs) = m.runFrom (m.run es) fs :=
  m.runFrom_append m.init es fs

theorem run_concat (es : List ε) (e : ε) : m.run (es ++ [e]) = m.next (m.run es) e :=
  m.run_append es [e]

theorem trace_concat (es : List ε) (e : ε) :
    m.trace (es ++ [e]) = m.trace es ++ m.out (m.run es) e := by
  rw [trace, traceFrom_append]
  simp [trace, run]

/-- **Invariant rule.** What every step on an event of `es` preserves is
preserved by the whole segment. -/
theorem invariant_runFrom {I : σ → Prop} {es : List ε} {s : σ}
    (hstep : ∀ s, ∀ e ∈ es, I s → I (m.next s e)) (h : I s) :
    I (m.runFrom s es) := by
  induction es generalizing s with
  | nil => exact h
  | cons e es ih =>
    -- the rest of the segment starts in the state that `e` leaves
    refine ih ?_ (hstep s e List.mem_cons_self h)
    intro s' e' he'
    exact hstep s' e' (List.mem_cons_of_mem _ he')

/-- **Trace rule.** If every step on an event of `es`, from a state in `I`,
keeps `I` and publishes only messages in `G`, so does the whole segment. -/
theorem traceFrom_forall {I : σ → Prop} {G : ο → Prop} {es : List ε} {s : σ}
    (hstep : ∀ s, ∀ e ∈ es, I s → I (m.next s e) ∧ ∀ o ∈ m.out s e, G o) (h : I s) :
    ∀ o ∈ m.traceFrom s es, G o := by
  induction es generalizing s with
  | nil => simp
  | cons e es ih =>
    intro o ho
    obtain ⟨hnext, hout⟩ := hstep s e List.mem_cons_self h
    rcases List.mem_append.mp ho with hfirst | hrest
    · exact hout o hfirst
    · refine ih ?_ hnext o hrest
      intro s' e' he'
      exact hstep s' e' (List.mem_cons_of_mem _ he')

/-- A property of message lists that holds of what every step publishes, and survives
concatenation, holds of what a segment publishes. -/
theorem traceFrom_append_induction {Q : List ο → Prop} (nil : Q [])
    (append : ∀ os os', Q os → Q os' → Q (os ++ os')) (hout : ∀ s e, Q (m.out s e))
    (s : σ) (es : List ε) : Q (m.traceFrom s es) := by
  induction es generalizing s with
  | nil => exact nil
  | cons e es ih => exact append _ _ (hout s e) (ih (m.next s e))

/-- **Latch rule.** A part of the state that a step writes only while it is empty holds,
after a segment, what it held before or else the first value that an event gave it. -/
theorem latch_runFrom {α : Type} (view : σ → Option α) (f : ε → Option α)
    (hstep : ∀ s e, view (m.next s e) = (view s).or (f e)) (s : σ) (es : List ε) :
    view (m.runFrom s es) = (view s).or (es.findSome? f) := by
  induction es generalizing s with
  | nil => simp
  | cons e es ih =>
    rw [runFrom_cons, ih (m.next s e), hstep, Option.or_assoc, List.findSome?_cons]
    cases f e <;> rfl

/-! ### Totals along a run -/

section Total

variable {A : Type} [AddCommMonoid A] (c : σ → ε → A)

/-- The sum of `c` over the steps on the events `es`, from `s`. -/
def totalFrom (s : σ) : List ε → A
  | [] => 0
  | e :: es => c s e + totalFrom (m.next s e) es

@[simp] theorem totalFrom_nil (s : σ) : m.totalFrom c s [] = 0 := rfl

@[simp] theorem totalFrom_cons (s : σ) (e : ε) (es : List ε) :
    m.totalFrom c s (e :: es) = c s e + m.totalFrom c (m.next s e) es := rfl

variable {c}

/-- **Potential rule.** If every step costs at most what the potential `φ` grows by,
so does the whole segment. -/
theorem totalFrom_add_le [PartialOrder A] [IsOrderedAddMonoid A] {φ : σ → A}
    (hstep : ∀ s e, c s e + φ s ≤ φ (m.next s e)) (s : σ) (es : List ε) :
    m.totalFrom c s es + φ s ≤ φ (m.runFrom s es) := by
  induction es generalizing s with
  | nil => simp
  | cons e es ih =>
    calc m.totalFrom c s (e :: es) + φ s
        = m.totalFrom c (m.next s e) es + (c s e + φ s) := by
          rw [totalFrom_cons, add_comm (c s e), add_assoc]
      _ ≤ m.totalFrom c (m.next s e) es + φ (m.next s e) := by gcongr; exact hstep s e
      _ ≤ φ (m.runFrom s (e :: es)) := ih (m.next s e)

end Total

/-! ### Two machines in lockstep -/

section Lockstep

variable {σ' ε' ο' α : Type} (m' : Machine σ' ε' ο') {view : ο → Option α}
  {view' : ο' → Option α} {I : σ → σ' → Prop} {R : ε → ε' → Prop} {C : σ → ε → ε' → Prop}

/-- **Lockstep rule.** Two machines react to related events. If from states related by
`I` both publish equally much of what `view` sees, the same exactly if `C` holds of the
step, and are then related by `I` again, all of what `view` sees is the same exactly if
`C` holds of every step. -/
theorem traceFrom_eq_iff
    (hstep : ∀ s s' e e', I s s' → R e e' →
      ((m.out s e).filterMap view).length = ((m'.out s' e').filterMap view').length ∧
      ((m.out s e).filterMap view = (m'.out s' e').filterMap view' ↔ C s e e') ∧
      (C s e e' → I (m.next s e) (m'.next s' e')))
    {s : σ} {s' : σ'} (hI : I s s') {es : List ε} {es' : List ε'} (h : List.Forall₂ R es es') :
    (m.traceFrom s es).filterMap view = (m'.traceFrom s' es').filterMap view' ↔
      ∀ i e e', es[i]? = some e → es'[i]? = some e' → C (m.runFrom s (es.take i)) e e' := by
  induction h generalizing s s' with
  | nil => simp
  | @cons e e' es es' hR _ ih =>
    obtain ⟨hlen, hview, hnext⟩ := hstep s s' e e' hI hR
    rw [traceFrom_cons, traceFrom_cons, List.filterMap_append, List.filterMap_append]
    refine ⟨?_, ?_⟩
    · intro heq i f f' hf hf'
      -- what the first step publishes comes first on both sides
      obtain ⟨hfirst, hrest⟩ := List.append_inj heq hlen
      have hC := hview.mp hfirst
      cases i with
      | zero =>
        obtain rfl := Option.some.inj hf
        obtain rfl := Option.some.inj hf'
        exact hC
      | succ i => exact (ih (hnext hC)).mp hrest i f f' hf hf'
    · intro hall
      have hC := hall 0 e e' rfl rfl
      have hrest := (ih (hnext hC)).mpr fun i f f' hf hf' => hall (i + 1) f f' hf hf'
      rw [hview.mpr hC, hrest]

end Lockstep

end Machine

/-! ### Clocks -/

/-- An event together with the clock reading its callback sees. -/
structure Timed (T ε : Type) where
  time : T
  ev : ε

variable {T : Type}

/-- The clock never goes back along the run. -/
def NonDecreasing [LE T] (es : List (Timed T ε)) : Prop :=
  es.Pairwise fun a b => a.time ≤ b.time

theorem nonDecreasing_concat [LE T] {es : List (Timed T ε)} {e : Timed T ε} :
    NonDecreasing (es ++ [e]) ↔ NonDecreasing es ∧ ∀ a ∈ es, a.time ≤ e.time := by
  simp [NonDecreasing, List.pairwise_append]

/-- In a run `pre ++ a :: mid ++ b :: post` everything in `mid` is stamped
between `a` and `b`. -/
theorem NonDecreasing.between [Preorder T] {pre mid post : List (Timed T ε)}
    {a b : Timed T ε} (h : NonDecreasing (pre ++ a :: mid ++ b :: post)) :
    a.time ≤ b.time ∧ ∀ e ∈ mid, a.time ≤ e.time ∧ e.time ≤ b.time := by
  rw [List.append_assoc] at h
  -- drop `pre`: `a` is in front of everything that is left
  have htail := (List.pairwise_append.mp h).2.1
  rw [List.cons_append, List.pairwise_cons] at htail
  obtain ⟨ha, hrest⟩ := htail
  -- and all of `mid` is in front of `b`
  have hb := (List.pairwise_append.mp hrest).2.2
  refine ⟨ha b (by simp), ?_⟩
  intro e he
  exact ⟨ha e (by simp [he]), hb e he b (by simp)⟩

end Reactive
