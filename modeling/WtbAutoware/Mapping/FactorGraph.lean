import WtbAutoware.Mapping.Preintegration

/-!
# The factor graph of `imuPreintegration`

Each correction adds a key to the graph: a symbol for its pose, velocity and bias, and factors
that name them. `key` is what keeps the symbols apart. `Grown` says that the graph holds exactly
the symbols of the keys below it, each once. It is kept by every callback, also by the correction
that starts the graph anew, at key 100, and by one that fails and leaves its key behind.

`optimizer_calls` is the result: in no run is a symbol inserted that the graph has already, or one
named or asked for that it has not, the graph never holds more than a hundred keys, and consecutive
keys are joined by one IMU factor. What gtsam itself makes of the calls is left to it.
-/

namespace WtbAutoware
namespace Mapping
namespace Preintegration

open Reactive

section Graph

variable {K Pose Noise : Type}

/-- The symbols that have been inserted, in their order. -/
def Optimizer.symbols (o : Optimizer K Pose Noise) : List Symbol := o.values.map GraphValue.symbol

/-- The keys that an IMU factor joins. -/
def Factor.link : Factor K Pose Noise → Option (ℕ × ℕ)
  | imu i j _ => some (i, j)
  | _ => none

/-- The symbols of the keys below `n`. -/
def symbolsBelow (n : ℕ) : List Symbol := (List.range n).flatMap fun k => [.X k, .V k, .B k]

theorem symbolsBelow_succ (n : ℕ) :
    symbolsBelow (n + 1) = symbolsBelow n ++ [.X n, .V n, .B n] := by
  simp [symbolsBelow, List.range_succ]

/-- The key of a symbol. -/
def Symbol.key : Symbol → ℕ
  | X key => key
  | V key => key
  | B key => key

theorem mem_symbolsBelow {n : ℕ} {x : Symbol} : x ∈ symbolsBelow n ↔ x.key < n := by
  cases x <;> simp [symbolsBelow, Symbol.key]

theorem nodup_symbolsBelow (n : ℕ) : (symbolsBelow n).Nodup := by
  induction n with
  | zero => exact List.nodup_nil
  | succ n ih =>
    rw [symbolsBelow_succ, List.nodup_append]
    refine ⟨ih, by simp, ?_⟩
    -- the new symbols have a higher key than the others
    rintro x hx y hy rfl
    have hlt := mem_symbolsBelow.mp hx
    have hkey : x.key = n := by
      simp only [List.mem_cons, List.not_mem_nil, or_false] at hy
      rcases hy with rfl | rfl | rfl <;> rfl
    omega

/-- A call that keeps to the keys: it inserts no symbol that the graph has, and its factors, or what
it asks for, are about symbols that have been inserted. -/
def Output.Keyed : Output K Pose Noise → Prop
  | .update o factors values =>
    (o.update factors values).symbols.Nodup ∧
      ∀ f ∈ factors, ∀ x ∈ f.symbols, x ∈ (o.update factors values).symbols
  | .read o key => .X key ∈ o.symbols ∧ .V key ∈ o.symbols ∧ .B key ∈ o.symbols
  | .odometry _ _ _ _ => True

/-- The graph holds the keys below `n`, each joined to the next. -/
structure Grown (o : Optimizer K Pose Noise) (n : ℕ) : Prop where
  symbols_eq : o.symbols = symbolsBelow n
  links_eq : o.factors.filterMap Factor.link = (List.range (n - 1)).map fun k => (k, k + 1)

theorem grown_empty : Grown (Optimizer.empty : Optimizer K Pose Noise) 0 := ⟨rfl, rfl⟩

theorem symbols_update (o : Optimizer K Pose Noise) (factors : List (Factor K Pose Noise))
    (key : ℕ) (pose : Pose) (vel : Vec3 K) (bias : Bias K) :
    (o.update factors (keyValues key pose vel bias)).symbols =
      o.symbols ++ [.X key, .V key, .B key] := by
  simp [Optimizer.symbols, Optimizer.update, keyValues, GraphValue.symbol]

theorem keyed_read {o : Optimizer K Pose Noise} {n key : ℕ} (h : Grown o n) (hkey : key < n) :
    (Output.read o key).Keyed := by
  refine ⟨?_, ?_, ?_⟩ <;> rw [h.symbols_eq, mem_symbolsBelow] <;> exact hkey

/-- An update with the next key keeps to the keys if its factors are about keys up to it. -/
theorem keyed_update {o : Optimizer K Pose Noise} {n : ℕ} (h : Grown o n)
    {factors : List (Factor K Pose Noise)} (hfactors : ∀ f ∈ factors, ∀ x ∈ f.symbols, x.key ≤ n)
    (pose : Pose) (vel : Vec3 K) (bias : Bias K) :
    (Output.update o factors (keyValues n pose vel bias)).Keyed := by
  have hsymbols : (o.update factors (keyValues n pose vel bias)).symbols =
      symbolsBelow (n + 1) := by
    rw [symbols_update, h.symbols_eq, symbolsBelow_succ]
  constructor
  · rw [hsymbols]
    exact nodup_symbolsBelow (n + 1)
  · intro f hf x hx
    rw [hsymbols, mem_symbolsBelow]
    exact Nat.lt_succ_of_le (hfactors f hf x hx)

/-- A graph that is started anew has its first key, and takes it. -/
theorem startGraph_spec (s : State K Pose Noise) (noise : Noise × Noise × Noise) :
    Grown (startGraph s noise).1.optimizer 1 ∧ (startGraph s noise).1.key = 1 ∧
      ∀ o ∈ (startGraph s noise).2, o.Keyed := by
  refine ⟨⟨rfl, rfl⟩, rfl, ?_⟩
  intro o ho
  obtain rfl := List.mem_singleton.mp ho
  refine keyed_update grown_empty ?_ _ _ _
  intro f hf x hx
  simp only [firstFactors, List.mem_cons, List.not_mem_nil, or_false] at hf
  rcases hf with rfl | rfl | rfl <;> obtain rfl := List.mem_singleton.mp hx <;> exact le_rfl

end Graph

section Run

variable {K Pose Noise : Type} [Field K] [LinearOrder K] {G : Gtsam K Pose Noise}
  {P : Params K Pose}

/-- The invariant: the graph has at most a hundred keys, and in an initialized system the
next one is `key`. -/
def GraphInv (s : State K Pose Noise) : Prop :=
  ∃ n ≤ 100, Grown s.optimizer n ∧ (s.systemInitialized = true → n = s.key ∧ 1 ≤ s.key)

omit [Field K] [LinearOrder K] in
/-- What is kept in front of a correction: the graph ends below `key`, and there is room. -/
theorem resetGraph_spec {s : State K Pose Noise} (hgrown : Grown s.optimizer s.key)
    (hpos : 1 ≤ s.key) (hle : s.key ≤ 100) :
    Grown (resetGraph G s).1.optimizer (resetGraph G s).1.key ∧
      1 ≤ (resetGraph G s).1.key ∧ (resetGraph G s).1.key ≤ 99 ∧
      ∀ o ∈ (resetGraph G s).2, o.Keyed := by
  unfold resetGraph
  split
  · next hkey =>
    obtain ⟨hstart, hone, hcalls⟩ := startGraph_spec s (G.marginal s.optimizer (s.key - 1))
    dsimp only
    rw [hone]
    refine ⟨hstart, le_rfl, by decide, ?_⟩
    intro o ho
    rcases List.mem_cons.mp ho with rfl | ho
    · exact keyed_read hgrown (by omega)
    · exact hcalls o ho
  · next hkey =>
    have hlt : s.key ≤ 99 := by omega
    exact ⟨hgrown, hpos, hlt, fun o ho => absurd ho List.not_mem_nil⟩

/-- A correction adds its key. -/
theorem optimize_spec {s : State K Pose Noise} (hgrown : Grown s.optimizer s.key)
    (hpos : 1 ≤ s.key) (odom : Correction K Pose) :
    Grown (optimize G P s odom).1.optimizer (s.key + 1) ∧
      (optimize G P s odom).1.key = s.key ∧
      (optimize G P s odom).1.systemInitialized = s.systemInitialized ∧
      ∀ o ∈ (optimize G P s odom).2, o.Keyed := by
  obtain ⟨m, hm⟩ : ∃ m, s.key = m + 1 := ⟨s.key - 1, by omega⟩
  have hnext : Grown (optimize G P s odom).1.optimizer (s.key + 1) := by
    constructor
    · rw [symbolsBelow_succ, ← hgrown.symbols_eq]
      exact symbols_update s.optimizer _ _ _ _ _
    · have hlinks : (optimize G P s odom).1.optimizer.factors.filterMap Factor.link =
          s.optimizer.factors.filterMap Factor.link ++ [(s.key - 1, s.key)] :=
        List.filterMap_append
      rw [hlinks, hgrown.links_eq, hm]
      simp [List.range_succ]
  refine ⟨hnext, rfl, rfl, ?_⟩
  intro o ho
  rcases List.mem_cons.mp ho with rfl | ho
  · refine keyed_update hgrown ?_ _ _ _
    intro f hf x hx
    simp only [correctionFactors, List.mem_cons, List.not_mem_nil, or_false] at hf
    rcases hf with rfl | rfl | rfl <;>
      simp only [Factor.symbols, List.mem_cons, List.not_mem_nil, or_false] at hx
    · rcases hx with rfl | rfl | rfl | rfl | rfl <;> simp [Symbol.key]
    · rcases hx with rfl | rfl <;> simp [Symbol.key]
    · rw [hx]
      exact le_rfl
  · obtain rfl := List.mem_singleton.mp ho
    exact keyed_read hnext (Nat.lt_succ_self _)

theorem odometryHandler_graph {s : State K Pose Noise} (h : GraphInv s)
    (odom : Correction K Pose) :
    GraphInv (odometryHandler G P s odom).1 ∧
      ∀ o ∈ (odometryHandler G P s odom).2, o.Keyed := by
  obtain ⟨n, hn, hgrown, hinit⟩ := h
  unfold odometryHandler
  split
  · exact ⟨⟨n, hn, hgrown, hinit⟩, fun o ho => absurd ho List.not_mem_nil⟩
  · split
    · -- the first correction, or the first after a failure
      exact ⟨⟨1, by decide, (startGraph_spec _ _).1, fun _ => ⟨rfl, le_rfl⟩⟩,
        (startGraph_spec _ _).2.2⟩
    · next hup =>
      obtain ⟨rfl, hpos⟩ := hinit (by simpa using hup)
      obtain ⟨hgrown', hpos', hle', hcalls⟩ := resetGraph_spec (G := G) hgrown hpos hn
      obtain ⟨hnext, hkey, -, hcalls'⟩ := optimize_spec (G := G) (P := P) hgrown' hpos' odom
      have hboth : ∀ o ∈ (resetGraph G s).2 ++ (optimize G P (resetGraph G s).1 odom).2,
          o.Keyed := fun o ho => (List.mem_append.mp ho).elim (hcalls o) (hcalls' o)
      dsimp only
      split
      · -- a failure leaves the key in the graph, and the system uninitialized
        exact ⟨⟨_, Nat.succ_le_succ hle', hnext, fun hfalse => nomatch hfalse⟩, hboth⟩
      · refine ⟨⟨_, Nat.succ_le_succ hle', hnext, fun _ => ⟨?_, ?_⟩⟩, hboth⟩
        · exact congrArg (· + 1) hkey.symm
        · exact Nat.le_add_left 1 _

theorem imuHandler_graph {s : State K Pose Noise} (h : GraphInv s) (imuRaw : ImuSample K) :
    GraphInv (imuHandler G P s imuRaw).1 ∧ ∀ o ∈ (imuHandler G P s imuRaw).2, o.Keyed := by
  unfold imuHandler
  dsimp only
  split
  · exact ⟨h, fun o ho => absurd ho List.not_mem_nil⟩
  · refine ⟨h, fun o ho => ?_⟩
    obtain rfl := List.mem_singleton.mp ho
    trivial

variable (G P)

theorem graphInv_next (s : State K Pose Noise) (e : Event K Pose) (h : GraphInv s) :
    GraphInv ((imuPreintegration G P).next s e) ∧
      ∀ o ∈ (imuPreintegration G P).out s e, o.Keyed := by
  cases e with
  | imu msg => exact imuHandler_graph h msg
  | odometry msg => exact odometryHandler_graph h msg

/-- **The keys of the graph.** In every run the calls into the optimizer keep to the keys, and the
graph holds at most a hundred of them, each once and joined to the next. -/
theorem optimizer_calls (es : List (Event K Pose)) :
    (∀ o ∈ (imuPreintegration G P).trace es, o.Keyed) ∧
      ∃ n ≤ 100, Grown ((imuPreintegration G P).run es).optimizer n := by
  have hinit : GraphInv (imuPreintegration G P).init :=
    ⟨0, by decide, grown_empty, fun hfalse => nomatch hfalse⟩
  constructor
  · exact (imuPreintegration G P).traceFrom_forall
      (fun s e _ h => graphInv_next G P s e h) hinit
  · obtain ⟨n, hn, hgrown, -⟩ := (imuPreintegration G P).invariant_runFrom
      (fun s e (_ : e ∈ es) h => (graphInv_next G P s e h).1) hinit
    exact ⟨n, hn, hgrown⟩

end Run

end Preintegration
end Mapping
end WtbAutoware
