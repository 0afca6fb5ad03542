import WtbAutoware.Mapping.Preintegration

/-!
# Which IMU samples are integrated

Both queues of `imuPreintegration` are taken from their front, so what leaves them comes in
the order of arrival.

* **The factors share the samples out.** While the system stays initialized, every sample
  goes into one IMU factor, in its turn, or is still queued, and if a sample has been taken
  before, the intervals of the factors join it without a gap (`factors_partition`).
* **The odometry in between.** What `imuIntegratorImu_` holds is the end of the stream of
  samples, with all that is queued in it (`integrator_suffix`). It is no more than what is
  queued, under the bias of the last correction, if every correction leaves a sample in the
  queue (`integrator_eq_queue`). The queue is popped from its front only, so that a sample
  that comes out of order may be queued behind a correction that it is older than. A
  correction that leaves none replaces the state and the bias under an integrator that it
  leaves as it was, and what that had integrated is predicted again (`mirrors_iff`).
-/

namespace WtbAutoware
namespace Mapping
namespace Preintegration

open Reactive

/-! ### Queues -/

section Queues

variable {K : Type}

/-- What `integrateMeasurement` is given of a sample, apart from the interval. -/
def ImuSample.reading (m : ImuSample K) : Vec3 K × Vec3 K :=
  (m.linearAcceleration, m.angularVelocity)

/-- The readings that an integrator holds. -/
def Integrator.readings (I : Integrator K) : List (Vec3 K × Vec3 K) :=
  I.measurements.map fun m => (m.acc, m.gyr)

@[simp] theorem readings_reset (bias : Bias K) : (Integrator.reset bias).readings = [] := rfl

@[simp] theorem readings_integrate (I : Integrator K) (m : ImuSample K) (dt : K) :
    (I.integrate m dt).readings = I.readings ++ [m.reading] := by
  simp [Integrator.readings, Integrator.integrate, ImuSample.reading]

@[simp] theorem bias_integrate (I : Integrator K) (m : ImuSample K) (dt : K) :
    (I.integrate m dt).bias = I.bias := rfl

variable [LinearOrder K]

/-- The samples at the front of a queue that are older than `t`. -/
def older (t : K) (queue : List (ImuSample K)) : List (ImuSample K) :=
  queue.takeWhile fun m => m.stamp < t

/-- What is left of a queue when they are popped. -/
def newer (t : K) (queue : List (ImuSample K)) : List (ImuSample K) :=
  queue.dropWhile fun m => m.stamp < t

theorem older_append_newer (t : K) (queue : List (ImuSample K)) :
    older t queue ++ newer t queue = queue := List.takeWhile_append_dropWhile

theorem newer_suffix (t : K) (queue : List (ImuSample K)) : newer t queue <:+ queue :=
  List.dropWhile_suffix _

theorem popOlder_snd (t last : K) (queue : List (ImuSample K)) :
    (popOlder t last queue).2 = newer t queue := by
  induction queue generalizing last with
  | nil => rfl
  | cons m queue ih =>
    unfold popOlder newer
    by_cases hm : m.stamp < t
    · rw [if_pos hm, ih, List.dropWhile_cons_of_pos (by simpa using hm)]
      rfl
    · rw [if_neg hm, List.dropWhile_cons_of_neg (by simpa using hm)]

variable [Field K]

theorem integrateAll_spec (I : Integrator K) (last : K) (queue : List (ImuSample K)) :
    (integrateAll I last queue).bias = I.bias ∧
      (integrateAll I last queue).readings = I.readings ++ queue.map ImuSample.reading := by
  induction queue generalizing I last with
  | nil => exact ⟨rfl, (List.append_nil _).symm⟩
  | cons m queue ih =>
    obtain ⟨hbias, hreadings⟩ := ih (I.integrate m (interval last m.stamp)) m.stamp
    refine ⟨hbias, ?_⟩
    rw [integrateAll, hreadings, readings_integrate, List.map_cons, List.append_assoc]
    rfl

/-- The older samples are integrated in their order, and the others stay. -/
theorem integrateOlder_spec (t : K) (I : Integrator K) (last : K) (queue : List (ImuSample K)) :
    (integrateOlder t I last queue).1.readings =
        I.readings ++ (older t queue).map ImuSample.reading ∧
      (integrateOlder t I last queue).2.2 = newer t queue := by
  induction queue generalizing I last with
  | nil => exact ⟨(List.append_nil _).symm, rfl⟩
  | cons m queue ih =>
    unfold integrateOlder older newer
    by_cases hm : m.stamp < t
    · obtain ⟨hreadings, hqueue⟩ := ih (I.integrate m (interval last m.stamp)) m.stamp
      rw [if_pos hm, List.takeWhile_cons_of_pos (by simpa using hm),
        List.dropWhile_cons_of_pos (by simpa using hm), hreadings, readings_integrate,
        List.map_cons, List.append_assoc]
      exact ⟨rfl, hqueue⟩
    · rw [if_neg hm, List.takeWhile_cons_of_neg (by simpa using hm),
        List.dropWhile_cons_of_neg (by simpa using hm)]
      exact ⟨(List.append_nil _).symm, rfl⟩

/-- The intervals of the samples add up to the time from `last` to the last of them. -/
theorem deltaTij_integrateOlder (t : K) (I : Integrator K) {last : K} (hlast : 0 ≤ last)
    {queue : List (ImuSample K)} (hqueue : ∀ m ∈ queue, 0 ≤ m.stamp) :
    (integrateOlder t I last queue).1.deltaTij =
        I.deltaTij + ((integrateOlder t I last queue).2.1 - last) ∧
      0 ≤ (integrateOlder t I last queue).2.1 := by
  induction queue generalizing I last with
  | nil => exact ⟨by simp [integrateOlder], hlast⟩
  | cons m queue ih =>
    obtain ⟨hm0, hqueue⟩ := List.forall_mem_cons.mp hqueue
    unfold integrateOlder
    by_cases hm : m.stamp < t
    · obtain ⟨hsum, hnext⟩ := ih (I.integrate m (interval last m.stamp)) hm0 hqueue
      have hone : (I.integrate m (interval last m.stamp)).deltaTij =
          I.deltaTij + (m.stamp - last) := by
        simp [Integrator.deltaTij, Integrator.integrate, interval, hlast.not_gt]
      rw [if_pos hm, hsum, hone]
      exact ⟨by ring, hnext⟩
    · rw [if_neg hm]
      exact ⟨by simp, hlast⟩

end Queues

/-! ### One callback -/

section Step

variable {K Pose Noise : Type} [Field K] [LinearOrder K] (G : Gtsam K Pose Noise)
  (P : Params K Pose)

/-- The sample of an event, as it is queued. -/
def Event.sample : Event K Pose → Option (ImuSample K)
  | .imu msg => some (convertSample P msg)
  | .odometry _ => none

/-- The samples of a run. -/
def received (es : List (Event K Pose)) : List (ImuSample K) := es.filterMap (Event.sample P)

/-- The integrator of an IMU factor. -/
def Factor.preint : Factor K Pose Noise → Option (Integrator K)
  | .imu _ _ preint => some preint
  | _ => none

/-- The integrators of the IMU factors that an output adds to the graph. -/
def Output.preints : Output K Pose Noise → List (Integrator K)
  | .update _ factors _ => factors.filterMap Factor.preint
  | _ => []

variable {G P}

omit [Field K] [LinearOrder K] in
/-- A new graph changes nothing else. -/
theorem resetGraph_frame (s : State K Pose Noise) :
    (resetGraph G s).1.imuQueOpt = s.imuQueOpt ∧ (resetGraph G s).1.imuQueImu = s.imuQueImu ∧
      (resetGraph G s).1.imuIntegratorOpt = s.imuIntegratorOpt ∧
      (resetGraph G s).1.imuIntegratorImu = s.imuIntegratorImu ∧
      (resetGraph G s).1.lastImuTOpt = s.lastImuTOpt ∧
      (resetGraph G s).1.systemInitialized = s.systemInitialized ∧
      (resetGraph G s).2.flatMap Output.preints = [] := by
  unfold resetGraph
  split
  · exact ⟨rfl, rfl, rfl, rfl, rfl, rfl, rfl⟩
  · exact ⟨rfl, rfl, rfl, rfl, rfl, rfl, rfl⟩

/-- **What a correction does**: nothing without samples, an initialization, a failure, or
a step forward. -/
theorem odometryHandler_cases (s : State K Pose Noise) (odom : Correction K Pose) :
    let t := odom.stamp - deltaT
    let s' := (odometryHandler G P s odom).1
    (s.imuQueOpt = [] ∧ odometryHandler G P s odom = (s, [])) ∨
    (s.systemInitialized = false ∧ s'.systemInitialized = true ∧
      s'.doneFirstOpt = s.doneFirstOpt ∧ s'.imuQueImu = s.imuQueImu ∧
      s'.imuIntegratorImu = .reset ⟨0, 0⟩) ∨
    (s'.systemInitialized = false ∧ s'.doneFirstOpt = false ∧ s'.imuQueImu = s.imuQueImu) ∨
    (s.systemInitialized = true ∧ s'.systemInitialized = true ∧ s'.doneFirstOpt = true ∧
      s'.imuQueImu = newer t s.imuQueImu ∧
      (s'.imuQueImu ≠ [] → ∃ last, s'.imuIntegratorImu =
        integrateAll (.reset s'.prevBiasOdom) last s'.imuQueImu) ∧
      (s'.imuQueImu = [] → s'.imuIntegratorImu = s.imuIntegratorImu)) := by
  intro t s'
  obtain ⟨-, himu, -, hintegrator, -, hup, -⟩ := resetGraph_frame (G := G) s
  by_cases hempty : s.imuQueOpt = []
  · exact Or.inl ⟨hempty, if_pos hempty⟩
  have heq : odometryHandler G P s odom = _ := if_neg hempty
  by_cases hinit : s.systemInitialized = false
  · rw [if_pos hinit] at heq
    have hs' : s' = (initializeSystem G P s odom).1 := congrArg Prod.fst heq
    rw [hs']
    exact Or.inr (Or.inl ⟨hinit, rfl, rfl, rfl, rfl⟩)
  rw [if_neg hinit] at heq
  dsimp only at heq
  -- what is left depends on what the optimizer returns
  set optimized := optimize G P (resetGraph G s).1 odom with hopt
  by_cases hfail : FailureDetection optimized.1.prevVel optimized.1.prevBias
  · rw [if_pos hfail] at heq
    have hs' : s' = resetParams optimized.1 := congrArg Prod.fst heq
    rw [hs']
    exact Or.inr (Or.inr (Or.inl ⟨rfl, rfl, himu⟩))
  · rw [if_neg hfail] at heq
    have hs' : s' = repropagate optimized.1 odom := congrArg Prod.fst heq
    have hqueue : s'.imuQueImu = newer t s.imuQueImu := by
      rw [hs', ← himu]
      exact popOlder_snd _ _ _
    have hnewer : (popOlder t (-1) optimized.1.imuQueImu).2 = s'.imuQueImu := by rw [hs']; rfl
    -- the second integrator is reset only if there is something to integrate again
    have hintegrated : s'.imuIntegratorImu =
        if s'.imuQueImu ≠ [] then integrateAll (.reset s'.prevBiasOdom)
          (popOlder t (-1) optimized.1.imuQueImu).1 s'.imuQueImu
        else s.imuIntegratorImu := by
      rw [← hnewer, hs', ← hintegrator]
      rfl
    refine Or.inr (Or.inr (Or.inr ⟨by simpa using hinit, ?_, ?_, hqueue, ?_, ?_⟩))
    · rw [hs']
      exact hup.trans (by simpa using hinit)
    · rw [hs']
      rfl
    · intro hne
      exact ⟨_, hintegrated.trans (if_pos hne)⟩
    · intro hnil
      exact hintegrated.trans (if_neg (not_not.mpr hnil))

/-- A correction pops what is older from the queue of the graph, whatever becomes of it. -/
theorem imuQueOpt_odometryHandler (s : State K Pose Noise) (odom : Correction K Pose) :
    (odometryHandler G P s odom).1.imuQueOpt = newer (odom.stamp - deltaT) s.imuQueOpt := by
  obtain ⟨hopt, -⟩ := resetGraph_frame (G := G) s
  unfold odometryHandler
  split
  · next hempty =>
    dsimp only
    rw [hempty]
    rfl
  · split
    · exact popOlder_snd _ _ _
    · have hqueue : (optimize G P (resetGraph G s).1 odom).1.imuQueOpt =
          newer (odom.stamp - deltaT) s.imuQueOpt := by
        rw [← hopt]
        exact (integrateOlder_spec _ _ _ _).2
      dsimp only
      split <;> exact hqueue

/-- The integrator of the factors is empty between two callbacks. -/
theorem imuIntegratorOpt_odometryHandler {s : State K Pose Noise}
    (h : s.imuIntegratorOpt.measurements = []) (odom : Correction K Pose) :
    (odometryHandler G P s odom).1.imuIntegratorOpt.measurements = [] := by
  unfold odometryHandler
  split
  · exact h
  · split
    · rfl
    · dsimp only
      split <;> rfl

/-- A correction of an initialized system adds one IMU factor, if there is any sample. -/
theorem preints_odometryHandler {s : State K Pose Noise} (hup : s.systemInitialized = true)
    (odom : Correction K Pose) :
    (odometryHandler G P s odom).2.flatMap Output.preints =
        (if s.imuQueOpt = [] then [] else
          [(integrateOlder (odom.stamp - deltaT) s.imuIntegratorOpt s.lastImuTOpt s.imuQueOpt).1]) ∧
      (odometryHandler G P s odom).1.lastImuTOpt =
        (integrateOlder (odom.stamp - deltaT) s.imuIntegratorOpt s.lastImuTOpt
          s.imuQueOpt).2.1 := by
  obtain ⟨hopt, -, hintegrator, -, hlast, -, hpreints⟩ := resetGraph_frame (G := G) s
  unfold odometryHandler
  by_cases hempty : s.imuQueOpt = []
  · rw [if_pos hempty, if_pos hempty, hempty]
    exact ⟨rfl, rfl⟩
  · have hfactor : (optimize G P (resetGraph G s).1 odom).2.flatMap Output.preints =
        [(integrateOlder (odom.stamp - deltaT) s.imuIntegratorOpt s.lastImuTOpt
          s.imuQueOpt).1] := by
      rw [← hopt, ← hintegrator, ← hlast]
      rfl
    have hstamp : (optimize G P (resetGraph G s).1 odom).1.lastImuTOpt =
        (integrateOlder (odom.stamp - deltaT) s.imuIntegratorOpt s.lastImuTOpt
          s.imuQueOpt).2.1 := by
      rw [← hopt, ← hintegrator, ← hlast]
      rfl
    rw [if_neg hempty, if_neg hempty, if_neg (by simp [hup])]
    dsimp only
    split
    · exact ⟨by rw [List.flatMap_append, hpreints, hfactor]; rfl, hstamp⟩
    · exact ⟨by rw [List.flatMap_append, hpreints, hfactor]; rfl, hstamp⟩

end Step

/-! ### Runs -/

section Run

variable {K Pose Noise : Type} [Field K] [LinearOrder K] (G : Gtsam K Pose Noise)
  (P : Params K Pose)

omit [LinearOrder K] in
theorem received_concat (es : List (Event K Pose)) (e : Event K Pose) :
    received P (es ++ [e]) = received P es ++ (e.sample P).toList := by
  simp only [received, List.filterMap_append, List.filterMap_cons, List.filterMap_nil]
  cases e.sample P <;> rfl

theorem suffix_append_right {α : Type} {l₁ l₂ : List α} (h : l₁ <:+ l₂) (l : List α) :
    l₁ ++ l <:+ l₂ ++ l := by
  obtain ⟨front, rfl⟩ := h
  exact ⟨front, (List.append_assoc front l₁ l).symm⟩

/-- The queue of the graph is the end of what has been received. -/
theorem imuQueOpt_suffix (es : List (Event K Pose)) :
    ((imuPreintegration G P).run es).imuQueOpt <:+ received P es := by
  induction es using List.reverseRecOn with
  | nil => exact List.suffix_rfl
  | append_singleton es e ih =>
    rw [Machine.run_concat, received_concat]
    cases e with
    | imu msg =>
      have hqueue : ((imuPreintegration G P).next ((imuPreintegration G P).run es)
          (.imu msg)).imuQueOpt =
          ((imuPreintegration G P).run es).imuQueOpt ++ [convertSample P msg] := by
        change (imuHandler G P _ msg).1.imuQueOpt = _
        unfold imuHandler
        dsimp only
        split <;> rfl
      rw [hqueue]
      exact suffix_append_right ih _
    | odometry msg =>
      have hqueue := imuQueOpt_odometryHandler (G := G) (P := P)
        ((imuPreintegration G P).run es) msg
      have hnone : ((Event.odometry msg : Event K Pose).sample P).toList = [] := rfl
      rw [hnone, List.append_nil]
      exact List.IsSuffix.trans (hqueue ▸ newer_suffix _ _) ih

theorem imuIntegratorOpt_run (es : List (Event K Pose)) :
    ((imuPreintegration G P).run es).imuIntegratorOpt.measurements = [] := by
  refine (imuPreintegration G P).invariant_runFrom
    (I := fun s => s.imuIntegratorOpt.measurements = []) ?_ rfl
  intro s e _ h
  cases e with
  | imu msg =>
    change (imuHandler G P s msg).1.imuIntegratorOpt.measurements = []
    unfold imuHandler
    dsimp only
    split <;> exact h
  | odometry msg => exact imuIntegratorOpt_odometryHandler h msg

/-- The IMU factors that a segment adds. -/
def preints (s : State K Pose Noise) (es : List (Event K Pose)) : List (Integrator K) :=
  ((imuPreintegration G P).traceFrom s es).flatMap Output.preints

theorem preints_concat (s : State K Pose Noise) (es : List (Event K Pose)) (e : Event K Pose) :
    preints G P s (es ++ [e]) = preints G P s es ++
      ((imuPreintegration G P).out ((imuPreintegration G P).runFrom s es) e).flatMap
        Output.preints := by
  rw [preints, Machine.traceFrom_append, List.flatMap_append]
  simp [preints]

/-- What one event of an initialized system does to the samples: they go from the queue
into a factor, one behind the other. -/
theorem samples_next {s : State K Pose Noise} (hempty : s.imuIntegratorOpt.measurements = [])
    (hup : s.systemInitialized = true) (e : Event K Pose) :
    (((imuPreintegration G P).out s e).flatMap Output.preints).flatMap Integrator.readings ++
        ((imuPreintegration G P).next s e).imuQueOpt.map ImuSample.reading =
      s.imuQueOpt.map ImuSample.reading ++ (e.sample P).toList.map ImuSample.reading := by
  cases e with
  | imu msg =>
    change ((imuHandler G P s msg).2.flatMap Output.preints).flatMap Integrator.readings ++
      (imuHandler G P s msg).1.imuQueOpt.map ImuSample.reading = _
    unfold imuHandler
    dsimp only
    split <;> simp [Output.preints, Event.sample]
  | odometry msg =>
    change ((odometryHandler G P s msg).2.flatMap Output.preints).flatMap Integrator.readings ++
      (odometryHandler G P s msg).1.imuQueOpt.map ImuSample.reading = _
    have hreadings : s.imuIntegratorOpt.readings = [] := by
      rw [Integrator.readings, hempty, List.map_nil]
    rw [(preints_odometryHandler hup msg).1, imuQueOpt_odometryHandler]
    by_cases hqueue : s.imuQueOpt = []
    · rw [if_pos hqueue, hqueue]
      rfl
    · rw [if_neg hqueue, List.flatMap_singleton, (integrateOlder_spec _ _ _ _).1, hreadings,
        List.nil_append, ← List.map_append, older_append_newer]
      exact (List.append_nil _).symm

/-- And to the intervals: those of a factor add up to what the clock of the factors goes on. -/
theorem intervals_next {s : State K Pose Noise} (hempty : s.imuIntegratorOpt.measurements = [])
    (hup : s.systemInitialized = true) (hlast : 0 ≤ s.lastImuTOpt)
    (hqueue : ∀ m ∈ s.imuQueOpt, 0 ≤ m.stamp) (e : Event K Pose) :
    ((((imuPreintegration G P).out s e).flatMap Output.preints).map Integrator.deltaTij).sum =
        ((imuPreintegration G P).next s e).lastImuTOpt - s.lastImuTOpt ∧
      0 ≤ ((imuPreintegration G P).next s e).lastImuTOpt := by
  cases e with
  | imu msg =>
    change (((imuHandler G P s msg).2.flatMap Output.preints).map Integrator.deltaTij).sum =
      (imuHandler G P s msg).1.lastImuTOpt - s.lastImuTOpt ∧
        0 ≤ (imuHandler G P s msg).1.lastImuTOpt
    unfold imuHandler
    dsimp only
    split <;> simp [Output.preints, hlast]
  | odometry msg =>
    change (((odometryHandler G P s msg).2.flatMap Output.preints).map Integrator.deltaTij).sum =
      (odometryHandler G P s msg).1.lastImuTOpt - s.lastImuTOpt ∧
        0 ≤ (odometryHandler G P s msg).1.lastImuTOpt
    have hzero : s.imuIntegratorOpt.deltaTij = 0 := by
      rw [Integrator.deltaTij, hempty, List.map_nil, List.sum_nil]
    obtain ⟨hsum, hnext⟩ := deltaTij_integrateOlder (msg.stamp - deltaT) s.imuIntegratorOpt hlast
      hqueue
    obtain ⟨hpreints, hstamp⟩ := preints_odometryHandler (G := G) (P := P) hup msg
    rw [hpreints, hstamp]
    refine ⟨?_, hnext⟩
    by_cases hnil : s.imuQueOpt = []
    · rw [if_pos hnil, hnil]
      simp [integrateOlder]
    · rw [if_neg hnil, List.map_singleton, List.sum_singleton, hsum, hzero, zero_add]

/-- What the IMU factors of `post`, behind `pre`, have of the samples. -/
structure Shared (pre post : List (Event K Pose)) : Prop where
  /-- Every sample in its turn, and what they do not have is still queued. -/
  samples : (preints G P ((imuPreintegration G P).run pre) post).flatMap Integrator.readings ++
      ((imuPreintegration G P).run (pre ++ post)).imuQueOpt.map ImuSample.reading =
    ((imuPreintegration G P).run pre).imuQueOpt.map ImuSample.reading ++
      (received P post).map ImuSample.reading
  /-- Their intervals join, from the last sample that was taken in front of `post`, if there is
  one. -/
  intervals : 0 ≤ ((imuPreintegration G P).run pre).lastImuTOpt →
    (∀ m ∈ received P (pre ++ post), 0 ≤ m.stamp) →
    ((preints G P ((imuPreintegration G P).run pre) post).map Integrator.deltaTij).sum =
        ((imuPreintegration G P).run (pre ++ post)).lastImuTOpt -
          ((imuPreintegration G P).run pre).lastImuTOpt ∧
      0 ≤ ((imuPreintegration G P).run (pre ++ post)).lastImuTOpt

/-- **The factors share the samples out.** As long as the system is initialized, the IMU
factors integrate the samples in the order of arrival, each sample once, and what they do
not hold is still queued; if a sample has been taken before and no stamp is negative, the
intervals of the factors join from it to the last that is taken. -/
theorem factors_partition {pre post : List (Event K Pose)}
    (h : Each (fun mid _ =>
      ((imuPreintegration G P).run (pre ++ mid)).systemInitialized = true) post) :
    Shared G P pre post := by
  refine run_induction (I := Shared G P pre) ?_ ?_ h
  · constructor
    · simp [preints, received]
    · intro hlast _
      simp [preints, hlast]
  · rintro mid e - ⟨hsamples, hintervals⟩ hup
    have hempty := imuIntegratorOpt_run G P (pre ++ mid)
    have hrun : (imuPreintegration G P).runFrom ((imuPreintegration G P).run pre) mid =
        (imuPreintegration G P).run (pre ++ mid) :=
      ((imuPreintegration G P).run_append pre mid).symm
    constructor
    · rw [← List.append_assoc, Machine.run_concat, preints_concat, hrun, received_concat,
        List.flatMap_append, List.map_append, List.append_assoc, samples_next G P hempty hup e,
        ← List.append_assoc, hsamples, List.append_assoc]
    · rw [← List.append_assoc, Machine.run_concat, preints_concat, hrun]
      intro hlast hstamps
      rw [received_concat] at hstamps
      obtain ⟨hsum, hmid⟩ := hintervals hlast fun m hm => hstamps m (List.mem_append_left _ hm)
      obtain ⟨hnext, hpos⟩ := intervals_next G P hempty hup hmid (fun m hm => hstamps m
        (List.mem_append_left _ ((imuQueOpt_suffix G P (pre ++ mid)).subset hm))) e
      rw [List.map_append, List.sum_append, hsum, hnext]
      exact ⟨by ring, hpos⟩

/-! ### The odometry in between -/

/-- What `imuIntegratorImu_` and its queue are behind a run. -/
structure Propagated (es : List (Event K Pose)) (s : State K Pose Noise) : Prop where
  up_of_done : s.doneFirstOpt = true → s.systemInitialized = true
  queue : s.imuQueImu <:+ received P es
  fresh : s.systemInitialized = true → s.doneFirstOpt = false →
    s.imuIntegratorImu.readings = []
  queued : s.doneFirstOpt = true →
    s.imuQueImu.map ImuSample.reading <:+ s.imuIntegratorImu.readings
  held : s.doneFirstOpt = true →
    s.imuIntegratorImu.readings <:+ (received P es).map ImuSample.reading

theorem propagated_imu {es : List (Event K Pose)} {s : State K Pose Noise}
    (h : Propagated P es s) (msg : ImuSample K) :
    Propagated P (es ++ [.imu msg]) (imuHandler G P s msg).1 := by
  have hreceived : received P (es ++ [.imu msg]) = received P es ++ [convertSample P msg] :=
    received_concat P es (.imu msg)
  unfold imuHandler
  dsimp only
  by_cases hdone : s.doneFirstOpt = false
  · rw [if_pos hdone]
    refine ⟨fun htrue => ?_, hreceived ▸ suffix_append_right h.queue _, h.fresh, ?_, ?_⟩
    · exact h.up_of_done htrue
    · intro htrue
      exact absurd hdone (by rw [htrue]; decide)
    · intro htrue
      exact absurd hdone (by rw [htrue]; decide)
  · rw [if_neg hdone]
    -- the sample goes to the end of everything
    refine ⟨h.up_of_done, hreceived ▸ suffix_append_right h.queue _,
      fun _ hfalse => absurd hfalse hdone, fun htrue => ?_, fun htrue => ?_⟩
    · rw [readings_integrate, List.map_append]
      exact suffix_append_right (h.queued htrue) _
    · rw [readings_integrate, hreceived, List.map_append]
      exact suffix_append_right (h.held htrue) _

theorem propagated_odometry {es : List (Event K Pose)} {s : State K Pose Noise}
    (h : Propagated P es s) (msg : Correction K Pose) :
    Propagated P (es ++ [.odometry msg]) (odometryHandler G P s msg).1 := by
  have hreceived : received P (es ++ [.odometry msg]) = received P es :=
    (received_concat P es (.odometry msg)).trans (List.append_nil _)
  have hcases := odometryHandler_cases (G := G) (P := P) s msg
  dsimp only at hcases
  rcases hcases with ⟨-, heq⟩ | ⟨hdown, hup', hdone, hqueue, hreset⟩ | ⟨hdown', hdone', hqueue⟩ |
    ⟨hup, hup', hdone', hqueue, hsome, hnone⟩
  · rw [heq]
    exact ⟨h.up_of_done, hreceived ▸ h.queue, h.fresh, h.queued, hreceived ▸ h.held⟩
  · -- an initialization: no odometry is published before the next correction
    have hnot : s.doneFirstOpt ≠ true := fun htrue => by
      rw [h.up_of_done htrue] at hdown
      exact nomatch hdown
    refine ⟨fun _ => hup', by rw [hqueue, hreceived]; exact h.queue, fun _ _ => by rw [hreset]; rfl,
      fun htrue => ?_, fun htrue => ?_⟩
    · exact absurd (hdone ▸ htrue) hnot
    · exact absurd (hdone ▸ htrue) hnot
  · -- a failure: likewise
    refine ⟨fun htrue => ?_, by rw [hqueue, hreceived]; exact h.queue, fun hup => ?_,
      fun htrue => ?_, fun htrue => ?_⟩
    · exact absurd htrue (by rw [hdone']; decide)
    · exact absurd hup (by rw [hdown']; decide)
    · exact absurd htrue (by rw [hdone']; decide)
    · exact absurd htrue (by rw [hdone']; decide)
  -- a step: what the queue still holds is integrated again
  · have hsuffix : (odometryHandler G P s msg).1.imuQueImu <:+ received P es :=
      hqueue ▸ (newer_suffix _ _).trans h.queue
    refine ⟨fun _ => hup', hreceived ▸ hsuffix, fun _ hfalse => ?_, fun _ => ?_, fun _ => ?_⟩
    · exact absurd hfalse (by rw [hdone']; decide)
    · by_cases hnil : (odometryHandler G P s msg).1.imuQueImu = []
      · rw [hnil]
        exact List.nil_suffix
      · obtain ⟨last, hintegrator⟩ := hsome hnil
        rw [hintegrator, (integrateAll_spec _ _ _).2, readings_reset, List.nil_append]
    · by_cases hnil : (odometryHandler G P s msg).1.imuQueImu = []
      · -- the integrator is left as it was
        rw [hnone hnil, hreceived]
        by_cases hdone : s.doneFirstOpt = true
        · exact h.held hdone
        · rw [h.fresh hup (by simpa using hdone)]
          exact List.nil_suffix
      · obtain ⟨last, hintegrator⟩ := hsome hnil
        rw [hintegrator, (integrateAll_spec _ _ _).2, readings_reset, List.nil_append, hreceived]
        exact hsuffix.map _

/-- **The integrator holds the end of the stream.** In every run, once odometry is
published, what `imuIntegratorImu_` has integrated are the last samples that have been
received, none left out and none twice, and all that is queued is among them. -/
theorem integrator_suffix (es : List (Event K Pose)) :
    Propagated P es ((imuPreintegration G P).run es) := by
  induction es using List.reverseRecOn with
  | nil =>
    exact ⟨fun h => (nomatch h), List.suffix_rfl, fun h => (nomatch h), fun h => (nomatch h),
      fun h => (nomatch h)⟩
  | append_singleton es e ih =>
    rw [Machine.run_concat]
    cases e with
    | imu msg => exact propagated_imu G P ih msg
    | odometry msg => exact propagated_odometry G P ih msg

/-- A correction of an initialized system leaves a sample in the queue. -/
def Leaves (s : State K Pose Noise) : Event K Pose → Prop
  | .imu _ => True
  | .odometry msg =>
    s.systemInitialized = true → newer (msg.stamp - deltaT) s.imuQueImu ≠ []

/-- The integrator holds the queue, under the bias of the last correction. -/
def Mirrors (s : State K Pose Noise) : Prop :=
  s.imuIntegratorImu.bias = s.prevBiasOdom ∧
    s.imuIntegratorImu.readings = s.imuQueImu.map ImuSample.reading

variable {G P}

theorem mirrors_imu {s : State K Pose Noise} (h : s.doneFirstOpt = true → Mirrors s)
    (msg : ImuSample K) (hdone : (imuHandler G P s msg).1.doneFirstOpt = true) :
    Mirrors (imuHandler G P s msg).1 := by
  unfold imuHandler at hdone ⊢
  dsimp only at hdone ⊢
  by_cases hfirst : s.doneFirstOpt = false
  · rw [if_pos hfirst] at hdone
    exact absurd hdone (by rw [hfirst]; decide)
  · rw [if_neg hfirst]
    obtain ⟨hbias, hreadings⟩ := h (by simpa using hfirst)
    exact ⟨hbias, by rw [readings_integrate, hreadings, List.map_append]; rfl⟩

/-- After a correction that is carried out, the integrator holds the queue if a sample is
left in it, and else only by chance. -/
theorem mirrors_iff {s : State K Pose Noise} {msg : Correction K Pose}
    (hsamples : s.imuQueOpt ≠ []) (hup : s.systemInitialized = true)
    (hup' : (odometryHandler G P s msg).1.systemInitialized = true) :
    Mirrors (odometryHandler G P s msg).1 ↔
      newer (msg.stamp - deltaT) s.imuQueImu ≠ [] ∨
        s.imuIntegratorImu.bias = (odometryHandler G P s msg).1.prevBiasOdom ∧
          s.imuIntegratorImu.readings = [] := by
  have hcases := odometryHandler_cases (G := G) (P := P) s msg
  dsimp only at hcases
  rcases hcases with ⟨hempty, -⟩ | ⟨hdown, -⟩ | ⟨hdown, -⟩ | ⟨-, -, -, hqueue, hsome, hnone⟩
  · exact absurd hempty hsamples
  · exact absurd hup (by rw [hdown]; decide)
  · exact absurd hup' (by rw [hdown]; decide)
  · by_cases hnil : newer (msg.stamp - deltaT) s.imuQueImu = []
    · have hkept := hnone (hqueue.trans hnil)
      rw [Mirrors, hkept, hqueue, hnil]
      simp
    · obtain ⟨last, hintegrator⟩ := hsome (hqueue ▸ hnil)
      obtain ⟨hbias, hreadings⟩ := integrateAll_spec
        (.reset (odometryHandler G P s msg).1.prevBiasOdom) last
        (odometryHandler G P s msg).1.imuQueImu
      rw [← hintegrator] at hbias hreadings
      exact iff_of_true ⟨hbias, hreadings⟩ (Or.inl hnil)

theorem mirrors_odometry {s : State K Pose Noise} (h : s.doneFirstOpt = true → Mirrors s)
    (hup : s.doneFirstOpt = true → s.systemInitialized = true) {msg : Correction K Pose}
    (hleaves : s.systemInitialized = true → newer (msg.stamp - deltaT) s.imuQueImu ≠ [])
    (hdone : (odometryHandler G P s msg).1.doneFirstOpt = true) :
    Mirrors (odometryHandler G P s msg).1 := by
  by_cases hsamples : s.imuQueOpt = []
  · have heq : odometryHandler G P s msg = (s, []) := if_pos hsamples
    rw [heq] at hdone ⊢
    exact h hdone
  have hcases := odometryHandler_cases (G := G) (P := P) s msg
  dsimp only at hcases
  rcases hcases with ⟨hempty, -⟩ | ⟨hdown, -, hsame, -⟩ | ⟨-, hfalse, -⟩ | ⟨hinit, hinit', -⟩
  · exact absurd hempty hsamples
  · rw [hsame] at hdone
    exact absurd (hup hdone) (by rw [hdown]; decide)
  · exact absurd hdone (by rw [hfalse]; decide)
  · exact (mirrors_iff hsamples hinit hinit').mpr (Or.inl (hleaves hinit))

variable (G P)

/-- **What is published.** If every correction so far has left a sample in the queue, then
the odometry of the next sample is predicted from the state and bias of the last correction
and from exactly the samples that are queued. -/
theorem integrator_eq_queue {es : List (Event K Pose)}
    (h : Each (fun pre e => Leaves ((imuPreintegration G P).run pre) e) es)
    (hdone : ((imuPreintegration G P).run es).doneFirstOpt = true) (msg : ImuSample K) :
    let s := (imuPreintegration G P).run es
    let m := convertSample P msg
    ∃ I : Integrator K, I.bias = s.prevBiasOdom ∧
      I.readings = (s.imuQueImu ++ [m]).map ImuSample.reading ∧
      (imuPreintegration G P).out s (.imu msg) =
        [.odometry m.stamp
          (G.compose (G.predict I s.prevStateOdom s.prevBiasOdom).pose P.imu2Lidar)
          (G.predict I s.prevStateOdom s.prevBiasOdom).velocity
          (m.angularVelocity + s.prevBiasOdom.gyroscope)] := by
  intro s m
  have hmirrors : s.doneFirstOpt = true → Mirrors s := by
    refine run_induction (I := fun es =>
      ((imuPreintegration G P).run es).doneFirstOpt = true →
        Mirrors ((imuPreintegration G P).run es)) (fun hfalse => nomatch hfalse) ?_ h
    intro es e _ ih hleaves
    rw [Machine.run_concat]
    cases e with
    | imu msg => exact mirrors_imu ih msg
    | odometry msg => exact mirrors_odometry ih (integrator_suffix G P es).up_of_done hleaves
  obtain ⟨hbias, hreadings⟩ := hmirrors hdone
  refine ⟨s.imuIntegratorImu.integrate m (interval s.lastImuTImu m.stamp), hbias, ?_, ?_⟩
  · rw [readings_integrate, hreadings, List.map_append]
    rfl
  · change (imuHandler G P s msg).2 = _
    unfold imuHandler
    dsimp only
    rw [if_neg (by rw [hdone]; decide)]

end Run

/-! ### A vehicle at rest -/

/-- Poses are all one, and every estimate is a rest. -/
def restGtsam : Gtsam ℚ Unit Unit where
  compose _ _ := ()
  identity := ()
  predict _ state _ := state
  estimate _ _ := ((), 0, ⟨0, 0⟩)
  marginal _ _ := ((), (), ())
  priorPoseNoise := ()
  priorVelNoise := ()
  priorBiasNoise := ()
  correctionNoise := ()
  correctionNoise2 := ()
  betweenNoise _ := ()

def restParams : Params ℚ Unit := ⟨1, (), ()⟩

/-- A sample at rest. -/
def restImu (stamp : ℚ) : Event ℚ Unit := .imu ⟨stamp, 0, 0⟩

/-- A sample, and the correction that initializes the system. -/
def restStart : List (Event ℚ Unit) := [restImu 1, .odometry ⟨2, (), 0⟩]

/-- Two samples, and a correction between them. -/
def restNext : List (Event ℚ Unit) := [restImu 3, restImu 5, .odometry ⟨4, (), 0⟩]

theorem factors_partition_rest : Shared restGtsam restParams restStart restNext :=
  factors_partition restGtsam restParams (each_iff_getElem.mpr (by decide +kernel))

theorem integrator_eq_queue_rest :
    let s := (imuPreintegration restGtsam restParams).run (restStart ++ restNext)
    let m := convertSample restParams ⟨6, 0, 0⟩
    ∃ I : Integrator ℚ, I.bias = s.prevBiasOdom ∧
      I.readings = (s.imuQueImu ++ [m]).map ImuSample.reading ∧
      (imuPreintegration restGtsam restParams).out s (.imu ⟨6, 0, 0⟩) =
        [.odometry m.stamp
          (restGtsam.compose (restGtsam.predict I s.prevStateOdom s.prevBiasOdom).pose
            restParams.imu2Lidar)
          (restGtsam.predict I s.prevStateOdom s.prevBiasOdom).velocity
          (m.angularVelocity + s.prevBiasOdom.gyroscope)] := by
  refine integrator_eq_queue restGtsam restParams ?_ (by decide +kernel) ⟨6, 0, 0⟩
  refine each_iff_getElem.mpr fun i hi => ?_
  have hlt : i < 5 := hi
  interval_cases i
  · trivial
  · intro hup
    exact absurd hup (by decide +kernel)
  · trivial
  · trivial
  · intro _
    exact List.ne_nil_of_length_pos (by decide +kernel)

end Preintegration
end Mapping
end WtbAutoware
