import WtbAutoware.Mapping.ImageProjection

/-!
# LIO-SAM's `imuPreintegration`

`IMUPreintegration` receives IMU samples and, now and then, a pose of the lidar odometry,
a correction. Each sample goes into two queues.

* `imuQueOpt` feeds the factor graph. A correction takes from it the samples that are older
  than itself, integrates them with `imuIntegratorOpt_`, and adds the result as a factor
  between the last pose and its own.
* `imuQueImu` feeds what is published in between. A correction drops the older samples and
  integrates the others anew with `imuIntegratorImu_`; a sample that comes later is
  integrated at once and the predicted odometry is published.

gtsam is taken as it comes (`Gtsam`): what it predicts from integrated samples, and what it
estimates from the factors and values that it was given. An integrator is the bias of its
last reset and what has been integrated since; the optimizer is the factors and values of
its updates. The calls into the optimizer are outputs of the node, beside the odometry.
-/

namespace WtbAutoware
namespace Mapping
namespace Preintegration

open Reactive

/-! ### Data -/

/-- `sensor_msgs/Imu`, as this node reads it. -/
structure ImuSample (K : Type) where
  stamp : K
  linearAcceleration : Vec3 K
  angularVelocity : Vec3 K

/-- `gtsam::imuBias::ConstantBias`. -/
structure Bias (K : Type) where
  accelerometer : Vec3 K
  gyroscope : Vec3 K

/-- An argument list of `integrateMeasurement`. -/
structure Measurement (K : Type) where
  acc : Vec3 K
  gyr : Vec3 K
  dt : K

/-- `gtsam::PreintegratedImuMeasurements`. -/
structure Integrator (K : Type) where
  bias : Bias K
  measurements : List (Measurement K)

/-- `gtsam::NavState`. -/
structure NavState (K Pose : Type) where
  pose : Pose
  velocity : Vec3 K

/-- The symbols of the graph: pose, velocity and bias of a key. -/
inductive Symbol where
  | X (key : ℕ)
  | V (key : ℕ)
  | B (key : ℕ)
  deriving DecidableEq

/-- The factors that the node adds. -/
inductive Factor (K Pose Noise : Type) where
  | priorPose (key : ℕ) (pose : Pose) (noise : Noise)
  | priorVel (key : ℕ) (vel : Vec3 K) (noise : Noise)
  | priorBias (key : ℕ) (bias : Bias K) (noise : Noise)
  /-- `gtsam::ImuFactor`, from the pose and velocity of `i` to those of `j`. -/
  | imu (i j : ℕ) (preint : Integrator K)
  /-- `gtsam::BetweenFactor`, on the biases. -/
  | betweenBias (i j : ℕ) (noise : Noise)

/-- The values that the node inserts. -/
inductive GraphValue (K Pose : Type) where
  | pose (key : ℕ) (pose : Pose)
  | vel (key : ℕ) (vel : Vec3 K)
  | bias (key : ℕ) (bias : Bias K)

/-- `gtsam::ISAM2`: everything that it has been given since its construction. -/
structure Optimizer (K Pose Noise : Type) where
  factors : List (Factor K Pose Noise)
  values : List (GraphValue K Pose)

/-- What the node takes from gtsam, and its noise models. -/
structure Gtsam (K Pose Noise : Type) where
  compose : Pose → Pose → Pose
  identity : Pose
  predict : Integrator K → NavState K Pose → Bias K → NavState K Pose
  /-- `calculateEstimate`, at the three symbols of a key. -/
  estimate : Optimizer K Pose Noise → ℕ → Pose × Vec3 K × Bias K
  /-- `noiseModel::Gaussian::Covariance` of `marginalCovariance`, likewise. -/
  marginal : Optimizer K Pose Noise → ℕ → Noise × Noise × Noise
  priorPoseNoise : Noise
  priorVelNoise : Noise
  priorBiasNoise : Noise
  correctionNoise : Noise
  correctionNoise2 : Noise
  /-- From the time that is integrated. -/
  betweenNoise : K → Noise

/-- The parameters of the node. -/
structure Params (K Pose : Type) where
  extRot : Matrix (Fin 3) (Fin 3) K
  imu2Lidar : Pose
  lidar2Imu : Pose

/-- `nav_msgs/Odometry`, a correction: the pose, and the first entry of its covariance. -/
structure Correction (K Pose : Type) where
  stamp : K
  pose : Pose
  covariance : K

/-- The members that a callback leaves to the next. `graphFactors` and `graphValues` are
empty whenever one returns. -/
structure State (K Pose Noise : Type) where
  systemInitialized : Bool
  doneFirstOpt : Bool
  lastImuTImu : K
  lastImuTOpt : K
  imuIntegratorOpt : Integrator K
  imuIntegratorImu : Integrator K
  imuQueOpt : List (ImuSample K)
  imuQueImu : List (ImuSample K)
  prevPose : Pose
  prevVel : Vec3 K
  prevState : NavState K Pose
  prevBias : Bias K
  prevStateOdom : NavState K Pose
  prevBiasOdom : Bias K
  optimizer : Optimizer K Pose Noise
  key : ℕ

/-- What reaches the node. -/
inductive Event (K Pose : Type) where
  | imu (msg : ImuSample K)
  | odometry (msg : Correction K Pose)

/-- What the node does to the outside. -/
inductive Output (K Pose Noise : Type) where
  /-- `optimizer.update` with new factors and values. -/
  | update (optimizer : Optimizer K Pose Noise) (factors : List (Factor K Pose Noise))
      (values : List (GraphValue K Pose))
  /-- The estimate or the marginal covariances of a key are asked for. -/
  | read (optimizer : Optimizer K Pose Noise) (key : ℕ)
  | odometry (stamp : K) (pose : Pose) (linear angular : Vec3 K)

/-! ### gtsam -/

section Graph

variable {K Pose Noise : Type}

/-- The symbols that a factor is about. -/
def Factor.symbols : Factor K Pose Noise → List Symbol
  | priorPose key _ _ => [.X key]
  | priorVel key _ _ => [.V key]
  | priorBias key _ _ => [.B key]
  | imu i j _ => [.X i, .V i, .X j, .V j, .B i]
  | betweenBias i j _ => [.B i, .B j]

def GraphValue.symbol : GraphValue K Pose → Symbol
  | pose key _ => .X key
  | vel key _ => .V key
  | bias key _ => .B key

/-- `gtsam::ISAM2` of its parameters. -/
def Optimizer.empty : Optimizer K Pose Noise := ⟨[], []⟩

/-- `optimizer.update`. -/
def Optimizer.update (o : Optimizer K Pose Noise) (factors : List (Factor K Pose Noise))
    (values : List (GraphValue K Pose)) : Optimizer K Pose Noise :=
  ⟨o.factors ++ factors, o.values ++ values⟩

/-- `resetIntegrationAndSetBias`. -/
def Integrator.reset (bias : Bias K) : Integrator K := ⟨bias, []⟩

/-- `integrateMeasurement`. -/
def Integrator.integrate (I : Integrator K) (m : ImuSample K) (dt : K) : Integrator K :=
  { I with measurements := I.measurements ++ [⟨m.linearAcceleration, m.angularVelocity, dt⟩] }

/-- `deltaTij`. -/
def Integrator.deltaTij [Zero K] [Add K] (I : Integrator K) : K :=
  (I.measurements.map Measurement.dt).sum

end Graph

/-! ### The node -/

section Node

variable {K Pose Noise : Type} [Field K] [LinearOrder K]

/-- `delta_t`. -/
def deltaT : K := 0

/-- The interval in front of a sample; there is none before the first. -/
def interval (last imuTime : K) : K := if last < 0 then 1 / 500 else imuTime - last

/-- Samples older than `t` are popped; the stamp of the last of them is kept. -/
def popOlder (t last : K) : List (ImuSample K) → K × List (ImuSample K)
  | [] => (last, [])
  | m :: queue => if m.stamp < t then popOlder t m.stamp queue else (last, m :: queue)

/-- Samples older than `t` are integrated and popped. -/
def integrateOlder (t : K) (I : Integrator K) (last : K) :
    List (ImuSample K) → Integrator K × K × List (ImuSample K)
  | [] => (I, last, [])
  | m :: queue =>
    if m.stamp < t then
      integrateOlder t (I.integrate m (interval last m.stamp)) m.stamp queue
    else (I, last, m :: queue)

/-- Samples are integrated, and stay in their queue. -/
def integrateAll (I : Integrator K) (last : K) : List (ImuSample K) → Integrator K
  | [] => I
  | m :: queue => integrateAll (I.integrate m (interval last m.stamp)) m.stamp queue

/-- The squared norm of a vector. -/
def normSq (v : Vec3 K) : K := ∑ i, v i ^ 2

/-- `failureDetection`, with both sides of each comparison squared. -/
def FailureDetection (velCur : Vec3 K) (biasCur : Bias K) : Prop :=
  900 < normSq velCur ∨ 1 < normSq biasCur.accelerometer ∨ 1 < normSq biasCur.gyroscope

instance (velCur : Vec3 K) (biasCur : Bias K) : Decidable (FailureDetection velCur biasCur) :=
  inferInstanceAs (Decidable (_ ∨ _ ∨ _))

variable (G : Gtsam K Pose Noise) (P : Params K Pose)

/-- The members after construction. -/
def State.initial : State K Pose Noise where
  systemInitialized := false
  doneFirstOpt := false
  lastImuTImu := -1
  lastImuTOpt := -1
  imuIntegratorOpt := .reset ⟨0, 0⟩
  imuIntegratorImu := .reset ⟨0, 0⟩
  imuQueOpt := []
  imuQueImu := []
  prevPose := G.identity
  prevVel := 0
  prevState := ⟨G.identity, 0⟩
  prevBias := ⟨0, 0⟩
  prevStateOdom := ⟨G.identity, 0⟩
  prevBiasOdom := ⟨0, 0⟩
  optimizer := .empty
  key := 1

/-- `resetParams`. -/
def resetParams (s : State K Pose Noise) : State K Pose Noise :=
  { s with lastImuTImu := -1, doneFirstOpt := false, systemInitialized := false }

/-- The first key: priors for its pose, velocity and bias, and their values. -/
def firstFactors (pose : Pose) (vel : Vec3 K) (bias : Bias K) (noise : Noise × Noise × Noise) :
    List (Factor K Pose Noise) :=
  [.priorPose 0 pose noise.1, .priorVel 0 vel noise.2.1, .priorBias 0 bias noise.2.2]

/-- The three values of a key. -/
def keyValues (key : ℕ) (pose : Pose) (vel : Vec3 K) (bias : Bias K) :
    List (GraphValue K Pose) :=
  [.pose key pose, .vel key vel, .bias key bias]

/-- The graph is started anew at key 0. -/
def startGraph (s : State K Pose Noise) (noise : Noise × Noise × Noise) :
    State K Pose Noise × List (Output K Pose Noise) :=
  let factors := firstFactors s.prevPose s.prevVel s.prevBias noise
  let values := keyValues 0 s.prevPose s.prevVel s.prevBias
  ({ s with optimizer := Optimizer.empty.update factors values, key := 1 },
    [.update .empty factors values])

/-- The system is initialized with a correction. -/
def initializeSystem (s : State K Pose Noise) (odom : Correction K Pose) :
    State K Pose Noise × List (Output K Pose Noise) :=
  let popped := popOlder (odom.stamp - deltaT) s.lastImuTOpt s.imuQueOpt
  let bias : Bias K := ⟨0, 0⟩
  let s := { s with
    lastImuTOpt := popped.1
    imuQueOpt := popped.2
    prevPose := G.compose odom.pose P.lidar2Imu
    prevVel := 0
    prevBias := bias }
  let started := startGraph s (G.priorPoseNoise, G.priorVelNoise, G.priorBiasNoise)
  ({ started.1 with
      imuIntegratorImu := .reset bias
      imuIntegratorOpt := .reset bias
      systemInitialized := true }, started.2)

/-- The graph is cut off at a hundred keys: its last estimate becomes the first key of
the next one. -/
def resetGraph (s : State K Pose Noise) :
    State K Pose Noise × List (Output K Pose Noise) :=
  if s.key = 100 then
    let started := startGraph s (G.marginal s.optimizer (s.key - 1))
    (started.1, .read s.optimizer (s.key - 1) :: started.2)
  else (s, [])

/-- The factors of a correction. -/
def correctionFactors (key : ℕ) (preint : Integrator K) (pose : Pose) (degenerate : Bool) :
    List (Factor K Pose Noise) :=
  [.imu (key - 1) key preint, .betweenBias (key - 1) key (G.betweenNoise preint.deltaTij),
    .priorPose key pose (if degenerate then G.correctionNoise2 else G.correctionNoise)]

/-- 1. integrate imu data and optimize. -/
def optimize (s : State K Pose Noise) (odom : Correction K Pose) :
    State K Pose Noise × List (Output K Pose Noise) :=
  let integrated :=
    integrateOlder (odom.stamp - deltaT) s.imuIntegratorOpt s.lastImuTOpt s.imuQueOpt
  -- the covariance is truncated to an integer
  let degenerate : Bool := decide (1 ≤ odom.covariance ∧ odom.covariance < 2)
  let factors := correctionFactors G s.key integrated.1 (G.compose odom.pose P.lidar2Imu)
    degenerate
  let propState := G.predict integrated.1 s.prevState s.prevBias
  let values := keyValues s.key propState.pose propState.velocity s.prevBias
  let optimizer := s.optimizer.update factors values
  let result := G.estimate optimizer s.key
  ({ s with
      lastImuTOpt := integrated.2.1
      imuQueOpt := integrated.2.2
      optimizer := optimizer
      prevPose := result.1
      prevVel := result.2.1
      prevState := ⟨result.1, result.2.1⟩
      prevBias := result.2.2
      imuIntegratorOpt := .reset result.2.2 },
    [.update s.optimizer factors values, .read optimizer s.key])

/-- 2. after optimization, re-propagate imu odometry preintegration. -/
def repropagate (s : State K Pose Noise) (odom : Correction K Pose) :
    State K Pose Noise :=
  let popped := popOlder (odom.stamp - deltaT) (-1) s.imuQueImu
  { s with
    prevStateOdom := s.prevState
    prevBiasOdom := s.prevBias
    imuQueImu := popped.2
    imuIntegratorImu :=
      if popped.2 ≠ [] then integrateAll (.reset s.prevBias) popped.1 popped.2
      else s.imuIntegratorImu
    key := s.key + 1
    doneFirstOpt := true }

/-- `odometryHandler`. -/
def odometryHandler (s : State K Pose Noise) (odom : Correction K Pose) :
    State K Pose Noise × List (Output K Pose Noise) :=
  if s.imuQueOpt = [] then (s, [])
  else if s.systemInitialized = false then initializeSystem G P s odom
  else
    let reset := resetGraph G s
    let optimized := optimize G P reset.1 odom
    if FailureDetection optimized.1.prevVel optimized.1.prevBias then
      (resetParams optimized.1, reset.2 ++ optimized.2)
    else (repropagate optimized.1 odom, reset.2 ++ optimized.2)

/-- `imuConverter`. -/
def convertSample (m : ImuSample K) : ImuSample K :=
  ⟨m.stamp, P.extRot.mulVec m.linearAcceleration, P.extRot.mulVec m.angularVelocity⟩

/-- `imuHandler`. -/
def imuHandler (s : State K Pose Noise) (imuRaw : ImuSample K) :
    State K Pose Noise × List (Output K Pose Noise) :=
  let thisImu := convertSample P imuRaw
  let s := { s with
    imuQueOpt := s.imuQueOpt ++ [thisImu]
    imuQueImu := s.imuQueImu ++ [thisImu] }
  if s.doneFirstOpt = false then (s, [])
  else
    let dt := interval s.lastImuTImu thisImu.stamp
    let s := { s with
      lastImuTImu := thisImu.stamp
      imuIntegratorImu := s.imuIntegratorImu.integrate thisImu dt }
    let currentState := G.predict s.imuIntegratorImu s.prevStateOdom s.prevBiasOdom
    (s, [.odometry thisImu.stamp (G.compose currentState.pose P.imu2Lidar)
      currentState.velocity (thisImu.angularVelocity + s.prevBiasOdom.gyroscope)])

/-- `IMUPreintegration`. -/
def imuPreintegration :
    Machine (State K Pose Noise) (Event K Pose) (Output K Pose Noise) where
  init := State.initial G
  step s
    | .imu msg => imuHandler G P s msg
    | .odometry msg => odometryHandler G P s msg

end Node

end Preintegration
end Mapping
end WtbAutoware
