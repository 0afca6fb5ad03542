import WtbAutoware.Framework.Rounding
import Mathlib

/-!
# What the nodes take from their platform

Two things that the source does not define and every node uses: the C and C++
run time (`Platform`, and `StdSort` for sorting), and the ROS messages that travel
between the nodes. A message carries the fields that some callback reads or writes;
a time stamp is in seconds.

`Platform K` collects the constant `M_PI`, the three functions of `<cmath>` that
the odometry calls, how a value is narrowed to a `float`, and what an undefined
conversion to a machine integer leaves behind. Of `M_PI` only the sign is assumed, and
of the narrowing what every rounding does (`Rounding`). A `double` is exact; where a
result is about exact arithmetic altogether, `float` is assumed to be exact as well
(`Platform.Exact`).
-/

namespace WtbAutoware

/-! The numerals that several modules use, named so that each of them elaborates to
one term everywhere. -/

instance atLeastTwo_2 : Nat.AtLeastTwo 2 := ⟨by decide⟩
instance atLeastTwo_3 : Nat.AtLeastTwo 3 := ⟨by decide⟩
instance atLeastTwo_5 : Nat.AtLeastTwo 5 := ⟨by decide⟩
instance atLeastTwo_10 : Nat.AtLeastTwo 10 := ⟨by decide⟩
instance atLeastTwo_100 : Nat.AtLeastTwo 100 := ⟨by decide⟩
instance atLeastTwo_180 : Nat.AtLeastTwo 180 := ⟨by decide⟩
instance atLeastTwo_255 : Nat.AtLeastTwo 255 := ⟨by decide⟩
instance atLeastTwo_500 : Nat.AtLeastTwo 500 := ⟨by decide⟩
instance atLeastTwo_900 : Nat.AtLeastTwo 900 := ⟨by decide⟩
instance atLeastTwo_1000 : Nat.AtLeastTwo 1000 := ⟨by decide⟩
instance atLeastTwo_10000 : Nat.AtLeastTwo 10000 := ⟨by decide⟩
instance atLeastTwo_1000000 : Nat.AtLeastTwo 1000000 := ⟨by decide⟩
instance atLeastTwo_1000000000 : Nat.AtLeastTwo 1000000000 := ⟨by decide⟩
instance neZero_4 : NeZero 4 := ⟨by decide⟩

/-- The run time below the nodes. A `double` is an element of `K`. -/
structure Platform (K : Type) [Field K] [LinearOrder K] where
  /-- `M_PI`. -/
  pi : K
  sin : K → K
  cos : K → K
  tan : K → K
  /-- The conversion to `float`. -/
  float : Rounding K 24
  /-- The result of an undefined `static_cast<unsigned int>`. -/
  undefUInt : Flt K → BitVec 32
  /-- The result of an undefined `static_cast<int>`. -/
  undefInt : Flt K → BitVec 32
  pi_pos : 0 < pi

/-- Exact arithmetic: a `float` is as good as a `double`. -/
def Platform.Exact {K : Type} [Field K] [LinearOrder K] (pf : Platform K) : Prop :=
  ∀ x, pf.float x = x

/-- A platform over the rationals: `M_PI` is the double of that name, an undefined
conversion leaves the integer that x86 calls indefinite, and the three functions
take their values at angle 0, the only angle that a vehicle at rest evaluates. -/
def Platform.rat : Platform ℚ where
  pi := 884279719003555 / 281474976710656
  sin := fun _ => 0
  cos := fun _ => 1
  tan := fun _ => 0
  float := .float32
  undefUInt := fun _ => 0
  undefInt := fun _ => 0x80000000
  pi_pos := by norm_num

/-- The same, in exact arithmetic. -/
def Platform.ratExact : Platform ℚ := { Platform.rat with float := .exact }

theorem Platform.ratExact_exact : Platform.ratExact.Exact := fun _ => rfl

/-- A platform over the reals, with the real sine, cosine and tangent. -/
noncomputable def Platform.real (undefUInt undefInt : Flt ℝ → BitVec 32) : Platform ℝ where
  pi := 884279719003555 / 281474976710656
  sin := Real.sin
  cos := Real.cos
  tan := Real.tan
  float := .float32
  undefUInt := undefUInt
  undefInt := undefInt
  pi_pos := by norm_num

/-- The same, with the integers that x86 leaves for an undefined conversion. -/
noncomputable def Platform.x86 : Platform ℝ := Platform.real (fun _ => 0) (fun _ => 0x80000000)

/-- `std::sort`: the elements in another order, none in front of a smaller one. -/
structure StdSort (α : Type) (lt : α → α → Prop) where
  run : List α → List α
  perm : ∀ l, (run l).Perm l
  sorted : ∀ l, (run l).Pairwise fun a b => ¬ lt b a

/-- Merge sort, of elements compared by a key. -/
def StdSort.byKey {α K : Type} [LinearOrder K] (key : α → K) :
    StdSort α fun a b => key a < key b where
  run l := l.mergeSort fun a b => decide (key a ≤ key b)
  perm l := List.mergeSort_perm l _
  sorted l := by
    have hsort : (l.mergeSort fun a b => decide (key a ≤ key b)).Pairwise
        fun a b => decide (key a ≤ key b) = true := List.pairwise_mergeSort
      (fun a b c hab hbc => by
        rw [decide_eq_true_eq] at hab hbc ⊢
        exact hab.trans hbc)
      (fun a b => by
        rw [Bool.or_eq_true, decide_eq_true_eq, decide_eq_true_eq]
        exact le_total (key a) (key b)) l
    exact hsort.imp fun h => not_lt.mpr (of_decide_eq_true h)

/-- `std_msgs/Header`. -/
structure Header (K : Type) where
  stamp : K
  frameId : String
  deriving DecidableEq

/-- `can_msgs/Frame`. -/
structure Frame (K : Type) where
  header : Header K
  id : BitVec 32
  isRtr : Bool
  isExtended : Bool
  isError : Bool
  dlc : BitVec 8
  data : Vector (BitVec 8) 8
  deriving DecidableEq

/-- `geometry_msgs/Twist`: the two components the nodes use. -/
structure Twist (K : Type) where
  linearX : Flt K
  angularZ : Flt K
  deriving DecidableEq

/-- `geometry_msgs/TwistStamped`. -/
structure TwistStamped (K : Type) where
  header : Header K
  twist : Twist K
  deriving DecidableEq

/-- `wtb_car_driver/CarMsg`. -/
structure CarMsg (K : Type) where
  header : Header K
  speed : Flt K
  angle : Flt K
  battery : BitVec 8
  deriving DecidableEq

/-- `nav_msgs/Odometry`: planar pose, heading quaternion and twist. -/
structure Odometry (K : Type) where
  header : Header K
  childFrameId : String
  positionX : Flt K
  positionY : Flt K
  orientationZ : Flt K
  orientationW : Flt K
  linearX : Flt K
  linearY : Flt K
  angularZ : Flt K
  deriving DecidableEq

end WtbAutoware
