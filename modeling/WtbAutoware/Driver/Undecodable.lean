import WtbAutoware.Driver.Bicycle
import WtbAutoware.Driver.Wire

/-!
# Frames that cannot be decoded

A feedback frame says in three places that it carries no feedback: in its flags, in its
length, and in a gear nibble that is no gear. `can_tx_callback` asks the identifier alone.
It does not look at the flags or the length, and compares the gear name with "R", so that
the name `ParseCtrlFb` makes up for an unknown nibble counts as forwards.

`canTx_congr` says what the callback does look at: the speed signed by the gear, the
steering angle and the stamp. So there is a decodable frame that it cannot tell from an
undecodable one (`canTx_repaired`), and the undecodable frame goes where that one does:
into the latest values, into a `CarMsg` and into the odometry (`canTx_taken`).
`undecodable_never` puts the two together.
-/

namespace WtbAutoware
namespace Driver

open Reactive

variable {K : Type} [Field K] [LinearOrder K] [IsStrictOrderedRing K] [FloorRing K]
  (P : Params K) (pf : Platform K)

/-- The frame does not carry a payload that can be decoded: it is a remote or an error
frame, too short for the speed and the steering angle, or its gear is unknown. -/
def Undecodable (msg : Frame K) : Prop :=
  msg.isRtr = true ∨ msg.isError = true ∨ msg.dlc.toNat < 5 ∨
    ¬ (gearMap (gearRaw msg.data)).Known

/-- The gear of a payload, with D for an unknown one. -/
def repairedGear (data : Vector (BitVec 8) 8) : Gear :=
  match gearMap (gearRaw data) with
  | .unknown _ => .D
  | gear => gear

/-- The frame with its flags cleared, its full length and a gear: the speed and the
steering angle are encoded anew. -/
def repaired (msg : Frame K) : Frame K :=
  { msg with
    isRtr := false
    isError := false
    dlc := 8
    data := ctrlBytes (gearMapping (repairedGear msg.data)) (speedRaw msg.data)
      (BitVec.ofInt 32 (signed16 (angleRaw msg.data)).toInt) 0 }

theorem repairedGear_known (data : Vector (BitVec 8) 8) : (repairedGear data).Known := by
  unfold repairedGear
  cases gearMap (gearRaw data) <;> trivial

/-- The callback leaves the odometry and the latest feedback as they are, and publishes
neither odometry nor a `CarMsg`. -/
structure LeavesAlone (now : K) (s : State K) (msg : Frame K) : Prop where
  pose : SamePose s (canTxCallback P pf now s msg).1
  latestLinearVelocity :
    (canTxCallback P pf now s msg).1.latestLinearVelocity = s.latestLinearVelocity
  latestSteeringAngle :
    (canTxCallback P pf now s msg).1.latestSteeringAngle = s.latestSteeringAngle
  odom : ∀ o, Output.odom o ∉ (canTxCallback P pf now s msg).2
  carMsg : ∀ m, Output.carMsg m ∉ (canTxCallback P pf now s msg).2

section Frames

variable (now : K) (s : State K) {msg msg' : Frame K}

/-- **What the callback reads.** Two feedback frames that decode alike are the same to it,
whatever their flags and their length. -/
theorem canTx_congr (hid : msg.id = 0x18C4D2EF) (hid' : msg'.id = 0x18C4D2EF)
    (hspeed : feedbackSpeed (parseCtrlFb msg.data : Gear × K × K) =
      feedbackSpeed (parseCtrlFb msg'.data))
    (hangle : (parseCtrlFb msg.data : Gear × K × K).2.2 =
      (parseCtrlFb msg'.data : Gear × K × K).2.2)
    (hstamp : msg.header.stamp = msg'.header.stamp) :
    canTxCallback P pf now s msg = canTxCallback P pf now s msg' := by
  unfold canTxCallback
  rw [if_pos hid, if_pos hid']
  dsimp only
  rw [hspeed, hangle, hstamp]

omit [LinearOrder K] [IsStrictOrderedRing K] [FloorRing K] in
/-- An unknown gear counts as forwards. -/
theorem feedbackSpeed_repairedGear (data : Vector (BitVec 8) 8) :
    feedbackSpeed (repairedGear data, (parseCtrlFb data : Gear × K × K).2) =
      feedbackSpeed (parseCtrlFb data) := by
  change feedbackSpeed (repairedGear data, _) = feedbackSpeed (gearMap (gearRaw data), _)
  unfold repairedGear
  cases hgear : gearMap (gearRaw data) with
  | unknown raw =>
    have hD : Gear.D ≠ .R := by simp
    have hunknown : Gear.unknown raw ≠ .R := by simp
    unfold feedbackSpeed
    rw [if_neg hD, if_neg hunknown]
    rfl
  | _ => rfl

omit [LinearOrder K] [IsStrictOrderedRing K] [FloorRing K] in
/-- The repaired payload has the speed and the angle of the old one, and a known gear. -/
theorem parseCtrlFb_repaired (msg : Frame K) :
    (parseCtrlFb (repaired msg).data : Gear × K × K) =
      (repairedGear msg.data, (parseCtrlFb msg.data : Gear × K × K).2) := by
  have hlt := toNat_speedRaw_lt msg.data
  have hangle : (signed16 (angleRaw (repaired msg).data)).toInt =
      (signed16 (angleRaw msg.data)).toInt := by
    -- the word that was decoded is the word that is encoded
    have hword : (angleRaw (repaired msg).data).toNat = (angleRaw msg.data).toNat := by
      rw [repaired, toNat_angleRaw_ctrlBytes]
      exact toNat_ofInt_signed16 (toNat_angleRaw_lt msg.data)
    rw [BitVec.eq_of_toNat_eq hword]
  unfold repaired at hangle ⊢
  rw [parseCtrlFb_ctrlBytes (repairedGear_known msg.data), Nat.mod_eq_of_lt hlt, hangle]
  rfl

/-- **A decodable double.** The callback does not tell a frame from its repaired version. -/
theorem canTx_repaired (hid : msg.id = 0x18C4D2EF) :
    canTxCallback P pf now s msg = canTxCallback P pf now s (repaired msg) := by
  refine canTx_congr P pf now s hid hid ?_ ?_ rfl
  · rw [parseCtrlFb_repaired, feedbackSpeed_repairedGear]
  · rw [parseCtrlFb_repaired]

omit [LinearOrder K] [IsStrictOrderedRing K] [FloorRing K] in
theorem not_undecodable_repaired (msg : Frame K) : ¬ Undecodable (repaired msg) := by
  rintro (h | h | h | h)
  · exact absurd h (by simp [repaired])
  · exact absurd h (by simp [repaired])
  · exact absurd h (by simp [repaired])
  · refine h ?_
    have hgear : gearMap (gearRaw (repaired msg).data) = repairedGear msg.data :=
      congrArg Prod.fst (parseCtrlFb_repaired msg)
    rw [hgear]
    exact repairedGear_known msg.data

/-- **Every feedback frame is taken.** Its speed and its angle go out in a `CarMsg`, and
if the clock has moved on they are integrated. -/
theorem canTx_taken (hid : msg.id = 0x18C4D2EF) :
    (∃ m, Output.carMsg m ∈ (canTxCallback P pf now s msg).2 ∧
      m.speed = .fin (feedbackSpeed (parseCtrlFb msg.data)) ∧
      m.angle = .fin (feedbackAngle pf msg)) ∧
    (0 < now - s.lastTime → ∃ o, odometryOut (canTxCallback P pf now s msg).2 = [o]) := by
  refine ⟨?_, ?_⟩
  · obtain ⟨m, hm⟩ := exists_carMsg_canTx P pf now s hid
    exact ⟨m, hm, carMsg_canTx P pf now s hid hm⟩
  · intro hdt
    exact ⟨_, (canTx_bicycle P pf now s hid (updateInterval_of_pos now s hdt)).out⟩

end Frames

/-- **No undecodable frame leaves the node alone.** In every state and at every time it does
what a decodable frame does. -/
theorem undecodable_never (msg : Frame K) (hid : msg.id = 0x18C4D2EF) (hbad : Undecodable msg) :
    (∃ msg', msg' ≠ msg ∧ ¬ Undecodable msg' ∧
      ∀ now s, canTxCallback P pf now s msg = canTxCallback P pf now s msg') ∧
    ∀ now s, ¬ LeavesAlone P pf now s msg := by
  refine ⟨⟨repaired msg, ?_, not_undecodable_repaired msg, ?_⟩, ?_⟩
  · intro heq
    rw [← heq] at hbad
    exact not_undecodable_repaired msg hbad
  · intro now s
    exact canTx_repaired P pf now s hid
  · intro now s h
    obtain ⟨⟨m, hm, -⟩, -⟩ := canTx_taken P pf now s hid
    exact h.carMsg m hm

/-- A remote frame with the identifier of the feedback, and without data. -/
def remoteFrame : Frame ℚ where
  header := ⟨0, ""⟩
  id := 0x18C4D2EF
  isRtr := true
  isExtended := true
  isError := false
  dlc := 0
  data := ctrlBytes (gearMapping .disable) 0 0 0

/-- It is answered with a `CarMsg`. -/
theorem remoteFrame_taken :
    ¬ ∀ msg : Frame ℚ, msg.id = 0x18C4D2EF → Undecodable msg →
      LeavesAlone Params.default Platform.rat 1 (State.initial 0) msg := by
  intro h
  obtain ⟨m, hm⟩ := exists_carMsg_canTx Params.default Platform.rat 1 (State.initial 0)
    (show remoteFrame.id = 0x18C4D2EF from rfl)
  exact (h remoteFrame rfl (Or.inl rfl)).carMsg m hm

/-- `undecodable_never` for `remoteFrame`. -/
theorem undecodable_never_remote :
    ¬ LeavesAlone Params.default Platform.rat 1 (State.initial 0) remoteFrame :=
  (undecodable_never Params.default Platform.rat remoteFrame rfl (Or.inl rfl)).2 1
    (State.initial 0)

end Driver
end WtbAutoware
