import WtbAutoware.Ahrs.Provenance

/-!
# Counting lost frames

The driver compares the serial number of a frame with that of the frame before it, and adds
the frames that are missing in between to `sn_lost_`. It does so for every frame whose
header is right, and for the ground frames that it skips.

Before the first frame, the member for the serial number holds zero, which is the number of
no frame. Three of the branches therefore put the number before that of the frame there
first. The INSGPS branch and the ground branch do not, and then two things go wrong. The
first frame is compared with zero, and what seems to be missing is counted. And the first
frame of the three other types still replaces the number, so that nothing is counted in
front of it, whether frames are missing there or not (`startup`).

So what is counted is off by the difference of the two (`snLost_run`), and right if the
first frame comes from one of the three branches, or the two happen to be equal
(`accounts_iff`).
-/

namespace WtbAutoware
namespace Ahrs

open Reactive

/-! ### The frames that count -/

/-- The serial number that a round takes into account, and whether its branch looks for the
first one. -/
def counted : Round → Option (Byte × Bool)
  | .ground sn => some (sn, false)
  | .frame f => some (f.header.serialNum, decide (f.type ≠ .insgps))
  | _ => none

/-- The serial numbers of a run, in order. -/
def serials (rs : List Round) : List Byte := (rs.filterMap counted).map Prod.fst

/-- The number of frames between two serial numbers. -/
def missing (a b : Byte) : ℤ := ((b.toNat : ℤ) - (a.toNat : ℤ) - 1) % 256

/-- The number of frames between successive serial numbers, added up. -/
def lost : List Byte → ℤ
  | a :: b :: sns => missing a b + lost (b :: sns)
  | _ => 0

/-- The frames in front of the first that takes its own serial number for the first one. -/
def startup : Byte → List (Byte × Bool) → ℤ
  | _, [] => 0
  | a, (sn, true) :: _ => missing a sn
  | _, (sn, false) :: events => startup sn events

theorem missing_pred (sn : Byte) : missing (sn - 1) sn = 0 := by
  have hlt := sn.isLt
  unfold missing
  rw [BitVec.toNat_sub]
  change ((sn.toNat : ℤ) - ((2 ^ 8 - 1 + sn.toNat) % 2 ^ 8 : ℕ) - 1) % 256 = 0
  omega

/-! ### One round -/

/-- The count goes up by what is missing, with the wrap-around in either comparison. -/
theorem snLost_checkSN (s : State) (sn : Byte) :
    (checkSN s sn).snLost = s.snLost + missing s.readSn sn := by
  have hread := s.readSn.isLt
  have hsn := sn.isLt
  have hexpected : (s.readSn + 1).toNat = (s.readSn.toNat + 1) % 256 := BitVec.toNat_add _ _
  unfold checkSN missing
  dsimp only
  refine congrArg (s.snLost + ·) ?_
  split
  · next hne =>
    rw [ne_eq, ← BitVec.toNat_inj, hexpected] at hne
    split
    · -- the number has wrapped around since the last frame
      next hless =>
      rw [BitVec.lt_def, hexpected] at hless
      omega
    · -- the expected number may have
      next hle =>
      rw [BitVec.lt_def, hexpected] at hle
      omega
  · -- nothing is missing
    next heq =>
    rw [not_not, ← BitVec.toNat_inj, hexpected] at heq
    omega

/-- A frame that is no `INSGPS` one takes its number for the first one. -/
theorem firstSn_initSN (s : State) (type : FrameType) (sn : Byte) :
    (initSN s type sn).firstSn = (s.firstSn || decide (type ≠ .insgps)) := by
  unfold initSN
  split
  · next hinit =>
    rw [decide_eq_true hinit.1, Bool.or_true]
  · next hinit =>
    cases hfirst : s.firstSn with
    | true => rfl
    | false =>
      have htype : ¬ type ≠ .insgps := fun htype => hinit ⟨htype, hfirst⟩
      rw [decide_eq_false htype, Bool.or_false]

/-- It puts in the number before its own, and nothing is missing after that. -/
theorem snLost_checkSN_initSN (s : State) (type : FrameType) (sn : Byte) :
    (checkSN (initSN s type sn) sn).snLost = s.snLost +
      if decide (type ≠ .insgps) = true ∧ s.firstSn = false then 0 else missing s.readSn sn := by
  rw [snLost_checkSN]
  unfold initSN
  by_cases hinit : type ≠ .insgps ∧ s.firstSn = false
  · rw [if_pos hinit, if_pos ⟨decide_eq_true hinit.1, hinit.2⟩]
    exact congrArg (s.snLost + ·) (missing_pred sn)
  · rw [if_neg hinit, if_neg fun h => hinit ⟨of_decide_eq_true h.1, h.2⟩]

section Run

variable {F : Type} (num : Numerics F) (P : Params) (buffers : FrameType → FrameBuffer)

/-- What a frame does to the state, whether its checks pass or not. -/
theorem next_frame (s : State) (f : ReadFrame) :
    (processLoop num P buffers).next s (.frame f) =
      (checkSN (initSN (s.putHeader f.type f.header) f.type f.header.serialNum)
        f.header.serialNum).putMsg f.type f.data f.frameEnd := by
  change (handleFrame num P s f).1 = _
  unfold handleFrame
  dsimp only
  split
  · rfl
  · split
    · rfl
    · rfl

/-- What a round does to the three members. -/
theorem next_counted (s : State) {r : Round} {sn : Byte} {sync : Bool}
    (hr : counted r = some (sn, sync)) :
    ((processLoop num P buffers).next s r).readSn = sn ∧
      ((processLoop num P buffers).next s r).firstSn = (s.firstSn || sync) ∧
      ((processLoop num P buffers).next s r).snLost =
        s.snLost + if sync = true ∧ s.firstSn = false then 0 else missing s.readSn sn := by
  cases r with
  | ground sn' =>
    obtain ⟨rfl, rfl⟩ := Prod.mk.inj (Option.some.inj hr)
    -- a ground frame never takes its number for the first one
    refine ⟨rfl, (Bool.or_false _).symm, ?_⟩
    rw [if_neg fun h => Bool.false_ne_true h.1]
    exact snLost_checkSN s sn'
  | frame f =>
    obtain ⟨rfl, rfl⟩ := Prod.mk.inj (Option.some.inj hr)
    rw [next_frame]
    exact ⟨rfl, firstSn_initSN _ f.type _, snLost_checkSN_initSN _ f.type _⟩
  | skipped => exact nomatch hr
  | ignored => exact nomatch hr
  | badHeader type header => exact nomatch hr

/-- The other rounds leave them as they are. -/
theorem next_not_counted (s : State) {r : Round} (hr : counted r = none) :
    ((processLoop num P buffers).next s r).readSn = s.readSn ∧
      ((processLoop num P buffers).next s r).firstSn = s.firstSn ∧
      ((processLoop num P buffers).next s r).snLost = s.snLost := by
  cases r with
  | ground sn => exact nomatch hr
  | frame f => exact nomatch hr
  | skipped => exact ⟨rfl, rfl, rfl⟩
  | ignored => exact ⟨rfl, rfl, rfl⟩
  | badHeader type header => exact ⟨rfl, rfl, rfl⟩

/-! ### Runs -/

/-- What a run counts: all that is missing, less what is in front of the first frame that
takes its own number for the first one. -/
theorem snLost_runFrom (s : State) (rs : List Round) :
    ((processLoop num P buffers).runFrom s rs).snLost =
        s.snLost + lost (s.readSn :: serials rs) -
          (if s.firstSn = false then startup s.readSn (rs.filterMap counted) else 0) ∧
      (s.readSn :: serials rs).getLast? =
        some ((processLoop num P buffers).runFrom s rs).readSn := by
  induction rs generalizing s with
  | nil =>
    refine ⟨?_, rfl⟩
    change s.snLost = s.snLost + 0 - if s.firstSn = false then 0 else 0
    rw [ite_self, add_zero, sub_zero]
  | cons r rs ih =>
    rw [Machine.runFrom_cons]
    obtain ⟨hlost, hlast⟩ := ih ((processLoop num P buffers).next s r)
    rw [hlost]
    unfold serials at hlast ⊢
    cases hr : counted r with
    | none =>
      obtain ⟨hread, hfirst, hcount⟩ := next_not_counted num P buffers s hr
      rw [hread] at hlast
      rw [List.filterMap_cons_none hr, hread, hfirst, hcount]
      exact ⟨rfl, hlast⟩
    | some e =>
      obtain ⟨sn, sync⟩ := e
      obtain ⟨hread, hfirst, hcount⟩ := next_counted num P buffers s hr
      rw [hread] at hlast
      rw [List.filterMap_cons_some hr, hread, hfirst, hcount, List.map_cons, lost]
      refine ⟨?_, by rw [List.getLast?_cons_cons]; exact hlast⟩
      -- whether this is the first frame that takes its own number for the first one
      cases hs : s.firstSn with
      | true => simp [add_assoc]
      | false =>
        cases sync with
        | true =>
          simp only [startup, Bool.or_true, reduceCtorEq, and_self, if_true, if_false]
          ring
        | false =>
          simp only [startup, Bool.or_false, Bool.false_eq_true, false_and, if_true, if_false]
          ring

/-! ### The law -/

/-- After a run with a frame that counts, `sn_lost_`, which is an `int`, is the number of
frames missing between the frames, and `read_sn_` the number of the last. -/
def Accounts (rs : List Round) : Prop :=
  ∀ sn, (serials rs).getLast? = some sn →
    ((processLoop num P buffers).run rs).snLost = lost (serials rs) ∧
      ((processLoop num P buffers).run rs).readSn = sn ∧
      ((processLoop num P buffers).run rs).snLost ≤ 2147483647

end Run

/-- The first frame looks for the first number, or as many frames seem to be missing in
front of it as are overlooked later. -/
def InStep (rs : List Round) : Prop :=
  match rs.filterMap counted with
  | [] => True
  | (_, true) :: _ => True
  | (sn, false) :: events => missing 0 sn = startup sn events

section Law

variable {F : Type} (num : Numerics F) (P : Params) (buffers : FrameType → FrameBuffer)

/-- What a run from the start counts. -/
theorem snLost_run (rs : List Round) :
    ((processLoop num P buffers).run rs).snLost =
      lost (0 :: serials rs) - startup 0 (rs.filterMap counted) := by
  have hlost := (snLost_runFrom num P buffers (State.initial buffers) rs).1
  change ((processLoop num P buffers).run rs).snLost = 0 + lost (0 :: serials rs) -
    (if false = false then startup 0 (rs.filterMap counted) else 0) at hlost
  rw [hlost, if_pos rfl, zero_add]

theorem readSn_run {rs : List Round} {sn : Byte} (hlast : (serials rs).getLast? = some sn) :
    ((processLoop num P buffers).run rs).readSn = sn := by
  have hread : (0 :: serials rs).getLast? = some ((processLoop num P buffers).run rs).readSn :=
    (snLost_runFrom num P buffers (State.initial buffers) rs).2
  rw [List.getLast?_cons, hlast] at hread
  exact (Option.some.inj hread).symm

/-- The frames that are counted are those that are missing if the run starts in step. -/
theorem snLost_run_eq_iff (rs : List Round) :
    ((processLoop num P buffers).run rs).snLost = lost (serials rs) ↔ InStep rs := by
  rw [snLost_run]
  unfold InStep serials
  cases rs.filterMap counted with
  | nil => exact iff_of_true rfl trivial
  | cons e events =>
    obtain ⟨sn, sync⟩ := e
    rw [List.map_cons, lost]
    cases sync with
    | true =>
      -- what seems to be missing is taken back at once
      refine iff_of_true ?_ trivial
      rw [startup]
      ring
    | false =>
      -- it is counted, and what the first frame that looks overlooks makes up for it or not
      rw [startup]
      constructor
      · intro h
        linarith
      · intro h
        linarith

/-- **When the count is right.** For every run: if and only if it starts in step, and the
number of frames that are missing fits the counter. -/
theorem accounts_iff (rs : List Round) :
    Accounts num P buffers rs ↔ InStep rs ∧ lost (serials rs) ≤ 2147483647 := by
  rw [← snLost_run_eq_iff num P buffers]
  unfold Accounts
  refine ⟨?_, ?_⟩
  · intro hall
    cases hlast : (serials rs).getLast? with
    | none =>
      -- no frame counts, and none is missing
      have hnil : rs.filterMap counted = [] :=
        List.map_eq_nil_iff.mp (List.getLast?_eq_none_iff.mp hlast)
      rw [snLost_run, serials, hnil]
      exact ⟨rfl, show (0 : ℤ) ≤ 2147483647 by decide⟩
    | some sn =>
      obtain ⟨heq, -, hle⟩ := hall sn hlast
      exact ⟨heq, heq ▸ hle⟩
  · rintro ⟨heq, hle⟩ sn hlast
    exact ⟨heq, readSn_run num P buffers hlast, heq.symm ▸ hle⟩

/-- An IMU frame with zeros in it. -/
def zeroImu (sn : Byte) : ReadFrame where
  type := .imu
  header := encodeHeader .imu sn 0
  data := List.replicate 56 0
  frameEnd := frameEndByte
  header_crc8 := rfl
  length_data := rfl

/-- A ground frame with number 5 comes first, and four frames are counted as lost. And if it
has number 1 and an IMU frame with number 4 follows, the two in between are overlooked. -/
theorem ground_first :
    ¬ Accounts Numerics.rat ⟨0, "imu"⟩ zeroBuffers [.ground 5] ∧
      ¬ Accounts Numerics.rat ⟨0, "imu"⟩ zeroBuffers [.ground 1, .frame (zeroImu 4)] := by
  refine ⟨?_, ?_⟩
  · intro h
    exact absurd (h 5 rfl).1 (by decide)
  · intro h
    exact absurd (h 4 rfl).1 (by decide +kernel)

end Law

end Ahrs
end WtbAutoware
