import WtbAutoware.Ahrs.Node

/-!
# Where published sensor values come from

A *validated* payload is one that was read behind a header whose CRC8 matched, with the
right CRC16 and end byte. The law (`PublishesValidated`): every value that is published
is read off a validated payload of its own frame type, received up to then.

The buffer of a frame type holds the payload of that type read last
(`buffer_of_latest`), valid or not, and nothing that was received at all before the
first. A valid frame overwrites the buffer of its own type, so what it publishes from
there is validated. The two publications that read the buffer of the other type need
the payload read last there to be valid (`SourcesValid`); with that the law holds of the
frame (`sourced_frame`).

The first valid frame of the two types cannot have it, so the law holds of a whole
stream only if neither type occurs in it (`no_imu_ahrs_of_law`, by descent along
`exists_earlier`). `corruptAhrs` is a stream with worse than an unset buffer: the
quaternion of a frame that failed its CRC16 is published with the next IMU frame.
-/

namespace WtbAutoware
namespace Ahrs

open Reactive

/-- The frames of one type that the rounds have read. -/
def framesRead (type : FrameType) (rs : List Round) : List ReadFrame :=
  rs.filterMap fun
    | .frame f => if f.type = type then some f else none
    | _ => none

/-- The payloads of one type that passed every check. -/
def validated (type : FrameType) (rs : List Round) : List (List Byte) :=
  ((framesRead type rs).filter fun f => f.Valid).map ReadFrame.data

section Law

variable {F : Type} (num : Numerics F) (P : Params)

/-- Each value of a published message is read off a validated payload. -/
def Sourced (rs : List Round) : Output F → Prop
  | .imu m =>
    (∃ a ∈ validated .ahrs rs, m.orientation = orientation num P (ahrsData num a).q) ∧
    (∃ i ∈ validated .imu rs, m.angularVelocity = imuVector num P (imuData num i).gyroscope) ∧
    ∃ i ∈ validated .imu rs, m.linearAcceleration = imuVector num P (imuData num i).accelerometer
  | .magPose2d theta => ∃ a ∈ validated .ahrs rs, theta = (ahrsData num a).heading
  | .eulerAngles m =>
    ∃ a ∈ validated .ahrs rs,
      m = ⟨(ahrsData num a).roll, (ahrsData num a).pitch, (ahrsData num a).heading⟩
  | .magnetic m => ∃ i ∈ validated .imu rs, m = (imuData num i).magnetometer
  | .gps m =>
    ∃ g ∈ validated .geodeticPos rs,
      m.latitude = num.degrees (geodeticPosition num g).latitude ∧
      m.longitude = num.degrees (geodeticPosition num g).longitude ∧
      m.altitude = (geodeticPosition num g).height
  | .nedOdom m =>
    ∃ n ∈ validated .insgps rs,
      m.position = (insgpsData num n).location ∧ m.linear = (insgpsData num n).velocity
  | .twist linear => ∃ n ∈ validated .insgps rs, linear = (insgpsData num n).bodyVelocity

/-- What every round publishes is read off payloads validated up to then. -/
def PublishesValidated (garbage : FrameType → FrameBuffer) (rs : List Round) : Prop :=
  ∀ pre r post, rs = pre ++ r :: post →
    ∀ o ∈ (processLoop num P garbage).out ((processLoop num P garbage).run pre) r,
      Sourced num P (pre ++ [r]) o

end Law

/-! ### The condition -/

/-- A payload of this type has been read, and the one read last is valid. -/
def LatestValid (type : FrameType) (rs : List Round) : Prop :=
  ∃ f, (framesRead type rs).getLast? = some f ∧ f.Valid

/-- Whatever the valid frame `r` publishes from the buffer of another type is valid. -/
def SourcesValid (pre : List Round) (r : Round) : Prop :=
  ∀ f, r = .frame f → f.Valid →
    (f.type = .imu → LatestValid .ahrs pre) ∧ (f.type = .ahrs → LatestValid .imu pre)

/-! ### The rounds and the buffers -/

section Rounds

variable {type : FrameType} {rs : List Round} {f : ReadFrame}

theorem framesRead_append (rs rs' : List Round) :
    framesRead type (rs ++ rs') = framesRead type rs ++ framesRead type rs' :=
  List.filterMap_append

theorem framesRead_frame (f : ReadFrame) :
    framesRead type [.frame f] = if f.type = type then [f] else [] := by
  unfold framesRead
  by_cases h : f.type = type
  · simp [h]
  · simp [h]

theorem mem_framesRead : f ∈ framesRead type rs ↔ Round.frame f ∈ rs ∧ f.type = type := by
  induction rs with
  | nil => simp [framesRead]
  | cons r rs ih =>
    rw [← List.singleton_append, framesRead_append, List.mem_append, ih, List.mem_append]
    cases r with
    | frame g =>
      rw [framesRead_frame]
      by_cases hg : g.type = type
      · rw [if_pos hg, List.mem_singleton, List.mem_singleton, Round.frame.injEq]
        refine ⟨?_, ?_⟩
        · rintro (rfl | ⟨hmem, htype⟩)
          · exact ⟨Or.inl rfl, hg⟩
          · exact ⟨Or.inr hmem, htype⟩
        · rintro ⟨rfl | hmem, htype⟩
          · exact Or.inl rfl
          · exact Or.inr ⟨hmem, htype⟩
      · rw [if_neg hg, List.mem_singleton, Round.frame.injEq]
        refine ⟨?_, ?_⟩
        · rintro (hnil | ⟨hmem, htype⟩)
          · exact absurd hnil List.not_mem_nil
          · exact ⟨Or.inr hmem, htype⟩
        · rintro ⟨rfl | hmem, htype⟩
          · exact absurd htype hg
          · exact Or.inr ⟨hmem, htype⟩
    | _ => simp [framesRead]

/-- A validated payload is that of a valid frame among the rounds. -/
theorem mem_validated {d : List Byte} :
    d ∈ validated type rs ↔
      ∃ f, Round.frame f ∈ rs ∧ f.type = type ∧ f.Valid ∧ f.data = d := by
  unfold validated
  rw [List.mem_map]
  refine ⟨?_, ?_⟩
  · rintro ⟨f, hf, rfl⟩
    obtain ⟨hread, hvalid⟩ := List.mem_filter.mp hf
    obtain ⟨hmem, htype⟩ := mem_framesRead.mp hread
    exact ⟨f, hmem, htype, of_decide_eq_true hvalid, rfl⟩
  · rintro ⟨f, hmem, htype, hvalid, rfl⟩
    exact ⟨f, List.mem_filter.mpr ⟨mem_framesRead.mpr ⟨hmem, htype⟩, decide_eq_true hvalid⟩, rfl⟩

variable {F : Type} (num : Numerics F) (P : Params) (garbage : FrameType → FrameBuffer)

/-- **A buffer holds the payload read last.** -/
theorem buffer_of_latest (h : (framesRead type rs).getLast? = some f) :
    (((processLoop num P garbage).run rs).frames type).data = f.data := by
  induction rs using List.reverseRecOn generalizing f with
  | nil => exact absurd h (by simp [framesRead])
  | append_singleton rs r ih =>
    rw [Machine.run_concat]
    rw [framesRead_append] at h
    change ((step num P ((processLoop num P garbage).run rs) r).1.frames type).data = f.data
    cases r with
    | skipped => exact ih (by simpa [framesRead] using h)
    | ground sn => exact ih (by simpa [framesRead] using h)
    | ignored => exact ih (by simpa [framesRead] using h)
    | badHeader type' header =>
      -- only a header is overwritten
      have hdata := ih (f := f) (by simpa [framesRead] using h)
      exact (data_putHeader _ type' header type).trans hdata
    | frame g =>
      rw [step, (handleFrame_cases num P _ g).1, framesAfter]
      rw [framesRead_frame] at h
      by_cases htype : g.type = type
      · -- this very frame
        rw [if_pos htype, List.getLast?_append_of_ne_nil _ (by simp)] at h
        obtain rfl : g = f := by simpa using h
        rw [← htype, Function.update_self]
      · rw [if_neg htype, List.append_nil] at h
        rw [Function.update_of_ne (Ne.symm htype)]
        exact ih h

end Rounds

/-! ### The law -/

section Main

variable {F : Type} (num : Numerics F) (P : Params) (garbage : FrameType → FrameBuffer)

/-- A valid payload that was read last stays validated. -/
theorem mem_validated_of_latest {type : FrameType} {pre : List Round} {g : ReadFrame}
    (hlast : (framesRead type pre).getLast? = some g) (hg : g.Valid) (r : Round) :
    g.data ∈ validated type (pre ++ [r]) := by
  obtain ⟨hmem, htype⟩ := mem_framesRead.mp (List.mem_of_getLast? hlast)
  exact mem_validated.mpr ⟨g, List.mem_append_left _ hmem, htype, hg, rfl⟩

/-- A frame leaves the payload read last for another type in its buffer. -/
theorem data_framesAfter_of_latest {type : FrameType} {pre : List Round} {f g : ReadFrame}
    (hlast : (framesRead type pre).getLast? = some g) (hne : type ≠ f.type) :
    (framesAfter ((processLoop num P garbage).run pre) f type).data = g.data := by
  rw [framesAfter, Function.update_of_ne hne]
  exact buffer_of_latest num P garbage hlast

/-- **One frame.** What a valid frame publishes is read off validated payloads, if those
that it takes from the other buffer are valid. -/
theorem sourced_frame {pre : List Round} {f : ReadFrame} (hvalid : f.Valid)
    (hsource : SourcesValid pre (.frame f)) :
    ∀ o ∈ publish num P (framesAfter ((processLoop num P garbage).run pre) f) f.type,
      Sourced num P (pre ++ [.frame f]) o := by
  obtain ⟨hahrs, himu⟩ := hsource f rfl hvalid
  have hown : f.data ∈ validated f.type (pre ++ [.frame f]) :=
    mem_validated.mpr ⟨f, by simp, rfl, hvalid, rfl⟩
  have hself : (framesAfter ((processLoop num P garbage).run pre) f f.type).data = f.data := by
    rw [framesAfter, Function.update_self]
  intro o ho
  cases htype : f.type with
  | imu =>
    -- the orientation comes from the last AHRS frame, all else from this one
    obtain ⟨g, hlast, hg⟩ := hahrs htype
    rw [htype] at ho hown hself
    have hq := data_framesAfter_of_latest num P garbage hlast (by rw [htype]; decide)
    have hmem := mem_validated_of_latest hlast hg (.frame f)
    obtain rfl := List.mem_singleton.mp ho
    refine ⟨⟨g.data, hmem, ?_⟩, ⟨f.data, hown, ?_⟩, ⟨f.data, hown, ?_⟩⟩
    · rw [hq]
    · rw [hself]
    · rw [hself]
  | ahrs =>
    -- the magnetic field comes from the last IMU frame
    obtain ⟨g, hlast, hg⟩ := himu htype
    rw [htype] at ho hown hself
    have hm := data_framesAfter_of_latest num P garbage hlast (by rw [htype]; decide)
    have hmem := mem_validated_of_latest hlast hg (.frame f)
    simp only [publish, hself, hm, List.mem_cons, List.not_mem_nil, or_false] at ho
    rcases ho with rfl | rfl | rfl
    · exact ⟨f.data, hown, rfl⟩
    · exact ⟨f.data, hown, rfl⟩
    · exact ⟨g.data, hmem, rfl⟩
  | insgps =>
    rw [htype] at ho hown hself
    simp only [publish, hself, List.mem_cons, List.not_mem_nil, or_false] at ho
    rcases ho with rfl | rfl
    · exact ⟨f.data, hown, rfl, rfl⟩
    · exact ⟨f.data, hown, rfl⟩
  | geodeticPos =>
    rw [htype] at ho hown hself
    simp only [publish, hself, List.mem_singleton] at ho
    subst ho
    exact ⟨f.data, hown, rfl, rfl, rfl⟩

theorem out_frame (s : State) {f : ReadFrame} (hvalid : f.Valid) :
    (processLoop num P garbage).out s (.frame f) = publish num P (framesAfter s f) f.type :=
  (handleFrame_cases num P s f).2.trans (if_pos hvalid)

/-- What a round publishes comes from a valid frame. -/
theorem exists_frame_of_out {s : State} {r : Round} {o : Output F}
    (ho : o ∈ (step num P s r).2) :
    ∃ f, r = .frame f ∧ f.Valid ∧ o ∈ publish num P (framesAfter s f) f.type := by
  cases r with
  | skipped => exact absurd ho List.not_mem_nil
  | ground sn => exact absurd ho List.not_mem_nil
  | ignored => exact absurd ho List.not_mem_nil
  | badHeader type header => exact absurd ho List.not_mem_nil
  | frame f =>
    change o ∈ (handleFrame num P s f).2 at ho
    rw [(handleFrame_cases num P s f).2] at ho
    by_cases hvalid : f.Valid
    · rw [if_pos hvalid] at ho
      exact ⟨f, rfl, hvalid, ho⟩
    · rw [if_neg hvalid] at ho
      exact absurd ho List.not_mem_nil

variable {num P garbage}

/-- Under the law every valid frame of the two types has a valid one of the other type in
front of it. -/
theorem exists_earlier {rs pre post : List Round} {f : ReadFrame}
    (h : PublishesValidated num P garbage rs) (hsplit : rs = pre ++ .frame f :: post)
    (hvalid : f.Valid) (htype : f.type = .imu ∨ f.type = .ahrs) :
    ∃ g pre' post', rs = pre' ++ .frame g :: post' ∧ pre'.length < pre.length ∧ g.Valid ∧
      (g.type = .imu ∨ g.type = .ahrs) := by
  have hlaw := h pre (.frame f) post hsplit
  rw [out_frame num P garbage _ hvalid] at hlaw
  -- a validated payload of the other type comes from a frame that is not `f`
  obtain ⟨type, hne, htype', d, hd⟩ : ∃ type, type ≠ f.type ∧ (type = .imu ∨ type = .ahrs) ∧
      ∃ d, d ∈ validated type (pre ++ [.frame f]) := by
    rcases htype with himu | hahrs
    · rw [himu] at hlaw
      obtain ⟨⟨a, ha, -⟩, -⟩ := hlaw _ List.mem_cons_self
      exact ⟨.ahrs, by rw [himu]; decide, Or.inr rfl, a, ha⟩
    · -- the magnetometer is the third message
      rw [hahrs] at hlaw
      obtain ⟨i, hi, -⟩ :=
        hlaw _ (List.mem_cons_of_mem _ (List.mem_cons_of_mem _ List.mem_cons_self))
      exact ⟨.imu, by rw [hahrs]; decide, Or.inl rfl, i, hi⟩
  obtain ⟨g, hmem, hgtype, hg, -⟩ := mem_validated.mp hd
  have hpre : Round.frame g ∈ pre := by
    rcases List.mem_append.mp hmem with hpre | hself
    · exact hpre
    · obtain rfl := Round.frame.inj (List.mem_singleton.mp hself)
      exact absurd hgtype.symm hne
  obtain ⟨pre', mid, rfl⟩ := List.append_of_mem hpre
  refine ⟨g, pre', mid ++ .frame f :: post, by rw [hsplit]; simp, by simp, hg, ?_⟩
  rw [hgtype]
  exact htype'

/-- So there is no first one, and none at all. -/
theorem no_imu_ahrs_of_law {rs : List Round} (h : PublishesValidated num P garbage rs)
    {f : ReadFrame} (hmem : .frame f ∈ rs) (hvalid : f.Valid) :
    f.type ≠ .imu ∧ f.type ≠ .ahrs := by
  have hdescent : ∀ n (pre post : List Round) (g : ReadFrame), pre.length = n →
      rs = pre ++ .frame g :: post → g.Valid → ¬ (g.type = .imu ∨ g.type = .ahrs) := by
    intro n
    induction n using Nat.strong_induction_on with
    | _ n ih =>
      intro pre post g hlen hsplit hg htype
      obtain ⟨g', pre', post', hsplit', hlt, hg', htype'⟩ := exists_earlier h hsplit hg htype
      exact ih pre'.length (by omega) pre' post' g' rfl hsplit' hg' htype'
  obtain ⟨pre, post, hsplit⟩ := List.append_of_mem hmem
  exact not_or.mp (hdescent pre.length pre post f rfl hsplit hvalid)

variable (num P garbage)

/-- **Published values and validated payloads.** For every byte stream, whatever the
buffers hold at first. The values published over the whole stream are all read off
validated payloads exactly if there is no valid IMU frame and no valid AHRS frame in it:
the first of these publishes what no valid frame has put into the other buffer. Frame by
frame: what a frame publishes is read off validated payloads if those that it takes from
the other buffer were validated when they were read. -/
theorem publishes_validated (bytes : List Byte) :
    (PublishesValidated num P garbage (readAll bytes) ↔
      ∀ f, Round.frame f ∈ readAll bytes → f.Valid → f.type ≠ .imu ∧ f.type ≠ .ahrs) ∧
    ∀ pre r post, readAll bytes = pre ++ r :: post → SourcesValid pre r →
      ∀ o ∈ (processLoop num P garbage).out ((processLoop num P garbage).run pre) r,
        Sourced num P (pre ++ [r]) o := by
  have hstep (pre : List Round) (r : Round) (hsource : SourcesValid pre r) :
      ∀ o ∈ (processLoop num P garbage).out ((processLoop num P garbage).run pre) r,
        Sourced num P (pre ++ [r]) o := by
    intro o ho
    obtain ⟨f, rfl, hvalid, hpub⟩ := exists_frame_of_out num P ho
    exact sourced_frame num P garbage hvalid hsource o hpub
  refine ⟨⟨fun h f hmem hvalid => no_imu_ahrs_of_law h hmem hvalid, ?_⟩, ?_⟩
  · intro hnone pre r post hsplit
    refine hstep pre r ?_
    rintro f rfl hvalid
    -- neither type occurs, so no frame reads the buffer of another
    obtain ⟨himu, hahrs⟩ := hnone f (by rw [hsplit]; simp) hvalid
    exact ⟨fun htype => absurd htype himu, fun htype => absurd htype hahrs⟩
  · intro pre r post _ hsource
    exact hstep pre r hsource

end Main

/-! ### A quaternion that failed its CRC16 -/

/-- An AHRS frame with the quaternion (1, 0, 0, 0) and a wrong CRC16, and an IMU frame
of zeros. -/
def corruptAhrs : List Byte :=
  encode .ahrs 1 0 (List.replicate 24 0 ++ [0, 0, 0x80, 0x3f] ++ List.replicate 20 0) ++
    encode .imu 2 0 (List.replicate 56 0)

/-- The buffers of a process whose memory was zero. -/
def zeroBuffers : FrameType → FrameBuffer := fun type =>
  ⟨⟨0, 0, 0, 0, 0, 0, 0⟩, List.replicate type.len.toNat 0, 0⟩

/-- The IMU frame of `corruptAhrs` is published with the quaternion of the frame in front
of it, which no check has let through. -/
theorem corruptAhrs_published :
    ¬ PublishesValidated Numerics.rat ⟨0, "gyro_link"⟩ zeroBuffers (readAll corruptAhrs) ∧
      ((processLoop Numerics.rat ⟨0, "gyro_link"⟩ zeroBuffers).trace
        (readAll corruptAhrs)).filterMap (fun
          | .imu m => some m.orientation
          | _ => none) = [⟨1, 0, 0, 0⟩] ∧
      validated .ahrs (readAll corruptAhrs) = [] := by
  refine ⟨?_, by decide +kernel, by decide +kernel⟩
  intro h
  obtain ⟨a, ha, -⟩ := readRound_encode .ahrs 1 0
    (List.replicate 24 0 ++ [0, 0, 0x80, 0x3f] ++ List.replicate 20 0) rfl
    (encode .imu 2 0 (List.replicate 56 0) ++ [])
  obtain ⟨i, hi, htype, -, -, hvalid⟩ := readRound_encode .imu 2 0
    (List.replicate 56 0) rfl []
  have hrounds : readAll corruptAhrs = [.frame a, .frame i] := by
    rw [corruptAhrs, ← List.append_nil (encode .imu 2 0 _), readAll_of_readRound ha,
      readAll_of_readRound hi, readAll_nil]
  -- the IMU frame is valid, and the first of its kind
  exact (no_imu_ahrs_of_law h (f := i) (by rw [hrounds]; simp)
    (hvalid.mpr (by decide +kernel))).1 htype

/-- `publishes_validated` on an AHRS frame of zeros and then an IMU frame of zeros: the
message of the second is validated throughout. -/
theorem publishes_validated_second :
    ∃ r₁ r₂, readAll (encode .ahrs 1 0 (List.replicate 48 0) ++
        encode .imu 2 0 (List.replicate 56 0)) = [r₁, r₂] ∧
      ∀ o ∈ (processLoop Numerics.rat ⟨1, "gyro_link"⟩ zeroBuffers).out
          ((processLoop Numerics.rat ⟨1, "gyro_link"⟩ zeroBuffers).run [r₁]) r₂,
        Sourced Numerics.rat ⟨1, "gyro_link"⟩ [r₁, r₂] o := by
  obtain ⟨a, ha, hatype, -, -, havalid⟩ := readRound_encode .ahrs 1 0
    (List.replicate 48 0) rfl (encode .imu 2 0 (List.replicate 56 0) ++ [])
  obtain ⟨i, hi, hitype, -, -, -⟩ := readRound_encode .imu 2 0
    (List.replicate 56 0) rfl []
  have hrounds : readAll (encode .ahrs 1 0 (List.replicate 48 0) ++
      encode .imu 2 0 (List.replicate 56 0)) = [.frame a, .frame i] := by
    rw [← List.append_nil (encode .imu 2 0 _), readAll_of_readRound ha,
      readAll_of_readRound hi, readAll_nil]
  refine ⟨.frame a, .frame i, hrounds, ?_⟩
  refine (publishes_validated Numerics.rat ⟨1, "gyro_link"⟩ zeroBuffers _).2 [.frame a] (.frame i)
    [] hrounds ?_
  rintro f hf -
  obtain rfl := Round.frame.inj hf
  refine ⟨fun _ => ⟨a, ?_, havalid.mpr (by decide +kernel)⟩, fun h => ?_⟩
  · rw [framesRead_frame, if_pos hatype]
    rfl
  · rw [hitype] at h
    exact absurd h (by decide)

end Ahrs
end WtbAutoware
