import WtbAutoware.Lidar.Packets

/-!
# The azimuth 36000

The tables of sine and cosine have an entry for each hundredth of a degree, from 0 to 35999.
All corrections of an azimuth lead back into this range, but for one: of the adjusted azimuths
of a `c32_3`, only those above 36000 are brought back. A firing that is adjusted to 36000 and is
in range reads behind the end of the tables (`pointOf_eq_none_iff`); and if no angles are given
to `initialize`, any firing in range reads the front of an empty list. Nothing else in `poll` is
undefined (`run_undefined_iff`).

The settings are as far limited as the device packets limit them (`Settings.Decoded`), and
`disableAngles` is what `initialize` computes (`Params.Initialized`).
-/

namespace WtbAutoware
namespace Lidar

/-! ### What is assumed of the settings -/

/-- The settings are decoded from two bytes each. -/
structure Settings.Decoded {K : Type} [Field K] [LinearOrder K] (settings : Settings K) :
    Prop where
  adjust0 : -32768 ≤ settings.adjustAngle0 ∧ settings.adjustAngle0 ≤ 32767
  adjust1 : -32768 ≤ settings.adjustAngle1 ∧ settings.adjustAngle1 ≤ 32767
  conversion : 0 ≤ settings.conversionAngle ∧ settings.conversionAngle < 36000
  /-- In degrees, a hundredth of the number that was decoded. -/
  offset : ∀ j, ((-328 : ℤ) : K) ≤ settings.msc16OffsetAngle j ∧
    settings.msc16OffsetAngle j ≤ ((328 : ℤ) : K)

/-- `initialize` has computed `disableAngles`. -/
def Params.Initialized {K : Type} [Field K] [LinearOrder K] (P : Params K) : Prop :=
  ∃ (sort : StdSort AngleRange CompareRanges) (disableMin disableMax : List ℤ),
    calculateDisableAngles sort disableMin disableMax = some P.disableAngles

/-- A range inside the turn. -/
def InTurn (r : AngleRange) : Prop := 0 ≤ r.start ∧ r.start ≤ r.stop ∧ r.stop ≤ 36000

theorem collectRanges_inTurn {allRanges ranges : List AngleRange}
    {disableMin disableMax : List ℤ} (hacc : ∀ r ∈ allRanges, InTurn r)
    (h : collectRanges allRanges disableMin disableMax = .ok ranges ∨
      collectRanges allRanges disableMin disableMax = .error (.returned ranges)) :
    ∀ r ∈ ranges, InTurn r := by
  induction disableMin generalizing allRanges disableMax with
  | nil =>
    rcases h with h | h
    · obtain rfl := Except.ok.inj h
      exact hacc
    · cases h
  | cons mn disableMin ih =>
    cases disableMax with
    | nil =>
      rcases h with h | h
      · cases h
      · cases h
    | cons mx disableMax =>
      have hmn := residue_mem mn
      have hmx := residue_mem mx
      unfold collectRanges at h
      dsimp only at h
      by_cases heq : residue mx = residue mn
      · rw [if_pos heq] at h
        rcases h with h | h
        · cases h
        · obtain rfl := Exit.returned.inj (Except.error.inj h)
          intro r hr
          rcases List.mem_append.mp hr with hr | hr
          · exact hacc r hr
          · rw [List.mem_singleton.mp hr]
            exact ⟨le_rfl, le_rfl, (by decide : (0 : ℤ) ≤ 36000)⟩
      · have hnew : ∀ {new : List AngleRange}, (∀ r ∈ new, InTurn r) →
            (collectRanges (allRanges ++ new) disableMin disableMax = .ok ranges ∨
              collectRanges (allRanges ++ new) disableMin disableMax =
                .error (.returned ranges)) →
            ∀ r ∈ ranges, InTurn r := by
          intro new hturn hcollect
          exact ih (fun r hr => (List.mem_append.mp hr).elim (hacc r) (hturn r)) hcollect
        rw [if_neg heq] at h
        by_cases hover : residue mx < residue mn
        · rw [if_pos hover] at h
          exact hnew (by simp [InTurn]; omega) h
        · rw [if_neg hover] at h
          exact hnew (by simp [InTurn]; omega) h

/-- What `initialize` leaves lies inside the turn. -/
theorem Params.Initialized.ranges {K : Type} [Field K] [LinearOrder K] {P : Params K}
    (hP : P.Initialized) : ∀ r ∈ P.disableAngles, InTurn r := by
  obtain ⟨sort, disableMin, disableMax, h⟩ := hP
  have hnil : ∀ r ∈ ([] : List AngleRange), InTurn r := fun r hr => absurd hr List.not_mem_nil
  unfold calculateDisableAngles at h
  split at h
  · next allRanges hcollect =>
    have hturn := collectRanges_inTurn hnil (Or.inl hcollect)
    rw [← Option.some.inj h, mergeRanges_eq]
    exact HalfOpen.within_merge fun r hr => hturn r ((sort.perm allRanges).subset hr)
  · next allRanges hcollect =>
    rw [← Option.some.inj h]
    exact collectRanges_inTurn hnil (Or.inr hcollect)
  · cases h

/-! ### Azimuths -/

section Azimuths

variable {K : Type} [Field K] [LinearOrder K] [IsStrictOrderedRing K] [FloorRing K]

/-- The azimuth that a firing is looked up with. -/
def finalAzimuth (settings : Settings K) (data : PacketData) (i : ℕ) : ℤ :=
  correctAzimuth settings i ((adjustFirings settings (decodePacket settings data)).azimuth i)

/-- Firing `i` of a `c32_3` is adjusted to 36000. -/
def AdjustedToEnd (settings : Settings K) (data : PacketData) (i : ℕ) : Prop :=
  settings.lidarType = .c32_3 ∧ (decodePacket settings data).azimuth i +
    (if i % 32 % 4 ≤ 1 then settings.adjustAngle1 else settings.adjustAngle0) = 36000

theorem correctAzimuth_mem {settings : Settings K} (h : settings.Decoded) (i : ℕ) {azimuth : ℤ}
    (hazimuth : 0 ≤ azimuth ∧ azimuth < 36000) :
    0 ≤ correctAzimuth settings i azimuth ∧ correctAzimuth settings i azimuth < 36000 := by
  unfold correctAzimuth
  split
  · split
    · dsimp only
      split <;> split <;> omega
    · dsimp only
      -- the offset is brought up into the turn first, so that the sum is below two turns
      have hoffset := h.offset (i % 16)
      generalize settings.msc16OffsetAngle (i % 16) = offset at hoffset ⊢
      have hsum : (0 : K) ≤ (if offset < 0 then offset + (36000 : ℤ) else offset) ∧
          (if offset < 0 then offset + ((36000 : ℤ) : K) else offset) < ((36000 : ℤ) : K) := by
        push_cast at hoffset ⊢
        split
        · constructor <;> linarith
        · constructor <;> linarith
      generalize (if offset < 0 then offset + ((36000 : ℤ) : K) else offset) = turn at hsum ⊢
      have hlo : 0 ≤ ⌊(azimuth : K) + turn⌋ := by
        have hcast : (0 : K) ≤ azimuth := by exact_mod_cast hazimuth.1
        exact Int.floor_nonneg.mpr (add_nonneg hcast hsum.1)
      have hhi : ⌊(azimuth : K) + turn⌋ < 72000 := by
        have hcast : (azimuth : K) < ((36000 : ℤ) : K) := by exact_mod_cast hazimuth.2
        rw [Int.floor_lt]
        push_cast at hcast hsum ⊢
        linarith
      split <;> omega
    · exact hazimuth
  · exact hazimuth

/-- The azimuth lies in the turn, or is 36000. -/
theorem finalAzimuth_mem {settings : Settings K} (h : settings.Decoded) (data : PacketData)
    (i : ℕ) :
    0 ≤ finalAzimuth settings data i ∧ finalAzimuth settings data i ≤ 36000 ∧
      (finalAzimuth settings data i = 36000 ↔ AdjustedToEnd settings data i) := by
  have hdecoded := azimuth_decodePacket settings data i
  unfold finalAzimuth adjustFirings AdjustedToEnd
  by_cases htype : settings.lidarType = .c32_3
  · rw [if_pos htype]
    -- the correction inside the loops is for the other types
    have hsame : ∀ azimuth, correctAzimuth settings i azimuth = azimuth := by
      intro azimuth
      unfold correctAzimuth
      rw [htype]
      split <;> rfl
    have h0 := h.adjust0
    have h1 := h.adjust1
    rw [hsame]
    dsimp only
    unfold adjustAzimuth
    dsimp only
    generalize (decodePacket settings data).azimuth i = azimuth at hdecoded ⊢
    have hbound : -32768 ≤ (if i % 32 % 4 ≤ 1 then settings.adjustAngle1
          else settings.adjustAngle0) ∧
        (if i % 32 % 4 ≤ 1 then settings.adjustAngle1 else settings.adjustAngle0) ≤ 32767 := by
      split
      · exact h1
      · exact h0
    generalize (if i % 32 % 4 ≤ 1 then settings.adjustAngle1 else settings.adjustAngle0) = adjust
      at hbound ⊢
    refine ⟨?_, ?_, ?_⟩
    · split <;> split <;> omega
    · split <;> split <;> omega
    · -- a sum of 36000 is not above 36000, and stays
      simp only [htype, true_and]
      split <;> split <;> omega
  · rw [if_neg htype]
    have hmem := correctAzimuth_mem h i hdecoded
    exact ⟨hmem.1, hmem.2.le, iff_of_false hmem.2.ne fun hend => htype hend.1⟩

/-! ### What is undefined -/

variable {P : Params K}

/-- The distance of a firing is in range. -/
def InRange (P : Params K) (settings : Settings K) (data : PacketData) (i : ℕ) : Prop :=
  P.minRange ≤ (decodePacket settings data).distance i ∧
    (decodePacket settings data).distance i ≤ P.maxRange

omit [Field K] [LinearOrder K] [IsStrictOrderedRing K] [FloorRing K] in
theorem distance_adjustFirings (settings : Settings K) (firings : FiringCX K) :
    (adjustFirings settings firings).distance = firings.distance := by
  unfold adjustFirings
  split <;> rfl

omit [IsStrictOrderedRing K] [FloorRing K] in
/-- Inside the turn, all entries are there. -/
theorem reading_isSome {settings : Settings K} (h : settings.Decoded) (i : ℕ) {azimuth : ℤ}
    (hazimuth : 0 ≤ azimuth ∧ azimuth < 36000) (distance intensity : K) :
    (reading P settings i azimuth distance intensity).isSome = true := by
  have hconversion := h.conversion
  have hentry : ∀ (table : ℕ → K) (j : ℤ), 0 ≤ j ∧ j < 36000 → tableAt table j =
      some (table j.toNat) := fun table j hj => if_pos hj
  have hdown : 0 ≤ turnUp (settings.conversionAngle - azimuth) ∧
      turnUp (settings.conversionAngle - azimuth) < 36000 := by
    unfold turnUp
    split <;> omega
  have hup : 0 ≤ turnUp (azimuth - settings.conversionAngle) ∧
      turnUp (azimuth - settings.conversionAngle) < 36000 := by
    unfold turnUp
    split <;> omega
  unfold reading
  -- the azimuth is looked up in both tables, and then one of the two differences
  rw [hentry _ _ hazimuth, hentry _ _ hazimuth]
  cases P.coordinateOpt with
  | true =>
    simp only [if_true, hentry _ _ hdown]
    rfl
  | false =>
    simp only [Bool.false_eq_true, if_false, hentry _ _ hup]
    rfl

omit [IsStrictOrderedRing K] [FloorRing K] in
theorem reading_end (settings : Settings K) (i : ℕ) (distance intensity : K) :
    reading P settings i 36000 distance intensity = none := by
  unfold reading
  rw [show tableAt P.cosAzimuthTable 36000 = none from rfl]
  rfl

/-- The firing cannot be filtered or looked up: there is no front of `disableAngles`, or it is
adjusted to 36000. -/
def Unreadable (P : Params K) (settings : Settings K) (data : PacketData) (i : ℕ) : Prop :=
  P.disableAngles = [] ∨ AdjustedToEnd settings data i

/-- **A firing is undefined** exactly if it is in range and unreadable. -/
theorem pointOf_eq_none_iff (hP : P.Initialized) {settings : Settings K}
    (h : settings.Decoded) (data : PacketData) (i : ℕ) :
    pointOf P settings data i = none ↔
      InRange P settings data i ∧ Unreadable P settings data i := by
  have hturn := hP.ranges
  obtain ⟨hlo, hhi, hend⟩ := finalAzimuth_mem h data i
  have hfinal : correctAzimuth settings i
      ((adjustFirings settings (decodePacket settings data)).azimuth i) =
        finalAzimuth settings data i := rfl
  unfold Unreadable
  rw [← hend]
  unfold pointOf firePoint
  dsimp only
  rw [hfinal, distance_adjustFirings]
  by_cases hin : P.minRange ≤ (decodePacket settings data).distance i ∧
      (decodePacket settings data).distance i ≤ P.maxRange
  · rw [if_neg (not_not.mpr hin), and_iff_right (show InRange P settings data i from hin)]
    by_cases hne : P.disableAngles = []
    · rw [hne]
      exact iff_of_true rfl (Or.inl rfl)
    rw [or_iff_right hne]
    obtain ⟨front, rest, hcons⟩ := List.exists_cons_of_ne_nil hne
    by_cases hazimuth : finalAzimuth settings data i = 36000
    · -- no range reaches that far, so the point is kept, and looked up
      rw [hazimuth]
      have hout : ¬ HalfOpen.Covers P.disableAngles (36000 : ℤ) := by
        rintro ⟨r, hr, -, hlt⟩
        exact absurd hlt (not_lt.mpr (hturn r hr).2.2)
      have hkept : angleKept P.disableAngles 36000 = some true := by
        rw [hcons] at hout ⊢
        unfold angleKept
        dsimp only
        split
        · rfl
        · rw [isSkipAngle_eq, decide_eq_true hout]
      rw [hkept, Option.bind_some, if_pos rfl, reading_end]
      exact iff_of_true rfl rfl
    · -- the point is skipped or looked up, and the entries are there
      have hread := reading_isSome (P := P) h i ⟨hlo, hhi.lt_of_ne hazimuth⟩
        ((decodePacket settings data).distance i)
        ((adjustFirings settings (decodePacket settings data)).intensity i)
      refine iff_of_false ?_ hazimuth
      rw [hcons, angleKept]
      obtain ⟨r, hr⟩ := Option.isSome_iff_exists.mp hread
      split
      · rw [Option.bind_some, if_pos rfl, hr]
        exact Option.some_ne_none _
      · rw [Option.bind_some]
        split
        · rw [hr]
          exact Option.some_ne_none _
        · exact Option.some_ne_none _
  · rw [if_pos hin]
    exact iff_of_false (Option.some_ne_none _) fun hand => hin hand.1

omit [Field K] [LinearOrder K] [IsStrictOrderedRing K] [FloorRing K] in
/-- A loop is undefined if one of its passes is. -/
theorem fireLoop_eq_none_iff {point : ℕ → Option (Option (Reading K))} {time : ℕ → K}
    {idxs : List ℕ} {cloud : List (VPoint K)} :
    fireLoop point time idxs cloud = none ↔ ∃ i ∈ idxs, point i = none := by
  induction idxs generalizing cloud with
  | nil => simp [fireLoop]
  | cons i idxs ih =>
    rw [fireLoop, List.exists_mem_cons_iff]
    cases hi : point i with
    | none => exact iff_of_true rfl (Or.inl rfl)
    | some r =>
      rw [Option.bind_some, ih]
      exact (or_iff_right (Option.some_ne_none r)).symm

/-- Some firing that is looked at, of a packet in which the clouds have begun, is in range and
unreadable. -/
def Overreads (P : Params K) (s : State K) (data : PacketData) : Prop :=
  ∃ i < scansPerPacket, (s.isFirstSweep = true → (searched s data).1 ≤ i) ∧
    InRange P s.settings data i ∧ Unreadable P s.settings data i

theorem packetLoop_eq_none_iff (hP : P.Initialized) {settings : Settings K}
    (h : settings.Decoded) {data : PacketData} {time : ℕ → K} {a b : ℕ} (hab : a ≤ b)
    {cloud : List (VPoint K)} :
    packetLoop P settings data time a b cloud = none ↔
      ∃ i, a ≤ i ∧ i < b ∧ InRange P settings data i ∧ Unreadable P settings data i := by
  unfold packetLoop
  rw [fireLoop_eq_none_iff]
  simp only [pointOf_eq_none_iff hP h, List.mem_range'_1, Nat.add_sub_cancel' hab, and_assoc]

/-- **A packet is undefined** exactly if it overreads. -/
theorem handlePacket_eq_none_iff (hP : P.Initialized) {s : State K}
    (h : s.settings.Decoded) (data : PacketData) (now : K) :
    handlePacket P s data now = none ↔ Overreads P s data := by
  have hle := searched_le s data
  rw [handlePacket_eq]
  unfold Overreads
  by_cases hfirst : s.isFirstSweep = true
  · rw [if_pos hfirst]
    by_cases hj : (searched s data).1 = scansPerPacket
    · rw [if_pos hj]
      refine iff_of_false (Option.some_ne_none _) ?_
      rintro ⟨i, hi, hbehind, -⟩
      exact absurd (hj ▸ hbehind hfirst) (not_le.mpr hi)
    · rw [if_neg hj, Option.map_eq_none_iff, packetLoop_eq_none_iff hP h hle]
      constructor
      · rintro ⟨i, hji, hi, hbad⟩
        exact ⟨i, hi, fun _ => hji, hbad⟩
      · rintro ⟨i, hi, hji, hbad⟩
        exact ⟨i, hji hfirst, hi, hbad⟩
  · rw [if_neg hfirst]
    have hall : (∃ i < scansPerPacket, (s.isFirstSweep = true → (searched s data).1 ≤ i) ∧
        InRange P s.settings data i ∧ Unreadable P s.settings data i) ↔
        ∃ i, 0 ≤ i ∧ i < scansPerPacket ∧ InRange P s.settings data i ∧
          Unreadable P s.settings data i := by
      simp only [hfirst, Bool.false_eq_true, false_implies, true_and, Nat.zero_le]
    rw [hall]
    by_cases hj : (searched s data).1 = scansPerPacket
    · rw [if_pos hj, Option.map_eq_none_iff, packetLoop_eq_none_iff hP h (Nat.zero_le _)]
    · rw [if_neg hj, Option.bind_eq_none_iff]
      constructor
      · intro hnone
        -- one of the two loops
        cases hloop : packetLoop P s.settings data (timeInSweep P s now) 0 (searched s data).1
            s.pointCloud with
        | none =>
          obtain ⟨i, hi0, hi, hbad⟩ := (packetLoop_eq_none_iff hP h (Nat.zero_le _)).mp hloop
          exact ⟨i, hi0, hi.trans_le hle, hbad⟩
        | some cloud =>
          have hrest := Option.map_eq_none_iff.mp (hnone cloud hloop)
          obtain ⟨i, -, hi, hbad⟩ := (packetLoop_eq_none_iff hP h hle).mp hrest
          exact ⟨i, Nat.zero_le i, hi, hbad⟩
      · rintro ⟨i, -, hi, hbad⟩ cloud hloop
        rw [Option.map_eq_none_iff, packetLoop_eq_none_iff hP h hle]
        refine ⟨i, not_lt.mp fun hlt => ?_, hi, hbad⟩
        have hnone : packetLoop P s.settings data (timeInSweep P s now) 0 (searched s data).1
            s.pointCloud = none :=
          (packetLoop_eq_none_iff hP h (Nat.zero_le _)).mpr ⟨i, Nat.zero_le i, hlt, hbad⟩
        exact absurd (hloop.symm.trans hnone) (Option.some_ne_none cloud)

theorem step_eq_none_iff (hP : P.Initialized) {s : State K}
    (h : ∀ settings ∈ s.known, settings.Decoded) (e : Event K) :
    step P s e = none ↔ ∃ data now, e = .packet data now ∧ checkPacketValidity data = true ∧
      s.startProcessMsop = true ∧ Overreads P s data := by
  cases e with
  | difop settings => exact iff_of_false (Option.some_ne_none _) (by simp)
  | timeout => exact iff_of_false (Option.some_ne_none _) (by simp)
  | packet data now =>
    unfold step
    dsimp only
    by_cases hok : checkPacketValidity data = true ∧ s.startProcessMsop = true
    · have hdecoded := h s.settings (if_pos hok.2)
      rw [if_pos hok, handlePacket_eq_none_iff hP hdecoded]
      constructor
      · intro hover
        exact ⟨data, now, rfl, hok.1, hok.2, hover⟩
      · rintro ⟨data', now', heq, -, -, hover⟩
        obtain ⟨rfl, rfl⟩ := Event.packet.inj heq
        exact hover
    · rw [if_neg hok]
      refine iff_of_false (Option.some_ne_none _) ?_
      rintro ⟨data', now', heq, hvalid, hstart, -⟩
      obtain ⟨rfl, rfl⟩ := Event.packet.inj heq
      exact hok ⟨hvalid, hstart⟩

/-- Behind a part of the run that is defined, a packet is handled that overreads. -/
def OverreadIn (P : Params K) (s₀ : State K) (es : List (Event K)) : Prop :=
  ∃ pre data now post s clouds, es = pre ++ .packet data now :: post ∧
    runFrom P s₀ pre = some (s, clouds) ∧ checkPacketValidity data = true ∧
    s.startProcessMsop = true ∧ Overreads P s data

theorem runFrom_eq_none_iff (hP : P.Initialized) {s₀ : State K}
    (h₀ : ∀ settings ∈ s₀.known, settings.Decoded) {es : List (Event K)}
    (hdifop : ∀ settings, Event.difop settings ∈ es → settings.Decoded) :
    runFrom P s₀ es = none ↔ OverreadIn P s₀ es := by
  induction es generalizing s₀ with
  | nil =>
    refine iff_of_false (Option.some_ne_none _) ?_
    rintro ⟨pre, data, now, post, s, clouds, hes, -⟩
    simp at hes
  | cons e es ih =>
    unfold OverreadIn
    cases hstep : step P s₀ e with
    | none =>
      refine iff_of_true (by rw [runFrom, hstep]; rfl) ?_
      obtain ⟨data, now, rfl, hvalid, hstart, hover⟩ := (step_eq_none_iff hP h₀ e).mp hstep
      exact ⟨[], data, now, es, s₀, [], rfl, rfl, hvalid, hstart, hover⟩
    | some r =>
      obtain ⟨s₁, clouds₁⟩ := r
      have h₁ : ∀ settings ∈ s₁.known, settings.Decoded := by
        intro settings hsettings
        have hrun : runFrom P s₀ [e] = some (s₁, clouds₁ ++ []) := by
          rw [runFrom, hstep]
          rfl
        rcases known_run P hrun settings hsettings with hknown | hnew
        · exact h₀ settings hknown
        · rw [List.mem_singleton] at hnew
          exact hdifop settings (hnew ▸ List.mem_cons_self)
      have hrest := ih h₁ fun settings hmem => hdifop settings (List.mem_cons_of_mem e hmem)
      rw [runFrom, hstep, Option.bind_some, Option.map_eq_none_iff, hrest]
      constructor
      · rintro ⟨pre, data, now, post, s, clouds, rfl, hrun, hover⟩
        refine ⟨e :: pre, data, now, post, s, clouds₁ ++ clouds, rfl, ?_, hover⟩
        rw [runFrom, hstep, Option.bind_some, hrun]
        rfl
      · rintro ⟨pre, data, now, post, s, clouds, hes, hrun, hvalid, hstart, hover⟩
        cases pre with
        | nil =>
          -- the first step is defined
          obtain ⟨rfl, -⟩ := List.cons.inj hes
          obtain ⟨rfl, -⟩ := Prod.mk.inj (Option.some.inj hrun)
          have hnone := (step_eq_none_iff hP h₀ _).mpr ⟨data, now, rfl, hvalid, hstart, hover⟩
          exact absurd (hstep.symm.trans hnone) (Option.some_ne_none _)
        | cons e' pre =>
          obtain ⟨rfl, rfl⟩ := List.cons.inj hes
          obtain ⟨s₁', clouds₁', clouds₂, hstep', hrun', -⟩ := runFrom_cons P hrun
          obtain ⟨rfl, -⟩ := Prod.mk.inj (Option.some.inj (hstep.symm.trans hstep'))
          exact ⟨pre, data, now, post, s, clouds₂, rfl, hrun', hvalid, hstart, hover⟩

omit [IsStrictOrderedRing K] [FloorRing K] in
theorem decoded_initial (settings : Settings K) :
    ∀ σ ∈ (State.initial settings).known, σ.Decoded :=
  fun σ hσ => absurd hσ (Option.not_mem_none σ)

/-- Of the other lidars, every run is defined, if there are disabled angles. -/
theorem exists_run (hP : P.Initialized) (hne : P.disableAngles ≠ []) {settings : Settings K}
    {es : List (Event K)}
    (hdifop : ∀ settings, Event.difop settings ∈ es →
      settings.Decoded ∧ settings.lidarType ≠ .c32_3) :
    ∃ s clouds, runFrom P (State.initial settings) es = some (s, clouds) := by
  cases hrun : runFrom P (State.initial settings) es with
  | some r => exact ⟨r.1, r.2, rfl⟩
  | none =>
    have hover := (runFrom_eq_none_iff hP (decoded_initial settings)
      fun settings hmem => (hdifop settings hmem).1).mp hrun
    obtain ⟨pre, data, now, post, s, clouds, rfl, hpre, -, hstart, i, -, -, -, hbad⟩ := hover
    obtain ⟨htype, -⟩ := hbad.resolve_left hne
    have hknown := known_run P hpre s.settings (if_pos hstart)
    have hmem := hknown.resolve_left (Option.not_mem_none s.settings)
    exact absurd htype (hdifop s.settings (List.mem_append_left _ hmem)).2

end Azimuths

/-! ### A run to apply the results to -/

/-- Of a lidar of this type, with these adjustments; each packet is searched. -/
def plainSettings (lidarType : LidarType) (adjust : ℤ) : Settings ℚ where
  lidarType := lidarType
  ring := 32
  lidarNumber := 32
  returnMode := 1
  numberThreshold := 0
  conversionAngle := 2025
  r1 := 0
  distanceUnit := 1
  angleChange := false
  adjustAngle0 := adjust
  adjustAngle1 := adjust
  msc16OffsetAngle := fun _ => 0
  cosScanAltitude := fun _ => 1
  sinScanAltitude := fun _ => 0

theorem decoded_plainSettings (lidarType : LidarType) {adjust : ℤ}
    (h : -32768 ≤ adjust ∧ adjust ≤ 32767) : (plainSettings lidarType adjust).Decoded where
  adjust0 := h
  adjust1 := h
  conversion := (by decide : (0 : ℤ) ≤ 2025 ∧ (2025 : ℤ) < 36000)
  offset := fun _ => (by norm_num : ((-328 : ℤ) : ℚ) ≤ 0 ∧ (0 : ℚ) ≤ ((328 : ℤ) : ℚ))

/-- Nothing is disabled. -/
def plainParams : Params ℚ where
  minRange := 0
  maxRange := 100
  pclType := false
  coordinateOpt := true
  disableAngles := [⟨0, 0⟩]
  cosAzimuthTable := fun _ => 1
  sinAzimuthTable := fun _ => 0
  float := .float32

theorem initialized_plainParams : plainParams.Initialized :=
  ⟨sortByStart, [0], [0], by decide⟩

/-- A packet whose firings all have one azimuth. -/
def flatPacket (low high : BitVec 8) : PacketData := fun i =>
  if i % 100 = 0 then 0xff else if i % 100 = 2 then low else if i % 100 = 3 then high else 0

/-- A turn and a bit: 359 degrees, 1 degree, and 359 degrees again. -/
def turnRun (settings : Settings ℚ) : List (Event ℚ) :=
  [.difop settings, .packet (flatPacket 0x3C 0x8C) 1, .packet (flatPacket 0x64 0x00) 2,
    .packet (flatPacket 0x3C 0x8C) 3]

theorem difop_mem_turnRun {settings settings' : Settings ℚ}
    (h : Event.difop settings' ∈ turnRun settings) : settings' = settings := by
  simpa [turnRun] using h

theorem exists_turnRun {settings : Settings ℚ} (h : settings.Decoded)
    (htype : settings.lidarType ≠ .c32_3) : ∃ s clouds,
      runFrom plainParams (State.initial settings) (turnRun settings) = some (s, clouds) :=
  exists_run initialized_plainParams (List.cons_ne_nil _ _) fun _ hmem =>
    difop_mem_turnRun hmem ▸ ⟨h, htype⟩

end Lidar
end WtbAutoware
