import WtbAutoware.Lidar.Tables

/-!
# The times of the points

A point carries the time since the start of its sweep, `sweep_end_time` of the sweep in front.
The firings of a packet are taken to be evenly spread from the time of the last packet to its
own. The two loops of `poll` count them differently: in a sweep that goes on, the time of a
firing is the end of its share of the packet, and behind the start of a sweep it is the
beginning.

Still the times of a cloud do not go back, and lie between 0 and the start of the next sweep,
as long as the times of the packets do not go back (`cloud_times`). They are computed exactly
here, and rounded once, when they are stored in a `float`: so are the bounds, and the last time
of a cloud may be above the exact duration of its sweep.

The first cloud is no exception: its sweep counts as started at 0, so that its points carry the
time of the clock. A `float` has it to the nearest 128 seconds.
-/

namespace WtbAutoware
namespace Lidar

variable {K : Type} [Field K] [LinearOrder K] [IsStrictOrderedRing K]

/-! ### Shares of a packet -/

/-- The time that `n` of the firings of a packet take, of `d` for the packet. -/
def share (d : K) (n : ℕ) : K := d * (n : K) / (scansPerPacket : K)

theorem share_mono {d : K} (hd : 0 ≤ d) {n m : ℕ} (h : n ≤ m) : share d n ≤ share d m := by
  have hcast : (n : K) ≤ m := Nat.cast_le.mpr h
  have hpos : (0 : K) ≤ (scansPerPacket : K) := Nat.cast_nonneg _
  unfold share
  gcongr

omit [LinearOrder K] [IsStrictOrderedRing K] in
theorem share_zero (d : K) : share d 0 = 0 := by
  unfold share
  rw [Nat.cast_zero, mul_zero, zero_div]

theorem share_all (d : K) : share d scansPerPacket = d :=
  mul_div_cancel_right₀ d (Nat.cast_ne_zero.mpr (by decide))

theorem share_nonneg {d : K} (hd : 0 ≤ d) (n : ℕ) : 0 ≤ share d n :=
  (share_zero d).symm.trans_le (share_mono hd (Nat.zero_le n))

theorem share_le {d : K} (hd : 0 ≤ d) {n : ℕ} (h : n ≤ scansPerPacket) : share d n ≤ d :=
  (share_mono hd h).trans_eq (share_all d)

/-! ### Times in a cloud -/

/-- The times do not go back, and lie between two bounds. -/
def TimesIn (lo hi : K) (cloud : List (VPoint K)) : Prop :=
  (cloud.map VPoint.time).Pairwise (· ≤ ·) ∧ ∀ p ∈ cloud, lo ≤ p.time ∧ p.time ≤ hi

omit [Field K] [IsStrictOrderedRing K] in
theorem timesIn_nil (lo hi : K) : TimesIn lo hi [] :=
  ⟨List.Pairwise.nil, fun _ hp => absurd hp List.not_mem_nil⟩

omit [Field K] [IsStrictOrderedRing K] in
theorem TimesIn.append {lo mid hi : K} {cloud cloud' : List (VPoint K)}
    (h : TimesIn lo mid cloud) (h' : TimesIn mid hi cloud') (hlo : lo ≤ mid) (hhi : mid ≤ hi) :
    TimesIn lo hi (cloud ++ cloud') := by
  refine ⟨?_, fun p hp => ?_⟩
  · -- `mid` lies between the two
    rw [List.map_append, List.pairwise_append]
    refine ⟨h.1, h'.1, fun t ht t' ht' => ?_⟩
    obtain ⟨p, hp, rfl⟩ := List.mem_map.mp ht
    obtain ⟨p', hp', rfl⟩ := List.mem_map.mp ht'
    exact (h.2 p hp).2.trans (h'.2 p' hp').1
  · rcases List.mem_append.mp hp with hp | hp
    · exact ⟨(h.2 p hp).1, (h.2 p hp).2.trans hhi⟩
    · exact ⟨hlo.trans (h'.2 p hp).1, (h'.2 p hp).2⟩

omit [Field K] [LinearOrder K] [IsStrictOrderedRing K] in
/-- The loop appends points, with the times of their firings. -/
theorem fireLoop_times {point : ℕ → Option (Option (Reading K))} {time : ℕ → K}
    {idxs : List ℕ} {cloud cloud' : List (VPoint K)}
    (h : fireLoop point time idxs cloud = some cloud') :
    ∃ new, cloud' = cloud ++ new ∧ (new.map VPoint.time).Sublist (idxs.map time) := by
  induction idxs generalizing cloud with
  | nil => exact ⟨[], by rw [List.append_nil, Option.some.inj h], List.Sublist.refl _⟩
  | cons i idxs ih =>
    obtain ⟨r, -, hrest⟩ := Option.bind_eq_some_iff.mp h
    obtain ⟨new, hnew, hsub⟩ := ih hrest
    refine ⟨r.toList.map (fun r => ⟨r, time i⟩) ++ new, ?_, ?_⟩
    · rw [hnew, List.append_assoc]
    · cases r with
      | none => exact hsub.cons (time i)
      | some r => exact hsub.cons_cons (time i)

variable [FloorRing K] {P : Params K}

omit [IsStrictOrderedRing K] in
/-- What a loop appends, if the times that it rounds do not go back. -/
theorem packetLoop_times (lo hi : K) {settings : Settings K} {data : PacketData}
    {time exact : ℕ → K} {a b : ℕ} {cloud cloud' : List (VPoint K)}
    (h : packetLoop P settings data time a b cloud = some cloud')
    (htime : ∀ i, time i = P.float (exact i))
    (hmono : ∀ i j, a ≤ i → i ≤ j → j < b → exact i ≤ exact j)
    (hbounds : ∀ i, a ≤ i → i < b → lo ≤ exact i ∧ exact i ≤ hi) :
    ∃ new, cloud' = cloud ++ new ∧ TimesIn (P.float lo) (P.float hi) new := by
  obtain ⟨new, rfl, hsub⟩ := fireLoop_times h
  have hmem : ∀ i ∈ List.range' a (b - a), a ≤ i ∧ i < b := by
    intro i hi
    rw [List.mem_range'_1] at hi
    omega
  refine ⟨new, rfl, List.Pairwise.sublist hsub ?_, fun p hp => ?_⟩
  · -- the firings that make points are in the order of all firings
    rw [List.pairwise_map]
    refine (List.pairwise_lt_range' (s := a) (n := b - a)).imp_of_mem ?_
    intro i j hi hj hlt
    rw [htime, htime]
    exact P.float.mono (hmono i j (hmem i hi).1 hlt.le (hmem j hj).2)
  · obtain ⟨i, hi, heq⟩ := List.mem_map.mp (hsub.subset (List.mem_map_of_mem hp))
    obtain ⟨hlo, hhi⟩ := hbounds i (hmem i hi).1 (hmem i hi).2
    rw [← heq, htime]
    exact ⟨P.float.mono hlo, P.float.mono hhi⟩

/-! ### The invariant -/

/-- What holds between packets, of which none has come before `T`. -/
structure TimesOk (P : Params K) (T : K) (s : State K) : Prop where
  ended : 0 ≤ s.sweepEndTime ∧ s.sweepEndTime ≤ s.lastPacketTime
  cloud : TimesIn 0 (P.float (s.lastPacketTime - s.sweepEndTime)) s.pointCloud
  /-- Before the first jump. -/
  fresh : s.isFirstSweep = true →
    s.lastPacketTime = 0 ∧ s.sweepEndTime = 0 ∧ s.pointCloud = []
  late : s.isFirstSweep = false → 1 / 1000000 < s.lastPacketTime ∧ T ≤ s.lastPacketTime
  /-- In the first sweep, the times are those of the clock. -/
  absolute : s.sweepEndTime = 0 → ∀ p ∈ s.pointCloud, P.float T ≤ p.time

/-- What holds of a cloud that is handed over. -/
structure SweepTimes (P : Params K) (T : K) (s s' : State K) (cloud : List (VPoint K)) :
    Prop where
  ended : s.lastPacketTime ≤ s'.sweepEndTime
  times : TimesIn 0 (P.float (s'.sweepEndTime - s.sweepEndTime)) cloud
  absolute : s.sweepEndTime = 0 → ∀ p ∈ cloud, P.float T ≤ p.time

section Handled

variable {T : K} {s s' : State K} {data : PacketData} {now : K} {clouds : List (List (VPoint K))}

/-- The first loop, up to firing `b`, behind a packet in the same sweep. -/
theorem TimesOk.loop (h : TimesOk P T s) (hlate : 1 / 1000000 < s.lastPacketTime)
    (hT : T ≤ s.lastPacketTime) (hnow : s.lastPacketTime ≤ now) {b : ℕ} (hb : b ≤ scansPerPacket)
    {cloud : List (VPoint K)}
    (hloop : packetLoop P s.settings data (timeInSweep P s now) 0 b s.pointCloud = some cloud) :
    TimesIn 0
        (P.float (now - share (now - s.lastPacketTime) (scansPerPacket - b) - s.sweepEndTime))
        cloud ∧ (s.sweepEndTime = 0 → ∀ p ∈ cloud, P.float T ≤ p.time) := by
  have hd : 0 ≤ now - s.lastPacketTime := sub_nonneg.mpr hnow
  have htime : ∀ i, timeInSweep P s now i = P.float
      (now - s.sweepEndTime - share (now - s.lastPacketTime) (scansPerPacket - i - 1)) :=
    fun i => congrArg P.float (if_pos hlate)
  have hshare := share_le hd (Nat.sub_le scansPerPacket b)
  -- the new points come behind the last packet, where the old ones end
  obtain ⟨new, rfl, hnew⟩ := packetLoop_times (s.lastPacketTime - s.sweepEndTime)
    (now - share (now - s.lastPacketTime) (scansPerPacket - b) - s.sweepEndTime) hloop htime
    (by
      intro i j _ hij _
      have hle := share_mono hd (show scansPerPacket - j - 1 ≤ scansPerPacket - i - 1 by omega)
      linarith)
    (by
      intro i _ hi
      have hle := share_le hd (show scansPerPacket - i - 1 ≤ scansPerPacket by omega)
      have hge := share_mono hd (show scansPerPacket - b ≤ scansPerPacket - i - 1 by omega)
      constructor <;> linarith)
  refine ⟨h.cloud.append hnew (P.float.round_nonneg (sub_nonneg.mpr h.ended.2))
    (P.float.mono (by linarith)), ?_⟩
  intro hzero p hp
  rcases List.mem_append.mp hp with hp | hp
  · exact h.absolute hzero p hp
  · have hge := (hnew.2 p hp).1
    rw [hzero, sub_zero] at hge
    exact (P.float.mono hT).trans hge

/-- **A packet keeps the times in order.** -/
theorem TimesOk.handled (h : TimesOk P T s) (hhandled : Handled P s data now s' clouds)
    (hnow : s.lastPacketTime ≤ now) (hpos : 1 / 1000000 < now) (hT : T ≤ now) :
    TimesOk P T s' ∧ ∀ cloud ∈ clouds, SweepTimes P T s s' cloud := by
  have hzero : (0 : K) < 1 / 1000000 := by positivity
  cases hhandled with
  | waits hfirst _ =>
    refine ⟨⟨h.ended, h.cloud, h.fresh, h.late, h.absolute⟩, ?_⟩
    exact fun _ hcloud => absurd hcloud List.not_mem_nil
  | begins hfirst _ hloop =>
    obtain ⟨hlast, hend, hcloud⟩ := h.fresh hfirst
    -- all points of the packet get its time
    have htime : ∀ i, timeInSweep P s now i = P.float now := fun i =>
      congrArg P.float (if_neg (by rw [hlast]; exact not_lt.mpr hzero.le))
    obtain ⟨new, rfl, hnew⟩ := packetLoop_times now now hloop htime
      (fun i j _ _ _ => le_rfl) (fun i _ _ => ⟨le_rfl, le_rfl⟩)
    have hnowZero : 0 ≤ P.float now := P.float.round_nonneg (hzero.trans hpos).le
    rw [hcloud, List.nil_append]
    refine ⟨⟨?_, ?_, fun hfalse => absurd hfalse Bool.false_ne_true, fun _ => ⟨hpos, hT⟩, ?_⟩, ?_⟩
    · rw [hend]
      exact ⟨le_rfl, (hzero.trans hpos).le⟩
    · show TimesIn 0 (P.float (now - s.sweepEndTime)) new
      rw [hend, sub_zero]
      exact ⟨hnew.1, fun p hp => ⟨hnowZero.trans (hnew.2 p hp).1, (hnew.2 p hp).2⟩⟩
    · exact fun _ p hp => (P.float.mono hT).trans (hnew.2 p hp).1
    · exact fun _ hmem => absurd hmem List.not_mem_nil
  | goesOn hfirst _ hloop =>
    obtain ⟨hlate, hTlast⟩ := h.late hfirst
    obtain ⟨htimes, habsolute⟩ := h.loop hlate hTlast hnow le_rfl hloop
    rw [Nat.sub_self, share_zero, sub_zero] at htimes
    refine ⟨⟨⟨h.ended.1, h.ended.2.trans hnow⟩, htimes,
      fun hfalse => absurd hfalse Bool.false_ne_true, fun _ => ⟨hpos, hT⟩, habsolute⟩, ?_⟩
    exact fun _ hmem => absurd hmem List.not_mem_nil
  | turns hfirst hj lastAzimuth hloop hrest =>
    obtain ⟨hlate, hTlast⟩ := h.late hfirst
    obtain ⟨htimes, habsolute⟩ := h.loop hlate hTlast hnow hj.le hloop
    have hd : 0 ≤ now - s.lastPacketTime := sub_nonneg.mpr hnow
    have hshare := share_le hd (Nat.sub_le scansPerPacket (searched s data).1)
    -- the new sweep starts between the two packets, where the old one ends
    have hend : endTime s now (searched s data).1 =
        now - share (now - s.lastPacketTime) (scansPerPacket - (searched s data).1) := by
      unfold endTime
      rw [if_pos hlate]
      exact if_pos (show 0 < now - share (now - s.lastPacketTime)
        (scansPerPacket - (searched s data).1) by linarith)
    have hlast : s.lastPacketTime ≤ endTime s now (searched s data).1 := by
      rw [hend]
      linarith
    have htime : ∀ i, timeBehindStart P s now (searched s data).1 i =
        P.float (share (now - s.lastPacketTime) (i - (searched s data).1)) :=
      fun i => congrArg P.float (if_pos hlate)
    -- the other loop counts from the start of the sweep, so the shares begin at none
    obtain ⟨new, hnewEq, hnew⟩ := packetLoop_times 0
      (now - endTime s now (searched s data).1) hrest htime
      (by
        intro i k _ hik _
        exact share_mono hd (Nat.sub_le_sub_right hik _))
      (by
        intro i _ hi
        rw [hend, sub_sub_cancel]
        exact ⟨share_nonneg hd _, share_mono hd (Nat.sub_le_sub_right hi.le _)⟩)
    rw [List.nil_append] at hnewEq
    rw [P.float.round_zero] at hnew
    rw [← hend] at htimes
    have hpositive : 0 < endTime s now (searched s data).1 := (hzero.trans hlate).trans_le hlast
    refine ⟨⟨⟨hpositive.le, ?_⟩, ?_, fun hfalse => absurd hfalse Bool.false_ne_true,
      fun _ => ⟨hpos, hT⟩, fun hstart => absurd hstart hpositive.ne'⟩, ?_⟩
    · show endTime s now (searched s data).1 ≤ now
      rw [hend]
      exact sub_le_self now (share_nonneg hd _)
    · rw [hnewEq]
      exact hnew
    · intro cloud hcloud
      rw [List.mem_singleton.mp hcloud]
      exact ⟨hlast, htimes, habsolute⟩

end Handled

/-! ### Runs -/

/-- The time of a packet. -/
def Event.time : Event K → Option K
  | .packet _ now => some now
  | _ => none

/-- The times of the packets of a run. -/
def packetTimes (es : List (Event K)) : List K := es.filterMap Event.time

/-- The clock does not go back, and no packet comes before `T`. -/
structure Clocked (T : K) (es : List (Event K)) : Prop where
  sorted : (packetTimes es).Pairwise (· ≤ ·)
  late : ∀ t ∈ packetTimes es, T ≤ t

omit [Field K] [LinearOrder K] [IsStrictOrderedRing K] [FloorRing K] in
theorem packetTimes_cons (e : Event K) (es : List (Event K)) :
    packetTimes (e :: es) = e.time.toList ++ packetTimes es := by
  unfold packetTimes
  rw [List.filterMap_cons]
  cases e.time <;> rfl

omit [Field K] [IsStrictOrderedRing K] [FloorRing K] in
theorem Clocked.tail {T : K} {e : Event K} {es : List (Event K)} (h : Clocked T (e :: es)) :
    Clocked T es := by
  obtain ⟨hsorted, hlate⟩ := h
  rw [packetTimes_cons] at hsorted hlate
  exact ⟨(List.pairwise_append.mp hsorted).2.1,
    fun t ht => hlate t (List.mem_append_right _ ht)⟩

/-- **The times behind a run.** -/
theorem timesOk_run {T : K} (hpos : 1 / 1000000 < T) {s₀ s : State K} {es : List (Event K)}
    {clouds : List (List (VPoint K))} (h₀ : TimesOk P T s₀) (hclock : Clocked T es)
    (hlast : ∀ t ∈ packetTimes es, s₀.lastPacketTime ≤ t)
    (h : runFrom P s₀ es = some (s, clouds)) :
    TimesOk P T s ∧ (s.lastPacketTime = s₀.lastPacketTime ∨ s.lastPacketTime ∈ packetTimes es) ∧
      (clouds = [] → s.sweepEndTime = s₀.sweepEndTime) := by
  induction es generalizing s₀ clouds with
  | nil =>
    obtain ⟨rfl, rfl⟩ := Prod.mk.inj (Option.some.inj h)
    exact ⟨h₀, Or.inl rfl, fun _ => rfl⟩
  | cons e es ih =>
    obtain ⟨s₁, clouds₁, clouds₂, hstep, hrun, rfl⟩ := runFrom_cons P h
    have hsub : ∀ t ∈ packetTimes es, t ∈ packetTimes (e :: es) := by
      intro t ht
      rw [packetTimes_cons]
      exact List.mem_append_right _ ht
    rcases (step_cases P hstep).2 with ⟨data, now, rfl, -, -, hhandled⟩ | ⟨-, rfl, σ, start, rfl⟩
    · have hcons : packetTimes (.packet data now :: es) = now :: packetTimes es := rfl
      have hmem : now ∈ packetTimes (.packet data now :: es) := hcons ▸ List.mem_cons_self
      have hT := hclock.late now hmem
      have h₁ := (h₀.handled hhandled (hlast now hmem) (hpos.trans_le hT) hT).1
      -- the time of the last packet is the old one or the new one, and none comes before either
      have hcases : (s₁.lastPacketTime = s₀.lastPacketTime ∨ s₁.lastPacketTime = now) ∧
          (clouds₁ = [] → s₁.sweepEndTime = s₀.sweepEndTime) := by
        cases hhandled with
        | waits _ _ => exact ⟨Or.inl rfl, fun _ => rfl⟩
        | begins _ _ _ => exact ⟨Or.inr rfl, fun _ => rfl⟩
        | goesOn _ _ _ => exact ⟨Or.inr rfl, fun _ => rfl⟩
        | turns _ _ _ _ _ => exact ⟨Or.inr rfl, fun hnil => absurd hnil (List.cons_ne_nil _ _)⟩
      have hsorted := hclock.sorted
      rw [hcons, List.pairwise_cons] at hsorted
      have hlast₁ : ∀ t ∈ packetTimes es, s₁.lastPacketTime ≤ t := by
        intro t ht
        rcases hcases.1 with heq | heq
        · exact heq.trans_le (hlast t (hsub t ht))
        · exact heq.trans_le (hsorted.1 t ht)
      obtain ⟨hok, hfrom, hend⟩ := ih h₁ hclock.tail hlast₁ hrun
      refine ⟨hok, ?_, fun hnil => ?_⟩
      · rcases hfrom with heq | hin
        · rcases hcases.1 with heq₁ | heq₁
          · exact Or.inl (heq.trans heq₁)
          · rw [heq, heq₁]
            exact Or.inr hmem
        · exact Or.inr (hsub _ hin)
      · obtain ⟨hnil₁, hnil₂⟩ := List.append_eq_nil_iff.mp hnil
        exact (hend hnil₂).trans (hcases.2 hnil₁)
    · -- neither member is part of the invariant
      have h₁ : TimesOk P T { s₀ with settings := σ, startProcessMsop := start } :=
        ⟨h₀.ended, h₀.cloud, h₀.fresh, h₀.late, h₀.absolute⟩
      obtain ⟨hok, hfrom, hend⟩ := ih h₁ hclock.tail (fun t ht => hlast t (hsub t ht)) hrun
      exact ⟨hok, hfrom.imp_right (hsub _), hend⟩

omit [IsStrictOrderedRing K] [FloorRing K] in
theorem timesOk_initial (T : K) (settings : Settings K) :
    TimesOk P T (State.initial settings) where
  ended := ⟨le_rfl, le_rfl⟩
  cloud := timesIn_nil _ _
  fresh := fun _ => ⟨rfl, rfl, rfl⟩
  late := fun hfalse => absurd hfalse.symm Bool.false_ne_true
  absolute := fun _ _ hp => absurd hp List.not_mem_nil

/-- **The times of a cloud.** If the times of the packets do not go back, the times of a cloud
that is handed over do not go back either, and lie between 0 and the start of the next sweep,
counted from its own start. The first cloud has the times of the clock. Both bounds are `float`s,
as the times are. -/
theorem cloud_times {T : K} (hpos : 1 / 1000000 < T) {settings : Settings K}
    {es : List (Event K)} {e : Event K} {s s' : State K} {before clouds : List (List (VPoint K))}
    (hclock : Clocked T (es ++ [e]))
    (hrun : runFrom P (State.initial settings) es = some (s, before))
    (hstep : step P s e = some (s', clouds)) :
    ∀ cloud ∈ clouds, (cloud.map VPoint.time).Pairwise (· ≤ ·) ∧
      s.lastPacketTime ≤ s'.sweepEndTime ∧
      (∀ p ∈ cloud, 0 ≤ p.time ∧ p.time ≤ P.float (s'.sweepEndTime - s.sweepEndTime)) ∧
      (before = [] → ∀ p ∈ cloud, P.float T ≤ p.time) := by
  have htimes : packetTimes (es ++ [e]) = packetTimes es ++ packetTimes [e] :=
    List.filterMap_append
  have hsorted := hclock.sorted
  rw [htimes, List.pairwise_append] at hsorted
  have hfront : Clocked T es := ⟨hsorted.1, fun t ht => hclock.late t (by
    rw [htimes]
    exact List.mem_append_left _ ht)⟩
  have hTpos : 0 < T := lt_trans (by positivity) hpos
  -- the state in front of the last event
  obtain ⟨hok, hfrom, hend⟩ := timesOk_run hpos (timesOk_initial T settings) hfront
    (fun t ht => hTpos.le.trans (hfront.late t ht)) hrun
  intro cloud hcloud
  rcases (step_cases P hstep).2 with ⟨data, now, rfl, -, -, hhandled⟩ | ⟨-, rfl, -⟩
  · have hT := hclock.late now (by
      rw [htimes]
      exact List.mem_append_right _ List.mem_cons_self)
    have hnow : s.lastPacketTime ≤ now := by
      rcases hfrom with heq | hin
      · exact heq.trans_le (hTpos.le.trans hT)
      · exact hsorted.2.2 _ hin now List.mem_cons_self
    have hsweep := (hok.handled hhandled hnow (hpos.trans_le hT) hT).2 cloud hcloud
    exact ⟨hsweep.times.1, hsweep.ended, hsweep.times.2, fun hnil => hsweep.absolute (hend hnil)⟩
  · exact absurd hcloud List.not_mem_nil

/-- The run that jumps twice, one packet a second. -/
theorem cloud_times_turn : ∃ s s' before clouds,
    runFrom plainParams (State.initial (plainSettings .other 0))
        [.difop (plainSettings .other 0), .packet (flatPacket 0x3C 0x8C) 1,
          .packet (flatPacket 0x64 0x00) 2] = some (s, before) ∧
      step plainParams s (.packet (flatPacket 0x3C 0x8C) 3) = some (s', clouds) ∧
      ∀ cloud ∈ clouds, (cloud.map VPoint.time).Pairwise (· ≤ ·) ∧
        s.lastPacketTime ≤ s'.sweepEndTime ∧
        (∀ p ∈ cloud,
          0 ≤ p.time ∧ p.time ≤ plainParams.float (s'.sweepEndTime - s.sweepEndTime)) ∧
        (before = [] → ∀ p ∈ cloud, plainParams.float 1 ≤ p.time) := by
  have hdecoded : (plainSettings .other 0).Decoded := decoded_plainSettings .other (by decide)
  obtain ⟨s', clouds, hrun⟩ := exists_turnRun hdecoded (by decide)
  have hclock : Clocked (1 : ℚ) (turnRun (plainSettings .other 0)) := by
    constructor
    · show [(1 : ℚ), 2, 3].Pairwise (· ≤ ·)
      decide
    · show ∀ t ∈ [(1 : ℚ), 2, 3], 1 ≤ t
      decide
  have hsplit : runFrom plainParams (State.initial (plainSettings .other 0))
      ([_, _, _] ++ [_]) = some (s', clouds) := hrun
  obtain ⟨s, before, last, hfront, hlast, -⟩ := runFrom_concat plainParams hsplit
  exact ⟨s, s', before, last, hfront, hlast,
    cloud_times (by norm_num) hclock hfront hlast⟩

-- half a minute behind a value of the format
example : (Rounding.float32 : Rounding ℚ 24) 1700000030 = 1700000000 := by decide +kernel

end Lidar
end WtbAutoware
