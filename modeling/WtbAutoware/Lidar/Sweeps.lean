import WtbAutoware.Lidar.Tables

/-!
# Every firing is in one cloud

`poll` cuts the stream of firings into sweeps. Behind a run, the clouds that were handed over
and the one that is being filled hold, in order and each once, the points of all firings from
the first jump on (`clouds_partition`). That is the first that the search meets: the packets of
the first `number_threshold` numbers are not searched, and the first firing that is searched
jumps if its azimuth is above 350 degrees, since `last_azimuth` starts at 0. Only clouds of a
hundred points or more are published, so that what is published is a part of this, in order
(`published_sublist`).

Between two cuts `poll` does not look for a jump in `number_threshold` packets, so that there
are never more clouds than the packets allow (`clouds_rate`).
-/

namespace WtbAutoware
namespace Lidar

variable {K : Type} [Field K] [LinearOrder K] [FloorRing K] (P : Params K)

/-! ### The points of a packet -/

/-- The points of the firings from `a` on, up to `b`. -/
def readingsFrom (p : Settings K × PacketData) (a b : ℕ) : List (Reading K) :=
  (List.range' a (b - a)).filterMap fun i => (pointOf P p.1 p.2 i).join

/-- The points of a packet. -/
def readings (p : Settings K × PacketData) : List (Reading K) := readingsFrom P p 0 scansPerPacket

/-- A cut does not lose a firing. -/
theorem readingsFrom_append (p : Settings K × PacketData) {j : ℕ} (hj : j ≤ scansPerPacket) :
    readingsFrom P p 0 j ++ readingsFrom P p j scansPerPacket = readings P p := by
  unfold readings readingsFrom
  rw [← List.filterMap_append]
  refine congrArg _ ?_
  -- the two loops of `poll` meet at `j`
  have hrange := List.range'_append_1 (s := 0) (m := j) (n := scansPerPacket - j)
  rw [Nat.zero_add] at hrange
  rw [Nat.sub_zero, Nat.sub_zero, hrange, Nat.add_sub_cancel' hj]

omit [Field K] [LinearOrder K] [FloorRing K] in
/-- The loop appends the points of its firings. -/
theorem fireLoop_readings {point : ℕ → Option (Option (Reading K))} {time : ℕ → K}
    {idxs : List ℕ} {cloud cloud' : List (VPoint K)}
    (h : fireLoop point time idxs cloud = some cloud') :
    cloud'.map VPoint.toReading =
      cloud.map VPoint.toReading ++ idxs.filterMap fun i => (point i).join := by
  induction idxs generalizing cloud with
  | nil =>
    obtain rfl := Option.some.inj h
    simp
  | cons i idxs ih =>
    obtain ⟨r, hr, hrest⟩ := Option.bind_eq_some_iff.mp h
    rw [ih hrest, List.map_append, List.append_assoc]
    cases r with
    | none => simp [hr]
    | some r => simp [hr]

theorem packetLoop_readings {settings : Settings K} {data : PacketData} {time : ℕ → K} {a b : ℕ}
    {cloud cloud' : List (VPoint K)}
    (h : packetLoop P settings data time a b cloud = some cloud') :
    cloud'.map VPoint.toReading =
      cloud.map VPoint.toReading ++ readingsFrom P (settings, data) a b :=
  fireLoop_readings h

/-! ### The partition -/

/-- The clouds handed over, and the one that is being filled, without the times. -/
def collected (s : State K) (clouds : List (List (VPoint K))) : List (Reading K) :=
  (clouds ++ [s.pointCloud]).flatten.map VPoint.toReading

omit [Field K] [LinearOrder K] [FloorRing K] in
theorem collected_append (s : State K) (clouds clouds' : List (List (VPoint K))) :
    collected s (clouds ++ clouds') =
      clouds.flatten.map VPoint.toReading ++ collected s clouds' := by
  unfold collected
  rw [List.append_assoc, List.flatten_append, List.map_append]

omit [Field K] [LinearOrder K] [FloorRing K] in
@[simp] theorem collected_nil (s : State K) :
    collected s [] = s.pointCloud.map VPoint.toReading := by
  simp [collected]

/-- Behind the first jump, a packet adds its points. -/
theorem Handled.collected {s s' : State K} {data : PacketData} {now : K}
    {clouds : List (List (VPoint K))} (h : Handled P s data now s' clouds)
    (hfirst : s.isFirstSweep = false) :
    s'.isFirstSweep = false ∧ Lidar.collected s' clouds =
      s.pointCloud.map VPoint.toReading ++ readings P (s.settings, data) := by
  cases h with
  | waits htrue _ => exact absurd htrue (Bool.eq_false_iff.mp hfirst)
  | begins htrue _ _ => exact absurd htrue (Bool.eq_false_iff.mp hfirst)
  | goesOn _ _ hloop =>
    refine ⟨rfl, ?_⟩
    rw [collected_nil]
    exact packetLoop_readings P hloop
  | turns _ hj _ hloop hrest =>
    -- the old cloud is handed over with the firings in front of the cut, the new one has the rest
    refine ⟨rfl, ?_⟩
    have hpoints := packetLoop_readings P hloop
    have hrestPoints := packetLoop_readings P hrest
    rw [List.map_nil, List.nil_append] at hrestPoints
    rw [← List.append_nil [_], collected_append, collected_nil]
    show List.map VPoint.toReading (List.flatten [_]) ++ List.map VPoint.toReading _ = _
    rw [List.flatten_singleton, hpoints, hrestPoints, List.append_assoc,
      readingsFrom_append P _ hj.le]

/-- The clouds hold the points of all firings from one on: the first at which the azimuth
jumps. -/
def FromJump (packets : List (Settings K × PacketData)) (s : State K)
    (clouds : List (List (VPoint K))) : Prop :=
  ∃ pre p post j, packets = pre ++ p :: post ∧ j < scansPerPacket ∧
    NoJump pre ∧ (∀ i < j, ¬ JumpsAt pre p i) ∧ JumpsAt pre p j ∧
    collected s clouds = readingsFrom P p j scansPerPacket ++ post.flatMap (readings P)

theorem FromJump.concat {packets : List (Settings K × PacketData)} {s s' : State K}
    {clouds clouds' : List (List (VPoint K))} {data : PacketData} {now : K}
    (h : FromJump P packets s clouds) (hfirst : s.isFirstSweep = false)
    (hhandled : Handled P s data now s' clouds') :
    FromJump P (packets ++ [(s.settings, data)]) s' (clouds ++ clouds') := by
  obtain ⟨pre, p, post, j, rfl, hj, hquiet, hfront, hjump, hpoints⟩ := h
  refine ⟨pre, p, post ++ [(s.settings, data)], j, ?_, hj, hquiet, hfront, hjump, ?_⟩
  · rw [List.append_assoc, List.cons_append]
  · calc collected s' (clouds ++ clouds')
        = clouds.flatten.map VPoint.toReading ++
            (s.pointCloud.map VPoint.toReading ++ readings P (s.settings, data)) := by
          rw [collected_append, (hhandled.collected P hfirst).2]
      _ = collected s clouds ++ readings P (s.settings, data) := by
          rw [← List.append_assoc, ← collected_nil, ← collected_append, List.append_nil]
      _ = _ := by
          rw [hpoints, List.append_assoc, List.flatMap_append, List.flatMap_singleton]

/-- What holds behind the packets that were handled. -/
inductive Partitioned (packets : List (Settings K × PacketData)) (s : State K)
    (clouds : List (List (VPoint K))) : Prop where
  /-- There was no jump. -/
  | waiting (first : s.isFirstSweep = true) (search : Searching packets s)
    (handedOver : clouds = []) (cloud : s.pointCloud = [])
  | begun (first : s.isFirstSweep = false) (jump : FromJump P packets s clouds)

/-- **A packet keeps the partition.** -/
theorem Partitioned.handled {packets : List (Settings K × PacketData)} {s s' : State K}
    {clouds clouds' : List (List (VPoint K))} {data : PacketData} {now : K}
    (h : Partitioned P packets s clouds) (hhandled : Handled P s data now s' clouds') :
    Partitioned P (packets ++ [(s.settings, data)]) s' (clouds ++ clouds') := by
  cases h with
  | waiting hfirst hsearch hclouds hcloud =>
    obtain rfl := hclouds
    cases hhandled with
    | waits _ hj => exact .waiting hfirst (hsearch.concat hj rfl rfl) rfl hcloud
    | begins _ hj hloop =>
      -- this packet is `p`: its firings from the jump on, and then all that comes
      obtain ⟨hfront, hjump⟩ := hsearch.found data
      have hpoints := packetLoop_readings P hloop
      rw [hcloud, List.map_nil, List.nil_append] at hpoints
      refine .begun rfl ⟨packets, (s.settings, data), [], (searched s data).1, rfl, hj,
        hsearch.noJump, hfront, hjump hj, ?_⟩
      rw [List.append_nil, collected_nil, List.flatMap_nil, List.append_nil]
      exact hpoints
    | goesOn hfalse _ _ => exact absurd hfirst (Bool.eq_false_iff.mp hfalse)
    | turns hfalse _ _ _ _ => exact absurd hfirst (Bool.eq_false_iff.mp hfalse)
  | begun hfirst hjump =>
    exact .begun (hhandled.collected P hfirst).1 (hjump.concat P hfirst hhandled)

theorem partition_run {settings : Settings K} {es : List (Event K)} {s : State K}
    {clouds : List (List (VPoint K))}
    (h : runFrom P (State.initial settings) es = some (s, clouds)) :
    Partitioned P (accepted none es) s clouds := by
  induction es using List.reverseRecOn generalizing s clouds with
  | nil =>
    obtain ⟨rfl, rfl⟩ := Prod.mk.inj (Option.some.inj h)
    exact .waiting rfl ⟨rfl, rfl, Reactive.each_nil _⟩ rfl rfl
  | append_singleton es e ih =>
    obtain ⟨s₁, clouds₁, clouds₂, hrun, hstep, rfl⟩ := runFrom_concat P h
    have haccepted : accepted none (es ++ [e]) = accepted none es ++ taken s₁.known e :=
      accepted_concat P hrun e
    rw [haccepted]
    rcases (step_cases P hstep).2 with ⟨data, now, -, htaken, -, hhandled⟩ |
      ⟨htaken, rfl, settings', start, rfl⟩
    · rw [htaken]
      exact (ih hrun).handled P hhandled
    · -- the settings are no part of what the search or the clouds have come to
      rw [htaken, List.append_nil, List.append_nil]
      cases ih hrun with
      | waiting hfirst hsearch hclouds hcloud =>
        exact .waiting hfirst ⟨hsearch.packetNum, hsearch.lastAzimuth, hsearch.noJump⟩ hclouds
          hcloud
      | begun hfirst hjump => exact .begun hfirst hjump

/-- **The clouds are a partition.** As long as the azimuth does not jump at a firing that is
searched, nothing is collected. From the first firing at which it does, the clouds hold the points
of all firings of all packets that count, in order, each of them once. -/
theorem clouds_partition {settings : Settings K} {es : List (Event K)} {s : State K}
    {clouds : List (List (VPoint K))}
    (h : runFrom P (State.initial settings) es = some (s, clouds)) :
    (s.isFirstSweep = true ∧ NoJump (accepted none es) ∧ clouds = [] ∧ s.pointCloud = []) ∨
      (s.isFirstSweep = false ∧ FromJump P (accepted none es) s clouds) := by
  cases partition_run P h with
  | waiting hfirst hsearch hclouds hcloud =>
    exact Or.inl ⟨hfirst, hsearch.noJump, hclouds, hcloud⟩
  | begun hfirst hjump => exact Or.inr ⟨hfirst, hjump⟩

/-- A run that jumps at its very first firing, which is held against 0, and twice more. -/
theorem clouds_partition_turn : ∃ s clouds,
    runFrom plainParams (State.initial (plainSettings .other 0))
        (turnRun (plainSettings .other 0)) = some (s, clouds) ∧
      ((s.isFirstSweep = true ∧ NoJump (accepted none (turnRun (plainSettings .other 0))) ∧
          clouds = [] ∧ s.pointCloud = []) ∨
        (s.isFirstSweep = false ∧ FromJump plainParams
          (accepted none (turnRun (plainSettings .other 0))) s clouds)) := by
  have hdecoded : (plainSettings .other 0).Decoded := decoded_plainSettings .other (by decide)
  obtain ⟨s, clouds, hrun⟩ := exists_turnRun hdecoded (by decide)
  exact ⟨s, clouds, hrun, clouds_partition plainParams hrun⟩

/-! ### What is published -/

def Reading.toXyzi (p : Reading K) : PointXYZI K := ⟨p.x, p.y, p.z, p.intensity⟩

def CloudMsg.points : CloudMsg K → List (PointXYZI K)
  | .xyzi points => points
  | .xyzirt points => points.map fun p => p.toReading.toXyzi

omit [FloorRing K] in
/-- A message has the points of its cloud, of either type. -/
theorem points_of_publishPointcloud {cloud : List (VPoint K)} {msg : CloudMsg K}
    (h : publishPointcloud P cloud = some msg) :
    100 ≤ cloud.length ∧ msg.points = (cloud.map VPoint.toReading).map Reading.toXyzi := by
  unfold publishPointcloud at h
  rw [List.map_map]
  split at h
  · cases h
  · next hlength =>
    refine ⟨not_lt.mp hlength, ?_⟩
    split at h <;> obtain rfl := Option.some.inj h <;> rfl

omit [FloorRing K] in
theorem points_publish_sublist (clouds : List (List (VPoint K))) :
    ((clouds.filterMap (publishPointcloud P)).flatMap CloudMsg.points).Sublist
      ((clouds.flatten.map VPoint.toReading).map Reading.toXyzi) := by
  induction clouds with
  | nil => exact List.Sublist.refl _
  | cons cloud clouds ih =>
    rw [List.flatten_cons, List.map_append, List.map_append]
    cases hmsg : publishPointcloud P cloud with
    | none =>
      rw [List.filterMap_cons_none hmsg]
      exact ih.trans (List.sublist_append_right _ _)
    | some msg =>
      rw [List.filterMap_cons_some hmsg, List.flatMap_cons, (points_of_publishPointcloud P hmsg).2]
      exact (List.Sublist.refl _).append ih

/-- So no firing is published twice, and none before one in front of it. -/
theorem published_sublist {settings : Settings K} {es : List (Event K)} {s : State K}
    {clouds : List (List (VPoint K))}
    (h : runFrom P (State.initial settings) es = some (s, clouds)) :
    ((clouds.filterMap (publishPointcloud P)).flatMap CloudMsg.points).Sublist
      (((accepted none es).flatMap (readings P)).map Reading.toXyzi) := by
  refine (points_publish_sublist P clouds).trans (List.Sublist.map _ ?_)
  cases partition_run P h with
  | waiting _ _ hclouds _ =>
    rw [hclouds]
    exact List.nil_sublist _
  | begun _ hjump =>
    obtain ⟨pre, p, post, j, hpackets, hj, -, -, -, hpoints⟩ := hjump
    have hclouds : (clouds.flatten.map VPoint.toReading).Sublist (collected s clouds) := by
      rw [← List.append_nil clouds, collected_append, List.append_nil]
      exact List.sublist_append_left _ _
    have hcut : (readingsFrom P p j scansPerPacket).Sublist (readings P p) := by
      rw [← readingsFrom_append P p hj.le]
      exact List.sublist_append_right _ _
    rw [hpoints] at hclouds
    rw [hpackets, List.flatMap_append, List.flatMap_cons]
    exact hclouds.trans
      ((hcut.append (List.Sublist.refl _)).trans (List.sublist_append_right _ _))

/-! ### How often a cloud is handed over -/

/-- The sweeps that have begun. -/
def begun (s : State K) (clouds : List (List (VPoint K))) : ℤ :=
  clouds.length + if s.isFirstSweep then 0 else 1

/-- What is left of the packets when each sweep takes `T + 1` of them. -/
structure InBudget (T : ℤ) (packets : ℤ) (s : State K) (clouds : List (List (VPoint K))) :
    Prop where
  threshold : ∀ settings ∈ s.known, T ≤ settings.numberThreshold
  nonneg : 0 ≤ s.packetNum
  spent : begun s clouds * (T + 1) + s.packetNum ≤ packets

/-- A packet brings one, and a cut takes what has come since the last one. -/
theorem InBudget.handled {T packets : ℤ} {s s' : State K} {data : PacketData} {now : K}
    {clouds clouds' : List (List (VPoint K))} (h : InBudget T packets s clouds)
    (hstart : s.startProcessMsop = true) (hhandled : Handled P s data now s' clouds') :
    InBudget T (packets + 1) s' (clouds ++ clouds') := by
  obtain ⟨hT, hnum, hspent⟩ := h
  have hle := hT s.settings (if_pos hstart)
  unfold begun at hspent
  cases hhandled with
  | waits hfirst _ =>
    refine ⟨hT, Int.add_nonneg hnum (by decide), ?_⟩
    rw [List.append_nil, begun]
    show (clouds.length + if s.isFirstSweep = true then 0 else 1 : ℤ) * (T + 1) +
      (s.packetNum + 1) ≤ packets + 1
    linarith
  | begins hfirst hj _ =>
    -- the search was made, so this is at least the packet of number `T + 1`
    obtain ⟨hfound, -⟩ := (searched_spec s data).2.1 hj
    refine ⟨hT, le_rfl, ?_⟩
    rw [List.append_nil, begun]
    rw [if_pos hfirst] at hspent
    show (clouds.length + 1 : ℤ) * (T + 1) + 0 ≤ packets + 1
    linarith
  | goesOn hfirst _ _ =>
    refine ⟨hT, Int.add_nonneg hnum (by decide), ?_⟩
    rw [List.append_nil, begun]
    rw [hfirst] at hspent
    show (clouds.length + 1 : ℤ) * (T + 1) + (s.packetNum + 1) ≤ packets + 1
    simp only [Bool.false_eq_true, if_false] at hspent
    linarith
  | turns hfirst hj _ _ _ =>
    obtain ⟨hfound, -⟩ := (searched_spec s data).2.1 hj
    refine ⟨hT, le_rfl, ?_⟩
    rw [begun, List.length_append, List.length_singleton, Nat.cast_add, Nat.cast_one]
    rw [hfirst] at hspent
    show (clouds.length + 1 + 1 : ℤ) * (T + 1) + 0 ≤ packets + 1
    simp only [Bool.false_eq_true, if_false] at hspent
    linarith

theorem budget_run {T packets : ℤ} {s₀ s : State K} {es : List (Event K)}
    {clouds₀ clouds : List (List (VPoint K))}
    (hT : ∀ settings, Event.difop settings ∈ es → T ≤ settings.numberThreshold)
    (h₀ : InBudget T packets s₀ clouds₀) (h : runFrom P s₀ es = some (s, clouds)) :
    InBudget T (packets + (accepted s₀.known es).length) s (clouds₀ ++ clouds) := by
  induction es generalizing s₀ clouds₀ clouds packets with
  | nil =>
    obtain ⟨rfl, rfl⟩ := Prod.mk.inj (Option.some.inj h)
    simpa [accepted] using h₀
  | cons e es ih =>
    obtain ⟨s₁, clouds₁, clouds₂, hstep, hrun, rfl⟩ := runFrom_cons P h
    obtain ⟨hknown, hcases⟩ := step_cases P hstep
    have hT' := fun settings hmem => hT settings (List.mem_cons_of_mem e hmem)
    have h₁ : InBudget T (packets + (taken s₀.known e).length) s₁ (clouds₀ ++ clouds₁) := by
      rcases hcases with ⟨data, now, -, htaken, hstart, hhandled⟩ | ⟨htaken, rfl, σ, start, rfl⟩
      · rw [htaken]
        exact h₀.handled P hstart hhandled
      · rw [htaken, List.length_nil, Nat.cast_zero, add_zero, List.append_nil]
        refine ⟨?_, h₀.nonneg, h₀.spent⟩
        rw [hknown]
        intro settings hsettings
        -- the threshold can change between packets, but not fall below `T`
        cases e with
        | difop settings' =>
          obtain rfl := Option.some.inj hsettings
          exact hT _ List.mem_cons_self
        | timeout => exact absurd hsettings (Option.not_mem_none settings)
        | packet data now => exact h₀.threshold settings hsettings
    have hrest := ih hT' h₁ hrun
    rw [accepted, ← hknown, List.length_append, Nat.cast_add, ← add_assoc, ← List.append_assoc]
    exact hrest

/-- **No cut comes soon after another.** If every lidar that is found has a
`number_threshold` of `T` or more, each sweep that begins takes `T + 1` packets. -/
theorem clouds_rate {T : ℤ} {settings : Settings K} {es : List (Event K)}
    (hT : ∀ settings, Event.difop settings ∈ es → T ≤ settings.numberThreshold)
    {s : State K} {clouds : List (List (VPoint K))}
    (h : runFrom P (State.initial settings) es = some (s, clouds)) :
    begun s clouds * (T + 1) ≤ (accepted none es).length := by
  have hstart : InBudget T 0 (State.initial settings) [] :=
    ⟨fun settings hnone => absurd hnone (Option.not_mem_none settings), le_rfl,
      by simp [begun, State.initial]⟩
  obtain ⟨-, hnum, hspent⟩ := budget_run P hT hstart h
  rw [List.nil_append, zero_add] at hspent
  exact (le_add_of_nonneg_right hnum).trans hspent

/-- Of two packets, at most one cuts. -/
def everyOther : Settings ℚ := { plainSettings .other 0 with numberThreshold := 1 }

/-- The same run with these settings: its third packet is the one sweep that begins. -/
theorem clouds_rate_turn : ∃ s clouds,
    runFrom plainParams (State.initial everyOther) (turnRun everyOther) = some (s, clouds) ∧
      begun s clouds * (1 + 1) ≤ (accepted none (turnRun everyOther)).length := by
  have hplain : (plainSettings .other 0).Decoded := decoded_plainSettings .other (by decide)
  have hdecoded : everyOther.Decoded :=
    ⟨hplain.adjust0, hplain.adjust1, hplain.conversion, hplain.offset⟩
  obtain ⟨s, clouds, hrun⟩ := exists_turnRun hdecoded (by decide)
  refine ⟨s, clouds, hrun, clouds_rate plainParams ?_ hrun⟩
  intro settings hmem
  rw [difop_mem_turnRun hmem]
  exact le_refl (1 : ℤ)

end Lidar
end WtbAutoware
