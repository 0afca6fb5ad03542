import WtbAutoware.Framework.Machine
import WtbAutoware.Lidar.Driver

/-!
# What a packet does

A packet can do four things to the driver (`Handled`): the first jump of the azimuth has not
come yet; or this is it; or the sweep goes on; or the next sweep begins. `handlePacket_eq` puts
`handlePacket` in these cases.

Which packets are handled can be said without the state of the driver: those that are valid and
come while the lidar is known (`accepted`). So can where the first jump is found: the search holds
the azimuth of each firing against that of the firing that it looked at before, of the same packet
or of an earlier one, and the first of all against 0 (`JumpsAt`).
-/

namespace WtbAutoware
namespace Lidar

variable {K : Type} [Field K]

/-! ### The search -/

/-- What is searched when a packet is handled. -/
def searched (s : State K) (data : PacketData) : ℕ × ℤ :=
  searchSweep { s with packetNum := s.packetNum + 1 } (decodePacket s.settings data)

/-- The azimuth in front of firing `i`, if `last` is that in front of firing 0. -/
def azimuthBefore (azimuth : ℕ → ℤ) (last : ℤ) (i : ℕ) : ℤ :=
  if i = 0 then last else azimuth (i - 1)

/-- At firing `i`, the azimuth is far from that in front of it. -/
def FarFrom (azimuth : ℕ → ℤ) (last : ℤ) (i : ℕ) : Prop :=
  35000 < |azimuth i - azimuthBefore azimuth last i|

/-- The search ends at the first firing that is far from the one in front of it, or behind all. -/
theorem findSweep_spec {azimuth : ℕ → ℤ} (h : ∀ i, 0 ≤ azimuth i ∧ azimuth i < 36000) (n i : ℕ)
    (last : ℤ) :
    let r := findSweep azimuth n i (azimuthBefore azimuth last i)
    r.1 ≤ i + n ∧ (r.1 < i + n → FarFrom azimuth last r.1) ∧
      (∀ k, i ≤ k → k < r.1 → ¬ FarFrom azimuth last k) ∧
      r.2 = azimuthBefore azimuth last r.1 := by
  induction n generalizing i with
  | zero => exact ⟨le_rfl, fun hlt => absurd hlt (lt_irrefl _), fun k hk hk' =>
      absurd hk' (not_lt.mpr hk), rfl⟩
  | succ n ih =>
    intro r
    by_cases hfar : FarFrom azimuth last i
    · have hr : r = (i, azimuthBefore azimuth last i) := if_pos hfar
      rw [hr]
      exact ⟨Nat.le_add_right _ _, fun _ => hfar, fun k hk hk' => absurd hk' (not_lt.mpr hk), rfl⟩
    · -- `last_azimuth` has 16 bits, enough for a turn
      have hsame : azimuth i % 65536 = azimuthBefore azimuth last (i + 1) := by
        have hi := h i
        exact Int.emod_eq_of_lt hi.1 (by omega)
      have hr : r = findSweep azimuth n (i + 1) (azimuthBefore azimuth last (i + 1)) := by
        rw [← hsame]
        exact if_neg hfar
      obtain ⟨hle, hfound, hnone, hlast⟩ := ih (i + 1)
      rw [Nat.add_right_comm i 1 n] at hle hfound
      rw [hr]
      refine ⟨hle, hfound, fun k hk hk' => ?_, hlast⟩
      rcases hk.eq_or_lt with rfl | hlt
      · exact hfar
      · exact hnone k hlt hk'

theorem azimuth_decodePacket (settings : Settings K) (data : PacketData) (i : ℕ) :
    0 ≤ (decodePacket settings data).azimuth i ∧
      (decodePacket settings data).azimuth i < 36000 :=
  ⟨Int.emod_nonneg _ (by decide), Int.emod_lt_of_pos _ (by decide)⟩

/-- What a packet of this number is searched for. -/
theorem searched_spec (s : State K) (data : PacketData) :
    (searched s data).1 ≤ scansPerPacket ∧
      ((searched s data).1 < scansPerPacket → s.settings.numberThreshold < s.packetNum + 1 ∧
        FarFrom (decodePacket s.settings data).azimuth s.lastAzimuth (searched s data).1) ∧
      (s.settings.numberThreshold < s.packetNum + 1 → ∀ i < (searched s data).1,
        ¬ FarFrom (decodePacket s.settings data).azimuth s.lastAzimuth i) ∧
      (searched s data).2 =
        if s.settings.numberThreshold < s.packetNum + 1 then
          azimuthBefore (decodePacket s.settings data).azimuth s.lastAzimuth (searched s data).1
        else s.lastAzimuth := by
  unfold searched searchSweep
  dsimp only
  by_cases hnum : s.settings.numberThreshold < s.packetNum + 1
  · obtain ⟨hle, hfound, hnone, hlast⟩ := findSweep_spec
      (azimuth_decodePacket s.settings data) scansPerPacket 0 s.lastAzimuth
    rw [Nat.zero_add] at hle hfound
    rw [if_pos hnum, if_pos hnum]
    exact ⟨hle, fun hlt => ⟨hnum, hfound hlt⟩, fun _ i hi => hnone i (Nat.zero_le i) hi, hlast⟩
  · -- too soon, and nothing is searched
    rw [if_neg hnum, if_neg hnum]
    exact ⟨le_rfl, fun hlt => absurd hlt (lt_irrefl _), fun hyes => absurd hyes hnum, rfl⟩

theorem searched_le (s : State K) (data : PacketData) : (searched s data).1 ≤ scansPerPacket :=
  (searched_spec s data).1

/-! ### The first jump -/

/-- The azimuth that the search has looked at last, behind these packets; there is no jump in
them. The first `number_threshold` packets are not searched. -/
def lastSearched (packets : List (Settings K × PacketData)) : ℤ :=
  packets.zipIdx.foldl (fun last q =>
    if q.1.1.numberThreshold < (q.2 : ℤ) + 1 then
      (decodePacket q.1.1 q.1.2).azimuth (scansPerPacket - 1)
    else last) 0

theorem lastSearched_concat (packets : List (Settings K × PacketData))
    (p : Settings K × PacketData) :
    lastSearched (packets ++ [p]) =
      if p.1.numberThreshold < (packets.length : ℤ) + 1 then
        (decodePacket p.1 p.2).azimuth (scansPerPacket - 1)
      else lastSearched packets := by
  unfold lastSearched
  rw [List.zipIdx_append, List.foldl_append]
  simp

/-- Behind the packets `pre`, in which there is no jump, firing `i` of `p` is searched, and the
azimuth jumps there. -/
def JumpsAt (pre : List (Settings K × PacketData)) (p : Settings K × PacketData) (i : ℕ) : Prop :=
  p.1.numberThreshold < (pre.length : ℤ) + 1 ∧
    FarFrom (decodePacket p.1 p.2).azimuth (lastSearched pre) i

/-- There is no jump in the packets. -/
def NoJump (packets : List (Settings K × PacketData)) : Prop :=
  Reactive.Each (fun pre p => ∀ i < scansPerPacket, ¬ JumpsAt pre p i) packets

/-- The members that the search reads, behind packets in which there is no jump. -/
structure Searching (packets : List (Settings K × PacketData)) (s : State K) : Prop where
  packetNum : s.packetNum = packets.length
  lastAzimuth : s.lastAzimuth = lastSearched packets
  noJump : NoJump packets

/-- A packet is searched up to the first jump. -/
theorem Searching.found {packets : List (Settings K × PacketData)} {s : State K}
    (h : Searching packets s) (data : PacketData) :
    (∀ i < (searched s data).1, ¬ JumpsAt packets (s.settings, data) i) ∧
      ((searched s data).1 < scansPerPacket →
        JumpsAt packets (s.settings, data) (searched s data).1) := by
  obtain ⟨-, hfound, hnone, -⟩ := searched_spec s data
  rw [h.packetNum, h.lastAzimuth] at hfound hnone
  exact ⟨fun i hi hjump => hnone hjump.1 i hi hjump.2, fun hlt => hfound hlt⟩

/-- And with no jump in it, the search goes on. -/
theorem Searching.concat {packets : List (Settings K × PacketData)} {s s' : State K}
    (h : Searching packets s) {data : PacketData} (hj : (searched s data).1 = scansPerPacket)
    (hnum : s'.packetNum = s.packetNum + 1) (hlast : s'.lastAzimuth = (searched s data).2) :
    Searching (packets ++ [(s.settings, data)]) s' := by
  obtain ⟨-, -, -, hazimuth⟩ := searched_spec s data
  refine ⟨?_, ?_, Reactive.each_concat.mpr ⟨h.noJump, ?_⟩⟩
  · rw [hnum, h.packetNum, List.length_append, List.length_singleton]
    push_cast
    rfl
  · rw [hlast, hazimuth, hj, h.packetNum, h.lastAzimuth, lastSearched_concat]
    rfl
  · exact fun i hi => (h.found data).1 i (hj ▸ hi)

/-! ### What a packet does -/

variable [LinearOrder K] [FloorRing K] (P : Params K)

/-- The firings of a packet, as the loops make points of them. -/
def pointOf (settings : Settings K) (data : PacketData) : ℕ → Option (Option (Reading K)) :=
  firePoint P settings (adjustFirings settings (decodePacket settings data))

/-- A loop over the firings from `a` on, up to `b`. -/
def packetLoop (settings : Settings K) (data : PacketData) (time : ℕ → K) (a b : ℕ)
    (cloud : List (VPoint K)) : Option (List (VPoint K)) :=
  fireLoop (pointOf P settings data) time (List.range' a (b - a)) cloud

/-- The four things that a packet can do. -/
inductive Handled (s : State K) (data : PacketData) (now : K) :
    State K → List (List (VPoint K)) → Prop where
  /-- No jump so far. -/
  | waits (hfirst : s.isFirstSweep = true) (hj : (searched s data).1 = scansPerPacket) :
    Handled s data now
      { s with packetNum := s.packetNum + 1, lastAzimuth := (searched s data).2 } []
  /-- The first jump. -/
  | begins (hfirst : s.isFirstSweep = true) (hj : (searched s data).1 < scansPerPacket)
      {cloud : List (VPoint K)}
      (hloop : packetLoop P s.settings data (timeInSweep P s now) (searched s data).1 scansPerPacket
        s.pointCloud = some cloud) :
    Handled s data now
      { s with
        packetNum := 0
        lastAzimuth := (searched s data).2
        isFirstSweep := false
        lastPacketTime := now
        pointCloud := cloud } []
  /-- The sweep goes on. -/
  | goesOn (hfirst : s.isFirstSweep = false) (hj : (searched s data).1 = scansPerPacket)
      {cloud : List (VPoint K)}
      (hloop : packetLoop P s.settings data (timeInSweep P s now) 0 scansPerPacket
        s.pointCloud = some cloud) :
    Handled s data now
      { s with
        packetNum := s.packetNum + 1
        lastAzimuth := (searched s data).2
        isFirstSweep := false
        lastPacketTime := now
        pointCloud := cloud } []
  /-- The next sweep begins. -/
  | turns (hfirst : s.isFirstSweep = false) (hj : (searched s data).1 < scansPerPacket)
      {cloud rest : List (VPoint K)} (lastAzimuth : ℤ)
      (hloop : packetLoop P s.settings data (timeInSweep P s now) 0 (searched s data).1
        s.pointCloud = some cloud)
      (hrest : packetLoop P s.settings data (timeBehindStart P s now (searched s data).1)
        (searched s data).1 scansPerPacket [] = some rest) :
    Handled s data now
      { s with
        packetNum := 0
        lastAzimuth := lastAzimuth
        isFirstSweep := false
        sweepEndTime := endTime s now (searched s data).1
        lastPacketTime := now
        pointCloud := rest } [cloud]

/-- A packet, case by case. -/
theorem handlePacket_eq (s : State K) (data : PacketData) (now : K) :
    handlePacket P s data now =
      if s.isFirstSweep = true then
        if (searched s data).1 = scansPerPacket then
          some ({ s with
            packetNum := s.packetNum + 1, lastAzimuth := (searched s data).2 }, [])
        else
          (packetLoop P s.settings data (timeInSweep P s now) (searched s data).1 scansPerPacket
            s.pointCloud).map fun cloud =>
            ({ s with
              packetNum := 0
              lastAzimuth := (searched s data).2
              isFirstSweep := false
              lastPacketTime := now
              pointCloud := cloud }, [])
      else if (searched s data).1 = scansPerPacket then
        (packetLoop P s.settings data (timeInSweep P s now) 0 scansPerPacket s.pointCloud).map
          fun cloud =>
            ({ s with
              packetNum := s.packetNum + 1
              lastAzimuth := (searched s data).2
              isFirstSweep := false
              lastPacketTime := now
              pointCloud := cloud }, [])
      else
        (packetLoop P s.settings data (timeInSweep P s now) 0 (searched s data).1
          s.pointCloud).bind fun cloud =>
          (packetLoop P s.settings data (timeBehindStart P s now (searched s data).1)
            (searched s data).1 scansPerPacket []).map fun rest =>
            ({ s with
              packetNum := 0
              lastAzimuth := (adjustFirings s.settings (decodePacket s.settings data)).azimuth
                (scansPerPacket - 1) % 65536
              isFirstSweep := false
              sweepEndTime := endTime s now (searched s data).1
              lastPacketTime := now
              pointCloud := rest }, [cloud]) := by
  unfold handlePacket
  dsimp only
  -- all branches read the two results of the one search
  generalize hx : searchSweep _ (decodePacket s.settings data) = x
  have hsearched : searched s data = x := hx
  rw [hsearched]
  by_cases hfirst : s.isFirstSweep = true
  · by_cases hj : x.1 = scansPerPacket
    · simp only [hfirst, hj, and_self, if_true]
    · simp only [hfirst, hj, and_false, if_false, if_true, ne_eq, not_true_eq_false]
      rw [Option.map_eq_bind]
      rfl
  · by_cases hj : x.1 = scansPerPacket
    · simp only [hfirst, hj, Bool.false_eq_true, false_and, if_false, if_true, ne_eq,
        not_true_eq_false]
      rw [Option.map_eq_bind]
      rfl
    · simp only [hfirst, hj, Bool.false_eq_true, false_and, if_false, ne_eq, not_false_eq_true,
        if_true]
      rfl

theorem handled_of_eq {s s' : State K} {data : PacketData} {now : K}
    {clouds : List (List (VPoint K))} (h : handlePacket P s data now = some (s', clouds)) :
    Handled P s data now s' clouds := by
  have hle := searched_le s data
  rw [handlePacket_eq] at h
  by_cases hfirst : s.isFirstSweep = true
  · rw [if_pos hfirst] at h
    by_cases hj : (searched s data).1 = scansPerPacket
    · rw [if_pos hj] at h
      obtain ⟨rfl, rfl⟩ := Prod.mk.inj (Option.some.inj h)
      exact Handled.waits hfirst hj
    · rw [if_neg hj] at h
      obtain ⟨cloud, hloop, heq⟩ := Option.map_eq_some_iff.mp h
      obtain ⟨rfl, rfl⟩ := Prod.mk.inj heq
      exact Handled.begins hfirst (hle.lt_of_ne hj) hloop
  · rw [if_neg hfirst] at h
    have hfalse := Bool.eq_false_iff.mpr hfirst
    by_cases hj : (searched s data).1 = scansPerPacket
    · rw [if_pos hj] at h
      obtain ⟨cloud, hloop, heq⟩ := Option.map_eq_some_iff.mp h
      obtain ⟨rfl, rfl⟩ := Prod.mk.inj heq
      exact Handled.goesOn hfalse hj hloop
    · rw [if_neg hj] at h
      obtain ⟨cloud, hloop, hmap⟩ := Option.bind_eq_some_iff.mp h
      obtain ⟨rest, hrest, heq⟩ := Option.map_eq_some_iff.mp hmap
      obtain ⟨rfl, rfl⟩ := Prod.mk.inj heq
      exact Handled.turns hfalse (hle.lt_of_ne hj) _ hloop hrest

/-! ### The packets that count -/

/-- The settings after an event, while the lidar is known. -/
def knownAfter (known : Option (Settings K)) : Event K → Option (Settings K)
  | .difop settings => some settings
  | .timeout => none
  | .packet _ _ => known

/-- The packet of an event, if it is handled. -/
def taken (known : Option (Settings K)) : Event K → List (Settings K × PacketData)
  | .packet data _ =>
    if checkPacketValidity data then (known.map fun settings => (settings, data)).toList else []
  | _ => []

/-- The packets that are handled: the valid ones that come while the lidar is known. -/
def accepted : Option (Settings K) → List (Event K) → List (Settings K × PacketData)
  | _, [] => []
  | known, e :: es => taken known e ++ accepted (knownAfter known e) es

/-- The settings, while `start_process_msop_` is set. -/
def State.known (s : State K) : Option (Settings K) :=
  if s.startProcessMsop then some s.settings else none

/-- **What a step does**: it handles the packet that counts, or none. -/
theorem step_cases {s s' : State K} {e : Event K} {clouds : List (List (VPoint K))}
    (h : step P s e = some (s', clouds)) :
    s'.known = knownAfter s.known e ∧
      ((∃ data now, e = .packet data now ∧ taken s.known e = [(s.settings, data)] ∧
          s.startProcessMsop = true ∧ Handled P s data now s' clouds) ∨
        (taken s.known e = [] ∧ clouds = [] ∧
          ∃ settings start, s' = { s with settings := settings, startProcessMsop := start })) := by
  cases e with
  | difop settings =>
    obtain ⟨rfl, rfl⟩ := Prod.mk.inj (Option.some.inj h)
    exact ⟨rfl, Or.inr ⟨rfl, rfl, settings, true, rfl⟩⟩
  | timeout =>
    obtain ⟨rfl, rfl⟩ := Prod.mk.inj (Option.some.inj h)
    exact ⟨rfl, Or.inr ⟨rfl, rfl, s.settings, false, rfl⟩⟩
  | packet data now =>
    unfold step at h
    dsimp only at h
    -- `poll` drops a packet for either reason; `taken` asks the same two questions
    by_cases hok : checkPacketValidity data = true ∧ s.startProcessMsop = true
    · rw [if_pos hok] at h
      have hhandled := handled_of_eq P h
      refine ⟨?_, Or.inl ⟨data, now, rfl, ?_, hok.2, hhandled⟩⟩
      · -- no packet touches the settings
        cases hhandled <;> rfl
      · show (if checkPacketValidity data = true then _ else _) = _
        rw [if_pos hok.1, State.known, if_pos hok.2]
        rfl
    · rw [if_neg hok] at h
      obtain ⟨rfl, rfl⟩ := Prod.mk.inj (Option.some.inj h)
      refine ⟨rfl, Or.inr ⟨?_, rfl, s.settings, s.startProcessMsop, rfl⟩⟩
      show (if checkPacketValidity data = true then _ else _) = _
      split
      · next hvalid =>
        rw [State.known, if_neg fun hstart => hok ⟨hvalid, hstart⟩]
        rfl
      · rfl

theorem runFrom_cons {s s' : State K} {e : Event K} {es : List (Event K)}
    {clouds : List (List (VPoint K))} (h : runFrom P s (e :: es) = some (s', clouds)) :
    ∃ s₁ clouds₁ clouds₂, step P s e = some (s₁, clouds₁) ∧
      runFrom P s₁ es = some (s', clouds₂) ∧ clouds = clouds₁ ++ clouds₂ := by
  obtain ⟨⟨s₁, clouds₁⟩, hstep, hrest⟩ := Option.bind_eq_some_iff.mp h
  obtain ⟨⟨s₂, clouds₂⟩, hrun, heq⟩ := Option.map_eq_some_iff.mp hrest
  obtain ⟨rfl, rfl⟩ := Prod.mk.inj heq
  exact ⟨s₁, clouds₁, clouds₂, hstep, hrun, rfl⟩

/-- The last step of a run. -/
theorem runFrom_concat {s s' : State K} {es : List (Event K)} {e : Event K}
    {clouds : List (List (VPoint K))} (h : runFrom P s (es ++ [e]) = some (s', clouds)) :
    ∃ s₁ clouds₁ clouds₂, runFrom P s es = some (s₁, clouds₁) ∧
      step P s₁ e = some (s', clouds₂) ∧ clouds = clouds₁ ++ clouds₂ := by
  induction es generalizing s clouds with
  | nil =>
    obtain ⟨s₁, clouds₁, clouds₂, hstep, hrun, rfl⟩ := runFrom_cons P h
    obtain ⟨rfl, rfl⟩ := Prod.mk.inj (Option.some.inj hrun)
    exact ⟨s, [], clouds₁, rfl, hstep, List.append_nil clouds₁⟩
  | cons e' es ih =>
    obtain ⟨s₁, clouds₁, clouds₂, hstep, hrun, rfl⟩ := runFrom_cons P h
    obtain ⟨s₂, clouds₃, clouds₄, hfront, hlast, rfl⟩ := ih hrun
    refine ⟨s₂, clouds₁ ++ clouds₃, clouds₄, ?_, hlast, (List.append_assoc _ _ _).symm⟩
    rw [runFrom, hstep, Option.bind_some, hfront]
    rfl

/-- What is accepted behind a run is what the settings in force make of it. -/
theorem accepted_concat {s s' : State K} {es : List (Event K)} {clouds : List (List (VPoint K))}
    (h : runFrom P s es = some (s', clouds)) (e : Event K) :
    accepted s.known (es ++ [e]) = accepted s.known es ++ taken s'.known e := by
  induction es generalizing s clouds with
  | nil =>
    obtain ⟨rfl, -⟩ := Prod.mk.inj (Option.some.inj h)
    exact List.append_nil _
  | cons e' es ih =>
    obtain ⟨s₁, clouds₁, clouds₂, hstep, hrun, -⟩ := runFrom_cons P h
    have hrest := ih hrun
    rw [(step_cases P hstep).1] at hrest
    rw [List.cons_append, accepted, accepted, hrest, List.append_assoc]

/-- The settings in force are those that were in force, or came with a device packet. -/
theorem known_run {s s' : State K} {es : List (Event K)} {clouds : List (List (VPoint K))}
    (h : runFrom P s es = some (s', clouds)) :
    ∀ settings ∈ s'.known, settings ∈ s.known ∨ Event.difop settings ∈ es := by
  induction es generalizing s clouds with
  | nil =>
    obtain ⟨rfl, rfl⟩ := Prod.mk.inj (Option.some.inj h)
    exact fun settings hsettings => Or.inl hsettings
  | cons e es ih =>
    obtain ⟨s₁, clouds₁, clouds₂, hstep, hrun, rfl⟩ := runFrom_cons P h
    intro settings hsettings
    rcases ih hrun settings hsettings with hknown | hlater
    · rw [(step_cases P hstep).1] at hknown
      cases e with
      | difop settings' =>
        obtain rfl := Option.some.inj hknown
        exact Or.inr List.mem_cons_self
      | timeout => exact absurd hknown (Option.not_mem_none settings)
      | packet data now => exact Or.inl hknown
    · exact Or.inr (List.mem_cons_of_mem e hlater)

end Lidar
end WtbAutoware
