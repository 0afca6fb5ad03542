import WtbAutoware.Mapping.ImageProjection

/-!
# The rotation at an instant

`findRotation` goes through the integrated IMU readings up to the first that is later than the
instant, and interpolates between it and the one in front of it. In front of the first reading and
behind the last it stays where they are. If the readings lie on a line, so do the interpolated
rotations (`findRotation_line`).

They do if the vehicle turns at a constant rate (`integrateFrom_constant`), and so the rotation
that is found is the true one at every instant that the IMU covers (`findRotation_constant`).
This is in exact arithmetic: the source integrates in doubles, and writes what it finds to floats.
-/

namespace WtbAutoware
namespace Mapping

section Rotation

variable {K : Type} [Field K] [LinearOrder K]

/-- The instants of the readings. -/
def firstInstant (imu : List (ImuRotation K)) : K := (imu.head?.map ImuRotation.time).getD 0

def lastInstant (imu : List (ImuRotation K)) : K := (imu.getLast?.map ImuRotation.time).getD 0

/-- The instant, or the nearest that the readings cover. -/
def covered (imu : List (ImuRotation K)) (t : K) : K :=
  max (firstInstant imu) (min t (lastInstant imu))

/-- Between two points of a line. -/
theorem interpolate_line {a ω : Vec3 K} {front back t : K} (h : back < front) :
    ((t - back) / (front - back)) • (a + front • ω) +
      ((front - t) / (front - back)) • (a + back • ω) = a + t • ω := by
  have hne : front - back ≠ 0 := sub_ne_zero.mpr h.ne'
  funext i
  simp only [Pi.add_apply, Pi.smul_apply, smul_eq_mul]
  field_simp
  ring

/-- **On a line**, `findRotation` is the line between the first reading and the last. -/
theorem findRotation_line {imu : List (ImuRotation K)} {a ω : Vec3 K} (hne : imu ≠ [])
    (horder : imu.Pairwise fun x y => x.time < y.time)
    (hline : ∀ x ∈ imu, x.rot = a + x.time • ω) (t : K) :
    findRotation imu t = a + covered imu t • ω := by
  have hlen : 0 < imu.length := List.length_pos_iff.mpr hne
  have hmono : ∀ (m n : ℕ) (hm : m < imu.length) (hn : n < imu.length), m ≤ n →
      imu[m].time ≤ imu[n].time := by
    intro m n hm hn hle
    rcases eq_or_lt_of_le hle with rfl | hlt
    · exact le_rfl
    · exact (List.pairwise_iff_getElem.mp horder m n hm hn hlt).le
  have hfirst : firstInstant imu = imu[0].time := by
    unfold firstInstant
    rw [List.head?_eq_getElem?, List.getElem?_eq_getElem hlen]
    rfl
  have hlast : lastInstant imu = imu[imu.length - 1].time := by
    unfold lastInstant
    rw [List.getLast?_eq_getElem?, List.getElem?_eq_getElem (by omega)]
    rfl
  obtain ⟨n, hn⟩ : ∃ n, n = (imu.take (imu.length - 1)).findIdx
    fun entry => decide (t < entry.time) := ⟨_, rfl⟩
  have hle : n ≤ imu.length - 1 := by
    have hbound : n ≤ (imu.take (imu.length - 1)).length := hn ▸ List.findIdx_le_length
    rw [List.length_take] at hbound
    omega
  have hnlt : n < imu.length := by omega
  -- the readings in front of the one that is found are not later than the instant
  have hbefore : ∀ (m : ℕ) (hm : m < n), imu[m].time ≤ t := by
    intro m hm
    rw [hn] at hm
    have hnot := List.not_of_lt_findIdx hm
    rw [List.getElem_take, decide_eq_false_iff_not] at hnot
    exact not_lt.mp hnot
  -- and the one that is found is later, unless it is the last
  have hfound : n < imu.length - 1 → t < imu[n].time := by
    intro hlt
    have hin : (imu.take (imu.length - 1)).findIdx (fun entry => decide (t < entry.time)) <
        (imu.take (imu.length - 1)).length := by
      rw [← hn, List.length_take]
      omega
    have hyes := List.findIdx_getElem (w := hin)
    rw [List.getElem_take, decide_eq_true_eq] at hyes
    simpa only [← hn] using hyes
  have hends : imu[0].time ≤ imu[imu.length - 1].time := hmono 0 _ hlen (by omega) (by omega)
  unfold findRotation covered
  dsimp only
  rw [← hn, List.getD_eq_getElem _ _ hnlt, hfirst, hlast]
  by_cases hzero : n = 0
  · -- in front of the first reading, or there is only one
    subst hzero
    rw [if_pos (Or.inr rfl), hline _ (List.getElem_mem hnlt)]
    congr 2
    refine (max_eq_left ?_).symm
    by_cases hone : 0 < imu.length - 1
    · exact (min_le_left _ _).trans (hfound hone).le
    · have hsame : imu[imu.length - 1] = imu[0] := by
        congr 1
        omega
      rw [hsame]
      exact min_le_right _ _
  · by_cases hafter : imu[n].time < t
    · -- behind the last reading
      have hend : n = imu.length - 1 := by
        by_contra hne'
        exact absurd (hfound (by omega)) (not_lt.mpr hafter.le)
      subst hend
      rw [if_pos (Or.inl hafter), hline _ (List.getElem_mem hnlt), min_eq_right hafter.le,
        max_eq_right hends]
    · -- between two readings
      have hback : imu[n - 1].time ≤ t := hbefore (n - 1) (by omega)
      have hstep : imu[n - 1].time < imu[n].time :=
        List.pairwise_iff_getElem.mp horder (n - 1) n (by omega) hnlt (by omega)
      rw [if_neg (by rintro (h | h); exacts [hafter h, hzero h]),
        List.getD_eq_getElem _ _ (show n - 1 < imu.length by omega),
        hline _ (List.getElem_mem hnlt), hline _ (List.getElem_mem _), interpolate_line hstep,
        min_eq_left ((not_lt.mp hafter).trans (hmono n _ hnlt (by omega) hle)),
        max_eq_right ((hmono 0 (n - 1) hlen (by omega) (by omega)).trans hback)]

/-! ### A constant rate -/

omit [LinearOrder K] in
/-- What a vehicle that turns at a constant rate makes of the readings. -/
theorem integrateFrom_constant {ω : Vec3 K} {t₀ : K} {last : ImuRotation K} (ms : List (Imu K))
    (hlast : last.rot = (last.time - t₀) • ω) (hrate : ∀ m ∈ ms, m.angularVelocity = ω) :
    ∀ x ∈ integrateFrom last ms, x.rot = (x.time - t₀) • ω := by
  induction ms generalizing last with
  | nil => exact fun x hx => absurd hx List.not_mem_nil
  | cons m ms ih =>
    intro x hx
    -- the reading adds the rate times the time since the last
    have hentry : ∀ entry : ImuRotation K,
        entry = ⟨m.stamp, last.rot + (m.stamp - last.time) • m.angularVelocity⟩ →
          entry.rot = (entry.time - t₀) • ω := by
      rintro _ rfl
      dsimp only
      rw [hlast, hrate m List.mem_cons_self, ← add_smul]
      congr 1
      ring
    rcases List.mem_cons.mp hx with rfl | hrest
    · exact hentry _ rfl
    · exact ih (hentry _ rfl) (fun m' hm' => hrate m' (List.mem_cons_of_mem _ hm')) x hrest

omit [LinearOrder K] in
theorem time_integrateFrom (last : ImuRotation K) (ms : List (Imu K)) :
    (integrateFrom last ms).map ImuRotation.time = ms.map Imu.stamp := by
  induction ms generalizing last with
  | nil => rfl
  | cons m ms ih => exact congrArg (m.stamp :: ·) (ih _)

omit [LinearOrder K] in
theorem time_imuRotations (ms : List (Imu K)) :
    (imuRotations ms).map ImuRotation.time = ms.map Imu.stamp := by
  cases ms with
  | nil => rfl
  | cons m ms => exact congrArg (m.stamp :: ·) (time_integrateFrom _ ms)

/-- **A constant rate.** At every instant that the readings cover, the rotation that is found is
the rate times the time since the first of them. -/
theorem findRotation_constant {ms : List (Imu K)} (ω : Vec3 K) (hne : ms ≠ [])
    (horder : ms.Pairwise fun m m' => m.stamp < m'.stamp)
    (hrate : ∀ m ∈ ms, m.angularVelocity = ω) (t : K) :
    findRotation (imuRotations ms) t =
      (covered (imuRotations ms) t - firstInstant (imuRotations ms)) • ω := by
  obtain ⟨m, rest, rfl⟩ := List.exists_cons_of_ne_nil hne
  have hfirst : firstInstant (imuRotations (m :: rest)) = m.stamp := rfl
  have horder' : (imuRotations (m :: rest)).Pairwise fun x y => x.time < y.time := by
    have hmap := List.pairwise_map.mpr horder
    rw [← time_imuRotations] at hmap
    exact List.pairwise_map.mp hmap
  have hline : ∀ x ∈ imuRotations (m :: rest), x.rot = (-m.stamp) • ω + x.time • ω := by
    intro x hx
    rw [← add_smul, neg_add_eq_sub]
    rcases List.mem_cons.mp hx with rfl | hx
    · simp
    · exact integrateFrom_constant rest (by simp)
        (fun m' hm' => hrate m' (List.mem_cons_of_mem _ hm')) x hx
  have hcons : imuRotations (m :: rest) ≠ [] := List.cons_ne_nil _ _
  rw [findRotation_line hcons horder' hline, hfirst, ← add_smul, neg_add_eq_sub]

/-- It applies to two readings, half way between them. -/
theorem findRotation_constant_sample :
    findRotation (imuRotations [(⟨1, fun _ => 4⟩ : Imu ℚ), ⟨2, fun _ => 4⟩]) (3 / 2) =
      (2 : ℚ) • (1 : Vec3 ℚ) := by
  rw [findRotation_constant (fun _ => 4) (List.cons_ne_nil _ _) (by simp) (by simp)]
  funext i
  have hlast : covered (imuRotations [(⟨1, fun _ => 4⟩ : Imu ℚ), ⟨2, fun _ => 4⟩]) (3 / 2) =
      3 / 2 := by
    change max 1 (min (3 / 2) 2) = (3 / 2 : ℚ)
    norm_num
  rw [hlast]
  change (3 / 2 - 1) * 4 = (2 : ℚ) * 1
  norm_num

end Rotation

end Mapping
end WtbAutoware
