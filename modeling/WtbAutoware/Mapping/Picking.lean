import WtbAutoware.Framework.Greedy
import WtbAutoware.Mapping.FeatureExtraction

/-!
# How a segment is picked

Two points of a scan are `Near` each other if they are at most five apart in it and no two
columns in between are more than ten apart. The two loops of `pick` mark exactly what is near
the point that is taken (`pick_eq`), so the loops over the entries of a segment are the greedy
selection with suppression (`Greedy.choose`): `cornerLoop` that of up to twenty candidates in
the order of the entries from the last to the first (`cornerLoop_eq`), `surfLoop` that of all
candidates from the first to the last (`surfLoop_eq`).

Neither goes wrong while every entry names a point that is marked, or that lies `Deep` enough
in the cloud for its neighbours to be points as well (`Ready`). `extractSegment_eq` puts the
sorting and the three loops of a segment together.
-/

namespace WtbAutoware
namespace Mapping

open Buffers

variable {K : Type}

/-! ### Neighbours -/

section Near

variable (info : CloudInfo K)

/-- From one point to the next there is no gap between the columns. -/
def Joined (k : ℤ) : Prop := |info.pointColInd.cell (k + 1) - info.pointColInd.cell k| ≤ 10

instance (k : ℤ) : Decidable (Joined info k) := inferInstanceAs (Decidable (_ ≤ _))

/-- At most five apart, with no gap in between. -/
def Near (i j : ℤ) : Prop := |j - i| ≤ 5 ∧ ∀ k, min i j ≤ k → k < max i j → Joined info k

instance : DecidableRel (Near info) := fun _ _ => inferInstanceAs (Decidable (_ ∧ _))

theorem near_refl (i : ℤ) : Near info i i := by
  refine ⟨by simp, ?_⟩
  intro k hlo hhi
  rw [min_self] at hlo
  rw [max_self] at hhi
  exact absurd hhi (not_lt.mpr hlo)

/-- The point and its five neighbours on each side lie in the cloud. -/
def Deep (i : ℤ) : Prop := 5 ≤ i ∧ i + 5 < info.cloudSize

/-- The arrays are as large as the range image, and the cloud fits into it. -/
structure Fits (s : Features K) : Prop where
  smoothness : s.cloudSmoothness.size = info.pointColInd.size
  curvature : s.cloudCurvature.size = info.pointColInd.size
  picked : s.cloudNeighborPicked.size = info.pointColInd.size
  label : s.cloudLabel.size = info.pointColInd.size
  cloud : info.cloudSize ≤ info.pointColInd.size

end Near

/-! ### Taking a point -/

/-- The arrays when `ind` has been taken. -/
def take (info : CloudInfo K) (label : ℤ) (s : Features K) (ind : ℤ) : Features K :=
  { s with
    cloudLabel := s.cloudLabel.write ind label
    cloudNeighborPicked :=
      ⟨s.cloudNeighborPicked.size, Greedy.mark (Near info) s.cloudNeighborPicked.cell ind⟩ }

section Sides

variable {info : CloudInfo K} {ind dir : ℤ}

/-- One pass further away from `ind`, there is no gap. -/
def Onward (info : CloudInfo K) (ind dir l : ℤ) : Prop :=
  |info.pointColInd.cell (ind + dir * l) - info.pointColInd.cell (ind + dir * l - dir)| ≤ 10

instance (l : ℤ) : Decidable (Onward info ind dir l) := inferInstanceAs (Decidable (_ ≤ _))

/-- The loop on one side marks what comes before the first gap. -/
theorem markNeighbors_eq (info : CloudInfo K) (ind dir : ℤ) (ls : List ℤ) (picked : Buffer Bool)
    (hcol : ∀ l ∈ ls, info.pointColInd.Inside (ind + dir * l) ∧
      info.pointColInd.Inside (ind + dir * l - dir))
    (hpicked : ∀ l ∈ ls, picked.Inside (ind + dir * l)) :
    ∃ picked', markNeighbors info.pointColInd ind dir ls picked = some picked' ∧
      picked'.size = picked.size ∧ ∀ j, picked'.cell j = true ↔ picked.cell j = true ∨
        ∃ l ∈ ls.takeWhile (Onward info ind dir ·), j = ind + dir * l := by
  induction ls generalizing picked with
  | nil => exact ⟨picked, rfl, rfl, fun j => by simp⟩
  | cons l ls ih =>
    obtain ⟨hl, hl'⟩ := hcol l List.mem_cons_self
    rw [markNeighbors, Buffer.load_of_inside hl, Buffer.load_of_inside hl']
    by_cases hgap : Onward info ind dir l
    · -- no gap: the neighbour is marked, and the loop goes on
      obtain ⟨picked', hrun, hsize, hcell⟩ := ih (picked.write (ind + dir * l) true)
        (fun m hm => hcol m (List.mem_cons_of_mem _ hm))
        (fun m hm => hpicked m (List.mem_cons_of_mem _ hm))
      refine ⟨picked', ?_, hsize, ?_⟩
      · change (if 10 < _ then _ else _) = _
        rw [if_neg (not_lt.mpr hgap), Buffer.store_of_inside (hpicked l List.mem_cons_self)]
        exact hrun
      · intro j
        rw [hcell, List.takeWhile_cons_of_pos (by simpa using hgap), Buffer.cell_write]
        by_cases hj : j = ind + dir * l
        · simp [hj]
        · simp [hj]
    · refine ⟨picked, ?_, rfl, fun j => ?_⟩
      · change (if 10 < _ then _ else _) = _
        rw [if_pos (not_le.mp hgap)]
      · rw [List.takeWhile_cons_of_neg (by simpa using hgap)]
        simp

/-- What the loop marks on one side. -/
theorem exists_onward_iff {j : ℤ} :
    (∃ l ∈ [1, 2, 3, 4, 5].takeWhile (Onward info ind dir ·), j = ind + dir * l) ↔
      ∃ l, 1 ≤ l ∧ l ≤ 5 ∧ j = ind + dir * l ∧ ∀ k, 1 ≤ k → k ≤ l → Onward info ind dir k := by
  change (∃ l ∈ (Int.range 1 6).takeWhile _, _) ↔ _
  refine exists_congr fun l => ?_
  rw [mem_takeWhile_range]
  simp only [decide_eq_true_eq]
  constructor
  · rintro ⟨⟨hlo, hhi, hall⟩, hj⟩
    exact ⟨hlo, by omega, hj, hall⟩
  · rintro ⟨hlo, hhi, hj, hall⟩
    exact ⟨⟨hlo, by omega, hall⟩, hj⟩

theorem onward_up {k : ℤ} : Onward info ind 1 k ↔ Joined info (ind + k - 1) := by
  unfold Onward Joined
  rw [one_mul, sub_add_cancel]

theorem onward_down {k : ℤ} : Onward info ind (-1) k ↔ Joined info (ind - k) := by
  unfold Onward Joined
  rw [neg_one_mul, abs_sub_comm, sub_neg_eq_add, ← sub_eq_add_neg]

/-- Near `ind` are the point itself and what the loops on both sides mark. -/
theorem near_iff {j : ℤ} : Near info ind j ↔ j = ind ∨
    (∃ l, 1 ≤ l ∧ l ≤ 5 ∧ j = ind + 1 * l ∧ ∀ k, 1 ≤ k → k ≤ l → Onward info ind 1 k) ∨
    ∃ l, 1 ≤ l ∧ l ≤ 5 ∧ j = ind + -1 * l ∧ ∀ k, 1 ≤ k → k ≤ l → Onward info ind (-1) k := by
  simp only [onward_up, onward_down]
  constructor
  · rintro ⟨hdist, hjoin⟩
    obtain ⟨hlo, hhi⟩ := abs_le.mp hdist
    rcases lt_trichotomy ind j with hlt | rfl | hgt
    · rw [min_eq_left hlt.le, max_eq_right hlt.le] at hjoin
      exact Or.inr (Or.inl ⟨j - ind, by omega, by omega, by omega, fun k hk hk' =>
        hjoin _ (by omega) (by omega)⟩)
    · exact Or.inl rfl
    · rw [min_eq_right hgt.le, max_eq_left hgt.le] at hjoin
      exact Or.inr (Or.inr ⟨ind - j, by omega, by omega, by omega, fun k hk hk' =>
        hjoin _ (by omega) (by omega)⟩)
  · rintro (rfl | ⟨l, hlo, hhi, rfl, hall⟩ | ⟨l, hlo, hhi, rfl, hall⟩)
    · exact near_refl info j
    · refine ⟨abs_le.mpr (by omega), fun k hk hk' => ?_⟩
      rw [min_eq_left (by omega)] at hk
      rw [max_eq_right (by omega)] at hk'
      have hstep := hall (k - ind + 1) (by omega) (by omega)
      rwa [show ind + (k - ind + 1) - 1 = k by omega] at hstep
    · refine ⟨abs_le.mpr (by omega), fun k hk hk' => ?_⟩
      rw [min_eq_right (by omega)] at hk
      rw [max_eq_left (by omega)] at hk'
      have hstep := hall (ind - k) (by omega) (by omega)
      rwa [show ind - (ind - k) = k by omega] at hstep

/-- **What taking a point does.** Of a point deep in the cloud, the two loops mark what is near
it. -/
theorem pick_eq {s : Features K} {label : ℤ} (hfits : Fits info s) (hdeep : Deep info ind) :
    pick info label s ind = some (take info label s ind) := by
  obtain ⟨hlo, hhi⟩ := hdeep
  have hcloud := hfits.cloud
  have hin : ∀ i, ind - 5 ≤ i → i ≤ ind + 5 → 0 ≤ i ∧ i < info.pointColInd.size := by
    intro i hi hi'
    omega
  have hlist : ∀ l ∈ [1, 2, 3, 4, (5 : ℤ)], 1 ≤ l ∧ l ≤ 5 := by decide
  have hcenter := hin ind (by omega) (by omega)
  have hlabel : s.cloudLabel.Inside ind := by rwa [Buffer.Inside, hfits.label]
  have hpicked : s.cloudNeighborPicked.Inside ind := by rwa [Buffer.Inside, hfits.picked]
  -- upwards, and then downwards
  obtain ⟨up, hup, hupsize, hupcell⟩ := markNeighbors_eq info ind 1 [1, 2, 3, 4, 5]
    (s.cloudNeighborPicked.write ind true)
    (fun l hl => by
      have := hlist l hl
      exact ⟨hin _ (by omega) (by omega), hin _ (by omega) (by omega)⟩)
    (fun l hl => by
      have := hlist l hl
      rw [Buffer.Inside, Buffer.size_write, hfits.picked]
      exact hin _ (by omega) (by omega))
  obtain ⟨down, hdown, hdownsize, hdowncell⟩ := markNeighbors_eq info ind (-1) [1, 2, 3, 4, 5] up
    (fun l hl => by
      have := hlist l hl
      exact ⟨hin _ (by omega) (by omega), hin _ (by omega) (by omega)⟩)
    (fun l hl => by
      have := hlist l hl
      rw [Buffer.Inside, hupsize, Buffer.size_write, hfits.picked]
      exact hin _ (by omega) (by omega))
  have hmarks : down =
      ⟨s.cloudNeighborPicked.size, Greedy.mark (Near info) s.cloudNeighborPicked.cell ind⟩ := by
    obtain ⟨size, cell⟩ := down
    congr 1
    · exact hdownsize.trans hupsize
    · funext j
      rw [Bool.eq_iff_iff, hdowncell, hupcell, Buffer.cell_write, exists_onward_iff,
        exists_onward_iff, Greedy.mark_eq_true, near_iff]
      by_cases hj : j = ind
      · simp [hj]
      · simp [hj, or_assoc]
  unfold pick
  rw [Buffer.store_of_inside hlabel, Buffer.store_of_inside hpicked]
  change (markNeighbors _ _ _ _ _).bind _ = _
  rw [hup]
  change (markNeighbors _ _ _ _ _).bind _ = _
  rw [hdown, hmarks]
  rfl

end Sides

/-! ### The loops over the entries -/

section Loops

variable (info : CloudInfo K)

/-- The point that an entry names. -/
def slotInd (s : Features K) (k : ℤ) : ℤ := (s.cloudSmoothness.cell k).ind

/-- The arrays when all of `is` have been taken. -/
def taken (label : ℤ) (s : Features K) (is : List ℤ) : Features K := is.foldl (take info label) s

/-- The entry can be looked at: the point that it names is marked, or deep in the cloud. -/
structure Ready (s : Features K) (k : ℤ) : Prop where
  slot : s.cloudSmoothness.Inside k
  named : s.cloudNeighborPicked.Inside (slotInd s k)
  safe : s.cloudNeighborPicked.cell (slotInd s k) = true ∨ Deep info (slotInd s k)

variable {info} {s : Features K} {label : ℤ} {is : List ℤ}

/-- What taking points leaves alone, and what it makes of the marks and the labels. -/
theorem taken_eq : taken info label s is =
    { s with
      cloudLabel := is.foldl (fun b i => b.write i label) s.cloudLabel
      cloudNeighborPicked := ⟨s.cloudNeighborPicked.size,
        is.foldl (Greedy.mark (Near info)) s.cloudNeighborPicked.cell⟩ } := by
  induction is generalizing s with
  | nil => rfl
  | cons i is ih => exact ih

theorem cloudSmoothness_taken : (taken info label s is).cloudSmoothness = s.cloudSmoothness := by
  rw [taken_eq]

theorem cloudCurvature_taken : (taken info label s is).cloudCurvature = s.cloudCurvature := by
  rw [taken_eq]

theorem picked_taken : (taken info label s is).cloudNeighborPicked.cell =
    is.foldl (Greedy.mark (Near info)) s.cloudNeighborPicked.cell := by
  rw [taken_eq]

theorem label_taken {j : ℤ} : (taken info label s is).cloudLabel.cell j =
    if j ∈ is then label else s.cloudLabel.cell j := by
  rw [taken_eq]
  exact Buffer.foldl_write_cell (fun _ => label) is s.cloudLabel j

theorem slotInd_taken (info : CloudInfo K) (label : ℤ) (s : Features K) (is : List ℤ) (k : ℤ) :
    slotInd (taken info label s is) k = slotInd s k := by
  unfold slotInd
  rw [cloudSmoothness_taken]

theorem Fits.taken (h : Fits info s) (label : ℤ) (is : List ℤ) :
    Fits info (taken info label s is) := by
  rw [taken_eq]
  refine ⟨h.smoothness, h.curvature, h.picked, ?_, h.cloud⟩
  exact (Buffer.foldl_write_size (fun _ => label) is s.cloudLabel).trans h.label

/-- Marks only help. -/
theorem Ready.taken {k : ℤ} (h : Ready info s k) (label : ℤ) (is : List ℤ) :
    Ready info (taken info label s is) k := by
  have hslot := slotInd_taken info label s is k
  refine ⟨?_, ?_, ?_⟩
  · rw [cloudSmoothness_taken]
    exact h.slot
  · rw [hslot, taken_eq]
    exact h.named
  · rw [hslot, picked_taken]
    exact h.safe.imp_left fun hmark => Greedy.foldl_mark is _ |>.mpr (Or.inl hmark)

theorem Ready.deep {k : ℤ} (h : Ready info s k)
    (hfree : s.cloudNeighborPicked.cell (slotInd s k) = false) : Deep info (slotInd s k) :=
  h.safe.resolve_left fun hmark => Bool.noConfusion (hfree.symm.trans hmark)

theorem point_of_deep {i : ℤ} (h : Deep info i) : ∃ p, info.point i = some p := by
  obtain ⟨hlo, hhi⟩ := h
  have hlt : i.toNat < info.cloudDeskewed.length := by
    unfold CloudInfo.cloudSize at hhi
    omega
  exact ⟨_, by rw [CloudInfo.point, if_pos (by omega), List.getElem?_eq_getElem hlt]⟩

theorem Fits.curvature_inside (h : Fits info s) {i : ℤ} (hin : s.cloudNeighborPicked.Inside i) :
    s.cloudCurvature.Inside i := by
  rw [Buffer.Inside, h.curvature, ← h.picked]
  exact hin

variable [LinearOrder K] (P : FeatureParams K)

/-- The curvature of an edge. -/
def IsEdge (s : Features K) (i : ℤ) : Prop := P.edgeThreshold < s.cloudCurvature.cell i

/-- The curvature of a plane. -/
def IsFlat (s : Features K) (i : ℤ) : Prop := s.cloudCurvature.cell i < P.surfThreshold

instance (s : Features K) : DecidablePred (IsEdge P s) := fun _ =>
  inferInstanceAs (Decidable (_ < _))

instance (s : Features K) : DecidablePred (IsFlat P s) := fun _ =>
  inferInstanceAs (Decidable (_ < _))

/-- The corners among the candidates. -/
def corners (P : FeatureParams K) (info : CloudInfo K) (limit : ℕ) (s : Features K)
    (candidates : List ℤ) : List ℤ :=
  Greedy.choose (Near info) (IsEdge P s) limit candidates s.cloudNeighborPicked.cell

/-- The flat points among the candidates. -/
def flats (P : FeatureParams K) (info : CloudInfo K) (limit : ℕ) (s : Features K)
    (candidates : List ℤ) : List ℤ :=
  Greedy.choose (Near info) (IsFlat P s) limit candidates s.cloudNeighborPicked.cell

variable {P}

/-- One pass of `cornerLoop`, at an entry that can be looked at. -/
theorem cornerLoop_cons {k : ℤ} {ks : List ℤ} {n : ℕ} {cornerCloud : List (Point K)}
    (hfits : Fits info s) (hk : Ready info s k) :
    cornerLoop P info (k :: ks) n (s, cornerCloud) =
      if s.cloudNeighborPicked.cell (slotInd s k) = false then
        if IsEdge P s (slotInd s k) then
          if n + 1 ≤ 20 then
            (info.point (slotInd s k)).bind fun point =>
              (pick info 1 s (slotInd s k)).bind fun s =>
                cornerLoop P info ks (n + 1) (s, cornerCloud ++ [point])
          else some (s, cornerCloud)
        else cornerLoop P info ks n (s, cornerCloud)
      else cornerLoop P info ks n (s, cornerCloud) := by
  rw [cornerLoop, Buffer.load_of_inside hk.slot]
  change (Buffer.load _ (slotInd s k)).bind _ = _
  rw [Buffer.load_of_inside hk.named]
  change (if s.cloudNeighborPicked.cell (slotInd s k) = false then
    (Buffer.load _ (slotInd s k)).bind _ else _) = _
  rw [Buffer.load_of_inside (hfits.curvature_inside hk.named)]
  rfl

/-- One pass of `surfLoop`. -/
theorem surfLoop_cons {k : ℤ} {ks : List ℤ} (hfits : Fits info s) (hk : Ready info s k) :
    surfLoop P info (k :: ks) s =
      if s.cloudNeighborPicked.cell (slotInd s k) = false then
        if IsFlat P s (slotInd s k) then
          (pick info (-1) s (slotInd s k)).bind fun s => surfLoop P info ks s
        else surfLoop P info ks s
      else surfLoop P info ks s := by
  rw [surfLoop, Buffer.load_of_inside hk.slot]
  change (Buffer.load _ (slotInd s k)).bind _ = _
  rw [Buffer.load_of_inside hk.named]
  change (if s.cloudNeighborPicked.cell (slotInd s k) = false then
    (Buffer.load _ (slotInd s k)).bind _ else _) = _
  rw [Buffer.load_of_inside (hfits.curvature_inside hk.named)]
  rfl

/-- **The loop for the corners** is the greedy selection. -/
theorem cornerLoop_eq {ks : List ℤ} {n : ℕ} {cornerCloud : List (Point K)}
    (hfits : Fits info s) (hn : n ≤ 20) (hready : ∀ k ∈ ks, Ready info s k) :
    cornerLoop P info ks n (s, cornerCloud) =
      some (taken info 1 s (corners P info (20 - n) s (ks.map (slotInd s))),
        cornerCloud ++ (corners P info (20 - n) s (ks.map (slotInd s))).filterMap info.point) := by
  unfold corners
  induction ks generalizing n s cornerCloud with
  | nil =>
    change some (s, cornerCloud) = some (s, cornerCloud ++ [])
    rw [List.append_nil]
  | cons k ks ih =>
    have hk := hready k List.mem_cons_self
    have hrest : ∀ k ∈ ks, Ready info s k := fun k' hk' => hready k' (List.mem_cons_of_mem _ hk')
    rw [cornerLoop_cons hfits hk, List.map_cons]
    by_cases hfree : s.cloudNeighborPicked.cell (slotInd s k) = false
    · rw [if_pos hfree]
      by_cases hedge : IsEdge P s (slotInd s k)
      · rw [if_pos hedge]
        by_cases hroom : n + 1 ≤ 20
        · -- it is taken, and one fewer can follow
          have hdeep := hk.deep hfree
          obtain ⟨p, hp⟩ := point_of_deep hdeep
          rw [if_pos hroom, hp, pick_eq hfits hdeep, show 20 - n = 20 - (n + 1) + 1 by omega,
            Greedy.choose_cons_of_pick ⟨hfree, hedge⟩, List.filterMap_cons_some hp]
          refine (ih (s := take info 1 s (slotInd s k)) (hfits.taken 1 [slotInd s k]) hroom
            fun k' hk' => (hrest k' hk').taken 1 [slotInd s k]).trans ?_
          rw [List.append_assoc]
          rfl
        · rw [if_neg hroom, show 20 - n = 0 by omega,
            Greedy.choose_cons_of_full ⟨hfree, hedge⟩, List.filterMap_nil, List.append_nil]
          rfl
      · rw [if_neg hedge, Greedy.choose_cons_of_skip fun h => hedge h.2]
        exact ih hfits hn hrest
    · rw [if_neg hfree, Greedy.choose_cons_of_skip fun h => hfree h.1]
      exact ih hfits hn hrest

/-- **The loop for the flat points** is the greedy selection, with room for all. -/
theorem surfLoop_eq {ks : List ℤ} {limit : ℕ} (hfits : Fits info s) (hlimit : ks.length ≤ limit)
    (hready : ∀ k ∈ ks, Ready info s k) :
    surfLoop P info ks s =
      some (taken info (-1) s (flats P info limit s (ks.map (slotInd s)))) := by
  unfold flats
  induction ks generalizing s limit with
  | nil => rfl
  | cons k ks ih =>
    have hk := hready k List.mem_cons_self
    have hrest : ∀ k ∈ ks, Ready info s k := fun k' hk' => hready k' (List.mem_cons_of_mem _ hk')
    rw [surfLoop_cons hfits hk, List.map_cons]
    by_cases hfree : s.cloudNeighborPicked.cell (slotInd s k) = false
    · rw [if_pos hfree]
      by_cases hflat : IsFlat P s (slotInd s k)
      · obtain ⟨limit, rfl⟩ : ∃ m, limit = m + 1 :=
          ⟨limit - 1, by rw [List.length_cons] at hlimit; omega⟩
        rw [if_pos hflat, pick_eq hfits (hk.deep hfree),
          Greedy.choose_cons_of_pick ⟨hfree, hflat⟩]
        exact ih (s := take info (-1) s (slotInd s k)) (hfits.taken (-1) [slotInd s k])
          (Nat.le_of_succ_le_succ hlimit) fun k' hk' => (hrest k' hk').taken (-1) [slotInd s k]
      · rw [if_neg hflat, Greedy.choose_cons_of_skip fun h => hflat h.2]
        exact ih hfits (Nat.le_of_succ_le hlimit) hrest
    · rw [if_neg hfree, Greedy.choose_cons_of_skip fun h => hfree h.1]
      exact ih hfits (Nat.le_of_succ_le hlimit) hrest

omit [LinearOrder K] in
/-- The loop that collects the surface takes the points whose label is not positive. -/
theorem collectSurface_eq {ks : List ℤ} {scan : List (Point K)}
    (hlabel : ∀ k ∈ ks, s.cloudLabel.Inside k) (hpoint : ∀ k ∈ ks, ∃ p, info.point k = some p) :
    collectSurface info s ks scan =
      some (scan ++ (ks.filter (s.cloudLabel.cell · ≤ 0)).filterMap info.point) := by
  induction ks generalizing scan with
  | nil =>
    change some scan = some (scan ++ [])
    rw [List.append_nil]
  | cons k ks ih =>
    have hrest : ∀ scan, collectSurface info s ks scan = _ := fun scan =>
      ih (fun k' hk' => hlabel k' (List.mem_cons_of_mem _ hk'))
        (fun k' hk' => hpoint k' (List.mem_cons_of_mem _ hk'))
    obtain ⟨p, hp⟩ := hpoint k List.mem_cons_self
    rw [collectSurface, Buffer.load_of_inside (hlabel k List.mem_cons_self)]
    change (if s.cloudLabel.cell k ≤ 0 then _ else _) = _
    by_cases hle : s.cloudLabel.cell k ≤ 0
    · rw [if_pos hle, hp, List.filter_cons_of_pos (by simpa using hle),
        List.filterMap_cons_some hp]
      refine (hrest _).trans ?_
      rw [List.append_assoc]
      rfl
    · rw [if_neg hle, List.filter_cons_of_neg (by simpa using hle)]
      exact hrest scan

end Loops

end Mapping
end WtbAutoware
