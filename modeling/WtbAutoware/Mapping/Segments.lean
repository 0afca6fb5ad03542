import WtbAutoware.Mapping.Picking

/-!
# The segments of a scan, one after the other

The entries of a segment are sorted, all but the last, and then looked at twice. What a segment
leaves behind is said in terms of the entries as they were *before* any sorting (`Sorted`): an
entry that is looked at is one of the segment's own, and an entry with a greater value is looked
at earlier by `cornerLoop`, unless it is the last.

`Tracked` is the invariant along the segments. Its first parts say what the arrays hold, given
what has been taken so far, and the rest what is true of each segment that is done. One segment
keeps it (`Tracked.segment`), so all of them do (`Tracked.run`), as long as no segment but the
first has an entry that names another point than its own.
-/

namespace WtbAutoware
namespace Mapping

open Buffers

/-! ### Sorting -/

section Sorting

variable {K : Type} [LinearOrder K]

/-- What sorting the entries from `sp` to in front of `ep` makes of them. -/
structure Sorted (sp ep : ℤ) (before after : Buffer (Smoothness K)) : Prop where
  size : after.size = before.size
  frame : ∀ k, ¬ (sp ≤ k ∧ k < ep) → after.cell k = before.cell k
  /-- An entry inside was inside before. -/
  source : ∀ k, sp ≤ k → k < ep → ∃ k', sp ≤ k' ∧ k' < ep ∧ after.cell k = before.cell k'
  /-- And an entry that was inside still is. -/
  target : ∀ k', sp ≤ k' → k' < ep → ∃ k, sp ≤ k ∧ k < ep ∧ after.cell k = before.cell k'
  ordered : ∀ k k', sp ≤ k → k < k' → k' < ep → (after.cell k).value ≤ (after.cell k').value

variable (sort : StdSort (Smoothness K) ByValue) {sp ep : ℤ} {b : Buffer (Smoothness K)}

/-- The entries after the sorting are the sorted entries. -/
theorem map_sortSlots (b : Buffer (Smoothness K)) (sp ep : ℤ) :
    (Int.range sp ep).map (fun k => if sp ≤ k ∧ k < ep then
      ((sort.run ((Int.range sp ep).map b.cell))[(k - sp).toNat]?).getD (b.cell k)
      else b.cell k) = sort.run ((Int.range sp ep).map b.cell) := by
  have hlen := (sort.perm ((Int.range sp ep).map b.cell)).length_eq
  rw [List.length_map, length_range] at hlen
  refine List.ext_getElem? fun n => ?_
  rw [List.getElem?_map]
  by_cases hn : n < (ep - sp).toNat
  · have hget := getElem?_range (show sp ≤ sp + n by omega) (show sp + n < ep by omega)
    rw [show (sp + (n : ℤ) - sp).toNat = n by omega] at hget
    rw [hget, Option.map_some, if_pos (by omega), show (sp + (n : ℤ) - sp).toNat = n by omega,
      List.getElem?_eq_getElem (by omega), Option.getD_some]
  · rw [List.getElem?_eq_none (by rw [length_range]; omega),
      List.getElem?_eq_none (by omega), Option.map_none]

theorem sortSlots_eq (hlo : 0 ≤ sp) (hhi : ep ≤ b.size) :
    ∃ b', sortSlots sort sp ep b = some b' ∧ Sorted sp ep b b' := by
  have hmap := map_sortSlots sort b sp ep
  have hperm := sort.perm ((Int.range sp ep).map b.cell)
  have hsort := sort.sorted ((Int.range sp ep).map b.cell)
  rw [sortSlots, if_pos ⟨hlo, hhi⟩]
  refine ⟨_, rfl, rfl, fun k hk => if_neg hk, fun k hk hk' => ?_, fun k' hk hk' => ?_,
    fun k k' hk hlt hk' => ?_⟩
  · -- what is found at an index is one of the entries
    have hmem := List.mem_map_of_mem (f := fun k => if sp ≤ k ∧ k < ep then
      ((sort.run ((Int.range sp ep).map b.cell))[(k - sp).toNat]?).getD (b.cell k)
      else b.cell k) (Int.mem_range_iff.mpr ⟨hk, hk'⟩)
    rw [hmap, hperm.mem_iff, List.mem_map] at hmem
    obtain ⟨k', hin, heq⟩ := hmem
    obtain ⟨hlo', hhi'⟩ := Int.mem_range_iff.mp hin
    exact ⟨k', hlo', hhi', heq.symm⟩
  · -- and each of the entries is found at some index
    have hmem := List.mem_map_of_mem (f := b.cell) (Int.mem_range_iff.mpr ⟨hk, hk'⟩)
    rw [← hperm.mem_iff, ← hmap, List.mem_map] at hmem
    obtain ⟨k, hin, heq⟩ := hmem
    obtain ⟨hlo', hhi'⟩ := Int.mem_range_iff.mp hin
    exact ⟨k, hlo', hhi', heq⟩
  · rw [← hmap, List.pairwise_map] at hsort
    exact not_lt.mp (rel_of_pairwise_range hsort hk hlt hk')

namespace Sorted

variable {before after : Buffer (Smoothness K)}

/-- The last entry of the segment is looked at where it is; the others come from in front. -/
theorem source' (h : Sorted sp ep before after) {k : ℤ} (hk : sp ≤ k) (hk' : k ≤ ep) :
    ∃ k', sp ≤ k' ∧ k' ≤ ep ∧ after.cell k = before.cell k' ∧ (k = ep → k' = ep) := by
  rcases eq_or_lt_of_le hk' with rfl | hlt
  · exact ⟨k, hk, le_refl k, h.frame k fun hin => lt_irrefl k hin.2, fun _ => rfl⟩
  · obtain ⟨k', hlo, hhi, heq⟩ := h.source k hk hlt
    exact ⟨k', hlo, hhi.le, heq, fun hlast => absurd hlast hlt.ne⟩

theorem target' (h : Sorted sp ep before after) {k' : ℤ} (hk : sp ≤ k') (hk' : k' ≤ ep) :
    ∃ k, sp ≤ k ∧ k ≤ ep ∧ after.cell k = before.cell k' ∧ (k = ep → k' = ep) := by
  rcases eq_or_lt_of_le hk' with rfl | hlt
  · exact ⟨k', hk, le_refl k', h.frame k' fun hin => lt_irrefl k' hin.2, fun _ => rfl⟩
  · obtain ⟨k, hlo, hhi, heq⟩ := h.target k' hk hlt
    exact ⟨k, hlo, hhi.le, heq, fun hlast => absurd hlast hhi.ne⟩

end Sorted

end Sorting

/-! ### A segment -/

/-- A segment that is done: where it lies, what was taken from it, and what of it is surface. -/
structure Segment where
  sp : ℤ
  ep : ℤ
  corners : List ℤ
  flats : List ℤ
  surface : List ℤ

namespace Segment

variable (g : Segment)

/-- The segment has this entry, and this point. -/
def Covers (k : ℤ) : Prop := g.sp ≤ k ∧ k ≤ g.ep

/-- All that was taken. -/
def picks : List ℤ := g.corners ++ g.flats

/-- The label of a point when the segment is done. -/
def label (before : ℤ) (i : ℤ) : ℤ :=
  if i ∈ g.flats then -1 else if i ∈ g.corners then 1 else before

end Segment

section Segments

variable {K : Type} (info : CloudInfo K)

/-- The arrays when a segment is done. -/
def finish (s : Features K) (g : Segment) : Features K :=
  taken info (-1) (taken info 1 s g.corners) g.flats

variable {info} {s : Features K} {sp ep : ℤ}

theorem label_finish {g : Segment} {i : ℤ} :
    (finish info s g).cloudLabel.cell i = g.label (s.cloudLabel.cell i) i := by
  unfold finish Segment.label
  rw [label_taken, label_taken]

theorem picked_finish {g : Segment} {j : ℤ} :
    (finish info s g).cloudNeighborPicked.cell j = true ↔
      s.cloudNeighborPicked.cell j = true ∨ ∃ i ∈ g.picks, Near info i j := by
  unfold finish Segment.picks
  rw [picked_taken, Greedy.foldl_mark, picked_taken, Greedy.foldl_mark, or_assoc]
  simp only [List.mem_append, or_and_right, exists_or]

theorem Fits.finish (h : Fits info s) (g : Segment) : Fits info (finish info s g) :=
  (h.taken 1 g.corners).taken (-1) g.flats

variable [LinearOrder K]

/-- What is taken from a segment whose entries have been sorted. -/
def pickSegment (P : FeatureParams K) (info : CloudInfo K) (s : Features K) (sp ep : ℤ) :
    Segment :=
  let entries := Int.range sp (ep + 1)
  let corners := corners P info 20 s (entries.reverse.map (slotInd s))
  let s := taken info 1 s corners
  let flats := flats P info entries.length s (entries.map (slotInd s))
  let s := taken info (-1) s flats
  ⟨sp, ep, corners, flats, entries.filter (s.cloudLabel.cell · ≤ 0)⟩

variable {P : FeatureParams K}

/-- **A segment**, after the sorting. -/
theorem extractSegment_eq [Field K] {x : Extraction K} {b : Buffer (Smoothness K)}
    (hsort : sortSlots P.sort sp ep x.arrays.cloudSmoothness = some b)
    (hs : s = ⟨b, x.arrays.cloudCurvature, x.arrays.cloudNeighborPicked, x.arrays.cloudLabel⟩)
    (hfits : Fits info s) (hready : ∀ k, sp ≤ k → k ≤ ep → Ready info s k)
    (hpoint : ∀ k, sp ≤ k → k ≤ ep → ∃ p, info.point k = some p) :
    extractSegment P info sp ep x =
      some ⟨finish info s (pickSegment P info s sp ep),
        x.cornerCloud ++ (pickSegment P info s sp ep).corners.filterMap info.point,
        x.surfaceCloudScan ++ (pickSegment P info s sp ep).surface.filterMap info.point⟩ := by
  have hall : ∀ k ∈ Int.range sp (ep + 1), sp ≤ k ∧ k ≤ ep := by
    intro k hk
    obtain ⟨hlo, hhi⟩ := Int.mem_range_iff.mp hk
    exact ⟨hlo, Int.lt_add_one_iff.mp hhi⟩
  have hready' : ∀ k ∈ Int.range sp (ep + 1), Ready info s k := fun k hk =>
    hready k (hall k hk).1 (hall k hk).2
  have hcorner : cornerLoop P info (Int.range sp (ep + 1)).reverse 0 (s, x.cornerCloud) = _ :=
    cornerLoop_eq hfits (Nat.zero_le _) fun k hk => hready' k (List.mem_reverse.mp hk)
  -- the flat points, among the marks that the corners have left
  have hsurf := surfLoop_eq (P := P) (hfits.taken 1 (pickSegment P info s sp ep).corners)
    (le_refl (Int.range sp (ep + 1)).length) fun k hk => (hready' k hk).taken 1 _
  have hlabel : ∀ k ∈ Int.range sp (ep + 1),
      (finish info s (pickSegment P info s sp ep)).cloudLabel.Inside k := by
    intro k hk
    rw [Buffer.Inside, (hfits.finish _).label, ← hfits.smoothness]
    exact (hready' k hk).slot
  have hcollect : collectSurface info (finish info s (pickSegment P info s sp ep))
      (Int.range sp (ep + 1)) x.surfaceCloudScan = _ :=
    collectSurface_eq hlabel fun k hk => hpoint k (hall k hk).1 (hall k hk).2
  unfold extractSegment
  rw [hsort]
  change (cornerLoop _ _ _ _ (⟨b, _, _, _⟩, _)).bind _ = _
  rw [← hs, hcorner]
  change (surfLoop _ _ _ (taken info 1 s (pickSegment P info s sp ep).corners)).bind _ = _
  rw [hsurf]
  change (collectSurface _ (finish info s (pickSegment P info s sp ep)) _ _).bind _ = _
  rw [hcollect]
  rfl

/-! ### The account of what has been taken -/

section Account

variable (info) (s₀ : Features K) (log : List Segment)

/-- Marked at the start, or near a point that has been taken. -/
def Marked (j : ℤ) : Prop :=
  s₀.cloudNeighborPicked.cell j = true ∨ ∃ g ∈ log, ∃ i ∈ g.picks, Near info i j

/-- The label of a point when the segments are done. -/
def labelAfter (i : ℤ) : ℤ := log.foldl (fun before g => g.label before i) (s₀.cloudLabel.cell i)

/-- By what an entry is sorted. -/
def slotValue (k : ℤ) : K := (s₀.cloudSmoothness.cell k).value

/-- What the arrays hold, by the account. -/
structure Accounted (s : Features K) : Prop where
  fits : Fits info s
  curvature : s.cloudCurvature = s₀.cloudCurvature
  marks : ∀ j, s.cloudNeighborPicked.cell j = true ↔ Marked info s₀ log j
  labels : ∀ i, s.cloudLabel.cell i = labelAfter s₀ log i

/-- The arrays when the entries of a segment have been sorted. -/
structure Entered (sp ep : ℤ) (s : Features K) : Prop extends Accounted info s₀ log s where
  source : ∀ k, sp ≤ k → k ≤ ep → ∃ k', sp ≤ k' ∧ k' ≤ ep ∧
    s.cloudSmoothness.cell k = s₀.cloudSmoothness.cell k' ∧ (k = ep → k' = ep)
  target : ∀ k', sp ≤ k' → k' ≤ ep → ∃ k, sp ≤ k ∧ k ≤ ep ∧
    s.cloudSmoothness.cell k = s₀.cloudSmoothness.cell k' ∧ (k = ep → k' = ep)
  ordered : ∀ k k', sp ≤ k → k < k' → k' < ep → slotValue s k ≤ slotValue s k'

/-- What is true of a segment that is done, behind those in the log. -/
structure Selected (P : FeatureParams K) (info : CloudInfo K) (s₀ : Features K)
    (log : List Segment) (g : Segment) : Prop where
  length : g.corners.length ≤ 20
  corner : ∀ i ∈ g.corners, ¬ Marked info s₀ log i ∧ IsEdge P s₀ i
  flat : ∀ i ∈ g.flats, ¬ Marked info s₀ log i ∧ IsFlat P s₀ i
  apart : g.picks.Pairwise fun i j => ¬ Near info i j
  named : ∀ i ∈ g.picks, ∃ k, g.Covers k ∧ slotInd s₀ k = i
  /-- An edge is passed over if it is marked, if a corner near it is as sharp, or if there are
  twenty that are. The last entry comes first. -/
  edge : ∀ k, g.Covers k → IsEdge P s₀ (slotInd s₀ k) → Marked info s₀ log (slotInd s₀ k) ∨
    (∃ k', g.Covers k' ∧ (k' = g.ep ∨ slotValue s₀ k ≤ slotValue s₀ k') ∧
      slotInd s₀ k' ∈ g.corners ∧ Near info (slotInd s₀ k') (slotInd s₀ k)) ∨
    (g.corners.length = 20 ∧ ∀ i ∈ g.corners, ∃ k', g.Covers k' ∧
      (k' = g.ep ∨ slotValue s₀ k ≤ slotValue s₀ k') ∧ slotInd s₀ k' = i)
  /-- A plane is passed over if it is marked, if a corner is near, or if a flat point near it is
  as flat. The last entry comes last. -/
  plane : ∀ k, g.Covers k → IsFlat P s₀ (slotInd s₀ k) → Marked info s₀ log (slotInd s₀ k) ∨
    (∃ i ∈ g.corners, Near info i (slotInd s₀ k)) ∨
    ∃ k', g.Covers k' ∧ (k = g.ep ∨ slotValue s₀ k' ≤ slotValue s₀ k) ∧
      slotInd s₀ k' ∈ g.flats ∧ Near info (slotInd s₀ k') (slotInd s₀ k)
  surface : g.surface =
    (Int.range g.sp (g.ep + 1)).filter fun k => labelAfter s₀ (log ++ [g]) k ≤ 0

end Account

variable {s₀ : Features K} {log : List Segment} {g : Segment} {i j : ℤ}

omit [LinearOrder K] in
theorem marked_snoc : Marked info s₀ (log ++ [g]) j ↔
    Marked info s₀ log j ∨ ∃ i ∈ g.picks, Near info i j := by
  unfold Marked
  simp only [List.mem_append, List.mem_singleton, or_and_right, exists_or, exists_eq_left,
    or_assoc]

omit [LinearOrder K] in
theorem labelAfter_snoc : labelAfter s₀ (log ++ [g]) i = g.label (labelAfter s₀ log i) i := by
  unfold labelAfter
  rw [List.foldl_append]
  rfl

omit [LinearOrder K] in
theorem Accounted.finish (h : Accounted info s₀ log s) (g : Segment) :
    Accounted info s₀ (log ++ [g]) (finish info s g) where
  fits := h.fits.finish g
  curvature := by
    unfold Mapping.finish
    rw [cloudCurvature_taken, cloudCurvature_taken]
    exact h.curvature
  marks j := by rw [picked_finish, marked_snoc, h.marks]
  labels i := by rw [label_finish, labelAfter_snoc, h.labels]

theorem isEdge_congr (h : s.cloudCurvature = s₀.cloudCurvature) :
    IsEdge P s i ↔ IsEdge P s₀ i := by
  unfold IsEdge
  rw [h]

theorem isFlat_congr (h : s.cloudCurvature = s₀.cloudCurvature) :
    IsFlat P s i ↔ IsFlat P s₀ i := by
  unfold IsFlat
  rw [h]

namespace Entered

variable {k : ℤ}

/-- What is looked at no later than an entry by `cornerLoop` has a value no smaller, or is the
last entry. -/
theorem ranked_down (h : Entered info s₀ log sp ep s) {p q : ℤ} (hp : sp ≤ p) (hpq : p ≤ q)
    (hq : q ≤ ep) (heq : s.cloudSmoothness.cell p = s₀.cloudSmoothness.cell k) :
    ∃ k', sp ≤ k' ∧ k' ≤ ep ∧ (k' = ep ∨ slotValue s₀ k ≤ slotValue s₀ k') ∧
      slotInd s₀ k' = slotInd s q := by
  obtain ⟨k', hlo, hhi, heq', hlast⟩ := h.source q (hp.trans hpq) hq
  refine ⟨k', hlo, hhi, ?_, (congrArg Smoothness.ind heq').symm⟩
  rcases eq_or_lt_of_le hq with hend | hin
  · exact Or.inl (hlast hend)
  · have hle : slotValue s p ≤ slotValue s q := by
      rcases eq_or_lt_of_le hpq with rfl | hlt
      · exact le_refl _
      · exact h.ordered p q hp hlt hin
    unfold slotValue at hle ⊢
    rw [heq, heq'] at hle
    exact Or.inr hle

/-- And by `surfLoop`, a value no greater. -/
theorem ranked_up (h : Entered info s₀ log sp ep s) {p q : ℤ} (hq : sp ≤ q) (hqp : q ≤ p)
    (hp : p ≤ ep) (heq : s.cloudSmoothness.cell p = s₀.cloudSmoothness.cell k)
    (hlast : p = ep → k = ep) :
    ∃ k', sp ≤ k' ∧ k' ≤ ep ∧ (k = ep ∨ slotValue s₀ k' ≤ slotValue s₀ k) ∧
      slotInd s₀ k' = slotInd s q := by
  obtain ⟨k', hlo, hhi, heq', -⟩ := h.source q hq (hqp.trans hp)
  refine ⟨k', hlo, hhi, ?_, (congrArg Smoothness.ind heq').symm⟩
  rcases eq_or_lt_of_le hp with hend | hin
  · exact Or.inl (hlast hend)
  · have hle : slotValue s q ≤ slotValue s p := by
      rcases eq_or_lt_of_le hqp with rfl | hlt
      · exact le_refl _
      · exact h.ordered q p hq hlt hin
    unfold slotValue at hle ⊢
    rw [heq, heq'] at hle
    exact Or.inr hle

theorem edge (h : Entered info s₀ log sp ep s) (hk : sp ≤ k) (hk' : k ≤ ep)
    (hedge : IsEdge P s₀ (slotInd s₀ k)) : Marked info s₀ log (slotInd s₀ k) ∨
      (∃ k', (pickSegment P info s sp ep).Covers k' ∧
        (k' = ep ∨ slotValue s₀ k ≤ slotValue s₀ k') ∧
        slotInd s₀ k' ∈ (pickSegment P info s sp ep).corners ∧
        Near info (slotInd s₀ k') (slotInd s₀ k)) ∨
      ((pickSegment P info s sp ep).corners.length = 20 ∧
        ∀ i ∈ (pickSegment P info s sp ep).corners, ∃ k',
          (pickSegment P info s sp ep).Covers k' ∧
          (k' = ep ∨ slotValue s₀ k ≤ slotValue s₀ k') ∧ slotInd s₀ k' = i) := by
  obtain ⟨p, hlo, hhi, heq, -⟩ := h.target k hk hk'
  have hind : slotInd s p = slotInd s₀ k := congrArg Smoothness.ind heq
  -- the candidates, up to this one and behind it
  have hsplit : (Int.range sp (ep + 1)).reverse.map (slotInd s) =
      ((Int.range (p + 1) (ep + 1)).reverse.map (slotInd s) ++ [slotInd s₀ k]) ++
        (Int.range sp p).reverse.map (slotInd s) := by
    rw [range_append sp p (ep + 1) hlo (by omega), range_cons p (ep + 1) (by omega), ← hind]
    simp
  have hbefore : ∀ i ∈ (Int.range (p + 1) (ep + 1)).reverse.map (slotInd s) ++ [slotInd s₀ k],
      ∃ k', (sp ≤ k' ∧ k' ≤ ep) ∧ (k' = ep ∨ slotValue s₀ k ≤ slotValue s₀ k') ∧
        slotInd s₀ k' = i := by
    intro i hi
    rcases List.mem_append.mp hi with hlater | hown
    · obtain ⟨q, hq, rfl⟩ := List.mem_map.mp hlater
      obtain ⟨hqlo, hqhi⟩ := Int.mem_range_iff.mp (List.mem_reverse.mp hq)
      obtain ⟨k', hk₁, hk₂, hrank, hname⟩ :=
        h.ranked_down hlo (show p ≤ q by omega) (by omega) heq
      exact ⟨k', ⟨hk₁, hk₂⟩, hrank, hname⟩
    · exact ⟨k, ⟨hk, hk'⟩, Or.inr (le_refl _), (List.mem_singleton.mp hown).symm⟩
  have hprefix := Greedy.choose_prefix_append (Near info) (IsEdge P s) 20
    ((Int.range (p + 1) (ep + 1)).reverse.map (slotInd s) ++ [slotInd s₀ k])
    ((Int.range sp p).reverse.map (slotInd s)) s.cloudNeighborPicked.cell
  have hprefix' := Greedy.choose_prefix_append (Near info) (IsEdge P s) 20
    ((Int.range (p + 1) (ep + 1)).reverse.map (slotInd s)) [slotInd s₀ k]
    s.cloudNeighborPicked.cell
  rw [← hsplit] at hprefix
  rcases Greedy.near_or_full 20 ((Int.range (p + 1) (ep + 1)).reverse.map (slotInd s))
    s.cloudNeighborPicked.cell (near_refl info)
    ((isEdge_congr h.curvature).mpr hedge) with hmark | ⟨i, hi, hnear⟩ | hfull
  · exact Or.inl ((h.marks _).mp hmark)
  · obtain ⟨k', hin, hrank, rfl⟩ := hbefore i (Greedy.choose_sublist.subset hi)
    exact Or.inr (Or.inl ⟨k', hin, hrank, hprefix.subset hi, hnear⟩)
  · -- twenty before it are all there are
    have hall := (hprefix'.trans hprefix).eq_of_length_le (by
      rw [hfull]
      exact Greedy.length_choose_le)
    refine Or.inr (Or.inr ⟨?_, fun i hi => ?_⟩)
    · exact (congrArg List.length hall).symm.trans hfull
    · change i ∈ Greedy.choose _ _ _ _ _ at hi
      rw [← hall] at hi
      exact hbefore i (List.mem_append_left _ (Greedy.choose_sublist.subset hi))

theorem plane (h : Entered info s₀ log sp ep s) (hk : sp ≤ k) (hk' : k ≤ ep)
    (hflat : IsFlat P s₀ (slotInd s₀ k)) : Marked info s₀ log (slotInd s₀ k) ∨
      (∃ i ∈ (pickSegment P info s sp ep).corners, Near info i (slotInd s₀ k)) ∨
      ∃ k', (pickSegment P info s sp ep).Covers k' ∧
        (k = ep ∨ slotValue s₀ k' ≤ slotValue s₀ k) ∧
        slotInd s₀ k' ∈ (pickSegment P info s sp ep).flats ∧
        Near info (slotInd s₀ k') (slotInd s₀ k) := by
  obtain ⟨p, hlo, hhi, heq, hlast⟩ := h.target k hk hk'
  have hind : slotInd s p = slotInd s₀ k := congrArg Smoothness.ind heq
  -- the loop for flat points starts behind the corners, and sees their marks
  obtain ⟨s₁, hs₁⟩ : ∃ s₁, s₁ = taken info 1 s (pickSegment P info s sp ep).corners := ⟨_, rfl⟩
  have hname : slotInd s₁ = slotInd s := by
    subst hs₁
    exact funext (slotInd_taken info 1 s _)
  have hsplit : (Int.range sp (ep + 1)).map (slotInd s₁) =
      ((Int.range sp p).map (slotInd s) ++ [slotInd s₀ k]) ++
        (Int.range (p + 1) (ep + 1)).map (slotInd s) := by
    rw [hname, range_append sp p (ep + 1) hlo (by omega), range_cons p (ep + 1) (by omega),
      ← hind]
    simp
  -- what is chosen up to `k` stays chosen
  have hprefix := Greedy.choose_prefix_append (Near info) (IsFlat P s₁)
    (Int.range sp (ep + 1)).length ((Int.range sp p).map (slotInd s) ++ [slotInd s₀ k])
    ((Int.range (p + 1) (ep + 1)).map (slotInd s)) s₁.cloudNeighborPicked.cell
  rw [← hsplit] at hprefix
  have hcurvature : s₁.cloudCurvature = s₀.cloudCurvature := by
    rw [hs₁, cloudCurvature_taken, h.curvature]
  rcases Greedy.near_or_full (Int.range sp (ep + 1)).length ((Int.range sp p).map (slotInd s))
    s₁.cloudNeighborPicked.cell (near_refl info)
    ((isFlat_congr hcurvature).mpr hflat) with hmark | ⟨i, hi, hnear⟩ | hfull
  · -- marked before the segment, or by one of its corners
    rw [hs₁, picked_taken, Greedy.foldl_mark, h.marks] at hmark
    exact hmark.imp_right Or.inl
  · refine Or.inr (Or.inr ?_)
    have hmem : i ∈ (pickSegment P info s sp ep).flats := by
      subst hs₁
      exact hprefix.subset hi
    rcases List.mem_append.mp (Greedy.choose_sublist.subset hi) with hlater | hown
    · obtain ⟨q, hq, rfl⟩ := List.mem_map.mp hlater
      obtain ⟨hqlo, hqhi⟩ := Int.mem_range_iff.mp hq
      obtain ⟨k', hk₁, hk₂, hrank, hname'⟩ := h.ranked_up hqlo hqhi.le hhi heq hlast
      rw [← hname'] at hmem hnear
      exact ⟨k', ⟨hk₁, hk₂⟩, hrank, hmem, hnear⟩
    · rw [List.mem_singleton.mp hown] at hmem
      exact ⟨k, ⟨hk, hk'⟩, Or.inr (le_refl _), hmem, near_refl info _⟩
  · -- there was room for all
    have hle : (Greedy.choose (Near info) (IsFlat P s₁) (Int.range sp (ep + 1)).length
        ((Int.range sp p).map (slotInd s)) s₁.cloudNeighborPicked.cell).length ≤
        ((Int.range sp p).map (slotInd s)).length := Greedy.choose_sublist.length_le
    rw [hfull, List.length_map, length_range, length_range] at hle
    omega

/-- **What is true of a segment that is done.** -/
theorem selected (h : Entered info s₀ log sp ep s) :
    Selected P info s₀ log (pickSegment P info s sp ep) where
  length := Greedy.length_choose_le
  corner i hi := by
    obtain ⟨hfree, hedge⟩ := Greedy.spec_of_mem_choose hi
    refine ⟨fun hmark => ?_, (isEdge_congr h.curvature).mp hedge⟩
    exact Bool.noConfusion (hfree.symm.trans ((h.marks i).mpr hmark))
  flat i hi := by
    obtain ⟨hfree, hflat⟩ := Greedy.spec_of_mem_choose hi
    refine ⟨fun hmark => ?_, (isFlat_congr ?_).mp hflat⟩
    · have hpicked : (taken info 1 s (pickSegment P info s sp ep).corners).cloudNeighborPicked.cell
          i = true := by
        rw [picked_taken, Greedy.foldl_mark]
        exact Or.inl ((h.marks i).mpr hmark)
      exact Bool.noConfusion (hfree.symm.trans hpicked)
    · rw [cloudCurvature_taken, h.curvature]
  apart := by
    refine List.pairwise_append.mpr ⟨Greedy.choose_pairwise, Greedy.choose_pairwise, ?_⟩
    intro i hi j hj hnear
    -- what is near a corner is marked when the flat points are looked for
    have hfree := Greedy.free_of_mem_choose hj
    rw [picked_taken] at hfree
    exact Bool.noConfusion (hfree.symm.trans ((Greedy.foldl_mark _ _).mpr (Or.inr ⟨i, hi, hnear⟩)))
  named i hi := by
    have hsource : ∀ q, q ∈ Int.range sp (ep + 1) →
        ∃ k, (pickSegment P info s sp ep).Covers k ∧ slotInd s₀ k = slotInd s q := by
      intro q hq
      obtain ⟨hlo, hhi⟩ := Int.mem_range_iff.mp hq
      obtain ⟨k, hk, hk', heq, -⟩ := h.source q hlo (by omega)
      exact ⟨k, ⟨hk, hk'⟩, (congrArg Smoothness.ind heq).symm⟩
    rcases List.mem_append.mp hi with hcorner | hflat
    · obtain ⟨q, hq, rfl⟩ := List.mem_map.mp (Greedy.choose_sublist.subset hcorner)
      exact hsource q (List.mem_reverse.mp hq)
    · obtain ⟨q, hq, rfl⟩ := List.mem_map.mp (Greedy.choose_sublist.subset hflat)
      rw [slotInd_taken]
      exact hsource q hq
  edge _ hk hedge := h.edge hk.1 hk.2 hedge
  plane _ hk hflat := h.plane hk.1 hk.2 hflat
  surface := by
    refine List.filter_congr fun k _ => ?_
    have hlabel : (finish info s (pickSegment P info s sp ep)).cloudLabel.cell k = _ :=
      label_finish
    rw [labelAfter_snoc, ← h.labels, ← hlabel]
    rfl

end Entered

/-! ### One segment after the other -/

/-- Each segment of the log is selected behind those in front of it. -/
inductive Selections (P : FeatureParams K) (info : CloudInfo K) (s₀ : Features K) :
    List Segment → Prop where
  | nil : Selections P info s₀ []
  | snoc {log : List Segment} {g : Segment} :
    Selections P info s₀ log → Selected P info s₀ log g → Selections P info s₀ (log ++ [g])

/-- The invariant along the segments. -/
structure Tracked (P : FeatureParams K) (info : CloudInfo K) (s₀ : Features K)
    (log : List Segment) (s : Features K) : Prop extends Accounted info s₀ log s where
  /-- What has not been in a segment is still unsorted. -/
  slots : ∀ k, (∀ g ∈ log, ¬ g.Covers k) →
    s.cloudSmoothness.cell k = s₀.cloudSmoothness.cell k
  /-- What has been in a segment has stayed in it. -/
  kept : ∀ g ∈ log, ∀ k, g.Covers k →
    ∃ k', g.Covers k' ∧ s.cloudSmoothness.cell k = s₀.cloudSmoothness.cell k'
  selections : Selections P info s₀ log

/-- At the start, the log is empty. -/
theorem Tracked.start (hfits : Fits info s₀) : Tracked P info s₀ [] s₀ where
  fits := hfits
  curvature := rfl
  marks j := by simp [Marked]
  labels i := rfl
  slots k _ := rfl
  kept g hg := absurd hg List.not_mem_nil
  selections := .nil

/-- The entries of a new segment, once they are sorted. -/
theorem Tracked.enter {b : Buffer (Smoothness K)} (h : Tracked P info s₀ log s)
    (hfresh : ∀ g ∈ log, g.ep < sp) (hsorted : Sorted sp ep s.cloudSmoothness b) :
    Entered info s₀ log sp ep ⟨b, s.cloudCurvature, s.cloudNeighborPicked, s.cloudLabel⟩ := by
  have hslot : ∀ k, sp ≤ k → s.cloudSmoothness.cell k = s₀.cloudSmoothness.cell k := by
    intro k hk
    refine h.slots k fun g hg hcov => ?_
    exact absurd (hcov.2.trans_lt (hfresh g hg)) (not_lt.mpr hk)
  exact
    { fits := ⟨hsorted.size.trans h.fits.smoothness, h.fits.curvature, h.fits.picked,
        h.fits.label, h.fits.cloud⟩
      curvature := h.curvature
      marks := h.marks
      labels := h.labels
      source := fun k hk hk' => by
        obtain ⟨k', hlo, hhi, heq, hlast⟩ := hsorted.source' hk hk'
        exact ⟨k', hlo, hhi, heq.trans (hslot k' hlo), hlast⟩
      target := fun k' hk hk' => by
        obtain ⟨k, hlo, hhi, heq, hlast⟩ := hsorted.target' hk hk'
        exact ⟨k, hlo, hhi, heq.trans (hslot k' hk), hlast⟩
      ordered := hsorted.ordered }

variable [Field K]

/-- **One segment.** If the entries of a new segment could be looked at before the first, it goes
well and keeps the invariant. -/
theorem Tracked.segment {x : Extraction K} (h : Tracked P info s₀ log x.arrays)
    (hfits : Fits info s₀) (hlo : 0 ≤ sp) (hlt : sp < ep)
    (hready : ∀ k, sp ≤ k → k ≤ ep → Ready info s₀ k)
    (hpoint : ∀ k, sp ≤ k → k ≤ ep → ∃ p, info.point k = some p)
    (hfresh : ∀ g ∈ log, g.ep < sp) :
    ∃ g x', g.sp = sp ∧ g.ep = ep ∧ extractSegment P info sp ep x = some x' ∧
      Tracked P info s₀ (log ++ [g]) x'.arrays ∧
      x'.cornerCloud = x.cornerCloud ++ g.corners.filterMap info.point ∧
      x'.surfaceCloudScan = x.surfaceCloudScan ++ g.surface.filterMap info.point := by
  have hend : ep ≤ x.arrays.cloudSmoothness.size := by
    rw [h.fits.smoothness, ← hfits.smoothness]
    exact (hready ep hlt.le le_rfl).slot.2.le
  obtain ⟨b, hsort, hsorted⟩ := sortSlots_eq P.sort hlo hend
  have henter := h.enter hfresh hsorted
  obtain ⟨s, hs⟩ : ∃ s : Features K, s = ⟨b, x.arrays.cloudCurvature,
    x.arrays.cloudNeighborPicked, x.arrays.cloudLabel⟩ := ⟨_, rfl⟩
  rw [← hs] at henter
  -- an entry that is looked at was one of the segment's before
  have hready' : ∀ k, sp ≤ k → k ≤ ep → Ready info s k := by
    intro k hk hk'
    obtain ⟨k', hlo', hhi', heq, -⟩ := henter.source k hk hk'
    have hwas := hready k' hlo' hhi'
    have hname : slotInd s k = slotInd s₀ k' := congrArg Smoothness.ind heq
    refine ⟨⟨hlo.trans hk, ?_⟩, ?_, ?_⟩
    · rw [henter.fits.smoothness, ← hfits.smoothness]
      exact hk'.trans_lt (hready ep hlt.le le_rfl).slot.2
    · rw [hname, Buffer.Inside, henter.fits.picked, ← hfits.picked]
      exact hwas.named
    · rw [hname]
      exact hwas.safe.imp_left fun hmark => (henter.marks _).mpr (Or.inl hmark)
  refine ⟨pickSegment P info s sp ep, _, rfl, rfl,
    extractSegment_eq hsort hs henter.fits hready' hpoint, ?_, rfl, rfl⟩
  have hsame : (finish info s (pickSegment P info s sp ep)).cloudSmoothness = b := by
    unfold finish
    rw [cloudSmoothness_taken, cloudSmoothness_taken, hs]
  refine { henter.toAccounted.finish _ with
    slots := fun k hk => ?_
    kept := fun g hg k hk => ?_
    selections := h.selections.snoc henter.selected }
  · have hnot : ¬ (sp ≤ k ∧ k ≤ ep) := hk _ (List.mem_append_right _ List.mem_cons_self)
    rw [hsame, hsorted.frame k fun hin => hnot ⟨hin.1, hin.2.le⟩]
    exact h.slots k fun g hg => hk g (List.mem_append_left _ hg)
  · rcases List.mem_append.mp hg with hold | hnew
    · -- an earlier segment is not touched
      have hbefore := hk.2.trans_lt (hfresh g hold)
      rw [hsame, hsorted.frame k fun hin => absurd hin.1 (not_le.mpr hbefore)]
      exact h.kept g hold k hk
    · obtain rfl := List.mem_singleton.mp hnew
      obtain ⟨k', hlo', hhi', heq, -⟩ := henter.source k hk.1 hk.2
      rw [hsame, ← show s.cloudSmoothness = b by rw [hs]]
      exact ⟨k', ⟨hlo', hhi'⟩, heq⟩

/-- **One segment after the other.** -/
theorem Tracked.segments (bs : List (ℤ × ℤ)) {x : Extraction K}
    (h : Tracked P info s₀ log x.arrays) (hfits : Fits info s₀)
    (hbounds : ∀ b ∈ bs, 0 ≤ b.1 ∧ b.1 < b.2)
    (hready : ∀ b ∈ bs, ∀ k, b.1 ≤ k → k ≤ b.2 →
      Ready info s₀ k ∧ ∃ p, info.point k = some p)
    (horder : bs.Pairwise fun a b => a.2 < b.1) (hfresh : ∀ g ∈ log, ∀ b ∈ bs, g.ep < b.1) :
    ∃ gs x', bs.foldlM (fun x b => extractSegment P info b.1 b.2 x) x = some x' ∧
      gs.map (fun g => (g.sp, g.ep)) = bs ∧ Tracked P info s₀ (log ++ gs) x'.arrays ∧
      x'.cornerCloud = x.cornerCloud ++ (gs.flatMap Segment.corners).filterMap info.point ∧
      x'.surfaceCloudScan =
        x.surfaceCloudScan ++ (gs.flatMap Segment.surface).filterMap info.point := by
  induction bs generalizing log x with
  | nil =>
    refine ⟨[], x, rfl, rfl, ?_, (List.append_nil _).symm, (List.append_nil _).symm⟩
    rw [List.append_nil]
    exact h
  | cons b bs ih =>
    obtain ⟨hlo, hlt⟩ := hbounds b List.mem_cons_self
    have hhere := hready b List.mem_cons_self
    obtain ⟨hnext, hrest⟩ := List.pairwise_cons.mp horder
    obtain ⟨g, x₁, hsp, hep, hrun, h₁, hcorner, hsurface⟩ := h.segment hfits hlo hlt
      (fun k hk hk' => (hhere k hk hk').1) (fun k hk hk' => (hhere k hk hk').2)
      (fun g hg => hfresh g hg b List.mem_cons_self)
    obtain ⟨gs, x', hrun', hgs, h', hcorner', hsurface'⟩ := ih h₁
      (fun b' hb' => hbounds b' (List.mem_cons_of_mem _ hb'))
      (fun b' hb' => hready b' (List.mem_cons_of_mem _ hb')) hrest (by
        intro g' hg' b' hb'
        rcases List.mem_append.mp hg' with hold | hnew
        · exact hfresh g' hold b' (List.mem_cons_of_mem _ hb')
        · rw [List.mem_singleton.mp hnew, hep]
          exact hnext b' hb')
    refine ⟨g :: gs, x', ?_, ?_, ?_, ?_, ?_⟩
    · rw [List.foldlM_cons, hrun]
      exact hrun'
    · rw [List.map_cons, hgs, hsp, hep]
    · rwa [List.append_assoc] at h'
    · rw [hcorner', hcorner, List.append_assoc, List.flatMap_cons, List.filterMap_append]
    · rw [hsurface', hsurface, List.append_assoc, List.flatMap_cons, List.filterMap_append]

end Segments

end Mapping
end WtbAutoware
