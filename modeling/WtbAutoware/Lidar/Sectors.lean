import WtbAutoware.Framework.Intervals
import WtbAutoware.Platform

/-!
# The disabled sectors of the lidar

The driver of the lidar can leave sectors of the turn out of its clouds. The parameters
`angle_disable_min` and `angle_disable_max` are two lists of angles in hundredths of a degree;
the `i`-th of both are a pair, and stand for the arc from the one up to the other (`InArc`).
`calculateDisableAngles` brings the angles into one turn, cuts the arcs at 0 and merges the
ranges. `poll` keeps a point if its azimuth lies in none of the ranges (`angleKept`), and the
node logs what is free between them (`usableAngles`).

That nothing is disabled is written as the range from 0 to 0, by a pair of equal angles, and
`poll` looks for that range at the front of the list.

* A pair of equal angles ends the list: the pairs in front of it count, and those behind it do
  not (`effective`).
* A pair that ends at 0, or at 36000, leaves the range from 0 to 0 when it is cut. Sorting
  brings it to the front, and nothing is filtered any more (`angleKept_of_endsAtZero`).
* All other configurations filter the union of their arcs, inside the turn (`angleKept_iff`).
  Azimuth 36000 is in no range, and always kept.
-/

namespace WtbAutoware
namespace Lidar

open HalfOpen Arc

/-! ### The functions -/

/-- `AngleRange`. -/
abbrev AngleRange := HalfOpen ℤ

/-- `compareRanges`. -/
def CompareRanges (a b : AngleRange) : Prop := a.start < b.start

/-- How the loop over the parameters ends early. -/
inductive Exit where
  /-- `return allRanges`. -/
  | returned (allRanges : List AngleRange)
  /-- `disableMax` is shorter than `disableMin`. -/
  | outOfRange
  deriving DecidableEq

/-- `(v % 36000 + 36000) % 36000`, with the remainder of C++. -/
def residue (v : ℤ) : ℤ := (v.tmod 36000 + 36000).tmod 36000

/-- The loop of `calculateDisableAngles`. -/
def collectRanges (allRanges : List AngleRange) :
    List ℤ → List ℤ → Except Exit (List AngleRange)
  | [], _ => .ok allRanges
  | _ :: _, [] => .error .outOfRange
  | mn :: disableMin, mx :: disableMax =>
    let start := residue mn
    let stop := residue mx
    -- the source takes equal angles for "nothing is disabled", and looks no further
    if stop = start then .error (.returned (allRanges ++ [⟨0, 0⟩]))
    else if stop < start then
      -- over 0
      collectRanges (allRanges ++ [⟨start, 36000⟩, ⟨0, stop⟩]) disableMin disableMax
    else collectRanges (allRanges ++ [⟨start, stop⟩]) disableMin disableMax

/-- One pass of the loop of `mergeRanges`. -/
def mergeStep (mergedRanges : List AngleRange) (range : AngleRange) : List AngleRange :=
  match mergedRanges.getLast? with
  | none => [range]
  | some back =>
    -- ranges that only touch stay two
    if range.start < back.stop then
      mergedRanges.dropLast ++ [⟨back.start, max back.stop range.stop⟩]
    else mergedRanges ++ [range]

/-- `mergeRanges`. -/
def mergeRanges (sort : StdSort AngleRange CompareRanges) (ranges : List AngleRange) :
    List AngleRange :=
  match sort.run ranges with
  | [] => []
  | first :: rest => rest.foldl mergeStep [first]

/-- `calculateDisableAngles`. A list that it returns early is neither sorted nor merged. -/
def calculateDisableAngles (sort : StdSort AngleRange CompareRanges)
    (disableMin disableMax : List ℤ) : Option (List AngleRange) :=
  match collectRanges [] disableMin disableMax with
  | .ok allRanges => some (mergeRanges sort allRanges)
  | .error (.returned allRanges) => some allRanges
  | .error .outOfRange => none

/-- One pass of the loop over `disableAngles` in `initialize`: the ranges, and `lastEnd`. -/
def usableStep (s : List AngleRange × ℤ) (range : AngleRange) : List AngleRange × ℤ :=
  (if s.2 < range.start then s.1 ++ [⟨s.2, range.start⟩] else s.1, range.stop)

/-- `usableAngles`, which `initialize` logs. -/
def usableAngles (disableAngles : List AngleRange) : List AngleRange :=
  let s := disableAngles.foldl usableStep ([], 0)
  if s.2 < 36000 then s.1 ++ [⟨s.2, 36000⟩] else s.1

/-- `is_skip_angle`, of an azimuth: false for those that are to be skipped. -/
def isSkipAngle (disableAngles : List AngleRange) (azimuth : ℤ) : Bool :=
  !disableAngles.any fun range => decide (range.start ≤ azimuth ∧ azimuth < range.stop)

/-- What `poll` makes of it: whether a point is kept. Of an empty `disableAngles` there is no
front. -/
def angleKept (disableAngles : List AngleRange) (azimuth : ℤ) : Option Bool :=
  match disableAngles with
  | [] => none
  | front :: _ =>
    if front.start = 0 ∧ front.stop = 0 then some true else some (isSkipAngle disableAngles azimuth)

/-! ### The ranges of the pairs -/

/-- The pairs in front of the first one whose angles are equal. -/
def effective (pairs : List (ℤ × ℤ)) : List (ℤ × ℤ) :=
  pairs.takeWhile fun p => residue p.2 ≠ residue p.1

/-- The arc of a pair, cut at 0. -/
def arcRanges (p : ℤ × ℤ) : List AngleRange :=
  if residue p.2 < residue p.1 then [⟨residue p.1, 36000⟩, ⟨0, residue p.2⟩]
  else [⟨residue p.1, residue p.2⟩]

theorem residue_eq_emod (v : ℤ) : residue v = v % 36000 := by
  have hlt : -36000 < v.tmod 36000 := Int.lt_tmod_of_pos v (by decide)
  unfold residue
  rw [Int.tmod_eq_emod_of_nonneg (by linarith), Int.add_emod_right, Int.tmod_def,
    Int.sub_mul_emod_self_left]

theorem residue_mem (v : ℤ) : 0 ≤ residue v ∧ residue v < 36000 := by
  rw [residue_eq_emod]
  exact ⟨Int.emod_nonneg _ (by decide), Int.emod_lt_of_pos _ (by decide)⟩

/-- The cut arc is the arc. -/
theorem covers_arcRanges (p : ℤ × ℤ) {x : ℤ} (hx : 0 ≤ x ∧ x < 36000) :
    Covers (arcRanges p) x ↔ InArc 36000 p.1 p.2 x := by
  have harc : InArc 36000 p.1 p.2 x ↔ InArc 36000 (residue p.1) (residue p.2) x := by
    rw [residue_eq_emod, residue_eq_emod]
    exact (inArc_emod _ _ _ _).symm
  rw [harc, inArc_iff (residue_mem p.1) (residue_mem p.2) hx]
  unfold arcRanges
  split
  · -- two ranges: the one behind the start, and the one in front of the end
    simp only [covers_cons, covers_nil, or_false, Contains]
    exact or_congr (and_iff_left hx.2) (and_iff_right hx.1)
  · simp only [covers_cons, covers_nil, or_false, Contains]

theorem covers_flatMap (pairs : List (ℤ × ℤ)) {x : ℤ} (hx : 0 ≤ x ∧ x < 36000) :
    Covers (pairs.flatMap arcRanges) x ↔ ∃ p ∈ pairs, InArc 36000 p.1 p.2 x := by
  induction pairs with
  | nil => simp
  | cons p pairs ih =>
    rw [List.flatMap_cons, covers_append, covers_arcRanges p hx, ih, List.exists_mem_cons_iff]

/-- The loop collects the ranges of the effective pairs. -/
theorem collectRanges_eq {disableMin disableMax : List ℤ}
    (hlen : disableMin.length = disableMax.length) (allRanges : List AngleRange) :
    collectRanges allRanges disableMin disableMax =
      let pairs := disableMin.zip disableMax
      let ranges := allRanges ++ (effective pairs).flatMap arcRanges
      if effective pairs = pairs then .ok ranges else .error (.returned (ranges ++ [⟨0, 0⟩])) := by
  induction disableMin generalizing disableMax allRanges with
  | nil => simp [collectRanges, effective]
  | cons mn disableMin ih =>
    cases disableMax with
    | nil => exact absurd hlen (Nat.succ_ne_zero _)
    | cons mx disableMax =>
      have hrest := ih (Nat.succ.inj hlen)
      rw [collectRanges, List.zip_cons_cons]
      by_cases heq : residue mx = residue mn
      · -- the pair ends the list
        have heff : effective ((mn, mx) :: disableMin.zip disableMax) = [] :=
          List.takeWhile_cons_of_neg (by simpa using heq)
        simp [heq, heff]
      · have heff : effective ((mn, mx) :: disableMin.zip disableMax) =
            (mn, mx) :: effective (disableMin.zip disableMax) :=
          List.takeWhile_cons_of_pos (by simpa using heq)
        simp only [if_neg heq, heff, List.flatMap_cons, List.cons.injEq, true_and]
        by_cases hover : residue mx < residue mn
        · rw [if_pos hover, hrest, arcRanges, if_pos hover]
          simp only [List.append_assoc]
        · rw [if_neg hover, hrest, arcRanges, if_neg hover]
          simp only [List.append_assoc]

/-- The ranges lie in one turn. -/
theorem within_arcRanges (p : ℤ × ℤ) :
    ∀ r ∈ arcRanges p, 0 ≤ r.start ∧ r.start ≤ r.stop ∧ r.stop ≤ 36000 := by
  have hmn := residue_mem p.1
  have hmx := residue_mem p.2
  unfold arcRanges
  split
  · simp only [List.forall_mem_cons, List.not_mem_nil, false_implies, implies_true, and_true]
    omega
  · simp only [List.forall_mem_cons, List.not_mem_nil, false_implies, implies_true, and_true]
    omega

theorem effective_spec {pairs : List (ℤ × ℤ)} :
    ∀ p ∈ effective pairs, p ∈ pairs ∧ residue p.2 ≠ residue p.1 := by
  intro p hp
  refine ⟨(List.takeWhile_prefix _).subset hp, ?_⟩
  simpa using List.mem_takeWhile_imp hp

/-! ### Sorting and merging -/

section Merged

variable (sort : StdSort AngleRange CompareRanges)

theorem foldl_mergeStep (merged : List AngleRange) (last : AngleRange) (rest : List AngleRange) :
    rest.foldl mergeStep (merged ++ [last]) = merged ++ mergeFrom last rest := by
  -- only the last range of the list can still grow
  induction rest generalizing merged last with
  | nil => rfl
  | cons r rest ih =>
    rw [List.foldl_cons, mergeStep, List.getLast?_concat]
    dsimp only
    rw [mergeFrom]
    split
    · rw [List.dropLast_concat, ih]
    · rw [ih, List.append_assoc, List.singleton_append]

/-- `mergeRanges` merges the sorted list. -/
theorem mergeRanges_eq (ranges : List AngleRange) :
    mergeRanges sort ranges = merge (sort.run ranges) := by
  unfold mergeRanges
  cases sort.run ranges with
  | nil => rfl
  | cons first rest => exact foldl_mergeStep [] first rest

theorem ascending_run (ranges : List AngleRange) : Ascending (sort.run ranges) :=
  (sort.sorted ranges).imp fun h => not_lt.mp h

theorem covers_mergeRanges (ranges : List AngleRange) (x : ℤ) :
    Covers (mergeRanges sort ranges) x ↔ Covers ranges x := by
  rw [mergeRanges_eq, covers_merge (ascending_run sort ranges)]
  exact Covers.congr (fun r => (sort.perm ranges).mem_iff) x

theorem usableAngles_eq (disableAngles : List AngleRange) :
    usableAngles disableAngles = gapsFrom 0 36000 disableAngles := by
  -- the loop adds to what it has found, so that is general in the induction, as `lastEnd` is
  have hloop : ∀ (usable : List AngleRange) (lastEnd : ℤ),
      (let s := disableAngles.foldl usableStep (usable, lastEnd)
        if s.2 < 36000 then s.1 ++ [⟨s.2, 36000⟩] else s.1) =
        usable ++ gapsFrom lastEnd 36000 disableAngles := by
    induction disableAngles with
    | nil =>
      intro usable lastEnd
      rw [gapsFrom, List.foldl_nil]
      dsimp only
      split
      · rfl
      · exact (List.append_nil usable).symm
    | cons r disableAngles ih =>
      intro usable lastEnd
      rw [List.foldl_cons, usableStep, ih, gapsFrom]
      dsimp only
      split
      · exact List.append_assoc _ _ _
      · rfl
  exact hloop [] 0

/-- A sort by the starts. -/
def sortByStart : StdSort AngleRange CompareRanges := StdSort.byKey HalfOpen.start

/-! ### What is filtered -/

theorem isSkipAngle_eq (disableAngles : List AngleRange) (x : ℤ) :
    isSkipAngle disableAngles x = decide (¬ Covers disableAngles x) := by
  rw [isSkipAngle, decide_not]
  refine congrArg _ ?_
  rw [Bool.eq_iff_iff, List.any_eq_true, decide_eq_true_eq]
  simp only [decide_eq_true_eq]
  rfl

theorem angleKept_cons {front : AngleRange} (hfront : front.stop ≠ 0) (rest : List AngleRange)
    (x : ℤ) : angleKept (front :: rest) x = some (decide (¬ Covers (front :: rest) x)) := by
  rw [angleKept, if_neg fun h => hfront h.2, isSkipAngle_eq]

/-- The first range of a pair is not the one from 0 to 0. -/
theorem exists_front {p : ℤ × ℤ} (hp : residue p.2 ≠ residue p.1) :
    ∃ front rest, arcRanges p = front :: rest ∧ front.stop ≠ 0 := by
  have hmn := residue_mem p.1
  unfold arcRanges
  split
  · exact ⟨_, _, rfl, (by decide : (36000 : ℤ) ≠ 0)⟩
  · next hover =>
    -- an arc that does not go over 0 stops behind its start
    refine ⟨_, _, rfl, ?_⟩
    show residue p.2 ≠ 0
    omega

theorem stop_pos {p : ℤ × ℤ} (hzero : residue p.2 ≠ 0) :
    ∀ r ∈ arcRanges p, 0 < r.stop := by
  have hmn := residue_mem p.1
  have hmx := residue_mem p.2
  unfold arcRanges
  split
  · simp only [List.forall_mem_cons, List.not_mem_nil, false_implies, implies_true, and_true]
    omega
  · simp only [List.forall_mem_cons, List.not_mem_nil, false_implies, implies_true, and_true]
    omega

/-- The front of the merged list stops where the front of the sorted one does, or later. -/
theorem exists_front_mergeRanges {ranges : List AngleRange} (hne : ranges ≠ [])
    (hstop : ∀ r ∈ ranges, 0 < r.stop) :
    ∃ front rest, mergeRanges sort ranges = front :: rest ∧ front.stop ≠ 0 := by
  rw [mergeRanges_eq]
  have hperm := sort.perm ranges
  cases hrun : sort.run ranges with
  | nil =>
    rw [hrun] at hperm
    exact absurd hperm.nil_eq.symm hne
  | cons first rest =>
    rw [hrun] at hperm
    have hfirst := hstop first (hperm.subset List.mem_cons_self)
    obtain ⟨stop, hle, hhead⟩ := head_mergeFrom first rest
    obtain ⟨tail, htail⟩ := List.head?_eq_some_iff.mp hhead
    exact ⟨_, tail, htail, (hfirst.trans_le hle).ne'⟩

/-- A point is outside the ranges of the pairs if it is on none of the arcs. -/
theorem not_covers_iff (pairs : List (ℤ × ℤ)) {x : ℤ} (hx : 0 ≤ x ∧ x < 36000) :
    ¬ Covers (pairs.flatMap arcRanges) x ↔ ∀ p ∈ pairs, ¬ InArc 36000 p.1 p.2 x := by
  rw [covers_flatMap _ hx]
  constructor
  · intro hnot p hp harc
    exact hnot ⟨p, hp, harc⟩
  · rintro hnot ⟨p, hp, harc⟩
    exact hnot p hp harc

/-- What the merged list filters, if no pair ends at 0. -/
theorem angleKept_merged {pairs : List (ℤ × ℤ)} (hpairs : pairs ≠ [])
    (hdistinct : ∀ p ∈ pairs, residue p.2 ≠ residue p.1)
    (hnonzero : ∀ p ∈ pairs, residue p.2 ≠ 0) {x : ℤ} (hx : 0 ≤ x ∧ x < 36000) :
    angleKept (mergeRanges sort (pairs.flatMap arcRanges)) x =
      some (decide (∀ p ∈ pairs, ¬ InArc 36000 p.1 p.2 x)) := by
  have hstop : ∀ r ∈ pairs.flatMap arcRanges, 0 < r.stop := by
    intro r hr
    obtain ⟨p, hp, hr⟩ := List.mem_flatMap.mp hr
    exact stop_pos (hnonzero p hp) r hr
  have hranges : pairs.flatMap arcRanges ≠ [] := by
    obtain ⟨p, ps, rfl⟩ := List.exists_cons_of_ne_nil hpairs
    obtain ⟨front, rest, hp, -⟩ := exists_front (hdistinct p List.mem_cons_self)
    rw [List.flatMap_cons, hp]
    exact List.cons_ne_nil _ _
  -- the front of the list is not the range that stands for "nothing disabled"
  obtain ⟨front, rest, hmerged, hfront⟩ := exists_front_mergeRanges sort hranges hstop
  have hcovers := not_congr (covers_mergeRanges sort (pairs.flatMap arcRanges) x)
  rw [hmerged, angleKept_cons hfront, ← hmerged]
  exact congrArg some (decide_eq_decide.mpr (hcovers.trans (not_covers_iff pairs hx)))

/-- What a list filters that was returned early. -/
theorem angleKept_returned {pairs : List (ℤ × ℤ)}
    (hdistinct : ∀ p ∈ pairs, residue p.2 ≠ residue p.1) {x : ℤ} (hx : 0 ≤ x ∧ x < 36000) :
    angleKept (pairs.flatMap arcRanges ++ [⟨0, 0⟩]) x =
      some (decide (∀ p ∈ pairs, ¬ InArc 36000 p.1 p.2 x)) := by
  cases pairs with
  | nil => simp [angleKept]
  | cons p ps =>
    obtain ⟨front, rest, hfrontEq, hfront⟩ := exists_front (hdistinct p List.mem_cons_self)
    have hcons : (p :: ps).flatMap arcRanges ++ [⟨0, 0⟩] =
        front :: (rest ++ ps.flatMap arcRanges ++ [⟨0, 0⟩]) := by
      rw [List.flatMap_cons, hfrontEq]
      rfl
    -- the range at the end covers nothing
    have hcovers : Covers ((p :: ps).flatMap arcRanges ++ [⟨0, 0⟩]) x ↔
        Covers ((p :: ps).flatMap arcRanges) x := by
      rw [covers_append, covers_cons, or_iff_left]
      simp [Contains]
    rw [hcons, angleKept_cons hfront, ← hcons]
    exact congrArg some
      (decide_eq_decide.mpr ((not_congr hcovers).trans (not_covers_iff (p :: ps) hx)))

/-- **The sectors that are filtered.** If a pair of equal angles ends the list, or no pair ends
at 0, `poll` drops the points whose azimuth lies on the arc of a pair in front of that end, and
keeps all others, as long as the azimuth is inside the turn. -/
theorem angleKept_iff {disableMin disableMax : List ℤ}
    (hlen : disableMin.length = disableMax.length) (hne : disableMin ≠ [])
    (hzero : (∃ p ∈ disableMin.zip disableMax, residue p.2 = residue p.1) ∨
      ∀ p ∈ disableMin.zip disableMax, residue p.2 ≠ 0) :
    ∃ ranges, calculateDisableAngles sort disableMin disableMax = some ranges ∧
      ∀ x, 0 ≤ x → x < 36000 → angleKept ranges x =
        some (decide (∀ p ∈ effective (disableMin.zip disableMax), ¬ InArc 36000 p.1 p.2 x)) := by
  have hpairs : disableMin.zip disableMax ≠ [] := by
    intro hnil
    rcases List.zip_eq_nil_iff.mp hnil with h | h
    · exact hne h
    · rw [h] at hlen
      exact hne (List.length_eq_zero_iff.mp hlen)
  generalize hzip : disableMin.zip disableMax = pairs at hpairs hzero ⊢
  have hcollect := collectRanges_eq hlen []
  rw [hzip] at hcollect
  dsimp only at hcollect
  rw [List.nil_append] at hcollect
  have hdistinct : ∀ p ∈ effective pairs, residue p.2 ≠ residue p.1 :=
    fun p hp => (effective_spec p hp).2
  unfold calculateDisableAngles
  rw [hcollect]
  by_cases hall : effective pairs = pairs
  · -- the loop comes to its end
    rw [if_pos hall]
    rw [hall] at hdistinct ⊢
    refine ⟨_, rfl, fun x hlo hhi => ?_⟩
    refine angleKept_merged sort hpairs hdistinct ?_ ⟨hlo, hhi⟩
    rcases hzero with ⟨p, hp, heq⟩ | h
    · exact absurd heq (hdistinct p hp)
    · exact h
  · -- the list is returned early, and its ranges are as the pairs left them
    rw [if_neg hall]
    exact ⟨_, rfl, fun x hlo hhi => angleKept_returned hdistinct ⟨hlo, hhi⟩⟩

/-- A sector over 0, and one to the side. -/
theorem angleKept_iff_two :
    ∃ ranges, calculateDisableAngles sortByStart [35000, 9000] [1000, 18000] = some ranges ∧
      ∀ x, 0 ≤ x → x < 36000 → angleKept ranges x =
        some (decide (∀ p ∈ effective [(35000, 1000), (9000, 18000)],
          ¬ InArc 36000 p.1 p.2 x)) :=
  angleKept_iff sortByStart rfl (List.cons_ne_nil _ _) (Or.inr (by decide))

/-- The range from 0 to 0 comes first, if it is there and nothing else starts at 0. -/
theorem exists_mergeRanges_zero {ranges : List AngleRange} (hmem : ⟨0, 0⟩ ∈ ranges)
    (hstart : ∀ r ∈ ranges, 0 ≤ r.start ∧ (r.start = 0 → r = ⟨0, 0⟩)) :
    ∃ rest, mergeRanges sort ranges = ⟨0, 0⟩ :: rest := by
  have hperm := sort.perm ranges
  have hsorted := ascending_run sort ranges
  rw [mergeRanges_eq]
  cases hrun : sort.run ranges with
  | nil =>
    rw [hrun] at hperm
    exact absurd (hperm.nil_eq ▸ hmem) List.not_mem_nil
  | cons first rest =>
    rw [hrun] at hperm hsorted
    obtain ⟨hnonneg, hzero⟩ := hstart first (hperm.subset List.mem_cons_self)
    have hfirst : first.start = 0 := by
      refine le_antisymm ?_ hnonneg
      rcases List.mem_cons.mp (hperm.symm.subset hmem) with h | h
      · rw [← h]
      · exact (List.pairwise_cons.mp hsorted).1 _ h
    obtain rfl := hzero hfirst
    -- nothing starts in front of 0, so nothing is joined to it
    cases rest with
    | nil => exact ⟨[], rfl⟩
    | cons r rest =>
      have hr := (hstart r (hperm.subset (List.mem_cons_of_mem _ List.mem_cons_self))).1
      refine ⟨mergeFrom r rest, ?_⟩
      rw [merge, mergeFrom, if_neg (not_lt.mpr hr)]

/-- What the node logs is free of the merged ranges. -/
theorem covers_usableAngles (pairs : List (ℤ × ℤ)) {x : ℤ} (hx : 0 ≤ x ∧ x < 36000) :
    Covers (usableAngles (mergeRanges sort (pairs.flatMap arcRanges))) x ↔
      ¬ Covers (pairs.flatMap arcRanges) x := by
  have hwithin : ∀ r ∈ mergeRanges sort (pairs.flatMap arcRanges),
      0 ≤ r.start ∧ r.start ≤ r.stop ∧ r.stop ≤ 36000 := by
    rw [mergeRanges_eq]
    refine within_merge fun r hr => ?_
    obtain ⟨p, hp, hr⟩ := List.mem_flatMap.mp ((sort.perm _).subset hr)
    exact within_arcRanges p r hr
  have hsep : Separated (mergeRanges sort (pairs.flatMap arcRanges)) := by
    rw [mergeRanges_eq]
    exact separated_merge (ascending_run sort _)
  rw [usableAngles_eq, covers_gapsFrom hsep hwithin, covers_mergeRanges, and_iff_right hx.1,
    and_iff_right hx.2]

/-- **A sector that ends at 0 switches the filter off.** If all pairs have different angles,
one of them ends at 0, and none of them begins at 0 or goes on over it, `poll` keeps every
point, though what the node has logged as usable is what lies on none of the arcs. -/
theorem angleKept_of_endsAtZero {disableMin disableMax : List ℤ}
    (hlen : disableMin.length = disableMax.length)
    (hall : ∀ p ∈ disableMin.zip disableMax, residue p.2 ≠ residue p.1)
    (hend : ∃ p ∈ disableMin.zip disableMax, residue p.2 = 0)
    (hstart : ∀ p ∈ disableMin.zip disableMax, residue p.1 ≠ 0 ∧
      (residue p.2 < residue p.1 → residue p.2 = 0)) :
    ∃ ranges, calculateDisableAngles sort disableMin disableMax = some ranges ∧
      (∀ x, angleKept ranges x = some true) ∧
      ∀ x, 0 ≤ x → x < 36000 → (Covers (usableAngles ranges) x ↔
        ∀ p ∈ disableMin.zip disableMax, ¬ InArc 36000 p.1 p.2 x) := by
  generalize hzip : disableMin.zip disableMax = pairs at hall hend hstart ⊢
  have hcollect := collectRanges_eq hlen []
  rw [hzip] at hcollect
  have heff : effective pairs = pairs :=
    List.takeWhile_eq_self_iff.mpr fun p hp => by simpa using hall p hp
  dsimp only at hcollect
  rw [List.nil_append, if_pos heff, heff] at hcollect
  unfold calculateDisableAngles
  rw [hcollect]
  refine ⟨_, rfl, fun x => ?_, fun x hlo hhi => ?_⟩
  · have hmem : (⟨0, 0⟩ : AngleRange) ∈ pairs.flatMap arcRanges := by
      obtain ⟨p, hp, hp0⟩ := hend
      -- it starts behind 0, so the loop cuts its arc there, and nothing is left on this side
      have hlt : residue p.2 < residue p.1 := by
        have hmn := residue_mem p.1
        have hne := hall p hp
        omega
      refine List.mem_flatMap.mpr ⟨p, hp, ?_⟩
      rw [arcRanges, if_pos hlt, hp0]
      exact List.mem_cons_of_mem _ List.mem_cons_self
    have hzero : ∀ r ∈ pairs.flatMap arcRanges, 0 ≤ r.start ∧ (r.start = 0 → r = ⟨0, 0⟩) := by
      intro r hr
      obtain ⟨p, hp, hr⟩ := List.mem_flatMap.mp hr
      obtain ⟨hmn, hover⟩ := hstart p hp
      refine ⟨(within_arcRanges p r hr).1, fun hr0 => ?_⟩
      -- of an arc that is cut, the second range starts at 0, but that one stops there too
      unfold arcRanges at hr
      split at hr
      · next hlt =>
        rcases List.mem_cons.mp hr with rfl | hr
        · exact absurd hr0 hmn
        · rw [List.mem_singleton.mp hr, hover hlt]
      · rw [List.mem_singleton.mp hr] at hr0
        exact absurd hr0 hmn
    obtain ⟨rest, hmerged⟩ := exists_mergeRanges_zero sort hmem hzero
    rw [hmerged]
    rfl
  · rw [covers_usableAngles sort pairs ⟨hlo, hhi⟩, not_covers_iff pairs ⟨hlo, hhi⟩]

/-- The last quarter of the turn, as one would write it. -/
theorem angleKept_of_endsAtZero_quarter :
    ∃ ranges, calculateDisableAngles sortByStart [27000] [36000] = some ranges ∧
      (∀ x, angleKept ranges x = some true) ∧
      ∀ x, 0 ≤ x → x < 36000 → (Covers (usableAngles ranges) x ↔
        ∀ p ∈ [((27000 : ℤ), (36000 : ℤ))], ¬ InArc 36000 p.1 p.2 x) :=
  angleKept_of_endsAtZero sortByStart rfl (by decide) (by decide) (by decide)

end Merged

end Lidar
end WtbAutoware
