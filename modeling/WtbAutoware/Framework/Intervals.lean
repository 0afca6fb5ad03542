import Mathlib.Algebra.Order.Ring.Int
import Mathlib.Data.List.Sort
import Mathlib.Tactic

/-!
# Lists of half-open intervals

Intervals in a linear order that contain their start and not their stop, and lists of them,
which stand for their union (`Covers`). The two sweeps over a list that is sorted by its
starts:

* `merge` joins what overlaps. The union stays the same (`covers_merge`), and each interval
  of the result stops before the next one starts (`separated_merge`).
* `gapsFrom` lists what such a result leaves free up to a bound (`covers_gapsFrom`).

A circle of `n` points is cut at 0. An arc on it is one interval, or two if it passes the
cut (`inArc_iff`).
-/

/-- The points from `start` up to, and without, `stop`. -/
structure HalfOpen (K : Type) where
  start : K
  stop : K
  deriving DecidableEq

namespace HalfOpen

variable {K : Type} [LinearOrder K]

def Contains (r : HalfOpen K) (x : K) : Prop := r.start ≤ x ∧ x < r.stop

instance (r : HalfOpen K) (x : K) : Decidable (r.Contains x) :=
  inferInstanceAs (Decidable (_ ∧ _))

/-- The union of a list. -/
def Covers (rs : List (HalfOpen K)) (x : K) : Prop := ∃ r ∈ rs, r.Contains x

instance (rs : List (HalfOpen K)) (x : K) : Decidable (Covers rs x) :=
  inferInstanceAs (Decidable (∃ r ∈ rs, r.Contains x))

/-- Each interval stops before the later ones start. -/
def Separated (rs : List (HalfOpen K)) : Prop := rs.Pairwise fun r r' => r.stop ≤ r'.start

/-- In the order of the starts. -/
def Ascending (rs : List (HalfOpen K)) : Prop := rs.Pairwise fun r r' => r.start ≤ r'.start

@[simp] theorem covers_nil (x : K) : ¬ Covers ([] : List (HalfOpen K)) x :=
  fun h => absurd h.choose_spec.1 List.not_mem_nil

theorem covers_cons {r : HalfOpen K} {rs : List (HalfOpen K)} {x : K} :
    Covers (r :: rs) x ↔ r.Contains x ∨ Covers rs x := List.exists_mem_cons_iff _ _ _

theorem covers_append {rs rs' : List (HalfOpen K)} {x : K} :
    Covers (rs ++ rs') x ↔ Covers rs x ∨ Covers rs' x := by
  induction rs with
  | nil => simp
  | cons r rs ih => rw [List.cons_append, covers_cons, covers_cons, ih, or_assoc]

theorem Covers.congr {rs rs' : List (HalfOpen K)} (h : ∀ r, r ∈ rs ↔ r ∈ rs') (x : K) :
    Covers rs x ↔ Covers rs' x := by
  simp only [Covers, h]

/-! ### Merging -/

/-- The rest of a list is merged into the interval in front of it. -/
def mergeFrom (last : HalfOpen K) : List (HalfOpen K) → List (HalfOpen K)
  | [] => [last]
  | r :: rs =>
    if r.start < last.stop then mergeFrom ⟨last.start, max last.stop r.stop⟩ rs
    else last :: mergeFrom r rs

/-- Overlapping intervals are joined. -/
def merge : List (HalfOpen K) → List (HalfOpen K)
  | [] => []
  | r :: rs => mergeFrom r rs

/-- Two intervals that overlap, and the one that they are joined to. -/
theorem contains_join {last r : HalfOpen K} (hstart : last.start ≤ r.start)
    (hoverlap : r.start < last.stop) (x : K) :
    (HalfOpen.mk last.start (max last.stop r.stop)).Contains x ↔
      last.Contains x ∨ r.Contains x := by
  simp only [Contains, lt_max_iff]
  constructor
  · rintro ⟨hx, hlt | hlt⟩
    · exact Or.inl ⟨hx, hlt⟩
    · -- between the start of `r` and the stop of `last`, a point is in both
      rcases lt_or_ge x last.stop with hin | hout
      · exact Or.inl ⟨hx, hin⟩
      · exact Or.inr ⟨hoverlap.le.trans hout, hlt⟩
  · rintro (⟨hx, hlt⟩ | ⟨hx, hlt⟩)
    · exact ⟨hx, Or.inl hlt⟩
    · exact ⟨hstart.trans hx, Or.inr hlt⟩

theorem mergeFrom_spec {last : HalfOpen K} {rs : List (HalfOpen K)}
    (h : Ascending (last :: rs)) :
    (∀ x, Covers (mergeFrom last rs) x ↔ Covers (last :: rs) x) ∧
      Separated (mergeFrom last rs) ∧ ∀ r ∈ mergeFrom last rs, last.start ≤ r.start := by
  induction rs generalizing last with
  | nil =>
    refine ⟨fun x => Iff.rfl, List.pairwise_singleton _ _, fun r hr => ?_⟩
    rw [List.mem_singleton.mp hr]
  | cons r rs ih =>
    obtain ⟨hlast, hrs⟩ := List.pairwise_cons.mp h
    obtain ⟨hr, hrest⟩ := List.pairwise_cons.mp hrs
    have hle := hlast r List.mem_cons_self
    unfold mergeFrom
    split
    · next hoverlap =>
      -- the joined interval starts where `last` does, so the order stays
      have hjoined : Ascending (⟨last.start, max last.stop r.stop⟩ :: rs) :=
        List.pairwise_cons.mpr ⟨fun r' hr' => hle.trans (hr r' hr'), hrest⟩
      obtain ⟨hcovers, hsep, hstart⟩ := ih hjoined
      refine ⟨fun x => ?_, hsep, hstart⟩
      rw [hcovers, covers_cons, contains_join hle hoverlap, covers_cons, covers_cons, or_assoc]
    · next happart =>
      obtain ⟨hcovers, hsep, hstart⟩ := ih hrs
      refine ⟨fun x => ?_, ?_, fun r' hr' => ?_⟩
      · rw [covers_cons, hcovers, covers_cons (r := last)]
      · exact List.pairwise_cons.mpr
          ⟨fun r' hr' => (not_lt.mp happart).trans (hstart r' hr'), hsep⟩
      · rcases List.mem_cons.mp hr' with rfl | hr'
        · exact le_rfl
        · exact hle.trans (hstart r' hr')

/-- Merging keeps the union. -/
theorem covers_merge {rs : List (HalfOpen K)} (h : Ascending rs) (x : K) :
    Covers (merge rs) x ↔ Covers rs x := by
  cases rs with
  | nil => exact Iff.rfl
  | cons r rs => exact (mergeFrom_spec h).1 x

theorem separated_merge {rs : List (HalfOpen K)} (h : Ascending rs) : Separated (merge rs) := by
  cases rs with
  | nil => exact List.Pairwise.nil
  | cons r rs => exact (mergeFrom_spec h).2.1

/-- The first interval keeps its start, and loses nothing. -/
theorem head_mergeFrom (last : HalfOpen K) (rs : List (HalfOpen K)) :
    ∃ stop, last.stop ≤ stop ∧ (mergeFrom last rs).head? = some ⟨last.start, stop⟩ := by
  induction rs generalizing last with
  | nil => exact ⟨last.stop, le_rfl, rfl⟩
  | cons r rs ih =>
    unfold mergeFrom
    split
    · obtain ⟨stop, hle, hhead⟩ := ih ⟨last.start, max last.stop r.stop⟩
      exact ⟨stop, (le_max_left _ _).trans hle, hhead⟩
    · exact ⟨last.stop, le_rfl, rfl⟩

/-- Bounds on the list are bounds on the result. -/
theorem within_mergeFrom {lo hi : K} {last : HalfOpen K} {rs : List (HalfOpen K)}
    (h : ∀ r ∈ last :: rs, lo ≤ r.start ∧ r.start ≤ r.stop ∧ r.stop ≤ hi) :
    ∀ r ∈ mergeFrom last rs, lo ≤ r.start ∧ r.start ≤ r.stop ∧ r.stop ≤ hi := by
  induction rs generalizing last with
  | nil => exact h
  | cons r rs ih =>
    obtain ⟨⟨hlo, hle, hhi⟩, hrs⟩ := List.forall_mem_cons.mp h
    obtain ⟨hr, hrest⟩ := List.forall_mem_cons.mp hrs
    unfold mergeFrom
    split
    · refine ih (List.forall_mem_cons.mpr ⟨⟨hlo, ?_, ?_⟩, hrest⟩)
      · exact hle.trans (le_max_left _ _)
      · exact max_le hhi hr.2.2
    · exact List.forall_mem_cons.mpr ⟨⟨hlo, hle, hhi⟩, ih hrs⟩

theorem within_merge {lo hi : K} {rs : List (HalfOpen K)}
    (h : ∀ r ∈ rs, lo ≤ r.start ∧ r.start ≤ r.stop ∧ r.stop ≤ hi) :
    ∀ r ∈ merge rs, lo ≤ r.start ∧ r.start ≤ r.stop ∧ r.stop ≤ hi := by
  cases rs with
  | nil => exact h
  | cons r rs => exact within_mergeFrom h

/-! ### What is left free -/

/-- What is free from `lastEnd` on, up to `bound`. -/
def gapsFrom (lastEnd bound : K) : List (HalfOpen K) → List (HalfOpen K)
  | [] => if lastEnd < bound then [⟨lastEnd, bound⟩] else []
  | r :: rs =>
    (if lastEnd < r.start then [⟨lastEnd, r.start⟩] else []) ++ gapsFrom r.stop bound rs

theorem covers_ite {a b x : K} :
    Covers (if a < b then [⟨a, b⟩] else []) x ↔ a ≤ x ∧ x < b := by
  split
  · rw [covers_cons]
    simp [Contains]
  · next hnot =>
    refine iff_of_false (covers_nil x) fun h => hnot (h.1.trans_lt h.2)

/-- The gaps between separated intervals are what the intervals do not cover. -/
theorem covers_gapsFrom {lastEnd bound : K} {rs : List (HalfOpen K)} (hsep : Separated rs)
    (hrs : ∀ r ∈ rs, lastEnd ≤ r.start ∧ r.start ≤ r.stop ∧ r.stop ≤ bound) {x : K} :
    Covers (gapsFrom lastEnd bound rs) x ↔ lastEnd ≤ x ∧ x < bound ∧ ¬ Covers rs x := by
  induction rs generalizing lastEnd with
  | nil =>
    rw [gapsFrom, covers_ite]
    simp
  | cons r rs ih =>
    obtain ⟨hr, hsep⟩ := List.pairwise_cons.mp hsep
    obtain ⟨hstart, hle, hbound⟩ := hrs r List.mem_cons_self
    have hrest := ih hsep fun r' hr' =>
      ⟨hr r' hr', (hrs r' (List.mem_cons_of_mem _ hr')).2⟩
    rw [gapsFrom, covers_append, covers_ite, hrest, covers_cons]
    constructor
    · rintro (⟨hx, hlt⟩ | ⟨hx, hlt, hnot⟩)
      · -- in front of `r`, and so of all others
        refine ⟨hx, hlt.trans_le (hle.trans hbound), ?_⟩
        rintro (⟨hin, -⟩ | ⟨r', hr', hin, -⟩)
        · exact absurd hlt (not_lt.mpr hin)
        · exact absurd (hlt.trans_le (hle.trans (hr r' hr'))) (not_lt.mpr hin)
      · -- behind `r`
        refine ⟨hstart.trans (hle.trans hx), hlt, ?_⟩
        rintro (⟨-, hin⟩ | hcovers)
        · exact absurd hin (not_lt.mpr hx)
        · exact hnot hcovers
    · rintro ⟨hx, hlt, hnot⟩
      obtain ⟨hout, hnot⟩ := not_or.mp hnot
      rcases lt_or_ge x r.start with hbefore | hafter
      · exact Or.inl ⟨hx, hbefore⟩
      · exact Or.inr ⟨not_lt.mp fun hin => hout ⟨hafter, hin⟩, hlt, hnot⟩

end HalfOpen

/-! ### Arcs -/

namespace Arc

/-- On a circle of `n` points, going up from `a`, `x` comes before `b`. -/
def InArc (n a b x : ℤ) : Prop := (x - a) % n < (b - a) % n

instance (n a b x : ℤ) : Decidable (InArc n a b x) := inferInstanceAs (Decidable (_ < _))

/-- An arc depends on the residues of its ends. -/
theorem inArc_emod (n a b x : ℤ) : InArc n (a % n) (b % n) x ↔ InArc n a b x := by
  unfold InArc
  rw [Int.sub_emod_emod, Int.sub_emod_emod, Int.emod_sub_emod]

/-- An arc, cut at 0. -/
theorem inArc_iff {n a b x : ℤ} (ha : 0 ≤ a ∧ a < n) (hb : 0 ≤ b ∧ b < n)
    (hx : 0 ≤ x ∧ x < n) :
    InArc n a b x ↔ if b < a then a ≤ x ∨ x < b else a ≤ x ∧ x < b := by
  -- a difference below 0 is one turn short
  have hmod : ∀ y : ℤ, 0 ≤ y ∧ y < n → (y - a) % n = if y < a then y - a + n else y - a := by
    intro y hy
    split
    · rw [← Int.add_emod_right, Int.emod_eq_of_lt] <;> omega
    · rw [Int.emod_eq_of_lt] <;> omega
  unfold InArc
  rw [hmod x hx, hmod b hb]
  split <;> split <;> omega

end Arc
