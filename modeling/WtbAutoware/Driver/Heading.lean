import WtbAutoware.Driver.Node
import WtbAutoware.Framework.While

/-!
# The heading

`normalizeAngle` takes full turns off an angle until it is at most `M_PI`, and adds full
turns until it is at least `-M_PI`. Only one of the two loops ever runs. From above
`-M_PI` the result is the representative in `(-M_PI, M_PI]` (`normalizeAngle_of_gt`), from
below `M_PI` the one in `[-M_PI, M_PI)` (`normalizeAngle_of_lt`); Mathlib's `toIocMod` and
`toIcoMod` are these.

* `normalizeAngle_bounds`, `normalizeAngle_congr` — the result is in range, and a whole
  number of turns away.
* `executes_iff` — the loops themselves, round by round: from every angle both stop, after
  as many rounds as there are turns in what the angle is out of range (`turns`), and leave
  `normalizeAngle`. `normalizeAngle_total` is what their runs have in common.
* `normalizeAngle_add` — an angle may be normalised in between, as long as it goes on in
  the same direction. Where the sum ends on a half turn the direction decides between the
  two ends of the range, so turning back is another matter.
-/

namespace WtbAutoware
namespace Driver

open While (Rounds)

variable {K : Type} [Field K] [LinearOrder K] [IsStrictOrderedRing K] [FloorRing K]
  (pf : Platform K)

omit [FloorRing K] in
/-- A full turn. -/
theorem turn_pos : 0 < 2 * pf.pi := mul_pos two_pos pf.pi_pos

omit [IsStrictOrderedRing K] [FloorRing K] in
theorem neg_pi_add_turn : -pf.pi + 2 * pf.pi = pf.pi := by ring

section Loops

variable {pf} {x : K}

theorem wrapDown_of_le (h : x ≤ pf.pi) : wrapDown pf x = x := by
  rw [wrapDown, if_neg (not_lt.mpr h)]

theorem wrapUp_of_le (h : -pf.pi ≤ x) : wrapUp pf x = x := by
  rw [wrapUp, if_neg (not_lt.mpr h)]

/-- The first loop ends in `(-M_PI, M_PI]`, if it starts above. -/
theorem wrapDown_eq (h : -pf.pi < x) : wrapDown pf x = toIocMod (turn_pos pf) (-pf.pi) x := by
  induction x using wrapDown.induct pf with
  | case1 x hx ih =>
    -- one round takes a full turn off, and stays above
    have hround : -pf.pi < x - 2 * pf.pi := by linarith
    rw [wrapDown, if_pos hx, ih hround, toIocMod_sub]
  | case2 x hx =>
    have hmem : x ∈ Set.Ioc (-pf.pi) (-pf.pi + 2 * pf.pi) := by
      rw [neg_pi_add_turn]
      exact ⟨h, not_lt.mp hx⟩
    rw [wrapDown, if_neg hx, (toIocMod_eq_self (turn_pos pf)).mpr hmem]

/-- The second loop ends in `[-M_PI, M_PI)`, if it starts below. -/
theorem wrapUp_eq (h : x < pf.pi) : wrapUp pf x = toIcoMod (turn_pos pf) (-pf.pi) x := by
  induction x using wrapUp.induct pf with
  | case1 x hx ih =>
    have hround : x + 2 * pf.pi < pf.pi := by linarith
    rw [wrapUp, if_pos hx, ih hround, toIcoMod_add_right]
  | case2 x hx =>
    have hmem : x ∈ Set.Ico (-pf.pi) (-pf.pi + 2 * pf.pi) := by
      rw [neg_pi_add_turn]
      exact ⟨not_lt.mp hx, h⟩
    rw [wrapUp, if_neg hx, (toIcoMod_eq_self (turn_pos pf)).mpr hmem]

/-- **From above.** -/
theorem normalizeAngle_of_gt (h : -pf.pi < x) :
    normalizeAngle pf x = toIocMod (turn_pos pf) (-pf.pi) x := by
  have hlo := (toIocMod_mem_Ioc (turn_pos pf) (-pf.pi) x).1
  unfold normalizeAngle
  rw [wrapDown_eq h, wrapUp_of_le hlo.le]

/-- **From below.** -/
theorem normalizeAngle_of_lt (h : x < pf.pi) :
    normalizeAngle pf x = toIcoMod (turn_pos pf) (-pf.pi) x := by
  unfold normalizeAngle
  rw [wrapDown_of_le h.le, wrapUp_eq h]

/-- An angle in range is left alone, at both ends. -/
theorem normalizeAngle_of_mem (hlo : -pf.pi ≤ x) (hhi : x ≤ pf.pi) : normalizeAngle pf x = x := by
  unfold normalizeAngle
  rw [wrapDown_of_le hhi, wrapUp_of_le hlo]

end Loops

section Spec

variable (x : K)

/-- Every angle is above `-M_PI` or below `M_PI`. -/
theorem normalizeAngle_cases :
    (-pf.pi < x ∧ normalizeAngle pf x = toIocMod (turn_pos pf) (-pf.pi) x) ∨
      (x < pf.pi ∧ normalizeAngle pf x = toIcoMod (turn_pos pf) (-pf.pi) x) := by
  rcases lt_or_ge (-pf.pi) x with h | h
  · exact Or.inl ⟨h, normalizeAngle_of_gt h⟩
  · have hlt : x < pf.pi := h.trans_lt (neg_lt_self pf.pi_pos)
    exact Or.inr ⟨hlt, normalizeAngle_of_lt hlt⟩

theorem normalizeAngle_bounds : -pf.pi ≤ normalizeAngle pf x ∧ normalizeAngle pf x ≤ pf.pi := by
  rcases normalizeAngle_cases pf x with ⟨-, heq⟩ | ⟨-, heq⟩
  · obtain ⟨hlo, hhi⟩ := toIocMod_mem_Ioc (turn_pos pf) (-pf.pi) x
    rw [heq]
    exact ⟨hlo.le, hhi.trans (neg_pi_add_turn pf).le⟩
  · obtain ⟨hlo, hhi⟩ := toIcoMod_mem_Ico (turn_pos pf) (-pf.pi) x
    rw [heq]
    exact ⟨hlo, hhi.le.trans (neg_pi_add_turn pf).le⟩

/-- The result is a whole number of turns away. -/
theorem normalizeAngle_congr : ∃ n : ℤ, normalizeAngle pf x = x + n * (2 * pf.pi) := by
  rcases normalizeAngle_cases pf x with ⟨-, heq⟩ | ⟨-, heq⟩
  · refine ⟨-toIocDiv (turn_pos pf) (-pf.pi) x, ?_⟩
    have hsub := toIocMod_sub_self_eq_mul (turn_pos pf) (-pf.pi) x
    rw [heq]
    push_cast
    linarith
  · refine ⟨-toIcoDiv (turn_pos pf) (-pf.pi) x, ?_⟩
    have hsub := toIcoMod_sub_self_eq_mul (turn_pos pf) (-pf.pi) x
    rw [heq]
    push_cast
    linarith

end Spec

/-! ### Round by round -/

section Rounds

/-- `normalizeAngle` as it runs: its first loop goes `down` rounds and its second `up` rounds,
and `result` is what they leave of the angle. -/
def Executes (angle : K) (down up : ℕ) (result : K) : Prop :=
  ∃ between,
    Rounds (fun a => pf.pi < a) (fun a => a - 2 * pf.pi) down angle between ∧
      Rounds (fun a => a < -pf.pi) (fun a => a + 2 * pf.pi) up between result

/-- The rounds that take the excess `y` over an end of the range away. -/
def turns (y : K) : ℕ := ⌈y / (2 * pf.pi)⌉₊

theorem turns_pos_iff (y : K) : 0 < turns pf y ↔ 0 < y := by
  unfold turns
  rw [Nat.ceil_pos, div_pos_iff_of_pos_right (turn_pos pf)]

/-- A round takes one off. -/
theorem turns_sub {y : K} (hy : 0 < y) : turns pf (y - 2 * pf.pi) + 1 = turns pf y := by
  have hpos : 0 < turns pf y := (turns_pos_iff pf y).mpr hy
  unfold turns at hpos ⊢
  rw [sub_div, div_self (turn_pos pf).ne', Nat.ceil_sub_one, Nat.sub_add_cancel hpos]

/-- A loop that goes on while there is an excess, and takes a turn off it, stops. -/
theorem exists_rounds {cond : K → Prop} {body : K → K} (excess : K → K)
    (hcond : ∀ a, cond a ↔ 0 < excess a) (hbody : ∀ a, excess (body a) = excess a - 2 * pf.pi)
    (x : K) : ∃ t, Rounds cond body (turns pf (excess x)) x t := by
  refine Rounds.of_countdown (fun a => turns pf (excess a)) (fun a => ?_) (fun a ha => ?_) x
  · rw [hcond, turns_pos_iff]
  · rw [hbody, turns_sub pf ((hcond a).mp ha)]

/-- The first loop. -/
theorem rounds_wrapDown (x : K) :
    Rounds (fun a => pf.pi < a) (fun a => a - 2 * pf.pi) (turns pf (x - pf.pi)) x
      (wrapDown pf x) := by
  obtain ⟨t, ht⟩ : ∃ t, Rounds (fun a => pf.pi < a) (fun a => a - 2 * pf.pi) _ x t :=
    exists_rounds pf (fun a => a - pf.pi) (fun a => sub_pos.symm) (fun a => sub_right_comm ..) x
  have heq : t = wrapDown pf x := ht.eq_of_equation fun a => by rw [wrapDown]
  exact heq ▸ ht

/-- The second loop. -/
theorem rounds_wrapUp (x : K) :
    Rounds (fun a => a < -pf.pi) (fun a => a + 2 * pf.pi) (turns pf (-pf.pi - x)) x
      (wrapUp pf x) := by
  obtain ⟨t, ht⟩ : ∃ t, Rounds (fun a => a < -pf.pi) (fun a => a + 2 * pf.pi) _ x t :=
    exists_rounds pf (fun a => -pf.pi - a) (fun a => sub_pos.symm) (fun a => (sub_sub ..).symm) x
  have heq : t = wrapUp pf x := ht.eq_of_equation fun a => by rw [wrapUp]
  exact heq ▸ ht

/-- **How it runs.** There is one execution from every angle. -/
theorem executes_iff {angle result : K} {down up : ℕ} :
    Executes pf angle down up result ↔
      down = turns pf (angle - pf.pi) ∧ up = turns pf (-pf.pi - wrapDown pf angle) ∧
        result = normalizeAngle pf angle := by
  refine ⟨?_, ?_⟩
  · rintro ⟨between, hdown, hup⟩
    obtain ⟨rfl, rfl⟩ := hdown.unique (rounds_wrapDown pf angle)
    obtain ⟨rfl, rfl⟩ := hup.unique (rounds_wrapUp pf (wrapDown pf angle))
    exact ⟨rfl, rfl, rfl⟩
  · rintro ⟨rfl, rfl, rfl⟩
    exact ⟨wrapDown pf angle, rounds_wrapDown pf angle, rounds_wrapUp pf _⟩

/-- Where the first loop runs, it stays above `-M_PI`, so the second one has nothing to undo. -/
theorem turns_wrapDown {x : K} (h : turns pf (-pf.pi - wrapDown pf x) ≠ 0) :
    turns pf (x - pf.pi) = 0 := by
  by_contra hdown
  have habove : pf.pi < x := sub_pos.mp ((turns_pos_iff pf _).mp (Nat.pos_of_ne_zero hdown))
  have hbelow : wrapDown pf x < -pf.pi :=
    sub_pos.mp ((turns_pos_iff pf _).mp (Nat.pos_of_ne_zero h))
  rw [wrapDown_eq ((neg_lt_self pf.pi_pos).trans habove)] at hbelow
  exact lt_asymm hbelow (toIocMod_mem_Ioc (turn_pos pf) (-pf.pi) x).1

/-- A run of the two loops that normalises the angle. -/
structure Normalizes (angle : K) (down up : ℕ) (result : K) : Prop where
  /-- The result is in range. -/
  bounds : -pf.pi ≤ result ∧ result ≤ pf.pi
  /-- It is a whole number of turns away. -/
  congr : ∃ n : ℤ, result = angle + n * (2 * pf.pi)
  /-- An angle in range is left alone. -/
  of_mem : -pf.pi ≤ angle → angle ≤ pf.pi → result = angle
  /-- The second loop runs only if the first did not. -/
  one_loop : up ≠ 0 → down = 0

/-- **A total normaliser.** From every angle both loops stop, and however they have run, the
result is that of `normalizeAngle`, and normalises the angle. -/
theorem normalizeAngle_total (angle : K) :
    (∃ down up result, Executes pf angle down up result) ∧
      ∀ down up result, Executes pf angle down up result →
        result = normalizeAngle pf angle ∧ Normalizes pf angle down up result := by
  refine ⟨⟨_, _, _, (executes_iff pf).mpr ⟨rfl, rfl, rfl⟩⟩, ?_⟩
  intro down up result h
  obtain ⟨rfl, rfl, rfl⟩ := (executes_iff pf).mp h
  exact ⟨rfl,
    { bounds := normalizeAngle_bounds pf angle
      congr := normalizeAngle_congr pf angle
      of_mem := normalizeAngle_of_mem
      one_loop := turns_wrapDown pf }⟩

/-- From 7, over the reals. -/
theorem normalizeAngle_total_seven :
    (∃ down up result, Executes Platform.x86 7 down up result) ∧
      ∀ down up result, Executes Platform.x86 7 down up result →
        result = normalizeAngle Platform.x86 7 ∧ Normalizes Platform.x86 7 down up result :=
  normalizeAngle_total Platform.x86 7

end Rounds

/-- **Normalising in between.** From an angle in range, two changes in the same direction
may be normalised one by one. -/
theorem normalizeAngle_add {θ d e : K} (hlo : -pf.pi ≤ θ) (hhi : θ ≤ pf.pi) (hde : 0 ≤ d * e) :
    normalizeAngle pf (normalizeAngle pf (θ + d) + e) = normalizeAngle pf (θ + d + e) := by
  obtain ⟨hmlo, hmhi⟩ := normalizeAngle_bounds pf (θ + d)
  obtain ⟨n, hn⟩ := normalizeAngle_congr pf (θ + d)
  rcases lt_trichotomy e 0 with he | rfl | he
  · -- downwards: everything stays below `M_PI`
    have hd : d ≤ 0 := by
      by_contra hd
      exact absurd hde (not_le.mpr (mul_neg_of_pos_of_neg (not_le.mp hd) he))
    rw [normalizeAngle_of_lt (x := normalizeAngle pf (θ + d) + e) (by linarith),
      normalizeAngle_of_lt (x := θ + d + e) (by linarith), toIcoMod_eq_toIcoMod]
    refine ⟨-n, ?_⟩
    rw [hn, zsmul_eq_mul]
    push_cast
    ring
  · -- nothing is added
    rw [add_zero, add_zero]
    exact normalizeAngle_of_mem hmlo hmhi
  · -- upwards: everything stays above `-M_PI`
    have hd : 0 ≤ d := by
      by_contra hd
      exact absurd hde (not_le.mpr (mul_neg_of_neg_of_pos (not_le.mp hd) he))
    rw [normalizeAngle_of_gt (x := normalizeAngle pf (θ + d) + e) (by linarith),
      normalizeAngle_of_gt (x := θ + d + e) (by linarith), toIocMod_eq_toIocMod]
    refine ⟨-n, ?_⟩
    rw [hn, zsmul_eq_mul]
    push_cast
    ring

end Driver
end WtbAutoware
