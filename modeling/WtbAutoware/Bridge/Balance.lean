import WtbAutoware.Bridge.Node

/-!
# Opening and closing the adapter

`VCI_OpenDevice` opens the adapter when it returns 1, and `VCI_CloseDevice` closes it.
The law is a balance (`NeverLeaks`): from the constructor on, after every step, the
adapter has been opened once more than it has been closed if `can_f` is set, and as
often if it is clear.

Nothing in the bridge calls `Can_close`, so the balance is lost for good as soon as
`can_f` is cleared after the adapter was opened: when `Init_Can` fails in one of the
four calls behind `VCI_OpenDevice`, and when the first `VCI_Receive` of a poll finds
the adapter gone. The next poll opens it again. `balance_step_iff` says that these are
the only steps that lose the balance, and `neverLeaks_iff` says the same of runs.
-/

namespace WtbAutoware
namespace Bridge

open Reactive

/-- How many times more the calls have opened the adapter than closed it. -/
def balance (cs : List VciCall) : ℤ := cs.count (.openDevice 1) - cs.count .closeDevice

/-- What the balance is to be. -/
def State.link (s : State) : ℤ := if s.canF = true then 1 else 0

variable {K : Type} (overrun : VciCanObj → Vector (BitVec 8) 8)

/-- From the constructor on, the balance has been what `can_f` says. -/
def NeverLeaks (r₀ : InitReturns) (es : List (Event K)) : Prop :=
  ∀ pre post, es = pre ++ post →
    balance (calls (log overrun r₀ pre)) = (stateAfter overrun r₀ pre).link

/-- `Init_Can` fails at the very first call, or not at all. -/
def CleanInit (r : InitReturns) : Prop := r.openDevice ≠ 1 ∨ r.Succeeds

/-- A step that keeps the balance: a retry is clean, and a poll of an open adapter does
not find it gone. -/
def CleanAt (s : State) : Event K → Prop
  | .poll p => if s.canF = false then CleanInit p.init else p.recv1.ret.toInt ≠ -1
  | _ => True

/-- `CleanAt`, along a run. -/
def CleanStep (r₀ : InitReturns) (pre : List (Event K)) (e : Event K) : Prop :=
  CleanAt (stateAfter overrun r₀ pre) e

@[simp] theorem balance_nil : balance [] = 0 := rfl

theorem balance_append (cs cs' : List VciCall) :
    balance (cs ++ cs') = balance cs + balance cs' := by
  unfold balance
  rw [List.count_append, List.count_append]
  push_cast
  ring

/-- What `Init_Can` adds to the balance: one, if the device was opened at all. -/
theorem balance_initCan (s : State) (r : InitReturns) :
    balance (initCan s r).2 = if r.openDevice = 1 then 1 else 0 := by
  rcases initCan_cases s r with ⟨hall, heq⟩ | ⟨-, -, rest, heq, hrest⟩
  · rw [heq, if_pos hall.1]
    rfl
  · rw [heq]
    -- nothing behind the first call opens or closes
    have hopen : rest.count (.openDevice 1) = 0 :=
      List.count_eq_zero.mpr fun hmem => (hrest _ hmem).2 1 rfl
    have hclose : rest.count .closeDevice = 0 :=
      List.count_eq_zero.mpr fun hmem => (hrest _ hmem).1 rfl
    have hne : VciCall.openDevice r.openDevice ≠ .closeDevice := by simp
    unfold balance
    rw [List.count_cons_of_ne hne, hclose]
    by_cases h : r.openDevice = 1
    · rw [if_pos h, h, List.count_cons_self, hopen]
      rfl
    · have hfail : VciCall.openDevice r.openDevice ≠ .openDevice 1 :=
        fun heq => h (VciCall.openDevice.inj heq)
      rw [if_neg h, List.count_cons_of_ne hfail, hopen]
      rfl

/-- `Init_Can` leaves the balance of a closed adapter right exactly if it is clean. -/
theorem balance_initCan_iff (s : State) (r : InitReturns) :
    balance (initCan s r).2 = (initCan s r).1.link ↔ CleanInit r := by
  rw [balance_initCan]
  rcases initCan_cases s r with ⟨hall, heq⟩ | ⟨hfail, hstate, -⟩
  · rw [heq, if_pos hall.1]
    exact iff_of_true rfl (Or.inr hall)
  · rw [hstate]
    by_cases hopen : r.openDevice = 1
    · -- opened, and given up later
      rw [if_pos hopen]
      refine iff_of_false (by decide) ?_
      rintro (h | h)
      · exact h hopen
      · exact hfail h
    · rw [if_neg hopen]
      exact iff_of_true rfl (Or.inl hopen)

/-- **One step.** The balance is kept by the clean steps alone. -/
theorem balance_step_iff (s : State) (e : Event K) :
    s.link + balance (calls (step overrun s e).2) = (step overrun s e).1.link ↔ CleanAt s e := by
  cases e with
  | poll p =>
    change s.link + balance (calls (canReceiveParse overrun s p).2) =
      (canReceiveParse overrun s p).1.link ↔ _
    unfold CleanAt
    dsimp only
    rcases poll_cases overrun s p with ⟨hcan, heq⟩ | ⟨hcan, hoff, heq⟩ | ⟨hcan, hon, heq⟩
    · have hlink : s.link = 0 := by rw [State.link, hcan]; rfl
      rw [heq, if_pos hcan, calls_map_call, hlink, zero_add]
      exact balance_initCan_iff s p.init
    · -- `can_f` is cleared, and the device stays open
      have hlink : s.link = 1 := by rw [State.link, hcan]; rfl
      rw [heq, if_neg (by rw [hcan]; decide), hlink]
      exact iff_of_false (by simp [balance, State.link]) (not_not.mpr hoff)
    · rw [heq, if_neg (by rw [hcan]; decide), calls_pollOut]
      exact iff_of_true (by simp [balance]) hon
  | canRx1 msg => exact iff_of_true (by simp [step, canRxCallback1, balance]) trivial
  | canRx2 msg => exact iff_of_true (by simp [step, canRxCallback2, balance]) trivial

/-- **The balance of a run.** It holds from the constructor to the end exactly if the
constructor's `Init_Can` and every retry either fail at `VCI_OpenDevice` or succeed
throughout, and no poll of an open adapter finds it gone on the first channel. -/
theorem neverLeaks_iff (r₀ : InitReturns) (es : List (Event K)) :
    NeverLeaks overrun r₀ es ↔ CleanInit r₀ ∧ Each (CleanStep overrun r₀) es := by
  have hconcat (pre : List (Event K)) (e : Event K) :
      balance (calls (log overrun r₀ (pre ++ [e]))) = balance (calls (log overrun r₀ pre)) +
        balance (calls (step overrun (stateAfter overrun r₀ pre) e).2) := by
    rw [log_concat, calls_append, balance_append]
  have hinit : balance (calls (log overrun r₀ ([] : List (Event K)))) =
      (stateAfter overrun r₀ ([] : List (Event K))).link ↔ CleanInit r₀ := by
    rw [log_nil, calls_map_call]
    exact balance_initCan_iff ⟨false⟩ r₀
  refine ⟨?_, ?_⟩
  · intro h
    refine ⟨hinit.mp (h [] es rfl), ?_⟩
    rintro pre e post rfl
    -- the balance is right in front of the step and behind it
    have hafter := h (pre ++ [e]) post (by simp)
    rw [hconcat, h pre (e :: post) rfl, stateAfter_concat] at hafter
    exact (balance_step_iff overrun _ e).mp hafter
  · rintro ⟨hclean, heach⟩ pre post rfl
    refine run_induction (I := fun pre => balance (calls (log overrun r₀ pre)) =
      (stateAfter overrun r₀ pre).link) (hinit.mpr hclean) ?_ heach.left
    intro pre e _ h hstep
    rw [hconcat, h, stateAfter_concat]
    exact (balance_step_iff overrun _ e).mpr hstep

/-- The first channel cannot be initialised when the node starts: the device stays
open, and the next poll opens it once more. -/
theorem failedInit_leaks :
    ¬ NeverLeaks (K := ℚ) (fun o => o.data) ⟨1, 0, 1, 1, 1⟩ [] ∧
      ∀ p : Poll ℚ, p.init = ⟨1, 1, 1, 1, 1⟩ →
        (calls (log (fun o => o.data) ⟨1, 0, 1, 1, 1⟩ [.poll p])).count (.openDevice 1) = 2 := by
  refine ⟨?_, ?_⟩
  · intro h
    have hzero := h [] [] rfl
    revert hzero
    decide
  · intro p hp
    rw [← List.nil_append [Event.poll p], log_concat, log_nil]
    change (calls (_ ++ (canReceiveParse _ ⟨false⟩ p).2)).count _ = 2
    rcases poll_cases (fun o => o.data) ⟨false⟩ p with ⟨-, heq⟩ | ⟨hcan, -⟩ | ⟨hcan, -⟩
    · rw [heq, calls_append, calls_map_call, calls_map_call, hp]
      decide
    · exact absurd hcan (by decide)
    · exact absurd hcan (by decide)

end Bridge
end WtbAutoware
