import WtbAutoware.Gateway.Node

/-!
# Cancels that do not arrive

Three things are to cancel the navigation: a request that disables the gateway, a
message on the cancel topic, and a client's cancel of its goal. Each is lost, in its
own way.

* Disabling hands `cancel_navigation` to a future that is never completed, and even then the
  call would not be awaited.
* A cancel message does run `cancel_navigation`, but `is_navigation_active` looks up
  `STATUS_PENDING`, which `GoalStatus` does not have. On the first entry of a status
  list it raises, and the error is caught (`scanStatuses_ne_true`).
* A client's cancel is accepted, and `handle_action_goal` never asks about it.

So no step of any run sends a cancel (`no_cancel_step`), and whichever trigger comes,
nothing it leads to does (`cancels_arrive_iff`).
-/

namespace WtbAutoware
namespace Gateway

open Reactive

variable {P : Type}

/-- A cancel that Navigation2 receives. -/
def Output.IsCancel : Output P → Prop
  | .cancelGoal _ => True
  | .cancelForwarded _ => True
  | _ => False

/-- The cached status list contains a goal that is accepted or executing. -/
def NavigationActive (s : State P) : Prop :=
  ∃ statusList, s.navStatus = some statusList ∧ ∃ status ∈ statusList, status = 1 ∨ status = 2

/-- The event is to cancel the navigation: a disable request, a cancel message, or a
client's cancel of a goal that has been forwarded. -/
def CancelTrigger (s : State P) : Event P → Prop
  | .enableRequest data => data = false
  | .cancelMsg => True
  | .cancelRequest n => ∃ g, s.goals[n]? = some g ∧ (g.stage = .sent ∨ g.stage = .running)
  | _ => False

/-- A cancel is sent while `e` is handled after `pre`, or at least in some course of
events after it. -/
def CancelSent (pre : List (Event P)) (e : Event P) : Prop :=
  ∃ post, ∃ o ∈ navigationGateway.traceFrom (stateAfter pre) (e :: post), o.IsCancel

/-- Every cancel that comes while a goal is accepted or executing reaches Navigation2. -/
def CancelsArrive (es : List (Event P)) : Prop :=
  ∀ pre e post, es = pre ++ e :: post → NavigationActive (stateAfter pre) →
    CancelTrigger (stateAfter pre) e → CancelSent pre e

/-- No status list is found active: an empty one has no active goal, and any other raises
on its first entry. -/
theorem scanStatuses_ne_true (statusList : List (BitVec 8)) :
    scanStatuses statusList ≠ .ok true := by
  cases statusList with
  | nil => simp [scanStatuses]
  | cons status rest =>
    have hraise : scanStatuses (status :: rest) = .error (.attributeError "STATUS_PENDING") := rfl
    rw [hraise]
    simp

theorem cancelNavigation_eq_nil (s : State P) : cancelNavigation s = [] := by
  unfold cancelNavigation
  split
  · next hactive =>
    -- the one branch that would send the request
    unfold isNavigationActive at hactive
    split at hactive
    · exact absurd hactive (by simp)
    · exact absurd hactive (scanStatuses_ne_true _)
  · rfl
  · rfl

/-- **No step sends a cancel.** -/
theorem no_cancel_step (s : State P) (e : Event P) : ∀ o ∈ (step s e).2, ¬ o.IsCancel := by
  intro o ho hcancel
  rcases step_out_cases ho with ⟨msg, -, -, rfl⟩ | ⟨n, pose, -, -, rfl⟩ | ⟨-, hsent⟩ | hanswer
  · exact hcancel.elim
  · exact hcancel.elim
  · -- the one step that could, and `cancel_navigation` sends nothing in it
    rw [cancelNavigation_eq_nil] at hsent
    exact absurd hsent List.not_mem_nil
  · cases o <;> first | exact hcancel.elim | exact hanswer.elim

theorem not_cancelSent (pre : List (Event P)) (e : Event P) : ¬ CancelSent pre e := by
  rintro ⟨post, o, ho, hcancel⟩
  refine navigationGateway.traceFrom_forall (I := fun _ => True) (G := fun o => ¬ o.IsCancel)
    ?_ trivial o ho hcancel
  intro s e' _ _
  exact ⟨trivial, no_cancel_step s e'⟩

/-- **Cancels do not arrive.** A run in which every cancel reaches Navigation2 is one
without a cancel that it should reach with: whichever of the three triggers comes while
a goal is accepted or executing, no cancel is sent, whatever happens afterwards. -/
theorem cancels_arrive_iff (es : List (Event P)) :
    CancelsArrive es ↔
      ∀ pre e post, es = pre ++ e :: post → NavigationActive (stateAfter pre) →
        ¬ CancelTrigger (stateAfter pre) e := by
  refine ⟨?_, ?_⟩
  · intro h pre e post hes hactive htrigger
    exact not_cancelSent pre e (h pre e post hes hactive htrigger)
  · intro h pre e post hes hactive htrigger
    exact absurd htrigger (h pre e post hes hactive)

/-- A goal is forwarded, accepted by Navigation2 and reported as executing. -/
def drivingGoal : List (Event ℕ) :=
  [.goalRequest 7, .executeGoal 0, .sendGoalAnswer 0 true, .statusMsg [2]]

/-- Each of the three triggers is lost on it. -/
theorem drivingGoal_not_cancelled :
    ¬ CancelsArrive (drivingGoal ++ [.enableRequest false]) ∧
      ¬ CancelsArrive (drivingGoal ++ [.cancelMsg]) ∧
      ¬ CancelsArrive (drivingGoal ++ [.cancelRequest 0]) := by
  have hactive : NavigationActive (stateAfter drivingGoal) :=
    ⟨[2], rfl, 2, List.mem_singleton.mpr rfl, Or.inr rfl⟩
  have hlost (e : Event ℕ) (htrigger : CancelTrigger (stateAfter drivingGoal) e) :
      ¬ CancelsArrive (drivingGoal ++ [e]) := fun h =>
    not_cancelSent drivingGoal e (h drivingGoal e [] rfl hactive htrigger)
  exact ⟨hlost _ rfl, hlost _ trivial, hlost _ ⟨⟨7, .running⟩, rfl, Or.inr rfl⟩⟩

end Gateway
end WtbAutoware
