import WtbAutoware.Platform
import WtbAutoware.Framework.Machine

/-!
# The navigation gateway `qt_nav2`

`NavigationGateway` stands between the operator's goals and Navigation2. Goals come
in on two ways, as poses on a topic and as requests to an action server, and are
passed on while the gateway is enabled; a service switches it on and off, and on
disabling it is to cancel what is going on.

Its callbacks run on four threads. A callback is one step, and an `async` callback is
one step for each stretch between two `await`s, so that an action goal passes through
four: the request is accepted (`handleGoalRequest`), the server starts to execute it
(`handleActionGoal`), Navigation2 answers (`sendGoalAnswered`), and the result arrives
(`resultArrived`). Accepted goals are numbered in the order of their acceptance.

Three things of Python and `rclpy` decide what becomes of a cancel. A `Future` runs
its callbacks when it is completed; a call of an `async` method that is not awaited
does nothing (`callAsync`); and looking up an attribute that is not there raises an
error (`goalStatusAttr`), which `cancel_navigation` catches.

The log and the feedback of Navigation2, which is only logged, are not modelled.

What a step can send is said once (`step_out_cases`), and so is what it leaves alone
(`step_frame`) and what it makes of the goals that wait (`pending_step`).
-/

namespace WtbAutoware
namespace Gateway

open Reactive

/-! ### Python -/

/-- The errors that the gateway's own code can raise. -/
inductive PyError where
  | attributeError (name : String)
  deriving DecidableEq

/-- The class attributes of `action_msgs/GoalStatus`. -/
def goalStatusAttr (name : String) : Except PyError (BitVec 8) :=
  if name = "STATUS_UNKNOWN" then .ok 0
  else if name = "STATUS_ACCEPTED" then .ok 1
  else if name = "STATUS_EXECUTING" then .ok 2
  else if name = "STATUS_CANCELING" then .ok 3
  else if name = "STATUS_SUCCEEDED" then .ok 4
  else if name = "STATUS_CANCELED" then .ok 5
  else if name = "STATUS_ABORTED" then .ok 6
  else .error (.attributeError name)

/-- `rclpy.task.Future`, with the one callback that the gateway ever adds: a call of
`cancel_navigation`. -/
structure Future where
  done : Bool
  deriving DecidableEq

/-- Calling an `async` method makes a coroutine. Without an `await` nothing of its body
runs. -/
def callAsync {ο : Type} (_body : List ο) : List ο := []

/-! ### State, events and outputs -/

/-- How far an accepted action goal has come. -/
inductive Stage where
  /-- Accepted, and not yet executed. -/
  | accepted
  /-- Sent to Navigation2, which has not yet answered. -/
  | sent
  /-- Navigation2 has accepted it. -/
  | running
  | finished
  deriving DecidableEq

/-- An accepted action goal. -/
structure Goal (P : Type) where
  pose : P
  stage : Stage

/-- The members of `NavigationGateway` that its callbacks write, the goals of its action
server, and the futures that have been made. -/
structure State (P : Type) where
  enabled : Bool
  /-- The status list that was received last. -/
  navStatus : Option (List (BitVec 8))
  goals : List (Goal P)
  futures : List Future

/-- What starts a step. -/
inductive Event (P : Type) where
  | enableRequest (data : Bool)
  | simpleGoal (msg : P)
  | goalRequest (pose : P)
  /-- The action server executes the `n`-th goal that it has accepted. -/
  | executeGoal (n : ℕ)
  | sendGoalAnswer (n : ℕ) (accepted : Bool)
  /-- The result of the `n`-th goal arrives, with `status` for `result_future.result.status`. -/
  | goalResult (n : ℕ) (status : BitVec 8)
  | cancelRequest (n : ℕ)
  | cancelMsg
  | statusMsg (statusList : List (BitVec 8))
  /-- The executor looks at the `i`-th future. -/
  | futureCallbacks (i : ℕ)

/-- What the gateway publishes, calls and answers. -/
inductive Output (P : Type) where
  | filteredGoal (msg : P)
  /-- `nav2_client.send_goal_async`. -/
  | sendGoal (n : ℕ) (pose : P) (behaviorTree : String)
  /-- `get_result_async`. -/
  | getResult (n : ℕ)
  /-- A request on `cancel_goal_client`. -/
  | cancelGoal (uuid : List (BitVec 8))
  /-- `cancel_goal_async` on the handle of a forwarded goal. -/
  | cancelForwarded (n : ℕ)
  | enableResponse (success : Bool) (message : String)
  | goalResponse (accept : Bool)
  | cancelResponse (accept : Bool)
  | succeed (n : ℕ)
  /-- `goal_handle.abort`, called with a text. -/
  | abort (n : ℕ) (text : String)
  deriving DecidableEq

section Node

variable {P : Type}

/-- The members after construction. -/
def State.initial : State P where
  enabled := true
  navStatus := none
  goals := []
  futures := []

/-- The `n`-th goal enters a stage. -/
def State.setStage (s : State P) (n : ℕ) (stage : Stage) : State P :=
  { s with goals := s.goals.modify n fun g => { g with stage := stage } }

/-! ### Cancelling -/

/-- The loop of `is_navigation_active`. The list of the two statuses is built anew for
each entry. -/
def scanStatuses : List (BitVec 8) → Except PyError Bool
  | [] => .ok false
  | status :: rest => do
    let pending ← goalStatusAttr "STATUS_PENDING"
    let executing ← goalStatusAttr "STATUS_EXECUTING"
    if status = pending ∨ status = executing then .ok true else scanStatuses rest

/-- `is_navigation_active`. -/
def isNavigationActive (s : State P) : Except PyError Bool :=
  match s.navStatus with
  | none => .ok false
  | some statusList => scanStatuses statusList

/-- `cancel_navigation`, up to its `await`. -/
def cancelNavigation (s : State P) : List (Output P) :=
  match isNavigationActive s with
  | .ok true => [.cancelGoal (List.replicate 16 0)]
  | .ok false => []
  -- `except Exception`
  | .error _ => []

/-- `handle_cancel`, which awaits `cancel_navigation`. -/
def handleCancel (s : State P) : State P × List (Output P) := (s, cancelNavigation s)

/-- `handle_cancel_request`. -/
def handleCancelRequest (s : State P) : State P × List (Output P) :=
  (s, [.cancelResponse true])

/-- The callbacks of the `i`-th future, which run once it is completed. -/
def futureCallbacks (s : State P) (i : ℕ) : State P × List (Output P) :=
  match s.futures[i]? with
  | some future => (s, if future.done = true then callAsync (cancelNavigation s) else [])
  | none => (s, [])

/-! ### Enabling, and goals -/

/-- `handle_enable_request`. The future for the cancel is made here, and no one else has
a reference to it. -/
def handleEnableRequest (s : State P) (data : Bool) : State P × List (Output P) :=
  let s := { s with enabled := data }
  let response := .enableResponse true ("导航已" ++ if s.enabled = true then "启用" else "禁用")
  if s.enabled = false then ({ s with futures := s.futures ++ [⟨false⟩] }, [response])
  else (s, [response])

/-- `handle_simple_goal`. -/
def handleSimpleGoal (s : State P) (msg : P) : State P × List (Output P) :=
  if s.enabled = false then (s, []) else (s, [.filteredGoal msg])

/-- `handle_goal_request`. A goal that is accepted becomes the server's. -/
def handleGoalRequest (s : State P) (pose : P) : State P × List (Output P) :=
  if s.enabled = false then (s, [.goalResponse false])
  else ({ s with goals := s.goals ++ [⟨pose, .accepted⟩] }, [.goalResponse true])

/-- `handle_action_goal`, up to its first `await`. -/
def handleActionGoal (s : State P) (n : ℕ) : State P × List (Output P) :=
  match s.goals[n]? with
  | some ⟨pose, .accepted⟩ => (s.setStage n .sent, [.sendGoal n pose ""])
  | _ => (s, [])

/-- `handle_action_goal`, from its first `await` to its second. -/
def sendGoalAnswered (s : State P) (n : ℕ) (accepted : Bool) : State P × List (Output P) :=
  match s.goals[n]? with
  | some ⟨_, .sent⟩ =>
    if accepted = false then
      (s.setStage n .finished, [.abort n "Navigation2拒绝接收目标"])
    else (s.setStage n .running, [.getResult n])
  | _ => (s, [])

/-- The end of `handle_action_goal`. The result is compared with `STATUS_SUCCEEDED`. -/
def resultArrived (s : State P) (n : ℕ) (status : BitVec 8) : State P × List (Output P) :=
  match s.goals[n]? with
  | some ⟨_, .running⟩ =>
    (s.setStage n .finished,
      if status = 4 then [.succeed n]
      else [.abort n ("导航失败，状态码：" ++ toString status.toInt)])
  | _ => (s, [])

/-- One callback, or one stretch of an `async` callback. -/
def step (s : State P) : Event P → State P × List (Output P)
  | .enableRequest data => handleEnableRequest s data
  | .simpleGoal msg => handleSimpleGoal s msg
  | .goalRequest pose => handleGoalRequest s pose
  | .executeGoal n => handleActionGoal s n
  | .sendGoalAnswer n accepted => sendGoalAnswered s n accepted
  | .goalResult n status => resultArrived s n status
  | .cancelRequest _ => handleCancelRequest s
  | .cancelMsg => handleCancel s
  -- `update_nav_status`
  | .statusMsg statusList => ({ s with navStatus := some statusList }, [])
  | .futureCallbacks i => futureCallbacks s i

/-- `NavigationGateway`. -/
def navigationGateway : Machine (State P) (Event P) (Output P) where
  init := State.initial
  step := step

/-- The gateway after a run. -/
abbrev stateAfter (es : List (Event P)) : State P := navigationGateway.run es

/-- Only an enable request writes `enabled`, and only it makes a future. -/
theorem step_frame (s : State P) {e : Event P} (he : ∀ data, e ≠ .enableRequest data) :
    (step s e).1.enabled = s.enabled ∧ (step s e).1.futures = s.futures := by
  cases e with
  | enableRequest data => exact absurd rfl (he data)
  | simpleGoal msg =>
    simp only [step, handleSimpleGoal]
    split <;> exact ⟨rfl, rfl⟩
  | goalRequest pose =>
    simp only [step, handleGoalRequest]
    split <;> exact ⟨rfl, rfl⟩
  | executeGoal n =>
    simp only [step, handleActionGoal]
    split <;> exact ⟨rfl, rfl⟩
  | sendGoalAnswer n accepted =>
    simp only [step, sendGoalAnswered]
    split
    · split <;> exact ⟨rfl, rfl⟩
    · exact ⟨rfl, rfl⟩
  | goalResult n status =>
    simp only [step, resultArrived]
    split <;> exact ⟨rfl, rfl⟩
  | cancelRequest n => exact ⟨rfl, rfl⟩
  | cancelMsg => exact ⟨rfl, rfl⟩
  | statusMsg statusList => exact ⟨rfl, rfl⟩
  | futureCallbacks i =>
    simp only [step, futureCallbacks]
    split <;> exact ⟨rfl, rfl⟩

/-! ### What a step sends -/

/-- An answer to one of the gateway's own clients, or the request for a result. -/
def Output.IsAnswer : Output P → Prop
  | .getResult _ => True
  | .enableResponse _ _ => True
  | .goalResponse _ => True
  | .cancelResponse _ => True
  | .succeed _ => True
  | .abort _ _ => True
  | _ => False

/-- `cancel_navigation` sends cancels only. -/
theorem eq_cancelGoal_of_mem {s : State P} {o : Output P} (ho : o ∈ cancelNavigation s) :
    ∃ uuid, o = .cancelGoal uuid := by
  unfold cancelNavigation at ho
  split at ho
  · exact ⟨_, List.mem_singleton.mp ho⟩
  · exact absurd ho List.not_mem_nil
  · exact absurd ho List.not_mem_nil

theorem isAnswer_sendGoalAnswered (s : State P) (n : ℕ) (accepted : Bool) :
    ∀ o ∈ (sendGoalAnswered s n accepted).2, o.IsAnswer := by
  unfold sendGoalAnswered
  split
  · split <;> simp [Output.IsAnswer]
  · simp

theorem isAnswer_resultArrived (s : State P) (n : ℕ) (status : BitVec 8) :
    ∀ o ∈ (resultArrived s n status).2, o.IsAnswer := by
  unfold resultArrived
  split
  · split <;> simp [Output.IsAnswer]
  · simp

theorem futureCallbacks_out (s : State P) (i : ℕ) : (futureCallbacks s i).2 = [] := by
  unfold futureCallbacks
  split
  · -- a coroutine that is not awaited sends nothing
    split <;> rfl
  · rfl

/-- **What a step sends.** A goal on the filtered topic, a goal to Navigation2, what
`cancel_navigation` sends for a cancel message, or an answer. -/
theorem step_out_cases {s : State P} {e : Event P} {o : Output P} (ho : o ∈ (step s e).2) :
    (∃ msg, e = .simpleGoal msg ∧ s.enabled = true ∧ o = .filteredGoal msg) ∨
    (∃ n pose, e = .executeGoal n ∧ s.goals[n]? = some ⟨pose, .accepted⟩ ∧
      o = .sendGoal n pose "") ∨
    (e = .cancelMsg ∧ o ∈ cancelNavigation s) ∨ o.IsAnswer := by
  -- two events send goals, and one cancels; the others are answered, or send nothing
  cases e with
  | enableRequest data =>
    have hanswer : o.IsAnswer := by
      cases data with
      | true =>
        obtain rfl := List.mem_singleton.mp ho
        trivial
      | false =>
        obtain rfl := List.mem_singleton.mp ho
        trivial
    exact Or.inr (Or.inr (Or.inr hanswer))
  | simpleGoal msg =>
    simp only [step, handleSimpleGoal] at ho
    split at ho
    · exact absurd ho List.not_mem_nil
    · next henabled =>
      exact Or.inl ⟨msg, rfl, Bool.not_eq_false _ ▸ henabled, List.mem_singleton.mp ho⟩
  | goalRequest pose =>
    have hanswer : o.IsAnswer := by
      simp only [step, handleGoalRequest] at ho
      split at ho
      · obtain rfl := List.mem_singleton.mp ho
        trivial
      · obtain rfl := List.mem_singleton.mp ho
        trivial
    exact Or.inr (Or.inr (Or.inr hanswer))
  | executeGoal n =>
    simp only [step, handleActionGoal] at ho
    split at ho
    · next pose hgoal => exact Or.inr (Or.inl ⟨n, pose, rfl, hgoal, List.mem_singleton.mp ho⟩)
    · exact absurd ho List.not_mem_nil
  | sendGoalAnswer n accepted =>
    exact Or.inr (Or.inr (Or.inr (isAnswer_sendGoalAnswered s n accepted o ho)))
  | goalResult n status =>
    exact Or.inr (Or.inr (Or.inr (isAnswer_resultArrived s n status o ho)))
  | cancelRequest n =>
    obtain rfl := List.mem_singleton.mp ho
    exact Or.inr (Or.inr (Or.inr trivial))
  | cancelMsg => exact Or.inr (Or.inr (Or.inl ⟨rfl, ho⟩))
  | statusMsg statusList => exact absurd ho List.not_mem_nil
  | futureCallbacks i =>
    rw [step, futureCallbacks_out] at ho
    exact absurd ho List.not_mem_nil

/-! ### Which goals are pending -/

section Pending

variable {s : State P} {n : ℕ}

/-- The `n`-th goal is accepted, and its execution has not begun. -/
def Pending (n : ℕ) (s : State P) : Prop := ∃ pose, s.goals[n]? = some ⟨pose, .accepted⟩

/-- A goal that moves on is not pending, and the others stay what they are. -/
theorem pending_setStage (m : ℕ) {stage : Stage} (hstage : stage ≠ .accepted) :
    Pending n (s.setStage m stage) ↔ Pending n s ∧ n ≠ m := by
  unfold Pending State.setStage
  dsimp only
  rw [List.getElem?_modify]
  by_cases hn : n = m
  · subst hn
    refine iff_of_false ?_ (fun h => h.2 rfl)
    rintro ⟨pose, hgoal⟩
    obtain ⟨g, -, hg⟩ := Option.map_eq_some_iff.mp hgoal
    rw [if_pos rfl] at hg
    exact hstage (congrArg Goal.stage hg)
  · rw [and_iff_left hn]
    cases s.goals[n]? with
    | none => rfl
    | some g => simp [Ne.symm hn]

/-- A goal in another stage is not pending, so moving it changes nothing. -/
theorem pending_setStage_of_stage {m : ℕ} {g : Goal P} (hg : s.goals[m]? = some g)
    (hold : g.stage ≠ .accepted) {stage : Stage} (hstage : stage ≠ .accepted) :
    Pending n (s.setStage m stage) ↔ Pending n s := by
  rw [pending_setStage m hstage]
  refine and_iff_left_of_imp ?_
  rintro ⟨pose, hgoal⟩ rfl
  obtain rfl := Option.some.inj (hg.symm.trans hgoal)
  exact hold rfl

theorem pending_handleGoalRequest (pose : P) :
    Pending n (handleGoalRequest s pose).1 ↔
      Pending n s ∨ s.enabled = true ∧ s.goals.length = n := by
  unfold handleGoalRequest
  cases henabled : s.enabled with
  | false => simp
  | true =>
    unfold Pending
    change (∃ pose', (s.goals ++ [⟨pose, Stage.accepted⟩])[n]? = some ⟨pose', .accepted⟩) ↔ _
    rcases lt_trichotomy n s.goals.length with hlt | heq | hgt
    · -- an older goal
      rw [List.getElem?_append_left hlt]
      simp [hlt.ne']
    · subst heq
      simp
    · rw [List.getElem?_append_right hgt.le, List.getElem?_eq_none (by simp; omega),
        List.getElem?_eq_none hgt.le]
      simp [hgt.ne]

theorem pending_handleActionGoal (m : ℕ) :
    Pending n (handleActionGoal s m).1 ↔ Pending n s ∧ n ≠ m := by
  unfold handleActionGoal
  split
  · exact pending_setStage m (fun h => Stage.noConfusion h)
  · next hnone =>
    refine (and_iff_left_of_imp ?_).symm
    rintro ⟨pose, hgoal⟩ rfl
    exact hnone pose hgoal

theorem pending_sendGoalAnswered (m : ℕ) (accepted : Bool) :
    Pending n (sendGoalAnswered s m accepted).1 ↔ Pending n s := by
  unfold sendGoalAnswered
  split
  · next hgoal =>
    split
    · exact pending_setStage_of_stage hgoal (fun h => Stage.noConfusion h)
        (fun h => Stage.noConfusion h)
    · exact pending_setStage_of_stage hgoal (fun h => Stage.noConfusion h)
        (fun h => Stage.noConfusion h)
  · rfl

theorem pending_resultArrived (m : ℕ) (status : BitVec 8) :
    Pending n (resultArrived s m status).1 ↔ Pending n s := by
  unfold resultArrived
  split
  · next hgoal =>
    exact pending_setStage_of_stage hgoal (fun h => Stage.noConfusion h)
      (fun h => Stage.noConfusion h)
  · rfl

theorem pending_futureCallbacks (i : ℕ) : Pending n (futureCallbacks s i).1 ↔ Pending n s := by
  unfold futureCallbacks
  split
  · rfl
  · rfl

theorem pending_handleEnableRequest (data : Bool) :
    Pending n (handleEnableRequest s data).1 ↔ Pending n s := by
  cases data
  · rfl
  · rfl

theorem pending_handleSimpleGoal (msg : P) :
    Pending n (handleSimpleGoal s msg).1 ↔ Pending n s := by
  unfold handleSimpleGoal
  split
  · rfl
  · rfl

/-- **Pending goals.** A goal becomes pending when it is accepted, which takes an enabled
gateway, and stays so until it is executed. -/
theorem pending_step (e : Event P) :
    Pending n (step s e).1 ↔
      (Pending n s ∧ e ≠ .executeGoal n) ∨
        (∃ pose, e = .goalRequest pose) ∧ s.enabled = true ∧ s.goals.length = n := by
  cases e with
  | enableRequest data => simpa [step] using pending_handleEnableRequest data
  | simpleGoal msg => simpa [step] using pending_handleSimpleGoal msg
  | goalRequest pose => simpa [step] using pending_handleGoalRequest pose
  | executeGoal m =>
    have hne : (Event.executeGoal m : Event P) ≠ .executeGoal n ↔ n ≠ m :=
      ⟨fun h heq => h (by rw [heq]), fun h heq => h (Event.executeGoal.inj heq).symm⟩
    rw [hne]
    simpa [step] using pending_handleActionGoal m
  | sendGoalAnswer m accepted => simpa [step] using pending_sendGoalAnswered m accepted
  | goalResult m status => simpa [step] using pending_resultArrived m status
  | cancelRequest m => simp [step, handleCancelRequest]
  | cancelMsg => simp [step, handleCancel]
  | statusMsg statusList => simp [step, Pending]
  | futureCallbacks i => simpa [step] using pending_futureCallbacks i

end Pending
end Node

end Gateway
end WtbAutoware
