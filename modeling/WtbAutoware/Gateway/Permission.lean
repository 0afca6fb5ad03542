import WtbAutoware.Gateway.Node

/-!
# Forwarding and permission

The law (`ForwardsEnabled`): a goal is forwarded, on the filtered topic or to
Navigation2, in a step in which the gateway is enabled. `handle_simple_goal` checks
this in the step that forwards. An action goal is checked when it is requested and
forwarded when it is executed, with no second check; in between the gateway may have
been disabled.

`pending_iff` says from the history which goals are waiting for their execution, and
`enabled_runFrom` what the enable requests leave. Together they turn the law into a
condition on the order of events (`FreshGoals`), which `forwards_enabled_iff` states;
`disabledInBetween` is a run that breaks both.
-/

namespace WtbAutoware
namespace Gateway

open Reactive

variable {P : Type}

/-- A goal is passed on. -/
def Output.IsForward : Output P → Prop
  | .filteredGoal _ => True
  | .sendGoal _ _ _ => True
  | _ => False

/-- Goals are passed on by an enabled gateway only. -/
def ForwardsEnabled (es : List (Event P)) : Prop :=
  ∀ pre e post, es = pre ++ e :: post →
    (∃ o ∈ navigationGateway.out (stateAfter pre) e, o.IsForward) →
    (stateAfter pre).enabled = true

/-- The latest enable request. -/
def lastEnable (es : List (Event P)) : Option Bool :=
  (es.filterMap fun
    | .enableRequest data => some data
    | _ => none).getLast?

/-- Between the acceptance of a goal and its execution, the latest enable request does
not disable. -/
def FreshGoals (es : List (Event P)) : Prop :=
  ∀ before pose mid post n,
    es = before ++ .goalRequest pose :: mid ++ .executeGoal n :: post →
    (stateAfter before).enabled = true → (stateAfter before).goals.length = n →
    .executeGoal n ∉ mid → lastEnable mid ≠ some false

/-! ### Steps -/

/-- `enabled` is what the service was last called with. -/
theorem enabled_step (s : State P) (e : Event P) :
    (step s e).1.enabled = (lastEnable [e]).getD s.enabled := by
  by_cases he : ∃ data, e = .enableRequest data
  · obtain ⟨data, rfl⟩ := he
    cases data <;> rfl
  · have hother : ∀ data, e ≠ .enableRequest data := fun data h => he ⟨data, h⟩
    have hnone : lastEnable [e] = none := by
      cases e with
      | enableRequest data => exact absurd rfl (hother data)
      | _ => rfl
    rw [hnone]
    exact (step_frame s hother).1

theorem enabled_runFrom (s : State P) (es : List (Event P)) :
    (navigationGateway.runFrom s es).enabled = (lastEnable es).getD s.enabled := by
  induction es using List.reverseRecOn with
  | nil => rfl
  | append_singleton es e ih =>
    rw [Machine.runFrom_append]
    refine (enabled_step _ e).trans ?_
    rw [ih]
    unfold lastEnable
    rw [List.filterMap_append, List.getLast?_append]
    cases e <;> rfl

/-- The steps that pass a goal on. -/
theorem forward_iff (s : State P) (e : Event P) :
    (∃ o ∈ navigationGateway.out s e, o.IsForward) ↔
      (∃ msg, e = .simpleGoal msg ∧ s.enabled = true) ∨ ∃ n, e = .executeGoal n ∧ Pending n s := by
  change (∃ o ∈ (step s e).2, o.IsForward) ↔ _
  refine ⟨?_, ?_⟩
  · rintro ⟨o, ho, hforward⟩
    rcases step_out_cases ho with ⟨msg, rfl, henabled, -⟩ | ⟨n, pose, rfl, hgoal, -⟩ |
      ⟨-, hcancel⟩ | hanswer
    · exact Or.inl ⟨msg, rfl, henabled⟩
    · exact Or.inr ⟨n, rfl, pose, hgoal⟩
    · obtain ⟨uuid, rfl⟩ := eq_cancelGoal_of_mem hcancel
      exact hforward.elim
    · cases o <;> first | exact hforward.elim | exact hanswer.elim
  · rintro (⟨msg, rfl, henabled⟩ | ⟨n, rfl, pose, hgoal⟩)
    · refine ⟨.filteredGoal msg, ?_, trivial⟩
      rw [step, handleSimpleGoal, if_neg (by rw [henabled]; decide)]
      exact List.mem_singleton.mpr rfl
    · refine ⟨.sendGoal n pose "", ?_, trivial⟩
      rw [step, handleActionGoal, hgoal]
      exact List.mem_singleton.mpr rfl

/-! ### Runs -/

/-- **Which goals are pending.** Those that were accepted, by an enabled gateway, and
have not been executed since. -/
theorem pending_iff (es : List (Event P)) (n : ℕ) :
    Pending n (stateAfter es) ↔
      ∃ before pose mid, es = before ++ .goalRequest pose :: mid ∧
        (stateAfter before).enabled = true ∧ (stateAfter before).goals.length = n ∧
        .executeGoal n ∉ mid := by
  induction es using List.reverseRecOn with
  | nil =>
    refine iff_of_false ?_ (by simp)
    rintro ⟨pose, hgoal⟩
    exact absurd hgoal (by simp [navigationGateway, State.initial])
  | append_singleton es e ih =>
    rw [stateAfter, Machine.run_concat]
    change Pending n (step (stateAfter es) e).1 ↔ _
    rw [pending_step, ih]
    refine ⟨?_, ?_⟩
    · rintro (⟨⟨before, pose, mid, rfl, henabled, hlen, hmid⟩, hne⟩ | ⟨⟨pose, rfl⟩, henabled, hlen⟩)
      · refine ⟨before, pose, mid ++ [e], by simp, henabled, hlen, ?_⟩
        simp [hmid, Ne.symm hne]
      · exact ⟨es, pose, [], rfl, henabled, hlen, by simp⟩
    · rintro ⟨before, pose, mid, heq, henabled, hlen, hmid⟩
      rcases List.eq_nil_or_concat mid with rfl | ⟨mid', e', rfl⟩
      · -- accepted in this very step
        obtain ⟨rfl, he⟩ := List.append_inj' heq rfl
        obtain rfl : e = .goalRequest pose := by simpa using he
        exact Or.inr ⟨⟨pose, rfl⟩, henabled, hlen⟩
      · rw [List.concat_eq_append] at hmid
        rw [List.concat_eq_append, ← List.cons_append, ← List.append_assoc] at heq
        obtain ⟨rfl, he⟩ := List.append_inj' heq rfl
        obtain rfl : e = e' := by simpa using he
        simp only [List.mem_append, List.mem_singleton, not_or] at hmid
        exact Or.inl ⟨⟨before, pose, mid', rfl, henabled, hlen, hmid.1⟩, Ne.symm hmid.2⟩

/-- **Forwarding and permission.** Over every run, goals are passed on by an enabled
gateway only if and only if no accepted goal is executed while the latest enable request
since its acceptance is one that disables. -/
theorem forwards_enabled_iff (es : List (Event P)) : ForwardsEnabled es ↔ FreshGoals es := by
  -- after the acceptance the gateway is enabled, and then what the requests make of it
  have henabled_after (before : List (Event P)) (pose : P) (mid : List (Event P))
      (henabled : (stateAfter before).enabled = true) :
      (stateAfter (before ++ .goalRequest pose :: mid)).enabled = (lastEnable mid).getD true := by
    rw [stateAfter, Machine.run_append, enabled_runFrom]
    change (lastEnable mid).getD (stateAfter before).enabled = _
    rw [henabled]
  refine ⟨?_, ?_⟩
  · intro h before pose mid post n hes henabled hlen hmid hlast
    have hpending : Pending n (stateAfter (before ++ .goalRequest pose :: mid)) :=
      (pending_iff _ n).mpr ⟨before, pose, mid, rfl, henabled, hlen, hmid⟩
    have hon := h _ (.executeGoal n) post hes
      ((forward_iff _ _).mpr (Or.inr ⟨n, rfl, hpending⟩))
    rw [henabled_after before pose mid henabled, hlast] at hon
    exact absurd hon (by decide)
  · intro h pre e post hes hforward
    rcases (forward_iff _ e).mp hforward with ⟨msg, -, henabled⟩ | ⟨n, rfl, hpending⟩
    · exact henabled
    · obtain ⟨before, pose, mid, rfl, henabled, hlen, hmid⟩ := (pending_iff pre n).mp hpending
      have hfresh := h before pose mid post n hes henabled hlen hmid
      rw [henabled_after before pose mid henabled]
      cases hlast : lastEnable mid with
      | none => rfl
      | some data =>
        cases data with
        | false => exact absurd hlast hfresh
        | true => rfl

/-- A goal is accepted, the gateway disabled, and the goal executed. -/
def disabledInBetween : List (Event ℕ) :=
  [.goalRequest 7, .enableRequest false, .executeGoal 0]

/-- The goal is sent to Navigation2 by a disabled gateway. -/
theorem disabledInBetween_forwards :
    ¬ ForwardsEnabled disabledInBetween ∧
      navigationGateway.out (stateAfter [.goalRequest 7, .enableRequest false])
        (.executeGoal 0) = [.sendGoal 0 7 ""] := by
  refine ⟨?_, by decide⟩
  intro h
  have hon := h [.goalRequest 7, .enableRequest false] (.executeGoal 0) [] rfl
    ⟨.sendGoal 0 7 "", by decide, trivial⟩
  revert hon
  decide

end Gateway
end WtbAutoware
