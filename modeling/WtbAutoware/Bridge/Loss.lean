import WtbAutoware.Bridge.Forward

/-!
# The adapter is lost

A receive that returns -1 says that the adapter is gone. The bridge should clear `can_f`,
publish nothing for that channel, and open the adapter again before it next receives
(`LossNoticed`); and it should keep `can_f` as long as neither channel says so.

`canReceiveParse` compares the first answer with -1 and not the second.
`noticed_iff` is the law for one poll, and `reopens_after` follows `can_f` from a poll to
the next one, across the messages that come in between. `lossNoticed_iff` says that a run
keeps the law exactly if no poll that gets as far as the second channel is told there that
the adapter is gone. `second_unnoticed` is the adapter unplugged between the two calls.
-/

namespace WtbAutoware
namespace Bridge

open Reactive

variable {K : Type} (overrun : VciCanObj → Vector (BitVec 8) 8)

/-- Among the calls is a receive on the channel that returned -1. -/
def ToldLost (ch : Channel) (cs : List VciCall) : Prop :=
  ∃ ret objs, .receive ch ret objs ∈ cs ∧ ret.toInt = -1

/-- One poll does with the answers what it should. -/
structure Noticed (s : State) (p : Poll K) : Prop where
  /-- If a receive returned -1, `can_f` is clear and nothing is published for it. -/
  lost : ∀ ch, ToldLost ch (calls (canReceiveParse overrun s p).2) →
    (canReceiveParse overrun s p).1.canF = false ∧
      published ch (canReceiveParse overrun s p).2 = []
  /-- If none did, `can_f` stays set. -/
  kept : s.canF = true → (∀ ch, ¬ ToldLost ch (calls (canReceiveParse overrun s p).2)) →
    (canReceiveParse overrun s p).1.canF = true

/-- The calls of the next poll after the events `es` start with those of an `Init_Can`. -/
def ReopensFirst (r₀ : InitReturns) (es : List (Event K)) (q : Poll K) : Prop :=
  (initCan ⟨false⟩ q.init).2 <+: calls (step overrun (stateAfter overrun r₀ es) (.poll q)).2

/-- The loss of the adapter is noticed on either channel, in every poll of the run. -/
def LossNoticed (r₀ : InitReturns) (es : List (Event K)) : Prop :=
  ∀ pre p post, es = pre ++ .poll p :: post →
    Noticed overrun (stateAfter overrun r₀ pre) p ∧
    ∀ ch, ToldLost ch (calls (step overrun (stateAfter overrun r₀ pre) (.poll p)).2) →
      ∀ mid q rest, post = mid ++ .poll q :: rest → (∀ e ∈ mid, ∀ q', e ≠ .poll q') →
        ReopensFirst overrun r₀ (pre ++ .poll p :: mid) q

/-- The second channel, if it is asked, does not answer -1. -/
def SecondOnline (s : State) : Event K → Prop
  | .poll p => s.canF = true → p.recv1.ret.toInt ≠ -1 → p.recv2.ret.toInt ≠ -1
  | _ => True

/-! ### One poll -/

section Poll

variable (s : State) (p : Poll K)

theorem not_toldLost_initCan (r : InitReturns) (ch : Channel) :
    ¬ ToldLost ch (initCan s r).2 := by
  rintro ⟨ret, objs, hmem, -⟩
  exact opening_initCan s r _ hmem

theorem toldLost_pollOut_iff (ch : Channel) :
    ToldLost ch (calls (pollOut overrun p)) ↔
      (ch = .can1 ∧ p.recv1.ret.toInt = -1) ∨ (ch = .can2 ∧ p.recv2.ret.toInt = -1) := by
  rw [calls_pollOut]
  refine ⟨?_, ?_⟩
  · rintro ⟨ret, objs, hmem, hret⟩
    rcases List.mem_cons.mp hmem with hfirst | hrest
    · obtain ⟨rfl, rfl, -⟩ := VciCall.receive.inj hfirst
      exact Or.inl ⟨rfl, hret⟩
    · obtain ⟨rfl, rfl, -⟩ := VciCall.receive.inj (List.mem_singleton.mp hrest)
      exact Or.inr ⟨rfl, hret⟩
  · rintro (⟨rfl, hret⟩ | ⟨rfl, hret⟩)
    · exact ⟨_, _, List.mem_cons_self, hret⟩
    · exact ⟨_, _, List.mem_cons_of_mem _ List.mem_cons_self, hret⟩

/-- **One poll.** It does what it should unless the second channel answers -1. -/
theorem noticed_iff : Noticed overrun s p ↔ SecondOnline s (.poll p) := by
  rcases poll_cases overrun s p with ⟨hcan, heq⟩ | ⟨hcan, hoff, heq⟩ | ⟨hcan, hon, heq⟩
  · -- nothing is received
    refine iff_of_true ⟨?_, ?_⟩ ?_
    · intro ch hlost
      rw [heq, calls_map_call] at hlost
      exact absurd hlost (not_toldLost_initCan s p.init ch)
    · intro hopen
      exact absurd (hcan.symm.trans hopen) Bool.false_ne_true
    · intro hopen
      exact absurd (hcan.symm.trans hopen) Bool.false_ne_true
  · -- the first channel says so, and the poll returns
    have hout : (canReceiveParse overrun s p).2 =
        [VciCall.receive .can1 p.recv1.ret p.recv1.objs].map Output.call := by rw [heq]; rfl
    refine iff_of_true ⟨?_, ?_⟩ ?_
    · intro ch _
      rw [hout, heq, published_map_call]
      exact ⟨rfl, rfl⟩
    · intro _ hnone
      refine absurd ?_ (hnone .can1)
      rw [hout, calls_map_call]
      exact ⟨_, _, List.mem_cons_self, hoff⟩
    · intro _ hon
      exact absurd hoff hon
  · refine ⟨?_, ?_⟩
    · intro h _ _ hlost
      -- `can_f` is still set behind a second channel that says so
      have hclear := (h.lost .can2 (by
        rw [heq]
        exact (toldLost_pollOut_iff overrun p .can2).mpr (Or.inr ⟨rfl, hlost⟩))).1
      rw [heq] at hclear
      exact absurd (hclear.symm.trans hcan) Bool.false_ne_true
    · intro h
      refine ⟨?_, ?_⟩
      · intro ch hlost
        rw [heq] at hlost
        rcases (toldLost_pollOut_iff overrun p ch).mp hlost with ⟨-, hoff⟩ | ⟨-, hoff⟩
        · exact absurd hoff hon
        · exact absurd hoff (h hcan hon)
      · intro _ _
        rw [heq]
        exact hcan

end Poll

/-! ### Runs -/

/-- Only a poll writes `can_f`. -/
theorem canF_runFrom (r₀ : InitReturns) {mid : List (Event K)}
    (hmid : ∀ e ∈ mid, ∀ q, e ≠ .poll q) (s : State) :
    ((canBridgeNode overrun r₀).runFrom s mid).canF = s.canF := by
  refine (canBridgeNode overrun r₀).invariant_runFrom (I := fun s' => s'.canF = s.canF) ?_ rfl
  intro s' e he h
  cases e with
  | poll q => exact absurd rfl (hmid _ he q)
  | canRx1 msg => exact h
  | canRx2 msg => exact h

/-- Once `can_f` is clear, the next poll opens the adapter first. -/
theorem reopens_after (r₀ : InitReturns) (pre : List (Event K)) (p : Poll K)
    {mid : List (Event K)} (hmid : ∀ e ∈ mid, ∀ q, e ≠ .poll q) (q : Poll K)
    (h : (canReceiveParse overrun (stateAfter overrun r₀ pre) p).1.canF = false) :
    ReopensFirst overrun r₀ (pre ++ .poll p :: mid) q := by
  have hclear : (stateAfter overrun r₀ (pre ++ .poll p :: mid)).canF = false := by
    unfold stateAfter
    rw [Machine.run_append, Machine.runFrom_cons, canF_runFrom overrun r₀ hmid]
    exact h
  -- so the next poll is one that opens, and does nothing else
  unfold ReopensFirst
  change _ <+: calls (canReceiveParse overrun (stateAfter overrun r₀ (pre ++ .poll p :: mid)) q).2
  rcases poll_cases overrun (stateAfter overrun r₀ (pre ++ .poll p :: mid)) q with
    ⟨-, heq⟩ | ⟨hcan, -⟩ | ⟨hcan, -⟩
  · rw [heq, calls_map_call]
    exact List.prefix_rfl
  · exact absurd (hclear.symm.trans hcan) Bool.false_ne_true
  · exact absurd (hclear.symm.trans hcan) Bool.false_ne_true

/-- **The loss of the adapter over a run.** With any answers of the vendor library, in any
order of polls and messages: it is noticed in every poll of the run if and only if no poll
that asks the second channel is answered -1 there. -/
theorem lossNoticed_iff (r₀ : InitReturns) (es : List (Event K)) :
    LossNoticed overrun r₀ es ↔
      Each (fun pre e => SecondOnline (stateAfter overrun r₀ pre) e) es := by
  refine ⟨?_, ?_⟩
  · rintro h pre e post hes
    cases e with
    | poll p => exact (noticed_iff overrun _ p).mp (h pre p post hes).1
    | canRx1 msg => trivial
    | canRx2 msg => trivial
  · intro h pre p post hes
    have hnoticed := (noticed_iff overrun _ p).mpr (h pre (.poll p) post hes)
    refine ⟨hnoticed, ?_⟩
    intro ch hlost mid q rest _ hmid
    exact reopens_after overrun r₀ pre p hmid q (hnoticed.lost ch hlost).1

/-- The adapter is opened, and unplugged between the two receives of the next poll. -/
def unplugged : List (Event ℚ) :=
  [.poll ⟨⟨1, 1, 1, 1, 1⟩, received [], received []⟩,
    .poll ⟨⟨1, 1, 1, 1, 1⟩, received [], .offline fun _ => 0⟩]

/-- The second channel's -1 leaves `can_f` set. -/
theorem second_unnoticed : ¬ LossNoticed (fun o => o.data) ⟨0, 0, 0, 0, 0⟩ unplugged := by
  intro h
  have hnoticed := (h [.poll ⟨⟨1, 1, 1, 1, 1⟩, received [], received []⟩]
    ⟨⟨1, 1, 1, 1, 1⟩, received [], .offline fun _ => 0⟩ [] rfl).1
  exact (noticed_iff _ _ _).mp hnoticed (by decide) (by decide) (by decide)

end Bridge
end WtbAutoware
