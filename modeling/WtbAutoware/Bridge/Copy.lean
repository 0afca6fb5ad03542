import WtbAutoware.Bridge.Forward

/-!
# The payload copies stay inside their arrays

Each received object is copied with `std::copy(rec[j].Data, rec[j].Data + rec[j].DataLen,
msg->data.begin())`. Both arrays have eight elements, and `DataLen` is whatever byte the
library has stored. `copyAccesses` are the elements that one copy reads and writes.

`pollAccesses` follows the two loops of a poll, and `mem_pollAccesses_iff` finds in it the
copies of exactly the objects that the poll has received. `copies_inBounds_iff` is the law
for a run: no copy leaves its arrays, and no `dlc` above 8 is published, if and only if
every received object is at most eight bytes long. `longObj_overruns` is an object with
`DataLen` 9.
-/

namespace WtbAutoware
namespace Bridge

open Reactive

/-! ### One copy -/

/-- An element of one of the two arrays: `rec[j].Data[i]`, or `msg->data[i]`. -/
inductive Access where
  | source (i : ℕ)
  | target (i : ℕ)
  deriving DecidableEq

/-- Both arrays have eight elements. -/
def Access.InBounds : Access → Prop
  | .source i => i < 8
  | .target i => i < 8

/-- The elements that `std::copy` reads and writes, one after the other. -/
def copyAccesses (o : VciCanObj) : List Access :=
  (List.range o.dataLen.toNat).flatMap fun i => [.source i, .target i]

theorem inBounds_copyAccesses_iff (o : VciCanObj) :
    (∀ a ∈ copyAccesses o, a.InBounds) ↔ o.dataLen.toNat ≤ 8 := by
  unfold copyAccesses
  refine ⟨?_, ?_⟩
  · intro h
    by_contra hlong
    -- the ninth byte is read
    have hmem : Access.source 8 ∈
        (List.range o.dataLen.toNat).flatMap fun i => [Access.source i, .target i] := by
      refine List.mem_flatMap.mpr ⟨8, List.mem_range.mpr (not_le.mp hlong), ?_⟩
      exact List.mem_cons_self
    exact absurd (h _ hmem) (lt_irrefl 8)
  · intro hlen a ha
    obtain ⟨i, hi, hmem⟩ := List.mem_flatMap.mp ha
    have hlt : i < 8 := (List.mem_range.mp hi).trans_le hlen
    rcases List.mem_cons.mp hmem with rfl | hrest
    · exact hlt
    · obtain rfl := List.mem_singleton.mp hrest
      exact hlt

variable {K : Type} (overrun : VciCanObj → Vector (BitVec 8) 8)

/-! ### The copies of a poll -/

/-- The elements that one poll accesses, in its two loops. -/
def pollAccesses (s : State) (p : Poll K) : List Access :=
  if s.canF = false then []
  else if p.recv1.ret.toInt = -1 then []
  else
    (if 0 < p.recv1.ret.toInt then p.recv1.objs.flatMap copyAccesses else []) ++
      if 0 < p.recv2.ret.toInt then p.recv2.objs.flatMap copyAccesses else []

/-- The elements that a step accesses. -/
def stepAccesses (s : State) : Event K → List Access
  | .poll p => pollAccesses s p
  | .canRx1 _ => []
  | .canRx2 _ => []

/-- A step copies inside the arrays, and publishes no length above 8. -/
structure CopiesInBounds (s : State) (e : Event K) : Prop where
  accesses : ∀ a ∈ stepAccesses s e, a.InBounds
  dlc : ∀ ch, ∀ f ∈ published ch (step overrun s e).2, f.dlc.toNat ≤ 8

theorem flatMap_copyAccesses (r : Receive K) :
    (if 0 < r.ret.toInt then r.objs.flatMap copyAccesses else []) =
      r.objs.flatMap copyAccesses := by
  split
  · rfl
  · next h => rw [Receive.objs_eq_nil h, List.flatMap_nil]

/-- **The copies of a step** are those of the objects that it receives. -/
theorem mem_stepAccesses_iff (s : State) (e : Event K) (a : Access) :
    a ∈ stepAccesses s e ↔
      ∃ ch, ∃ o ∈ receivedOn ch (calls (step overrun s e).2), a ∈ copyAccesses o := by
  cases e with
  | poll p =>
    change a ∈ pollAccesses s p ↔
      ∃ ch, ∃ o ∈ receivedOn ch (calls (canReceiveParse overrun s p).2), a ∈ copyAccesses o
    unfold pollAccesses
    rcases poll_cases overrun s p with ⟨hcan, heq⟩ | ⟨hcan, hoff, heq⟩ | ⟨hcan, hon, heq⟩
    · rw [if_pos hcan, heq, calls_map_call]
      simp [receivedOn_initCan]
    · rw [if_neg (by rw [hcan]; decide), if_pos hoff, heq]
      change a ∈ [] ↔ ∃ ch, ∃ o ∈ receivedOn ch [.receive .can1 p.recv1.ret p.recv1.objs], _
      simp [receivedOn_offline hoff]
    · rw [if_neg (by rw [hcan]; decide), if_neg hon, heq, flatMap_copyAccesses,
        flatMap_copyAccesses, List.mem_append, List.mem_flatMap, List.mem_flatMap]
      refine ⟨?_, ?_⟩
      · rintro (h | h)
        · exact ⟨.can1, (receivedOn_pollOut_can1 overrun p).symm ▸ h⟩
        · exact ⟨.can2, (receivedOn_pollOut_can2 overrun p).symm ▸ h⟩
      · rintro ⟨ch, h⟩
        cases ch with
        | can1 => exact Or.inl ((receivedOn_pollOut_can1 overrun p) ▸ h)
        | can2 => exact Or.inr ((receivedOn_pollOut_can2 overrun p) ▸ h)
  | canRx1 msg => exact iff_of_false List.not_mem_nil (fun ⟨_, _, ho, _⟩ => List.not_mem_nil ho)
  | canRx2 msg => exact iff_of_false List.not_mem_nil (fun ⟨_, _, ho, _⟩ => List.not_mem_nil ho)

/-- **One step.** It stays inside the arrays if and only if every object that it receives is
at most eight bytes long. -/
theorem step_inBounds_iff (s : State) (e : Event K) :
    CopiesInBounds overrun s e ↔
      ∀ ch, ∀ o ∈ receivedOn ch (calls (step overrun s e).2), o.dataLen.toNat ≤ 8 := by
  refine ⟨?_, ?_⟩
  · intro h ch o ho
    refine (inBounds_copyAccesses_iff o).mp ?_
    intro a ha
    exact h.accesses a ((mem_stepAccesses_iff overrun s e a).mpr ⟨ch, o, ho, ha⟩)
  · intro h
    refine ⟨?_, ?_⟩
    · intro a ha
      obtain ⟨ch, o, ho, hmem⟩ := (mem_stepAccesses_iff overrun s e a).mp ha
      exact (inBounds_copyAccesses_iff o).mpr (h ch o ho) a hmem
    · intro ch f hf
      -- the message is the conversion of an object that was received
      obtain ⟨o, ho, stamp, frameId, rfl⟩ : ∃ o ∈ receivedOn ch (calls (step overrun s e).2),
          Becomes overrun o f := by
        have hforwards := forwards_step overrun s e ch
        obtain ⟨i, hi, rfl⟩ := List.mem_iff_getElem.mp hf
        have hi' : i < (receivedOn ch (calls (step overrun s e).2)).length := by
          rw [hforwards.length_eq]
          exact hi
        exact ⟨_, List.getElem_mem hi', (List.forall₂_iff_get.mp hforwards).2 i hi' hi⟩
      exact h ch o ho

/-! ### Runs -/

/-- **The copies of a run.** With any answers of the vendor library: in every step of the
run all elements that are accessed lie inside their arrays and every published `dlc` is at
most 8, if and only if every object received in the run, on either channel, has a
`DataLen` of at most 8. -/
theorem copies_inBounds_iff (r₀ : InitReturns) (es : List (Event K)) :
    Each (fun pre e => CopiesInBounds overrun (stateAfter overrun r₀ pre) e) es ↔
      ∀ ch, ∀ o ∈ receivedOn ch (calls (log overrun r₀ es)), o.dataLen.toNat ≤ 8 := by
  induction es using List.reverseRecOn with
  | nil =>
    refine iff_of_true (each_nil _) ?_
    intro ch o ho
    rw [log_nil, calls_map_call, receivedOn_initCan] at ho
    exact absurd ho List.not_mem_nil
  | append_singleton es e ih =>
    rw [each_concat, ih, step_inBounds_iff, log_concat, calls_append]
    simp only [receivedOn_append, List.mem_append]
    refine ⟨?_, ?_⟩
    · rintro ⟨hes, he⟩ ch o (ho | ho)
      · exact hes ch o ho
      · exact he ch o ho
    · intro h
      exact ⟨fun ch o ho => h ch o (Or.inl ho), fun ch o ho => h ch o (Or.inr ho)⟩

/-- An object whose length is one byte too many. -/
def longObj : VciCanObj := { shortObj with dataLen := 9 }

/-- An object of nine bytes is read and written past the end, and published with `dlc` 9. -/
theorem longObj_overruns :
    ¬ Each (fun pre e => CopiesInBounds (fun o => o.data)
        (stateAfter (fun o => o.data) ⟨1, 1, 1, 1, 1⟩ pre) e)
      [Event.poll (K := ℚ) ⟨⟨1, 1, 1, 1, 1⟩, received [longObj], received []⟩] := by
  intro h
  have hstep := (step_inBounds_iff _ _ _).mp (h [] _ [] rfl) .can1 longObj (by decide)
  exact absurd hstep (by decide)

end Bridge
end WtbAutoware
