import WtbAutoware.Bridge.Node

/-!
# Received frames are forwarded

Whatever the polls return, the messages on each `can_tx` topic are the objects that
`VCI_Receive` has stored for that channel, one message for each, in order
(`frames_forwarded`). The first channel publishes while it converts and the second
converts first; `becomes_publish1` and `becomes_collect2` show that the two loops come
to the same thing, `becomes_poll` puts them together for one poll, and the concatenation
rule for traces carries the law over a run.
-/

namespace WtbAutoware
namespace Bridge

open Reactive

/-- The objects that the calls have received for a channel. -/
def receivedOn (ch : Channel) (cs : List VciCall) : List VciCanObj :=
  cs.flatMap fun
    | .receive ch' _ objs => if ch' = ch then objs else []
    | _ => []

theorem receivedOn_append (ch : Channel) (cs cs' : List VciCall) :
    receivedOn ch (cs ++ cs') = receivedOn ch cs ++ receivedOn ch cs' := List.flatMap_append

variable {K : Type} (overrun : VciCanObj → Vector (BitVec 8) 8)

/-- The message `f` is the conversion of the object `o`, at whatever time and under
whatever frame name. -/
def Becomes (o : VciCanObj) (f : Frame K) : Prop :=
  ∃ stamp frameId, f = toFrame overrun stamp frameId o

/-- The message `f` carries what the object `o` does. -/
structure Carries (o : VciCanObj) (f : Frame K) : Prop where
  id : f.id = o.id
  isExtended : f.isExtended = true ↔ o.externFlag ≠ 0
  isRtr : f.isRtr = true ↔ o.remoteFlag ≠ 0
  isError : f.isError = false
  dlc : f.dlc = o.dataLen
  /-- The bytes that count are copied, and the others are zero. -/
  data : ∀ i : Fin 8, f.data.get i = if i.val < o.dataLen.toNat then o.data.get i else 0

theorem Becomes.carries {o : VciCanObj} {f : Frame K} (h : Becomes overrun o f)
    (hlen : o.dataLen.toNat ≤ 8) : Carries o f := by
  obtain ⟨stamp, frameId, rfl⟩ := h
  refine ⟨rfl, decide_eq_true_iff, decide_eq_true_iff, rfl, rfl, ?_⟩
  intro i
  change (copyData overrun o).get i = _
  rw [copyData, if_pos hlen, Vector.get_eq_getElem, Vector.getElem_ofFn]

/-! ### The two loops -/

section Loops

variable (clock : ℕ → K) (objs : List VciCanObj)

theorem becomes_publish1 (j : ℕ) :
    List.Forall₂ (Becomes overrun) objs (published .can1 (publish1 overrun clock j objs)) := by
  induction objs generalizing j with
  | nil => exact List.Forall₂.nil
  | cons o objs ih => exact List.Forall₂.cons ⟨clock j, "", rfl⟩ (ih (j + 1))

theorem published_can2_publish1 (j : ℕ) :
    published .can2 (publish1 overrun clock j objs) = [] := by
  induction objs generalizing j with
  | nil => rfl
  | cons o objs ih => exact ih (j + 1)

theorem becomes_collect2 (j : ℕ) {pubMsgs : List (Frame K)} {sent : List VciCanObj}
    (h : List.Forall₂ (Becomes overrun) sent pubMsgs) :
    List.Forall₂ (Becomes overrun) (sent ++ objs) (collect2 overrun clock j objs pubMsgs) := by
  induction objs generalizing j pubMsgs sent with
  | nil =>
    rw [List.append_nil]
    exact h
  | cons o objs ih =>
    -- the object goes to the end of the buffer
    have hpush : List.Forall₂ (Becomes overrun) (sent ++ [o])
        (pubMsgs ++ [toFrame overrun (clock j) "can2" o]) :=
      List.rel_append h (List.Forall₂.cons ⟨clock j, "can2", rfl⟩ List.Forall₂.nil)
    have hrest := ih (j + 1) hpush
    rw [List.append_assoc] at hrest
    exact hrest

theorem published_can2_canTx2 (fs : List (Frame K)) : published .can2 (fs.map .canTx2) = fs := by
  induction fs with
  | nil => rfl
  | cons f fs ih => exact congrArg (f :: ·) ih

theorem published_can1_canTx2 (fs : List (Frame K)) : published .can1 (fs.map .canTx2) = [] := by
  induction fs with
  | nil => rfl
  | cons f fs ih => exact ih

end Loops

/-! ### Steps and runs -/

/-- What `os` publishes on each topic is what it receives on that channel. -/
def Forwards (os : List (Output K)) : Prop :=
  ∀ ch, List.Forall₂ (Becomes overrun) (receivedOn ch (calls os)) (published ch os)

variable {overrun} in
theorem Forwards.append {os os' : List (Output K)} (h : Forwards overrun os)
    (h' : Forwards overrun os') : Forwards overrun (os ++ os') := by
  intro ch
  rw [calls_append, receivedOn_append, published_append]
  exact List.rel_append (h ch) (h' ch)

/-- Calls that receive nothing forward nothing. -/
theorem forwards_calls (cs : List VciCall) (h : ∀ ch, receivedOn ch cs = []) :
    Forwards overrun (cs.map (Output.call (K := K))) := by
  intro ch
  rw [calls_map_call, published_map_call, h ch]
  exact List.Forall₂.nil

theorem receivedOn_initCan (s : State) (r : InitReturns) (ch : Channel) :
    receivedOn ch (initCan s r).2 = [] := by
  refine List.flatMap_eq_nil_iff.mpr ?_
  intro c hc
  have hopening := opening_initCan s r c hc
  cases c with
  | receive ch' ret objs => exact absurd hopening id
  | _ => rfl

theorem receivedOn_pollOut_can1 (p : Poll K) :
    receivedOn .can1 (calls (pollOut overrun p)) = p.recv1.objs := by
  rw [calls_pollOut]
  simp [receivedOn]

theorem receivedOn_pollOut_can2 (p : Poll K) :
    receivedOn .can2 (calls (pollOut overrun p)) = p.recv2.objs := by
  rw [calls_pollOut]
  simp [receivedOn]

/-- A receive that finds the adapter gone has nothing to show. -/
theorem receivedOn_offline {r : Receive K} (hoff : r.ret.toInt = -1) (ch ch' : Channel) :
    receivedOn ch [.receive ch' r.ret r.objs] = [] := by
  have hnone : r.objs = [] := Receive.objs_eq_nil (by omega)
  simp [receivedOn, hnone]

theorem forwards_pollOut (p : Poll K) : Forwards overrun (pollOut overrun p) := by
  intro ch
  cases ch with
  | can1 =>
    rw [receivedOn_pollOut_can1]
    unfold pollOut
    rw [published_call, published_append, published_call, published_can1_canTx2, List.append_nil]
    exact becomes_publish1 overrun p.recv1.clock p.recv1.objs 0
  | can2 =>
    rw [receivedOn_pollOut_can2]
    unfold pollOut
    rw [published_call, published_append, published_call, published_can2_publish1,
      published_can2_canTx2, List.nil_append]
    exact becomes_collect2 overrun p.recv2.clock p.recv2.objs 0 List.Forall₂.nil

/-- **One step.** A poll that opens the adapter, or finds it gone, receives nothing. -/
theorem forwards_step (s : State) (e : Event K) : Forwards overrun (step overrun s e).2 := by
  cases e with
  | poll p =>
    change Forwards overrun (canReceiveParse overrun s p).2
    rcases poll_cases overrun s p with ⟨-, heq⟩ | ⟨-, hoff, heq⟩ | ⟨-, -, heq⟩
    · rw [heq]
      exact forwards_calls overrun _ (receivedOn_initCan s p.init)
    · rw [heq]
      exact forwards_calls overrun [_] (receivedOn_offline hoff · .can1)
    · rw [heq]
      exact forwards_pollOut overrun p
  | canRx1 msg => exact forwards_calls overrun [_] (fun _ => rfl)
  | canRx2 msg => exact forwards_calls overrun [_] (fun _ => rfl)

/-- **Received frames are forwarded.** In every run, with any answers of the vendor
library: the messages on a `can_tx` topic are, in order and one for one, the objects
received on that channel, as long as those are at most eight bytes long. -/
theorem frames_forwarded (r₀ : InitReturns) (es : List (Event K)) (ch : Channel)
    (hlen : ∀ o ∈ receivedOn ch (calls (log overrun r₀ es)), o.dataLen.toNat ≤ 8) :
    List.Forall₂ Carries (receivedOn ch (calls (log overrun r₀ es)))
      (published ch (log overrun r₀ es)) := by
  have hconstruct : Forwards (K := K) overrun ((initCan ⟨false⟩ r₀).2.map .call) :=
    forwards_calls overrun _ (receivedOn_initCan ⟨false⟩ r₀)
  have htrace : Forwards overrun ((canBridgeNode overrun r₀).trace es) :=
    Machine.traceFrom_append_induction _ (fun _ => by simp [receivedOn])
      (fun _ _ => Forwards.append) (forwards_step overrun) _ es
  have hall := hconstruct.append htrace ch
  -- the length of each object is known where it stands in the list
  exact ((List.forall₂_and_left _ _).mpr ⟨hlen, hall⟩).imp fun o f h => h.2.carries overrun h.1

/-- An extended frame of two bytes. -/
def shortObj : VciCanObj where
  id := 0x18C4D2EF
  sendType := 0
  remoteFlag := 0
  externFlag := 1
  dataLen := 2
  data := #v[1, 2, 3, 4, 5, 6, 7, 8]

/-- A remote frame without data. -/
def remoteObj : VciCanObj :=
  { shortObj with id := 0x7FF, remoteFlag := 1, externFlag := 0, dataLen := 0 }

/-- The library returns some objects, up to what `rec` holds. -/
def received (os : List VciCanObj) : Receive ℚ where
  ret := BitVec.ofNat 32 (os.take 2500).length
  objs := os.take 2500
  clock := fun _ => 0
  length_eq := by
    have hlen : (os.take 2500).length ≤ 2500 := List.length_take_le 2500 os
    generalize (os.take 2500).length = n at hlen ⊢
    have hnat : (BitVec.ofNat 32 n).toNat = n := by
      rw [BitVec.toNat_ofNat]
      omega
    rw [BitVec.toInt_eq_toNat_cond, hnat, if_pos (by omega), Int.toNat_natCast]
  length_le := List.length_take_le 2500 os

/-- The adapter is opened by the first poll, and the next two find frames on both
channels. -/
def busyPolls : List (Event ℚ) :=
  [.poll ⟨⟨1, 1, 1, 1, 1⟩, .offline fun _ => 0, .offline fun _ => 0⟩,
    .poll ⟨⟨1, 1, 1, 1, 1⟩, received [shortObj, remoteObj], received [remoteObj]⟩,
    .poll ⟨⟨1, 1, 1, 1, 1⟩, received [shortObj], received [shortObj, remoteObj, shortObj]⟩]

/-- `frames_forwarded` on that run, for both channels. -/
theorem frames_forwarded_busy :
    List.Forall₂ Carries [shortObj, remoteObj, shortObj]
        (published .can1 (log (fun o => o.data) ⟨0, 0, 0, 0, 0⟩ busyPolls)) ∧
      List.Forall₂ Carries [remoteObj, shortObj, remoteObj, shortObj]
        (published .can2 (log (fun o => o.data) ⟨0, 0, 0, 0, 0⟩ busyPolls)) :=
  ⟨frames_forwarded (fun o => o.data) ⟨0, 0, 0, 0, 0⟩ busyPolls .can1 (by decide),
    frames_forwarded (fun o => o.data) ⟨0, 0, 0, 0, 0⟩ busyPolls .can2 (by decide)⟩

end Bridge
end WtbAutoware
