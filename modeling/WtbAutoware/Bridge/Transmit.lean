import WtbAutoware.Bridge.Node

/-!
# Frames handed over for transmission

The two callbacks hand every message to `VCI_Transmit` at once. They do not look at
`can_f`, and no other part of the bridge stands between them and the library, so a
frame is handed over whether or not its channel has been started:
`closedAdapter_transmits` is a run that does it with an adapter that never opened.

What the bridge does keep is the meaning of `can_f` (`startedSince_of_canF`): while it
is set, the latest `Init_Can` has opened the device and started both channels, and no
poll since has found the adapter gone on the first channel. `transmit_spec` puts the two
together: the objects that are handed over are those that the messages ask for
(`AsksFor`), field by field.
-/

namespace WtbAutoware
namespace Bridge

open Reactive

/-- A receive that found the adapter gone. -/
def Offline : VciCall → Prop
  | .receive _ ret _ => ret.toInt = -1
  | _ => False

/-- A receive on the first channel that found the adapter gone. -/
def FirstOffline : VciCall → Prop
  | .receive .can1 ret _ => ret.toInt = -1
  | _ => False

/-- The latest `Init_Can` opened the device, and initialised and started the channel;
no call since has been one of the `lost`. -/
def StartedSince (lost : VciCall → Prop) (ch : Channel) (cs : List VciCall) : Prop :=
  ∃ before since, cs = before ++ .openDevice 1 :: since ∧
    (∀ ret, VciCall.openDevice ret ∉ since) ∧ (∃ config, VciCall.initCAN ch config 1 ∈ since) ∧
    VciCall.startCAN ch 1 ∈ since ∧ ∀ c ∈ since, ¬ lost c

/-- Frames are handed over for a started channel only. -/
def TransmitsGated (cs : List VciCall) : Prop :=
  ∀ before ch vco since, cs = before ++ .transmit ch vco :: since →
    StartedSince Offline ch before

/-- The objects handed over for a channel. -/
def transmitted (ch : Channel) (cs : List VciCall) : List VciCanObj :=
  cs.filterMap fun
    | .transmit ch' vco => if ch' = ch then some vco else none
    | _ => none

variable {K : Type} (overrun : VciCanObj → Vector (BitVec 8) 8)

/-- The message of an event on the `can_rx` topic of a channel. -/
def canRx : Channel → Event K → List (Frame K)
  | .can1, .canRx1 msg => [msg]
  | .can2, .canRx2 msg => [msg]
  | _, _ => []

/-- The object that a message asks to transmit: its own fields, to be sent once. -/
structure AsksFor (msg : Frame K) (vco : VciCanObj) : Prop where
  id : vco.id = msg.id
  sendType : vco.sendType = 1
  remoteFlag : vco.remoteFlag = if msg.isRtr = true then 1 else 0
  externFlag : vco.externFlag = if msg.isExtended = true then 1 else 0
  dataLen : vco.dataLen = msg.dlc
  data : ∀ (i : ℕ) (_ : i < 8), vco.data[i] = msg.data[i]

theorem asksFor_toVco (msg : Frame K) : AsksFor msg (toVco msg) where
  id := rfl
  sendType := rfl
  remoteFlag := by
    change boolByte msg.isRtr = _
    cases msg.isRtr <;> rfl
  externFlag := by
    change boolByte msg.isExtended = _
    cases msg.isExtended <;> rfl
  dataLen := rfl
  data _ _ := rfl

/-- Calls that keep a started channel started. -/
theorem StartedSince.append {lost : VciCall → Prop} {ch : Channel} {cs cs' : List VciCall}
    (h : StartedSince lost ch cs) (hopen : ∀ ret, VciCall.openDevice ret ∉ cs')
    (hlost : ∀ c ∈ cs', ¬ lost c) : StartedSince lost ch (cs ++ cs') := by
  obtain ⟨before, since, rfl, hlatest, ⟨config, hinit⟩, hstart, hkept⟩ := h
  refine ⟨before, since ++ cs', by simp, ?_, ⟨config, ?_⟩, ?_, ?_⟩
  · intro ret hmem
    rcases List.mem_append.mp hmem with hmem | hmem
    · exact hlatest ret hmem
    · exact hopen ret hmem
  · exact List.mem_append_left _ hinit
  · exact List.mem_append_left _ hstart
  · intro c hmem
    rcases List.mem_append.mp hmem with hmem | hmem
    · exact hkept c hmem
    · exact hlost c hmem

/-- An `Init_Can` that succeeds starts both channels. -/
theorem startedSince_initCalls (ch : Channel) (cs : List VciCall) :
    StartedSince FirstOffline ch (cs ++ initCalls) := by
  refine ⟨cs, _, rfl, by simp, ⟨vic, ?_⟩, ?_, by simp [FirstOffline]⟩
  · cases ch <;> simp
  · cases ch <;> simp

/-- **What `can_f` means.** While it is set, both channels are started, as far as the
first one has been asked. -/
theorem startedSince_of_canF (r₀ : InitReturns) (es : List (Event K))
    (hcan : (stateAfter overrun r₀ es).canF = true) (ch : Channel) :
    StartedSince FirstOffline ch (calls (log overrun r₀ es)) := by
  induction es using List.reverseRecOn with
  | nil =>
    rw [log_nil, calls_map_call]
    rcases initCan_cases ⟨false⟩ r₀ with ⟨-, heq⟩ | ⟨-, hclosed, -⟩
    · rw [heq]
      exact startedSince_initCalls ch []
    · change (initCan ⟨false⟩ r₀).1.canF = true at hcan
      rw [hclosed] at hcan
      exact absurd hcan (by decide)
  | append_singleton es e ih =>
    rw [stateAfter_concat] at hcan
    rw [log_concat, calls_append]
    cases e with
    | poll p =>
      change (canReceiveParse overrun (stateAfter overrun r₀ es) p).1.canF = true at hcan
      change StartedSince FirstOffline ch
        (_ ++ calls (canReceiveParse overrun (stateAfter overrun r₀ es) p).2)
      rcases poll_cases overrun (stateAfter overrun r₀ es) p with
        ⟨-, heq⟩ | ⟨-, -, heq⟩ | ⟨hopen, hon, heq⟩
      · -- `Init_Can` set it, so it succeeded
        rw [heq] at hcan ⊢
        rw [calls_map_call]
        rcases initCan_cases (stateAfter overrun r₀ es) p.init with ⟨-, hinit⟩ | ⟨-, hclosed, -⟩
        · rw [hinit]
          exact startedSince_initCalls ch _
        · rw [hclosed] at hcan
          exact absurd hcan (by decide)
      · -- `can_f` has just been cleared
        rw [heq] at hcan
        exact absurd hcan Bool.false_ne_true
      · rw [heq, calls_pollOut]
        exact (ih hopen).append (by simp) (by simp [FirstOffline, hon])
    | canRx1 msg =>
      change StartedSince FirstOffline ch (_ ++ [.transmit .can1 (toVco msg)])
      exact (ih hcan).append (by simp) (by simp [FirstOffline])
    | canRx2 msg =>
      change StartedSince FirstOffline ch (_ ++ [.transmit .can2 (toVco msg)])
      exact (ih hcan).append (by simp) (by simp [FirstOffline])

theorem transmitted_append (ch : Channel) (cs cs' : List VciCall) :
    transmitted ch (cs ++ cs') = transmitted ch cs ++ transmitted ch cs' :=
  List.filterMap_append

theorem transmitted_initCan (s : State) (r : InitReturns) (ch : Channel) :
    transmitted ch (initCan s r).2 = [] := by
  refine List.filterMap_eq_nil_iff.mpr ?_
  intro c hc
  have hopening := opening_initCan s r c hc
  cases c with
  | transmit ch' vco => exact absurd hopening id
  | _ => rfl

/-- **One step.** A message is handed over whatever the state, and a poll transmits
nothing. -/
theorem transmitted_step (s : State) (e : Event K) (ch : Channel) :
    List.Forall₂ AsksFor (canRx ch e) (transmitted ch (calls (step overrun s e).2)) := by
  cases e with
  | poll p =>
    have hnone : canRx ch (.poll p) = [] := by cases ch <;> rfl
    have hcalls : transmitted ch (calls (canReceiveParse overrun s p).2) = [] := by
      rcases poll_cases overrun s p with ⟨-, heq⟩ | ⟨-, -, heq⟩ | ⟨-, -, heq⟩
      · rw [heq, calls_map_call]
        exact transmitted_initCan s p.init ch
      · rw [heq]
        rfl
      · rw [heq, calls_pollOut]
        rfl
    change List.Forall₂ AsksFor _ (transmitted ch (calls (canReceiveParse overrun s p).2))
    rw [hnone, hcalls]
    exact .nil
  | canRx1 msg =>
    cases ch with
    | can1 => exact .cons (asksFor_toVco msg) .nil
    | can2 => exact .nil
  | canRx2 msg =>
    cases ch with
    | can1 => exact .nil
    | can2 => exact .cons (asksFor_toVco msg) .nil

/-- **Transmission.** Over every run, what is handed over for a channel is what the
messages on its `can_rx` topic ask for, in order and one for one, whatever the state of the
adapter; and whenever `can_f` is set, both channels are started. -/
theorem transmit_spec (r₀ : InitReturns) (es : List (Event K)) (ch : Channel) :
    List.Forall₂ AsksFor (es.flatMap (canRx ch)) (transmitted ch (calls (log overrun r₀ es))) ∧
      ∀ pre post, es = pre ++ post → (stateAfter overrun r₀ pre).canF = true →
        StartedSince FirstOffline ch (calls (log overrun r₀ pre)) := by
  refine ⟨?_, ?_⟩
  · induction es using List.reverseRecOn with
    | nil =>
      rw [log_nil, calls_map_call, transmitted_initCan]
      exact .nil
    | append_singleton es e ih =>
      rw [log_concat, calls_append, transmitted_append, List.flatMap_append, List.flatMap_singleton]
      exact List.rel_append ih (transmitted_step overrun _ e ch)
  · intro pre post _ hcan
    exact startedSince_of_canF overrun r₀ pre hcan ch

/-- The device cannot be opened, and the frame that comes next is handed over all the
same. -/
theorem closedAdapter_transmits :
    ¬ TransmitsGated (calls (log (fun o => o.data) ⟨0, 0, 0, 0, 0⟩
      [.canRx1 ⟨⟨(0 : ℚ), ""⟩, 0x18C4D2D0, false, true, false, 8, .replicate 8 0⟩])) := by
  intro h
  obtain ⟨before, since, heq, -⟩ := h [.openDevice 0] .can1
    (toVco ⟨⟨(0 : ℚ), ""⟩, 0x18C4D2D0, false, true, false, 8, .replicate 8 0⟩) [] rfl
  -- nothing in front of it has opened the device
  have hmem : VciCall.openDevice 1 ∈ [VciCall.openDevice 0] := by
    rw [heq]
    simp
  revert hmem
  decide

end Bridge
end WtbAutoware
