import WtbAutoware.Platform
import WtbAutoware.Framework.Machine

/-!
# The CAN bridge `can_bridge`

`CanBridgeNode` sits between a two-channel USB adapter and the ROS topics of its
two channels. Its receive thread polls the adapter (`canReceiveParse`), and two
callbacks hand frames over for transmission (`canRxCallback1`, `canRxCallback2`). A
poll and a callback each count as one step. The vendor library answers through
return values, which are part of the event: `InitReturns` are its answers to the
calls of one `Init_Can`, a `Receive` is what one `VCI_Receive` returns and stores.

The steps put out both what they publish and what they call (`VciCall`, with the
answer), in order, so that a law about the adapter is a law about the log of calls
(`log`, which starts with the constructor's `Init_Can`).

Every call names the same adapter (`DevType` 4, `DevIndex` 0), and `dwRel` is read
only right after it is written; neither is modelled. `Can_close`, `sendMsg1` and
`sendMsg2` have no callers.
-/

namespace WtbAutoware
namespace Bridge

open Reactive

/-- `CANIndex` and `CANIndex2`. -/
inductive Channel where
  | can1
  | can2
  deriving DecidableEq

/-- `VCI_CAN_OBJ`: the members that the bridge reads or writes. -/
structure VciCanObj where
  id : BitVec 32
  sendType : BitVec 8
  remoteFlag : BitVec 8
  externFlag : BitVec 8
  dataLen : BitVec 8
  data : Vector (BitVec 8) 8
  deriving DecidableEq

/-- `VCI_INIT_CONFIG`. -/
structure VciInitConfig where
  accCode : BitVec 32
  accMask : BitVec 32
  filter : BitVec 8
  timing0 : BitVec 8
  timing1 : BitVec 8
  mode : BitVec 8
  deriving DecidableEq

/-- The configuration of both channels: 500 kbit/s, no filter. -/
def vic : VciInitConfig where
  accCode := 0x80000008
  accMask := 0xFFFFFFFF
  filter := 1
  timing0 := 0x00
  timing1 := 0x1c
  mode := 0

/-- A call of the vendor library, with its answer where the bridge looks at it. -/
inductive VciCall where
  | openDevice (ret : BitVec 32)
  | closeDevice
  | clearBuffer (canInd : Channel)
  | initCAN (canInd : Channel) (config : VciInitConfig) (ret : BitVec 32)
  | startCAN (canInd : Channel) (ret : BitVec 32)
  | receive (canInd : Channel) (ret : BitVec 32) (objs : List VciCanObj)
  | transmit (canInd : Channel) (vco : VciCanObj)
  deriving DecidableEq

/-- The answers to the calls of one `Init_Can`, as far as it gets. -/
structure InitReturns where
  openDevice : BitVec 32
  initCan1 : BitVec 32
  startCan1 : BitVec 32
  initCan2 : BitVec 32
  startCan2 : BitVec 32

/-- What one `VCI_Receive` returns, the objects it has stored, and the clock readings
taken while they are converted. The number returned is the number stored, and at most
the 2500 that `rec` holds; a negative number stores nothing. -/
structure Receive (K : Type) where
  ret : BitVec 32
  objs : List VciCanObj
  clock : ℕ → K
  length_eq : objs.length = ret.toInt.toNat
  length_le : objs.length ≤ 2500

/-- A receive that finds the adapter unplugged. -/
def Receive.offline {K : Type} (clock : ℕ → K) : Receive K where
  ret := 0xFFFFFFFF
  objs := []
  clock := clock
  length_eq := rfl
  length_le := Nat.zero_le _

/-- What the library answers during one poll. -/
structure Poll (K : Type) where
  init : InitReturns
  recv1 : Receive K
  recv2 : Receive K

/-- A poll of the receive thread, or a message on `can_rx_1` or `can_rx_2`. -/
inductive Event (K : Type) where
  | poll (answers : Poll K)
  | canRx1 (msg : Frame K)
  | canRx2 (msg : Frame K)

/-- A call of the library, or a message on `can_tx_1` or `can_tx_2`. -/
inductive Output (K : Type) where
  | call (c : VciCall)
  | canTx1 (msg : Frame K)
  | canTx2 (msg : Frame K)

/-- `can_f`: whether the adapter is taken to be open. -/
structure State where
  canF : Bool
  deriving DecidableEq

/-- The calls of the library among the outputs. -/
def calls {K : Type} (os : List (Output K)) : List VciCall :=
  os.filterMap fun
    | .call c => some c
    | _ => none

/-- The messages on a `can_tx` topic among the outputs. -/
def published {K : Type} : Channel → List (Output K) → List (Frame K)
  | .can1, os => os.filterMap fun
    | .canTx1 f => some f
    | _ => none
  | .can2, os => os.filterMap fun
    | .canTx2 f => some f
    | _ => none

section Outputs

variable {K : Type}

@[simp] theorem calls_nil : calls ([] : List (Output K)) = [] := rfl

@[simp] theorem calls_call (c : VciCall) (os : List (Output K)) :
    calls (.call c :: os) = c :: calls os := rfl

@[simp] theorem calls_append (os os' : List (Output K)) :
    calls (os ++ os') = calls os ++ calls os' := List.filterMap_append

@[simp] theorem calls_map_call (cs : List VciCall) :
    calls (cs.map (Output.call (K := K))) = cs := by
  induction cs with
  | nil => rfl
  | cons c cs ih => rw [List.map_cons, calls_call, ih]

@[simp] theorem published_nil (ch : Channel) : published ch ([] : List (Output K)) = [] := by
  cases ch <;> rfl

@[simp] theorem published_append (ch : Channel) (os os' : List (Output K)) :
    published ch (os ++ os') = published ch os ++ published ch os' := by
  cases ch <;> exact List.filterMap_append

@[simp] theorem published_call (ch : Channel) (c : VciCall) (os : List (Output K)) :
    published ch (.call c :: os) = published ch os := by
  cases ch <;> rfl

@[simp] theorem published_map_call (ch : Channel) (cs : List VciCall) :
    published ch (cs.map (Output.call (K := K))) = [] := by
  induction cs with
  | nil => exact published_nil ch
  | cons c cs ih => rw [List.map_cons, published_call, ih]

end Outputs

/-! ### Opening the adapter -/

/-- `Init_Can`. Its exits come after one, four, five, six and seven calls. -/
def initCan (s : State) (r : InitReturns) : State × List VciCall :=
  let opened := [.openDevice r.openDevice]
  if r.openDevice ≠ 1 then ({ s with canF := false }, opened)
  else
    let init1 := opened ++
      [.clearBuffer .can1, .clearBuffer .can2, .initCAN .can1 vic r.initCan1]
    if r.initCan1 ≠ 1 then ({ s with canF := false }, init1)
    else
      let start1 := init1 ++ [.startCAN .can1 r.startCan1]
      if r.startCan1 ≠ 1 then ({ s with canF := false }, start1)
      else
        let init2 := start1 ++ [.initCAN .can2 vic r.initCan2]
        if r.initCan2 ≠ 1 then ({ s with canF := false }, init2)
        else
          let start2 := init2 ++ [.startCAN .can2 r.startCan2]
          if r.startCan2 ≠ 1 then ({ s with canF := false }, start2)
          else ({ s with canF := true }, start2)

/-- Every call of `Init_Can` succeeds. -/
def InitReturns.Succeeds (r : InitReturns) : Prop :=
  r.openDevice = 1 ∧ r.initCan1 = 1 ∧ r.startCan1 = 1 ∧ r.initCan2 = 1 ∧ r.startCan2 = 1

instance : DecidablePred InitReturns.Succeeds := fun _ => inferInstanceAs (Decidable (_ ∧ _))

/-- The calls of an `Init_Can` that succeeds. -/
def initCalls : List VciCall :=
  [.openDevice 1, .clearBuffer .can1, .clearBuffer .can2, .initCAN .can1 vic 1,
    .startCAN .can1 1, .initCAN .can2 vic 1, .startCAN .can2 1]

/-- **The exits of `Init_Can`.** It marks the adapter open exactly if every call
succeeds. It always starts with one attempt to open the device, and opens and closes
nothing after that. -/
theorem initCan_cases (s : State) (r : InitReturns) :
    (r.Succeeds ∧ initCan s r = (⟨true⟩, initCalls)) ∨
    (¬ r.Succeeds ∧ (initCan s r).1 = ⟨false⟩ ∧
      ∃ rest, (initCan s r).2 = .openDevice r.openDevice :: rest ∧
        (∀ c ∈ rest, c ≠ .closeDevice ∧ ∀ ret, c ≠ .openDevice ret)) := by
  unfold initCan
  dsimp only
  by_cases hopen : r.openDevice = 1
  · rw [if_neg (not_not.mpr hopen)]
    by_cases hinit1 : r.initCan1 = 1
    · rw [if_neg (not_not.mpr hinit1)]
      by_cases hstart1 : r.startCan1 = 1
      · rw [if_neg (not_not.mpr hstart1)]
        by_cases hinit2 : r.initCan2 = 1
        · rw [if_neg (not_not.mpr hinit2)]
          by_cases hstart2 : r.startCan2 = 1
          · rw [if_neg (not_not.mpr hstart2), hopen, hinit1, hstart1, hinit2, hstart2]
            exact Or.inl ⟨⟨hopen, hinit1, hstart1, hinit2, hstart2⟩, rfl⟩
          · rw [if_pos hstart2]
            exact Or.inr ⟨fun h => hstart2 h.2.2.2.2, rfl, _, rfl, by simp⟩
        · rw [if_pos hinit2]
          exact Or.inr ⟨fun h => hinit2 h.2.2.2.1, rfl, _, rfl, by simp⟩
      · rw [if_pos hstart1]
        exact Or.inr ⟨fun h => hstart1 h.2.2.1, rfl, _, rfl, by simp⟩
    · rw [if_pos hinit1]
      exact Or.inr ⟨fun h => hinit1 h.2.1, rfl, _, rfl, by simp⟩
  · rw [if_pos hopen]
    exact Or.inr ⟨fun h => hopen h.1, rfl, [], rfl, by simp⟩

/-- The calls that `Init_Can` makes. -/
def VciCall.Opening : VciCall → Prop
  | .openDevice _ => True
  | .clearBuffer _ => True
  | .initCAN _ _ _ => True
  | .startCAN _ _ => True
  | _ => False

theorem opening_initCan (s : State) (r : InitReturns) : ∀ c ∈ (initCan s r).2, c.Opening := by
  unfold initCan
  dsimp only
  split
  · simp [VciCall.Opening]
  · split
    · simp [VciCall.Opening]
    · split
      · simp [VciCall.Opening]
      · split
        · simp [VciCall.Opening]
        · split <;> simp [VciCall.Opening]

/-! ### Receiving -/

section Node

variable {K : Type} (overrun : VciCanObj → Vector (BitVec 8) 8)

/-- `std::copy` of the first `DataLen` bytes into the zeroed data of a message. A
length above 8 runs over the end of both arrays, which leaves `overrun`. -/
def copyData (o : VciCanObj) : Vector (BitVec 8) 8 :=
  if o.dataLen.toNat ≤ 8 then
    Vector.ofFn fun i => if i.val < o.dataLen.toNat then o.data.get i else 0
  else overrun o

/-- The message that one received object becomes. -/
def toFrame (stamp : K) (frameId : String) (o : VciCanObj) : Frame K where
  header := ⟨stamp, frameId⟩
  id := o.id
  isRtr := o.remoteFlag ≠ 0
  isExtended := o.externFlag ≠ 0
  isError := false
  dlc := o.dataLen
  data := copyData overrun o

/-- The loop over the first channel's objects, from the `j`-th on: each is published as
soon as it is converted. -/
def publish1 (clock : ℕ → K) : ℕ → List VciCanObj → List (Output K)
  | _, [] => []
  | j, o :: objs => .canTx1 (toFrame overrun (clock j) "" o) :: publish1 clock (j + 1) objs

/-- The loop over the second channel's objects: all are converted into `pub_msgs`
first. -/
def collect2 (clock : ℕ → K) : ℕ → List VciCanObj → List (Frame K) → List (Frame K)
  | _, [], pubMsgs => pubMsgs
  | j, o :: objs, pubMsgs =>
    collect2 clock (j + 1) objs (pubMsgs ++ [toFrame overrun (clock j) "can2" o])

/-- `can_receive_parse`. -/
def canReceiveParse (s : State) (p : Poll K) : State × List (Output K) :=
  if s.canF = false then
    let opened := initCan s p.init
    (opened.1, opened.2.map .call)
  else
    let reclen := p.recv1.ret.toInt
    let received1 := .call (.receive .can1 p.recv1.ret p.recv1.objs)
    -- the adapter is gone: the second channel is not asked
    if reclen = -1 then ({ s with canF := false }, [received1])
    else
      let out1 := if 0 < reclen then publish1 overrun p.recv1.clock 0 p.recv1.objs else []
      -- the second answer is not compared with -1
      let reclen := p.recv2.ret.toInt
      let received2 := .call (.receive .can2 p.recv2.ret p.recv2.objs)
      let out2 :=
        if 0 < reclen then (collect2 overrun p.recv2.clock 0 p.recv2.objs []).map .canTx2 else []
      (s, received1 :: (out1 ++ received2 :: out2))

/-! ### Transmitting, and the node -/

/-- A `bool` in a byte. -/
def boolByte (b : Bool) : BitVec 8 := if b = true then 1 else 0

/-- The object that a message becomes. All eight bytes are copied, whatever the
length. -/
def toVco (msg : Frame K) : VciCanObj where
  id := msg.id
  sendType := 1
  remoteFlag := boolByte msg.isRtr
  externFlag := boolByte msg.isExtended
  dataLen := msg.dlc
  data := msg.data

/-- `can_rx_callback_1`. -/
def canRxCallback1 (s : State) (msg : Frame K) : State × List (Output K) :=
  (s, [.call (.transmit .can1 (toVco msg))])

/-- `can_rx_callback_2`. -/
def canRxCallback2 (s : State) (msg : Frame K) : State × List (Output K) :=
  (s, [.call (.transmit .can2 (toVco msg))])

/-- One poll, or one callback. -/
def step (s : State) : Event K → State × List (Output K)
  | .poll answers => canReceiveParse overrun s answers
  | .canRx1 msg => canRxCallback1 s msg
  | .canRx2 msg => canRxCallback2 s msg

/-- `CanBridgeNode`, with the answers to the `Init_Can` of its constructor. -/
def canBridgeNode (r₀ : InitReturns) : Machine State (Event K) (Output K) where
  init := (initCan ⟨false⟩ r₀).1
  step := step overrun

/-- The node after a run. -/
abbrev stateAfter (r₀ : InitReturns) (es : List (Event K)) : State :=
  (canBridgeNode overrun r₀).run es

/-- All that the bridge calls and publishes over a run, from the constructor on. -/
def log (r₀ : InitReturns) (es : List (Event K)) : List (Output K) :=
  (initCan ⟨false⟩ r₀).2.map .call ++ (canBridgeNode overrun r₀).trace es

theorem stateAfter_concat (r₀ : InitReturns) (es : List (Event K)) (e : Event K) :
    stateAfter overrun r₀ (es ++ [e]) = (step overrun (stateAfter overrun r₀ es) e).1 :=
  (canBridgeNode overrun r₀).run_concat es e

@[simp] theorem log_nil (r₀ : InitReturns) :
    log overrun r₀ ([] : List (Event K)) = (initCan ⟨false⟩ r₀).2.map .call := by
  simp [log]

theorem log_concat (r₀ : InitReturns) (es : List (Event K)) (e : Event K) :
    log overrun r₀ (es ++ [e]) =
      log overrun r₀ es ++ (step overrun (stateAfter overrun r₀ es) e).2 := by
  rw [log, log, Machine.trace_concat, List.append_assoc]
  rfl

/-! ### What a poll publishes and calls -/

section Poll

variable (clock : ℕ → K) (objs : List VciCanObj)

@[simp] theorem calls_publish1 (j : ℕ) : calls (publish1 overrun clock j objs) = [] := by
  induction objs generalizing j with
  | nil => rfl
  | cons o objs ih => exact ih (j + 1)

@[simp] theorem calls_canTx2 (fs : List (Frame K)) : calls (fs.map .canTx2) = [] := by
  induction fs with
  | nil => rfl
  | cons f fs ih => exact ih

/-- A receive that does not return a positive number has stored nothing. -/
theorem Receive.objs_eq_nil {r : Receive K} (h : ¬ 0 < r.ret.toInt) : r.objs = [] := by
  have hlen := r.length_eq
  rw [Int.toNat_eq_zero.mpr (not_lt.mp h)] at hlen
  exact List.length_eq_zero_iff.mp hlen

variable (s : State) (p : Poll K)

/-- What a poll of an open adapter puts out. -/
def pollOut : List (Output K) :=
  .call (.receive .can1 p.recv1.ret p.recv1.objs) ::
    (publish1 overrun p.recv1.clock 0 p.recv1.objs ++
      .call (.receive .can2 p.recv2.ret p.recv2.objs) ::
        (collect2 overrun p.recv2.clock 0 p.recv2.objs []).map .canTx2)

theorem calls_pollOut : calls (pollOut overrun p) =
    [.receive .can1 p.recv1.ret p.recv1.objs, .receive .can2 p.recv2.ret p.recv2.objs] := by
  simp [pollOut]

/-- **The polls.** A poll that finds `can_f` clear opens the adapter and does nothing
else; otherwise it asks the first channel and, unless that answers -1, the second. -/
theorem poll_cases :
    (s.canF = false ∧ canReceiveParse overrun s p =
      ((initCan s p.init).1, (initCan s p.init).2.map .call)) ∨
    (s.canF = true ∧ p.recv1.ret.toInt = -1 ∧ canReceiveParse overrun s p =
      (⟨false⟩, [.call (.receive .can1 p.recv1.ret p.recv1.objs)])) ∨
    (s.canF = true ∧ p.recv1.ret.toInt ≠ -1 ∧ canReceiveParse overrun s p =
      (s, pollOut overrun p)) := by
  unfold canReceiveParse
  dsimp only
  cases hcan : s.canF with
  | false => exact Or.inl ⟨rfl, rfl⟩
  | true =>
    refine Or.inr ?_
    rw [if_neg (by decide)]
    by_cases hoff : p.recv1.ret.toInt = -1
    · rw [if_pos hoff]
      exact Or.inl ⟨rfl, hoff, rfl⟩
    · rw [if_neg hoff]
      refine Or.inr ⟨rfl, hoff, ?_⟩
      -- the two guards only skip loops over nothing
      have hloop1 : (if 0 < p.recv1.ret.toInt then
          publish1 overrun p.recv1.clock 0 p.recv1.objs else []) =
          publish1 overrun p.recv1.clock 0 p.recv1.objs := by
        split
        · rfl
        · next h => rw [Receive.objs_eq_nil h]; rfl
      have hloop2 : (if 0 < p.recv2.ret.toInt then
          (collect2 overrun p.recv2.clock 0 p.recv2.objs []).map Output.canTx2 else []) =
          (collect2 overrun p.recv2.clock 0 p.recv2.objs []).map Output.canTx2 := by
        split
        · rfl
        · next h => rw [Receive.objs_eq_nil h]; rfl
      rw [hloop1, hloop2]
      rfl

end Poll
end Node

end Bridge
end WtbAutoware
