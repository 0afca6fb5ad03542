import WtbAutoware.Sensing.Transformer

/-!
# The layout a cloud is read with

`PointCloudTransformer2` resolves the offsets of the ring and time fields once and keeps
them. The ring offset that a cloud is read with is therefore the one that the first
message to declare such a field declared, be it this message or any before it, and the
same holds of the time offset and its datatype (`firstLayout`). That is an instance of
the latch rule, once for each of the two members (`ring_run`, `time_run`).

Beyond the layout nothing of the history reaches the clouds (`out_eq_publishedWith`). So
they are the same after two histories whose first declarations agree, and they are read
with the message's own layout if nothing before it declared another
(`clouds_of_first_layout`). After a message with another layout they are not:
`movedRing_misread` has two histories and a cloud whose ring is read from the wrong bytes
after one of them.
-/

namespace WtbAutoware
namespace Sensing

open Reactive

/-! ### Declarations -/

/-- Where to find the ring and the time in a point: the offset of the one, the offset and
the datatype of the other. -/
@[ext] structure Layout where
  ring : Option ℤ
  time : Option (ℤ × ℤ)
  deriving DecidableEq

section Declarations

variable {K : Type}

/-- The offset and datatype of the field `name`, if the message has it at an offset that
an `int` can hold. -/
def declared (m : PointCloud2 K) (name : String) : Option (ℤ × ℤ) :=
  if fieldOffset m name < 0 then none else some (fieldOffset m name, fieldDatatype m name)

/-- The ring offset in the message's own field list. -/
def declaredRing (m : PointCloud2 K) : Option ℤ :=
  (["ring", "channel"].findSome? (declared m)).map Prod.fst

/-- The time offset and datatype in the message's own field list. -/
def declaredTime (m : PointCloud2 K) : Option (ℤ × ℤ) :=
  ["timestamp", "time", "t"].findSome? (declared m)

/-- The layout that the message declares. -/
def ownLayout (m : PointCloud2 K) : Layout := ⟨declaredRing m, declaredTime m⟩

/-- The layout made of the first ring and the first time that the messages declare. -/
def firstLayout (ms : List (PointCloud2 K)) : Layout :=
  ⟨ms.findSome? declaredRing, ms.findSome? declaredTime⟩

/-- What `a` declares, `m` declares alike. -/
def Agrees (m a : PointCloud2 K) : Prop :=
  (declaredRing a = none ∨ declaredRing a = declaredRing m) ∧
    (declaredTime a = none ∨ declaredTime a = declaredTime m)

end Declarations

/-- The layout that the members hold. -/
def State.layout (s : State) : Layout where
  ring := if s.ringOffset < 0 then none else some s.ringOffset
  time := if s.timeOffset < 0 then none else some (s.timeOffset, s.timeDatatype)

/-- The members that hold a layout. -/
def Layout.toState (l : Layout) : State :=
  ⟨l.ring.getD (-1), (l.time.getD (-1, -1)).1, (l.time.getD (-1, -1)).2⟩

/-! ### One resolution -/

section Resolve

variable {K : Type} (m : PointCloud2 K)

theorem declaredRing_eq :
    declaredRing m = if resolveRing m < 0 then none else some (resolveRing m) := by
  unfold declaredRing resolveRing declared
  by_cases hring : fieldOffset m "ring" < 0
  · by_cases hchannel : fieldOffset m "channel" < 0
    · simp [hring, hchannel]
    · simp [hring, hchannel]
  · simp [hring]

theorem declaredTime_eq :
    declaredTime m = if (resolveTime m).1 < 0 then none else some (resolveTime m) := by
  unfold declaredTime resolveTime declared
  by_cases hstamp : fieldOffset m "timestamp" < 0
  · by_cases htime : fieldOffset m "time" < 0
    · by_cases ht : fieldOffset m "t" < 0
      · simp [hstamp, htime, ht]
      · simp [hstamp, htime, ht]
    · simp [hstamp, htime]
  · simp [hstamp]

variable (s : State)

theorem ring_resolveOffsets :
    (resolveOffsets m s).layout.ring = s.layout.ring.or (declaredRing m) := by
  rw [declaredRing_eq]
  unfold State.layout resolveOffsets
  by_cases h : s.ringOffset < 0
  · simp [h]
  · simp [h]

theorem time_resolveOffsets :
    (resolveOffsets m s).layout.time = s.layout.time.or (declaredTime m) := by
  rw [declaredTime_eq]
  unfold State.layout resolveOffsets
  by_cases h : s.timeOffset < 0
  · simp [h]
  · simp [h]

end Resolve

/-- Among values that agree with the last one wherever there is one, the first is the last. -/
theorem findSome?_concat_of_agree {α β : Type} {f : α → Option β} {as : List α} {b : α}
    (h : ∀ a ∈ as, f a = none ∨ f a = f b) : (as ++ [b]).findSome? f = f b := by
  induction as with
  | nil => rw [List.nil_append, List.findSome?_singleton]
  | cons a as ih =>
    have hrest := ih fun a' ha' => h a' (List.mem_cons_of_mem a ha')
    rw [List.cons_append, List.findSome?_cons, hrest]
    rcases h a List.mem_cons_self with hnone | hsame
    · rw [hnone]
    · rw [hsame]
      cases f b <;> rfl

/-- If nothing that came before declared otherwise, the first layout is the message's own. -/
theorem firstLayout_of_agrees {K : Type} {history : List (PointCloud2 K)} {m : PointCloud2 K}
    (h : ∀ a ∈ history, Agrees m a) : firstLayout (history ++ [m]) = ownLayout m := by
  ext1
  · exact findSome?_concat_of_agree fun a ha => (h a ha).1
  · exact findSome?_concat_of_agree fun a ha => (h a ha).2

/-! ### The layout after a run -/

section Run

variable {K : Type} [Field K] [LinearOrder K] [FloorRing K]
variable (E : Env K) (P : Params K)

theorem next_eq (s : State) (m : PointCloud2 K) :
    (pointCloudTransformer E P).next s m = resolveOffsets m s := by
  change (pointCloudCallback E P s m).1 = _
  unfold pointCloudCallback
  split <;> rfl

theorem ring_run (ms : List (PointCloud2 K)) :
    ((pointCloudTransformer E P).run ms).layout.ring = ms.findSome? declaredRing := by
  refine (pointCloudTransformer E P).latch_runFrom (fun s => s.layout.ring) declaredRing ?_
    State.initial ms
  intro s m
  rw [next_eq]
  exact ring_resolveOffsets m s

theorem time_run (ms : List (PointCloud2 K)) :
    ((pointCloudTransformer E P).run ms).layout.time = ms.findSome? declaredTime := by
  refine (pointCloudTransformer E P).latch_runFrom (fun s => s.layout.time) declaredTime ?_
    State.initial ms
  intro s m
  rw [next_eq]
  exact time_resolveOffsets m s

/-- The members hold what the first declarations were. -/
theorem layout_run (ms : List (PointCloud2 K)) :
    ((pointCloudTransformer E P).run ms).layout = firstLayout ms := by
  ext1
  · exact ring_run E P ms
  · exact time_run E P ms

end Run

/-! ### The clouds -/

section Clouds

variable {K : Type} [Field K] [LinearOrder K] [FloorRing K]
variable (E : Env K) (P : Params K)

/-- The two clouds for `m`, with ring and time read at the layout `l`. -/
def publishedWith (l : Layout) (m : PointCloud2 K) : List (Output K) :=
  match E.fromROSMsg m with
  | some cloudIn => publishClouds E l.toState m P cloudIn
  | none => []

omit [FloorRing K] in
theorem readUint16_layout (s : State) (m : PointCloud2 K) (point : ℤ) :
    readUint16 E m point s.layout.toState.ringOffset = readUint16 E m point s.ringOffset := by
  unfold State.layout Layout.toState readUint16
  by_cases h : s.ringOffset < 0
  · simp [h]
  · simp [h]

omit [FloorRing K] in
theorem pointTime_layout (s : State) (m : PointCloud2 K) (i : ℕ) :
    pointTime E s.layout.toState m i = pointTime E s m i := by
  unfold State.layout Layout.toState
  by_cases h : s.timeOffset < 0
  · -- neither state has a time field
    simp only [pointTime, h, if_true, Option.getD_none]
    rw [if_neg (by decide), if_neg (not_le.mpr h)]
  · simp [pointTime, absTime, h]

/-- A pass over the points depends on the state through its layout. -/
theorem convertPoints_layout (s : State) (m : PointCloud2 K) (points : List (PointXYZI K)) :
    convertPoints E s.layout.toState m P points = convertPoints E s m P points := by
  unfold convertPoints autowarePoint liosamPoint
  simp only [readUint16_layout, pointTime_layout]

theorem out_eq_publishedWith (s : State) (m : PointCloud2 K) :
    (pointCloudTransformer E P).out s m = publishedWith E P (resolveOffsets m s).layout m := by
  change (pointCloudCallback E P s m).2 = _
  unfold pointCloudCallback publishedWith
  cases E.fromROSMsg m with
  | none => rfl
  | some cloudIn =>
    change publishClouds E (resolveOffsets m s) m P cloudIn =
      publishClouds E (resolveOffsets m s).layout.toState m P cloudIn
    unfold publishClouds
    rw [convertPoints_layout]

/-- After `history`, `m` is read with the first layout of the two together. -/
theorem out_run (history : List (PointCloud2 K)) (m : PointCloud2 K) :
    (pointCloudTransformer E P).out ((pointCloudTransformer E P).run history) m =
      publishedWith E P (firstLayout (history ++ [m])) m := by
  rw [out_eq_publishedWith, ← next_eq E P, ← Machine.run_concat, layout_run]

/-- The clouds for a message do not depend on what came before it. -/
def HistoryIndependent : Prop :=
  ∀ history history' m,
    (pointCloudTransformer E P).out ((pointCloudTransformer E P).run history) m =
      (pointCloudTransformer E P).out ((pointCloudTransformer E P).run history') m

/-- **Every cloud is read with the layout declared first.** In particular, two histories
with the same first declarations lead to the same clouds, and a message is read with its
own layout if no earlier one declared another. -/
theorem clouds_of_first_layout :
    (∀ history m,
      (pointCloudTransformer E P).out ((pointCloudTransformer E P).run history) m =
        publishedWith E P (firstLayout (history ++ [m])) m) ∧
    (∀ history history' m,
      firstLayout (history ++ [m]) = firstLayout (history' ++ [m]) →
      (pointCloudTransformer E P).out ((pointCloudTransformer E P).run history) m =
        (pointCloudTransformer E P).out ((pointCloudTransformer E P).run history') m) ∧
    ∀ history m, (∀ a ∈ history, Agrees m a) →
      (pointCloudTransformer E P).out ((pointCloudTransformer E P).run history) m =
        publishedWith E P (ownLayout m) m := by
  refine ⟨out_run E P, ?_, ?_⟩
  · intro history history' m h
    rw [out_run, out_run, h]
  · intro history m h
    rw [out_run, firstLayout_of_agrees h]

end Clouds

/-! ### A message after one with another layout -/

section Moved

/-- A cloud of one point, with the ring at `offset` in it. -/
def singlePoint (offset : BitVec 32) : PointCloud2 ℚ where
  header := { stamp := 0, frameId := "laser" }
  height := 1
  width := 1
  fields :=
    [⟨"x", 0, 7, 1⟩, ⟨"y", 4, 7, 1⟩, ⟨"z", 8, 7, 1⟩, ⟨"intensity", 12, 7, 1⟩,
      ⟨"ring", offset, 4, 1⟩]
  isBigendian := false
  pointStep := 20
  rowStep := 20
  data := List.replicate 16 0 ++ [3, 0, 5, 0]
  isDense := true

/-- The laser sits in `base_link`, and no byte around a message is set. -/
def Env.rat : Env ℚ where
  fromROSMsg := fromROSMsgXyzi
  T := 1
  singleStrongest := 1
  beyond := fun _ => 0
  float := .float32

/-- A point whose ring is 5 is published with ring 3 after a message that had its ring two
bytes earlier. -/
theorem movedRing_misread : ¬ HistoryIndependent Env.rat Params.default := by
  intro h
  have heq := h [] [singlePoint 16] (singlePoint 18)
  revert heq
  decide +kernel

end Moved

end Sensing
end WtbAutoware
