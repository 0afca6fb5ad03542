import WtbAutoware.Mapping.Preintegration

/-!
# LIO-SAM's `TransformFusion`

The node that joins the two odometries. It keeps the last pose of the lidar odometry and
the IMU odometry since then, and publishes the former moved on by the increment of the
latter, from the front of its queue to the back. A message of the lidar odometry does not
touch the queue; the next IMU odometry pops what has become too old.

The callback reads the front of its queue behind the loop that pops from it, and the front
of an empty deque is undefined. `imuOdometryHandler` is `none` there. What is in front, and
whether there is anything, can be said from the messages alone as long as the stamps of the
lidar odometry do not go back (`fused_odometry`).

Poses are elements of a group. The broadcast of the pose as a transform, with the lookup of
`lidar2Baselink`, is left out.
-/

namespace WtbAutoware
namespace Mapping
namespace Fusion

/-! ### The node -/

/-- `nav_msgs/Odometry`, with its pose as `odom2affine` reads it. -/
structure Odometry (K T : Type) where
  stamp : K
  pose : T

/-- The members, and the two static variables of the callback. -/
structure State (K T : Type) where
  lidarOdomAffine : T
  lidarOdomTime : K
  imuOdomQueue : List (Odometry K T)
  imuPath : List (Odometry K T)
  lastPathTime : K

inductive Event (K T : Type) where
  | lidarOdometry (msg : Odometry K T)
  | imuOdometry (msg : Odometry K T)

/-- What is published: odometry, and the poses of the path if anyone subscribes to it. -/
inductive Output (K T : Type) where
  | odometry (msg : Odometry K T)
  | path (poses : List (Odometry K T))

section Node

variable {K T : Type} [Field K] [LinearOrder K] [Group T]

/-- The members after construction; an `Isometry3d` starts with what is in its memory. -/
def State.initial (garbage : T) : State K T where
  lidarOdomAffine := garbage
  lidarOdomTime := -1
  imuOdomQueue := []
  imuPath := []
  lastPathTime := -1

/-- `lidarOdometryHandler`. -/
def lidarOdometryHandler (s : State K T) (odomMsg : Odometry K T) : State K T :=
  { s with lidarOdomAffine := odomMsg.pose, lidarOdomTime := odomMsg.stamp }

/-- The messages that are left when those up to `t` are popped from the front. -/
def newerThan (t : K) (queue : List (Odometry K T)) : List (Odometry K T) :=
  queue.dropWhile fun m => m.stamp ≤ t

/-- publish IMU path: a pose every tenth of a second, and none much older than the lidar
odometry. -/
def publishPath (s : State K T) (odom : Odometry K T) : State K T × List (Output K T) :=
  if 1 / 10 < odom.stamp - s.lastPathTime then
    let poses := (s.imuPath ++ [odom]).dropWhile fun m => m.stamp < s.lidarOdomTime - 1
    ({ s with lastPathTime := odom.stamp, imuPath := poses }, [.path poses])
  else (s, [])

/-- `imuOdometryHandler`. -/
def imuOdometryHandler (s : State K T) (odomMsg : Odometry K T) :
    Option (State K T × List (Output K T)) :=
  let queue := s.imuOdomQueue ++ [odomMsg]
  if s.lidarOdomTime = -1 then some ({ s with imuOdomQueue := queue }, [])
  else
    match newerThan s.lidarOdomTime queue with
    | [] => none
    | front :: rest =>
      let back := (front :: rest).getLast (List.cons_ne_nil front rest)
      let laserOdometry : Odometry K T :=
        ⟨back.stamp, s.lidarOdomAffine * (front.pose⁻¹ * back.pose)⟩
      let published := publishPath { s with imuOdomQueue := front :: rest } laserOdometry
      some (published.1, .odometry laserOdometry :: published.2)

/-- One callback. -/
def step (s : State K T) : Event K T → Option (State K T × List (Output K T))
  | .lidarOdometry msg => some (lidarOdometryHandler s msg, [])
  | .imuOdometry msg => imuOdometryHandler s msg

/-- The state after a run, unless it is undefined. -/
def run (garbage : T) (es : List (Event K T)) : Option (State K T) :=
  es.foldlM (fun s e => (step s e).map Prod.fst) (State.initial garbage)

end Node

/-! ### What is in the queue -/

section Queue

variable {K T : Type}

def Event.lidar : Event K T → Option (Odometry K T)
  | .lidarOdometry msg => some msg
  | .imuOdometry _ => none

def Event.imu : Event K T → Option (Odometry K T)
  | .lidarOdometry _ => none
  | .imuOdometry msg => some msg

/-- The messages of the lidar odometry. -/
def lidars (es : List (Event K T)) : List (Odometry K T) := es.filterMap Event.lidar

/-- The messages of the IMU odometry. -/
def imus (es : List (Event K T)) : List (Odometry K T) := es.filterMap Event.imu

variable [LinearOrder K]

theorem newerThan_append (t : K) (xs ys : List (Odometry K T)) :
    newerThan t (xs ++ ys) =
      if newerThan t xs = [] then newerThan t ys else newerThan t xs ++ ys := by
  unfold newerThan
  rw [List.dropWhile_append]
  simp only [List.isEmpty_iff]

/-- What is popped early would be popped later. -/
theorem newerThan_newerThan {t t' : K} (h : t ≤ t') (xs : List (Odometry K T)) :
    newerThan t' (newerThan t xs) = newerThan t' xs := by
  induction xs with
  | nil => rfl
  | cons m xs ih =>
    by_cases hm : m.stamp ≤ t
    · have hpop : newerThan t (m :: xs) = newerThan t xs :=
        List.dropWhile_cons_of_pos (by simpa using hm)
      have hpop' : newerThan t' (m :: xs) = newerThan t' xs :=
        List.dropWhile_cons_of_pos (by simpa using hm.trans h)
      rw [hpop, hpop', ih]
    · have hkeep : newerThan t (m :: xs) = m :: xs :=
        List.dropWhile_cons_of_neg (by simpa using hm)
      rw [hkeep]

theorem newerThan_eq_nil {t : K} {xs : List (Odometry K T)} :
    newerThan t xs = [] ↔ ∀ m ∈ xs, m.stamp ≤ t := by
  unfold newerThan
  rw [List.dropWhile_eq_nil_iff]
  simp

variable [Field K] [Group T]

/-- What the members are behind a run. -/
structure Queued (es : List (Event K T)) (s : State K T) : Prop where
  lidar : ∀ l ∈ (lidars es).getLast?, s.lidarOdomTime = l.stamp ∧ s.lidarOdomAffine = l.pose
  noLidar : lidars es = [] → s.lidarOdomTime = -1
  /-- From the time of the lidar odometry on, the queue is as good as all messages. -/
  queue : ∀ t, s.lidarOdomTime ≤ t → newerThan t s.imuOdomQueue = newerThan t (imus es)

omit [Group T] in
theorem publishPath_frame (s : State K T) (odom : Odometry K T) :
    (publishPath s odom).1.imuOdomQueue = s.imuOdomQueue ∧
      (publishPath s odom).1.lidarOdomTime = s.lidarOdomTime ∧
      (publishPath s odom).1.lidarOdomAffine = s.lidarOdomAffine := by
  unfold publishPath
  split
  · exact ⟨rfl, rfl, rfl⟩
  · exact ⟨rfl, rfl, rfl⟩

/-- **What an IMU odometry does**: it is queued, and with a lidar odometry the older ones are
popped. -/
theorem imuOdometryHandler_some {s s' : State K T} {m : Odometry K T} {os : List (Output K T)}
    (h : imuOdometryHandler s m = some (s', os)) :
    s'.lidarOdomTime = s.lidarOdomTime ∧ s'.lidarOdomAffine = s.lidarOdomAffine ∧
      (s'.imuOdomQueue = s.imuOdomQueue ++ [m] ∨
        s'.imuOdomQueue = newerThan s.lidarOdomTime (s.imuOdomQueue ++ [m])) := by
  unfold imuOdometryHandler at h
  dsimp only at h
  split at h
  · obtain ⟨rfl, -⟩ := Prod.mk.inj (Option.some.inj h)
    exact ⟨rfl, rfl, Or.inl rfl⟩
  · split at h
    · exact nomatch h
    · next front rest hnewer =>
      obtain ⟨rfl, -⟩ := Prod.mk.inj (Option.some.inj h)
      obtain ⟨hqueue, htime, hpose⟩ := publishPath_frame
        { s with imuOdomQueue := front :: rest }
        ⟨((front :: rest).getLast (List.cons_ne_nil front rest)).stamp, s.lidarOdomAffine *
          (front.pose⁻¹ * ((front :: rest).getLast (List.cons_ne_nil front rest)).pose)⟩
      exact ⟨htime, hpose, Or.inr (hqueue.trans hnewer.symm)⟩

theorem queued_imu {es : List (Event K T)} {s s' : State K T} {m : Odometry K T}
    {os : List (Output K T)} (h : Queued es s) (hstep : imuOdometryHandler s m = some (s', os)) :
    Queued (es ++ [.imuOdometry m]) s' := by
  obtain ⟨htime, hpose, hqueue⟩ := imuOdometryHandler_some hstep
  have hlidars : lidars (es ++ [.imuOdometry m]) = lidars es := by
    simp [lidars, Event.lidar]
  have himus : imus (es ++ [.imuOdometry m]) = imus es ++ [m] := by
    simp [imus, Event.imu]
  refine ⟨fun l hl => ?_, fun hnil => ?_, fun t ht => ?_⟩
  · rw [htime, hpose]
    exact h.lidar l (hlidars ▸ hl)
  · rw [htime]
    exact h.noLidar (hlidars ▸ hnil)
  · rw [htime] at ht
    have happend : newerThan t (s.imuOdomQueue ++ [m]) = newerThan t (imus es ++ [m]) := by
      rw [newerThan_append, newerThan_append, h.queue t ht]
    rw [himus, ← happend]
    rcases hqueue with heq | heq
    · rw [heq]
    · rw [heq, newerThan_newerThan ht]

omit [Group T] in
theorem queued_lidar {es : List (Event K T)} {s : State K T} {m : Odometry K T}
    (h : Queued es s) (hle : s.lidarOdomTime ≤ m.stamp) :
    Queued (es ++ [.lidarOdometry m]) (lidarOdometryHandler s m) := by
  have hlidars : lidars (es ++ [.lidarOdometry m]) = lidars es ++ [m] := by
    simp [lidars, Event.lidar]
  have himus : imus (es ++ [.lidarOdometry m]) = imus es := by
    simp [imus, Event.imu]
  refine ⟨fun l hl => ?_, fun hnil => ?_, fun t ht => ?_⟩
  · rw [hlidars, List.getLast?_concat] at hl
    obtain rfl := Option.some.inj hl
    exact ⟨rfl, rfl⟩
  · rw [hlidars] at hnil
    exact absurd hnil (by simp)
  · rw [himus]
    exact h.queue t (hle.trans ht)

end Queue

/-! ### Runs -/

section Run

variable {K T : Type} [Field K] [LinearOrder K] [IsStrictOrderedRing K] [Group T]

/-- The stamps of the lidar odometry are times, and do not go back. -/
def Timely (es : List (Event K T)) : Prop :=
  (∀ l ∈ lidars es, 0 ≤ l.stamp) ∧ (lidars es).Pairwise fun l l' => l.stamp ≤ l'.stamp

omit [IsStrictOrderedRing K] [Group T] in
theorem Timely.left {es fs : List (Event K T)} (h : Timely (es ++ fs)) : Timely es := by
  obtain ⟨hpos, hmono⟩ := h
  unfold lidars at hpos hmono
  rw [List.filterMap_append] at hpos hmono
  exact ⟨fun l hl => hpos l (List.mem_append_left _ hl), (List.pairwise_append.mp hmono).1⟩

variable {garbage : T}

omit [IsStrictOrderedRing K] in
theorem run_concat (es : List (Event K T)) (e : Event K T) :
    run garbage (es ++ [e]) =
      (run garbage es).bind fun s => (step s e).map Prod.fst := by
  unfold run
  rw [List.foldlM_append]
  cases List.foldlM (fun s e => (step s e).map Prod.fst) (State.initial garbage) es with
  | none => rfl
  | some s => simp [List.foldlM_cons]

theorem run_queued {es : List (Event K T)} {s : State K T} (hrun : run garbage es = some s)
    (htimely : Timely es) : Queued es s := by
  induction es using List.reverseRecOn generalizing s with
  | nil =>
    obtain rfl := Option.some.inj hrun
    exact ⟨fun l hl => (nomatch hl), fun _ => rfl, fun t _ => rfl⟩
  | append_singleton es e ih =>
    rw [run_concat] at hrun
    obtain ⟨s₁, hs₁, hstep⟩ := Option.bind_eq_some_iff.mp hrun
    obtain ⟨⟨s₂, os⟩, hs₂, rfl⟩ := Option.map_eq_some_iff.mp hstep
    have hqueued := ih hs₁ htimely.left
    cases e with
    | imuOdometry m => exact queued_imu hqueued hs₂
    | lidarOdometry m =>
      obtain ⟨rfl, -⟩ := Prod.mk.inj (Option.some.inj hs₂)
      refine queued_lidar hqueued ?_
      obtain ⟨hpos, hmono⟩ := htimely
      have hlidars : lidars (es ++ [.lidarOdometry m]) = lidars es ++ [m] := by
        simp [lidars, Event.lidar]
      rw [hlidars] at hpos hmono
      -- the time so far is that of an earlier message, or the one at the start
      cases hlast : (lidars es).getLast? with
      | none =>
        have hm := hpos m (by simp)
        rw [hqueued.noLidar (List.getLast?_eq_none_iff.mp hlast)]
        linarith
      | some l =>
        rw [(hqueued.lidar l hlast).1]
        exact (List.pairwise_append.mp hmono).2.2 l (List.mem_of_getLast? hlast) m (by simp)

/-- **What is published, and when nothing can be.** Behind any run in which the lidar
odometry does not go back in time, an IMU odometry moves the last lidar pose on by the
increment from the first IMU odometry that is newer than it; if no IMU odometry so far is
newer, the callback reads the front of an empty queue. -/
theorem fused_odometry {pre : List (Event K T)} {s : State K T}
    (hrun : run garbage pre = some s) (htimely : Timely pre) {l : Odometry K T}
    (hl : (lidars pre).getLast? = some l) (m : Odometry K T) :
    (imuOdometryHandler s m = none ↔ ∀ x ∈ imus pre ++ [m], x.stamp ≤ l.stamp) ∧
      ∀ front ∈ (newerThan l.stamp (imus pre ++ [m])).head?, ∃ s' os,
        imuOdometryHandler s m =
          some (s', .odometry ⟨m.stamp, l.pose * (front.pose⁻¹ * m.pose)⟩ :: os) := by
  have hqueued := run_queued hrun htimely
  obtain ⟨htime, hpose⟩ := hqueued.lidar l hl
  have hstart : s.lidarOdomTime ≠ -1 := by
    have hpos := htimely.1 l (List.mem_of_getLast? hl)
    rw [htime]
    linarith
  have hqueue : newerThan s.lidarOdomTime (s.imuOdomQueue ++ [m]) =
      newerThan l.stamp (imus pre ++ [m]) := by
    rw [newerThan_append, hqueued.queue _ le_rfl, ← newerThan_append, htime]
  unfold imuOdometryHandler
  dsimp only
  rw [if_neg hstart]
  cases hnewer : newerThan l.stamp (imus pre ++ [m]) with
  | nil =>
    rw [hnewer] at hqueue
    rw [hqueue]
    exact ⟨iff_of_true rfl (newerThan_eq_nil.mp hnewer), fun front hfront => (nomatch hfront)⟩
  | cons first rest =>
    rw [hnewer] at hqueue
    rw [hqueue]
    -- the message that has just come is the last of those that are left
    have hlast : (first :: rest).getLast (List.cons_ne_nil first rest) = m := by
      have hsuffix : first :: rest <:+ imus pre ++ [m] := hnewer ▸ List.dropWhile_suffix _
      obtain ⟨front, hfront⟩ := hsuffix
      have hget := congrArg List.getLast? hfront
      rw [List.getLast?_append_of_ne_nil _ (List.cons_ne_nil first rest),
        List.getLast?_concat, List.getLast?_eq_some_getLast (List.cons_ne_nil first rest)] at hget
      exact Option.some.inj hget
    refine ⟨iff_of_false (fun h => (nomatch h)) fun hall => ?_, fun front hfront => ?_⟩
    · exact List.cons_ne_nil first rest (hnewer.symm.trans (newerThan_eq_nil.mpr hall))
    · obtain rfl := Option.some.inj hfront
      dsimp only
      rw [hlast, hpose]
      exact ⟨_, _, rfl⟩

/-- **When a run is defined.** With a lidar odometry that does not go back in time, the node
never reads the front of an empty queue exactly if, at every IMU odometry behind a lidar
odometry, some IMU odometry so far is newer than the last lidar odometry. -/
theorem run_defined_iff {es : List (Event K T)} (htimely : Timely es) :
    run garbage es ≠ none ↔ ∀ pre m post, es = pre ++ .imuOdometry m :: post →
      ∀ l ∈ (lidars pre).getLast?, ∃ x ∈ imus pre ++ [m], l.stamp < x.stamp := by
  induction es using List.reverseRecOn with
  | nil =>
    refine iff_of_true (fun h => (nomatch h)) fun pre m post h => ?_
    simp at h
  | append_singleton es e ih =>
    have hes := ih htimely.left
    -- an occurrence is one in `es`, or the last event
    have hsplit : (∀ pre m post, es ++ [e] = pre ++ .imuOdometry m :: post →
        ∀ l ∈ (lidars pre).getLast?, ∃ x ∈ imus pre ++ [m], l.stamp < x.stamp) ↔
        run garbage es ≠ none ∧ ∀ m, e = .imuOdometry m →
          ∀ l ∈ (lidars es).getLast?, ∃ x ∈ imus es ++ [m], l.stamp < x.stamp := by
      rw [hes]
      constructor
      · intro h
        refine ⟨fun pre m post hpre => h pre m (post ++ [e]) (by simp [hpre]), ?_⟩
        rintro m rfl
        exact h es m [] rfl
      · rintro ⟨hbefore, hlast⟩ pre m post hpre
        rcases List.eq_nil_or_concat post with rfl | ⟨post', x, rfl⟩
        · obtain ⟨rfl, heq⟩ := List.append_inj' hpre rfl
          exact hlast m (List.singleton_inj.mp heq)
        · rw [List.concat_eq_append, ← List.cons_append, ← List.append_assoc] at hpre
          obtain ⟨rfl, -⟩ := List.append_inj' hpre rfl
          exact hbefore pre m post' rfl
    rw [hsplit, run_concat]
    cases hrun : run garbage es with
    | none => exact iff_of_false (fun h => h rfl) fun h => h.1 rfl
    | some s =>
      have hstep : ((some s).bind fun s => (step s e).map Prod.fst) ≠ none ↔ step s e ≠ none := by
        cases hs : step s e <;> simp [hs]
      rw [hstep]
      refine ⟨fun h => ⟨fun hnone => (nomatch hnone), ?_⟩, fun h => ?_⟩
      · rintro m rfl l hl
        obtain ⟨hnone, -⟩ := fused_odometry hrun htimely.left hl m
        have hsome := mt hnone.mpr h
        push Not at hsome
        exact hsome
      · cases e with
        | lidarOdometry m => exact fun hnone => nomatch hnone
        | imuOdometry m =>
          cases hl : (lidars es).getLast? with
          | none =>
            -- no lidar odometry yet: the message is only queued
            have htime := (run_queued hrun htimely.left).noLidar (List.getLast?_eq_none_iff.mp hl)
            change imuOdometryHandler s m ≠ none
            unfold imuOdometryHandler
            dsimp only
            rw [if_pos htime]
            exact fun hnone => nomatch hnone
          | some l =>
            obtain ⟨x, hx, hlt⟩ := h.2 m rfl l hl
            exact fun hnone => hlt.not_ge
              ((fused_odometry hrun htimely.left hl m).1.mp hnone x hx)

end Run

/-! ### Poses on a line -/

/-- A lidar odometry at time 1, and an IMU odometry behind it. -/
def lineRun : List (Event ℚ (Multiplicative ℤ)) :=
  [.lidarOdometry ⟨1, .ofAdd 5⟩, .imuOdometry ⟨2, .ofAdd 1⟩]

theorem timely_lineRun : Timely lineRun := ⟨by decide +kernel, List.pairwise_singleton _ _⟩

theorem fused_odometry_line : ∃ s, run 1 lineRun = some s ∧
    (imuOdometryHandler s ⟨3, .ofAdd 4⟩ = none ↔
      ∀ x ∈ imus lineRun ++ [⟨3, .ofAdd 4⟩], x.stamp ≤ 1) ∧
    ∀ front ∈ (newerThan 1 (imus lineRun ++ [⟨3, .ofAdd 4⟩])).head?, ∃ s' os,
      imuOdometryHandler s ⟨3, .ofAdd 4⟩ =
        some (s', .odometry ⟨3, .ofAdd 5 * (front.pose⁻¹ * .ofAdd 4)⟩ :: os) := by
  obtain ⟨s, hs⟩ := Option.isSome_iff_exists.mp
    (show (run 1 lineRun).isSome = true by decide +kernel)
  exact ⟨s, hs, fused_odometry hs timely_lineRun rfl ⟨3, .ofAdd 4⟩⟩

theorem run_defined_iff_line : run 1 lineRun ≠ none ↔
    ∀ pre m post, lineRun = pre ++ .imuOdometry m :: post →
      ∀ l ∈ (lidars pre).getLast?, ∃ x ∈ imus pre ++ [m], l.stamp < x.stamp :=
  run_defined_iff timely_lineRun

end Fusion
end Mapping
end WtbAutoware
