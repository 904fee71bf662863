import FilterBridge.Agent
import FilterBridge.Bridge
import FilterBridge.Proofs.FilterRuns

/-!
# Runs of the bridge

Frames from both sides wait in one queue and leave it in the order in which they came.
Each is judged by the tables of the moment when it leaves, and what passes goes across,
unchanged and once.  So the frames that a driver is handed are those that came in on the
other side, found room in the queue and were then allowed, in the order of their arrival.

## Main definitions

* `frameRuling` — the verdict by the rules on a frame.
* `Frame.outcome` — what becomes of a frame under the given tables.
* `Mark`, `Handled.mark` — how that is counted.
* `Crossing`, `Crossing.run` — a bridge in service, with all that came to it and all that
  it did.

## Main results

* `Bridge.dispatch_spec`, `Bridge.processUpTo_spec` — one frame, and a batch of them.
* `Crossing.InOrder.step` — no act loses, repeats or reorders a frame.
* `Crossing.deliveries_run` — what the drivers are handed in any run.
-/

namespace FilterBridge

/-! ### Frames and the rules -/

theorem splitFrame_of_short {frame : Bytes} (h : frame.length < 14) :
    splitFrame frame = .error (.truncated 14 frame.length) := by
  unfold splitFrame
  split
  · rename_i hcons
    have hlen := congrArg List.length hcons
    simp only [List.length_drop, List.length_cons] at hlen
    omega
  · rfl

theorem splitFrame_of_long {frame : Bytes} (h : 14 ≤ frame.length) :
    splitFrame frame = .ok (.ofEtherType (frame.wordAt 12), frame.drop 14) := by
  have hcons : frame.drop 12 = frame.byteAt 12 :: frame.byteAt 13 :: frame.drop 14 := by
    rw [Bytes.drop_eq_byteAt_cons (by omega), Bytes.drop_eq_byteAt_cons (by omega)]
  rw [splitFrame, hcons]
  rfl

/-- The verdict by the rules on a frame.  One without a whole header is denied. -/
def frameRuling (o : Options) (g : Grounds) (frame : Frame) : Verdict :=
  if frame.data.length < 14 then
    .deny { reason := .headerTruncated, direction := frame.source.direction }
  else
    ruling o g frame.source.direction (frame.data.drop 14) (.ofEtherType (frame.data.wordAt 12))

theorem length_of_frameRuling {o : Options} {g : Grounds} {frame : Frame}
    (h : (frameRuling o g frame).isAllow = true) : 14 ≤ frame.data.length := by
  by_contra hshort
  rw [frameRuling, if_pos (by omega)] at h
  simp [Verdict.isAllow] at h

/-- What becomes of a frame under the given tables: if it is allowed, it goes to the driver
across, as it is. -/
def Frame.outcome (frame : Frame) (o : Options) (g : Grounds) (sends : Interface → Bool) :
    Handled where
  frame := frame
  verdict := frameRuling o g frame
  delivery :=
    if (frameRuling o g frame).isAllow then
      some ⟨frame.source.opposite, frame.data, sends frame.source.opposite⟩
    else none

/-- A mark on the counters. -/
inductive Mark
  /-- A frame came in. -/
  | received (d : Direction)
  /-- It was denied. -/
  | filtered (d : Direction)
  /-- It was handed over and sent. -/
  | forwarded (d : Direction)
  /-- It was lost. -/
  | dropped
  deriving DecidableEq, Repr

/-- The counters with one more mark. -/
def Counters.mark (c : Counters) : Mark → Counters
  | .received d => c.received d
  | .filtered d => c.filtered d
  | .forwarded d => c.forwarded d
  | .dropped => c.drop

/-- The mark that a frame leaves when it was handled. -/
def Handled.mark (h : Handled) : Mark :=
  match h.delivery with
  | none => .filtered h.frame.source.direction
  | some d => if d.sent then .forwarded h.frame.source.direction else .dropped

/-! ### What the bridge leaves alone -/

namespace Firewall

variable {f f' f'' : Firewall} {own : List Slot}

/-- The tables that packets are judged by. -/
def grounds (f : Firewall) : Grounds := f.policy.grounds f.classifier.hostMap

/-- The classifier is in order, and no table was changed. -/
structure Keeps (own : List Slot) (f f' : Firewall) : Prop where
  /-- The classifier is in order. -/
  consistent : f'.classifier.Consistent own
  /-- The networks are the same. -/
  networks : f'.classifier.networks = f.classifier.networks
  /-- So are their host tables. -/
  arena : f'.classifier.arena = f.classifier.arena
  /-- So is the policy. -/
  policy : f'.policy = f.policy

theorem Keeps.grounds (h : f.Keeps own f') : f'.grounds = f.grounds := by
  have hmap : f'.classifier.hostMap = f.classifier.hostMap := by
    funext n
    rw [Classifier.hostMap_eq, Classifier.hostMap_eq, h.networks, h.arena]
  rw [Firewall.grounds, Firewall.grounds, hmap, h.policy]

theorem Keeps.refl (h : f.classifier.Consistent own) : f.Keeps own f := ⟨h, rfl, rfl, rfl⟩

theorem Keeps.trans (h : f.Keeps own f') (h' : f'.Keeps own f'') : f.Keeps own f'' :=
  ⟨h'.consistent, h'.networks.trans h.networks, h'.arena.trans h.arena,
    h'.policy.trans h.policy⟩

/-- Counting changes no table. -/
theorem Keeps.count (h : f.Keeps own f') (counters : Counters) :
    f.Keeps own { f' with counters } := ⟨h.consistent, h.networks, h.arena, h.policy⟩

end Firewall

namespace Bridge

variable {b : Bridge} {f : Firewall} {own : List Slot}

/-! ### One frame -/

/-- A frame gets the verdict by the rules.  If it is denied, that is counted for its
direction. -/
theorem judgeFrame_spec (h : f.classifier.Consistent own) (o : Options) (frame : Frame) :
    (judgeFrame o f frame).2 = frameRuling o f.grounds frame ∧
      f.Keeps own (judgeFrame o f frame).1 ∧
      (judgeFrame o f frame).1.counters =
        if (judgeFrame o f frame).2.isAllow then f.counters
        else f.counters.filtered frame.source.direction := by
  unfold judgeFrame frameRuling
  by_cases hshort : frame.data.length < 14
  · rw [splitFrame_of_short hshort, if_pos hshort]
    exact ⟨rfl, (Firewall.Keeps.refl h).count _, rfl⟩
  · rw [splitFrame_of_long (by omega), if_neg hshort]
    obtain ⟨hv, hc, hn, ha, hp, hcount⟩ := Firewall.filter_spec h o frame.source.direction
      (.ofEtherType (frame.data.wordAt 12)) (frame.data.drop 14)
    exact ⟨hv, ⟨hc, hn, ha, hp⟩, hcount⟩

/-- A frame is handled as its tables say, and counted once. -/
theorem dispatch_spec (h : f.classifier.Consistent own) (o : Options)
    (sends : Interface → Bool) (frame : Frame) :
    (dispatch o sends f frame).2 = frame.outcome o f.grounds sends ∧
      f.Keeps own (dispatch o sends f frame).1 ∧
      (dispatch o sends f frame).1.counters =
        f.counters.mark (frame.outcome o f.grounds sends).mark := by
  obtain ⟨hv, hkeeps, hcount⟩ := judgeFrame_spec h o frame
  unfold dispatch Frame.outcome
  rw [← hv]
  rcases hj : judgeFrame o f frame with ⟨f', v⟩
  rw [hj] at hkeeps hcount
  cases v with
  | deny e => exact ⟨rfl, hkeeps, hcount⟩
  | allow =>
    refine ⟨rfl, hkeeps.count _, ?_⟩
    have hcount : f'.counters = f.counters := hcount
    simp only [Handled.mark, Verdict.isAllow, if_true, hcount]
    split <;> rfl

/-! ### A batch of frames -/

/-- What keeps each element of a list keeps the list. -/
theorem map_mapIdx_eq {α β : Type} {g : β → α} {F : Nat → α → β}
    (h : ∀ i a, g (F i a) = a) (l : List α) : (l.mapIdx F).map g = l := by
  refine List.ext_getElem (by simp) fun i h₁ h₂ => ?_
  simp [h]

/-- The oldest frames leave the queue and are handled in turn, all by the same tables. -/
theorem processUpTo_spec (h : f.classifier.Consistent own) (sends : Nat → Interface → Bool)
    (n : Nat) :
    let r := processUpTo sends n b f
    r.1 = { b with queue := { b.queue with frames := b.queue.frames.drop n } } ∧
      r.2.2 = (b.queue.frames.take n).mapIdx
        (fun i frame => frame.outcome b.options f.grounds (sends i)) ∧
      f.Keeps own r.2.1 ∧
      r.2.1.counters = (r.2.2.map (·.mark)).foldl Counters.mark f.counters := by
  induction n generalizing b f sends with
  | zero => exact ⟨rfl, rfl, .refl h, rfl⟩
  | succ n ih =>
    obtain ⟨options, depth, frames⟩ := b
    cases frames with
    | nil => exact ⟨rfl, rfl, .refl h, rfl⟩
    | cons frame frames =>
      -- the oldest frame is handled first, which leaves the tables for the others
      obtain ⟨hhandled, hkeeps, hcount⟩ := dispatch_spec h options (sends 0) frame
      obtain ⟨hb, hrest, hkeeps', hcount'⟩ := ih (b := ⟨options, depth, frames⟩)
        hkeeps.consistent fun i => sends (i + 1)
      rw [hkeeps.grounds] at hrest
      intro r
      have hr : r = ((processUpTo (fun i => sends (i + 1)) n ⟨options, depth, frames⟩
            (dispatch options (sends 0) f frame).1).1,
          (processUpTo (fun i => sends (i + 1)) n ⟨options, depth, frames⟩
            (dispatch options (sends 0) f frame).1).2.1,
          (dispatch options (sends 0) f frame).2 ::
            (processUpTo (fun i => sends (i + 1)) n ⟨options, depth, frames⟩
              (dispatch options (sends 0) f frame).1).2.2) := rfl
      rw [hr]
      refine ⟨hb, ?_, hkeeps.trans hkeeps', ?_⟩
      · rw [hhandled, hrest, List.take_succ_cons, List.mapIdx_cons]
      · rw [hcount', hcount, hhandled, List.map_cons, List.foldl_cons]

end Bridge

/-! ### Any history -/

/-- A bridge in service, with what came to it and what it did so far. -/
structure Crossing where
  /-- The bridge. -/
  bridge : Bridge
  /-- The filter behind it, and what is being loaded into that. -/
  service : Service
  /-- The frames that came in, each with the number of frames that waited then. -/
  arrivals : List (Frame × Nat) := []
  /-- The frames that were dispatched, each with the tables that were live then. -/
  dispatched : List (Grounds × Handled) := []
  /-- The requests for the counters, each with the answer. -/
  answers : List (Bytes × Response) := []

namespace Crossing

/-- What may happen at a bridge. -/
inductive Act
  /-- A frame comes in. -/
  | receive (frame : Frame)
  /-- A batch is dispatched; `sends i` says which driver sends for its `i`-th frame. -/
  | process (sends : Nat → Interface → Bool)
  /-- The counters are asked for. -/
  | statistics (payload : Bytes)
  /-- The classifier is used. -/
  | use (u : Classifier.Use)
  /-- A part of a table is taken. -/
  | load (part : Fragment)
  /-- Tables of the policy are replaced, or their flags set. -/
  | replace (policy : Policy)

/-- The frame that comes in with an act. -/
def Act.frame? : Act → Option Frame
  | receive frame => some frame
  | _ => none

/-- The filter behind the bridge. -/
abbrev firewall (c : Crossing) : Firewall := c.service.firewall

/-- The crossing with another state of the filter. -/
def withFirewall (c : Crossing) (f : Firewall) : Crossing :=
  { c with service := { c.service with firewall := f } }

/-- One act. -/
def step (c : Crossing) : Act → Crossing
  | .receive frame =>
    let r := c.bridge.receive c.firewall frame
    { c.withFirewall r.2 with
      bridge := r.1
      arrivals := c.arrivals ++ [(frame, c.bridge.queue.frames.length)] }
  | .process sends =>
    let r := c.bridge.process sends c.firewall
    -- the tables that are live when the first `i` frames are done
    let live := fun i => (Bridge.processUpTo sends i c.bridge c.firewall).2.1.grounds
    { c.withFirewall r.2.1 with
      bridge := r.1
      dispatched := c.dispatched ++ r.2.2.mapIdx fun i h => (live i, h) }
  | .statistics payload =>
    let r := Agent.onStatistics c.firewall payload
    { c.withFirewall r.1 with answers := c.answers ++ [(payload, r.2)] }
  | .use u => { c with service := c.service.step (.use u) }
  | .load part => { c with service := c.service.step (.load part) }
  | .replace policy => { c with service := c.service.step (.replace policy) }

/-- A new bridge with a queue for `depth` frames, and a new filter. -/
def start (capacity depth : Nat) (o : Options) : Crossing where
  bridge := ⟨o, .withDepth depth⟩
  service := { firewall := .withCapacity capacity }

/-- Acts at a new bridge, one after another. -/
def run (capacity depth : Nat) (o : Options) (acts : List Act) : Crossing :=
  acts.foldl step (start capacity depth o)

/-- The frames that found room in a queue for `room` frames. -/
def admitted (c : Crossing) (room : Nat) : List Frame :=
  (c.arrivals.filter (·.2 < room)).map (·.1)

/-- What a driver was handed, in order. -/
def handed (c : Crossing) (i : Interface) : List Bytes :=
  ((c.dispatched.filterMap (·.2.delivery)).filter (·.target = i)).map (·.data)

/-- The frames that came in on one side and were allowed when they were dispatched. -/
def passed (c : Crossing) (o : Options) (i : Interface) : List Bytes :=
  (c.dispatched.filter fun e =>
    e.2.frame.source = i && (frameRuling o e.1 e.2.frame).isAllow).map (·.2.frame.data)

/-! ### The invariant -/

/-- No frame was lost, repeated or reordered, and each was handled as its tables said. -/
structure InOrder (o : Options) (room : Nat) (c : Crossing) : Prop where
  /-- The classifier is in order. -/
  consistent : c.service.Consistent
  /-- The options are those of the start. -/
  options : c.bridge.options = o
  /-- So is the depth of the queue. -/
  depth : c.bridge.queue.depth = room
  /-- No more frames wait than there is room for. -/
  waiting : c.bridge.queue.frames.length ≤ room
  /-- What found room was dispatched or waits, in the order of arrival. -/
  order : c.dispatched.map (·.2.frame) ++ c.bridge.queue.frames = c.admitted room
  /-- What was dispatched was handled as its tables said. -/
  outcome : ∀ e ∈ c.dispatched, ∃ sends, e.2 = e.2.frame.outcome o e.1 sends

variable {o : Options} {room : Nat} {c : Crossing}

theorem inOrder_start (capacity depth : Nat) (o : Options) :
    InOrder o (max depth 1) (start capacity depth o) where
  consistent := Classifier.consistent_withCapacity capacity
  options := rfl
  depth := rfl
  waiting := Nat.zero_le _
  order := rfl
  outcome := by simp [start]

namespace InOrder

/-- The classifier of the filter is in order, for all that hold host tables. -/
theorem classifier (h : c.InOrder o room) :
    c.firewall.classifier.Consistent (c.service.uploads.slots ++ c.service.own) := h.consistent

theorem receive (h : c.InOrder o room) (frame : Frame) :
    (c.step (.receive frame)).InOrder o room := by
  have hdepth := h.depth
  have horder := h.order
  unfold admitted at horder
  by_cases hroom : c.bridge.queue.frames.length < room
  · -- there is room, so the frame is the last to wait
    have hq := FrameQueue.enqueue?_of_lt (hdepth ▸ hroom) frame
    refine ⟨?_, ?_, ?_, ?_, ?_, h.outcome⟩
    all_goals simp only [step, withFirewall, Bridge.receive, hq]
    · exact h.consistent
    · exact h.options
    · exact hdepth
    · rw [List.length_append, List.length_singleton]
      omega
    · rw [admitted, List.filter_append, List.map_append, ← horder, List.append_assoc]
      simp [hroom]
  · -- the queue is full, and stays as it is
    have hq : c.bridge.queue.enqueue? frame = none := by
      rw [FrameQueue.enqueue?_eq_none]
      omega
    refine ⟨?_, ?_, ?_, ?_, ?_, h.outcome⟩
    all_goals simp only [step, withFirewall, Bridge.receive, hq]
    · exact h.consistent
    · exact h.options
    · exact hdepth
    · exact h.waiting
    · rw [admitted, List.filter_append, List.map_append, ← horder]
      simp [hroom]

/-- A batch handles the oldest frames that wait. -/
theorem handled_process (h : c.InOrder o room) (sends : Nat → Interface → Bool) :
    (c.bridge.process sends c.firewall).2.2 =
      (c.bridge.queue.frames.take Bridge.batchSize).mapIdx
        (fun i frame => frame.outcome o c.firewall.grounds (sends i)) := by
  obtain ⟨-, hhandled, -, -⟩ :=
    Bridge.processUpTo_spec (b := c.bridge) h.classifier sends Bridge.batchSize
  rw [← h.options]
  exact hhandled

/-- A batch dispatches the oldest frames that wait, each by the tables of that moment. -/
theorem step_process (h : c.InOrder o room) (sends : Nat → Interface → Bool) :
    (c.step (.process sends)).bridge =
        { c.bridge with queue :=
          { c.bridge.queue with frames := c.bridge.queue.frames.drop Bridge.batchSize } } ∧
      (c.step (.process sends)).dispatched = c.dispatched ++
        (c.bridge.queue.frames.take Bridge.batchSize).mapIdx (fun i frame =>
          (c.firewall.grounds, frame.outcome o c.firewall.grounds (sends i))) ∧
      c.firewall.Keeps (c.service.uploads.slots ++ c.service.own)
        (c.step (.process sends)).firewall := by
  obtain ⟨hb, -, hkeeps, -⟩ :=
    Bridge.processUpTo_spec (b := c.bridge) h.classifier sends Bridge.batchSize
  refine ⟨hb, ?_, hkeeps⟩
  have hlive : ∀ i, (Bridge.processUpTo sends i c.bridge c.firewall).2.1.grounds =
      c.firewall.grounds := by
    intro i
    exact (Bridge.processUpTo_spec (b := c.bridge) h.classifier sends i).2.2.1.grounds
  simp only [step, h.handled_process, hlive, List.mapIdx_mapIdx]
  rfl

theorem process (h : c.InOrder o room) (sends : Nat → Interface → Bool) :
    (c.step (.process sends)).InOrder o room := by
  obtain ⟨hb, hdispatched, hkeeps⟩ := h.step_process sends
  refine ⟨hkeeps.consistent, ?_, ?_, ?_, ?_, ?_⟩
  · rw [hb]
    exact h.options
  · rw [hb]
    exact h.depth
  · rw [hb, List.length_drop]
    exact (Nat.sub_le _ _).trans h.waiting
  · -- what leaves the queue is dispatched
    show _ = c.admitted room
    rw [hb, hdispatched, List.map_append, Bridge.map_mapIdx_eq (fun _ _ => rfl), List.append_assoc,
      List.take_append_drop, h.order]
  · intro e he
    rw [hdispatched, List.mem_append] at he
    rcases he with he | he
    · exact h.outcome e he
    · obtain ⟨i, hi, rfl⟩ := List.mem_mapIdx.mp he
      exact ⟨sends i, rfl⟩

/-- An act that is not at the bridge itself. -/
theorem of_service {service : Service} {answers : List (Bytes × Response)}
    (h : c.InOrder o room) (hs : service.Consistent) :
    InOrder o room { c with service, answers } :=
  ⟨hs, h.options, h.depth, h.waiting, h.order, h.outcome⟩

theorem statistics (h : c.InOrder o room) (payload : Bytes) :
    (c.step (.statistics payload)).InOrder o room := by
  refine h.of_service ?_
  show Classifier.Consistent (Agent.onStatistics c.firewall payload).1.classifier _
  unfold Agent.onStatistics
  split
  · exact h.classifier.clearCacheCounts
  · exact h.classifier

/-- No act loses, repeats or reorders a frame. -/
theorem step (h : c.InOrder o room) (a : Act) : (c.step a).InOrder o room := by
  cases a with
  | receive frame => exact h.receive frame
  | process sends => exact h.process sends
  | statistics payload => exact h.statistics payload
  | use u => exact h.of_service (h.consistent.step (.use u))
  | load part => exact h.of_service (h.consistent.step (.load part))
  | replace policy => exact h.of_service (h.consistent.step (.replace policy))

/-- What each driver was handed is what came in on the other side and passed. -/
theorem handed_eq (h : c.InOrder o room) (i : Interface) :
    c.handed i = c.passed o i.opposite := by
  have houtcome := h.outcome
  unfold handed passed
  generalize c.dispatched = entries at houtcome
  induction entries with
  | nil => rfl
  | cons e entries ih =>
    obtain ⟨⟨sends, he⟩, hrest⟩ := List.forall_mem_cons.mp houtcome
    have hside : e.2.frame.source.opposite = i ↔ e.2.frame.source = i.opposite := by
      constructor
      · rintro rfl
        rw [Interface.opposite_opposite]
      · intro hs
        rw [hs, Interface.opposite_opposite]
    have hdelivery := congrArg Handled.delivery he
    unfold Frame.outcome at hdelivery
    by_cases hallow : (frameRuling o e.1 e.2.frame).isAllow = true
    · rw [if_pos hallow] at hdelivery
      by_cases hi : e.2.frame.source = i.opposite
      · simp [hdelivery, hi, hallow, ih hrest]
      · simp [hdelivery, hside, hi, ih hrest]
    · rw [if_neg hallow] at hdelivery
      simp [hdelivery, hallow, ih hrest]

end InOrder

theorem inOrder_run (capacity depth : Nat) (o : Options) (acts : List Act) :
    (run capacity depth o acts).InOrder o (max depth 1) := by
  -- by induction on the acts, from any crossing that is in order
  have hfold : ∀ c : Crossing, c.InOrder o (max depth 1) →
      (acts.foldl Crossing.step c).InOrder o (max depth 1) := by
    induction acts with
    | nil => exact fun c hc => hc
    | cons a acts ih => exact fun c hc => ih (c.step a) (hc.step a)
  exact hfold _ (inOrder_start capacity depth o)

/-- Every frame that comes in is an arrival. -/
theorem arrivals_run (capacity depth : Nat) (o : Options) (acts : List Act) :
    (run capacity depth o acts).arrivals.map (·.1) = acts.filterMap Act.frame? := by
  have hstep : ∀ (c : Crossing) (a : Act),
      (c.step a).arrivals.map (·.1) = c.arrivals.map (·.1) ++ a.frame?.toList := by
    intro c a
    cases a <;> simp [step, withFirewall, Act.frame?]
  have hfold : ∀ c : Crossing, (acts.foldl step c).arrivals.map (·.1) =
      c.arrivals.map (·.1) ++ acts.filterMap Act.frame? := by
    induction acts with
    | nil => simp
    | cons a acts ih =>
      intro c
      rw [List.foldl_cons, ih, hstep, List.append_assoc]
      cases h : a.frame? <;> simp [h]
  exact hfold _

/-- Whatever frames come in, whenever they are dispatched, whichever driver fails, and
however the tables change in between: what finds room in the queue is dispatched or waits,
in the order of arrival.  Each driver is handed what came in on the other side and was
allowed by the tables of the moment when it was dispatched, as it was, and in that order.
What is handed over is allowed, has a whole header, and never goes back to its side.  A
frame is turned away just when the queue is full, and a batch dispatches the 64 oldest
frames, or all. -/
theorem deliveries_run (capacity depth : Nat) (o : Options) (acts : List Act) :
    let c := run capacity depth o acts
    let room := max depth 1
    c.arrivals.map (·.1) = acts.filterMap Act.frame? ∧
      c.dispatched.map (·.2.frame) ++ c.bridge.queue.frames = c.admitted room ∧
      (∀ i, c.handed i = c.passed o i.opposite ∧
        (c.handed i).Sublist
          (((c.admitted room).filter (·.source = i.opposite)).map (·.data))) ∧
      (∀ e ∈ c.dispatched, e.2.verdict = frameRuling o e.1 e.2.frame ∧
        ∀ d, e.2.delivery = some d → e.2.verdict = .allow ∧ 14 ≤ e.2.frame.data.length ∧
          d.target = e.2.frame.source.opposite ∧ d.data = e.2.frame.data) ∧
      c.bridge.queue.frames.length ≤ room ∧
      (∀ frame, c.bridge.queue.enqueue? frame = none ↔ c.bridge.queue.frames.length = room) ∧
      ∀ sends, let r := c.bridge.process sends c.firewall
        r.2.2.length = min 64 c.bridge.queue.frames.length ∧
          r.2.2.map (·.frame) = c.bridge.queue.frames.take 64 ∧
          r.1.queue.frames = c.bridge.queue.frames.drop 64 := by
  intro c room
  have h : c.InOrder o room := inOrder_run capacity depth o acts
  refine ⟨arrivals_run capacity depth o acts, h.order, ?_, ?_, h.waiting, ?_, ?_⟩
  · intro i
    refine ⟨h.handed_eq i, ?_⟩
    -- what passed was dispatched, and what was dispatched is the front of what found room
    rw [h.handed_eq i, ← h.order, passed, List.filter_append, List.map_append]
    refine List.Sublist.trans ?_ (List.sublist_append_left _ _)
    rw [List.filter_map, List.map_map]
    refine List.Sublist.map _ (List.monotone_filter_right _ fun e he => ?_)
    exact (Bool.and_eq_true_iff.mp he).1
  · intro e he
    obtain ⟨sends, hsends⟩ := h.outcome e he
    have hverdict : e.2.verdict = frameRuling o e.1 e.2.frame := congrArg Handled.verdict hsends
    refine ⟨hverdict, fun d hd => ?_⟩
    rw [hsends, Frame.outcome] at hd
    simp only [Option.ite_none_right_eq_some, Option.some.injEq] at hd
    obtain ⟨hallow, rfl⟩ := hd
    refine ⟨?_, length_of_frameRuling hallow, rfl, rfl⟩
    rw [hverdict]
    cases hv : frameRuling o e.1 e.2.frame with
    | allow => rfl
    | deny event => simp [hv, Verdict.isAllow] at hallow
  · intro frame
    have hwaiting := h.waiting
    rw [FrameQueue.enqueue?_eq_none, h.depth]
    omega
  · intro sends r
    have hb := (h.step_process sends).1
    have hr : r.2.2 = (c.bridge.queue.frames.take 64).mapIdx
        (fun i frame => frame.outcome o c.firewall.grounds (sends i)) := h.handled_process sends
    refine ⟨by rw [hr, List.length_mapIdx, List.length_take], ?_, congrArg (·.queue.frames) hb⟩
    rw [hr]
    exact Bridge.map_mapIdx_eq (fun _ _ => rfl) _

end Crossing

end FilterBridge
