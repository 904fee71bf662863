import FilterBridge.Proofs.BridgeRuns
import FilterBridge.Proofs.Room

/-!
# The counters balance

Every frame that comes in leaves one mark of its arrival on the counters and one of its
end: it is filtered, forwarded or dropped, unless it still waits.  Clearing the counters
loses no mark, as the report that goes with it holds them all.  And the cache never counts
more misses than accesses.

## Main definitions

* `Report.figure` — the figure of a report that counts the marks of a kind.
* `Probed` — the cache was looked into a number of times.
* `Crossing.marks` — the marks that an act leaves.
* `Crossing.total` — a figure of the counters, with what was cleared added up.
* `Crossing.Unwrapped` — no counter wraps.
* `Crossing.Balanced` — the invariant.

## Main results

* `Crossing.total_step` — the totals grow by the marks of an act.
* `Crossing.Balanced.step` — no act breaks the balance.
* `Crossing.balance_run` — the balance of any run.
-/

namespace FilterBridge

/-- A sum that is not below its first term did not wrap. -/
theorem toNat_add_ofNat {x : UInt64} {n : Nat} (hn : n < 2 ^ 64) (h : x ≤ x + .ofNat n) :
    (x + .ofNat n).toNat = x.toNat + n := by
  have hx := x.toNat_lt
  rw [UInt64.le_iff_toNat_le, UInt64.toNat_add, UInt64.toNat_ofNat'] at h
  rw [UInt64.toNat_add, UInt64.toNat_ofNat']
  omega

/-! ### Figures and marks -/

namespace Report

/-- The figure that counts the marks of a kind. -/
def figure (r : Report) : Mark → UInt64
  | .received .inbound => r.receivedOutside
  | .received .outbound => r.receivedInside
  | .filtered .inbound => r.filteredIn
  | .filtered .outbound => r.filteredOut
  | .forwarded .inbound => r.forwardedIn
  | .forwarded .outbound => r.forwardedOut
  | .dropped => r.dropped

/-- What an interface sent is what was forwarded to it, and the cache has no more misses
than accesses. -/
structure Sensible (r : Report) : Prop where
  /-- The inside interface sent what was forwarded inbound. -/
  inside : r.transmittedInside = r.forwardedIn
  /-- The outside interface sent what was forwarded outbound. -/
  outside : r.transmittedOutside = r.forwardedOut
  /-- There are no more misses than accesses. -/
  misses : r.cacheMisses ≤ r.cacheAccesses

/-- No figure is above that of the other report. -/
def Below (r r' : Report) : Prop := List.Forall₂ (· ≤ ·) r.toList r'.toList

instance (r r' : Report) : Decidable (r.Below r') :=
  inferInstanceAs (Decidable (List.Forall₂ (· ≤ ·) r.toList r'.toList))

theorem Below.figure_le {r r' : Report} (h : r.Below r') (k : Mark) : r.figure k ≤ r'.figure k := by
  simp only [Below, toList, List.forall₂_cons, List.forall₂_nil_left_iff] at h
  rcases k with ⟨⟨⟩⟩ | ⟨⟨⟩⟩ | ⟨⟨⟩⟩ | _ <;> simp only [figure, h]

theorem Below.cache_le {r r' : Report} (h : r.Below r') :
    r.cacheAccesses ≤ r'.cacheAccesses ∧ r.cacheMisses ≤ r'.cacheMisses := by
  simp only [Below, toList, List.forall₂_cons, List.forall₂_nil_left_iff] at h
  exact ⟨h.2.2.2.2.2.2.2.2.1, h.2.2.2.2.2.2.2.2.2.1⟩

end Report

namespace Counters

variable (c : Counters) (k : Mark) (accesses misses accesses' misses' : UInt64)

theorem figure_report_zero : (({} : Counters).report accesses misses).figure k = 0 := by
  rcases k with ⟨⟨⟩⟩ | ⟨⟨⟩⟩ | ⟨⟨⟩⟩ | _ <;> rfl

/-- A mark counts in its own figure alone. -/
theorem figure_report_mark (m : Mark) : ((c.mark m).report accesses misses).figure k =
    (c.report accesses' misses').figure k + .ofNat ([m].count k) := by
  rcases k with ⟨⟨⟩⟩ | ⟨⟨⟩⟩ | ⟨⟨⟩⟩ | _ <;> rcases m with ⟨⟨⟩⟩ | ⟨⟨⟩⟩ | ⟨⟨⟩⟩ | _ <;>
    simp [Report.figure, mark, received, filtered, forwarded, drop, report]

/-- Each mark counts once, in its own figure. -/
theorem figure_report_marks (ms : List Mark) :
    ((ms.foldl mark c).report accesses misses).figure k =
      (c.report accesses' misses').figure k + .ofNat (ms.count k) := by
  induction ms generalizing c with
  | nil => rcases k with ⟨⟨⟩⟩ | ⟨⟨⟩⟩ | ⟨⟨⟩⟩ | _ <;> simp [Report.figure, report]
  | cons m ms ih =>
    rw [List.foldl_cons, ih, figure_report_mark c k accesses' misses' accesses' misses',
      UInt64.add_assoc, ← UInt64.ofNat_add, ← List.count_append]
    rfl

/-- What is sent is counted together with what is forwarded. -/
theorem transmitted_marks (ms : List Mark) (h : c.transmittedInside = c.forwardedIn ∧
      c.transmittedOutside = c.forwardedOut) :
    (ms.foldl mark c).transmittedInside = (ms.foldl mark c).forwardedIn ∧
      (ms.foldl mark c).transmittedOutside = (ms.foldl mark c).forwardedOut := by
  induction ms generalizing c with
  | nil => exact h
  | cons m ms ih =>
    refine ih _ ?_
    obtain ⟨hin, hout⟩ := h
    rcases m with ⟨⟨⟩⟩ | ⟨⟨⟩⟩ | ⟨⟨⟩⟩ | _ <;>
      simp [mark, received, filtered, forwarded, drop, hin, hout]

end Counters

/-! ### Counting in the cache -/

/-- The counts of a cache, accesses and misses, after it was looked into at most `n`
times. -/
def Probed (n : Nat) (counts counts' : UInt64 × UInt64) : Prop :=
  ∃ k m : Nat, m ≤ k ∧ k ≤ n ∧ counts' = (counts.1 + .ofNat k, counts.2 + .ofNat m)

namespace Probed

variable {n n' : Nat} {counts counts' counts'' : UInt64 × UInt64}

theorem of_eq (h : counts' = counts) (n : Nat) : Probed n counts counts' :=
  ⟨0, 0, le_rfl, Nat.zero_le n, by simp [h]⟩

theorem trans (h : Probed n counts counts') (h' : Probed n' counts' counts'') :
    Probed (n + n') counts counts'' := by
  obtain ⟨k, m, hm, hk, rfl⟩ := h
  obtain ⟨k', m', hm', hk', rfl⟩ := h'
  refine ⟨k + k', m + m', Nat.add_le_add hm hm', Nat.add_le_add hk hk', ?_⟩
  simp only [UInt64.ofNat_add, UInt64.add_assoc]

/-- If neither count wraps, there are still no more misses than accesses. -/
theorem misses_le (h : Probed n counts counts') (hn : n < 2 ^ 64)
    (haccesses : counts.1 ≤ counts'.1) (hmisses : counts.2 ≤ counts'.2)
    (hle : counts.2 ≤ counts.1) : counts'.2 ≤ counts'.1 := by
  obtain ⟨k, m, hm, hk, rfl⟩ := h
  rw [UInt64.le_iff_toNat_le] at hle ⊢
  rw [toNat_add_ofNat (by omega) haccesses, toNat_add_ofNat (by omega) hmisses]
  omega

end Probed

namespace Classifier

theorem cacheCounts_unmoved : Unmoved cacheCounts where
  alloc {c c' n s} hr := by
    unfold Classifier.alloc at hr
    split at hr
    · simp at hr
    · split at hr
      · simp only [Except.ok.injEq, Prod.mk.injEq] at hr
        rw [← hr.1]
        rfl
      · simp at hr
  write {c c' s offset data} hr := by
    simp only [Classifier.write, bind, Except.bind, pure, Except.pure] at hr
    split at hr
    · simp at hr
    · rw [← Except.ok.inj hr]
      rfl
  free _ _ := rfl
  install c n s := by
    unfold Classifier.install
    split <;> rfl
  markClean _ _ := rfl

theorem cacheCounts_release (c : Classifier) (n : Address) :
    (c.release n).1.cacheCounts = c.cacheCounts := by
  unfold release
  split <;> rfl

/-- A look-up looks into the cache once, or not at all. -/
theorem probed_lookup (c : Classifier) (ip : Address) :
    Probed 1 c.cacheCounts (c.lookup ip).1.cacheCounts := by
  -- one access, and a miss if the pair is not there
  have hprobe : Probed 1 c.cacheCounts
      ((c.cache.probe ip).1.accesses, (c.cache.probe ip).1.misses) := by
    unfold ClassCache.probe
    simp only
    split
    · exact ⟨1, 0, by omega, le_rfl, by simp [cacheCounts]⟩
    · split
      · exact ⟨1, 0, by omega, le_rfl, by simp [cacheCounts]⟩
      · exact ⟨1, 1, le_rfl, le_rfl, by simp [cacheCounts]⟩
  unfold lookup
  split
  · exact .of_eq rfl 1
  · rcases hp : c.cache.probe ip with ⟨cache, _ | k⟩
    · rw [hp] at hprobe
      simp only
      split <;> exact hprobe
    · rw [hp] at hprobe
      exact hprobe

end Classifier

theorem Firewall.probed_filter (f : Firewall) (o : Options) (d : Direction)
    (protocol : Protocol) (packet : Bytes) :
    Probed 1 f.classifier.cacheCounts
      (f.filter o d protocol packet).1.classifier.cacheCounts := by
  have hcount : ∀ (f : Firewall) (v : Verdict), (f.count v).classifier = f.classifier := by
    intro f v
    cases v <;> rfl
  unfold filter
  cases judge o f.policy d protocol packet with
  | settled v =>
    simp only [settle, hcount]
    exact .of_eq rfl 1
  | byClass host v =>
    simp only [settle, hcount]
    exact f.classifier.probed_lookup host

namespace Bridge

theorem probed_dispatch (o : Options) (sends : Interface → Bool) (f : Firewall)
    (frame : Frame) :
    Probed 1 f.classifier.cacheCounts
      (dispatch o sends f frame).1.classifier.cacheCounts := by
  have hjudge : Probed 1 f.classifier.cacheCounts
      (judgeFrame o f frame).1.classifier.cacheCounts := by
    unfold judgeFrame
    simp only
    split
    · exact f.probed_filter ..
    · exact .of_eq rfl 1
  unfold dispatch
  rcases hj : judgeFrame o f frame with ⟨f', _ | _⟩
  all_goals
    rw [hj] at hjudge
    exact hjudge

theorem probed_processUpTo (sends : Nat → Interface → Bool) (n : Nat) (b : Bridge)
    (f : Firewall) :
    Probed n f.classifier.cacheCounts
      (processUpTo sends n b f).2.1.classifier.cacheCounts := by
  induction n generalizing b f sends with
  | zero => exact .of_eq rfl 0
  | succ n ih =>
    unfold processUpTo
    cases b.queue.dequeue? with
    | none => exact .of_eq rfl _
    | some r =>
      rw [Nat.add_comm]
      exact (probed_dispatch b.options (sends 0) f r.1).trans (ih _ _ _)

end Bridge

namespace Holding

theorem probed_use (h : Holding) (u : Classifier.Use) (hu : u ≠ .clearCounts) :
    Probed 1 h.classifier.cacheCounts (h.use u).classifier.cacheCounts := by
  have hsame : Classifier.Unmoved Classifier.cacheCounts := Classifier.cacheCounts_unmoved
  cases u with
  | load n image => exact .of_eq (hsame.load _ n image) 1
  | alloc n =>
    refine .of_eq ?_ 1
    cases hr : h.classifier.alloc n with
    | error e => simp only [use, hr]
    | ok r => simpa only [use, hr] using hsame.alloc hr
  | write s offset data =>
    refine .of_eq ?_ 1
    by_cases hs : s ∈ h.own
    · cases hr : h.classifier.write s offset data with
      | error e => simp only [use, hs, if_true, hr]
      | ok c => simpa only [use, hs, if_true, hr] using hsame.write hr
    · simp only [use, hs, if_false]
  | free s =>
    refine .of_eq ?_ 1
    by_cases hs : s ∈ h.own
    · simpa only [use, hs, if_true] using hsame.free _ s
    · simp only [use, hs, if_false]
  | install n s =>
    refine .of_eq ?_ 1
    by_cases hs : s ∈ h.own
    · simpa only [use, hs, if_true] using hsame.install _ n s
    · simp only [use, hs, if_false]
  | release n => exact .of_eq (Classifier.cacheCounts_release _ n) 1
  | markClean n => exact .of_eq rfl 1
  | flush => exact .of_eq rfl 1
  | clearCounts => exact absurd rfl hu
  | lookup ip => exact Classifier.probed_lookup _ ip

end Holding

/-! ### What an act does to the counters -/

/-- The report in a reply. -/
def Response.report? : Response → Option Report
  | .reply _ body => Report.decode? body
  | .clear _ body => Report.decode? body

namespace Crossing

/-- Whether a request for the counters clears them. -/
def clearing (payload : Bytes) : Bool := payload.head?.any (· ≠ 0)

/-- Whether an act clears the counters. -/
def Act.clears : Act → Bool
  | statistics payload => clearing payload
  | _ => false

/-- Whether an act sets counters to zero, be it those of the cache alone. -/
def Act.resets : Act → Bool
  | use .clearCounts => true
  | a => a.clears

/-- The counters of the filter, with those of its cache. -/
def report (c : Crossing) : Report := c.firewall.report

/-- The marks that an act leaves on the counters. -/
def marks (c : Crossing) : Act → List Mark
  | .receive frame =>
    .received frame.source.direction ::
      if c.bridge.queue.depth ≤ c.bridge.queue.frames.length then [.dropped] else []
  | .process sends => (c.bridge.process sends c.firewall).2.2.map (·.mark)
  | _ => []

variable {o : Options} {room : Nat} {c : Crossing} {a : Act}

theorem onStatistics_eq (f : Firewall) (payload : Bytes) :
    Agent.onStatistics f payload =
      (if clearing payload then f.clearCounters else f,
        .reply .statisticsAck f.report.encode) := by
  unfold Agent.onStatistics clearing
  simp only
  split <;> rfl

/-- A frame that comes in leaves its mark, and waits or is dropped. -/
theorem step_receive (c : Crossing) (frame : Frame) :
    let a := Act.receive frame
    (c.step a).firewall.counters = (c.marks a).foldl Counters.mark c.firewall.counters ∧
      (c.marks a = [.received frame.source.direction] ∧
          (c.step a).bridge.queue.frames = c.bridge.queue.frames ++ [frame] ∨
        c.marks a = [.received frame.source.direction, .dropped] ∧
          (c.step a).bridge.queue.frames = c.bridge.queue.frames) := by
  by_cases hfull : c.bridge.queue.depth ≤ c.bridge.queue.frames.length
  · have hq := FrameQueue.enqueue?_eq_none (f := frame).mpr hfull
    have hmarks : c.marks (.receive frame) = [.received frame.source.direction, .dropped] := by
      simp only [marks, hfull, if_true]
    refine ⟨?_, .inr ⟨hmarks, ?_⟩⟩
    · simp only [hmarks, step, withFirewall, Bridge.receive, hq]
      rfl
    · simp only [step, withFirewall, Bridge.receive, hq]
  · have hq := FrameQueue.enqueue?_of_lt (Nat.not_le.mp hfull) frame
    have hmarks : c.marks (.receive frame) = [.received frame.source.direction] := by
      simp only [marks, hfull, if_false]
    refine ⟨?_, .inl ⟨hmarks, ?_⟩⟩
    · simp only [hmarks, step, withFirewall, Bridge.receive, hq]
      rfl
    · simp only [step, withFirewall, Bridge.receive, hq]

/-- Beside clearing, the packet counters change by the marks of the act alone. -/
theorem counters_step (h : c.InOrder o room) (ha : a.clears = false) :
    (c.step a).firewall.counters = (c.marks a).foldl Counters.mark c.firewall.counters := by
  cases a with
  | receive frame => exact (c.step_receive frame).1
  | process sends =>
    exact (Bridge.processUpTo_spec (b := c.bridge) h.classifier sends Bridge.batchSize).2.2.2
  | statistics payload =>
    have hkeeps : clearing payload = false := ha
    simp only [step, withFirewall, onStatistics_eq, hkeeps, Bool.false_eq_true, if_false]
    rfl
  | use u => rfl
  | load part =>
    exact congrArg Prod.snd (Uploads.apply_left Classifier.bounds_unmoved c.service.uploads
      c.firewall part)
  | replace policy => rfl

/-- Unless it sets counters to zero, an act looks into the cache at most 64 times. -/
theorem probed_step (c : Crossing) (ha : a.resets = false) :
    Probed 64 c.firewall.classifier.cacheCounts
      (c.step a).firewall.classifier.cacheCounts := by
  have hmore : ∀ {counts counts' : UInt64 × UInt64}, Probed 1 counts counts' →
      Probed 64 counts counts' := by
    rintro _ _ ⟨k, m, hm, hk, rfl⟩
    exact ⟨k, m, hm, by omega, rfl⟩
  cases a with
  | receive frame =>
    refine .of_eq ?_ 64
    simp only [step, withFirewall, Bridge.receive]
    split <;> rfl
  | process sends => exact Bridge.probed_processUpTo sends Bridge.batchSize _ _
  | statistics payload =>
    refine .of_eq ?_ 64
    have hkeeps : clearing payload = false := ha
    simp only [step, withFirewall, onStatistics_eq, hkeeps, Bool.false_eq_true, if_false]
  | use u =>
    refine hmore (Holding.probed_use ⟨c.firewall.classifier, c.service.own⟩ u ?_)
    rintro rfl
    simp [Act.resets] at ha
  | load part =>
    exact .of_eq (congrArg Prod.fst (Uploads.apply_left Classifier.cacheCounts_unmoved
      c.service.uploads c.firewall part)) 64
  | replace policy => exact .of_eq rfl 64

/-! ### Totals -/

/-- The reports that came with clearing. -/
def cleared (c : Crossing) : List Report :=
  (c.answers.filter fun a => clearing a.1).filterMap (·.2.report?)

/-- A figure of the counters, with what was cleared of it. -/
def total (c : Crossing) (figure : Report → UInt64) : Nat :=
  (c.cleared.map fun r => (figure r).toNat).sum + (figure c.report).toNat

/-- The records of the denied frames. -/
def events (c : Crossing) : List DenyEvent := c.dispatched.filterMap (·.2.verdict.event?)

/-- Clearing keeps the report in the answer, and leaves zeros. -/
theorem step_of_clears (h : a.clears = true) :
    (c.step a).cleared = c.cleared ++ [c.report] ∧
      (c.step a).report = ({} : Counters).report 0 0 ∧ c.marks a = [] := by
  cases a with
  | statistics payload =>
    have hclear : clearing payload = true := h
    refine ⟨?_, ?_, rfl⟩
    · simp only [cleared, step, withFirewall, onStatistics_eq, List.filter_append,
        List.filterMap_append]
      simp [hclear, Response.report?, report]
    · simp only [report, step, withFirewall, onStatistics_eq, hclear, if_true]
      rfl
  | _ => simp [Act.clears] at h

/-- No other act clears anything. -/
theorem cleared_step (h : a.clears = false) : (c.step a).cleared = c.cleared := by
  cases a with
  | statistics payload =>
    have hkeeps : clearing payload = false := h
    simp only [cleared, step, List.filter_append, List.filterMap_append]
    simp [hkeeps]
  | _ => rfl

theorem length_marks (h : c.InOrder o room) (a : Act) : (c.marks a).length ≤ 64 := by
  cases a with
  | receive frame =>
    obtain ⟨-, ⟨hmarks, -⟩ | ⟨hmarks, -⟩⟩ := c.step_receive frame <;> simp [hmarks]
  | process sends =>
    rw [marks, List.length_map, h.handled_process, List.length_mapIdx]
    exact List.length_take_le _ _
  | _ => exact Nat.zero_le 64

/-- Unless a counter wraps, its total grows by the marks of its kind. -/
theorem total_step (h : c.InOrder o room)
    (hle : a.resets = false → c.report.Below (c.step a).report) (k : Mark) :
    (c.step a).total (·.figure k) = c.total (·.figure k) + (c.marks a).count k := by
  unfold total
  cases hclear : a.clears with
  | true =>
    -- what was counted moves from the counters into the answer
    obtain ⟨hcleared, hreport, hmarks⟩ := step_of_clears (c := c) hclear
    simp [hcleared, hreport, hmarks, Counters.figure_report_zero]
  | false =>
    have hfigure : (c.step a).report.figure k =
        c.report.figure k + .ofNat ((c.marks a).count k) := by
      show ((c.step a).firewall.counters.report _ _).figure k = _
      rw [counters_step h hclear]
      exact Counters.figure_report_marks ..
    have hcount : (c.marks a).count k ≤ 64 := List.count_le_length.trans (length_marks h a)
    have hnat : ((c.step a).report.figure k).toNat =
        (c.report.figure k).toNat + (c.marks a).count k := by
      rw [hfigure]
      refine toNat_add_ofNat (by omega) ?_
      cases hreset : a.resets with
      | false =>
        rw [← hfigure]
        exact (hle hreset).figure_le k
      | true =>
        -- only the counts of the cache were set to zero, and there is no mark
        have hmarks : c.marks a = [] := by
          cases a <;> first | rfl | simp [Act.resets, Act.clears] at hreset hclear
        simp [hmarks]
    rw [cleared_step hclear, hnat, Nat.add_assoc]

/-! ### The invariant -/

/-- A handled frame leaves one mark, and none of arrival. -/
theorem count_marks (hs : List Handled) :
    (∀ d, (hs.map (·.mark)).count (.received d) = 0) ∧
      (hs.map (·.mark)).count (.filtered .inbound) +
          (hs.map (·.mark)).count (.filtered .outbound) +
          (hs.map (·.mark)).count (.forwarded .inbound) +
          (hs.map (·.mark)).count (.forwarded .outbound) +
          (hs.map (·.mark)).count .dropped = hs.length := by
  induction hs with
  | nil => simp
  | cons h hs ih =>
    obtain ⟨hreceived, hsum⟩ := ih
    have hmark : (∃ d, h.mark = .filtered d) ∨ (∃ d, h.mark = .forwarded d) ∨
        h.mark = .dropped := by
      unfold Handled.mark
      split
      · exact .inl ⟨_, rfl⟩
      · split
        · exact .inr (.inl ⟨_, rfl⟩)
        · exact .inr (.inr rfl)
    simp only [List.map_cons, List.count_cons, List.length_cons, ← hsum, hreceived]
    rcases hmark with ⟨⟨⟩, hm⟩ | ⟨⟨⟩, hm⟩ | hm <;> simp [hm] <;> omega

/-- The denied frames are those that leave a mark as filtered. -/
theorem count_filtered (hs : List Handled)
    (hall : ∀ h ∈ hs, ∃ o g sends, h = h.frame.outcome o g sends) :
    (hs.filterMap (·.verdict.event?)).length =
      (hs.map (·.mark)).count (.filtered .inbound) +
        (hs.map (·.mark)).count (.filtered .outbound) := by
  induction hs with
  | nil => rfl
  | cons h hs ih =>
    obtain ⟨⟨o, g, sends, hh⟩, hall⟩ := List.forall_mem_cons.mp hall
    have hrest := ih hall
    rw [List.map_cons, List.count_cons, List.count_cons, List.filterMap_cons]
    cases hv : frameRuling o g h.frame with
    | deny e =>
      have hevent : h.verdict.event? = some e := by
        rw [hh]
        simp [Frame.outcome, hv, Verdict.event?]
      have hmark : h.mark = .filtered h.frame.source.direction := by
        rw [hh]
        simp [Frame.outcome, hv, Verdict.isAllow, Handled.mark]
      rw [hevent, hmark]
      cases h.frame.source.direction <;> simp [hrest] <;> omega
    | allow =>
      have hevent : h.verdict.event? = none := by
        rw [hh]
        simp [Frame.outcome, hv, Verdict.event?]
      have hmark : ∀ d, h.mark ≠ .filtered d := by
        intro d
        rw [hh]
        simp only [Frame.outcome, hv, Verdict.isAllow, if_true, Handled.mark]
        split <;> simp
      rw [hevent]
      simp [hmark, hrest]

/-- What comes in leaves the queue with another mark, or waits. -/
theorem marks_balance (h : c.InOrder o room) (a : Act) :
    (c.marks a).count (.received .inbound) + (c.marks a).count (.received .outbound) +
        c.bridge.queue.frames.length =
      (c.marks a).count (.filtered .inbound) + (c.marks a).count (.filtered .outbound) +
          (c.marks a).count (.forwarded .inbound) + (c.marks a).count (.forwarded .outbound) +
          (c.marks a).count .dropped + (c.step a).bridge.queue.frames.length := by
  cases a with
  | receive frame =>
    obtain ⟨-, ⟨hmarks, hqueue⟩ | ⟨hmarks, hqueue⟩⟩ := c.step_receive frame <;>
      rw [hmarks, hqueue] <;> cases frame.source <;>
      simp [Interface.direction] <;> omega
  | process sends =>
    obtain ⟨hb, -, -⟩ := h.step_process sends
    obtain ⟨hreceived, hsum⟩ := count_marks (c.bridge.process sends c.firewall).2.2
    have hlen : (c.bridge.process sends c.firewall).2.2.length =
        min Bridge.batchSize c.bridge.queue.frames.length := by
      rw [h.handled_process, List.length_mapIdx, List.length_take]
    rw [marks, hreceived, hreceived, hsum, hlen, hb, List.length_drop]
    omega
  | _ => simp [marks, step, withFirewall]

theorem events_step (h : c.InOrder o room) (a : Act) :
    (c.step a).events.length = c.events.length + (c.marks a).count (.filtered .inbound) +
      (c.marks a).count (.filtered .outbound) := by
  cases a with
  | process sends =>
    have hevents := count_filtered (c.bridge.process sends c.firewall).2.2 (by
      intro e he
      rw [h.handled_process] at he
      obtain ⟨i, hi, rfl⟩ := List.mem_mapIdx.mp he
      exact ⟨_, _, _, rfl⟩)
    have hmap : ∀ l : List (Grounds × Handled), l.filterMap (·.2.verdict.event?) =
        (l.map (·.2)).filterMap (·.verdict.event?) := by
      intro l
      rw [List.filterMap_map]
      rfl
    have hsplit : (c.step (.process sends)).dispatched.map (·.2) =
        c.dispatched.map (·.2) ++ (c.bridge.process sends c.firewall).2.2 := by
      simp only [step]
      rw [List.map_append, Bridge.map_mapIdx_eq (fun _ _ => rfl)]
    rw [events, events, hmap, hmap, hsplit, List.filterMap_append, List.length_append, hevents,
      marks, Nat.add_assoc]
  | receive frame =>
    have hnone : (c.marks (.receive frame)).count (.filtered .inbound) = 0 ∧
        (c.marks (.receive frame)).count (.filtered .outbound) = 0 := by
      obtain ⟨-, ⟨hmarks, -⟩ | ⟨hmarks, -⟩⟩ := c.step_receive frame <;> simp [hmarks]
    rw [hnone.1, hnone.2]
    rfl
  | _ => rfl

/-- All that came in is accounted for, and so is all that was denied. -/
structure Balanced (c : Crossing) : Prop where
  /-- What came in was filtered, forwarded or dropped, or waits. -/
  frames : c.total (·.receivedInside) + c.total (·.receivedOutside) =
    c.total (·.filteredIn) + c.total (·.filteredOut) + c.total (·.forwardedIn) +
      c.total (·.forwardedOut) + c.total (·.dropped) + c.bridge.queue.frames.length
  /-- There is a record of each frame that was filtered. -/
  denied : c.total (·.filteredIn) + c.total (·.filteredOut) = c.events.length
  /-- The counters make sense as they are. -/
  sensible : c.report.Sensible
  /-- So do those in the answers. -/
  answered : ∀ a ∈ c.answers, ∃ r, a.2.report? = some r ∧ r.Sensible

theorem balanced_start (capacity depth : Nat) (o : Options) :
    (start capacity depth o).Balanced :=
  ⟨rfl, rfl, ⟨rfl, rfl, UInt64.le_refl _⟩, by simp [start]⟩

namespace Balanced

/-- The counters make sense after any act that lets none wrap. -/
theorem sensible_step (hc : c.Balanced) (h : c.InOrder o room)
    (hle : a.resets = false → c.report.Below (c.step a).report) :
    (c.step a).report.Sensible := by
  cases hclear : a.clears with
  | true =>
    rw [(step_of_clears hclear).2.1]
    exact ⟨rfl, rfl, UInt64.le_refl _⟩
  | false =>
    obtain ⟨hin, hout⟩ := Counters.transmitted_marks c.firewall.counters (c.marks a)
      ⟨hc.sensible.inside, hc.sensible.outside⟩
    rw [← counters_step h hclear] at hin hout
    refine ⟨hin, hout, ?_⟩
    cases hreset : a.resets with
    | false =>
      obtain ⟨haccesses, hmisses⟩ := (hle hreset).cache_le
      exact (probed_step c hreset).misses_le (by decide) haccesses hmisses hc.sensible.misses
    | true =>
      cases a with
      | use u =>
        cases u with
        | clearCounts => exact UInt64.le_refl _
        | _ => simp [Act.resets, Act.clears] at hreset
      | _ => simp_all [Act.resets]

/-- No act breaks the balance, unless a counter wraps. -/
theorem step (hc : c.Balanced) (h : c.InOrder o room)
    (hle : a.resets = false → c.report.Below (c.step a).report) : (c.step a).Balanced := by
  have htotal := total_step h hle
  have hmarks := marks_balance h a
  have hevents := events_step h a
  have hframes := hc.frames
  have hdenied := hc.denied
  -- the figures by their marks
  have hrin := htotal (.received .inbound)
  have hrout := htotal (.received .outbound)
  have hfin := htotal (.filtered .inbound)
  have hfout := htotal (.filtered .outbound)
  have hwin := htotal (.forwarded .inbound)
  have hwout := htotal (.forwarded .outbound)
  have hdrop := htotal .dropped
  simp only [Report.figure] at hrin hrout hfin hfout hwin hwout hdrop
  refine ⟨by omega, by omega, hc.sensible_step h hle, ?_⟩
  intro e he
  cases a with
  | statistics payload =>
    simp only [Crossing.step, onStatistics_eq, List.mem_append, List.mem_singleton] at he
    rcases he with he | rfl
    · exact hc.answered e he
    · exact ⟨c.report, Report.decode?_encode _, hc.sensible⟩
  | _ => exact hc.answered e he

/-- What was sent was forwarded, over all reports that came with clearing. -/
theorem total_congr (hc : c.Balanced) {figure figure' : Report → UInt64}
    (hf : ∀ r : Report, r.Sensible → figure r = figure' r) : c.total figure = c.total figure' := by
  have hcleared : ∀ r ∈ c.cleared, r.Sensible := by
    intro r hr
    obtain ⟨e, he, hreport⟩ := List.mem_filterMap.mp hr
    obtain ⟨r', hr', hsensible⟩ := hc.answered e (List.mem_filter.mp he).1
    rw [hreport] at hr'
    exact Option.some.inj hr' ▸ hsensible
  unfold total
  rw [hf _ hc.sensible, List.map_congr_left fun r hr => by rw [hf r (hcleared r hr)]]

end Balanced

/-! ### Runs -/

/-- No counter wraps: unless an act sets counters to zero, no figure goes down. -/
def Unwrapped (c : Crossing) : List Act → Prop
  | [] => True
  | a :: acts =>
    (a.resets = false → c.report.Below (c.step a).report) ∧ (c.step a).Unwrapped acts

instance decidableUnwrapped : (c : Crossing) → (acts : List Act) → Decidable (c.Unwrapped acts)
  | _, [] => isTrue trivial
  | c, a :: acts =>
    have := decidableUnwrapped (c.step a) acts
    inferInstanceAs (Decidable (_ ∧ _))

/-- Whatever happens at a bridge, and however often its counters are cleared, as long as
none of them wraps: the frames that came in are those that were filtered, forwarded or
dropped and those that wait; what was sent is what was forwarded; each filtered frame has a
record; and no report that was given shows more misses than accesses of the cache. -/
theorem balance_run (capacity depth : Nat) (o : Options) (acts : List Act)
    (h : (start capacity depth o).Unwrapped acts) :
    let c := run capacity depth o acts
    c.total (·.receivedInside) + c.total (·.receivedOutside) =
        c.total (·.filteredIn) + c.total (·.filteredOut) + c.total (·.forwardedIn) +
          c.total (·.forwardedOut) + c.total (·.dropped) + c.bridge.queue.frames.length ∧
      c.total (·.transmittedInside) = c.total (·.forwardedIn) ∧
      c.total (·.transmittedOutside) = c.total (·.forwardedOut) ∧
      c.total (·.filteredIn) + c.total (·.filteredOut) = c.events.length ∧
      ∀ a ∈ c.answers, ∃ r, a.2.report? = some r ∧ r.cacheMisses ≤ r.cacheAccesses := by
  intro c
  have hbalanced : c.Balanced := by
    -- by induction on the acts, from any crossing that is balanced
    have hfold : ∀ c : Crossing, c.InOrder o (max depth 1) → c.Balanced → c.Unwrapped acts →
        (acts.foldl Crossing.step c).Balanced := by
      clear h
      induction acts with
      | nil => exact fun c _ hc _ => hc
      | cons a acts ih =>
        intro c ho hc hw
        exact ih (c.step a) (ho.step a) (hc.step ho hw.1) hw.2
    exact hfold _ (inOrder_start capacity depth o) (balanced_start capacity depth o) h
  refine ⟨hbalanced.frames, hbalanced.total_congr fun r hr => hr.inside,
    hbalanced.total_congr fun r hr => hr.outside, hbalanced.denied, ?_⟩
  intro a ha
  obtain ⟨r, hr, hsensible⟩ := hbalanced.answered a ha
  exact ⟨r, hr, hsensible.misses⟩

/-- A queue for two frames overflows, the counters are cleared while both wait, and then one
frame is sent, one denied, and one lost by its driver. -/
theorem balance_run_overflow :
    let arp : Bytes := List.replicate 12 0 ++ [8, 6]
    let acts : List Act := [.receive ⟨.outside, arp⟩, .receive ⟨.inside, []⟩,
      .receive ⟨.inside, arp⟩, .statistics [1], .process fun _ _ => true,
      .receive ⟨.inside, arp⟩, .process fun _ _ => false, .statistics []]
    let c := run 1 2 {} acts
    (start 1 2 {}).Unwrapped acts ∧
      (c.total (·.receivedInside) + c.total (·.receivedOutside) =
          c.total (·.filteredIn) + c.total (·.filteredOut) + c.total (·.forwardedIn) +
            c.total (·.forwardedOut) + c.total (·.dropped) + c.bridge.queue.frames.length ∧
        c.total (·.transmittedInside) = c.total (·.forwardedIn) ∧
        c.total (·.transmittedOutside) = c.total (·.forwardedOut) ∧
        c.total (·.filteredIn) + c.total (·.filteredOut) = c.events.length ∧
        ∀ a ∈ c.answers, ∃ r, a.2.report? = some r ∧ r.cacheMisses ≤ r.cacheAccesses) ∧
      c.cleared.map Report.toList = [[0, 0, 0, 0, 2, 1, 0, 0, 0, 0, 1]] ∧
      c.report.toList = [0, 1, 1, 0, 1, 0, 1, 0, 0, 0, 1] := by
  intro arp acts c
  have hunwrapped : (start 1 2 {}).Unwrapped acts := by decide +kernel
  exact ⟨hunwrapped, balance_run 1 2 {} acts hunwrapped, by decide +kernel, by decide +kernel⟩

end Crossing

end FilterBridge
