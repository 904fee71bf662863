import FilterBridge.Proofs.CachedClasses

/-!
# Which line gives way

A new pair of hosts takes the line of its set that is older by the clock.  The clock has 32
bits; counted without end it says when each line was used last, and differences of the two
agree as long as they are below `2 ^ 32`.  So of two lines in use the one that was used longer
ago gives way, whether or not the clock rolled over in between.

An empty line has the stamp 0 and is as old as the last rollover.  It gives way before a line
that was used since then, but not before one that was used earlier: after a rollover a set may
lose a line in use although it has an empty one.

## Main definitions

* `Side`, `ClassCache.lineAt` — the two lines of a set.
* `CacheUse` — probes, fills and flushes.
* `TimedCache` — a cache with a clock that does not roll over, and when each line was used last.
* `TimedCache.Sound` — stamps and clock are those times modulo the word size.

## Main results

* `ClassCache.lineAt_fill` — a fill changes the line that gives way, and no other.
* `ClassCache.probe_of_hit` — a probe marks the line where it finds the pair, and no other.
* `TimedCache.toNat_age` — an age by the clock is the age without rollover.
* `TimedCache.Sound.run` — stamps and clock are right after any uses.
* `TimedCache.Sound.victim_eq` — which line gives way, by the times of use.
* `TimedCache.replacement_run` — which line in use gives way, after any uses.
* `TimedCache.empty_victim_of_lt` — until the clock rolls over an empty line gives way first.
* `TimedCache.rollover_evicts` — a line in use that gives way before an empty one.
-/

namespace FilterBridge

/-! ### Lines -/

/-- One of the two lines of a set. -/
inductive Side
  /-- The line tried first. -/
  | first
  /-- The line tried second. -/
  | second
  deriving DecidableEq, Repr

/-- The other line of a set. -/
def Side.other : Side → Side
  | first => second
  | second => first

/-- The line of a set on a side. -/
def CacheSet.line (s : CacheSet) : Side → CacheLine
  | .first => s.first
  | .second => s.second

/-- A set with another line on a side. -/
def CacheSet.put (s : CacheSet) (side : Side) (l : CacheLine) : CacheSet :=
  match side with
  | .first => { s with first := l }
  | .second => { s with second := l }

theorem CacheSet.line_put (s : CacheSet) (side side' : Side) (l : CacheLine) :
    (s.put side l).line side' = if side' = side then l else s.line side' := by
  cases side <;> cases side' <;> rfl

namespace ClassCache

variable {c : ClassCache} {ip : Address} {i j : Fin 4096} {side : Side} {even odd : PolicyClass}

/-- A line of the cache. -/
def lineAt (c : ClassCache) (i : Fin 4096) (side : Side) : CacheLine := (c.sets.get i).line side

/-- Where a probe finds the pair of an address, if it does. -/
def hit? (c : ClassCache) (ip : Address) : Option Side :=
  if (c.lineAt (setOf ip) .first).tag = tagOf ip then some .first
  else if (c.lineAt (setOf ip) .second).tag = tagOf ip then some .second
  else none

/-- The line that gives way to the pair of an address. -/
def victim (c : ClassCache) (ip : Address) : Side :=
  if c.clock + 1 - (c.lineAt (setOf ip) .first).stamp ≥
      c.clock + 1 - (c.lineAt (setOf ip) .second).stamp then .first else .second

/-- Another line in the cache is the only one that changed. -/
theorem lineAt_of_sets_eq {c' : ClassCache} {l : CacheLine} (hi : i.val < 4096)
    (h : c'.sets = c.sets.set i.val ((c.sets.get i).put side l) hi) (j : Fin 4096)
    (side' : Side) :
    c'.lineAt j side' = if j = i ∧ side' = side then l else c.lineAt j side' := by
  rw [lineAt, h]
  by_cases hij : i = j
  · subst hij
    have hget : (c.sets.set i.val ((c.sets.get i).put side l) hi).get i =
        (c.sets.get i).put side l := Vector.getElem_set_self hi
    rw [hget, CacheSet.line_put]
    by_cases hside : side' = side
    · rw [if_pos hside, if_pos ⟨rfl, hside⟩]
    · rw [if_neg hside, if_neg fun h => hside h.2]
      rfl
  · have hne : i.val ≠ j := fun he => hij (Fin.ext he)
    have hget : (c.sets.set i.val ((c.sets.get i).put side l) hi).get j = c.sets.get j :=
      Vector.getElem_set_ne hi j.isLt hne
    rw [hget, if_neg fun h => hij h.1.symm]
    rfl

/-- A fill changes the line that gives way, and no other. -/
theorem lineAt_fill (c : ClassCache) (ip : Address) (even odd : PolicyClass) (j : Fin 4096)
    (side : Side) :
    (c.fill ip even odd).lineAt j side =
      if j = setOf ip ∧ side = c.victim ip then { tag := tagOf ip, stamp := c.clock + 1, even, odd }
      else c.lineAt j side := by
  refine lineAt_of_sets_eq (setOf ip).isLt ?_ j side
  by_cases hage : c.clock + 1 - (c.lineAt (setOf ip) .first).stamp ≥
      c.clock + 1 - (c.lineAt (setOf ip) .second).stamp
  · have hv : c.victim ip = .first := if_pos hage
    rw [hv]
    exact congrArg (c.sets.set (setOf ip) ·) (if_pos hage)
  · have hv : c.victim ip = .second := if_neg hage
    rw [hv]
    exact congrArg (c.sets.set (setOf ip) ·) (if_neg hage)

/-- A probe that finds the pair answers from its line; it marks this line and changes no
other. -/
theorem probe_of_hit (h : c.hit? ip = some side) :
    (c.probe ip).2 = some ((c.lineAt (setOf ip) side).classFor ip) ∧
    (c.probe ip).1.clock = c.clock + 1 ∧
    ∀ j side', (c.probe ip).1.lineAt j side' = if j = setOf ip ∧ side' = side then
      { c.lineAt (setOf ip) side with stamp := c.clock + 1 } else c.lineAt j side' := by
  by_cases hfirst : (c.lineAt (setOf ip) .first).tag = tagOf ip
  · obtain rfl : .first = side := Option.some.inj ((if_pos hfirst).symm.trans h)
    have hprobe : c.probe ip = _ := if_pos hfirst
    rw [hprobe]
    exact ⟨rfl, rfl, lineAt_of_sets_eq (setOf ip).isLt rfl⟩
  · have hrest := (if_neg hfirst).symm.trans h
    by_cases hsecond : (c.lineAt (setOf ip) .second).tag = tagOf ip
    · obtain rfl : .second = side := Option.some.inj ((if_pos hsecond).symm.trans hrest)
      have hprobe : c.probe ip = _ := (if_neg hfirst).trans (if_pos hsecond)
      rw [hprobe]
      exact ⟨rfl, rfl, lineAt_of_sets_eq (setOf ip).isLt rfl⟩
    · exact absurd ((if_neg hsecond).symm.trans hrest) (by simp)

/-- A probe that does not find the pair counts. -/
theorem probe_of_miss (h : c.hit? ip = none) :
    c.probe ip = ({ c with
      clock := c.clock + 1
      accesses := c.accesses + 1
      misses := c.misses + 1 }, none) := by
  have hfirst : (c.lineAt (setOf ip) .first).tag ≠ tagOf ip := fun htag =>
    absurd ((if_pos htag).symm.trans h) (by simp)
  have hsecond : (c.lineAt (setOf ip) .second).tag ≠ tagOf ip := fun htag =>
    absurd ((if_pos htag).symm.trans ((if_neg hfirst).symm.trans h)) (by simp)
  exact (if_neg hfirst).trans (if_neg hsecond)

theorem lineAt_probe_of_miss (h : c.hit? ip = none) (j : Fin 4096) (side : Side) :
    (c.probe ip).1.lineAt j side = c.lineAt j side := by
  rw [probe_of_miss h]
  rfl

/-- A pair is not found if each line is empty or holds another pair. -/
theorem hit?_eq_none (hs : ip.split?.isSome) (h : ∀ side, (c.lineAt (setOf ip) side).tag = 0 ∨
    (c.lineAt (setOf ip) side).tag ≠ tagOf ip) : c.hit? ip = none := by
  obtain ⟨s, hs⟩ := Option.isSome_iff_exists.1 hs
  have hne : ∀ side, (c.lineAt (setOf ip) side).tag ≠ tagOf ip := fun side =>
    (h side).elim (fun hz => hz ▸ (tagOf_ne_zero hs).symm) id
  rw [hit?, if_neg (hne .first), if_neg (hne .second)]

/-- The line where the pair is found has its tag. -/
theorem tag_of_hit (h : c.hit? ip = some side) : (c.lineAt (setOf ip) side).tag = tagOf ip := by
  unfold hit? at h
  split at h
  · rename_i htag
    rwa [← Option.some.inj h]
  · split at h
    · rename_i htag
      rwa [← Option.some.inj h]
    · cases h

theorem clock_probe (c : ClassCache) (ip : Address) : (c.probe ip).1.clock = c.clock + 1 := by
  cases hhit : c.hit? ip with
  | none => rw [probe_of_miss hhit]
  | some side => exact (probe_of_hit hhit).2.1

theorem lineAt_flush (c : ClassCache) (i : Fin 4096) (side : Side) :
    c.flush.lineAt i side = {} := by
  have hget : (Vector.replicate 4096 ({} : CacheSet)).get i = {} := Vector.getElem_replicate i.isLt
  rw [lineAt, flush, hget]
  cases side <;> rfl

/-- A probe answers if it finds the pair. -/
theorem probe_eq_none_iff : (c.probe ip).2 = none ↔ c.hit? ip = none := by
  cases hhit : c.hit? ip with
  | none => simp [probe_of_miss hhit]
  | some side => simp [(probe_of_hit hhit).1]

end ClassCache

/-! ### Times of use -/

/-- A use of the cache. -/
inductive CacheUse
  /-- Look an address up. -/
  | probe (ip : Address)
  /-- Enter the classes of a pair. -/
  | fill (ip : Address) (even odd : PolicyClass)
  /-- Empty every line. -/
  | flush
  deriving DecidableEq, Repr

/-- A cache with a clock that does not roll over, and the time when each line was filled or
found last. -/
structure TimedCache where
  /-- The cache. -/
  cache : ClassCache := {}
  /-- How many probes and fills there were. -/
  ticks : Nat := 0
  /-- When a line was filled or found last; 0 for an empty line. -/
  used : Fin 4096 → Side → Nat := fun _ _ => 0

namespace TimedCache

variable {t : TimedCache} {i : Fin 4096} {side : Side} {ip : Address}

/-- The times of use when a line is used now. -/
def mark (t : TimedCache) (i : Fin 4096) (side : Side) : Fin 4096 → Side → Nat :=
  fun j side' => if j = i ∧ side' = side then t.ticks + 1 else t.used j side'

/-- Use the cache once. -/
def use (t : TimedCache) : CacheUse → TimedCache
  | .probe ip =>
    { cache := (t.cache.probe ip).1
      ticks := t.ticks + 1
      used := match t.cache.hit? ip with
        | some side => t.mark (ClassCache.setOf ip) side
        | none => t.used }
  | .fill ip even odd =>
    { cache := t.cache.fill ip even odd
      ticks := t.ticks + 1
      used := t.mark (ClassCache.setOf ip) (t.cache.victim ip) }
  | .flush => { t with cache := t.cache.flush, used := fun _ _ => 0 }

/-- A use as the classifier makes it: of an address that splits, and a fill only for a pair that
is not found. -/
def Allows (t : TimedCache) : CacheUse → Prop
  | .probe ip => ip.split?.isSome
  | .fill ip _ _ => ip.split?.isSome ∧ t.cache.hit? ip = none
  | .flush => True

/-- Uses one after another, as the classifier makes them. -/
inductive Run : TimedCache → List CacheUse → TimedCache → Prop
  /-- No use. -/
  | nil (t : TimedCache) : Run t [] t
  /-- A use, and others after it. -/
  | cons {t t' : TimedCache} {u : CacheUse} {us : List CacheUse} (h : t.Allows u)
    (hrun : Run (t.use u) us t') : Run t (u :: us) t'

/-- A line that holds a pair. -/
def Full (t : TimedCache) (i : Fin 4096) (side : Side) : Prop := (t.cache.lineAt i side).tag ≠ 0

/-- Clock and stamps are the times of use modulo the word size. -/
structure Sound (t : TimedCache) : Prop where
  /-- The clock counts probes and fills. -/
  clock : t.cache.clock = .ofNat t.ticks
  /-- The stamp of a line that holds a pair is its last use, which is past. -/
  full : ∀ i side, t.Full i side → (t.cache.lineAt i side).stamp = .ofNat (t.used i side) ∧
    0 < t.used i side ∧ t.used i side ≤ t.ticks
  /-- An empty line has the stamp 0. -/
  empty : ∀ i side, ¬ t.Full i side → (t.cache.lineAt i side).stamp = 0
  /-- Two lines that hold pairs were not used at the same time. -/
  distinct : ∀ i, t.Full i .first → t.Full i .second → t.used i .first ≠ t.used i .second

/-! ### What a use preserves -/

/-- Without any pairs only the clock has to be right. -/
theorem sound_of_empty (hclock : t.cache.clock = .ofNat t.ticks)
    (hempty : ∀ i side, t.cache.lineAt i side = {}) : t.Sound := by
  have hfull : ∀ i side, ¬ t.Full i side := fun i side h =>
    h (congrArg CacheLine.tag (hempty i side))
  exact {
    clock := hclock
    full := fun i side h => absurd h (hfull i side)
    empty := fun i side _ => congrArg CacheLine.stamp (hempty i side)
    distinct := fun i h => absurd h (hfull i .first) }

theorem sound_new : ({} : TimedCache).Sound := sound_of_empty rfl (ClassCache.lineAt_flush {})

/-- What the next probe or fill takes the time to be. -/
theorem Sound.clock_succ (h : t.Sound) : t.cache.clock + 1 = .ofNat (t.ticks + 1) := by
  rw [h.clock, UInt32.ofNat_add]
  rfl

/-- A use that changes no line counts only. -/
theorem Sound.of_lines_eq {t' : TimedCache} (h : t.Sound)
    (hlines : ∀ i side, t'.cache.lineAt i side = t.cache.lineAt i side)
    (hclock : t'.cache.clock = t.cache.clock + 1) (hticks : t'.ticks = t.ticks + 1)
    (hused : t'.used = t.used) : t'.Sound := by
  have hfull : ∀ i side, t'.Full i side ↔ t.Full i side := fun i side => by
    rw [Full, hlines, Full]
  constructor
  case clock => rw [hclock, h.clock_succ, hticks]
  case full =>
    intro i side hf
    obtain ⟨hstamp, hpos, hle⟩ := h.full i side ((hfull i side).1 hf)
    rw [hlines, hused, hticks]
    exact ⟨hstamp, hpos, Nat.le_succ_of_le hle⟩
  case empty =>
    intro i side hf
    rw [hlines]
    exact h.empty i side fun hf' => hf ((hfull i side).2 hf')
  case distinct =>
    intro i hfirst hsecond
    rw [hused]
    exact h.distinct i ((hfull i _).1 hfirst) ((hfull i _).1 hsecond)

/-- A use that finds or fills one line marks it with the time. -/
theorem Sound.of_mark {t' : TimedCache} {l : CacheLine} (h : t.Sound)
    (hlines : ∀ j side', t'.cache.lineAt j side' =
      if j = i ∧ side' = side then l else t.cache.lineAt j side')
    (htag : l.tag ≠ 0) (hstamp : l.stamp = t.cache.clock + 1)
    (hclock : t'.cache.clock = t.cache.clock + 1) (hticks : t'.ticks = t.ticks + 1)
    (hused : t'.used = t.mark i side) : t'.Sound := by
  -- a line that is not the marked one is as before
  have hother : ∀ j side', ¬ (j = i ∧ side' = side) →
      (t'.Full j side' ↔ t.Full j side') ∧ t'.used j side' = t.used j side' := by
    intro j side' hne
    rw [Full, hlines, if_neg hne, hused, mark, if_neg hne]
    exact ⟨Iff.rfl, rfl⟩
  have hmarked : t'.used i side = t.ticks + 1 := by rw [hused, mark, if_pos ⟨rfl, rfl⟩]
  constructor
  case clock => rw [hclock, h.clock_succ, hticks]
  case full =>
    intro j side' hf
    by_cases hm : j = i ∧ side' = side
    · obtain ⟨rfl, rfl⟩ := hm
      rw [hlines, if_pos ⟨rfl, rfl⟩, hmarked, hticks, hstamp, h.clock_succ]
      exact ⟨rfl, Nat.succ_pos _, le_refl _⟩
    · obtain ⟨hs, hpos, hle⟩ := h.full j side' ((hother j side' hm).1.1 hf)
      rw [hlines, if_neg hm, (hother j side' hm).2, hticks]
      exact ⟨hs, hpos, Nat.le_succ_of_le hle⟩
  case empty =>
    intro j side' hf
    by_cases hm : j = i ∧ side' = side
    · obtain ⟨rfl, rfl⟩ := hm
      rw [Full, hlines, if_pos ⟨rfl, rfl⟩] at hf
      exact absurd htag hf
    · rw [hlines, if_neg hm]
      exact h.empty j side' fun hf' => hf ((hother j side' hm).1.2 hf')
  case distinct =>
    -- the marked line was used now, and any other before
    have hbefore : ∀ j side', ¬ (j = i ∧ side' = side) → t'.Full j side' →
        t'.used j side' < t.ticks + 1 := by
      intro j side' hm hf
      rw [(hother j side' hm).2]
      exact Nat.lt_succ_of_le (h.full j side' ((hother j side' hm).1.1 hf)).2.2
    intro j hfirst hsecond
    by_cases hm : j = i ∧ Side.first = side
    · obtain ⟨rfl, rfl⟩ := hm
      rw [hmarked]
      exact (hbefore j .second (by simp) hsecond).ne'
    · by_cases hm' : j = i ∧ Side.second = side
      · obtain ⟨rfl, rfl⟩ := hm'
        rw [hmarked]
        exact (hbefore j .first (by simp) hfirst).ne
      · rw [(hother j .first hm).2, (hother j .second hm').2]
        exact h.distinct j ((hother j _ hm).1.1 hfirst) ((hother j _ hm').1.1 hsecond)

theorem used_probe_of_miss (h : t.cache.hit? ip = none) : (t.use (.probe ip)).used = t.used := by
  simp only [use, h]

/-- One use keeps clock and stamps right. -/
theorem Sound.use {u : CacheUse} (h : t.Sound) (hallow : t.Allows u) : (t.use u).Sound := by
  cases u with
  | probe ip =>
    obtain ⟨s, hs⟩ := Option.isSome_iff_exists.1 hallow
    cases hhit : t.cache.hit? ip with
    | none =>
      exact h.of_lines_eq (ClassCache.lineAt_probe_of_miss hhit) (ClassCache.clock_probe _ _) rfl
        (used_probe_of_miss hhit)
    | some side =>
      have htag : (t.cache.lineAt (ClassCache.setOf ip) side).tag ≠ 0 :=
        ClassCache.tag_of_hit hhit ▸ ClassCache.tagOf_ne_zero hs
      have hused : (t.use (.probe ip)).used = t.mark (ClassCache.setOf ip) side := by
        simp only [TimedCache.use, hhit]
      exact h.of_mark (ClassCache.probe_of_hit hhit).2.2 htag rfl (ClassCache.clock_probe _ _) rfl
        hused
  | fill ip even odd =>
    obtain ⟨s, hs⟩ := Option.isSome_iff_exists.1 hallow.1
    exact h.of_mark (ClassCache.lineAt_fill _ _ _ _) (ClassCache.tagOf_ne_zero hs) rfl rfl rfl rfl
  | flush => exact sound_of_empty h.clock (ClassCache.lineAt_flush t.cache)

/-- Clock and stamps are right after any uses. -/
theorem Sound.run {us : List CacheUse} {t' : TimedCache} (h : t.Sound) (hrun : Run t us t') :
    t'.Sound := by
  induction hrun with
  | nil _ => exact h
  | cons hallow _ ih => exact ih (h.use hallow)

/-! ### Which line gives way -/

/-- The last time at or before `now` when the clock showed 0. -/
def lastRollover (now : Nat) : Nat := now / 2 ^ 32 * 2 ^ 32

/-- The age by the clock is the age, up to the word size. -/
theorem toNat_age {now used : Nat} (h : used ≤ now) (hage : now - used < 2 ^ 32) :
    (UInt32.ofNat now - UInt32.ofNat used).toNat = now - used := by
  rw [UInt32.toNat_sub, UInt32.toNat_ofNat', UInt32.toNat_ofNat']
  omega

/-- Since when a line is unused by the clock: since its last use, and if it is empty since the
clock showed 0. -/
def since (t : TimedCache) (i : Fin 4096) (side : Side) : Nat :=
  if (t.cache.lineAt i side).tag = 0 then lastRollover (t.ticks + 1) else t.used i side

/-- The lines of a set that hold pairs were used fewer than `2 ^ 32` ticks ago. -/
def Recent (t : TimedCache) (i : Fin 4096) : Prop :=
  ∀ side, t.Full i side → t.ticks + 1 - t.used i side < 2 ^ 32

theorem since_of_full (h : t.Full i side) : t.since i side = t.used i side := if_neg h

theorem since_of_empty (h : ¬ t.Full i side) : t.since i side = lastRollover (t.ticks + 1) :=
  if_pos (Decidable.not_not.1 h)

/-- The age of a line by the clock is the time since it was used, or since the rollover. -/
theorem Sound.toNat_age_eq (h : t.Sound) (hrecent : t.Recent i) (side : Side) :
    t.since i side ≤ t.ticks + 1 ∧
      (t.cache.clock + 1 - (t.cache.lineAt i side).stamp).toNat =
        t.ticks + 1 - t.since i side := by
  rw [h.clock_succ]
  by_cases hf : t.Full i side
  · obtain ⟨hstamp, -, hle⟩ := h.full i side hf
    rw [since_of_full hf, hstamp]
    exact ⟨Nat.le_succ_of_le hle, toNat_age (Nat.le_succ_of_le hle) (hrecent side hf)⟩
  · have hzero : (0 : UInt32) = .ofNat (lastRollover (t.ticks + 1)) :=
      UInt32.toNat_inj.1 (by simp [lastRollover])
    have hlt : t.ticks + 1 - lastRollover (t.ticks + 1) < 2 ^ 32 := by
      unfold lastRollover; omega
    have hle : lastRollover (t.ticks + 1) ≤ t.ticks + 1 := Nat.div_mul_le_self _ _
    rw [since_of_empty hf, h.empty i side hf, hzero]
    exact ⟨hle, toNat_age hle hlt⟩

/-- The line that is unused for longer gives way, the first of two equally old ones. -/
theorem Sound.victim_eq (h : t.Sound) (hrecent : t.Recent (ClassCache.setOf ip)) :
    t.cache.victim ip =
      if t.since (ClassCache.setOf ip) .first ≤ t.since (ClassCache.setOf ip) .second
      then .first else .second := by
  obtain ⟨hle, hage⟩ := h.toNat_age_eq hrecent .first
  obtain ⟨hle', hage'⟩ := h.toNat_age_eq hrecent .second
  unfold ClassCache.victim
  refine if_congr ?_ rfl rfl
  rw [ge_iff_le, UInt32.le_iff_toNat_le, hage, hage']
  omega

theorem Sound.used_ne_other (h : t.Sound) (hf : t.Full i side) (hf' : t.Full i side.other) :
    t.used i side ≠ t.used i side.other := by
  cases side with
  | first => exact h.distinct i hf hf'
  | second => exact (h.distinct i hf' hf).symm

/-- After any uses, a line that holds a pair gives way to a new pair only if it was used longer
ago than the other, and before an empty one only if it was not used since the clock showed 0. -/
theorem replacement_run {us : List CacheUse} (hrun : Run {} us t)
    (hrecent : t.Recent (ClassCache.setOf ip))
    (hfull : t.Full (ClassCache.setOf ip) (t.cache.victim ip)) :
    (t.Full (ClassCache.setOf ip) (t.cache.victim ip).other →
      t.used (ClassCache.setOf ip) (t.cache.victim ip) <
        t.used (ClassCache.setOf ip) (t.cache.victim ip).other) ∧
    (¬ t.Full (ClassCache.setOf ip) (t.cache.victim ip).other →
      t.used (ClassCache.setOf ip) (t.cache.victim ip) ≤ lastRollover (t.ticks + 1)) := by
  have hsound := sound_new.run hrun
  have hle : t.since (ClassCache.setOf ip) (t.cache.victim ip) ≤
      t.since (ClassCache.setOf ip) (t.cache.victim ip).other := by
    rw [hsound.victim_eq hrecent]
    split
    · assumption
    · exact Nat.le_of_not_le ‹_›
  rw [since_of_full hfull] at hle
  constructor
  · intro hother
    rw [since_of_full hother] at hle
    exact Nat.lt_of_le_of_ne hle (hsound.used_ne_other hfull hother)
  · intro hother
    rwa [since_of_empty hother] at hle

/-- Until the clock rolls over for the first time an empty line gives way first. -/
theorem empty_victim_of_lt {us : List CacheUse} (hrun : Run {} us t) (hlt : t.ticks + 1 < 2 ^ 32)
    (hempty : ∃ side, ¬ t.Full (ClassCache.setOf ip) side) :
    ¬ t.Full (ClassCache.setOf ip) (t.cache.victim ip) := by
  intro hfull
  have hrecent : t.Recent (ClassCache.setOf ip) := fun _ _ => by omega
  have hother : ¬ t.Full (ClassCache.setOf ip) (t.cache.victim ip).other := by
    obtain ⟨side, hside⟩ := hempty
    cases hv : t.cache.victim ip <;> cases side <;> simp_all [Side.other]
  have hle := (replacement_run hrun hrecent hfull).2 hother
  have hpos := ((sound_new.run hrun).full _ _ hfull).2.1
  rw [lastRollover, Nat.div_eq_of_lt hlt] at hle
  omega

/-! ### A line that gives way before an empty one -/

theorem Run.append {t' t'' : TimedCache} {us us' : List CacheUse} (h : Run t us t')
    (h' : Run t' us' t'') : Run t (us ++ us') t'' := by
  induction h with
  | nil _ => exact h'
  | cons hallow _ ih => exact .cons hallow (ih h')

/-- Probes of an empty cache count only. -/
theorem run_probes_of_empty (hs : ip.split?.isSome) (n : Nat)
    (hempty : ∀ i side, t.cache.lineAt i side = {}) :
    ∃ t', Run t (List.replicate n (.probe ip)) t' ∧ (∀ i side, t'.cache.lineAt i side = {}) ∧
      t'.ticks = t.ticks + n := by
  induction n generalizing t with
  | zero => exact ⟨t, .nil t, hempty, rfl⟩
  | succ n ih =>
    have hmiss : t.cache.hit? ip = none := ClassCache.hit?_eq_none hs fun side =>
      .inl (congrArg CacheLine.tag (hempty _ side))
    obtain ⟨t', hrun, hempty', hticks⟩ := ih (t := t.use (.probe ip)) fun i side =>
      (ClassCache.lineAt_probe_of_miss hmiss i side).trans (hempty i side)
    refine ⟨t', .cons hs hrun, hempty', ?_⟩
    rw [hticks]
    exact Nat.succ_add_eq_add_succ _ _

/-- A pair entered on the last tick before the clock rolls over, and another pair of its set
looked for on the next. -/
theorem run_to_rollover {a b : Address} (ha : a.split?.isSome) (hb : b.split?.isSome)
    (hset : ClassCache.setOf a = ClassCache.setOf b)
    (htag : ClassCache.tagOf a ≠ ClassCache.tagOf b) (even odd : PolicyClass) :
    ∃ us t, Run {} us t ∧ t.ticks = 2 ^ 32 ∧ t.used (ClassCache.setOf b) .first = 2 ^ 32 - 1 ∧
      (t.cache.lineAt (ClassCache.setOf b) .first).tag = ClassCache.tagOf a ∧
      (t.cache.lineAt (ClassCache.setOf b) .second).tag = 0 := by
  obtain ⟨t, hrun, hempty, hticks⟩ := run_probes_of_empty (t := {}) ha (2 ^ 32 - 2)
    (ClassCache.lineAt_flush {})
  have hmiss : t.cache.hit? a = none := ClassCache.hit?_eq_none ha fun side =>
    .inl (congrArg CacheLine.tag (hempty _ side))
  -- both lines are empty, and the first pair takes the first
  have hvictim : t.cache.victim a = .first := by
    rw [ClassCache.victim, hempty, hempty]
    exact if_pos UInt32.le_rfl
  have hline : ∀ side, (t.cache.fill a even odd).lineAt (ClassCache.setOf b) side =
      if side = .first then { tag := ClassCache.tagOf a, stamp := t.cache.clock + 1, even, odd }
      else {} := by
    intro side
    rw [ClassCache.lineAt_fill, hvictim, hset, hempty]
    simp only [true_and]
  have hmiss' : (t.cache.fill a even odd).hit? b = none := by
    refine ClassCache.hit?_eq_none hb fun side => ?_
    rw [hline]
    split
    · exact .inr htag
    · exact .inl rfl
  have hused : ((t.use (.fill a even odd)).use (.probe b)).used =
      t.mark (ClassCache.setOf a) (t.cache.victim a) := used_probe_of_miss hmiss'
  have hticks' : t.ticks = 2 ^ 32 - 2 := by rw [hticks]; exact Nat.zero_add _
  have hrun' : Run t [.fill a even odd, .probe b] ((t.use (.fill a even odd)).use (.probe b)) :=
    .cons ⟨ha, hmiss⟩ (.cons hb (.nil _))
  refine ⟨_, _, hrun.append hrun', ?_, ?_, ?_, ?_⟩
  · exact congrArg (· + 2) hticks'
  · rw [hused, mark, if_pos ⟨hset.symm, hvictim.symm⟩, hticks']
    rfl
  · exact congrArg CacheLine.tag ((ClassCache.lineAt_probe_of_miss hmiss' _ _).trans (hline .first))
  · exact congrArg CacheLine.tag
      ((ClassCache.lineAt_probe_of_miss hmiss' _ _).trans (hline .second))

/-- Of two pairs that share a set, the first is entered on the last tick before the clock rolls
over and the second two ticks later.  The second takes the line of the first, which is lost,
although the other line of the set is empty. -/
theorem rollover_evicts {a b : Address} (ha : a.split?.isSome) (hb : b.split?.isSome)
    (hset : ClassCache.setOf a = ClassCache.setOf b)
    (htag : ClassCache.tagOf a ≠ ClassCache.tagOf b) (even odd : PolicyClass) :
    ∃ us t, Run {} us t ∧ t.Allows (.fill b even odd) ∧ t.Recent (ClassCache.setOf b) ∧
      t.Full (ClassCache.setOf b) .first ∧ ¬ t.Full (ClassCache.setOf b) .second ∧
      t.cache.victim b = .first ∧ ((t.cache.fill b even odd).probe a).2 = none := by
  obtain ⟨us, t, hrun, hticks, hused, hfirst, hsecond⟩ := run_to_rollover ha hb hset htag even odd
  obtain ⟨sa, hsa⟩ := Option.isSome_iff_exists.1 ha
  have hfull : t.Full (ClassCache.setOf b) .first := by
    rw [Full, hfirst]
    exact ClassCache.tagOf_ne_zero hsa
  have hempty : ¬ t.Full (ClassCache.setOf b) .second := not_not.2 hsecond
  have hmiss : t.cache.hit? b = none := by
    refine ClassCache.hit?_eq_none hb fun side => ?_
    cases side with
    | first => exact .inr (hfirst ▸ htag)
    | second => exact .inl hsecond
  have hrecent : t.Recent (ClassCache.setOf b) := by
    intro side hside
    cases side with
    | first => rw [hticks, hused]; decide
    | second => exact absurd hside hempty
  -- the empty line is as old as the rollover, and the other one was used the tick before
  have hvictim : t.cache.victim b = .first := by
    rw [(sound_new.run hrun).victim_eq hrecent, since_of_full hfull, since_of_empty hempty, hused,
      hticks]
    exact if_pos (by decide)
  refine ⟨us, t, hrun, ⟨hb, hmiss⟩, hrecent, hfull, hempty, hvictim, ?_⟩
  rw [ClassCache.probe_eq_none_iff]
  refine ClassCache.hit?_eq_none ha fun side => ?_
  rw [ClassCache.lineAt_fill, hvictim, hset]
  cases side with
  | first => rw [if_pos ⟨rfl, rfl⟩]; exact .inr htag.symm
  | second => rw [if_neg (by simp)]; exact .inl hsecond

/-- 192.168.0.16 and 192.168.32.16 are such pairs. -/
example : (0xC0A80010 : Address).split?.isSome ∧ (0xC0A82010 : Address).split?.isSome ∧
    ClassCache.setOf 0xC0A80010 = ClassCache.setOf 0xC0A82010 ∧
    ClassCache.tagOf 0xC0A80010 ≠ ClassCache.tagOf 0xC0A82010 := by decide

end TimedCache

end FilterBridge
