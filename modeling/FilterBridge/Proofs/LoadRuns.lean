import FilterBridge.Proofs.Transactions

/-!
# Loading is all or nothing

Parts come in any order, of any kind and with any fault.  What is collected of a kind
is always what the latest attempt at that kind has put together, so a table goes live
as a whole or not at all.

## Main definitions

* `Loading.run` — parts taken one after another, with a log of the answers.
* `attempt` — the parts of a kind since and including the latest one that begins.
* `Assembles` — an attempt has put an image together.

## Main results

* `Loading.tracks_run` — what is collected is what the attempts have put together.
* `Loading.take_atomic` — what one more part does after any others.
-/

namespace FilterBridge

/-! ### Attempts -/

/-- A part and the answer to it. -/
structure Answered where
  /-- The part. -/
  part : Fragment
  /-- The answer. -/
  result : Except LoadError Unit

/-- The parts of a kind since and including the latest one that begins, in order of
arrival. -/
def attempt (kind : TableKind) (log : List Answered) : List Answered :=
  log.foldl (fun parts a =>
    if TableKind.ofByte? a.part.kind = some kind then
      if a.part.isBegin then [a] else parts ++ [a]
    else parts) []

/-- Zeros, overlaid by parts in turn. -/
def overlaid (len : Nat) (parts : List Answered) : Bytes :=
  parts.foldl (fun image a => image.overlay a.part.offset.toNat a.part.data) (Bytes.zeros len)

/-- Parts put an image of a table together. -/
structure Assembles (kind : TableKind) (index : UInt32) (parts : List Answered) (len : Nat)
    (image : Bytes) : Prop where
  /-- There is such a table. -/
  tableLen : kind.tableLen? index = some len
  /-- The first part begins. -/
  begins : ∃ first rest, parts = first :: rest ∧ first.part.isBegin = true
  /-- All parts were accepted. -/
  accepted : ∀ a ∈ parts, a.result = .ok ()
  /-- All parts are for this table. -/
  index : ∀ a ∈ parts, kind.key a.part.index = index
  /-- All parts lie inside the image. -/
  fits : ∀ a ∈ parts, a.part.offset.toNat + a.part.data.length ≤ len
  /-- The image is what the parts say. -/
  image : image = overlaid len parts

variable {kind : TableKind} {log : List Answered} {a : Answered} {part : Fragment}

theorem attempt_append (kind : TableKind) (log : List Answered) (a : Answered) :
    attempt kind (log ++ [a]) =
      if TableKind.ofByte? a.part.kind = some kind then
        if a.part.isBegin then [a] else attempt kind log ++ [a]
      else attempt kind log := by
  rw [attempt, List.foldl_append, List.foldl_cons, List.foldl_nil]
  rfl

theorem overlaid_append (len : Nat) (parts : List Answered) (a : Answered) :
    overlaid len (parts ++ [a]) =
      (overlaid len parts).overlay a.part.offset.toNat a.part.data := by
  rw [overlaid, List.foldl_append, List.foldl_cons, List.foldl_nil]
  rfl

theorem length_overlaid {len : Nat} {parts : List Answered}
    (h : ∀ a ∈ parts, a.part.offset.toNat + a.part.data.length ≤ len) :
    (overlaid len parts).length = len := by
  induction parts using List.reverseRecOn with
  | nil => simp [overlaid]
  | append_singleton parts a ih =>
    have hlen := ih fun b hb => h b (by simp [hb])
    rw [overlaid_append, Bytes.length_overlay, hlen]
    rw [hlen]
    exact h a (by simp)

/-- A part that begins puts its table together on its own. -/
theorem assembles_singleton {len : Nat} (hlen : kind.tableLen? part.index = some len)
    (hbegin : part.isBegin = true) (hle : part.offset.toNat + part.data.length ≤ len) :
    Assembles kind (kind.key part.index) [⟨part, .ok ()⟩] len
      ((Bytes.zeros len).overlay part.offset.toNat part.data) where
  tableLen := by rw [TableKind.tableLen?_key, hlen]
  begins := ⟨_, _, rfl, hbegin⟩
  accepted := by simp
  index := by simp
  fits := by simpa using hle
  image := rfl

/-- One more part is put into what the parts before have put together. -/
theorem Assembles.append {parts : List Answered} {len : Nat} {image : Bytes}
    (h : Assembles kind (kind.key part.index) parts len image)
    (hle : part.offset.toNat + part.data.length ≤ image.length) :
    Assembles kind (kind.key part.index) (parts ++ [⟨part, .ok ()⟩]) len
      (image.overlay part.offset.toNat part.data) := by
  have hlen : image.length = len := h.image ▸ length_overlaid h.fits
  obtain ⟨first, rest, hparts, hfirst⟩ := h.begins
  refine ⟨h.tableLen, ⟨first, rest ++ [⟨part, .ok ()⟩], ?_, hfirst⟩, ?_, ?_, ?_, ?_⟩
  · rw [hparts, List.cons_append]
  · intro a ha
    rcases List.mem_append.mp ha with ha | ha
    · exact h.accepted a ha
    · rw [List.mem_singleton.mp ha]
  · intro a ha
    rcases List.mem_append.mp ha with ha | ha
    · exact h.index a ha
    · rw [List.mem_singleton.mp ha]
  · intro a ha
    rcases List.mem_append.mp ha with ha | ha
    · exact h.fits a ha
    · rw [List.mem_singleton.mp ha, ← hlen]
      exact hle
  · rw [overlaid_append, ← h.image]

/-- One accepted part more puts together what is collected with it. -/
theorem assembles_put? {s : Collected} {image : Bytes}
    (hs : ∀ index image, s kind = some (index, image) →
      ∃ len, Assembles kind index (attempt kind log) len image)
    (hk : TableKind.ofByte? part.kind = some kind) (hput : s.put? kind part = some image) :
    ∃ len, Assembles kind (kind.key part.index) (attempt kind (log ++ [⟨part, .ok ()⟩])) len
      image := by
  obtain ⟨base, hbase, hput⟩ := Option.bind_eq_some_iff.mp hput
  rw [attempt_append, if_pos hk]
  split at hput
  · rename_i hle
    obtain rfl := Option.some.inj hput
    -- a part that begins starts a new attempt, any other one continues the last
    split at hbase
    · rename_i hbegin
      obtain ⟨len, hlen, rfl⟩ := Option.map_eq_some_iff.mp hbase
      rw [Bytes.length_zeros] at hle
      rw [if_pos hbegin]
      exact ⟨len, assembles_singleton hlen hbegin hle⟩
    · rename_i hbegin
      obtain ⟨⟨index, base'⟩, hfilter, rfl⟩ := Option.map_eq_some_iff.mp hbase
      obtain ⟨hc, hindex⟩ := Option.filter_eq_some_iff.mp hfilter
      have hindex : index = kind.key part.index := by simpa using hindex
      subst hindex
      obtain ⟨len, h⟩ := hs _ base' hc
      rw [if_neg hbegin]
      exact ⟨len, h.append hle⟩
  · simp at hput

/-! ### Runs -/

/-- A filter that is being loaded, with a log of the parts it took. -/
structure Loading where
  /-- What is being collected. -/
  uploads : Uploads := {}
  /-- The filter. -/
  firewall : Firewall
  /-- The parts so far, the oldest first. -/
  log : List Answered := []

namespace Loading

variable {l : Loading} {own : List Slot}

/-- The answer to a part. -/
def answer (l : Loading) (part : Fragment) : Except LoadError Unit :=
  (l.uploads.apply l.firewall part).2.2

/-- Take a part. -/
def take (l : Loading) (part : Fragment) : Loading where
  uploads := (l.uploads.apply l.firewall part).1
  firewall := (l.uploads.apply l.firewall part).2.1
  log := l.log ++ [⟨part, l.answer part⟩]

/-- Take parts one after another, with nothing collected before. -/
def run (f : Firewall) (parts : List Fragment) : Loading := parts.foldl take { firewall := f }

/-- What is collected is what the attempts have put together. -/
structure Tracks (l : Loading) (own : List Slot) : Prop where
  /-- The host table that is being collected has no other owner. -/
  consistent : l.uploads.Consistent l.firewall own
  /-- An attempt has put together what is collected. -/
  assembles : ∀ kind index image, l.uploads.collected l.firewall kind = some (index, image) →
    ∃ len, Assembles kind index (attempt kind l.log) len image

theorem tracks_start {f : Firewall} (h : f.classifier.Consistent own) :
    Tracks { firewall := f } own where
  consistent := h
  assembles := by
    intro kind index image hc
    cases kind <;> simp [Uploads.collected] at hc

/-! ### One part -/

theorem take_of_unknown (hk : TableKind.ofByte? part.kind = none) :
    (l.take part).uploads = l.uploads ∧ (l.take part).firewall = l.firewall ∧
      l.answer part = .error (.unknownKind part.kind) := by
  simp only [take, answer, Uploads.apply_of_unknown hk, and_self]

theorem Tracks.taken (h : l.Tracks own) (hk : TableKind.ofByte? part.kind = some kind) :
    (l.take part).uploads.Consistent (l.take part).firewall own ∧
      Taken kind part (l.uploads.collected l.firewall) l.firewall.live
        ((l.take part).uploads.collected (l.take part).firewall) (l.take part).firewall.live
        (l.answer part) :=
  Uploads.apply_taken h.consistent hk rfl

/-- What is collected of other kinds does not change. -/
theorem Tracks.collected_take (h : l.Tracks own) (hk : TableKind.ofByte? part.kind ≠ some kind) :
    (l.take part).uploads.collected (l.take part).firewall kind =
      l.uploads.collected l.firewall kind := by
  cases hk' : TableKind.ofByte? part.kind with
  | none =>
    obtain ⟨hu, hf, -⟩ := take_of_unknown (l := l) hk'
    rw [hu, hf]
  | some kind' =>
    refine (h.taken hk').2.other fun he => hk ?_
    rw [hk', he]

/-- A single part keeps what is collected in step with the attempts. -/
theorem Tracks.take (h : l.Tracks own) (part : Fragment) : (l.take part).Tracks own := by
  have hcons : (l.take part).uploads.Consistent (l.take part).firewall own := by
    cases hk : TableKind.ofByte? part.kind with
    | none =>
      obtain ⟨hu, hf, -⟩ := take_of_unknown (l := l) hk
      rw [hu, hf]
      exact h.consistent
    | some kind => exact (h.taken hk).1
  refine ⟨hcons, fun kind index image hc => ?_⟩
  by_cases hk : TableKind.ofByte? part.kind = some kind
  · obtain ⟨hr, rfl, hput⟩ := (h.taken hk).2.put?_eq hc
    rw [Loading.take, hr]
    exact assembles_put? (h.assembles kind) hk hput
  · -- the attempts at other kinds do not notice the part
    rw [h.collected_take hk] at hc
    rw [Loading.take, attempt_append, if_neg hk]
    exact h.assembles kind index image hc

/-- What is collected is what the attempts have put together, whatever parts came. -/
theorem tracks_run {f : Firewall} (h : f.classifier.Consistent own) (parts : List Fragment) :
    (run f parts).Tracks own := by
  -- by induction on the parts, from any start that is in step
  have hfold : ∀ l : Loading, l.Tracks own → (parts.foldl Loading.take l).Tracks own := by
    induction parts with
    | nil => exact fun l hl => hl
    | cons part parts ih => exact fun l hl => ih (l.take part) (hl.take part)
  exact hfold _ (tracks_start h)

/-- A part that is refused, or that does not end, changes no live table. -/
theorem Tracks.live_take (h : l.Tracks own)
    (hr : (∃ e, l.answer part = .error e) ∨ part.isEnd = false) :
    (l.take part).firewall.live = l.firewall.live := by
  cases hk : TableKind.ofByte? part.kind with
  | none =>
    obtain ⟨-, hf, -⟩ := take_of_unknown (l := l) hk
    rw [hf]
  | some kind => exact (h.taken hk).2.live_eq hr

/-- A part that ends and is accepted makes live what its attempt has put together. -/
theorem Tracks.commit_take (h : l.Tracks own) (hr : l.answer part = .ok ())
    (hend : part.isEnd = true) :
    ∃ kind len image, TableKind.ofByte? part.kind = some kind ∧
      Assembles kind (kind.key part.index) (attempt kind (l.take part).log) len image ∧
      l.firewall.live.commit kind part.index image = .ok (l.take part).firewall.live := by
  cases hk : TableKind.ofByte? part.kind with
  | none =>
    obtain ⟨-, -, hunknown⟩ := take_of_unknown (l := l) hk
    simp [hunknown] at hr
  | some kind =>
    have htaken := (h.taken hk).2
    rw [hr] at htaken
    obtain ⟨image, hput, hcommit⟩ := htaken.commit_eq hend
    obtain ⟨len, hassembles⟩ := assembles_put? (h.assembles kind) hk hput
    refine ⟨kind, len, image, rfl, ?_, hcommit⟩
    rw [Loading.take, hr]
    exact hassembles

/-- After a part that is refused, or that ends, no table of its kind is being
collected. -/
theorem Tracks.inProgress_take (h : l.Tracks own)
    (hk : TableKind.ofByte? part.kind = some kind)
    (hr : (∃ e, l.answer part = .error e) ∨ part.isEnd = true) :
    (l.take part).uploads.inProgress kind = false := by
  obtain ⟨hcons, htaken⟩ := h.taken hk
  rw [hcons.inProgress_eq, htaken.eq_none hr]
  rfl

/-! ### Any part, after any others -/

/-- Parts come to a filter whose classifier was used in any way before.  Whatever
parts came, one more part does the following.

A part that is refused, or that does not end, changes no live table and no class.

A part that ends and is accepted makes live, of all tables, the one that it names: the
parts of its kind since and including the latest that begins, all accepted and all for
this table, have put its image together.

After a part that is refused, or that ends, no table of its kind is being collected.
What is collected of other kinds does not change. -/
theorem take_atomic (capacity : Nat) (uses : List Classifier.Use) (policy : Policy)
    (counters : Counters) (parts : List Fragment) (part : Fragment) :
    let l := run ⟨(Holding.run capacity uses).classifier, policy, counters⟩ parts
    let l' := l.take part
    let f := l.firewall
    let f' := l'.firewall
    (((∃ e, l.answer part = .error e) ∨ part.isEnd = false) →
        f'.live = f.live ∧ ∀ ip, (f'.lookup ip).2 = (f.lookup ip).2) ∧
      (l.answer part = .ok () → part.isEnd = true →
        ∃ kind len image, TableKind.ofByte? part.kind = some kind ∧
          Assembles kind (kind.key part.index) (attempt kind l'.log) len image ∧
          f.live.commit kind part.index image = .ok f'.live) ∧
      (∀ kind, TableKind.ofByte? part.kind = some kind →
        ((∃ e, l.answer part = .error e) ∨ part.isEnd = true) →
          l'.uploads.inProgress kind = false) ∧
      (∀ kind, TableKind.ofByte? part.kind ≠ some kind →
        l'.uploads.collected f' kind = l.uploads.collected f kind) ∧
      (∀ n, f'.classifier.contains n = (f'.live.hosts n).isSome) ∧
      ∀ ip, (f'.lookup ip).2 = hostClass (fun n => (f'.live.hosts n).map (·.1)) ip := by
  intro l l' f f'
  have h : l.Tracks _ := tracks_run (Holding.consistent_run capacity uses) parts
  have h' : l'.Tracks _ := h.take part
  refine ⟨fun hr => ⟨h.live_take hr, fun ip => ?_⟩, h.commit_take,
    fun kind hk hr => h.inProgress_take hk hr, fun kind hk => h.collected_take hk,
    fun n => ?_, fun ip => h'.consistent.lookup_eq ip⟩
  · -- both look-ups tell what the same live host tables tell
    have hhosts : f'.classifier.hostMap = f.classifier.hostMap := by
      funext n
      exact Classifier.hostMap_congr (congrFun (congrArg LiveTables.hosts (h.live_take hr)) n)
    calc (f'.lookup ip).2 = hostClass f'.classifier.hostMap ip := h'.consistent.lookup_eq ip
      _ = hostClass f.classifier.hostMap ip := by rw [hhosts]
      _ = (f.lookup ip).2 := (h.consistent.lookup_eq ip).symm
  · rw [h'.consistent.sound.contains_eq, Classifier.hostMap, Option.isSome_map]
    rfl

/-- The reject list comes in two parts, with a refused part of another kind between
them. -/
example :
    let row := Subnet.encode ⟨0xC0000200, 0xFFFFFF00⟩
    let l := run (.withCapacity 4096)
      [⟨TableKind.reject.toByte, Fragment.beginFlag, 0, 0, row.take 4⟩,
        ⟨TableKind.allow.toByte, 0, 0, 0, row⟩]
    let l' := l.take ⟨TableKind.reject.toByte, Fragment.endFlag, 0, 4, row.drop 4⟩
    l.firewall.policy.reject = [] ∧
      l'.firewall.policy.reject = [⟨0xC0000200, 0xFFFFFF00⟩] := by
  decide +kernel

end Loading

end FilterBridge
