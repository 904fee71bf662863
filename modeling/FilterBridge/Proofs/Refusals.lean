import FilterBridge.Proofs.History

/-!
# Parts that are refused

A request to load brings a part of a table.  A part that is refused ends the loading of its
kind: what was collected is given up, and until a part of that kind begins anew, all others of
it are refused and no table goes live.

This holds for parts.  A payload that is cut short, or longer or shorter than it says, is no
part, though its first byte may name a kind of table.  It is refused as well, but what is
collected stays, and a part that ends may still make live what came before.

## Main definitions

* `Agent.Receives`, `Agent.Loads` — a request reaches an agent, and a request to load.
* `Appliance.Unbegun` — no part of a kind of table begins.
* `Appliance.Idle` — no table of a kind is being collected, and so it stays until a part begins.

## Main results

* `Agent.Receives.respond_eq` — what reaches an agent is obeyed.
* `Agent.Loads.respond_eq` — a request to load is taken as a part, and answered.
* `Agent.taken_onLoad` — how a part is taken shows in the answer.
* `Appliance.collected_after_idle` — nothing is collected until a part begins.
* `Appliance.load_refused_history` — what a refusal leaves behind, after any history.
-/

namespace FilterBridge

open Agent

/-! ### Requests to load -/

private theorem ok_of_toOption {ε α : Type} {r : Except ε α} {v : α}
    (h : r.toOption = some v) : r = .ok v := by
  cases r with
  | error e => cases h
  | ok w => exact congrArg Except.ok (Option.some.inj h)

namespace Agent

variable {σ : Type} {a : Agent σ} {f : Firewall} {s : Suite} {challenge datagram payload : Bytes}
  {kind : TableKind} {part : Fragment}

/-- A request of a type reaches an agent, with a payload. -/
structure Receives (a : Agent σ) (s : Suite) (type : MessageType) (datagram payload : Bytes) :
    Prop where
  /-- No restart is due. -/
  up : a.rebooting = false
  /-- The datagram is a request of the type, and is accepted. -/
  accepted : ∃ header body, Header.parse datagram = .ok (header, body) ∧
    header.type = type.toByte ∧ a.accept s header body datagram = .ok payload

/-- What reaches an agent is obeyed. -/
theorem Receives.respond_eq [TableStore σ] {type : MessageType}
    (h : a.Receives s type datagram payload) :
    a.respond f s challenge datagram = a.obey f s challenge datagram type payload := by
  obtain ⟨hup, header, body, hheader, htype, haccept⟩ := h
  simp only [respond, hup, hheader, haccept, htype, MessageType.ofByte?_toByte,
    Bool.false_eq_true, if_false]

/-- A request to load reaches an agent, with a payload. -/
def Loads (a : Agent σ) (s : Suite) (datagram payload : Bytes) : Prop :=
  a.Receives s .load datagram payload

/-- A part that an agent accepts reaches it, unless a restart is due. -/
theorem exists_loads (hup : a.rebooting = false) (h : a.partIn? s datagram = some part) :
    ∃ payload, a.Loads s datagram payload ∧ Fragment.parse payload = .ok part := by
  unfold partIn? at h
  cases hheader : Header.parse datagram with
  | error err => simp [hheader] at h
  | ok q =>
    obtain ⟨header, body⟩ := q
    simp only [hheader] at h
    split at h
    · rename_i htype
      obtain ⟨payload, haccept, hpart⟩ := Option.bind_eq_some_iff.mp h
      exact ⟨payload, ⟨hup, header, body, hheader, htype, ok_of_toOption haccept⟩,
        ok_of_toOption hpart⟩
    · cases h

/-- What reaches an agent is taken as a part of a table. -/
theorem Loads.respond_eq [TableStore σ] (h : a.Loads s datagram payload) :
    a.respond f s challenge datagram =
      ((a.onLoad f payload).1, (a.onLoad f payload).2.1, some (a.onLoad f payload).2.2) :=
  Receives.respond_eq h

/-- A payload that is no part changes nothing. -/
theorem onLoad_of_error {err : MessageError} (h : Fragment.parse payload = .error err) :
    a.onLoad f payload = (a, f, .refuse .command) := by
  simp only [onLoad, h]

/-- How a part is taken shows in the answer. -/
theorem taken_onLoad (hc : a.uploads.Consistent f []) (hp : Fragment.parse payload = .ok part)
    (hk : TableKind.ofByte? part.kind = some kind) :
    let r := a.onLoad f payload
    r.1.uploads.Consistent r.2.1 [] ∧ ∃ result,
      Taken kind part (a.uploads.collected f) f.live (r.1.uploads.collected r.2.1) r.2.1.live
        result ∧
      (r.2.2.type = .error ↔ ∃ e, result = .error e) := by
  intro r
  rcases ha : a.uploads.apply f part with ⟨u, f', e | ⟨⟩⟩
  · have hr : r = ({ a with uploads := u }, f', .refuse e.code) := by
      simp only [r, onLoad, hp, ha]
    obtain ⟨hc', htaken⟩ := Uploads.apply_taken hc hk ha
    rw [hr]
    exact ⟨hc', _, htaken, fun _ => ⟨e, rfl⟩, fun _ => rfl⟩
  · have hr : r = ({ a with uploads := u }, f', .reply .loadAck part.ack) := by
      simp only [r, onLoad, hp, ha]
    obtain ⟨hc', htaken⟩ := Uploads.apply_taken hc hk ha
    rw [hr]
    exact ⟨hc', _, htaken, by simp [Response.type]⟩

end Agent

/-- The first byte of a part names its kind. -/
theorem Fragment.head?_of_parse {payload : Bytes} {part : Fragment}
    (h : parse payload = .ok part) : payload.head? = some part.kind := by
  unfold parse at h
  split at h
  · split at h
    · rw [← Except.ok.inj h]
      rfl
    · cases h
  · cases h

/-! ### While nothing is collected -/

namespace Appliance

variable {σ : Type} [TableStore σ] {x : Appliance σ} {s : Suite} {e : Exchange}
  {kind : TableKind} {payload : Bytes} {part : Fragment}

/-- The answer to a request to load that reaches the agent. -/
theorem answer_of_loads (h : x.agent.Loads s e.datagram payload) :
    let r := x.agent.onLoad x.filter payload
    x.answer s e = (⟨r.1, r.2.1⟩, some (r.2.2.sealFor s r.1.session e.nonce)) := by
  simp only [answer, handle, h.respond_eq, Option.map_some]

/-- No part of a kind of table begins. -/
def Unbegun (x : Appliance σ) (s : Suite) (kind : TableKind) : List Happening → Prop
  | [] => True
  | h :: hs =>
    (∀ part, h.part? x.agent s = some part → TableKind.ofByte? part.kind = some kind →
      part.isBegin = false) ∧
      (x.step s h).Unbegun s kind hs

/-- While nothing is collected of a kind, a part of it that does not begin is refused. -/
theorem answer_idle (hc : x.Consistent)
    (hidle : x.agent.uploads.collected x.filter kind = none)
    (hload : x.agent.Loads s e.datagram payload)
    (hp : Fragment.parse payload = .ok part) (hk : TableKind.ofByte? part.kind = some kind)
    (hbegin : part.isBegin = false) :
    let r := x.answer s e
    r.2.bind List.head? = some MessageType.error.toByte ∧
      r.1.filter.live = x.filter.live ∧
      r.1.agent.uploads.collected r.1.filter kind = none := by
  obtain ⟨-, result, htaken, htype⟩ := taken_onLoad hc hp hk
  obtain ⟨hlive, hnone, e', rfl⟩ := htaken.of_none hbegin hidle
  rw [answer_of_loads hload]
  refine ⟨?_, hlive, hnone⟩
  rw [Option.bind_some, Response.head?_sealFor, htype.mpr ⟨e', rfl⟩]

/-- Nothing is collected of a kind after a happening in which no part of it begins. -/
theorem collected_step_idle (hc : x.Consistent)
    (hidle : x.agent.uploads.collected x.filter kind = none) {h : Happening}
    (hbegin : ∀ part, h.part? x.agent s = some part → TableKind.ofByte? part.kind = some kind →
      part.isBegin = false) :
    (x.step s h).agent.uploads.collected (x.step s h).filter kind = none := by
  by_cases hpart : ∃ part, h.part? x.agent s = some part ∧
      TableKind.ofByte? part.kind = some kind
  · obtain ⟨part, hpart, hk⟩ := hpart
    cases h with
    | frame options sends frame => cases hpart
    | count counters => cases hpart
    | datagram e =>
      cases hup : x.agent.rebooting with
      | true =>
        have hsame : (x.answer s e).1 = x := by
          simp only [answer, handle, respond, hup, if_true]
        rw [step, hsame]
        exact hidle
      | false =>
        obtain ⟨payload, hload, hp⟩ := exists_loads hup hpart
        exact (answer_idle hc hidle hload hp hk (hbegin part hpart hk)).2.2
  · -- another kind, or no part at all
    refine ((spares_step hc s h).collected kind ?_).trans hidle
    intro part hsome hk
    exact hpart ⟨part, hsome, hk⟩

/-- Nothing is collected of a kind until a part of it begins. -/
theorem collected_after_idle (hc : x.Consistent)
    (hidle : x.agent.uploads.collected x.filter kind = none) {hs : List Happening}
    (hbegin : x.Unbegun s kind hs) :
    (x.after s hs).agent.uploads.collected (x.after s hs).filter kind = none := by
  induction hs generalizing x with
  | nil => exact hidle
  | cons h hs ih =>
    obtain ⟨hstep, hbegin⟩ := hbegin
    exact ih (spares_step hc s h).consistent (collected_step_idle hc hidle hstep) hbegin

/-- Until a part of a kind begins, no table of it is being collected, and any other part of it is
refused and changes no live table. -/
def Idle (x : Appliance σ) (s : Suite) (kind : TableKind) : Prop :=
  ∀ hs, x.Unbegun s kind hs →
    let y := x.after s hs
    y.agent.uploads.inProgress kind = false ∧
      ∀ e payload part, y.agent.Loads s e.datagram payload → Fragment.parse payload = .ok part →
        TableKind.ofByte? part.kind = some kind → part.isBegin = false →
        (y.answer s e).2.bind List.head? = some MessageType.error.toByte ∧
          (y.answer s e).1.filter.live = y.filter.live

theorem idle_of_inProgress (hc : x.Consistent) (h : x.agent.uploads.inProgress kind = false) :
    x.Idle s kind := by
  have hnone : x.agent.uploads.collected x.filter kind = none := by
    rwa [hc.inProgress_eq, Option.isSome_eq_false_iff, Option.isNone_iff_eq_none] at h
  intro hs hbegin y
  have hcy : y.Consistent := consistent_after hc s hs
  have hidle : y.agent.uploads.collected y.filter kind = none :=
    collected_after_idle hc hnone hbegin
  refine ⟨by rw [hcy.inProgress_eq, hidle]; rfl, ?_⟩
  intro e payload part hload hp hk hpart
  obtain ⟨herror, hlive, -⟩ := answer_idle hcy hidle hload hp hk hpart
  exact ⟨herror, hlive⟩

/-- At once, any part that does not begin is refused. -/
theorem Idle.refuses (h : x.Idle s kind) (hload : x.agent.Loads s e.datagram payload)
    (hp : Fragment.parse payload = .ok part) (hk : TableKind.ofByte? part.kind = some kind)
    (hbegin : part.isBegin = false) :
    (x.answer s e).2.bind List.head? = some MessageType.error.toByte ∧
      (x.answer s e).1.filter.live = x.filter.live :=
  (h [] trivial).2 e payload part hload hp hk hbegin

/-! ### Refusals -/

/-- What a refusal leaves behind: no live table changes, and what is collected of other kinds
stays.  A part that is refused ends the loading of its kind; a payload that is no part changes
nothing. -/
theorem answer_refused (hc : x.Consistent) (hload : x.agent.Loads s e.datagram payload)
    (hkind : payload.head?.bind TableKind.ofByte? = some kind)
    (hrefused : (x.answer s e).2.bind List.head? = some MessageType.error.toByte) :
    let r := x.answer s e
    let y := r.1
    y.filter.live = x.filter.live ∧
      (∀ other, other ≠ kind →
        y.agent.uploads.collected y.filter other = x.agent.uploads.collected x.filter other) ∧
      (∀ part, Fragment.parse payload = .ok part → y.agent.uploads.inProgress kind = false) ∧
      ∀ err, Fragment.parse payload = .error err →
        r = (x, some ((Response.refuse .command).sealFor s x.agent.session e.nonce)) := by
  have hanswer := answer_of_loads hload
  cases hp : Fragment.parse payload with
  | error err =>
    rw [onLoad_of_error hp] at hanswer
    rw [hanswer]
    refine ⟨rfl, fun _ _ => rfl, ?_, fun _ _ => rfl⟩
    intro part h
    cases h
  | ok part =>
    have hk : TableKind.ofByte? part.kind = some kind := by
      rwa [Fragment.head?_of_parse hp, Option.bind_some] at hkind
    obtain ⟨hc', result, htaken, htype⟩ := taken_onLoad hc hp hk
    -- the type of the answer tells that the part was not taken
    rw [hanswer, Option.bind_some, Response.head?_sealFor, Option.some.injEq] at hrefused
    have herror : ∃ e, result = .error e := htype.mp (MessageType.toByte_injective hrefused)
    rw [hanswer]
    refine ⟨htaken.live_eq (.inl herror), fun other hother => htaken.other hother, ?_, ?_⟩
    · intro _ _
      show (x.agent.onLoad x.filter payload).1.uploads.inProgress kind = false
      rw [hc'.inProgress_eq, htaken.eq_none (.inl herror)]
      rfl
    · intro err h
      cases h

/-- A filter had any history, and a request to load reaches its agent, with a payload whose
first byte names a kind of table, and is refused.  No live table changes then, and what is
collected of other kinds does not either.

If the payload is a part, the loading of its kind is over.  If it is none, nothing changes, and
a table that was being collected still is.

Once no table of the kind is being collected, none is until a part of it begins; any other part
of it is refused and changes no live table. -/
theorem load_refused_history (s : Suite) (store : σ) (password : Option Bytes) (capacity : Nat)
    (ds : List (Deed σ)) (e : Exchange) (payload : Bytes) (kind : TableKind) :
    let x := (fresh store password capacity).history s ds
    let r := x.answer s e
    let y := r.1
    x.agent.Loads s e.datagram payload →
      payload.head?.bind TableKind.ofByte? = some kind →
      r.2.bind List.head? = some MessageType.error.toByte →
    y.filter.live = x.filter.live ∧
      (∀ other, other ≠ kind →
        y.agent.uploads.collected y.filter other = x.agent.uploads.collected x.filter other) ∧
      (∀ part, Fragment.parse payload = .ok part → y.agent.uploads.inProgress kind = false) ∧
      (∀ err, Fragment.parse payload = .error err →
        r = (x, some ((Response.refuse .command).sealFor s x.agent.session e.nonce))) ∧
      (y.agent.uploads.inProgress kind = false → y.Idle s kind) := by
  intro x r y hload hkind hrefused
  have hc : x.Consistent :=
    (stocked_history (x := fresh store password capacity) (.new capacity) s ds).consistent
  have hcy : y.Consistent := (spares_step hc s (.datagram e)).consistent
  obtain ⟨hlive, hothers, hpart, hnone⟩ := answer_refused hc hload hkind hrefused
  exact ⟨hlive, hothers, hpart, hnone, idle_of_inProgress hcy⟩

/-- A class is begun, and a part reaches past the end of its table: the part is refused, and so
is the one that ends, which changes no live table. -/
theorem load_refused_history_pastEnd :
    let begins := request .load
      (Fragment.encode ⟨TableKind.classRules.toByte, Fragment.beginFlag, 5, 0, []⟩)
    let x := (fresh ({} : MapStore) none 4096).history .standard [.happens (.datagram begins)]
    let payload := Fragment.encode ⟨TableKind.classRules.toByte, 0, 5, 512, [1]⟩
    let r := x.answer .standard (request .load payload)
    let ends := Fragment.encode ⟨TableKind.classRules.toByte, Fragment.endFlag, 5, 0, []⟩
    let last := r.1.answer .standard (request .load ends)
    x.agent.uploads.inProgress .classRules = true ∧
      r.2.bind List.head? = some MessageType.error.toByte ∧
      r.1.agent.uploads.inProgress .classRules = false ∧
      last.2.bind List.head? = some MessageType.error.toByte ∧
      last.1.filter.live = x.filter.live := by
  intro begins x payload r ends last
  have hload : x.agent.Loads .standard (request .load payload).datagram payload :=
    ⟨by decide +kernel, _, _, rfl, rfl, by decide +kernel⟩
  have hrefused : r.2.bind List.head? = some MessageType.error.toByte := by decide +kernel
  have hall := load_refused_history .standard ({} : MapStore) none 4096
    [.happens (.datagram begins)] (request .load payload) payload .classRules
  have hx : (fresh ({} : MapStore) none 4096).history .standard [.happens (.datagram begins)] =
      x := rfl
  have hr : x.answer .standard (request .load payload) = r := rfl
  simp only [hx, hr] at hall
  obtain ⟨hlive, -, hover, -, hidle⟩ := hall hload (by decide) hrefused
  have hover := hover ⟨TableKind.classRules.toByte, 0, 5, 512, [1]⟩ (by decide)
  have hends : r.1.agent.Loads .standard (request .load ends).datagram ends :=
    ⟨by decide +kernel, _, _, rfl, rfl, by decide +kernel⟩
  have hpart : Fragment.parse ends =
      .ok ⟨TableKind.classRules.toByte, Fragment.endFlag, 5, 0, []⟩ := by decide
  obtain ⟨herror, hsame⟩ := (hidle hover).refuses hends hpart (by decide) (by decide)
  have hlast : r.1.answer .standard (request .load ends) = last := rfl
  rw [hlast, hlive] at hsame
  exact ⟨by decide +kernel, hrefused, hover, herror, hsame⟩

/-- A class is begun, and a request to load is cut short after its first byte: it is refused,
but the class is still being loaded, and the part that ends makes zeros live, by which the
class denies all ports. -/
theorem load_torn_stays_open :
    let begins := request .load
      (Fragment.encode ⟨TableKind.classRules.toByte, Fragment.beginFlag, 5, 0, []⟩)
    let x := (fresh ({} : MapStore) none 4096).history .standard [.happens (.datagram begins)]
    let torn : Bytes := [TableKind.classRules.toByte]
    let r := x.answer .standard (request .load torn)
    let ends := Fragment.encode ⟨TableKind.classRules.toByte, Fragment.endFlag, 5, 0, []⟩
    let last := r.1.answer .standard (request .load ends)
    x.agent.Loads .standard (request .load torn).datagram torn ∧
      r.2.bind List.head? = some MessageType.error.toByte ∧
      r.1.agent.uploads.inProgress .classRules = true ∧
      last.2.bind List.head? = some MessageType.loadAck.toByte ∧
      (x.filter.policy.rules 5).inbound.admits 80 = true ∧
      (last.1.filter.policy.rules 5).inbound.admits 80 = false := by
  intro begins x torn r ends last
  exact ⟨⟨by decide +kernel, _, _, rfl, rfl, by decide +kernel⟩, by decide +kernel,
    by decide +kernel, by decide +kernel, by decide +kernel, by decide +kernel⟩

end Appliance

end FilterBridge
