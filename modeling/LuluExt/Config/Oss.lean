/-
The watcher of a configuration object in object storage: polling by ETag.

Each poll asks for the ETag and loads the object when the ETag is not the one recorded. The new ETag is recorded before
the object is loaded, so when the load fails the version is taken for known and is not loaded again. The object may also
change between the two requests: then another version is sent under the recorded ETag. Before anything is recorded the
ETag is the empty string, which is also what a missing ETag is read as.

The object, the watcher's requests and its channel are interleaved step by step. Beside the state the model records what
the last successful load returned, and whether the last poll was undisturbed (no request failed, and the object has not
changed since its first request).
-/
import LuluExt.Lib.Run

namespace LuluExt.Oss

open Run

abbrev Bytes := List UInt8

/-- the versions of an object; `HeadObject` may return no ETag, which is read as the empty string -/
structure Objects (V : Type) where
  content : V → Bytes
  etag : V → Option String
  distinct : Function.Injective fun v => (etag v).getD ""

def Objects.tag {V : Type} (objs : Objects V) (v : V) : String := (objs.etag v).getD ""

theorem Objects.tag_inj {V : Type} (objs : Objects V) {u v : V} (h : objs.tag u = objs.tag v) : u = v := objs.distinct h

inductive Pc where
  | start
  | waiting
  | load
  | send (data : Bytes)
  | ended
deriving DecidableEq, Repr

structure State (V : Type) where
  object : Option V
  pc : Pc
  lastETag : String
  /-- the values sent, the last one first -/
  sent : List Bytes
  lastLoaded : Option Bytes
  undisturbed : Bool

inductive Op (V : Type) where
  | put (v : Option V)
  /-- the initial head, or that of a poll; it is answered or fails -/
  | head (ok : Bool)
  | load (ok : Bool)
  | deliver
  | cancel

variable {V : Type}

def watchValue (object : Option V) : State V := ⟨object, .start, "", [], none, false⟩

def State.failed (s : State V) : State V := { s with pc := .waiting, undisturbed := false }

/-- the answer to a request: none when it fails or there is no object -/
def State.answer (s : State V) (ok : Bool) : Option V := if ok = true then s.object else none

def step [DecidableEq V] (objs : Objects V) (s : State V) : Op V → State V
  | .put v => { s with object := v, undisturbed := s.undisturbed && decide (v = s.object) }
  | .head ok =>
    match s.pc, s.answer ok with
    | .start, none => s.failed
    | .start, some v => { s with lastETag := objs.tag v, pc := .load, undisturbed := true }
    | .waiting, none => s.failed
    | .waiting, some v =>
      if objs.tag v = s.lastETag then { s with undisturbed := true }
      else { s with lastETag := objs.tag v, pc := .load, undisturbed := true }
    | _, _ => s
  | .load ok =>
    match s.pc, s.answer ok with
    | .load, none => s.failed
    | .load, some v => { s with pc := .send (objs.content v), lastLoaded := some (objs.content v) }
    | _, _ => s
  | .deliver =>
    match s.pc with
    | .send data => { s with sent := data :: s.sent, pc := .waiting }
    | _ => s
  | .cancel =>
    match s.pc with
    | .waiting => { s with pc := .ended }
    | .send _ => { s with pc := .ended }
    | _ => s

/-- after an undisturbed poll the last value sent is the content of the object -/
def Converged (objs : Objects V) (s : State V) : Prop :=
  s.pc = .waiting → s.undisturbed = true → ∀ v, s.object = some v → s.sent.head? = some (objs.content v)

/-- a poll that finds the recorded ETag: the last load that succeeded returned the content of the object -/
def Current (objs : Objects V) (s : State V) : Op V → Prop
  | .head ok => s.pc = .waiting → ∀ v, s.answer ok = some v → objs.tag v = s.lastETag →
      s.lastLoaded = some (objs.content v)
  | _ => True

/-- no load fails or finds another version than the head before it; the initial head does not fail, or no version has an
empty ETag -/
def Smooth (objs : Objects V) (s : State V) : Op V → Prop
  | .head ok => s.pc = .start → s.answer ok ≠ none ∨ ∀ v, objs.tag v ≠ ""
  | .load ok => s.pc = .load → ∃ v, s.answer ok = some v ∧ objs.tag v = s.lastETag
  | _ => True

/-! ## One step -/

theorem answer_eq_some {s : State V} {ok : Bool} {v : V} (h : s.answer ok = some v) : s.object = some v := by
  cases ok with
  | false => cases h
  | true => exact h

inductive Turn (objs : Objects V) (s : State V) : Op V → State V → Prop where
  | headFailed {ok : Bool} (hpc : s.pc = .start ∨ s.pc = .waiting) (hans : s.answer ok = none) :
      Turn objs s (.head ok) s.failed
  | recorded {ok : Bool} {v : V} (hpc : s.pc = .start ∨ s.pc = .waiting) (hans : s.answer ok = some v) :
      Turn objs s (.head ok) { s with lastETag := objs.tag v, pc := .load, undisturbed := true }
  | unchanged {ok : Bool} {v : V} (hpc : s.pc = .waiting) (hans : s.answer ok = some v)
      (htag : objs.tag v = s.lastETag) : Turn objs s (.head ok) { s with pc := .waiting, undisturbed := true }
  | loadFailed {ok : Bool} (hpc : s.pc = .load) (hans : s.answer ok = none) : Turn objs s (.load ok) s.failed
  | loaded {ok : Bool} {v : V} (hpc : s.pc = .load) (hans : s.answer ok = some v) :
      Turn objs s (.load ok) { s with pc := .send (objs.content v), lastLoaded := some (objs.content v) }
  | delivered {data : Bytes} (hpc : s.pc = .send data) :
      Turn objs s .deliver { s with sent := data :: s.sent, pc := .waiting }
  | cancelled (hstart : s.pc ≠ .start) (hload : s.pc ≠ .load) : Turn objs s .cancel { s with pc := .ended }
  | put (v : Option V) {undisturbed : Bool} (hund : undisturbed = true → s.undisturbed = true ∧ v = s.object) :
      Turn objs s (.put v) { s with object := v, undisturbed }
  | idle {op : Op V} : Turn objs s op s

variable {objs : Objects V} {s : State V}

theorem turn_step [DecidableEq V] (op : Op V) : Turn objs s op (step objs s op) := by
  cases op with
  | put v => exact .put v (by simp)
  | head ok =>
    cases hpc : s.pc <;> cases hans : s.answer ok <;> simp only [step, hpc, hans]
    case start.none => exact .headFailed (.inl hpc) hans
    case start.some v => exact .recorded (.inl hpc) hans
    case waiting.none => exact .headFailed (.inr hpc) hans
    case waiting.some v =>
      split_ifs with htag
      · exact .unchanged hpc hans htag
      · exact .recorded (.inr hpc) hans
    all_goals exact .idle
  | load ok =>
    cases hpc : s.pc <;> cases hans : s.answer ok <;> simp only [step, hpc, hans]
    case load.none => exact .loadFailed hpc hans
    case load.some v => exact .loaded hpc hans
    all_goals exact .idle
  | deliver =>
    cases hpc : s.pc <;> simp only [step, hpc]
    case send data => exact .delivered hpc
    all_goals exact .idle
  | cancel =>
    cases hpc : s.pc <;> simp only [step, hpc]
    case waiting => exact .cancelled (by simp [hpc]) (by simp [hpc])
    case send data => exact .cancelled (by simp [hpc]) (by simp [hpc])
    all_goals exact .idle

/-- what was loaded has been sent or is about to be; an undisturbed iteration is about to send what is still there -/
structure Inv (objs : Objects V) (s : State V) : Prop where
  sent : s.pc = .start ∨ s.pc = .load ∨ s.pc = .waiting → s.sent.head? = s.lastLoaded
  send : ∀ data, s.pc = .send data → s.lastLoaded = some data
  fresh : ∀ data, s.pc = .send data → s.undisturbed = true → ∀ v, s.object = some v → data = objs.content v
  converged : Converged objs s

theorem inv_watchValue (object : Option V) : Inv objs (watchValue object) := by
  constructor <;> simp [watchValue, Converged]

theorem inv_failed (hsent : s.sent.head? = s.lastLoaded) : Inv objs s.failed := by
  constructor <;> simp [State.failed, Converged, hsent]

theorem Inv.sent_of_head (h : Inv objs s) (hpc : s.pc = .start ∨ s.pc = .waiting) : s.sent.head? = s.lastLoaded :=
  h.sent (hpc.imp_right .inr)

theorem inv_turn {op : Op V} {s' : State V} (hturn : Turn objs s op s') (h : Inv objs s) (hc : Current objs s op) :
    Inv objs s' := by
  cases hturn with
  | headFailed hpc _ => exact inv_failed (h.sent_of_head hpc)
  | recorded hpc _ =>
    have hsent := h.sent_of_head hpc
    constructor <;> simp [Converged, hsent]
  | @unchanged ok v hpc hans htag =>
    -- nothing is loaded: what was loaded last has to be the content
    have hsent := h.sent_of_head (.inr hpc)
    refine ⟨fun _ => hsent, by simp, by simp, fun _ _ u hu => ?_⟩
    obtain rfl : v = u := by simpa [answer_eq_some hans] using hu
    exact hsent.trans (hc hpc v hans htag)
  | loadFailed hpc _ => exact inv_failed (h.sent (.inr (.inl hpc)))
  | @loaded ok v hpc hans =>
    refine ⟨by simp, by simp, fun data hdata _ u hu => ?_, by simp [Converged]⟩
    obtain rfl : v = u := by simpa [answer_eq_some hans] using hu
    simpa using hdata.symm
  | delivered hpc =>
    refine ⟨fun _ => (h.send _ hpc).symm, by simp, by simp, fun _ hund v hv => ?_⟩
    rw [← h.fresh _ hpc hund v hv]
    rfl
  | cancelled _ _ => constructor <;> simp [Converged]
  | put v hund =>
    -- an iteration that stays undisturbed has not seen a change
    refine ⟨h.sent, h.send, fun data hdata hstill u hu => ?_, fun hpc hstill u hu => ?_⟩
    · obtain ⟨hund', rfl⟩ := hund hstill
      exact h.fresh data hdata hund' u hu
    · obtain ⟨hund', rfl⟩ := hund hstill
      exact h.converged hpc hund' u hu
  | idle => exact h

/-! ## Smooth runs -/

/-- what is recorded is what was loaded -/
structure Known (objs : Objects V) (s : State V) : Prop where
  start : s.pc = .start → s.lastETag = ""
  recorded : s.pc ≠ .start → s.pc ≠ .load →
    (s.lastETag = "" ∧ ∀ v, objs.tag v ≠ "") ∨ ∃ v, objs.tag v = s.lastETag ∧ s.lastLoaded = some (objs.content v)

theorem known_turn {op : Op V} {s' : State V} (hturn : Turn objs s op s') (h : Known objs s) (hc : Smooth objs s op) :
    Known objs s' := by
  cases hturn with
  | headFailed hpc hans =>
    refine ⟨by simp [State.failed], fun _ _ => ?_⟩
    rcases hpc with hpc | hpc
    · exact .inl ⟨h.start hpc, (hc hpc).resolve_left (by simp [hans])⟩
    · exact h.recorded (by simp [hpc]) (by simp [hpc])
  | recorded _ _ => constructor <;> simp
  | unchanged hpc _ _ | delivered hpc => exact ⟨by simp, fun _ _ => h.recorded (by simp [hpc]) (by simp [hpc])⟩
  | loadFailed hpc hans =>
    obtain ⟨v, hv, _⟩ := hc hpc
    rw [hans] at hv
    cases hv
  | loaded hpc hans =>
    obtain ⟨v, hv, htag⟩ := hc hpc
    obtain rfl := Option.some.inj (hans.symm.trans hv)
    exact ⟨by simp, fun _ _ => .inr ⟨_, htag, rfl⟩⟩
  | cancelled hstart hload => exact ⟨by simp, fun _ _ => h.recorded hstart hload⟩
  | put v _ => exact ⟨h.start, h.recorded⟩
  | idle => exact h

theorem current_of_known {op : Op V} (h : Known objs s) : Current objs s op := by
  cases op with
  | head ok =>
    intro hpc v _ htag
    rcases h.recorded (by simp [hpc]) (by simp [hpc]) with ⟨hempty, hne⟩ | ⟨u, hu, hloaded⟩
    · exact absurd (htag.trans hempty) (hne v)
    · rw [objs.tag_inj (htag.trans hu.symm), hloaded]
  | _ => trivial

/-! ## Runs -/

variable [DecidableEq V]

theorem not_converged {op : Op V} (h : Inv objs s) (hc : ¬ Current objs s op) : ¬ Converged objs (step objs s op) := by
  cases op with
  | head ok =>
    simp only [Current, not_forall] at hc
    obtain ⟨hpc, v, hans, htag, hloaded⟩ := hc
    intro hconv
    have hobject := answer_eq_some hans
    have hlast := hconv (by simp [step, hpc, hans, htag]) (by simp [step, hpc, hans, htag]) v
      (by simp [step, hpc, hans, htag, hobject])
    simp only [step, hpc, hans, htag] at hlast
    exact hloaded ((h.sent (.inr (.inr hpc))).symm.trans hlast)
  | _ => exact absurd trivial hc

/-- **When no version is lost.** After each undisturbed poll the last value sent is the content of the object, if and
only if each poll that finds the recorded ETag comes after a load, the last one that succeeded, which returned that
content. It is enough that no load fails or finds another version than the head before it, and that the initial head is
answered or no version has an empty ETag. -/
theorem converges_iff (objs : Objects V) (object : Option V) (ops : List (Op V)) :
    (Always (step objs) (Converged objs) (watchValue object) ops ↔
      Along (step objs) (Current objs) (watchValue object) ops) ∧
    (Along (step objs) (Smooth objs) (watchValue object) ops →
      Along (step objs) (Current objs) (watchValue object) ops) := by
  constructor
  · exact always_iff_along_of_inv (I := Inv objs) (fun _ h => h.converged) (fun _ op => inv_turn (turn_step op))
      (fun _ _ => not_converged) (inv_watchValue object) ops
  · intro hsmooth
    have hknown : Known objs (watchValue object) := ⟨fun _ => rfl, fun h => absurd rfl h⟩
    exact along_of_along (I := Known objs) (fun _ op => known_turn (turn_step op)) (fun _ _ h _ => current_of_known h)
      hknown hsmooth

def threeVersions : Objects (Fin 3) where
  content := ![[0], [1], [2]]
  etag := ![some "a", some "b", none]
  distinct := by decide

/-- the state after the operations, for an object that is at the given version to begin with -/
def watched (v : Fin 3) (ops : List (Op (Fin 3))) : State (Fin 3) := run (step threeVersions) (watchValue (some v)) ops

def loaded : List (Op (Fin 3)) := [.head true, .load true, .deliver]

def refused : List (Op (Fin 3)) := [.put (some 1), .head true, .load false, .head true]

/-- the object changes between the head and the load, and back before the next head -/
def replaced : List (Op (Fin 3)) :=
  [.put (some 1), .head true, .put (some 2), .load true, .deliver, .put (some 1), .head true]

/-- **Lost versions.** The initial load fails; the load of the second version fails; the second version is replaced
before it is loaded and then comes back; the initial head fails and the object has no ETag. -/
theorem versions_lost :
    (¬ Converged threeVersions (watched 0 [.head true, .load false, .head true]) ∧
      (watched 0 [.head true, .load false, .head true]).sent = []) ∧
    (¬ Converged threeVersions (watched 0 (loaded ++ refused)) ∧ (watched 0 (loaded ++ refused)).sent = [[0]]) ∧
    (¬ Converged threeVersions (watched 0 (loaded ++ replaced)) ∧ (watched 0 (loaded ++ replaced)).sent = [[2], [0]]) ∧
    (¬ Converged threeVersions (watched 2 [.head false, .head true]) ∧
      (watched 2 [.head false, .head true]).sent = []) := by
  refine ⟨⟨fun h => ?_, by decide⟩, ⟨fun h => ?_, by decide⟩, ⟨fun h => ?_, by decide⟩, ⟨fun h => ?_, by decide⟩⟩
  · exact absurd (h (by decide) (by decide) 0 (by decide)) (by decide)
  · exact absurd (h (by decide) (by decide) 1 (by decide)) (by decide)
  · exact absurd (h (by decide) (by decide) 1 (by decide)) (by decide)
  · exact absurd (h (by decide) (by decide) 2 (by decide)) (by decide)

end LuluExt.Oss
