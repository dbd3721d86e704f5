/-
The fallback reader of several configuration sources, and its merged watcher.

`Load` asks the sources in priority order and returns the first value. The watcher has a goroutine for each source that
can be watched: it receives a notification, loads, and sends what it loaded on the merged channel, which has one slot.
Nothing orders the sends of two goroutines as their loads were ordered, and a load is not one step but a request to each
source in turn.

The sources, the goroutines and the consumer are interleaved step by step. Each change is followed by a notification;
there may be more of them (a source that sends its first value). Beside the state the model records whether a
notification was received at all and whether every load so far went without an error.
-/
import LuluExt.Lib.Run
import LuluExt.Lib.Go

namespace LuluExt.Fallback

open Run

abbrev Bytes := List UInt8

/-- what `Load` of a source returns; no bytes without an error is a source that has no value -/
abbrev Value := Except GoError (Option Bytes)

/-- the loop of `Load` over the sources that are left, with the errors so far -/
def loadFrom (quoted : String) : List Value → List GoError → Except GoError Bytes
  | [], [] => .error ⟨"fallback: no source could resolve key " ++ quoted⟩
  | [], errs => .error ⟨"\n".intercalate (errs.map GoError.text)⟩
  | .ok (some data) :: _, _ => .ok data
  | .ok none :: rest, errs => loadFrom quoted rest errs
  | .error err :: rest, errs => loadFrom quoted rest (errs ++ [err])

/-- `quoted` is the key as `%q` prints it -/
def load (quoted : String) (values : List Value) : Except GoError Bytes := loadFrom quoted values []

inductive Offer where
  /-- it does not implement `ValueWatcher` -/
  | noWatcher
  | fails (err : GoError)
  | nilChannel
  | channel
deriving DecidableEq, Repr

def Offer.err? : Offer → Option GoError
  | .fails err => some err
  | _ => none

variable {n : ℕ}

/-- where the goroutine of a source is; a source without a goroutine is one whose goroutine has ended -/
inductive Pc (n : ℕ) where
  | idle
  /-- in `Load`, with the sources still to ask -/
  | loading (rest : List (Fin n)) (errs : List GoError)
  | send (data : Bytes)
  | ended
deriving DecidableEq

/-- between the receipt of a notification and the send -/
def Pc.Active : Pc n → Prop
  | .loading _ _ => True
  | .send _ => True
  | _ => False

structure State (n : ℕ) where
  values : Fin n → Value
  pending : Fin n → ℕ
  pc : Fin n → Pc n
  /-- the slot of the merged channel -/
  out : Option Bytes
  /-- what the consumer received, the last value first -/
  received : List Bytes
  ctxDone : Bool
  notified : Bool
  clean : Bool

def started (offers : Fin n → Offer) (values : Fin n → Value) : State n where
  values := values
  pending := fun _ => 0
  pc := fun i => if offers i = .channel then .idle else .ended
  out := none
  received := []
  ctxDone := false
  notified := false
  clean := true

def watchValue (offers : Fin n → Offer) (values : Fin n → Value) : Except GoError (State n) :=
  let watchers := (List.ofFn offers).filter (· ≠ .noWatcher)
  if watchers = [] then .error ⟨"fallback: none of the sub-sources implement ValueWatcher"⟩
  else
    match watchers.findSome? Offer.err? with
    | some err => .error ⟨"fallback: sub-source WatchValue failed: " ++ err.text⟩
    | none =>
      if .channel ∉ watchers then .error ⟨"fallback: all sub-source WatchValue returned nil channels"⟩
      else .ok (started offers values)

inductive Op (n : ℕ) where
  /-- a source changes; its notification is outstanding until the goroutine receives it -/
  | change (i : Fin n) (v : Value)
  | notify (i : Fin n)
  /-- a goroutine receives a notification and calls `Load` -/
  | receive (i : Fin n)
  /-- `Load` asks the next source, which may fail to answer, or returns its error -/
  | read (i : Fin n) (fault : Option GoError)
  | send (i : Fin n)
  | consume
  /-- a goroutine finds the channel of its source closed -/
  | closed (i : Fin n)
  | cancel
  | quit (i : Fin n)

def State.setPc (s : State n) (i : Fin n) (pc : Pc n) : State n := { s with pc := Function.update s.pc i pc }

def State.answer (s : State n) (j : Fin n) : Option GoError → Value
  | some err => .error err
  | none => s.values j

def step (s : State n) : Op n → State n
  | .change i v =>
    { s with values := Function.update s.values i v, pending := Function.update s.pending i (s.pending i + 1) }
  | .notify i =>
    if s.pc i = .ended then s else { s with pending := Function.update s.pending i (s.pending i + 1) }
  | .receive i =>
    if s.pc i = .idle ∧ 0 < s.pending i then
      { s with
        pc := Function.update s.pc i (.loading (List.finRange n) [])
        pending := Function.update s.pending i (s.pending i - 1)
        notified := true }
    else s
  | .read i fault =>
    match s.pc i with
    | .loading [] _ => { s with pc := Function.update s.pc i .idle, clean := false }
    | .loading (j :: rest) errs =>
      match s.answer j fault with
      | .ok (some data) => s.setPc i (.send data)
      | .ok none => s.setPc i (.loading rest errs)
      | .error err =>
        { s with pc := Function.update s.pc i (.loading rest (errs ++ [err])), clean := s.clean && fault.isNone }
    | _ => s
  | .send i =>
    match s.pc i, s.out with
    | .send data, none => { s with pc := Function.update s.pc i .idle, out := some data }
    | _, _ => s
  | .consume =>
    match s.out with
    | some data => { s with out := none, received := data :: s.received }
    | none => s
  | .closed i => if s.pc i = .idle ∧ s.pending i = 0 then s.setPc i .ended else s
  | .cancel => { s with ctxDone := true }
  | .quit i =>
    if s.ctxDone = true then
      match s.pc i with
      | .idle => s.setPc i .ended
      | .send _ => s.setPc i .ended
      | _ => s
    else s

def State.effective (s : State n) : Option Bytes := (load "" (List.ofFn s.values)).toOption

/-- the last value on the merged channel, received or still in its slot -/
def State.last (s : State n) : Option Bytes := s.out <|> s.received.head?

/-- every notification was processed, and no load had an error; `except` is a goroutine not to look at -/
structure Settled (s : State n) (except : Option (Fin n)) : Prop where
  pending : ∀ j, s.pending j = 0
  rest : ∀ j, some j ≠ except → ¬ (s.pc j).Active
  running : s.ctxDone = false
  clean : s.clean = true

def Converged (s : State n) : Prop := Settled s none → s.notified = true → s.last = s.effective

/-- a send that leaves nothing to do sends the effective value -/
def Fresh (s : State n) : Op n → Prop
  | .send i => ∀ data, s.pc i = .send data → s.out = none → Settled s (some i) → s.effective = some data
  | _ => True

/-- no goroutine starts to load while another one loads or sends -/
def Serial (s : State n) : Op n → Prop
  | .receive i => s.pc i = .idle → 0 < s.pending i → ∀ j, j ≠ i → ¬ (s.pc j).Active
  | _ => True

/-! ## Loading -/

theorem toOption_loadFrom (quoted quoted' : String) (values : List Value) (errs errs' : List GoError) :
    (loadFrom quoted values errs).toOption = (loadFrom quoted' values errs').toOption := by
  induction values generalizing errs errs' with
  | nil => cases errs <;> cases errs' <;> rfl
  | cons v values ih =>
    rcases v with err | _ | data
    · exact ih _ _
    · exact ih _ _
    · rfl

theorem watchValue_eq_ok {offers : Fin n → Offer} {values : Fin n → Value} {s : State n}
    (h : watchValue offers values = .ok s) : s = started offers values := by
  simp only [watchValue] at h
  split_ifs at h
  · split at h <;> cases h
    rfl
  · split at h <;> cases h

/-! ## One step -/

inductive Turn (s : State n) : Op n → State n → Prop where
  | changed (i : Fin n) (v : Value) :
      Turn s (.change i v)
        { s with values := Function.update s.values i v, pending := Function.update s.pending i (s.pending i + 1) }
  | notified (i : Fin n) : Turn s (.notify i) { s with pending := Function.update s.pending i (s.pending i + 1) }
  | received {i : Fin n} (hpc : s.pc i = .idle) (hpending : 0 < s.pending i) (pending : Fin n → ℕ) :
      Turn s (.receive i)
        { s with pc := Function.update s.pc i (.loading (List.finRange n) []), pending, notified := true }
  | failed {i : Fin n} {fault : Option GoError} (hactive : (s.pc i).Active) (pc : Pc n) :
      Turn s (.read i fault) { s with pc := Function.update s.pc i pc, clean := false }
  | skipped {i j : Fin n} {rest : List (Fin n)} {errs errs' : List GoError} (hpc : s.pc i = .loading (j :: rest) errs)
      (hvalue : ∀ data, s.values j ≠ .ok (some data)) : Turn s (.read i none) (s.setPc i (.loading rest errs'))
  | loaded {i j : Fin n} {rest : List (Fin n)} {errs : List GoError} {data : Bytes}
      (hpc : s.pc i = .loading (j :: rest) errs) (hvalue : s.values j = .ok (some data)) :
      Turn s (.read i none) (s.setPc i (.send data))
  | sent {i : Fin n} {data : Bytes} (hpc : s.pc i = .send data) (hout : s.out = none) :
      Turn s (.send i) { s with pc := Function.update s.pc i .idle, out := some data }
  | consumed {data : Bytes} (hout : s.out = some data) :
      Turn s .consume { s with out := none, received := data :: s.received }
  | closed {i : Fin n} (hpc : s.pc i = .idle) : Turn s (.closed i) (s.setPc i .ended)
  | cancelled : Turn s .cancel { s with ctxDone := true }
  | quit {i : Fin n} (hdone : s.ctxDone = true) : Turn s (.quit i) (s.setPc i .ended)
  | blocked {op : Op n} : Turn s op s

variable {s : State n}

theorem turn_read (i : Fin n) (fault : Option GoError) : Turn s (.read i fault) (step s (.read i fault)) := by
  simp only [step]
  cases hpc : s.pc i with
  | loading rest errs =>
    cases rest with
    | nil => exact .failed (by rw [hpc]; trivial) _
    | cons j rest =>
      cases fault with
      | some err =>
        simp only [State.answer, Option.isNone_some, Bool.and_false]
        exact .failed (by rw [hpc]; trivial) _
      | none =>
        rcases hvalue : s.values j with err | _ | data
        · simp only [State.answer, hvalue, Option.isNone_none, Bool.and_true]
          exact .skipped hpc (by simp [hvalue])
        · simp only [State.answer, hvalue]
          exact .skipped hpc (by simp [hvalue])
        · simp only [State.answer, hvalue]
          exact .loaded hpc hvalue
  | _ => exact .blocked

theorem turn_step (op : Op n) : Turn s op (step s op) := by
  cases op with
  | change i v => exact .changed i v
  | notify i =>
    simp only [step]
    split_ifs
    · exact .blocked
    · exact .notified i
  | receive i =>
    simp only [step]
    split_ifs with h
    · exact .received h.1 h.2 _
    · exact .blocked
  | read i fault => exact turn_read i fault
  | send i =>
    cases hpc : s.pc i <;> cases hout : s.out <;> simp only [step, hpc, hout]
    case send.none data => exact .sent hpc hout
    all_goals exact .blocked
  | consume =>
    cases hout : s.out <;> simp only [step, hout]
    · exact .blocked
    · exact .consumed hout
  | closed i =>
    simp only [step]
    split_ifs with h
    · exact .closed h.1
    · exact .blocked
  | cancel => exact .cancelled
  | quit i =>
    simp only [step]
    split_ifs with hdone
    · cases s.pc i with
      | idle | send data => exact .quit hdone
      | _ => exact .blocked
    · exact .blocked

/-- a goroutine that loads or sends has received a notification -/
def Started (s : State n) : Prop := ∀ i, (s.pc i).Active → s.notified = true

variable {s' : State n} {i : Fin n} {pc : Pc n}

theorem started_move (h : Started s) (hnot : s'.notified = s.notified)
    (hpc : s'.pc = Function.update s.pc i pc) (hactive : pc.Active → (s.pc i).Active) : Started s' := by
  intro j hj
  rw [hnot]
  rw [hpc] at hj
  by_cases hji : j = i
  · subst hji
    exact h j (hactive (by simpa using hj))
  · exact h j (by simpa [hji] using hj)

variable {op : Op n}

theorem started_turn (hturn : Turn s op s') (h : Started s) : Started s' := by
  cases hturn with
  | received _ _ _ => exact fun _ _ => rfl
  | failed hactive pc => exact started_move h rfl rfl fun _ => hactive
  | skipped hpc _ | loaded hpc _ => exact started_move h rfl rfl fun _ => by rw [hpc]; trivial
  | sent _ _ | closed _ | quit _ => exact started_move h rfl rfl False.elim
  | _ => exact h

theorem not_settled_active (hpc : s.pc i = pc) (hactive : pc.Active) : ¬ Settled s none := by
  intro hset
  exact hset.rest i (by simp) (by rwa [hpc])

theorem not_settled_pending {k : ℕ} (hpending : s.pending i = k + 1) {except : Option (Fin n)} :
    ¬ Settled s except := by
  intro hset
  rw [hset.pending i] at hpending
  cases hpending

theorem converged_turn (hturn : Turn s op s') (h : Converged s) (hfresh : Fresh s op) : Converged s' := by
  cases hturn with
  | changed i v | notified i => exact fun hset => absurd hset (not_settled_pending (Function.update_self i _ _))
  | failed _ pc => exact fun hset => absurd hset.clean (by simp)
  | @received i | @skipped i | @loaded i =>
    exact fun hset => absurd hset (not_settled_active (Function.update_self i _ _) trivial)
  | @sent i data hpc hout =>
    intro hset _
    -- what is outstanding apart from the goroutine that sends is what was outstanding before
    have hbefore : Settled s (some i) := by
      refine { hset with rest := fun j hj => ?_ }
      have hne : j ≠ i := fun heq => hj (by rw [heq])
      simpa [hne] using hset.rest j
    exact (hfresh data hpc hout hbefore).symm
  | consumed hout =>
    intro hset hnot
    have hlast := h { hset with } hnot
    rw [State.last, hout] at hlast
    exact hlast
  | @closed i hpc =>
    intro hset hnot
    refine h { hset with rest := fun j hj => ?_ } hnot
    by_cases hne : j = i
    · subst hne
      simp [hpc, Pc.Active]
    · simpa [State.setPc, hne] using hset.rest j
  | cancelled => exact fun hset => absurd hset.running (by simp)
  | quit hdone => exact fun hset => absurd hset.running (by simp [State.setPc, hdone])
  | blocked => exact h

theorem not_converged (hstarted : Started s) (hfresh : ¬ Fresh s op) : ¬ Converged (step s op) := by
  cases op with
  | send i =>
    simp only [Fresh, not_forall] at hfresh
    obtain ⟨data, hpc, hout, hset, hne⟩ := hfresh
    intro hconv
    simp only [step, hpc, hout] at hconv
    have hafter : Settled { s with pc := Function.update s.pc i .idle, out := some data } none := by
      refine { hset with rest := fun j _ => ?_ }
      by_cases hj : j = i
      · subst hj
        simp [Pc.Active]
      · simpa [hj] using hset.rest j (by simpa using hj)
    have hnot : s.notified := hstarted i (by rw [hpc]; trivial)
    exact hne (hconv hafter hnot).symm
  | _ => exact absurd trivial hfresh

/-! ## Serial runs -/

/-- what a goroutine is about to send, if nothing changes and no request fails -/
def Pc.result (values : Fin n → Value) : Pc n → Option (Option Bytes)
  | .loading rest _ => some (loadFrom "" (rest.map values) []).toOption
  | .send data => some (some data)
  | _ => none

/-- one goroutine at most loads or sends; while no change is outstanding, it has seen the last one -/
structure Ordered (s : State n) : Prop where
  single : ∀ i j, (s.pc i).Active → (s.pc j).Active → i = j
  current : s.clean = true → (∀ j, s.pending j = 0) → ∀ i r, (s.pc i).result s.values = some r → s.effective = r

theorem active_of_result {values : Fin n → Value} {r : Option Bytes} (h : pc.result values = some r) : pc.Active := by
  cases pc with
  | idle | ended => cases h
  | loading rest errs | send data => trivial

theorem Ordered.move (h : Ordered s) (hvalues : s'.values = s.values)
    (hpending : s'.pending = s.pending) (hclean : s'.clean → s.clean)
    (hpc : s'.pc = Function.update s.pc i pc) (hactive : pc.Active → (s.pc i).Active)
    (hresult : s'.clean → ∀ r, pc.result s.values = some r → (s.pc i).result s.values = some r) : Ordered s' := by
  have hat : ∀ j, j = i ∧ s'.pc j = pc ∨ s'.pc j = s.pc j := by
    intro j
    by_cases hji : j = i
    · exact .inl ⟨hji, by simp [hpc, hji]⟩
    · exact .inr (by simp [hpc, hji])
  have hbefore : ∀ j, (s'.pc j).Active → (s.pc j).Active := by
    intro j hj
    rcases hat j with ⟨rfl, hnew⟩ | hold
    · exact hactive (hnew ▸ hj)
    · exact hold ▸ hj
  refine ⟨fun j k hj hk => h.single j k (hbefore j hj) (hbefore k hk), fun hclean' hpend j r hj => ?_⟩
  rw [hvalues] at hj
  rw [State.effective, hvalues]
  refine h.current (hclean hclean') (hpending ▸ hpend) j r ?_
  rcases hat j with ⟨rfl, hnew⟩ | hold
  · exact hresult hclean' r (hnew ▸ hj)
  · exact hold ▸ hj

theorem loadFrom_skip {v : Value} (hv : ∀ data, v ≠ .ok (some data)) (rest : List Value) :
    (loadFrom "" (v :: rest) []).toOption = (loadFrom "" rest []).toOption := by
  rcases v with err | _ | data
  · exact toOption_loadFrom "" "" rest [err] []
  · rfl
  · exact absurd rfl (hv data)

theorem ordered_addPending (h : Ordered s) (hpc : s'.pc = s.pc)
    (hpending : s'.pending i = s.pending i + 1) : Ordered s' := by
  have hne : ¬ ∀ j, s'.pending j = 0 := fun hall => by simp [hall i] at hpending
  exact ⟨by rw [hpc]; exact h.single, fun _ hall => absurd hall hne⟩

theorem ordered_turn (hturn : Turn s op s') (h : Ordered s) (hserial : Serial s op) : Ordered s' := by
  cases hturn with
  | changed i v | notified i => exact ordered_addPending (i := i) h rfl (Function.update_self i _ _)
  | @received i hpc hpending pending =>
    -- it is the only goroutine that loads, and it loads everything from now on
    have honly : ∀ j, (Function.update s.pc i (.loading (List.finRange n) []) j).Active → j = i := by
      intro j hactive
      by_contra hji
      rw [Function.update_of_ne hji] at hactive
      exact hserial hpc hpending j hji hactive
    refine ⟨fun j k hj hk => (honly j hj).trans (honly k hk).symm, fun _ _ j r hj => ?_⟩
    obtain rfl := honly j (active_of_result hj)
    simpa [Pc.result, State.effective, load, List.ofFn_eq_map] using hj
  | failed hactive pc => exact h.move rfl rfl (fun h => by cases h) rfl (fun _ => hactive) fun h => by cases h
  | @skipped i j rest errs errs' hpc hvalue =>
    refine h.move rfl rfl id rfl (fun _ => by rw [hpc]; trivial) fun _ r hr => ?_
    rwa [hpc, Pc.result, List.map_cons, loadFrom_skip hvalue]
  | @loaded i j rest errs data hpc hvalue =>
    refine h.move rfl rfl id rfl (fun _ => by rw [hpc]; trivial) fun _ r hr => ?_
    rwa [hpc, Pc.result, List.map_cons, hvalue]
  | sent hpc hout | closed hpc | quit hdone => exact h.move rfl rfl id rfl False.elim nofun
  | consumed _ | cancelled => exact { h with }
  | blocked => exact h

theorem fresh_of_ordered (h : Ordered s) : Fresh s op := by
  cases op with
  | send i => exact fun data hpc _ hset => h.current hset.clean hset.pending i _ (by rw [hpc]; rfl)
  | _ => trivial

theorem ended_move {j : Fin n} (h : s.pc j = .ended)
    (hpc : s'.pc = Function.update s.pc i pc) (hi : s.pc i ≠ .ended ∨ pc = .ended) : s'.pc j = .ended := by
  rw [hpc]
  by_cases hji : j = i
  · subst hji
    rw [Function.update_self]
    exact hi.resolve_left (not_not.2 h)
  · rw [Function.update_of_ne hji, h]

theorem ended_turn (hturn : Turn s op s') {j : Fin n} (h : s.pc j = .ended) : s'.pc j = .ended := by
  cases hturn with
  | failed hactive pc => exact ended_move h rfl (.inl fun hended => by simp [hended, Pc.Active] at hactive)
  | received hpc _ _ | skipped hpc _ | loaded hpc _ | sent hpc _ | closed hpc =>
    exact ended_move h rfl (.inl (by simp [hpc]))
  | quit _ => exact ended_move h rfl (.inr rfl)
  | _ => exact h

def Alone (s : State n) : Prop := ∀ i j, s.pc i ≠ .ended → s.pc j ≠ .ended → i = j

theorem alone_turn (hturn : Turn s op s') (h : Alone s) : Alone s' :=
  fun i j hi hj => h i j (mt (ended_turn hturn) hi) (mt (ended_turn hturn) hj)

theorem serial_of_alone (h : Alone s) : Serial s op := by
  cases op with
  | receive i =>
    intro hpc _ j hji hactive
    refine hji (h j i (fun hended => ?_) (by simp [hpc]))
    simp [hended, Pc.Active] at hactive
  | _ => trivial

/-! ## Runs -/

/-- **When the merged watcher converges.** Whenever every notification has been processed without an error of a load,
the last value on the merged channel is the effective one, if and only if each send that leaves nothing to do sends the
effective value. It is enough that no goroutine starts to load while another one loads or sends. -/
theorem merged_current_iff (offers : Fin n → Offer) (values : Fin n → Value) (s : State n)
    (hwatch : watchValue offers values = .ok s) (ops : List (Op n)) :
    (Always step Converged s ops ↔ Along step Fresh s ops) ∧
    (Along step Serial s ops → Along step Fresh s ops) ∧
    ((∀ i j, offers i = .channel → offers j = .channel → i = j) → Along step Serial s ops) := by
  obtain rfl := watchValue_eq_ok hwatch
  have hrest : ∀ i, ¬ ((started offers values).pc i).Active := by
    intro i
    simp only [started]
    split_ifs <;> exact id
  refine ⟨?_, fun hserial => ?_, fun hone => ?_⟩
  · refine always_iff_along_of_inv (I := fun s => Started s ∧ Converged s) (fun _ h => h.2) ?_ ?_ ⟨?_, ?_⟩ ops
    · intro s op h hfresh
      exact ⟨started_turn (turn_step op) h.1, converged_turn (turn_step op) h.2 hfresh⟩
    · intro s op h
      exact not_converged h.1
    · exact fun i hi => absurd hi (hrest i)
    · exact fun _ hnot => by cases hnot
  · have hordered : Ordered (started offers values) := by
      exact ⟨fun i _ hi _ => absurd hi (hrest i), fun _ _ i _ hi => absurd (active_of_result hi) (hrest i)⟩
    exact along_of_along (I := Ordered) (fun _ op => ordered_turn (turn_step op)) (fun _ _ h _ => fresh_of_ordered h)
      hordered hserial
  · have halone : Alone (started offers values) := by
      intro i j hi hj
      simp only [started, ne_eq, ite_eq_right_iff, reduceCtorEq, imp_false, not_not] at hi hj
      exact hone i j hi hj
    exact along_of_along (I := Alone) (fun _ op h _ => alone_turn (turn_step op) h) (fun _ _ h _ => serial_of_alone h)
      halone (along_true ops)

/-- two sources that are watched; the first, which has priority, has no value -/
def twoSources : State 2 := started (fun _ => .channel) ![.ok none, .ok (some [1])]

def oneChange : List (Op 2) := [.change 1 (.ok (some [2])), .receive 1, .read 1 none, .read 1 none, .send 1]

theorem merged_current_oneChange : Always step Converged twoSources oneChange := by
  obtain ⟨hiff, hfresh, -⟩ :=
    merged_current_iff (fun _ => .channel) ![.ok none, .ok (some [1])] twoSources rfl oneChange
  refine hiff.2 (hfresh ⟨trivial, fun _ _ j hj => ?_, trivial, trivial, trivial, trivial⟩)
  have hother : ∀ j : Fin 2, j ≠ 1 → j = 0 := by decide
  rw [hother j hj]
  exact id

/-- the second source changes and its goroutine loads; the first one changes, and its goroutine loads and sends first -/
def overtaken : List (Op 2) :=
  [.change 1 (.ok (some [2])), .receive 1, .read 1 none, .read 1 none, .change 0 (.ok (some [3])), .receive 0,
    .read 0 none, .send 0, .consume, .send 1, .consume]

/-- **A stale send.** Of two sources, each watched, the last value received is the one that the second goroutine loaded
before the first source had a value. -/
theorem stale_send :
    watchValue (fun _ => .channel) ![.ok none, .ok (some [1])] = .ok twoSources ∧
    Settled (run step twoSources overtaken) none ∧ ¬ Converged (run step twoSources overtaken) ∧
    (run step twoSources overtaken).received = [[2], [3]] ∧
    (run step twoSources overtaken).effective = some [3] := by
  have hset : Settled (run step twoSources overtaken) none := by
    refine ⟨by decide, fun j _ => ?_, rfl, rfl⟩
    have hidle : ∀ j, (run step twoSources overtaken).pc j = .idle := by decide
    rw [hidle j]
    exact id
  refine ⟨rfl, hset, fun hconv => ?_, rfl, rfl⟩
  exact absurd (hconv hset rfl) (by decide)

end LuluExt.Fallback
