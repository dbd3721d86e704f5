/-
The watcher of a Nacos configuration: the callback `OnChange` and the goroutine that closes the channel.

The client calls `OnChange` on goroutines of its own, any number at once. A callback for the watched document is a
select of a send on `out`, which has room for one value, and of `ctx.Done()`. When the context is cancelled, a goroutine
calls `CancelListenConfig` and closes `out`; it does not wait for callbacks.

A select looks at its cases in an order that is not determined, takes the first one that can proceed, and parks if there
is none. A send on a closed channel can proceed, by a panic. The cancellation wakes every select that is parked, through
the case of `ctx.Done()`, before the channel can be closed.
-/
import LuluExt.Lib.Run

namespace LuluExt.NacosConfig

open Run

/-! ## Model -/

structure Options where
  group : String
  dataID : String

def resolveDataID (opts : Options) (key : String) : String := if key ≠ "" then key else opts.dataID

inductive Callback where
  /-- before the select -/
  | select (data : String)
  /-- parked in the select -/
  | parked (data : String)
  | returned
deriving DecidableEq, Repr

inductive Closer where
  /-- at `<-ctx.Done()` -/
  | waiting
  /-- in `CancelListenConfig`, whose error does not matter -/
  | cancelling
  /-- before `close(out)` -/
  | closing
  | ended
deriving DecidableEq, Repr

structure State where
  cancelled : Bool
  /-- none before `ListenConfig` has returned, and if it has returned an error -/
  closer : Option Closer
  buffer : Option String
  closed : Bool
  callbacks : ℕ → Option Callback
  /-- the callbacks that are parked, the first one first -/
  senders : List ℕ
  /-- what the consumer has received, the last one first -/
  received : List String
  panicked : Bool

def initial : State where
  cancelled := false
  closer := none
  buffer := none
  closed := false
  callbacks _ := none
  senders := []
  received := []
  panicked := false

inductive Op where
  | listen (ok : Bool)
  | onChange (i : ℕ) (group dataID data : String)
  /-- the select of a callback, and whether it looks at the send first -/
  | select (i : ℕ) (sendFirst : Bool)
  | cancel
  /-- the next statement of the goroutine that closes the channel -/
  | close
  | receive
deriving DecidableEq, Repr

def State.set (s : State) (i : ℕ) (c : Callback) : State :=
  { s with callbacks := Function.update s.callbacks i (some c) }

/-- a callback for another document returns -/
def onChange (opts : Options) (key : String) (s : State) (i : ℕ) (group dataID data : String) : State :=
  if dataID = resolveDataID opts key ∧ group = opts.group then s.set i (.select data) else s.set i .returned

def State.send (s : State) (i : ℕ) (data : String) : State :=
  if s.closed = true then { s with panicked := true } else { s with buffer := some data }.set i .returned

def select (s : State) (i : ℕ) (data : String) (sendFirst : Bool) : State :=
  if s.closed = true ∨ s.buffer = none then
    if sendFirst = true ∨ s.cancelled = false then s.send i data else s.set i .returned
  else if s.cancelled = true then s.set i .returned
  else { s with senders := s.senders ++ [i] }.set i (.parked data)

/-- a parked select is woken by the case of `ctx.Done()` -/
def Callback.wake : Callback → Callback
  | .parked _ => .returned
  | .select data => .select data
  | .returned => .returned

def cancel (s : State) : State :=
  { s with cancelled := true, senders := [], callbacks := fun i => (s.callbacks i).map Callback.wake }

/-- a sender that is parked when the channel is closed panics -/
def close (s : State) : State :=
  match s.closer with
  | some .waiting => if s.cancelled = true then { s with closer := some .cancelling } else s
  | some .cancelling => { s with closer := some .closing }
  | some .closing => { s with closer := some .ended, closed := true, panicked := decide (s.senders ≠ []) }
  | some .ended | none => s

/-- the first sender that is parked puts its value into the room that is made -/
def receive (s : State) : State :=
  match s.buffer with
  | none => s
  | some data =>
    match s.senders with
    | [] => { s with received := data :: s.received, buffer := none }
    | i :: senders =>
      match s.callbacks i with
      | some (.parked next) =>
        { s with received := data :: s.received, senders := senders, buffer := some next }.set i .returned
      | _ => s

/-- a step that is not possible changes nothing -/
def step (opts : Options) (key : String) (s : State) (op : Op) : State :=
  if s.panicked = true then s
  else
    match op with
    | .listen ok => if s.closer = none ∧ ok = true then { s with closer := some .waiting } else s
    | .onChange i group dataID data =>
      if s.callbacks i = none then onChange opts key s i group dataID data else s
    | .select i sendFirst =>
      match s.callbacks i with
      | some (.select data) => select s i data sendFirst
      | _ => s
    | .cancel => cancel s
    | .close => close s
    | .receive => receive s

/-! ## The property and the condition -/

def Op.withOrder (sendFirst : Bool) : Op → Op
  | .select i _ => .select i sendFirst
  | op => op

/-- no send on the closed channel in this step, whatever the order of the cases -/
def Safe (opts : Options) (key : String) (s : State) (op : Op) : Prop :=
  ∀ sendFirst, (step opts key s (op.withOrder sendFirst)).panicked = false

/-- no callback comes to its select after the channel was closed -/
def Ordered (s : State) : Op → Prop
  | .select i _ => ∀ data, s.callbacks i = some (.select data) → s.closed = false
  | _ => True

/-- nobody is parked once the context is cancelled, and the channel is closed only then -/
structure Inv (s : State) : Prop where
  alive : s.panicked = false
  senders : s.cancelled = true → s.senders = []
  closer : ∀ c, s.closer = some c → c ≠ .waiting → s.cancelled = true

/-! ## One step -/

section

variable {opts : Options} {key : String} {s : State}

theorem inv_initial : Inv initial := ⟨rfl, fun _ => rfl, fun _ h => by cases h⟩

/-- **What a select can do**: it returns through `ctx.Done()`, sends, or parks. -/
theorem select_cases (h : s.closed = false) (i : ℕ) (data : String) (sendFirst : Bool) :
    (s.cancelled ∧ select s i data sendFirst = s.set i .returned) ∨
    (s.buffer = none ∧ select s i data sendFirst = { s with buffer := some data }.set i .returned) ∨
    (s.cancelled = false ∧ s.buffer ≠ none ∧
      select s i data sendFirst = { s with senders := s.senders ++ [i] }.set i (.parked data)) := by
  unfold select State.send
  simp only [h]
  by_cases hb : s.buffer = none <;> cases hc : s.cancelled <;> cases sendFirst <;> simp [hb]

theorem inv_select (h : Inv s) (hopen : s.closed = false) (i : ℕ) (data : String) (sendFirst : Bool) :
    Inv (select s i data sendFirst) := by
  rcases select_cases hopen i data sendFirst with ⟨-, he⟩ | ⟨-, he⟩ | ⟨hc, -, he⟩
  · rw [he]
    exact { h with }
  · rw [he]
    exact { h with }
  · rw [he]
    refine { h with senders := fun hcancel => ?_ }
    exact absurd (hc.symm.trans hcancel) (by decide)

theorem inv_close (h : Inv s) : Inv (close s) := by
  unfold close
  split
  next hw =>
    exact guard_inv h fun hc => { h with closer := fun _ _ _ => hc }
  next hw =>
    have hc := h.closer _ hw (by decide)
    exact { h with closer := fun _ _ _ => hc }
  next hw =>
    have hc := h.closer _ hw (by decide)
    refine ⟨?_, h.senders, fun _ _ _ => hc⟩
    simp [h.senders hc]
  next => exact h
  next => exact h

theorem inv_receive (h : Inv s) : Inv (receive s) := by
  unfold receive
  split
  next => exact h
  next data hb =>
    split
    next => exact { h with }
    next i senders hs =>
      split
      next next hi =>
        refine { h with senders := fun hc => ?_ }
        exact absurd (hs.symm.trans (h.senders hc)) (List.cons_ne_nil i senders)
      next => exact h

theorem inv_step {op : Op} (h : Inv s) (hc : Ordered s op) : Inv (step opts key s op) := by
  unfold step
  rw [if_neg (by simp [h.alive])]
  cases op with
  | listen ok =>
    exact guard_inv h fun _ => { h with closer := fun c hw hne => absurd (Option.some.inj hw).symm hne }
  | onChange i group dataID data =>
    refine guard_inv h fun _ => ?_
    unfold onChange
    split_ifs
    all_goals exact { h with }
  | select i sendFirst =>
    dsimp only
    split
    next data hi => exact inv_select h (hc data hi) i data sendFirst
    next => exact h
  | cancel => exact ⟨h.alive, fun _ => rfl, fun _ _ _ => rfl⟩
  | close => exact inv_close h
  | receive => exact inv_receive h

theorem ordered_withOrder (op : Op) (sendFirst : Bool) : Ordered s (op.withOrder sendFirst) ↔ Ordered s op := by
  cases op <;> exact Iff.rfl

theorem safe_iff_ordered (h : Inv s) (op : Op) : Safe opts key s op ↔ Ordered s op := by
  constructor
  · intro hsafe
    cases op with
    | select i sendFirst =>
      intro data hi
      by_contra hopen
      have hclosed : s.closed := Bool.not_eq_false _ ▸ hopen
      have hpanic := hsafe true
      simp [Op.withOrder, step, h.alive, hi, select, State.send, hclosed] at hpanic
    | _ => trivial
  · intro hc sendFirst
    exact (inv_step h ((ordered_withOrder op sendFirst).2 hc)).alive

end

/-- **When no callback sends on the closed channel.** In every interleaving of callbacks with the cancellation, the
goroutine that closes the channel and the consumer: none does, whichever case its select looks at first, if and only if
no callback for the watched document comes to its select after the channel was closed. -/
theorem safe_iff (opts : Options) (key : String) (ops : List Op) :
    Along (step opts key) (Safe opts key) initial ops ↔ Along (step opts key) Ordered initial ops :=
  along_iff_along (I := Inv) (fun _ _ => inv_step) (fun _ op h => safe_iff_ordered h op) inv_initial ops

def defaults : Options := ⟨"DEFAULT_GROUP", "bootstrap.yaml"⟩

/-- **Sent on the closed channel.** The callback has compared its document; then the context is cancelled, the listener
removed and the channel closed. Both cases of the select can proceed, and the send panics. -/
theorem sent_on_closed :
    (run (step defaults "") initial
      [.listen true, .onChange 1 "DEFAULT_GROUP" "bootstrap.yaml" "a: 1", .cancel, .close, .close, .close,
        .select 1 true]).panicked = true := by
  decide

end LuluExt.NacosConfig
