/-
The consumer of the RocketMQ broker (rocketmq-clients): Connect, Subscribe, Disconnect and the receive loop.

The first Subscribe creates the consumer; `createConsumer` starts the goroutine of the receive loop and returns, and
only then Subscribe stores the consumer in `b.consumer`. The loop returns when `b.done` is closed or `b.consumer` is
nil. `Disconnect` closes `b.done` before it stops the producers, leaves `connected` as it is when one of them fails, and
nothing ever makes a new `done`.

Any number of callers and loops run interleaved. A section under the lock is one step, and so is each access to
`b.consumer` outside it. Beside the state the model records which calls of Connect and Subscribe began after the last
Disconnect had returned, and whether one of those calls of Subscribe has succeeded since: then a loop has to run.
-/
import LuluExt.Lib.Run

namespace LuluExt.Rocketmq

open Run

/-! ## Model -/

inductive Proc where
  | idle
  /-- Connect, before the write lock -/
  | connect (fresh : Bool)
  /-- Subscribe, which has found no consumer, before `createConsumer` -/
  | create (fresh : Bool)
  /-- before `b.consumer = c` -/
  | store (c : ℕ) (fresh : Bool)
  | use (fresh : Bool)
  /-- before `b.subscribers.Add` -/
  | add (fresh : Bool)
deriving DecidableEq, Repr

def Proc.fresh : Proc → Bool
  | .idle => false
  | .connect fresh | .create fresh | .store _ fresh | .use fresh | .add fresh => fresh

/-- once Disconnect was called -/
def Proc.stale : Proc → Proc
  | .idle => .idle
  | .connect _ => .connect false
  | .create _ => .create false
  | .store c _ => .store c false
  | .use _ => .use false
  | .add _ => .add false

inductive Loop where
  /-- before it looks at `b.done` -/
  | check
  /-- before `b.consumer == nil` -/
  | test
  /-- before `b.consumer.Receive` -/
  | receive
deriving DecidableEq, Repr

/-- consumers and receive loops are numbered in the order in which they were made, a loop as its consumer -/
structure Broker where
  connected : Bool
  producers : List String
  consumer : Option ℕ
  consumers : ℕ
  /-- none before the start of the loop and after its return -/
  loops : ℕ → Option Loop
  /-- how often `done` was closed -/
  closings : ℕ
  procs : ℕ → Proc
  /-- the callers of Disconnect before the write lock -/
  disconnecting : Finset ℕ
  crashed : Bool
  ready : Bool
  obliged : Bool

def newBroker : Broker where
  connected := false
  producers := []
  consumer := none
  consumers := 0
  loops _ := none
  closings := 0
  procs _ := .idle
  disconnecting := ∅
  crashed := false
  ready := true
  obliged := false

inductive Op where
  | connect (i : ℕ)
  | connected (i : ℕ)
  | publish (topic : String) (ok : Bool)
  | subscribe (i : ℕ)
  | create (i : ℕ) (ok : Bool)
  | store (i : ℕ)
  | use (i : ℕ) (ok : Bool)
  | add (i : ℕ)
  | disconnect (i : ℕ)
  /-- the second section of Disconnect, with the producers that stop -/
  | shut (i : ℕ) (stops : String → Bool)
  | loop (k : ℕ)

def Broker.set (s : Broker) (i : ℕ) (p : Proc) : Broker := { s with procs := Function.update s.procs i p }

@[simp] def Broker.setLoop (s : Broker) (k : ℕ) (l : Option Loop) : Broker :=
  { s with loops := Function.update s.loops k l }

def connect (s : Broker) (i : ℕ) : Broker :=
  if s.connected = true then { s with ready := s.ready || decide (s.disconnecting = ∅) }
  else s.set i (.connect (decide (s.disconnecting = ∅)))

def publish (s : Broker) (topic : String) (ok : Bool) : Broker :=
  if topic ∉ s.producers ∧ ok = true then { s with producers := topic :: s.producers } else s

def subscribe (s : Broker) (i : ℕ) : Broker :=
  s.set i (if s.consumer = none then .create s.ready else .use s.ready)

/-- the goroutine is started before the consumer is returned -/
def createConsumer (s : Broker) (i : ℕ) (fresh ok : Bool) : Broker :=
  if ok = true then
    ({ s with consumers := s.consumers + 1 }.setLoop s.consumers (some .check)).set i (.store s.consumers fresh)
  else s.set i .idle

def use (s : Broker) (i : ℕ) (fresh ok : Bool) : Broker :=
  if s.consumer = none then { s with crashed := true }
  else s.set i (if ok = true then .add fresh else .idle)

def disconnect (s : Broker) (i : ℕ) : Broker :=
  { s with
    disconnecting := if s.connected = true then insert i s.disconnecting else s.disconnecting
    procs := fun j => (s.procs j).stale
    ready := false
    obliged := false }

/-- the second close of `done` panics; a producer that does not stop ends the call there -/
def shut (s : Broker) (i : ℕ) (stops : String → Bool) : Broker :=
  let s' := { s with closings := s.closings + 1, disconnecting := s.disconnecting.erase i }
  if s.closings ≠ 0 then { s' with crashed := true }
  else if s.producers.all stops = true then { s' with producers := [], consumer := none, connected := false }
  else s'

def runLoop (s : Broker) (k : ℕ) : Loop → Broker
  | .check => s.setLoop k (if s.closings ≠ 0 then none else some .test)
  | .test => s.setLoop k (if s.consumer = none then none else some .receive)
  | .receive => if s.consumer = none then { s with crashed := true } else s.setLoop k (some .check)

/-- a step that is not possible changes nothing -/
def step (s : Broker) (op : Op) : Broker :=
  if s.crashed = true then s
  else
    match op with
    | .connect i => if s.procs i = .idle then connect s i else s
    | .connected i =>
      match s.procs i with
      | .connect fresh => { s with connected := true, ready := s.ready || fresh }.set i .idle
      | _ => s
    | .publish topic ok => publish s topic ok
    | .subscribe i => if s.procs i = .idle then subscribe s i else s
    | .create i ok =>
      match s.procs i with
      | .create fresh => createConsumer s i fresh ok
      | _ => s
    | .store i =>
      match s.procs i with
      | .store c fresh => { s with consumer := some c }.set i (.use fresh)
      | _ => s
    | .use i ok =>
      match s.procs i with
      | .use fresh => use s i fresh ok
      | _ => s
    | .add i =>
      match s.procs i with
      | .add fresh => { s with obliged := s.obliged || fresh }.set i .idle
      | _ => s
    | .disconnect i => if i ∈ s.disconnecting then s else disconnect s i
    | .shut i stops => if i ∈ s.disconnecting then shut s i stops else s
    | .loop k =>
      match s.loops k with
      | some l => runLoop s k l
      | none => s

/-! ## The property and the condition -/

def Running (s : Broker) : Prop := s.crashed = false ∧ ∃ k < s.consumers, s.loops k ≠ none

instance (s : Broker) : Decidable (Running s) :=
  inferInstanceAs (Decidable (s.crashed = false ∧ ∃ k < s.consumers, s.loops k ≠ none))

/-- `done` was closed at most once, and a loop runs if it has to -/
structure Sound (s : Broker) : Prop where
  once : s.closings ≤ 1
  running : s.obliged = true → Running s

/-- whatever the loops do next -/
def Lively (s : Broker) : Prop := ∀ ks : List ℕ, Sound (run step s (ks.map .loop))

def Orderly (s : Broker) (op : Op) : Prop :=
  s.crashed = false →
    match op with
    | .shut i _ => i ∈ s.disconnecting → s.closings = 0
    | .add i => s.procs i = .add true → s.closings = 0 ∧ ∃ k < s.consumers, s.loops k ≠ none
    | _ => True

/-- a call that is fresh and has found or stored its consumer -/
def Proc.uses : Proc → Bool
  | .use fresh | .add fresh => fresh
  | _ => false

/-- no call of Disconnect is under way while a call is fresh, and its consumer is stored when it uses it -/
structure Inv (s : Broker) : Prop where
  once : s.closings ≤ 1
  ready : s.ready = true → s.disconnecting = ∅
  fresh : ∀ i, (s.procs i).fresh = true → s.disconnecting = ∅
  stored : ∀ i, (s.procs i).uses = true → s.consumer ≠ none
  obliged : s.obliged = true → s.disconnecting = ∅ ∧ s.consumer ≠ none ∧ s.closings = 0 ∧ Running s
  unmade : ∀ k, s.consumers ≤ k → s.loops k = none

/-! ## One step -/

section

variable {s : Broker}

@[simp] theorem fresh_stale (p : Proc) : p.stale.fresh = false := by
  cases p <;> rfl

theorem fresh_of_uses {p : Proc} (h : p.uses) : p.fresh := by
  cases p <;> first | exact h | cases h

theorem inv_new : Inv newBroker where
  once := Nat.zero_le _
  ready _ := rfl
  fresh _ _ := rfl
  stored := nofun
  obliged := nofun
  unmade _ _ := rfl

theorem Inv.sound (h : Inv s) : Sound s := ⟨h.once, fun hobl => (h.obliged hobl).2.2.2⟩

variable {i : ℕ}

theorem Inv.set (h : Inv s) {p : Proc} (hfresh : p.fresh → s.disconnecting = ∅)
    (hstored : p.uses → s.consumer ≠ none) : Inv (s.set i p) := by
  refine { h with fresh := fun j hj => ?_, stored := fun j hj => ?_ }
  · by_cases hji : j = i
    · simp only [Broker.set, hji, Function.update_self] at hj
      exact hfresh hj
    · simp only [Broker.set, Function.update_of_ne hji] at hj
      exact h.fresh j hj
  · by_cases hji : j = i
    · simp only [Broker.set, hji, Function.update_self] at hj
      exact hstored hj
    · simp only [Broker.set, Function.update_of_ne hji] at hj
      exact h.stored j hj

theorem Inv.idle (h : Inv s) (i : ℕ) : Inv (s.set i .idle) :=
  h.set nofun nofun

variable {fresh : Bool}

theorem Inv.setReady (h : Inv s) (hfresh : fresh → s.disconnecting = ∅) (connected : Bool) :
    Inv { s with connected, ready := s.ready || fresh } := by
  refine { h with ready := fun hr => ?_ }
  rcases Bool.or_eq_true_iff.1 hr with hr | hr
  · exact h.ready hr
  · exact hfresh hr

theorem inv_connect (h : Inv s) (i : ℕ) : Inv (connect s i) := by
  unfold connect
  split_ifs
  · exact h.setReady of_decide_eq_true s.connected
  · exact h.set of_decide_eq_true nofun

theorem inv_subscribe (h : Inv s) (i : ℕ) : Inv (subscribe s i) := by
  unfold subscribe
  split_ifs with hnone
  · exact h.set h.ready nofun
  · exact h.set h.ready fun _ => hnone

theorem inv_createConsumer (h : Inv s) (hproc : s.procs i = .create fresh) (ok : Bool) :
    Inv (createConsumer s i fresh ok) := by
  unfold createConsumer
  split_ifs
  · refine Inv.set ?_ (fun hf => h.fresh i (hproc ▸ hf)) nofun
    refine { h with obliged := fun hobl => ?_, unmade := fun k hk => ?_ }
    · obtain ⟨hdisc, hcons, hdone, hcrash, -⟩ := h.obliged hobl
      refine ⟨hdisc, hcons, hdone, hcrash, s.consumers, Nat.lt_succ_self _, ?_⟩
      simp
    · have hne : k ≠ s.consumers := Nat.ne_of_gt hk
      simpa [hne] using h.unmade k (Nat.le_of_succ_le hk)
  · exact h.idle i

theorem inv_store (h : Inv s) {c : ℕ} (hproc : s.procs i = .store c fresh) :
    Inv ({ s with consumer := some c }.set i (.use fresh)) := by
  refine Inv.set ?_ (fun hf => h.fresh i (hproc ▸ hf)) fun _ => Option.some_ne_none c
  refine { h with stored := fun _ _ => Option.some_ne_none c, obliged := fun hobl => ?_ }
  obtain ⟨hdisc, -, hrest⟩ := h.obliged hobl
  exact ⟨hdisc, Option.some_ne_none c, hrest⟩

theorem inv_use (h : Inv s) (hproc : s.procs i = .use fresh) (ok : Bool) : Inv (use s i fresh ok) := by
  unfold use
  split_ifs with hnone hok
  · exact { h with obliged := fun hobl => absurd hnone (h.obliged hobl).2.1 }
  · exact h.set (fun hf => h.fresh i (hproc ▸ hf)) fun _ => hnone
  · exact h.idle i

theorem inv_add (h : Inv s) (hproc : s.procs i = .add fresh)
    (hc : fresh → s.closings = 0 ∧ Running s) : Inv ({ s with obliged := s.obliged || fresh }.set i .idle) := by
  apply Inv.idle
  refine { h with obliged := fun hobl => ?_ }
  rcases Bool.or_eq_true_iff.1 hobl with hobl | hfresh
  · exact h.obliged hobl
  · subst hfresh
    exact ⟨h.fresh i (by rw [hproc]; rfl), h.stored i (by rw [hproc]; rfl), hc rfl⟩

theorem inv_disconnect (h : Inv s) (i : ℕ) : Inv (disconnect s i) := by
  have hstale : ∀ j, ¬ ((disconnect s i).procs j).fresh := by simp [disconnect]
  exact ⟨h.once, nofun, fun j hj => absurd hj (hstale j), fun j hj => absurd (fresh_of_uses hj) (hstale j), nofun,
    h.unmade⟩

theorem inv_shut (h : Inv s) (hi : i ∈ s.disconnecting) (stops : String → Bool) (hopen : s.closings = 0) :
    Inv (shut s i stops) := by
  have hne : s.disconnecting ≠ ∅ := Finset.ne_empty_of_mem hi
  unfold shut
  simp only [hopen]
  split_ifs
  all_goals
    exact ⟨by simp, fun hr => absurd (h.ready hr) hne, fun j hj => absurd (h.fresh j hj) hne,
      fun j hj => absurd (h.fresh j (fresh_of_uses hj)) hne, fun ho => absurd (h.obliged ho).1 hne, h.unmade⟩

theorem Inv.setLoop (h : Inv s) {k : ℕ} {l l' : Loop} (hl : s.loops k = some l) : Inv (s.setLoop k (some l')) := by
  have hk : k < s.consumers := by
    by_contra hk
    rw [h.unmade k (Nat.le_of_not_lt hk)] at hl
    cases hl
  refine { h with obliged := fun hobl => ?_, unmade := fun k' hk' => ?_ }
  · obtain ⟨hdisc, hcons, hdone, hcrash, -⟩ := h.obliged hobl
    refine ⟨hdisc, hcons, hdone, hcrash, k, hk, ?_⟩
    simp
  · have hne : k' ≠ k := Nat.ne_of_gt (hk.trans_le hk')
    simpa [hne] using h.unmade k' hk'

theorem Inv.endLoop (h : Inv s) (k : ℕ) (hobl : s.obliged → False) : Inv (s.setLoop k none) := by
  refine { h with obliged := fun ho => (hobl ho).elim, unmade := fun k' hk' => ?_ }
  by_cases hne : k' = k
  · simp [hne]
  · simpa [hne] using h.unmade k' hk'

theorem inv_runLoop (h : Inv s) {k : ℕ} {l : Loop} (hl : s.loops k = some l) : Inv (runLoop s k l) := by
  cases l with
  | check =>
    simp only [runLoop]
    split_ifs with hdone
    · exact h.endLoop k fun hobl => hdone (h.obliged hobl).2.2.1
    · exact h.setLoop hl
  | test =>
    simp only [runLoop]
    split_ifs with hnone
    · exact h.endLoop k fun hobl => (h.obliged hobl).2.1 hnone
    · exact h.setLoop hl
  | receive =>
    simp only [runLoop]
    split_ifs with hnone
    · exact { h with obliged := fun hobl => absurd hnone (h.obliged hobl).2.1 }
    · exact h.setLoop hl

theorem inv_step {op : Op} (h : Inv s) (hc : Orderly s op) : Inv (step s op) := by
  by_cases hcrash : s.crashed
  · unfold step
    rw [if_pos hcrash]
    exact h
  have hcrash' := Bool.eq_false_iff.2 hcrash
  have hc := hc hcrash'
  unfold step
  rw [if_neg hcrash]
  cases op with
  | connect i => exact guard_inv h fun _ => inv_connect h i
  | connected i =>
    dsimp only
    split
    next fresh hproc => exact (h.setReady (fun hf => h.fresh i (by rw [hproc]; exact hf)) true).idle i
    next => exact h
  | publish topic ok => exact guard_inv h fun _ => { h with }
  | subscribe i => exact guard_inv h fun _ => inv_subscribe h i
  | create i ok =>
    dsimp only
    split
    next fresh hproc => exact inv_createConsumer h hproc ok
    next => exact h
  | store i =>
    dsimp only
    split
    next c fresh hproc => exact inv_store h hproc
    next => exact h
  | use i ok =>
    dsimp only
    split
    next fresh hproc => exact inv_use h hproc ok
    next => exact h
  | add i =>
    dsimp only
    split
    next fresh hproc =>
      refine inv_add h hproc fun hfresh => ?_
      obtain ⟨hdone, hloop⟩ := hc (hfresh ▸ hproc)
      exact ⟨hdone, hcrash', hloop⟩
    next => exact h
  | disconnect i =>
    dsimp only
    split_ifs
    · exact h
    · exact inv_disconnect h i
  | shut i stops => exact guard_inv h fun hi => inv_shut h hi stops (hc hi)
  | loop k =>
    dsimp only
    split
    next l hl => exact inv_runLoop h hl
    next => exact h

/-! ## What the loops do -/

theorem Inv.lively (h : Inv s) : Lively s := by
  intro ks
  induction ks generalizing s with
  | nil => exact h.sound
  | cons k ks ih => exact ih (inv_step h fun _ => trivial)

/-- with `done` closed, a loop returns after three statements at most -/
theorem run_loop (hcrash : s.crashed = false) (hdone : s.closings ≠ 0) (hcons : s.consumer ≠ none) (k : ℕ) :
    run step s (List.replicate 3 (.loop k)) = s.setLoop k none := by
  have hself : s.loops k = none → s = s.setLoop k none := by
    intro hl
    rw [Broker.setLoop, ← hl, Function.update_eq_self]
  cases hl : s.loops k with
  | none => simpa [step, hl] using hself hl
  | some l => cases l <;> simp [step, hcrash, hl, runLoop, hdone, hcons]

theorem run_loops (hcrash : s.crashed = false) (hdone : s.closings ≠ 0) (hcons : s.consumer ≠ none) (n : ℕ) :
    ∃ ks : List ℕ, run step s (ks.map .loop) = { s with loops := fun k => if k < n then none else s.loops k } := by
  induction n with
  | zero => exact ⟨[], by simp⟩
  | succ n ih =>
    obtain ⟨ks, hks⟩ := ih
    refine ⟨ks ++ List.replicate 3 n, ?_⟩
    rw [List.map_append, run_append, hks, List.map_replicate,
      run_loop (s := { s with loops := fun k => if k < n then none else s.loops k }) hcrash hdone hcons]
    simp only [Broker.setLoop]
    congr 1
    funext k
    by_cases hk : k = n
    · simp [hk]
    · have hlt : k < n + 1 ↔ k < n := by omega
      simp [hk, hlt]

theorem not_lively_of_done (hcrash : s.crashed = false) (hdone : s.closings ≠ 0) (hcons : s.consumer ≠ none)
    (hobl : s.obliged) : ¬ Lively s := by
  intro hlive
  obtain ⟨ks, hks⟩ := run_loops hcrash hdone hcons s.consumers
  have hsound := hlive ks
  rw [hks] at hsound
  obtain ⟨-, k, hk, hrun⟩ := hsound.running hobl
  simp [show k < s.consumers from hk] at hrun

theorem not_lively {op : Op} (h : Inv s) (hc : ¬ Orderly s op) : ¬ Lively (step s op) := by
  unfold Orderly at hc
  rw [Classical.not_imp] at hc
  obtain ⟨hcrash, hc⟩ := hc
  cases op with
  | shut i stops =>
    rw [Classical.not_imp] at hc
    obtain ⟨hi, hclosed⟩ := hc
    intro hlive
    have honce := (hlive []).once
    simp [step, hcrash, hi, shut, hclosed] at honce
  | add i =>
    rw [Classical.not_imp] at hc
    obtain ⟨hproc, hc⟩ := hc
    have hstep : step s (.add i) = { s with obliged := true }.set i .idle := by
      simp [step, hcrash, hproc]
    rw [hstep]
    by_cases hdone : s.closings = 0
    · -- no loop is left
      intro hlive
      obtain ⟨-, hrun⟩ := (hlive []).running rfl
      exact hc ⟨hdone, hrun⟩
    · exact not_lively_of_done hcrash hdone (h.stored i (by rw [hproc]; rfl)) rfl
  | _ => exact absurd trivial hc

end

/-- **When the receive loop runs.** In every interleaving and for all outcomes: `done` is never closed twice, and after
a Subscribe that began after the last Disconnect and its Connect a receive loop runs until Disconnect is called, if and
only if each Disconnect that finds the broker connected finds `done` open, and each such Subscribe returns with `done`
open and a loop that has not returned. -/
theorem lifecycle_iff (ops : List Op) :
    Always step Lively newBroker ops ↔ Along step Orderly newBroker ops :=
  always_iff_along_of_inv (I := Inv) (fun _ h => h.lively) (fun _ _ => inv_step) (fun _ _ => not_lively) inv_new ops

def connects (i : ℕ) : List Op := [.connect i, .connected i]

def disconnects (i : ℕ) : List Op := [.disconnect i, .shut i fun _ => true]

/-- a caller of Subscribe that finds no consumer; its loop k takes some steps before the consumer is stored -/
def subscribes (i k looks : ℕ) : List Op :=
  [Op.subscribe i, Op.create i true] ++ List.replicate looks (Op.loop k) ++ [Op.store i, Op.use i true, Op.add i]

def halfShut : List Op :=
  connects 0 ++ [Op.publish "a" true, Op.disconnect 0, Op.shut 0 fun _ => false] ++ disconnects 0

def shutTogether : List Op := connects 0 ++ [Op.disconnect 0] ++ disconnects 1 ++ [Op.shut 0 fun _ => true]

/-- Disconnect, Connect and Subscribe; the loop takes its first step -/
def resubscribed : List Op := connects 0 ++ disconnects 0 ++ connects 0 ++ subscribes 0 0 0 ++ [Op.loop 0]

def after (ops : List Op) : Broker := run step newBroker ops

/-- **What goes wrong.** The loop of the first Subscribe looks for the consumer before it is stored. A second Disconnect
panics: after Connect, after one whose producer did not stop, and beside another one. And the loop of a Subscribe after
Disconnect and Connect returns at once. -/
theorem loop_lost :
    ((after (subscribes 0 0 2)).obliged = true ∧ ¬ Running (after (subscribes 0 0 2))) ∧
    (after (connects 0 ++ disconnects 0 ++ connects 0 ++ disconnects 0)).closings = 2 ∧
    (after halfShut).closings = 2 ∧
    (after shutTogether).closings = 2 ∧
    ((after resubscribed).obliged = true ∧ ¬ Running (after resubscribed)) := by
  decide +kernel

end LuluExt.Rocketmq
