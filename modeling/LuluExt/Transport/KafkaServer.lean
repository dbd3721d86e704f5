/-
The Kafka transport server: what is left after a Start that failed.

`Start` keeps its error in the server and returns it at once when it is called again; only `Stop` clears it, and `Stop`
does nothing while the server is not started, which it is not after a failed Start. What was registered is handed to the
broker by `Start` and forgotten, whether or not the subscriptions succeeded. Init, Connect and every Subscribe may fail;
the broker underneath is that of `KafkaBroker`.

Results: `start_cases`, `start_wedges`, `restarts_iff`.
-/
import LuluExt.Broker.KafkaBroker

namespace LuluExt.KafkaServer

open Run
open KafkaBroker (Broker newBroker)

/-- `ρ` is what a registration consists of: handler, binder and options -/
structure Server (ρ : Type) where
  broker : Broker
  subscribers : AList fun _ : String => ℕ
  subscriberOpts : AList fun _ : String => ρ
  started : Bool
  err : Option GoError

variable {ρ : Type}

def newServer (addrs : List String) : Server ρ := ⟨newBroker addrs, ∅, ∅, false, none⟩

/-- the errors that Init, Connect and Subscribe of a topic return; where there is none the broker answers itself -/
structure Failures where
  init : Option GoError
  connect : Option GoError
  subscribe : String → Option GoError

def noFailures : Failures := ⟨none, none, fun _ => none⟩

inductive Call where
  | init
  | connect
  | subscribe (topic : String)
deriving DecidableEq, Repr

def connect (f : Failures) (b : Broker) : Option GoError × Broker :=
  match f.connect with
  | some e => (some e, b)
  | none => KafkaBroker.connect b

def doRegisterSubscriber (failure : Option GoError) (s : Server ρ) (topic : String) : Option GoError × Server ρ :=
  match failure with
  | some e => (some e, s)
  | none =>
    let (sub, b) := KafkaBroker.subscribe s.broker topic
    (none, { s with broker := b, subscribers := s.subscribers.insert topic sub })

/-- the loop of `doRegisterSubscriberMap`, with the errors so far -/
def registerAll (f : Failures) : List String → List GoError × Server ρ → List GoError × Server ρ
  | [], r => r
  | topic :: topics, (errs, s) =>
    match doRegisterSubscriber (f.subscribe topic) s topic with
    | (some e, s) => registerAll f topics (errs ++ [e], s)
    | (none, s) => registerAll f topics (errs, s)

def join : List GoError → Option GoError
  | [] => none
  | errs => some ⟨"\n".intercalate (errs.map GoError.text)⟩

def doRegisterSubscriberMap (f : Failures) (s : Server ρ) : Option GoError × Server ρ :=
  let (errs, s) := registerAll f s.subscriberOpts.keys ([], s)
  (join errs, { s with subscriberOpts := ∅ })

/-- what `Start` returns, the calls it has made, and the server -/
structure Started (ρ : Type) where
  err : Option GoError
  calls : List Call
  server : Server ρ

def start (f : Failures) (s : Server ρ) : Started ρ :=
  if s.err ≠ none then ⟨s.err, [], s⟩
  else if s.started = true then ⟨none, [], s⟩
  else
    match f.init with
    | some e => ⟨some e, [.init], { s with err := some e }⟩
    | none =>
      match connect f s.broker with
      | (some e, b) => ⟨some e, [.init, .connect], { s with broker := b, err := some e }⟩
      | (none, b) =>
        let calls := [.init, .connect] ++ s.subscriberOpts.keys.map Call.subscribe
        match doRegisterSubscriberMap f { s with broker := b } with
        | (some e, s) => ⟨some e, calls, { s with err := some e }⟩
        | (none, s) => ⟨none, calls, { s with err := none, started := true }⟩

def stop (s : Server ρ) : Server ρ :=
  if s.started = false then s
  else
    let b := (s.subscribers.entries.map Sigma.snd).foldl (fun b id => KafkaBroker.unsubscribe b id false) s.broker
    ⟨KafkaBroker.disconnect b, ∅, ∅, false, none⟩

def registerSubscriber (failure : Option GoError) (s : Server ρ) (topic : String) (option : ρ) :
    Option GoError × Server ρ :=
  if s.started = true then doRegisterSubscriber failure s topic
  else (none, { s with subscriberOpts := s.subscriberOpts.insert topic option })

inductive Op (ρ : Type) where
  | register (failure : Option GoError) (topic : String) (option : ρ)
  | start (f : Failures)
  | stop

def step (s : Server ρ) : Op ρ → Server ρ
  | .register failure topic option => (registerSubscriber failure s topic option).2
  | .start f => (start f s).server
  | .stop => stop s

/-! ## The property -/

def register (s : Server ρ) (regs : List (String × ρ)) : Server ρ :=
  regs.foldl (fun s r => (registerSubscriber none s r.1 r.2).2) s

/-- when Start returns an error: after a following Stop its subscriptions are closed and the broker is disconnected; and
a later Start (that gets past Init and Connect) connects and subscribes all that was registered, whatever else is
registered in between -/
def Recovers (s : Server ρ) (f : Failures) : Prop :=
  (start f s).err ≠ none → ∀ between later : List (String × ρ),
    let failed := (start f s).server
    let stopped := stop (register failed between)
    (∀ id, s.broker.next ≤ id → id < failed.broker.next → stopped.broker.closed id = true) ∧
    stopped.broker.connected = false ∧
    ∀ g : Failures, g.init = none →
      Call.connect ∈ (start g (register stopped later)).calls ∧
      ((connect g stopped.broker).1 = none → ∀ topic ∈ s.subscriberOpts,
        Call.subscribe topic ∈ (start g (register stopped later)).calls)

/-- Init, Connect and the subscription of every registered topic succeed -/
def Succeeds (s : Server ρ) (f : Failures) : Prop :=
  f.init = none ∧ (connect f s.broker).1 = none ∧ ∀ topic ∈ s.subscriberOpts, f.subscribe topic = none

/-! ## Starting -/

section

variable {s : Server ρ} {f : Failures}

theorem join_eq_none_iff (errs : List GoError) : join errs = none ↔ errs = [] := by
  cases errs <;> simp [join]

theorem registerAll_errs (topics : List String) (errs : List GoError) (s : Server ρ) :
    (registerAll f topics (errs, s)).1 = [] ↔ errs = [] ∧ ∀ topic ∈ topics, f.subscribe topic = none := by
  induction topics generalizing errs s with
  | nil => simp [registerAll]
  | cons topic topics ih =>
    cases hf : f.subscribe topic with
    | some e | none => simp [registerAll, doRegisterSubscriber, hf, ih]

theorem registerAll_started (topics : List String) (errs : List GoError) (s : Server ρ) :
    (registerAll f topics (errs, s)).2.started = s.started := by
  induction topics generalizing errs s with
  | nil => rfl
  | cons topic topics ih =>
    cases hf : f.subscribe topic with
    | some e | none => simp [registerAll, doRegisterSubscriber, hf, ih]

theorem doRegisterSubscriberMap_err (f : Failures) (s : Server ρ) :
    (doRegisterSubscriberMap f s).1 = none ↔ ∀ topic ∈ s.subscriberOpts, f.subscribe topic = none := by
  simp only [doRegisterSubscriberMap, join_eq_none_iff, registerAll_errs, true_and, AList.mem_keys]

theorem doRegisterSubscriberMap_started (f : Failures) (s : Server ρ) :
    (doRegisterSubscriberMap f s).2.started = s.started := by
  simp only [doRegisterSubscriberMap, registerAll_started]

/-- everything a Start of a server without an error can do: it is started already, it fails, or it succeeds -/
theorem start_cases (f : Failures) (herr : s.err = none) :
    (s.started ∧ start f s = ⟨none, [], s⟩) ∨
    (s.started = false ∧ ¬ Succeeds s f ∧ ∃ e, (start f s).err = some e ∧ (start f s).server.err = some e ∧
      (start f s).server.started = false) ∨
    (s.started = false ∧ Succeeds s f ∧ (start f s).err = none ∧ (start f s).server.err = none) := by
  cases hstarted : s.started with
  | true => exact .inl ⟨rfl, by simp [start, herr, hstarted]⟩
  | false =>
    right
    cases hinit : f.init with
    | some e => exact .inl ⟨rfl, by simp [Succeeds, hinit], e, by simp [start, herr, hstarted, hinit]⟩
    | none =>
      rcases hconn : connect f s.broker with ⟨err, b⟩
      cases err with
      | some e => exact .inl ⟨rfl, by simp [Succeeds, hconn], e, by simp [start, herr, hstarted, hinit, hconn]⟩
      | none =>
        have herrs := doRegisterSubscriberMap_err f { s with broker := b }
        have hkeep := doRegisterSubscriberMap_started f { s with broker := b }
        rcases hreg : doRegisterSubscriberMap f { s with broker := b } with ⟨err, s'⟩
        rw [hreg] at herrs hkeep
        simp only [herr, hstarted] at hreg hkeep
        cases err with
        | some e =>
          refine .inl ⟨rfl, fun h => ?_, e, ?_⟩
          · cases herrs.2 h.2.2
          · simp [start, herr, hstarted, hinit, hconn, hreg, hkeep]
        | none =>
          refine .inr ⟨rfl, ⟨hinit, by rw [hconn], herrs.1 rfl⟩, ?_⟩
          simp [start, herr, hstarted, hinit, hconn, hreg]

/-! ## A server with an error -/

/-- an error is kept, and the server is not started -/
def Stuck (e : GoError) (s : Server ρ) : Prop := s.err = some e ∧ s.started = false

theorem stuck_register {e : GoError} (h : Stuck e s) (regs : List (String × ρ)) : Stuck e (register s regs) := by
  induction regs generalizing s with
  | nil => exact h
  | cons r regs ih =>
    refine ih ?_
    simp [Stuck, registerSubscriber, h.1, h.2]

theorem stop_stuck {e : GoError} (h : Stuck e s) : stop s = s := by simp [stop, h.2]

theorem start_stuck {e : GoError} (h : Stuck e s) (g : Failures) : start g s = ⟨some e, [], s⟩ := by
  simp [start, h.1]

/-- **A failed Start wedges the server**: whatever is registered and stopped, a later Start calls nothing. -/
theorem start_wedges {e : GoError} (h : Stuck e s) (between later : List (String × ρ)) (g : Failures) :
    (start g (register (stop (register s between)) later)).calls = [] := by
  have hbetween := stuck_register h between
  rw [stop_stuck hbetween, start_stuck (stuck_register hbetween later) g]

theorem recovers_start_iff (herr : s.err = none) (f : Failures) :
    Recovers s f ↔ s.started ∨ Succeeds s f := by
  rcases start_cases f herr with ⟨hstarted, hstart⟩ | ⟨hstarted, hfails, e, he, herr', hstarted'⟩ | ⟨_, hok, he, _⟩
  · simp [Recovers, hstart, hstarted]
  · refine iff_of_false (fun h => ?_) (by simp [hstarted, hfails])
    obtain ⟨-, -, hlater⟩ := h (by simp [he]) [] []
    have hconnect := (hlater noFailures rfl).1
    rw [start_wedges ⟨herr', hstarted'⟩ [] [] noFailures] at hconnect
    cases hconnect
  · simp [Recovers, he, hok]

end

def RecoversAt (s : Server ρ) : Op ρ → Prop
  | .start f => Recovers s f
  | _ => True

/-- no Start of a run meets a failure, unless the server is started already -/
def SucceedsAt (s : Server ρ) : Op ρ → Prop
  | .start f => s.started = true ∨ Succeeds s f
  | _ => True

theorem err_step {s : Server ρ} {op : Op ρ} (herr : s.err = none) (h : SucceedsAt s op) : (step s op).err = none := by
  cases op with
  | register failure topic option =>
    cases hstarted : s.started with
    | true => cases failure <;> simp [step, registerSubscriber, doRegisterSubscriber, hstarted, herr]
    | false => simp [step, registerSubscriber, hstarted, herr]
  | start f =>
    rcases start_cases f herr with ⟨-, hstart⟩ | ⟨hstarted, hfails, -⟩ | ⟨-, -, -, herr'⟩
    · simp [step, hstart, herr]
    · simp [SucceedsAt, hstarted, hfails] at h
    · exact herr'
  | stop =>
    cases hstarted : s.started with
    | true => simp [step, stop, hstarted]
    | false => simp [step, stop, hstarted, herr]

/-- **Recovery is exactly the absence of failures.** Every Start that returns an error can be stopped and repeated, if
and only if no Start of the sequence meets a failure of Init, Connect or Subscribe. -/
theorem restarts_iff (addrs : List String) (ops : List (Op ρ)) :
    Along step RecoversAt (newServer addrs) ops ↔ Along step SucceedsAt (newServer addrs) ops := by
  refine along_iff_along (I := fun s => s.err = none) (fun _ _ => err_step) ?_ rfl ops
  intro s op herr
  cases op with
  | start f => exact recovers_start_iff herr f
  | _ => exact Iff.rfl

def refused : Failures := ⟨none, none, fun topic => if topic = "b" then some ⟨"topic authorization failed"⟩ else none⟩

def twoTopics : List (Op Unit) := [.register none "a" (), .register none "b" ()]

/-- the server after a Start that could not subscribe "b", and a Stop -/
def afterStop : Server Unit := run step (newServer ["localhost:9092"]) (twoTopics ++ [.start refused, .stop])

/-- **Start fails, and that is the end of it.** The subscription of "a" stays open and the broker connected, both
registrations are gone, and a Start that would meet no failure returns the old error without calling anything. -/
theorem wedged :
    afterStop.broker.next = 1 ∧ afterStop.broker.topic 0 = "a" ∧ afterStop.broker.closed 0 = false ∧
    afterStop.broker.connected = true ∧ afterStop.subscriberOpts.keys = [] ∧
    (start noFailures afterStop).err = some ⟨"topic authorization failed"⟩ ∧
    (start noFailures afterStop).calls = [] ∧
    ¬ Along step RecoversAt (newServer ["localhost:9092"]) (twoTopics ++ [.start refused]) := by
  refine ⟨by decide, by decide, by decide, by decide, by decide, by decide, by decide, fun h => ?_⟩
  obtain ⟨-, -, hlater⟩ := h.2.2.1 (by decide) [] []
  exact absurd (hlater noFailures rfl).1 (by decide)

end LuluExt.KafkaServer
