/-
The Kafka transport server: RegisterSubscriber while Start runs.

`RegisterSubscriber` reads `started` under the server's lock and then subscribes, or stores the registration in
`subscriberOpts`. `Start` takes no lock: it ranges over `subscriberOpts` and subscribes each topic, replaces the map and
only then sets `started`. Any number of registrations (of different topics) and one Start run interleaved; every broker
operation succeeds. Each access to the flag, the maps or the broker is one step. An iteration over the map may or may
not come to an entry that is stored meanwhile (`Ranging`). The server and its broker are those of `KafkaServer`.
-/
import LuluExt.Transport.KafkaServer
import LuluExt.Lib.Ranging

namespace LuluExt.KafkaStart

open Run
open KafkaBroker (Broker)
open KafkaServer (Server newServer doRegisterSubscriber)

variable {ρ : Type}

/-! ## Model -/

inductive Phase where
  | idle
  | connect
  /-- before the iteration over `subscriberOpts` -/
  | collect
  | ranging (r : Ranging String)
  /-- before the map is replaced -/
  | replace
  | store
  | returned
  | failed

inductive Call (ρ : Type) where
  | unmade
  /-- before the lock -/
  | waiting (option : ρ)
  /-- with the lock, and what `started.Load` has returned -/
  | loaded (started : Bool) (option : ρ)
  | returned
deriving DecidableEq

structure State (ρ : Type) where
  server : Server ρ
  phase : Phase
  /-- the lock, with the topic of the call that has it -/
  lock : Option String
  calls : String → Call ρ

def initial (addrs : List String) : State ρ := ⟨newServer addrs, .idle, none, fun _ => .unmade⟩

inductive Op (ρ : Type) where
  /-- the next statement of Start outside the iteration -/
  | proceed
  | visit (topic : String)
  | endRange
  | register (topic : String) (option : ρ)
  /-- RegisterSubscriber takes the lock and reads `started` -/
  | acquire (topic : String)
  /-- RegisterSubscriber subscribes or stores, and gives the lock back -/
  | write (topic : String)

@[simp] def State.setCall (s : State ρ) (topic : String) (c : Call ρ) : State ρ :=
  { s with calls := Function.update s.calls topic c }

def proceed (s : State ρ) : State ρ :=
  match s.phase with
  | .idle =>
    if s.server.err ≠ none then { s with phase := .failed }
    else if s.server.started = true then { s with phase := .returned }
    else { s with phase := .connect }
  | .connect =>
    match KafkaBroker.connect s.server.broker with
    | (none, b) => { s with server := { s.server with broker := b }, phase := .collect }
    | (some e, b) => { s with server := { s.server with broker := b, err := some e }, phase := .failed }
  | .collect => { s with phase := .ranging (Ranging.start s.server.subscriberOpts.keys.toFinset) }
  | .replace => { s with server := { s.server with subscriberOpts := ∅ }, phase := .store }
  | .store => { s with server := { s.server with started := true }, phase := .returned }
  | .ranging _ | .returned | .failed => s

def visit (s : State ρ) (topic : String) : State ρ :=
  match s.phase with
  | .ranging r =>
    if topic ∈ r.present ∧ topic ∉ r.visited then
      { s with server := (doRegisterSubscriber none s.server topic).2, phase := .ranging (r.visit topic) }
    else s
  | _ => s

def endRange (s : State ρ) : State ρ :=
  match s.phase with
  | .ranging r => if r.CanEnd then { s with phase := .replace } else s
  | _ => s

def Phase.stored (topic : String) : Phase → Phase
  | .ranging r => .ranging (r.stored topic)
  | p => p

def acquire (s : State ρ) (topic : String) : State ρ :=
  match s.calls topic with
  | .waiting option =>
    if s.lock = none then { s with lock := some topic }.setCall topic (.loaded s.server.started option) else s
  | _ => s

def write (s : State ρ) (topic : String) : State ρ :=
  match s.calls topic with
  | .loaded true _ =>
    { s with server := (doRegisterSubscriber none s.server topic).2, lock := none }.setCall topic .returned
  | .loaded false option =>
    { s with
      server := { s.server with subscriberOpts := s.server.subscriberOpts.insert topic option }
      phase := s.phase.stored topic
      lock := none }.setCall topic .returned
  | _ => s

/-- a step that is not possible changes nothing; a topic is registered once -/
def step (s : State ρ) : Op ρ → State ρ
  | .proceed => proceed s
  | .visit topic => visit s topic
  | .endRange => endRange s
  | .register topic option =>
    match s.calls topic with
    | .unmade => s.setCall topic (.waiting option)
    | _ => s
  | .acquire topic => acquire s topic
  | .write topic => write s topic

/-! ## The property and the condition -/

def Active (b : Broker) (topic : String) (id : ℕ) : Prop := id < b.next ∧ b.topic id = topic ∧ b.closed id = false

def Subscribed (b : Broker) (topic : String) : Prop := ∃ id, Active b topic id

/-- Start and all registrations have returned without an error -/
def Returned (s : State ρ) : Prop :=
  s.phase = .returned ∧ ∀ topic, s.calls topic = .unmade ∨ s.calls topic = .returned

/-- each topic that was registered has exactly one active subscription -/
def Registered (s : State ρ) : Prop := ∀ topic, s.calls topic ≠ .unmade → ∃! id, Active s.server.broker topic id

def Phase.after : Phase → Bool
  | .replace | .store | .returned => true
  | .idle | .connect | .collect | .ranging _ | .failed => false

/-- the iteration has not begun, and never begins if Start has failed -/
def Phase.before : Phase → Bool
  | .idle | .connect | .collect | .failed => true
  | .ranging _ | .replace | .store | .returned => false

/-- an iteration that can end has come to all of the topics -/
def Phase.complete (topics : List String) : Phase → Bool
  | .ranging r => decide (r.CanEnd → ∀ topic ∈ topics, topic ∈ r.visited)
  | .idle | .connect | .collect | .replace | .store | .returned | .failed => true

def Call.stores : Call ρ → Bool
  | .loaded false _ => true
  | .loaded true _ | .unmade | .waiting _ | .returned => false

def Timely (s : State ρ) : Op ρ → Prop
  | .endRange => s.phase.complete s.server.subscriberOpts.keys = true
  | .write topic => (s.calls topic).stores = true → s.phase.after = false
  | .proceed | .visit _ | .register _ _ | .acquire _ => True

instance (s : State ρ) : DecidablePred (Timely s)
  | .endRange => inferInstanceAs (Decidable (_ = true))
  | .write _ => inferInstanceAs (Decidable (_ = true → _ = false))
  | .proceed | .visit _ | .register _ _ | .acquire _ => isTrue trivial

@[simp] def Phase.visited : Phase → List String
  | .ranging r => r.visited
  | .idle | .connect | .collect | .replace | .store | .returned | .failed => []

/-- where the registrations that have returned are: in the map up to the end of the iteration, subscribed after it -/
structure Inv (s : State ρ) : Prop where
  once : ∀ topic id id', Active s.server.broker topic id → Active s.server.broker topic id' → id = id'
  returned : ∀ topic, Subscribed s.server.broker topic → s.calls topic = .returned
  flag : s.server.started = true ↔ s.phase = .returned
  direct : ∀ topic option, s.calls topic = .loaded true option → s.server.started = true
  pending : s.phase.after = false → ∀ topic, (s.calls topic = .returned ↔ topic ∈ s.server.subscriberOpts) ∧
    (Subscribed s.server.broker topic ↔ topic ∈ s.phase.visited)
  ranging : ∀ r, s.phase = .ranging r → ∀ topic, topic ∈ r.present ↔ topic ∈ s.server.subscriberOpts
  after : s.phase.after = true → ∀ topic, s.calls topic = .returned → Subscribed s.server.broker topic

/-- a registration has returned, and nobody will subscribe its topic -/
def Lost (s : State ρ) : Prop :=
  s.phase.after = true ∧ ∃ topic, s.calls topic = .returned ∧ ¬ Subscribed s.server.broker topic

/-! ## Subscribing -/

section

variable {b : Broker} {s : State ρ}

theorem active_subscribe (t topic : String) (id : ℕ) :
    Active (KafkaBroker.subscribe b t).2 topic id ↔ Active b topic id ∨ (id = b.next ∧ topic = t) := by
  by_cases hid : id = b.next
  · subst hid
    simp only [Active, KafkaBroker.subscribe, Function.update_self, lt_irrefl, Nat.lt_succ_self, true_and, false_and,
      false_or, and_true]
    exact eq_comm
  · have hlt : id < b.next + 1 ↔ id < b.next := by omega
    simp [Active, KafkaBroker.subscribe, hid, hlt]

theorem subscribed_subscribe (t topic : String) :
    Subscribed (KafkaBroker.subscribe b t).2 topic ↔ Subscribed b topic ∨ topic = t := by
  simp [Subscribed, active_subscribe, exists_or]

variable {t : String}

theorem once_subscribe (h : ∀ topic id id', Active b topic id → Active b topic id' → id = id')
    (ht : ¬ Subscribed b t) (topic : String) (id id' : ℕ) (hid : Active (KafkaBroker.subscribe b t).2 topic id)
    (hid' : Active (KafkaBroker.subscribe b t).2 topic id') : id = id' := by
  rw [active_subscribe] at hid hid'
  rcases hid with hid | ⟨rfl, rfl⟩
  · rcases hid' with hid' | ⟨-, rfl⟩
    · exact h topic id id' hid hid'
    · exact absurd ⟨id, hid⟩ ht
  · rcases hid' with hid' | ⟨rfl, -⟩
    · exact absurd ⟨id', hid'⟩ ht
    · rfl

/-! ## One step -/

theorem not_subscribed_initial (addrs : List String) (topic : String) :
    ¬ Subscribed (initial addrs : State ρ).server.broker topic := by
  rintro ⟨id, h, -⟩
  exact absurd h (Nat.not_lt_zero id)

theorem inv_initial (addrs : List String) : Inv (initial addrs : State ρ) where
  once topic id _ h := absurd ⟨id, h⟩ (not_subscribed_initial addrs topic)
  returned topic h := absurd h (not_subscribed_initial addrs topic)
  flag := by simp [initial, newServer]
  direct := nofun
  pending _ topic := ⟨by simp [initial, newServer], iff_of_false (not_subscribed_initial addrs topic) List.not_mem_nil⟩
  ranging := nofun
  after := nofun

theorem Inv.setCall (h : Inv s) {c : Call ρ} (ht : s.calls t ≠ .returned) (hc : c ≠ .returned)
    (hdirect : ∀ option, c = .loaded true option → s.server.started) : Inv (s.setCall t c) := by
  have hcalls : ∀ topic, (s.setCall t c).calls topic = .returned ↔ s.calls topic = .returned := by
    intro topic
    by_cases htopic : topic = t
    · subst htopic
      simp [ht, hc]
    · simp [htopic]
  refine ⟨h.once, fun topic hsub => (hcalls topic).2 (h.returned topic hsub), h.flag, fun topic option hd => ?_,
    fun hp topic => (h.pending hp topic).imp_left (hcalls topic).trans, h.ranging,
    fun hp topic htopic => h.after hp topic ((hcalls topic).1 htopic)⟩
  by_cases htopic : topic = t
  · subst htopic
    exact hdirect option (by simpa using hd)
  · exact h.direct topic option (by simpa [htopic] using hd)

theorem calls_return {topic : String} :
    (s.setCall t .returned).calls topic = .returned ↔ topic = t ∨ s.calls topic = .returned := by
  by_cases htopic : topic = t
  · simp [htopic]
  · simp [htopic]

theorem calls_of_setCall {topic : String} {c : Call ρ} (hc : c ≠ .returned)
    (h : (s.setCall t .returned).calls topic = c) : s.calls topic = c := by
  by_cases htopic : topic = t
  · subst htopic
    simp [hc.symm] at h
  · simpa [htopic] using h

theorem inv_write_direct (h : Inv s) {option : ρ} (ht : s.calls t = .loaded true option) :
    Inv ({ s with server := (doRegisterSubscriber none s.server t).2, lock := none }.setCall t .returned) := by
  have hphase : s.phase = .returned := h.flag.1 (h.direct t option ht)
  have hnew : ¬ Subscribed s.server.broker t := by
    intro hsub
    rw [h.returned t hsub] at ht
    cases ht
  refine ⟨once_subscribe h.once hnew, fun topic hsub => ?_, h.flag, fun _ _ _ => h.direct t option ht, fun hp => ?_,
    fun r hr => ?_, fun _ topic htopic => ?_⟩
  · refine calls_return.2 ?_
    rcases (subscribed_subscribe t topic).1 hsub with hold | rfl
    · exact Or.inr (h.returned topic hold)
    · exact Or.inl rfl
  · simp [hphase, Phase.after] at hp
  · simp [hphase] at hr
  · refine (subscribed_subscribe t topic).2 ?_
    rcases calls_return.1 htopic with rfl | hold
    · exact Or.inr rfl
    · exact Or.inl (h.after (by rw [hphase]; rfl) topic hold)

@[simp] theorem after_stored (t : String) (p : Phase) : (p.stored t).after = p.after := by
  cases p <;> rfl

theorem visited_stored (t : String) (p : Phase) : (p.stored t).visited = p.visited := by
  cases p <;> rfl

theorem stored_eq_returned_iff (t : String) (p : Phase) : p.stored t = .returned ↔ p = .returned := by
  cases p <;> simp [Phase.stored]

/-- RegisterSubscriber that has found the server not started, before the end of the iteration -/
theorem inv_write_pending (h : Inv s) (t : String) (option : ρ) (hphase : s.phase.after = false) :
    Inv ({ s with
      server := { s.server with subscriberOpts := s.server.subscriberOpts.insert t option }
      phase := s.phase.stored t
      lock := none }.setCall t .returned) := by
  refine ⟨h.once, fun topic hsub => calls_return.2 (Or.inr (h.returned topic hsub)),
    h.flag.trans (stored_eq_returned_iff t s.phase).symm, fun topic o hd => ?_, fun _ topic => ?_, fun r hr topic => ?_,
    fun hp => ?_⟩
  · exact h.direct topic o (calls_of_setCall (by simp) hd)
  · obtain ⟨hreturned, hvisited⟩ := h.pending hphase topic
    refine ⟨?_, hvisited.trans (by rw [State.setCall, visited_stored])⟩
    rw [calls_return]
    exact (or_congr_right hreturned).trans (by simp)
  · cases hp : s.phase with
    | ranging r' =>
      have hr' : r'.stored t = r := by simpa [hp, Phase.stored] using hr
      subst hr'
      simp [Ranging.stored, h.ranging r' hp topic]
    | _ => simp [hp, Phase.stored] at hr
  · have hp : (s.phase.stored t).after := hp
    rw [after_stored, hphase] at hp
    cases hp

theorem inv_visit (h : Inv s) (t : String) : Inv (visit s t) := by
  unfold visit
  split
  next r hr =>
    refine guard_inv h fun ht => ?_
    obtain ⟨hpresent, hvisited⟩ := ht
    have hpending := h.pending (by rw [hr]; rfl)
    have hmem : ∀ topic, Subscribed s.server.broker topic ↔ topic ∈ r.visited := by
      simpa [hr] using fun topic => (hpending topic).2
    have hreturned : s.calls t = .returned := (hpending t).1.2 ((h.ranging r hr t).1 hpresent)
    have hnext : r.visit t = { r with visited := r.visited ++ [t] } := if_pos ⟨hpresent, hvisited⟩
    refine ⟨once_subscribe h.once (mt (hmem t).1 hvisited), fun topic hsub => ?_, h.flag.trans (by simp [hr]), h.direct,
      fun _ topic => ⟨(hpending topic).1, (subscribed_subscribe t topic).trans ?_⟩, fun r' hr' => ?_, nofun⟩
    · rcases (subscribed_subscribe t topic).1 hsub with hold | rfl
      · exact h.returned topic hold
      · exact hreturned
    · simp [hnext, hmem]
    · obtain rfl : r.visit t = r' := by simpa using hr'
      rw [hnext]
      exact h.ranging r hr
  next => exact h

theorem active_connect (topic : String) (id : ℕ) : Active (KafkaBroker.connect b).2 topic id ↔ Active b topic id := by
  unfold KafkaBroker.connect
  split_ifs <;> exact Iff.rfl

theorem Phase.before_after {p : Phase} (h : p.before) : p.after = false := by
  cases p <;> first | rfl | cases h

theorem Inv.early (h : Inv s) (hs : s.phase.before) {b : Broker}
    (hb : ∀ topic id, Active b topic id ↔ Active s.server.broker topic id) (e : Option GoError) {p : Phase}
    (hp : p.before) : Inv { s with server := { s.server with broker := b, err := e }, phase := p } := by
  have hsub : ∀ topic, Subscribed b topic ↔ Subscribed s.server.broker topic := fun topic => exists_congr (hb topic)
  have hnot : ∀ q : Phase, q.before → q ≠ .returned := by
    rintro q hq rfl
    cases hq
  have hnone : ∀ q : Phase, q.before → q.visited = [] := by
    rintro (_ | _) hq <;> first | rfl | cases hq
  refine ⟨fun topic id id' hid hid' => ?_, fun topic ht => h.returned topic ((hsub topic).1 ht), ?_, h.direct,
    fun _ topic => ?_, ?_, fun ha => ?_⟩
  · exact h.once topic id id' ((hb topic id).1 hid) ((hb topic id').1 hid')
  · exact iff_of_false (fun hf => hnot _ hs (h.flag.1 hf)) (hnot p hp)
  · rw [hsub, hnone p hp, ← hnone _ hs]
    exact h.pending (Phase.before_after hs) topic
  · rintro r rfl
    cases hp
  · rw [Phase.before_after hp] at ha
    cases ha

theorem inv_collect (h : Inv s) (hs : s.phase = .collect) :
    Inv { s with phase := .ranging (Ranging.start s.server.subscriberOpts.keys.toFinset) } := by
  have hpending := h.pending (by rw [hs]; rfl)
  rw [hs] at hpending
  refine { h with flag := h.flag.trans (by simp [hs]), pending := fun _ => hpending, ranging := ?_, after := nofun }
  intro r hr topic
  obtain rfl : Ranging.start s.server.subscriberOpts.keys.toFinset = r := by simpa using hr
  simp [Ranging.start, AList.mem_keys]

theorem Inv.late (h : Inv s) (hs : s.phase.after) {opts : AList fun _ : String => ρ} {started : Bool} {p : Phase}
    (hp : p.after) (hflag : started ↔ p = .returned) (hstarted : s.server.started → started) :
    Inv { s with server := { s.server with subscriberOpts := opts, started := started }, phase := p } := by
  refine ⟨h.once, h.returned, hflag, fun topic option hd => hstarted (h.direct topic option hd), fun ha => ?_, ?_,
    fun _ => h.after hs⟩
  · rw [hp] at ha
    cases ha
  · rintro r rfl
    cases hp

theorem inv_proceed (h : Inv s) : Inv (proceed s) := by
  unfold proceed
  split
  next hs =>
    have hbefore : s.phase.before := by rw [hs]; rfl
    split_ifs with herr hstarted
    · exact h.early hbefore (fun _ _ => Iff.rfl) s.server.err rfl
    · rw [h.flag, hs] at hstarted
      cases hstarted
    · exact h.early hbefore (fun _ _ => Iff.rfl) s.server.err rfl
  next hs =>
    have hbefore : s.phase.before := by rw [hs]; rfl
    have hactive := active_connect (b := s.server.broker)
    split
    next b hb =>
      rw [hb] at hactive
      exact h.early hbefore hactive s.server.err rfl
    next e b hb =>
      rw [hb] at hactive
      exact h.early hbefore hactive (some e) rfl
  next hs => exact inv_collect h hs
  next hs =>
    have hstarted : s.server.started ↔ Phase.store = .returned := h.flag.trans (by simp [hs])
    exact h.late (by rw [hs]; rfl) rfl hstarted id
  next hs => exact h.late (by rw [hs]; rfl) rfl (by simp) fun _ => rfl
  next => exact h
  next => exact h
  next => exact h

theorem inv_endRange (h : Inv s) (hc : Timely s .endRange) : Inv (endRange s) := by
  unfold endRange
  split
  next r hr =>
    refine guard_inv h fun hend => ?_
    refine { h with
      flag := h.flag.trans (by simp [hr])
      pending := nofun
      ranging := nofun
      after := fun _ topic ht => ?_ }
    obtain ⟨hreturned, hvisited⟩ := h.pending (by rw [hr]; rfl) topic
    rw [Timely, hr] at hc
    rw [hvisited, hr]
    exact of_decide_eq_true hc hend topic (hreturned.1 ht)
  next => exact h

theorem inv_acquire (h : Inv s) (t : String) : Inv (acquire s t) := by
  unfold acquire
  split
  next option ht =>
    refine guard_inv h fun _ => ?_
    exact Inv.setCall (s := { s with lock := some t }) { h with } (by simp [ht]) (by simp) fun o ho =>
      (Call.loaded.inj ho).1
  next => exact h

theorem inv_step {o : Op ρ} (h : Inv s) (hc : Timely s o) : Inv (step s o) := by
  cases o with
  | proceed => exact inv_proceed h
  | visit topic => exact inv_visit h topic
  | endRange => exact inv_endRange h hc
  | register topic option =>
    simp only [step]
    split
    next ht => exact h.setCall (by simp [ht]) (by simp) (by simp)
    next => exact h
  | acquire topic => exact inv_acquire h topic
  | write topic =>
    simp only [step, write]
    split
    next option ht => exact inv_write_direct h ht
    next option ht => exact inv_write_pending h topic option (hc (by rw [ht]; rfl))
    next => exact h

/-! ## What is lost -/

/-- an entry that the iteration has not come to, or one that is stored after it -/
theorem lost_of_not_timely {o : Op ρ} (h : Inv s) (hc : ¬ Timely s o) : Lost (step s o) := by
  cases o with
  | endRange =>
    cases hr : s.phase with
    | ranging r =>
      rw [Timely, hr] at hc
      simp only [Phase.complete, decide_eq_true_eq, not_forall] at hc
      obtain ⟨hend, topic, htopic, hvisited⟩ := hc
      have hnext : endRange s = { s with phase := .replace } := by simp [endRange, hr, hend]
      simp only [step, hnext]
      obtain ⟨hreturned, hsub⟩ := h.pending (by rw [hr]; rfl) topic
      rw [hr] at hsub
      exact ⟨rfl, topic, hreturned.2 htopic, mt hsub.1 hvisited⟩
    | _ => exact absurd (by rw [Timely, hr]; rfl) hc
  | write topic =>
    rw [Timely, Classical.not_imp] at hc
    obtain ⟨hstores, hafter⟩ := hc
    cases ht : s.calls topic with
    | loaded started option =>
      cases started with
      | true => simp [ht, Call.stores] at hstores
      | false =>
        simp only [step, write, ht]
        refine ⟨?_, topic, calls_return.2 (Or.inl rfl), fun hsub => ?_⟩
        · simpa using hafter
        · have hret := h.returned topic hsub
          rw [ht] at hret
          cases hret
    | _ => simp [ht, Call.stores] at hstores
  | _ => exact absurd trivial hc

theorem proceed_after (h : s.phase.after) :
    (proceed s).phase.after ∧ (proceed s).calls = s.calls ∧ (proceed s).server.broker = s.server.broker := by
  unfold proceed
  cases hs : s.phase with
  | replace | store => exact ⟨rfl, rfl, rfl⟩
  | returned => exact ⟨by rw [hs]; rfl, rfl, rfl⟩
  | _ => simp [hs, Phase.after] at h

/-- after the iteration nobody subscribes the topic of a call that has returned -/
theorem lost_step (h : Lost s) (o : Op ρ) : Lost (step s o) := by
  have ⟨hafter, t, ht, hsub⟩ := h
  have hset : ∀ (s' : State ρ) (topic : String) (c : Call ρ), s'.phase.after → s'.calls = s.calls →
      ¬ Subscribed s'.server.broker t → t ≠ topic → Lost (s'.setCall topic c) := by
    intro s' topic c hp hcalls hsub' hne
    exact ⟨hp, t, by simpa [hne, hcalls] using ht, hsub'⟩
  have hne : ∀ {topic c}, s.calls topic = c → c ≠ .returned → t ≠ topic := by
    rintro topic c hc hret rfl
    exact hret (hc.symm.trans ht)
  cases o with
  | proceed =>
    obtain ⟨hp, hcalls, hbroker⟩ := proceed_after hafter
    exact ⟨hp, t, by rw [step, hcalls, ht], by rw [step, hbroker]; exact hsub⟩
  | visit topic =>
    simp only [step, visit]
    split
    next r hr => simp [hr, Phase.after] at hafter
    next => exact h
  | endRange =>
    simp only [step, endRange]
    split
    next r hr => simp [hr, Phase.after] at hafter
    next => exact h
  | register topic option =>
    simp only [step]
    split
    next hc => exact hset s topic _ hafter rfl hsub (hne hc (by simp))
    next => exact h
  | acquire topic =>
    simp only [step, acquire]
    split
    next option hc =>
      exact guard_inv h fun _ => hset { s with lock := some topic } topic _ hafter rfl hsub (hne hc (by simp))
    next => exact h
  | write topic =>
    simp only [step, write]
    split
    next option hc =>
      have htopic := hne hc (by simp)
      refine hset _ topic _ hafter rfl ?_ htopic
      simpa [doRegisterSubscriber, subscribed_subscribe, htopic] using hsub
    next option hc =>
      refine hset _ topic _ ?_ rfl hsub (hne hc (by simp))
      rw [after_stored]
      exact hafter
    next => exact h

theorem Inv.registered (h : Inv s) (hret : Returned s) : Registered s := by
  intro topic htopic
  have hcall : s.calls topic = .returned := by
    rcases hret.2 topic with hc | hc
    · exact absurd hc htopic
    · exact hc
  obtain ⟨id, hid⟩ := h.after (by rw [hret.1]; rfl) topic hcall
  exact ⟨id, hid, fun id' hid' => h.once topic id' id hid' hid⟩

theorem Lost.not_registered (h : Lost s) : ¬ Registered s := by
  obtain ⟨-, topic, ht, hsub⟩ := h
  intro hreg
  obtain ⟨id, hid, -⟩ := hreg topic (by simp [ht])
  exact hsub ⟨id, hid⟩

end

/-- **When no registration is lost.** When Start and all registrations have returned: each topic has exactly one active
subscription, if and only if by the end of its iteration Start has come to every entry of `subscriberOpts`, and no
registration that has found the server not started stores its entry after that. -/
theorem registered_iff (addrs : List String) (ops : List (Op ρ)) (h : Returned (run step (initial addrs) ops)) :
    Registered (run step (initial addrs) ops) ↔ Along step Timely (initial addrs) ops :=
  last_iff_along (I := Inv) (D := Lost) (H := fun _ _ => True) (fun _ _ hi _ => inv_step hi)
    (fun _ _ hi _ => lost_of_not_timely hi) (fun _ o hl _ => lost_step hl o) (inv_initial addrs) (along_true ops)
    (fun hi => hi.registered h) fun hl => hl.not_registered

def Op.topic : Op ρ → Option String
  | .register topic _ | .acquire topic | .write topic => some topic
  | .proceed | .visit _ | .endRange => none

theorem calls_step {s : State ρ} {o : Op ρ} {topic : String} (h : o.topic ≠ some topic) :
    (step s o).calls topic = s.calls topic := by
  have hset : ∀ (s' : State ρ) (t : String) (c : Call ρ), some t ≠ some topic → s'.calls = s.calls →
      (s'.setCall t c).calls topic = s.calls topic := by
    intro s' t c ht hcalls
    have hne : topic ≠ t := fun he => ht (congrArg some he.symm)
    simp [hne, hcalls]
  cases o with
  | register t option =>
    simp only [step]
    split
    · exact hset s t _ h rfl
    · rfl
  | acquire t =>
    simp only [step, acquire]
    repeat' split
    · exact hset _ t _ h rfl
    all_goals rfl
  | write t =>
    simp only [step, write]
    split
    · exact hset _ t _ h rfl
    · exact hset _ t _ h rfl
    · rfl
  | _ =>
    simp only [step, proceed, visit, endRange]
    repeat' split
    all_goals rfl

theorem calls_run {topics : List String} {ops : List (Op ρ)} (h : ∀ o ∈ ops, ∀ t, o.topic = some t → t ∈ topics)
    {topic : String} (ht : topic ∉ topics) (s : State ρ) : (run step s ops).calls topic = s.calls topic := by
  induction ops generalizing s with
  | nil => rfl
  | cons o ops ih =>
    rw [run_cons, ih fun o' ho' => h o' (List.mem_cons_of_mem o ho')]
    exact calls_step fun he => ht (h o List.mem_cons_self topic he)

theorem returned_of_topics {addrs : List String} {ops : List (Op ρ)} (topics : List String)
    (h : ∀ o ∈ ops, ∀ t, o.topic = some t → t ∈ topics) (hphase : (run step (initial addrs) ops).phase = .returned)
    (hcalls : ∀ t ∈ topics, (run step (initial addrs) ops).calls t = .returned) :
    Returned (run step (initial addrs) ops) := by
  refine ⟨hphase, fun topic => ?_⟩
  by_cases ht : topic ∈ topics
  · exact Or.inr (hcalls topic ht)
  · exact Or.inl (calls_run h ht _)

def registers (topic : String) : List (Op Unit) := [.register topic (), .acquire topic, .write topic]

def begins : List (Op Unit) := [.proceed, .proceed, .proceed]

def finishes : List (Op Unit) := [.proceed, .proceed]

/-- "a" is registered before Start, "b" during the iteration, which comes to it, and "c" afterwards -/
def threeTopics : List (Op Unit) :=
  registers "a" ++ begins ++ [.visit "a"] ++ registers "b" ++ [.visit "b", .endRange] ++ finishes ++ registers "c"

theorem registered_three : Registered (run step (initial ["localhost:9092"]) threeTopics) := by
  refine (registered_iff _ threeTopics (returned_of_topics ["a", "b", "c"] ?_ rfl ?_)).2 ?_
  all_goals decide

/-- "b" finds the server not started, and stores its entry after the iteration -/
def late : List (Op Unit) :=
  registers "a" ++ begins ++ [.visit "a", .register "b" (), .acquire "b", .endRange] ++ finishes ++ [.write "b"]

/-- **A registration is lost.** The entry of "b" is stored in the new map, where nobody looks: RegisterSubscriber has
returned without an error, and "b" has no subscription. -/
theorem registration_lost :
    Returned (run step (initial ["localhost:9092"]) late) ∧
      ¬ Registered (run step (initial ["localhost:9092"]) late) := by
  refine ⟨returned_of_topics ["a", "b"] (by decide) rfl (by decide), fun h => ?_⟩
  obtain ⟨id, ⟨hid, htopic, -⟩, -⟩ := h "b" (by decide)
  have hnext : (run step (initial ["localhost:9092"]) late).server.broker.next = 1 := rfl
  obtain rfl : id = 0 := by omega
  exact absurd htopic (by decide)

end LuluExt.KafkaStart
