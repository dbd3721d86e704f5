/-
The streams of one ID: CreateStream, subscriptions that create their stream, disconnects and RemoveStream, interleaved.

`CreateStream` is a Get, the making of a stream whose loop runs at once, an Exist and a store, and the manager's mutex
is held in each of them by itself. A disconnect deregisters the subscriber, looks at the number of those that are left,
and then removes whatever stream has the ID. A step of a client is one section under the mutex, one operation on the
counter, or one exchange with the run loop. Streams are numbered as they are made; other IDs have entries and streams of
their own.

- `Linear`: every running stream is the registered one, or is still in the hands of the call that makes it.
-/
import LuluExt.Lib.Run

namespace LuluExt.Sse.Registry

open Run

variable {ι : Type} [DecidableEq ι]

structure Config where
  autoStream : Bool
  autoReplay : Bool
deriving DecidableEq, Repr

structure Stream (ι : Type) where
  /-- the quit channel is closed -/
  closed : Bool
  /-- the loop has taken quit -/
  exited : Bool
  subscriberCount : ℤ
  subscribers : List ι
deriving DecidableEq, Repr

/-- where a client is; `sub` tells a subscription from a call of `CreateStream` -/
inductive Pc where
  | idle
  | lookup
  /-- `CreateStream`, before its Get -/
  | get (sub : Bool)
  /-- Get has returned nil -/
  | create (sub : Bool)
  /-- in `Add`, before Exist -/
  | exist (sub : Bool) (x : ℕ)
  /-- in `Add`, before the mutex -/
  | store (sub : Bool) (x : ℕ)
  | returned (x : ℕ)
  /-- before addSubscriber -/
  | subscribe (x : ℕ)
  /-- counted, and offered on the register channel -/
  | register (x : ℕ)
  | serving (x : ℕ)
  /-- the context is done: offered on the deregister channel -/
  | closing (x : ℕ)
  /-- close has returned -/
  | counting (x : ℕ)
  | removing
  | done
deriving DecidableEq, Repr

structure Sys (ι : Type) where
  /-- the manager's entry for the ID -/
  registered : Option ℕ
  made : ℕ
  streams : ℕ → Stream ι
  pc : ι → Pc

def newStream : Stream ι := ⟨false, false, 0, []⟩

def start : Sys ι := ⟨none, 0, fun _ => newStream, fun _ => .idle⟩

inductive Op (ι : Type) where
  | callCreateStream (c : ι)
  | callServeHTTP (c : ι)
  | act (c : ι)
  | disconnect (c : ι)
  /-- the run loop takes a client from the register channel, or from the deregister channel -/
  | register (c : ι)
  | deregister (c : ι)
  | exit (x : ℕ)
  | removeStream
deriving DecidableEq, Repr

/-- a call has its stream: `CreateStream` returns it, `ServeHTTP` goes on with it -/
def hand (sub : Bool) (x : ℕ) : Pc := if sub then .subscribe x else .returned x

def Sys.setPc (s : Sys ι) (c : ι) (p : Pc) : Sys ι := { s with pc := Function.update s.pc c p }

def Sys.setStream (s : Sys ι) (x : ℕ) (t : Stream ι) : Sys ι := { s with streams := Function.update s.streams x t }

def Sys.removeWithID (s : Sys ι) : Sys ι :=
  match s.registered with
  | some x => { s.setStream x { s.streams x with closed := true } with registered := none }
  | none => s

/-- `createStream`: the loop runs from now on -/
def Sys.createStream (s : Sys ι) : Sys ι := { s.setStream s.made newStream with made := s.made + 1 }

def Sys.act (cfg : Config) (s : Sys ι) (c : ι) : Sys ι :=
  match s.pc c with
  | .lookup =>
    match s.registered with
    | some x => s.setPc c (.subscribe x)
    | none => s.setPc c (if cfg.autoStream then .get true else .done)
  | .get sub =>
    match s.registered with
    | some x => s.setPc c (hand sub x)
    | none => s.setPc c (.create sub)
  | .create sub => s.createStream.setPc c (.exist sub s.made)
  | .exist sub x =>
    match s.registered with
    | some _ => s.setPc c (hand sub x)
    | none => s.setPc c (.store sub x)
  | .store sub x => { s.setPc c (hand sub x) with registered := some x }
  | .subscribe x =>
    (s.setStream x { s.streams x with subscriberCount := (s.streams x).subscriberCount + 1 }).setPc c (.register x)
  | .counting x =>
    s.setPc c (if cfg.autoStream ∧ !cfg.autoReplay ∧ (s.streams x).subscriberCount = 0 then .removing else .done)
  | .removing => s.removeWithID.setPc c .done
  | _ => s

/-- `case subscriber := <-stream.deregister`, for a subscriber that is among those of the stream -/
def Stream.removeSubscriber (t : Stream ι) (c : ι) : Stream ι :=
  { t with subscriberCount := t.subscriberCount - 1, subscribers := t.subscribers.erase c }

def step (cfg : Config) (s : Sys ι) : Op ι → Sys ι
  | .callCreateStream c => if s.pc c = .idle then s.setPc c (.get false) else s
  | .callServeHTTP c => if s.pc c = .idle then s.setPc c .lookup else s
  | .act c => s.act cfg c
  | .disconnect c =>
    match s.pc c with
    | .serving x => s.setPc c (.closing x)
    | _ => s
  | .register c =>
    match s.pc c with
    | .register x =>
      if (s.streams x).exited then s
      else (s.setStream x { s.streams x with subscribers := (s.streams x).subscribers ++ [c] }).setPc c (.serving x)
    | _ => s
  | .deregister c =>
    match s.pc c with
    | .closing x =>
      if (s.streams x).exited then s
      else if c ∈ (s.streams x).subscribers then
        (s.setStream x ((s.streams x).removeSubscriber c)).setPc c (.counting x)
      -- nobody sends on `removed`
      else if cfg.autoStream then s
      else s.setPc c (.counting x)
    | _ => s
  | .exit x =>
    if (s.streams x).closed then
      s.setStream x { s.streams x with exited := true, subscriberCount := 0, subscribers := [] }
    else s
  | .removeStream => s.removeWithID

/-! ## What is asked of a run -/

/-- the stream that a call makes and has not registered yet -/
@[simp] def Pc.making : Pc → Option ℕ
  | .exist _ x | .store _ x => some x
  | _ => none

def Pc.handed : Pc → Option ℕ
  | .returned x | .subscribe x => some x
  | _ => none

/-- the stream a client is a subscriber of: it is counted there, and not yet taken out -/
@[simp] def Pc.subscribed : Pc → Option ℕ
  | .register x | .serving x | .closing x => some x
  | _ => none

/-- every running stream is the registered one, or is still in the hands of the call that makes it -/
def Linear (s : Sys ι) : Prop :=
  ∀ x < s.made, (s.streams x).closed = false → s.registered = some x ∨ ∃ c, (s.pc c).making = some x

/-- a call is handed the stream that is registered, and a removal on disconnect takes no stream with a subscriber -/
def Right (cfg : Config) (s : Sys ι) : Op ι → Prop
  | .act c =>
    ((s.pc c).handed = none → ∀ x, ((s.act cfg c).pc c).handed = some x → (s.act cfg c).registered = some x) ∧
    (s.pc c = .removing → ∀ x, s.registered = some x → ∀ c', (s.pc c').subscribed ≠ some x)
  | _ => True

/-- a call that has made a stream finds none registered in its next steps, and a removal on disconnect finds none with a
counter that is not zero -/
def Cautious (s : Sys ι) : Op ι → Prop
  | .act c =>
    ((s.pc c).making ≠ none → s.registered = none) ∧
    (s.pc c = .removing → ∀ x, s.registered = some x → (s.streams x).subscriberCount = 0)
  | _ => True

/-! ## What a step does -/

theorem setPc_pc (s : Sys ι) (c : ι) (p : Pc) (c' : ι) : (s.setPc c p).pc c' = if c' = c then p else s.pc c' :=
  Function.update_apply ..

omit [DecidableEq ι] in
theorem setStream_streams (s : Sys ι) (x : ℕ) (t : Stream ι) (y : ℕ) :
    (s.setStream x t).streams y = if y = x then t else s.streams y :=
  Function.update_apply ..

def Pc.stream : Pc → Option ℕ
  | .exist _ x | .store _ x | .returned x | .subscribe x | .register x | .serving x | .closing x | .counting x => some x
  | .idle | .lookup | .get _ | .create _ | .removing | .done => none

variable {x : ℕ} {p : Pc}

theorem stream_of_making (h : p.making = some x) : p.stream = some x := by
  cases p <;> simp_all [Pc.stream]

theorem stream_of_subscribed (h : p.subscribed = some x) : p.stream = some x := by
  cases p <;> simp_all [Pc.stream]

/-- a call that has seen no stream and has not registered its own yet -/
@[simp] def Pc.creating : Pc → Bool
  | .create _ | .exist _ _ | .store _ _ => true
  | _ => false

/-- a client goes on to another place, with the streams it had or the registered one -/
structure Goes (cfg : Config) (s : Sys ι) (c : ι) (p : Pc) : Prop where
  making : ∀ x, p.making = some x → (s.pc c).making = some x
  stream : ∀ x, p.stream = some x → (s.pc c).stream = some x ∨ s.registered = some x
  removing : p = .removing → cfg.autoStream = true ∧ cfg.autoReplay = false

/-- the steps that register no stream and let none get lost -/
inductive Calm (cfg : Config) (s : Sys ι) : Sys ι → Prop
  | same : Calm cfg s s
  | goes {c : ι} {p : Pc} (hp : Goes cfg s c p) (hmaking : p.making = (s.pc c).making)
      (hsub : cfg.autoStream = true → p.subscribed = (s.pc c).subscribed) : Calm cfg s (s.setPc c p)
  | create {c : ι} {sub : Bool} (hc : s.pc c = .create sub) :
      Calm cfg s (s.createStream.setPc c (.exist sub s.made))
  | subscribe {c : ι} {x : ℕ} (hc : s.pc c = .subscribe x) :
      Calm cfg s ((s.setStream x
        { s.streams x with subscriberCount := (s.streams x).subscriberCount + 1 }).setPc c (.register x))
  | register {c : ι} {x : ℕ} (hc : s.pc c = .register x) :
      Calm cfg s ((s.setStream x
        { s.streams x with subscribers := (s.streams x).subscribers ++ [c] }).setPc c (.serving x))
  | deregister {c : ι} {x : ℕ} (hc : s.pc c = .closing x) :
      Calm cfg s ((s.setStream x ((s.streams x).removeSubscriber c)).setPc c (.counting x))
  | exit {x : ℕ} (hx : (s.streams x).closed = true) :
      Calm cfg s (s.setStream x { s.streams x with exited := true, subscriberCount := 0, subscribers := [] })
  | remove : Calm cfg s s.removeWithID
  | autoRemove {c : ι} (hc : s.pc c = .removing) : Calm cfg s (s.removeWithID.setPc c .done)

/-- a calm step that hands out the registered stream only, and after which no more calls are without a stream -/
structure Quiet (cfg : Config) (s s' : Sys ι) : Prop where
  calm : Calm cfg s s'
  creating : ∀ c, (s'.pc c).creating = true → (s.pc c).creating = true
  registered : s.registered = none → s'.registered = none
  handed : ∀ c x, (s'.pc c).handed = some x → (s.pc c).handed = some x ∨ s'.registered = some x

/-- everything an operation can do -/
inductive Turn (cfg : Config) (s : Sys ι) : Op ι → Sys ι → Prop
  | quiet {op : Op ι} {s' : Sys ι} (h : Quiet cfg s s')
      (hmaking : ∀ c, op = .act c → (s.pc c).making ≠ none → s.registered = none) : Turn cfg s op s'
  | sees {c : ι} {sub : Bool} (hc : s.pc c = .get sub) (hnone : s.registered = none) :
      Turn cfg s (.act c) (s.setPc c (.create sub))
  /-- a call that has made a stream gives it back though another is registered by now -/
  | keeps {c : ι} {sub : Bool} {x y : ℕ} (hc : s.pc c = .exist sub x) (hy : s.registered = some y) :
      Turn cfg s (.act c) (s.setPc c (hand sub x))
  | stores {c : ι} {sub : Bool} {x : ℕ} (hc : s.pc c = .store sub x) :
      Turn cfg s (.act c) { s.setPc c (hand sub x) with registered := some x }

variable (sub : Bool)

theorem hand_stream (x : ℕ) : (hand sub x).stream = some x := by cases sub <;> rfl
theorem hand_making (x : ℕ) : (hand sub x).making = none := by cases sub <;> rfl
theorem hand_creating (x : ℕ) : (hand sub x).creating = false := by cases sub <;> rfl
theorem hand_subscribed (x : ℕ) : (hand sub x).subscribed = none := by cases sub <;> rfl
theorem hand_handed (x : ℕ) : (hand sub x).handed = some x := by cases sub <;> rfl
theorem hand_ne_removing (x : ℕ) : hand sub x ≠ .removing := by cases sub <;> simp [hand]

variable {s : Sys ι} {cfg : Config} {c : ι}

omit [DecidableEq ι] in
theorem goes_hand {sub : Bool} (hx : (s.pc c).stream = some x ∨ s.registered = some x) : Goes cfg s c (hand sub x) where
  making y hy := by
    rw [hand_making] at hy
    cases hy
  stream y hy := by
    rw [hand_stream] at hy
    exact Option.some.inj hy ▸ hx
  removing hr := absurd hr (hand_ne_removing sub x)

omit [DecidableEq ι] in
theorem removeWithID_pc (s : Sys ι) : s.removeWithID.pc = s.pc := by
  unfold Sys.removeWithID
  cases s.registered <;> rfl

omit [DecidableEq ι] in
theorem registered_removeWithID (s : Sys ι) : s.removeWithID.registered = none := by
  unfold Sys.removeWithID
  cases hr : s.registered with
  | none => exact hr
  | some x => rfl

theorem Quiet.same : Quiet cfg s s :=
  ⟨.same, fun _ h => h, id, fun _ _ h => .inl h⟩

theorem Quiet.setPc {s1 : Sys ι} (hcalm : Calm cfg s (s1.setPc c p))
    (hpc : s1.pc = s.pc) (hregistered : s.registered = none → s1.registered = none)
    (hcreating : p.creating → (s.pc c).creating)
    (hhanded : ∀ x, p.handed = some x → s1.registered = some x) : Quiet cfg s (s1.setPc c p) where
  calm := hcalm
  registered := hregistered
  creating := by
    intro c' hc'
    rw [setPc_pc, hpc] at hc'
    split_ifs at hc' with hcc
    · exact hcc ▸ hcreating hc'
    · exact hc'
  handed := by
    intro c' x hx
    rw [setPc_pc, hpc] at hx
    split_ifs at hx
    · exact .inr (hhanded x hx)
    · exact .inl hx

theorem Quiet.moves {q : Pc} (hc : s.pc c = q) (hmaking : p.making = q.making)
    (hcreating : p.creating = q.creating) (hsub : p.subscribed = q.subscribed)
    (hstream : ∀ x, p.stream = some x → q.stream = some x ∨ s.registered = some x)
    (hhanded : ∀ x, p.handed = some x → s.registered = some x)
    (hremoving : p = .removing → cfg.autoStream ∧ cfg.autoReplay = false) : Quiet cfg s (s.setPc c p) := by
  subst hc
  have hcalm : Calm cfg s (s.setPc c p) :=
    .goes ⟨fun x hx => hmaking ▸ hx, hstream, hremoving⟩ hmaking fun _ => hsub
  exact .setPc hcalm rfl id (fun hp => hcreating ▸ hp) hhanded

theorem Quiet.turn {s' : Sys ι} {op : Op ι} (h : Quiet cfg s s') (hop : ∀ c, op = .act c → (s.pc c).making = none) :
    Turn cfg s op s' :=
  .quiet h fun c hc hmaking => absurd (hop c hc) hmaking

theorem turn_act (cfg : Config) (s : Sys ι) (c : ι) : Turn cfg s (.act c) (s.act cfg c) := by
  -- a step of a client that is not making a stream
  have hquiet {s' : Sys ι} (hc : (s.pc c).making = none) (h : Quiet cfg s s') : Turn cfg s (.act c) s' := by
    refine h.turn ?_
    rintro c ⟨⟩
    exact hc
  unfold Sys.act
  cases hc : s.pc c with
  | lookup =>
    refine hquiet (by rw [hc]; rfl) ?_
    cases hr : s.registered with
    | some x => exact .moves hc rfl rfl rfl (by simp [Pc.stream, hr]) (by simp [Pc.handed, hr]) (by simp)
    | none =>
      cases hauto : cfg.autoStream <;>
        exact .moves hc rfl rfl rfl (by simp [Pc.stream]) (by simp [Pc.handed]) (by simp)
  | get sub =>
    cases hr : s.registered with
    | some x =>
      refine hquiet (by rw [hc]; rfl) (.moves hc (hand_making sub x) (hand_creating sub x) (hand_subscribed sub x) ?_ ?_
        fun h => absurd h (hand_ne_removing sub x))
      · simp [hand_stream, hr]
      · simp [hand_handed, hr]
    | none => exact .sees hc hr
  | create sub =>
    exact hquiet (by rw [hc]; rfl) (.setPc (.create hc) rfl id (by rw [hc]; exact id) (by simp [Pc.handed]))
  | exist sub x =>
    cases hr : s.registered with
    | some y => exact .keeps hc hr
    | none =>
      exact .quiet (.moves hc rfl rfl rfl (by simp [Pc.stream]) (by simp [Pc.handed]) (by simp)) fun _ _ _ => hr
  | store sub x => exact .stores hc
  | subscribe x => exact hquiet (by rw [hc]; rfl) (.setPc (.subscribe hc) rfl id (by simp) (by simp [Pc.handed]))
  | counting x =>
    refine hquiet (by rw [hc]; rfl) ?_
    dsimp only
    split_ifs with hzero
    · exact .moves hc rfl rfl rfl (by simp [Pc.stream]) (by simp [Pc.handed]) fun _ =>
        ⟨hzero.1, by simpa using hzero.2.1⟩
    · exact .moves hc rfl rfl rfl (by simp [Pc.stream]) (by simp [Pc.handed]) (by simp)
  | removing =>
    exact hquiet (by rw [hc]; rfl) (.setPc (.autoRemove hc) (removeWithID_pc s) (fun _ => registered_removeWithID s)
      (by simp) (by simp [Pc.handed]))
  | idle | returned | register | serving | closing | done => exact hquiet (by rw [hc]; rfl) .same

/-- **What an operation can do.** -/
theorem turn_step (cfg : Config) (s : Sys ι) (op : Op ι) : Turn cfg s op (step cfg s op) := by
  cases op with
  | callCreateStream c | callServeHTTP c =>
    refine Quiet.turn ?_ nofun
    simp only [step]
    split_ifs with hc
    · exact .moves hc rfl rfl rfl (by simp [Pc.stream]) (by simp [Pc.handed]) (by simp)
    · exact .same
  | act c => exact turn_act cfg s c
  | disconnect c =>
    refine Quiet.turn ?_ nofun
    simp only [step]
    split
    next x hc => exact .moves hc rfl rfl rfl (by simp [Pc.stream]) (by simp [Pc.handed]) (by simp)
    next => exact .same
  | register c =>
    refine Quiet.turn ?_ nofun
    simp only [step]
    split
    next x hc =>
      split_ifs
      · exact .same
      · exact .setPc (.register hc) rfl id (by simp) (by simp [Pc.handed])
    next => exact .same
  | deregister c =>
    refine Quiet.turn ?_ nofun
    simp only [step]
    split
    next x hc =>
      split_ifs with hexited hmem hauto
      · exact .same
      · exact .setPc (.deregister hc) rfl id (by simp) (by simp [Pc.handed])
      · exact .same
      · have hcalm : Calm cfg s (s.setPc c (.counting x)) :=
          .goes ⟨by simp, by simp [Pc.stream, hc], by simp⟩ (by rw [hc]; rfl) fun h => absurd h hauto
        exact .setPc hcalm rfl id (by simp) (by simp [Pc.handed])
    next => exact .same
  | exit x =>
    refine Quiet.turn ?_ nofun
    simp only [step]
    split_ifs with hx
    · exact ⟨.exit hx, fun _ h => h, id, fun _ _ h => .inl h⟩
    · exact .same
  | removeStream =>
    exact Quiet.turn ⟨.remove, fun c hc => removeWithID_pc s ▸ hc, fun _ => registered_removeWithID s,
      fun c x hx => .inl (removeWithID_pc s ▸ hx)⟩ nofun

theorem Turn.calm {s' : Sys ι} {op : Op ι} (h : Turn cfg s op s') (hop : ∀ c, op ≠ .act c) : Calm cfg s s' := by
  cases h with
  | quiet h => exact h.calm
  | sees | keeps | stores => exact absurd rfl (hop _)

/-! ## The invariant -/

structure Inv (cfg : Config) (s : Sys ι) : Prop where
  registered : ∀ x, s.registered = some x → x < s.made ∧ (s.streams x).closed = false
  exited : ∀ x, (s.streams x).exited = true → (s.streams x).closed = true
  known : ∀ c x, (s.pc c).stream = some x → x < s.made
  /-- a stream in the making runs, is not registered, and has one maker -/
  making : ∀ c x, (s.pc c).making = some x → (s.streams x).closed = false ∧ s.registered ≠ some x
  unique : ∀ c c' x, (s.pc c).making = some x → (s.pc c').making = some x → c = c'
  /-- the counter of a loop that has not exited is the number of its subscribers -/
  counted : cfg.autoStream = true → ∀ x < s.made, (s.streams x).exited = false →
    ∃ subs : Finset ι, (∀ c, c ∈ subs ↔ (s.pc c).subscribed = some x) ∧ (s.streams x).subscriberCount = subs.card
  removing : ∀ c, s.pc c = .removing → cfg.autoStream = true ∧ cfg.autoReplay = false

omit [DecidableEq ι] in
theorem inv_start (cfg : Config) : Inv cfg (start : Sys ι) where
  registered := by simp [start]
  exited := by simp [start, newStream]
  known := by simp [start, Pc.stream]
  making := by simp [start]
  unique := by simp [start]
  counted := by simp [start]
  removing := by simp [start]

/-- one client is at another place: the number of subscribers changes by its share -/
theorem counted_setPc {subs : Finset ι} (hsubs : ∀ c, c ∈ subs ↔ (s.pc c).subscribed = some x) (c : ι) (p : Pc) :
    ∃ subs' : Finset ι, (∀ c', c' ∈ subs' ↔ ((s.setPc c p).pc c').subscribed = some x) ∧
      (subs'.card : ℤ) + (if (s.pc c).subscribed = some x then 1 else 0) =
        subs.card + if p.subscribed = some x then 1 else 0 := by
  have herase : ((subs.erase c).card : ℤ) + (if (s.pc c).subscribed = some x then 1 else 0) = subs.card := by
    split_ifs with hc
    · exact_mod_cast Finset.card_erase_add_one ((hsubs c).2 hc)
    · rw [Finset.erase_eq_of_notMem (mt (hsubs c).1 hc), add_zero]
  by_cases hp : p.subscribed = some x
  · refine ⟨insert c (subs.erase c), fun c' => ?_, ?_⟩
    · rw [Finset.mem_insert, Finset.mem_erase, hsubs, setPc_pc]
      split_ifs with hc <;> simp [-Pc.subscribed, hc, hp]
    · rw [Finset.card_insert_of_notMem (Finset.notMem_erase c subs), if_pos hp, ← herase]
      push_cast
      ring
  · refine ⟨subs.erase c, fun c' => ?_, by rw [if_neg hp, add_zero, herase]⟩
    rw [Finset.mem_erase, hsubs, setPc_pc]
    split_ifs with hc <;> simp [-Pc.subscribed, hc, hp]

theorem inv_setPc (h : Inv cfg s) {streams : ℕ → Stream ι}
    (hstreams : ∀ x, (streams x).closed = (s.streams x).closed ∧ (streams x).exited = (s.streams x).exited)
    (hp : Goes cfg s c p)
    (hcount : cfg.autoStream → ∀ x,
      (streams x).subscriberCount + (if (s.pc c).subscribed = some x then 1 else 0) =
        (s.streams x).subscriberCount + if p.subscribed = some x then 1 else 0) :
    Inv cfg ({ s with streams := streams }.setPc c p) where
  registered x hx := ⟨(h.registered x hx).1, (hstreams x).1.trans (h.registered x hx).2⟩
  exited x hx := (hstreams x).1.trans (h.exited x ((hstreams x).2.symm.trans hx))
  known := by
    intro c' x hx
    rw [setPc_pc] at hx
    split_ifs at hx
    · rcases hp.stream x hx with hx | hx
      · exact h.known c x hx
      · exact (h.registered x hx).1
    · exact h.known c' x hx
  making := by
    intro c' x hx
    have hclosed := (hstreams x).1
    rw [setPc_pc] at hx
    split_ifs at hx
    · exact hclosed ▸ h.making c x (hp.making x hx)
    · exact hclosed ▸ h.making c' x hx
  unique := by
    have hold : ∀ c' x, (({ s with streams := streams }.setPc c p).pc c').making = some x →
        (s.pc c').making = some x := by
      intro c' x hx
      rw [setPc_pc] at hx
      split_ifs at hx with hc
      · exact hc ▸ hp.making x hx
      · exact hx
    intro c1 c2 x h1 h2
    exact h.unique c1 c2 x (hold c1 x h1) (hold c2 x h2)
  counted := by
    intro hauto x hx hexited
    obtain ⟨subs, hsubs, hcard⟩ := h.counted hauto x hx ((hstreams x).2.symm.trans hexited)
    obtain ⟨subs', hsubs', hcard'⟩ := counted_setPc hsubs c p
    have hsum := hcount hauto x
    exact ⟨subs', hsubs', show (streams x).subscriberCount = subs'.card by linarith⟩
  removing := by
    intro c' hc'
    rw [setPc_pc] at hc'
    split_ifs at hc'
    · exact hp.removing hc'
    · exact h.removing c' hc'

theorem inv_goes (h : Inv cfg s) (hp : Goes cfg s c p)
    (hsub : cfg.autoStream → p.subscribed = (s.pc c).subscribed) : Inv cfg (s.setPc c p) :=
  inv_setPc h (fun _ => ⟨rfl, rfl⟩) hp fun hauto x => by rw [hsub hauto]

/-- the loop takes a client from a channel, or a client is counted -/
theorem inv_setStream (h : Inv cfg s) {t : Stream ι} (hclosed : t.closed = (s.streams x).closed)
    (hexited : t.exited = (s.streams x).exited) (hp : Goes cfg s c p)
    (hother : ∀ y, x ≠ y → ((s.pc c).subscribed = some y ↔ p.subscribed = some y))
    (hcount : t.subscriberCount + (if (s.pc c).subscribed = some x then 1 else 0) =
      (s.streams x).subscriberCount + if p.subscribed = some x then 1 else 0) :
    Inv cfg ((s.setStream x t).setPc c p) := by
  refine inv_setPc h (fun y => ?_) hp fun _ y => ?_
  · rcases eq_or_ne y x with rfl | hyx
    · rw [Function.update_self]
      exact ⟨hclosed, hexited⟩
    · rw [Function.update_of_ne hyx]
      exact ⟨rfl, rfl⟩
  · rcases eq_or_ne y x with rfl | hyx
    · rw [Function.update_self]
      exact hcount
    · simp only [Function.update_of_ne hyx, hother y hyx.symm]

omit [DecidableEq ι] in
theorem inv_exit (h : Inv cfg s) (hx : (s.streams x).closed) :
    Inv cfg (s.setStream x { s.streams x with exited := true, subscriberCount := 0, subscribers := [] }) := by
  have hclosed : ∀ y, ((s.setStream x { s.streams x with
      exited := true, subscriberCount := 0, subscribers := [] }).streams y).closed = (s.streams y).closed := by
    intro y
    rw [setStream_streams]
    split_ifs with hyx
    · rw [hyx]
    · rfl
  refine ⟨fun y hy => ?_, fun y hy => ?_, h.known, fun c y hy => ?_, h.unique, fun hauto y hy hexited => ?_, h.removing⟩
  · rw [hclosed]
    exact h.registered y hy
  · rw [hclosed]
    rw [setStream_streams] at hy
    split_ifs at hy with hyx
    · exact hyx ▸ hx
    · exact h.exited y hy
  · rw [hclosed]
    exact h.making c y hy
  · rw [setStream_streams] at hexited ⊢
    split_ifs at hexited ⊢ with hyx
    exact h.counted hauto y hy hexited

omit [DecidableEq ι] in
theorem inv_remove (h : Inv cfg s) : Inv cfg s.removeWithID := by
  unfold Sys.removeWithID
  cases hr : s.registered with
  | none => exact h
  | some z =>
    have hother : ∀ y, y ≠ z → ((s.setStream z { s.streams z with closed := true }).streams y) = s.streams y := by
      intro y hy
      rw [setStream_streams, if_neg hy]
    refine ⟨by simp, fun y hy => ?_, h.known, fun c y hy => ?_, h.unique, fun hauto y hy hexited => ?_, h.removing⟩
    · rcases eq_or_ne y z with rfl | hyz
      · simp [Sys.setStream]
      · exact (hother y hyz).symm ▸ h.exited y ((hother y hyz) ▸ hy)
    · have hyz : y ≠ z := fun heq => (h.making c y hy).2 (heq ▸ hr)
      exact ⟨(hother y hyz).symm ▸ (h.making c y hy).1, by simp⟩
    · rcases eq_or_ne y z with rfl | hyz
      · have hold : (s.streams y).exited = false := by simpa [Sys.setStream] using hexited
        simpa [Sys.setStream] using h.counted hauto y hy hold
      · have hold : (s.streams y).exited = false := (hother y hyz) ▸ hexited
        exact (hother y hyz).symm ▸ h.counted hauto y hy hold

theorem inv_create (h : Inv cfg s) {sub : Bool} (hc : s.pc c = .create sub) :
    Inv cfg (s.createStream.setPc c (.exist sub s.made)) := by
  have hold : ∀ y, y ≠ s.made → (s.createStream.setPc c (.exist sub s.made)).streams y = s.streams y := fun y hy =>
    Function.update_of_ne hy _ _
  have hnew : (s.createStream.setPc c (.exist sub s.made)).streams s.made = newStream := Function.update_self ..
  -- nobody has to do with the new stream but its maker
  have hfresh : ∀ c', (s.pc c').stream ≠ some s.made := fun c' hx => (h.known c' s.made hx).false
  refine ⟨fun y hy => ?_, fun y hy => ?_, fun c' y hy => ?_, fun c' y hy => ?_, fun c1 c2 y h1 h2 => ?_,
    fun hauto y hy hexited => ?_, fun c' hc' => ?_⟩
  · obtain ⟨hlt, hclosed⟩ := h.registered y hy
    exact ⟨hlt.trans (Nat.lt_succ_self _), by rw [hold y hlt.ne, hclosed]⟩
  · rcases eq_or_ne y s.made with rfl | hne
    · rw [hnew] at hy
      cases hy
    · rw [hold y hne] at hy ⊢
      exact h.exited y hy
  · rw [setPc_pc] at hy
    split_ifs at hy
    · obtain rfl : s.made = y := Option.some.inj hy
      exact Nat.lt_succ_self _
    · exact (h.known c' y hy).trans (Nat.lt_succ_self _)
  · rw [setPc_pc] at hy
    split_ifs at hy
    · obtain rfl : s.made = y := Option.some.inj hy
      exact ⟨by rw [hnew]; rfl, fun hr => (h.registered s.made hr).1.false⟩
    · rw [hold y (h.known c' y (stream_of_making hy)).ne]
      exact h.making c' y hy
  · rw [setPc_pc] at h1 h2
    split_ifs at h1 h2 with e1 e2 e2
    · rw [e1, e2]
    · obtain rfl : s.made = y := Option.some.inj h1
      exact absurd (stream_of_making h2) (hfresh c2)
    · obtain rfl : s.made = y := Option.some.inj h2
      exact absurd (stream_of_making h1) (hfresh c1)
    · exact h.unique c1 c2 y h1 h2
  · rcases eq_or_ne y s.made with rfl | hne
    · refine ⟨∅, fun c' => ?_, by rw [hnew]; rfl⟩
      rw [setPc_pc]
      refine iff_of_false (Finset.notMem_empty c') fun hsub => ?_
      split_ifs at hsub
      · cases hsub
      · exact hfresh c' (stream_of_subscribed hsub)
    · rw [hold y hne] at hexited ⊢
      obtain ⟨subs, hsubs, hcount⟩ := h.counted hauto y (lt_of_le_of_ne (Nat.lt_succ_iff.1 hy) hne) hexited
      obtain ⟨subs', hsubs', hcard⟩ := counted_setPc hsubs c (.exist sub s.made)
      exact ⟨subs', hsubs', by simpa [hc, hcount] using hcard.symm⟩
  · rw [setPc_pc] at hc'
    split_ifs at hc'
    exact h.removing c' hc'

theorem inv_store (h : Inv cfg s) {sub : Bool} (hc : s.pc c = .store sub x) :
    Inv cfg { s.setPc c (hand sub x) with registered := some x } := by
  have hmine : (s.pc c).making = some x := by rw [hc]; rfl
  have hgoes : Inv cfg (s.setPc c (hand sub x)) :=
    inv_goes h (goes_hand (.inl (stream_of_making hmine))) fun _ => by rw [hc, hand_subscribed]; rfl
  refine ⟨fun y hy => ?_, hgoes.exited, hgoes.known, fun c' y hy => ⟨(hgoes.making c' y hy).1, ?_⟩, hgoes.unique,
    hgoes.counted, hgoes.removing⟩
  · obtain rfl : x = y := Option.some.inj hy
    exact ⟨h.known c x (stream_of_making hmine), (h.making c x hmine).1⟩
  · intro hxy
    obtain rfl : x = y := Option.some.inj hxy
    rw [setPc_pc] at hy
    split_ifs at hy with hcc
    · rw [hand_making] at hy
      cases hy
    · exact hcc (h.unique c' c x hy hmine)

theorem inv_calm {s' : Sys ι} (h : Inv cfg s) (hcalm : Calm cfg s s') : Inv cfg s' := by
  cases hcalm with
  | same => exact h
  | goes hp _ hsub => exact inv_goes h hp hsub
  | create hc => exact inv_create h hc
  | subscribe hc | register hc =>
    exact inv_setStream h rfl rfl ⟨by simp, by simp [Pc.stream, hc], by simp⟩ (by simp [hc]) (by simp [hc])
  | deregister hc =>
    exact inv_setStream h rfl rfl ⟨by simp, by simp [Pc.stream, hc], by simp⟩ (by simp [hc])
      (by simp [hc, Stream.removeSubscriber])
  | exit hx => exact inv_exit h hx
  | remove => exact inv_remove h
  | autoRemove hc =>
    exact inv_goes (inv_remove h) ⟨by simp, by simp [Pc.stream], by simp⟩
      fun _ => by rw [removeWithID_pc, hc]; rfl

theorem inv_turn {s' : Sys ι} {op : Op ι} (hturn : Turn cfg s op s') (h : Inv cfg s) : Inv cfg s' := by
  cases hturn with
  | quiet hquiet => exact inv_calm h hquiet.calm
  | sees hc => exact inv_goes h ⟨by simp, by simp [Pc.stream], by simp⟩ fun _ => by rw [hc]; rfl
  | @keeps c sub x y hc =>
    exact inv_goes h (goes_hand (.inl (by rw [hc]; rfl))) fun _ => by rw [hc, hand_subscribed]; rfl
  | stores hc => exact inv_store h hc

/-! ## Linearity -/

theorem making_setPc (hp : p.making = (s.pc c).making) (c' : ι) : ((s.setPc c p).pc c').making = (s.pc c').making := by
  rw [setPc_pc]
  split_ifs with hc
  · rw [hc, hp]
  · rfl

omit [DecidableEq ι] in
theorem linear_congr {s' : Sys ι} (hl : Linear s) (hmade : s'.made = s.made)
    (hregistered : s'.registered = s.registered) (hclosed : ∀ x, (s'.streams x).closed = (s.streams x).closed)
    (hmaking : ∀ c, (s'.pc c).making = (s.pc c).making) : Linear s' := by
  intro x hx hlive
  simp only [hregistered, hmaking]
  exact hl x (hmade ▸ hx) (hclosed x ▸ hlive)

omit [DecidableEq ι] in
theorem linear_remove (hl : Linear s) : Linear s.removeWithID := by
  unfold Sys.removeWithID
  cases hr : s.registered with
  | none => exact hl
  | some z =>
    intro x hx hlive
    rw [setStream_streams] at hlive
    split_ifs at hlive with hxz
    rcases hl x hx hlive with hold | hold
    · rw [hr] at hold
      exact absurd (Option.some.inj hold).symm hxz
    · exact .inr hold

theorem linear_create {sub : Bool} (hc : s.pc c = .create sub) (hl : Linear s) :
    Linear (s.createStream.setPc c (.exist sub s.made)) := by
  intro x hx hlive
  rcases eq_or_ne x s.made with rfl | hne
  · refine .inr ⟨c, ?_⟩
    rw [setPc_pc, if_pos rfl]
    rfl
  · have hold : (s.createStream.setPc c (.exist sub s.made)).streams x = s.streams x := Function.update_of_ne hne _ _
    rw [hold] at hlive
    rcases hl x (lt_of_le_of_ne (Nat.lt_succ_iff.1 hx) hne) hlive with hr | ⟨c', hc'⟩
    · exact .inl hr
    · refine .inr ⟨c', ?_⟩
      have hcc : c' ≠ c := by
        rintro rfl
        rw [hc] at hc'
        cases hc'
      rw [setPc_pc, if_neg hcc]
      exact hc'

omit [DecidableEq ι] in
theorem closed_setStream {t : Stream ι} (ht : t.closed = (s.streams x).closed) (y : ℕ) :
    ((s.setStream x t).streams y).closed = (s.streams y).closed := by
  rw [setStream_streams]
  split_ifs with hyx
  · rw [hyx, ht]
  · rfl

theorem linear_calm {s' : Sys ι} (hcalm : Calm cfg s s') (hl : Linear s) : Linear s' := by
  -- a client that has nothing to do with the making of streams goes on
  have hpc : ∀ {s : Sys ι} {c : ι} {p : Pc}, Linear s → p.making = (s.pc c).making → Linear (s.setPc c p) :=
    fun hl hp => linear_congr hl rfl rfl (fun _ => rfl) (making_setPc hp)
  have hstream : ∀ {x : ℕ} {t : Stream ι}, t.closed = (s.streams x).closed → Linear (s.setStream x t) :=
    fun ht => linear_congr hl rfl rfl (closed_setStream ht) fun _ => rfl
  cases hcalm with
  | same => exact hl
  | goes _ hmaking => exact hpc hl hmaking
  | create hc => exact linear_create hc hl
  | subscribe hc | register hc | deregister hc => exact hpc (hstream rfl) (congrArg Pc.making hc).symm
  | exit _ => exact hstream rfl
  | remove => exact linear_remove hl
  | autoRemove hc => exact hpc (linear_remove hl) (by rw [removeWithID_pc, hc]; rfl)

theorem not_linear_keeps (h : Inv cfg s) {sub : Bool} (hc : s.pc c = .exist sub x) :
    ¬ Linear (s.setPc c (hand sub x)) := by
  have hmine : (s.pc c).making = some x := by rw [hc]; rfl
  obtain ⟨hlive, hunregistered⟩ := h.making c x hmine
  intro hl
  rcases hl x (h.known c x (stream_of_making hmine)) hlive with hr | ⟨c', hc'⟩
  · exact hunregistered hr
  · rw [setPc_pc] at hc'
    split_ifs at hc' with hcc
    · rw [hand_making] at hc'
      cases hc'
    · exact hcc (h.unique c' c x hc' hmine)

theorem linear_store_iff (h : Inv cfg s) (hl : Linear s) {sub : Bool} (hc : s.pc c = .store sub x) :
    Linear { s.setPc c (hand sub x) with registered := some x } ↔ s.registered = none := by
  have hmine : (s.pc c).making = some x := by rw [hc]; rfl
  constructor
  · intro hl'
    rw [Option.eq_none_iff_forall_ne_some]
    intro y hy
    obtain ⟨hlt, hlive⟩ := h.registered y hy
    rcases hl' y hlt hlive with hr | ⟨c', hc'⟩
    · obtain rfl : x = y := Option.some.inj hr
      exact (h.making c x hmine).2 hy
    · rw [setPc_pc] at hc'
      split_ifs at hc'
      · rw [hand_making] at hc'
        cases hc'
      · exact (h.making c' y hc').2 hy
  · intro hnone y hlt hlive
    rcases hl y hlt hlive with hr | ⟨c', hc'⟩
    · rw [hnone] at hr
      cases hr
    · by_cases hcc : c' = c
      · rw [hcc, hmine] at hc'
        exact .inl hc'
      · refine .inr ⟨c', ?_⟩
        rw [setPc_pc, if_neg hcc]
        exact hc'

omit [DecidableEq ι] in
theorem count_zero_iff (h : Inv cfg s) (hauto : cfg.autoStream)
    (hx : s.registered = some x) : (∀ c, (s.pc c).subscribed ≠ some x) ↔ (s.streams x).subscriberCount = 0 := by
  obtain ⟨hlt, hlive⟩ := h.registered x hx
  have hexited : (s.streams x).exited = false := by
    rw [← Bool.not_eq_true]
    intro hexited
    rw [h.exited x hexited] at hlive
    cases hlive
  obtain ⟨subs, hsubs, hcount⟩ := h.counted hauto x hlt hexited
  rw [hcount, Nat.cast_eq_zero, Finset.card_eq_zero, Finset.eq_empty_iff_forall_notMem]
  exact forall_congr' fun c => not_congr (hsubs c).symm

/-- **One step.** Where every running stream is registered or in the making, a step keeps it so and is right in exactly
the cautious cases. -/
theorem act_iff (h : Inv cfg s) (hl : Linear s) (c : ι) :
    (Right cfg s (.act c) ∧ Linear (s.act cfg c)) ↔ Cautious s (.act c) := by
  have hturn := turn_act cfg s c
  simp only [Right, Cautious]
  generalize s.act cfg c = s' at hturn ⊢
  cases hturn with
  | quiet hquiet hmaking =>
    have hhanded (hnone : (s.pc c).handed = none) (x : ℕ) (hx : (s'.pc c).handed = some x) : s'.registered = some x :=
      (hquiet.handed c x hx).resolve_left (by simp [hnone])
    rw [and_iff_left (linear_calm hquiet.calm hl), and_iff_right hhanded, and_iff_right (hmaking c rfl)]
    refine forall_congr' fun hremoving => forall₂_congr fun x hx => ?_
    exact count_zero_iff h (h.removing c hremoving).1 hx
  | sees hc hnone =>
    refine iff_of_true ⟨⟨by simp [setPc_pc, Pc.handed], by simp [hc]⟩, ?_⟩ ⟨fun _ => hnone, by simp [hc]⟩
    exact linear_congr hl rfl rfl (fun _ => rfl) (making_setPc (by rw [hc]; rfl))
  | keeps hc hy =>
    exact iff_of_false (fun hright => not_linear_keeps h hc hright.2) fun hcautious => by simp [hc, hy] at hcautious
  | @stores _ sub x hc =>
    have hhanded : ((s.setPc c (hand sub x)).pc c).handed = some x := by rw [setPc_pc, if_pos rfl, hand_handed]
    simp [hc, linear_store_iff h hl hc, hhanded]

theorem step_iff (h : Inv cfg s) (hl : Linear s) (op : Op ι) :
    (Right cfg s op ∧ Linear (step cfg s op)) ↔ Cautious s op := by
  cases op with
  | act c => exact act_iff h hl c
  | callCreateStream | callServeHTTP | disconnect | register | deregister | exit | removeStream =>
    exact iff_of_true ⟨trivial, linear_calm ((turn_step cfg s _).calm (by simp)) hl⟩ trivial

omit [DecidableEq ι] in
theorem linear_start : Linear (start : Sys ι) := by simp [Linear, start]

/-! ## Calls apart -/

/-- a call sees no stream only while no other call is about to register one -/
def Apart (s : Sys ι) : Op ι → Prop
  | .act c => ∀ sub, s.pc c = .get sub → s.registered = none → ∀ c', (s.pc c').creating = false
  | _ => True

/-- one call at most is about to register a stream, and no stream is registered meanwhile -/
def Single (s : Sys ι) : Prop :=
  ∀ c, (s.pc c).creating = true → s.registered = none ∧ ∀ c', (s.pc c').creating = true → c' = c

theorem creating_of_making (h : p.making ≠ none) : p.creating := by
  cases p <;> simp_all

omit [DecidableEq ι] in
theorem single_of {s' : Sys ι} (h : Single s) (hcreating : ∀ c, (s'.pc c).creating → (s.pc c).creating)
    (hregistered : s.registered = none → s'.registered = none) : Single s' := by
  intro c hc
  obtain ⟨hnone, hunique⟩ := h c (hcreating c hc)
  exact ⟨hregistered hnone, fun c' hc' => hunique c' (hcreating c' hc')⟩

theorem single_turn {s' : Sys ι} {op : Op ι} (hturn : Turn cfg s op s') (h : Single s) (hapart : Apart s op) :
    Single s' := by
  cases hturn with
  | quiet hquiet => exact single_of h hquiet.creating hquiet.registered
  | @sees c sub hc hnone =>
    -- only this call is about to make a stream
    have honly : ∀ c', ((s.setPc c (.create sub)).pc c').creating → c' = c := by
      intro c' hc'
      by_contra hne
      rw [setPc_pc, if_neg hne, hapart sub hc hnone c'] at hc'
      cases hc'
    intro c0 hc0
    rw [honly c0 hc0]
    exact ⟨hnone, honly⟩
  | @keeps c sub x y hc hy =>
    have hnone := (h c (by rw [hc]; rfl)).1
    rw [hy] at hnone
    cases hnone
  | @stores c sub x hc =>
    -- it was the only one, and it is through
    intro c0 hc0
    exfalso
    rw [setPc_pc] at hc0
    split_ifs at hc0 with hcc
    · rw [hand_creating] at hc0
      cases hc0
    · exact hcc ((h c (by rw [hc]; rfl)).2 c0 hc0)

/-- without removals on disconnect, which take autoStream and no autoReplay, calls that do not overlap are cautious -/
theorem cautious_of_apart (hcfg : cfg.autoStream = false ∨ cfg.autoReplay) {ops : List (Op ι)}
    (hapart : Along (step cfg) Apart start ops) : Along (step cfg) Cautious start ops := by
  have hstart : Inv cfg (start : Sys ι) ∧ Single (start : Sys ι) :=
    ⟨inv_start cfg, by simp [Single, start]⟩
  refine along_of_along (I := fun s => Inv cfg s ∧ Single s) ?_ ?_ hstart hapart
  · intro s op h hop
    exact ⟨inv_turn (turn_step cfg s op) h.1, single_turn (turn_step cfg s op) h.2 hop⟩
  · intro s op h _
    cases op with
    | act c =>
      refine ⟨fun hmaking => (h.2 c (creating_of_making hmaking)).1, fun hremoving => ?_⟩
      obtain ⟨hauto, hreplay⟩ := h.1.removing c hremoving
      rcases hcfg with hoff | hon
      · rw [hauto] at hoff
        cases hoff
      · rw [hreplay] at hon
        cases hon
    | callCreateStream | callServeHTTP | disconnect | register | deregister | exit | removeStream => trivial

/-- a run in which every running stream is the registered one or in the making, every call is handed the stream that is
registered then, and no removal on disconnect takes a stream with a subscriber -/
def Sound (cfg : Config) (ops : List (Op ι)) : Prop :=
  Along (step cfg) (Right cfg) start ops ∧ Always (step cfg) Linear start ops

/-- **The registry.** Sound are exactly the runs of cautious steps; among them, where nothing is removed on disconnect,
those whose calls do not overlap while they make a stream. -/
theorem streams_linear_iff (cfg : Config) (ops : List (Op ι)) :
    (Sound cfg ops ↔ Along (step cfg) Cautious start ops) ∧
    (cfg.autoStream = false ∨ cfg.autoReplay = true → Along (step cfg) Apart start ops → Sound cfg ops) := by
  have hiff : Sound cfg ops ↔ Along (step cfg) Cautious start ops := by
    rw [Sound, always_iff_along_next, and_iff_right linear_start, ← along_and]
    refine along_iff_along (I := fun s => Inv cfg s ∧ Linear s) ?_ ?_ ⟨inv_start cfg, linear_start⟩ ops
    · intro s op h hcautious
      exact ⟨inv_turn (turn_step cfg s op) h.1, ((step_iff h.1 h.2 op).2 hcautious).2⟩
    · intro s op h
      exact step_iff h.1 h.2 op
  exact ⟨hiff, fun hcfg hapart => hiff.2 (cautious_of_apart hcfg hapart)⟩

/-- two calls of `CreateStream` that both see no stream, and store theirs one after the other -/
def twoCalls : List (Op ℕ) :=
  [.callCreateStream 0, .callCreateStream 1, .act 0, .act 1, .act 0, .act 1, .act 0, .act 1, .act 0, .act 1]

/-- a client subscribes and leaves; before it removes the stream it saw without subscribers, another one subscribes -/
def lateSubscription : List (Op ℕ) :=
  [.callServeHTTP 0, .act 0, .act 0, .act 0, .act 0, .act 0, .act 0, .register 0, .disconnect 0, .deregister 0, .act 0,
    .callServeHTTP 1, .act 1, .act 1, .register 1]

def afterCalls : Sys ℕ := run (step ⟨false, true⟩) start twoCalls

def beforeRemoval : Sys ℕ := run (step ⟨true, false⟩) start lateSubscription

/-- **Lost streams.** Two calls return streams that both run, and only one is registered. And a removal on disconnect
closes a stream with a subscriber. -/
theorem lost_streams :
    (afterCalls.pc 0 = .returned 0 ∧ afterCalls.pc 1 = .returned 1 ∧ (afterCalls.streams 0).closed = false ∧
      (afterCalls.streams 1).closed = false ∧ afterCalls.registered = some 1) ∧
    beforeRemoval.pc 0 = .removing ∧ beforeRemoval.pc 1 = .serving 0 ∧ beforeRemoval.registered = some 0 ∧
      (beforeRemoval.streams 0).subscribers = [1] ∧
      ((step ⟨true, false⟩ beforeRemoval (.act 0)).streams 0).closed = true := by
  decide +kernel

end LuluExt.Sse.Registry
