/-
Channels of the RabbitMQ connection: how Consume and the lazy initialisation of the publish channel set them up.

A channel is opened by `Channel()` and set up by calls that can fail one by one. On an error the functions return at
once and never close the channel. The publish channel is installed in `ExchangeChannel` before `Confirm` is called, so
after an error of `Confirm` it stays there, and the next Publish takes it for initialised: neither confirm mode nor the
handlers are ever set up on it.

What the server answers is an input of each operation. An error may leave the channel open, as that of an argument table
which the library refuses does, or closed, as an exception of the server does; a call on a closed channel fails. A
channel may also be closed at any time by the server, with its connection or by its holder, and `ExchangeChannel` is
reset whenever the connection is made anew or its loss is noticed. Operations are taken one after another. The lock
ensures this of the initialisations and the resets only: Publish reads `ExchangeChannel` after its release, and beside
the initialisation by another goroutine it can find a channel that is not set up yet, which is not modelled here.
-/
import LuluExt.Lib.Go
import LuluExt.Lib.Run

namespace LuluExt.Rabbitmq.Setup

open Run

/-! ## Calls on one channel -/

/-- an AMQP channel, with the handlers registered on it, and whether Consume has returned it -/
structure Channel where
  confirm : Bool
  notifyPublish : Bool
  notifyReturn : Bool
  returned : Bool
  closed : Bool
deriving DecidableEq, Repr

def Channel.opened : Channel := ⟨false, false, false, false, false⟩

/-- what a call comes to; an error may close the channel -/
inductive Reply where
  | ok
  | error (e : GoError) (closes : Bool)
deriving DecidableEq, Repr

abbrev Calls := ExceptT GoError (StateM Channel)

def errClosed : GoError := ⟨"Exception (504) Reason: \"channel/connection is not open\""⟩

def call (r : Reply) : Calls Unit := do
  if (← get).closed then throw errClosed
  match r with
  | .ok => pure ()
  | .error e closes =>
    modify fun c => { c with closed := closes }
    throw e

def connectChannel (qos : Reply) : Calls Unit := call qos

def setUpConsumer (qos declareExchange declareQueue consumeQueue bindQueue : Reply) : Calls Unit := do
  connectChannel qos
  call declareExchange
  call declareQueue
  call consumeQueue
  call bindQueue
  modify fun c => { c with returned := true }

/-- what `lazyInitPublishChannel` does with the channel that it has installed -/
def setUpPublisher (confirmMode : Bool) (confirm : Reply) : Calls Unit := do
  if confirmMode then
    call confirm
    modify fun c => { c with confirm := true }
    modify fun c => { c with notifyPublish := true }
  modify fun c => { c with notifyReturn := true }

/-- the calls on a channel `c`, with the error that they come to -/
def perform (m : Calls Unit) (c : Channel) : Option GoError × Channel :=
  match m.run.run c with
  | (.ok _, c) => (none, c)
  | (.error e, c) => (some e, c)

/-! ## The connection -/

structure RabbitConnection where
  confirmMode : Bool
  exchanges : List String
  defaultExchangeName : String
  channels : List Channel
  /-- the number of the channel in `ExchangeChannel` -/
  exchangeChannel : Option ℕ
  /-- the channels that messages were published on, as they were then -/
  published : List Channel

def newRabbitMQConnection (confirmMode : Bool) (exchanges : List String) (defaultExchangeName : String) :
    RabbitConnection :=
  ⟨confirmMode, exchanges, defaultExchangeName, [], none, []⟩

/-- the answers to an initialisation of the publish channel: the error of `Channel()`, if any, and the replies -/
structure Init where
  channel : Option GoError
  qos : Reply
  confirm : Reply
deriving DecidableEq, Repr

namespace RabbitConnection

def getExchange (s : RabbitConnection) (name : String) : Except GoError String :=
  let name := if name = "" then s.defaultExchangeName else name
  if name ∈ s.exchanges then .ok name else .error ⟨"exchange '" ++ name ++ "' not registered"⟩

def push (s : RabbitConnection) (c : Channel) : RabbitConnection := { s with channels := s.channels ++ [c] }

def consume (s : RabbitConnection) (exchangeName : String) (channel : Option GoError)
    (qos declareExchange declareQueue consumeQueue bindQueue : Reply) : Option GoError × RabbitConnection :=
  match s.getExchange exchangeName with
  | .error e => (some e, s)
  | .ok _ =>
    match channel with
    | some e => (some e, s)
    | none =>
      let (err, c) := perform (setUpConsumer qos declareExchange declareQueue consumeQueue bindQueue) .opened
      (err, s.push c)

/-- `ExchangeChannel` is assigned what `newRabbitChannel` returns, nil with an error, and not reset afterwards -/
def lazyInitPublishChannel (s : RabbitConnection) (init : Init) : Option GoError × RabbitConnection :=
  match s.exchangeChannel with
  | some _ => (none, s)
  | none =>
    match init.channel with
    | some e => (some e, s)
    | none =>
      match perform (connectChannel init.qos) .opened with
      | (some e, c) => (some e, s.push c)
      | (none, c) =>
        let (err, c) := perform (setUpPublisher s.confirmMode init.confirm) c
        (err, { s.push c with exchangeChannel := some s.channels.length })

/-- calls on `ExchangeChannel`, with the channel that they were made on; none without one, where the process panics -/
def onExchangeChannel (s : RabbitConnection) (m : Calls Unit) : Option (Option GoError × Channel × RabbitConnection) :=
  match s.exchangeChannel with
  | none => none
  | some i =>
    match s.channels[i]? with
    | none => none
    | some c => some ((perform m c).1, c, { s with channels := s.channels.modify i fun c => (perform m c).2 })

def declarePublishQueue (s : RabbitConnection) (exchangeName : String) (init : Init)
    (declareExchange declareQueue bindQueue : Reply) : RabbitConnection :=
  match s.lazyInitPublishChannel init with
  | (some _, s) => s
  | (none, s) =>
    match s.getExchange exchangeName with
    | .error _ => s
    | .ok _ =>
      match s.onExchangeChannel (do call declareExchange; call declareQueue; call bindQueue) with
      | none => s
      | some (_, _, s) => s

def publish (s : RabbitConnection) (init : Init) (reply : Reply) : RabbitConnection :=
  match s.lazyInitPublishChannel init with
  | (some _, s) => s
  | (none, s) =>
    match s.onExchangeChannel (call reply) with
    | none => s
    | some (some _, _, s) => s
    | some (none, c, s) => { s with published := s.published ++ [c] }

end RabbitConnection

inductive Op where
  | consume (exchangeName : String) (channel : Option GoError)
      (qos declareExchange declareQueue consumeQueue bindQueue : Reply)
  | declarePublishQueue (exchangeName : String) (init : Init) (declareExchange declareQueue bindQueue : Reply)
  | publish (init : Init) (reply : Reply)
  /-- a channel is closed: by the server, with its connection, or by whom Consume returned it to -/
  | closed (i : ℕ)
  /-- `r.ExchangeChannel = nil` of `connect` and of `reconnect` -/
  | reset
deriving DecidableEq, Repr

def step (s : RabbitConnection) : Op → RabbitConnection
  | .consume exchangeName channel qos declareExchange declareQueue consumeQueue bindQueue =>
    (s.consume exchangeName channel qos declareExchange declareQueue consumeQueue bindQueue).2
  | .declarePublishQueue exchangeName init declareExchange declareQueue bindQueue =>
    s.declarePublishQueue exchangeName init declareExchange declareQueue bindQueue
  | .publish init reply => s.publish init reply
  | .closed i => { s with channels := s.channels.modify i fun c => { c with closed := true } }
  | .reset => { s with exchangeChannel := none }

/-! ## What is required -/

def Channel.Confirms (c : Channel) : Prop := c.confirm = true ∧ c.notifyPublish = true

/-- the set-up for publishing is complete; handlers are registered on a channel that is installed, and on no other -/
def Channel.Complete (confirmMode : Bool) (c : Channel) : Prop :=
  (confirmMode = true → c.Confirms) ∧ c.notifyReturn = true

/-- returned, installed as fully set up, or closed -/
def Channel.Accounted (confirmMode : Bool) (c : Channel) : Prop :=
  c.returned = true ∨ c.Complete confirmMode ∨ c.closed = true

structure Good (s : RabbitConnection) : Prop where
  published : s.confirmMode = true → ∀ c ∈ s.published, c.Complete true
  accounted : ∀ c ∈ s.channels, c.Accounted s.confirmMode

/-- the first error of a sequence of calls, and whether it closes the channel -/
def firstError : List Reply → Option (GoError × Bool)
  | [] => none
  | .ok :: rs => firstError rs
  | .error e closes :: _ => some (e, closes)

/-- if a call fails, then with an error that closes the channel -/
def FailsClosed (rs : List Reply) : Prop := ∀ f ∈ firstError rs, f.2 = true

def publisherReplies (confirmMode : Bool) (init : Init) : List Reply :=
  init.qos :: if confirmMode then [init.confirm] else []

/-- an operation that opens a channel sets it up, or fails with an error that closes it -/
def Careful (s : RabbitConnection) : Op → Prop
  | .consume exchangeName channel qos declareExchange declareQueue consumeQueue bindQueue =>
    (s.getExchange exchangeName).isOk → channel = none →
      FailsClosed [qos, declareExchange, declareQueue, consumeQueue, bindQueue]
  | .declarePublishQueue _ init _ _ _ | .publish init _ =>
    s.exchangeChannel = none → init.channel = none → FailsClosed (publisherReplies s.confirmMode init)
  | .closed _ | .reset => True

/-! ## Set-ups -/

theorem perform_setUpConsumer (qos declareExchange declareQueue consumeQueue bindQueue : Reply) :
    perform (setUpConsumer qos declareExchange declareQueue consumeQueue bindQueue) .opened =
      match firstError [qos, declareExchange, declareQueue, consumeQueue, bindQueue] with
      | none => (none, { Channel.opened with returned := true })
      | some (e, closes) => (some e, { Channel.opened with closed := closes }) := by
  cases qos with
  | error e closes => rfl
  | ok =>
    cases declareExchange with
    | error e closes => rfl
    | ok =>
      cases declareQueue with
      | error e closes => rfl
      | ok =>
        cases consumeQueue with
        | error e closes => rfl
        | ok =>
          cases bindQueue with
          | error e closes | ok => rfl

section

variable {s : RabbitConnection} {c c' : Channel} {init : Init} {m : Calls Unit} {i : ℕ}

def completed (confirmMode : Bool) : Channel := ⟨confirmMode, confirmMode, true, false, false⟩

variable (confirmMode : Bool)

theorem complete_completed : (completed confirmMode).Complete confirmMode :=
  ⟨fun h => ⟨h, h⟩, rfl⟩

/-- an error leaves the channel as it was opened, or closed, and `ExchangeChannel` empty or with that channel in it -/
theorem lazyInit_opened (h : s.exchangeChannel = none) (hchan : init.channel = none) :
    (firstError (publisherReplies s.confirmMode init) = none ∧
      s.lazyInitPublishChannel init =
        (none, { s.push (completed s.confirmMode) with exchangeChannel := some s.channels.length })) ∨
    ∃ e closes installed, firstError (publisherReplies s.confirmMode init) = some (e, closes) ∧
      (installed = none ∨ installed = some s.channels.length) ∧
      s.lazyInitPublishChannel init =
        (some e, { s.push { Channel.opened with closed := closes } with exchangeChannel := installed }) := by
  obtain ⟨channel, qos, confirm⟩ := init
  obtain rfl : channel = none := hchan
  simp only [RabbitConnection.lazyInitPublishChannel, h]
  cases qos with
  | error e closes => exact .inr ⟨e, closes, none, rfl, .inl rfl, by rw [← h]; rfl⟩
  | ok =>
    cases s.confirmMode with
    | false => exact .inl ⟨rfl, rfl⟩
    | true =>
      cases confirm with
      | ok => exact .inl ⟨rfl, rfl⟩
      | error e closes => exact .inr ⟨e, closes, _, rfl, .inr rfl, rfl⟩

/-- leaves a channel as it is, except that it may close it -/
def OnlyCloses (f : Channel → Channel) : Prop :=
  ∀ c, ∃ closed, f c = { c with closed := closed } ∧ (c.closed = true → closed = true)

def after (m : Calls Unit) (c : Channel) : Channel := (perform m c).2

theorem onlyCloses_call (r : Reply) : OnlyCloses (after (call r)) := by
  rintro ⟨confirm, notifyPublish, notifyReturn, returned, closed⟩
  cases closed with
  | true => exact ⟨true, rfl, id⟩
  | false =>
    cases r with
    | ok => exact ⟨false, rfl, id⟩
    | error e closes => exact ⟨closes, rfl, nofun⟩

theorem perform_bind (m m' : Calls Unit) (c : Channel) :
    perform (m >>= fun _ => m') c =
      match perform m c with
      | (none, c) => perform m' c
      | (some e, c) => (some e, c) := by
  simp only [perform, ExceptT.run_bind, StateT.run_bind]
  obtain ⟨_ | _, c'⟩ := m.run.run c
  · rfl
  · rfl

theorem OnlyCloses.bind {m' : Calls Unit} (h : OnlyCloses (after m)) (h' : OnlyCloses (after m')) :
    OnlyCloses (after (m >>= fun _ => m')) := by
  intro c
  obtain ⟨closed, hc, hkeeps⟩ := h c
  simp only [after, perform_bind] at hc ⊢
  generalize perform m c = r at hc ⊢
  obtain ⟨_ | e, c₁⟩ := r
  · obtain rfl : c₁ = _ := hc
    obtain ⟨closed', hc', hkeeps'⟩ := h' { c with closed := closed }
    exact ⟨closed', hc', hkeeps' ∘ hkeeps⟩
  · exact ⟨closed, hc, hkeeps⟩

theorem open_of_call {r : Reply} (h : (perform (call r) c).1 = none) : c.closed = false := by
  cases hc : c.closed with
  | false => rfl
  | true =>
    have hfails : perform (call r) c = (some errClosed, c) := by
      obtain ⟨confirm, notifyPublish, notifyReturn, returned, closed⟩ := c
      obtain rfl : closed := hc
      rfl
    rw [hfails] at h
    cases h

/-! ## The invariant -/

/-- a channel that is installed is not one that Consume returned -/
structure Inv (s : RabbitConnection) : Prop extends Good s where
  installed : ∀ i, s.exchangeChannel = some i → ∃ c, s.channels[i]? = some c ∧ c.returned = false

theorem inv_new (exchanges : List String) (defaultExchangeName : String) :
    Inv (newRabbitMQConnection confirmMode exchanges defaultExchangeName) where
  published := nofun
  accounted := nofun
  installed := nofun

theorem accounted_closed {confirmMode closed : Bool} (h : c.Accounted confirmMode)
    (hkeeps : c.closed → closed) :
    ({ c with closed := closed } : Channel).Accounted confirmMode :=
  h.imp_right (Or.imp_right hkeeps)

theorem Inv.push (h : Inv s) (hc : c.Accounted s.confirmMode) : Inv (s.push c) where
  published := h.published
  accounted c' hc' := by
    rcases List.mem_append.1 hc' with hold | hnew
    · exact h.accounted c' hold
    · rwa [List.mem_singleton.1 hnew]
  installed i hi := by
    obtain ⟨c', hget, hreturned⟩ := h.installed i hi
    have hlt : i < s.channels.length := (List.getElem?_eq_some_iff.1 hget).1
    exact ⟨c', by rw [RabbitConnection.push, List.getElem?_append_left hlt, hget], hreturned⟩

theorem Inv.install (h : Inv s) (hc : c.Accounted s.confirmMode) (hreturned : c.returned = false) {installed : Option ℕ}
    (hi : installed = none ∨ installed = some s.channels.length) :
    Inv { s.push c with exchangeChannel := installed } where
  published := h.published
  accounted := (h.push hc).accounted
  installed i hget := by
    rcases hi with rfl | rfl
    · cases hget
    · obtain rfl : s.channels.length = i := Option.some.inj hget
      exact ⟨c, List.getElem?_concat_length, hreturned⟩

theorem Inv.modify (h : Inv s) {f : Channel → Channel} (hf : OnlyCloses f) (i : ℕ) :
    Inv { s with channels := s.channels.modify i f } where
  published := h.published
  accounted c hc := by
    obtain ⟨j, hj⟩ := List.mem_iff_getElem?.1 hc
    rw [List.getElem?_modify, Option.map_eq_map, Option.map_eq_some_iff] at hj
    obtain ⟨c₀, hget, rfl⟩ := hj
    have hc₀ := h.accounted c₀ (List.mem_of_getElem? hget)
    obtain ⟨closed, heq, hkeeps⟩ := hf c₀
    split
    · rw [heq]
      exact accounted_closed hc₀ hkeeps
    · exact hc₀
  installed j hj := by
    obtain ⟨c, hget, hreturned⟩ := h.installed j hj
    obtain ⟨closed, heq, -⟩ := hf c
    refine ⟨if i = j then f c else c, by rw [List.getElem?_modify, hget, Option.map_eq_map, Option.map_some], ?_⟩
    split
    · rw [heq]
      exact hreturned
    · exact hreturned

theorem Inv.onExchangeChannel (h : Inv s) (hm : OnlyCloses (after m)) {err : Option GoError} {s' : RabbitConnection}
    (hcalls : s.onExchangeChannel m = some (err, c, s')) :
    Inv s' ∧ s'.confirmMode = s.confirmMode ∧ c ∈ s.channels ∧ c.returned = false ∧ err = (perform m c).1 := by
  unfold RabbitConnection.onExchangeChannel at hcalls
  cases hi : s.exchangeChannel with
  | none => simp [hi] at hcalls
  | some i =>
    obtain ⟨c₀, hget, hreturned⟩ := h.installed i hi
    simp only [hi, hget] at hcalls
    obtain ⟨rfl, rfl, rfl⟩ := hcalls
    have hkept := h.modify hm i
    rw [hi] at hkept
    exact ⟨hkept, rfl, List.mem_of_getElem? hget, hreturned, rfl⟩

theorem accounted_failed (closes : Bool) :
    ({ Channel.opened with closed := closes } : Channel).Accounted confirmMode ↔ closes := by
  simp [Channel.Accounted, Channel.Complete, Channel.opened]

theorem Inv.lazyInit (h : Inv s) (hcareful : s.exchangeChannel = none → init.channel = none →
    FailsClosed (publisherReplies s.confirmMode init)) : Inv (s.lazyInitPublishChannel init).2 := by
  cases hi : s.exchangeChannel with
  | some i => simpa only [RabbitConnection.lazyInitPublishChannel, hi] using h
  | none =>
    cases hchan : init.channel with
    | some e => simpa only [RabbitConnection.lazyInitPublishChannel, hi, hchan] using h
    | none =>
      rcases lazyInit_opened hi hchan with ⟨-, heq⟩ | ⟨e, closes, installed, hfirst, hinstalled, heq⟩
      · rw [heq]
        exact h.install (.inr (.inl (complete_completed _))) rfl (.inr rfl)
      · have hcloses : closes := hcareful hi hchan _ hfirst
        rw [heq]
        exact h.install ((accounted_failed _ _).2 hcloses) rfl hinstalled

/-- a set-up that fails with the channel open leaves that channel behind, and an error -/
theorem lazyInit_leaves (hcareful : ¬ (s.exchangeChannel = none → init.channel = none →
    FailsClosed (publisherReplies s.confirmMode init))) :
    ∃ e s', s.lazyInitPublishChannel init = (some e, s') ∧ Channel.opened ∈ s'.channels := by
  simp only [Classical.not_imp] at hcareful
  obtain ⟨hi, hchan, hfails⟩ := hcareful
  rcases lazyInit_opened hi hchan with ⟨hfirst, -⟩ | ⟨e, closes, installed, hfirst, -, heq⟩
  · exact absurd (by simp [FailsClosed, hfirst]) hfails
  · obtain rfl : closes = false := by simpa [FailsClosed, hfirst] using hfails
    exact ⟨e, _, heq, List.mem_append_right _ (List.mem_singleton_self _)⟩

/-! ## Operations -/

variable {declareExchange declareQueue : Reply} {exchangeName : String}

theorem Inv.consume (h : Inv s) {channel : Option GoError} {qos consumeQueue bindQueue : Reply}
    (hcareful : Careful s (.consume exchangeName channel qos declareExchange declareQueue consumeQueue bindQueue)) :
    Inv (s.consume exchangeName channel qos declareExchange declareQueue consumeQueue bindQueue).2 := by
  unfold RabbitConnection.consume
  cases hex : s.getExchange exchangeName with
  | error e => exact h
  | ok ex =>
    cases channel with
    | some e => exact h
    | none =>
      have hfails := hcareful (by rw [hex]; rfl) rfl
      simp only [perform_setUpConsumer]
      cases hfirst : firstError [qos, declareExchange, declareQueue, consumeQueue, bindQueue] with
      | none => exact h.push (.inl rfl)
      | some f => exact h.push ((accounted_failed _ _).2 (hfails f hfirst))

theorem consume_leaves {channel : Option GoError} {qos consumeQueue bindQueue : Reply}
    (hcareful : ¬ Careful s (.consume exchangeName channel qos declareExchange declareQueue consumeQueue bindQueue)) :
    Channel.opened ∈
      (s.consume exchangeName channel qos declareExchange declareQueue consumeQueue bindQueue).2.channels := by
  simp only [Careful, Classical.not_imp] at hcareful
  obtain ⟨hex, rfl, hfails⟩ := hcareful
  unfold RabbitConnection.consume
  cases hget : s.getExchange exchangeName with
  | error e => simp [hget, Except.toBool] at hex
  | ok ex =>
    simp only [perform_setUpConsumer]
    cases hfirst : firstError [qos, declareExchange, declareQueue, consumeQueue, bindQueue] with
    | none => exact absurd (by simp [FailsClosed, hfirst]) hfails
    | some f =>
      obtain ⟨e, closes⟩ := f
      obtain rfl : closes = false := by simpa [FailsClosed, hfirst] using hfails
      exact List.mem_append_right _ (List.mem_singleton_self _)

theorem Inv.declarePublishQueue (h : Inv s) {bindQueue : Reply}
    (hcareful : Careful s (.declarePublishQueue exchangeName init declareExchange declareQueue bindQueue)) :
    Inv (s.declarePublishQueue exchangeName init declareExchange declareQueue bindQueue) := by
  have hinit := h.lazyInit hcareful
  unfold RabbitConnection.declarePublishQueue
  generalize s.lazyInitPublishChannel init = r at hinit ⊢
  obtain ⟨_ | e, s₁⟩ := r
  · dsimp only at hinit ⊢
    cases s₁.getExchange exchangeName with
    | error e => exact hinit
    | ok ex =>
      have hm : OnlyCloses (after (do call declareExchange; call declareQueue; call bindQueue)) :=
        (onlyCloses_call _).bind ((onlyCloses_call _).bind (onlyCloses_call _))
      cases hcalls : s₁.onExchangeChannel (do call declareExchange; call declareQueue; call bindQueue) with
      | none => exact hinit
      | some r => exact (hinit.onExchangeChannel hm hcalls).1
  · exact hinit

theorem Inv.publish (h : Inv s) {reply : Reply} (hcareful : Careful s (.publish init reply)) :
    Inv (s.publish init reply) := by
  have hinit := h.lazyInit hcareful
  unfold RabbitConnection.publish
  generalize s.lazyInitPublishChannel init = r at hinit ⊢
  obtain ⟨_ | e, s₁⟩ := r
  · dsimp only at hinit ⊢
    cases hcalls : s₁.onExchangeChannel (call reply) with
    | none => exact hinit
    | some r =>
      obtain ⟨err, c, s₂⟩ := r
      obtain ⟨hs₂, hmode, hmem, hreturned, herr⟩ := hinit.onExchangeChannel (onlyCloses_call reply) hcalls
      cases err with
      | some e => exact hs₂
      | none =>
        -- the channel is open, so its set-up is complete
        have hopen := open_of_call herr.symm
        have hcomplete : c.Complete s₁.confirmMode := by
          rcases hinit.accounted c hmem with hr | hc | hc
          · rw [hreturned] at hr; cases hr
          · exact hc
          · rw [hopen] at hc; cases hc
        refine ⟨⟨fun hconf c' hc' => ?_, hs₂.accounted⟩, hs₂.installed⟩
        rcases List.mem_append.1 hc' with hold | hnew
        · exact hs₂.published hconf c' hold
        · rw [List.mem_singleton.1 hnew]
          rwa [← hmode, show s₂.confirmMode from hconf] at hcomplete
  · exact hinit

theorem inv_step {op : Op} (h : Inv s) (hcareful : Careful s op) : Inv (step s op) := by
  cases op with
  | consume exchangeName channel qos declareExchange declareQueue consumeQueue bindQueue => exact h.consume hcareful
  | declarePublishQueue exchangeName init declareExchange declareQueue bindQueue => exact h.declarePublishQueue hcareful
  | publish init reply => exact h.publish hcareful
  | closed i => exact h.modify (fun c => ⟨true, rfl, fun _ => rfl⟩) i
  | reset => exact ⟨⟨h.published, h.accounted⟩, nofun⟩

theorem not_good {op : Op} (hcareful : ¬ Careful s op) : ¬ Good (step s op) := by
  suffices hleft : Channel.opened ∈ (step s op).channels from
    fun hgood => Bool.false_ne_true ((accounted_failed _ false).1 (hgood.accounted _ hleft))
  cases op with
  | consume exchangeName channel qos declareExchange declareQueue consumeQueue bindQueue =>
    exact consume_leaves hcareful
  | declarePublishQueue exchangeName init declareExchange declareQueue bindQueue =>
    obtain ⟨e, s', heq, hmem⟩ := lazyInit_leaves hcareful
    simpa only [step, RabbitConnection.declarePublishQueue, heq] using hmem
  | publish init reply =>
    obtain ⟨e, s', heq, hmem⟩ := lazyInit_leaves hcareful
    simpa only [step, RabbitConnection.publish, heq] using hmem
  | closed i | reset => exact absurd trivial hcareful

end

/-- **Set-up.** Messages are published with confirmations where they are asked for, and every channel is accounted for,
after each operation, if and only if every set-up that fails closes its channel. -/
theorem setup_iff (confirmMode : Bool) (exchanges : List String) (defaultExchangeName : String) (ops : List Op) :
    Always step Good (newRabbitMQConnection confirmMode exchanges defaultExchangeName) ops ↔
      Along step Careful (newRabbitMQConnection confirmMode exchanges defaultExchangeName) ops :=
  always_iff_along_of_inv (I := Inv) (fun _ h => h.toGood) (fun _ _ h hc => inv_step h hc) (fun _ _ _ hc => not_good hc)
    (inv_new _ _ _) ops

def refused : Reply := .error ⟨"unexpected command received"⟩ false

/-- `Confirm` fails, and the next message is published on the channel all the same -/
def unconfirmedOps : List Op :=
  [.publish ⟨none, .ok, refused⟩ .ok, .publish ⟨none, .ok, .ok⟩ .ok]

/-- after an error of `Confirm` a message is published without confirmations and without handlers; a queue that cannot
be declared leaves the channel of its consumer open -/
theorem unconfirmed :
    (run step (newRabbitMQConnection true ["amq.topic"] "amq.topic") unconfirmedOps).published = [.opened] ∧
    ¬ Always step Good (newRabbitMQConnection true ["amq.topic"] "amq.topic") unconfirmedOps ∧
    (run step (newRabbitMQConnection true ["amq.topic"] "amq.topic")
      [.consume "" none .ok .ok refused .ok .ok]).channels = [.opened] := by
  refine ⟨by decide, fun h => ?_, by decide⟩
  have hpublished := h.last.published rfl .opened (by decide)
  exact absurd hpublished.2 (by decide)

end LuluExt.Rabbitmq.Setup
