/-
The age of events: publishing, the run loops, the logs and the response loops of the subscribers, under one clock.

The response loop skips an event when the clock is past its timestamp by more than eventTTL. The timestamp is written in
one place, where the run loop logs an event, so only with autoReplay. Without it the timestamp of every event is the
zero time, and whatever the clock says by now is past it.

Instants are nanoseconds since the zero time, the first of January of the year 1. What happens when is put around the
model of the server: `published` has the instant of each event a stream has accepted, in their order.

- `Moved`: what a step of the server does to timestamps, queues and records.
-/
import LuluExt.Transport.Sse.Server
import LuluExt.Transport.Sse.Wire

namespace LuluExt.Sse.Ttl

open Run

/-- the server, the clock, the instants of the events a stream has accepted, and for each subscriber of a stream how
many events its handler has taken, whether it has returned, and what it has written -/
structure Timed where
  server : Server
  clock : ℕ
  published : ℕ → List ℕ
  taken : ℕ → ℕ → ℕ
  returned : ℕ → ℕ → Bool
  body : ℕ → ℕ → Bytes

inductive Op
  | tick (d : ℕ)
  | act (op : Sse.Op)
  /-- the handler of a subscriber takes the next event from its channel -/
  | read (i sub : ℕ)

/-- the run loop looks at the clock; the field for the timestamp is not exported: a caller's event has the zero time -/
def atInstant (now : ℕ) : Sse.Op → Sse.Op
  | .make e => .make { e with timestamp := 0 }
  | .take i _ => .take i now
  | op => op

def stamp (now : ℕ) (o : Outlet) (times : List ℕ) : List ℕ :=
  times ++ List.replicate (o.accepted.length - times.length) now

def Timed.next (s : Timed) (i sub : ℕ) : Option ℕ :=
  if s.returned i sub then none else ((s.server.outlets i).stream.connection sub)[s.taken i sub]?

def set {α : Type} (f : ℕ → ℕ → α) (i sub : ℕ) (v : α) : ℕ → ℕ → α :=
  Function.update f i (Function.update (f i) sub v)

section Step

variable (g : Generator) (cfg : Config) (opts : Options)

/-- what the handler writes for an event: nothing if the event ends the loop or has expired -/
def Timed.wrote (s : Timed) (ref : ℕ) : Bytes := serveEvents opts [(s.server.memory.event ref, s.clock)]

def step (s : Timed) : Op → Timed
  | .tick d => { s with clock := s.clock + d }
  | .act op =>
    let server := Sse.step g cfg s.server (atInstant s.clock op)
    { s with server, published := fun i => stamp s.clock (server.outlets i) (s.published i) }
  | .read i sub =>
    match s.next i sub with
    | none => s
    | some ref => { s with
        taken := set s.taken i sub (s.taken i sub + 1)
        returned := set s.returned i sub (s.server.memory.event ref).ends
        body := set s.body i sub (s.body i sub ++ s.wrote opts ref) }

def start (now : ℕ) : Timed := ⟨newServer cfg, now, fun _ => [], fun _ _ => 0, fun _ _ => false, fun _ _ => []⟩

end Step

/-! ## The age of an event -/

/-- the event was published to the stream at an instant, and its loop has processed it since -/
def Timed.PublishedAt (s : Timed) (i ref t : ℕ) : Prop :=
  ∃ (k : ℕ) (p : Processed),
    (s.server.outlets i).stream.history[k]? = some p ∧ p.ref = ref ∧ (s.published i)[k]? = some t

/-- an event with data that is taken before its time is over is written, and it is not written only after that -/
def Honoured (opts : Options) (s : Timed) : Op → Prop
  | .read i sub => ∀ ref, s.next i sub = some ref → (s.server.memory.event ref).data ≠ [] →
      ∀ t, s.PublishedAt i ref t →
        ((s.clock : ℤ) < t + opts.eventTTL → s.wrote opts ref = writeEvent opts (s.server.memory.event ref)) ∧
        (s.wrote opts ref = [] → (s.clock : ℤ) > t + opts.eventTTL)
  | .tick _ | .act _ => True

/-- no event with data is taken in time, once the clock is further from the zero time than eventTTL -/
def TooLate (opts : Options) (s : Timed) : Op → Prop
  | .read i sub => ∀ ref, s.next i sub = some ref → (s.server.memory.event ref).data ≠ [] →
      ∀ t, s.PublishedAt i ref t → opts.eventTTL < s.clock → (s.clock : ℤ) > t + opts.eventTTL
  | .tick _ | .act _ => True

variable (opts : Options) {ref : ℕ}

theorem wrote_eq (s : Timed) (hdata : (s.server.memory.event ref).data ≠ []) :
    s.wrote opts ref =
      if expired opts (s.server.memory.event ref) s.clock then [] else writeEvent opts (s.server.memory.event ref) := by
  have hends : (s.server.memory.event ref).ends = false := by simp [Event.ends, hdata]
  simp only [Timed.wrote, serveEvents, hends, Bool.false_eq_true, if_false, List.append_nil]

theorem writeEvent_ne_nil (e : Event) : writeEvent opts e ≠ [] := by simp [writeEvent]

theorem wrote_nil_iff (s : Timed) (hdata : (s.server.memory.event ref).data ≠ []) :
    s.wrote opts ref = [] ↔ expired opts (s.server.memory.event ref) s.clock := by
  rw [wrote_eq opts s hdata]
  split_ifs with hexpired
  · exact iff_of_true rfl hexpired
  · exact iff_of_false (writeEvent_ne_nil opts _) hexpired

theorem wrote_event_iff (s : Timed) (hdata : (s.server.memory.event ref).data ≠ []) :
    s.wrote opts ref = writeEvent opts (s.server.memory.event ref) ↔
      expired opts (s.server.memory.event ref) s.clock = false := by
  rw [wrote_eq opts s hdata]
  split_ifs with hexpired
  · exact iff_of_false (writeEvent_ne_nil opts _).symm (by simp [hexpired])
  · exact iff_of_true rfl (by simpa using hexpired)

/-! ## Steps of the server -/

/-- what a step leaves of the memory: timestamps are as they were or the present instant, the latter only with
autoReplay, and no event gets data -/
structure Touched (cfg : Config) (now : ℕ) (s : Server) (m : Memory) : Prop where
  stamped : ∀ ref < s.allocated,
    (m.event ref).timestamp = (s.memory.event ref).timestamp ∨ (m.event ref).timestamp = now
  bare : cfg.autoReplay = false → ∀ ref,
    (m.event ref).timestamp = (s.memory.event ref).timestamp ∨ (m.event ref).timestamp = 0
  data : ∀ ref < s.allocated, (s.memory.event ref).data = [] → (m.event ref).data = []

theorem Touched.refl (cfg : Config) (now : ℕ) (s : Server) : Touched cfg now s s.memory :=
  ⟨fun _ _ => .inl rfl, fun _ _ => .inl rfl, fun _ _ h => h⟩

theorem touched_process (cfg : Config) (now : ℕ) (s : Server) (ref : ℕ) :
    Touched cfg now s (process cfg s.memory ref) where
  stamped r _ := .inl (process_rest cfg s.memory ref r).2.1
  bare _ r := .inl (process_rest cfg s.memory ref r).2.1
  data := by
    intro r _ hnil
    by_cases hr : r = ref
    · subst hr
      rw [data_process, wire, hnil]
      split_ifs <;> simp
    · rw [process_of_ne cfg s.memory hr]
      exact hnil

variable {cfg : Config} (g : Generator)

theorem touched_assign (hreplay : cfg.autoReplay) (now : ℕ) (s : Server)
    (ref : ℕ) : Touched cfg now s (s.memory.assign g ref now) where
  stamped := by
    intro r _
    by_cases hr : r = ref
    · exact .inr (by simp [Memory.assign, hr])
    · exact .inl (by simp [Memory.assign, hr])
  bare hbare := by
    rw [hreplay] at hbare
    cases hbare
  data r _ hnil := by rw [(assign_payload g s.memory ref now r).1, hnil]

theorem touched_make (cfg : Config) (now : ℕ) (s : Server) {e : Event} (he : e.timestamp = 0) :
    Touched cfg now s { s.memory with event := Function.update s.memory.event s.allocated e } where
  stamped r hr := .inl (by simp [hr.ne])
  bare _ r := by
    by_cases hr : r = s.allocated
    · exact .inr (by simp [hr, he])
    · exact .inl (by simp [hr])
  data r hr hnil := by simpa [hr.ne] using hnil

/-- one more event may be accepted, and one may be processed: with autoReplay it has then the present instant -/
structure Grown (cfg : Config) (now : ℕ) (m : Memory) (o o' : Outlet) : Prop where
  accepted : o.accepted <+: o'.accepted
  history : o'.stream.history = o.stream.history ∨ ∃ p, o'.stream.history = o.stream.history ++ [p] ∧
    (cfg.autoReplay = true → (m.event p.ref).data ≠ [] → (m.event p.ref).timestamp = now)

theorem Grown.refl (cfg : Config) (now : ℕ) (m : Memory) (o : Outlet) : Grown cfg now m o o :=
  ⟨List.prefix_refl _, .inl rfl⟩

/-- what a step of the server does -/
structure Moved (cfg : Config) (now : ℕ) (s s' : Server) : Prop where
  memory : Touched cfg now s s'.memory
  outlets : ∀ i, Grown cfg now s'.memory (s.outlets i) (s'.outlets i)

/-- the streams follow the server's option, and what is not created yet has nothing -/
structure Settled (cfg : Config) (s : Server) : Prop where
  replay : ∀ i, (s.outlets i).stream.autoReplay = cfg.autoReplay
  listed : ∀ i, (s.outlets i).listed = true → i < s.created
  blank : ∀ i, s.created ≤ i → (s.outlets i).accepted = []

theorem newServer_settled (cfg : Config) : Settled cfg (newServer cfg) :=
  ⟨fun _ => rfl, by simp [newServer, newOutlet], by simp [newServer, newOutlet, Outlet.accepted, newStream]⟩

variable {s : Server}

theorem moved_setOutlet {now : ℕ} {m : Memory} (hm : Touched cfg now s m) {i : ℕ}
    {o : Outlet} (ho : Grown cfg now m (s.outlets i) o) : Moved cfg now s ({ s with memory := m }.setOutlet i o) where
  memory := hm
  outlets := forall_setOutlet (P := fun j => Grown cfg now m (s.outlets j)) ho fun j => .refl cfg now m (s.outlets j)

theorem settled_setOutlet (h : Settled cfg s) (m : Memory) {i : ℕ} {o : Outlet}
    (hreplay : o.stream.autoReplay = cfg.autoReplay) (hlisted : o.listed → i < s.created)
    (hblank : s.created ≤ i → o.accepted = []) : Settled cfg ({ s with memory := m }.setOutlet i o) where
  replay := forall_setOutlet (P := fun _ o => o.stream.autoReplay = cfg.autoReplay) hreplay h.replay
  listed := forall_setOutlet (P := fun j o => o.listed = true → j < s.created) hlisted h.listed
  blank := forall_setOutlet (P := fun j o => s.created ≤ j → o.accepted = []) hblank h.blank

theorem moved_feed (now : ℕ) (h : Settled cfg s) (i : ℕ) {input : Input} (hinput : ∀ ref now, input ≠ .event ref now) :
    Moved cfg now s (s.feed g i input) ∧ Settled cfg (s.feed g i input) := by
  have hq := turn_quiet g (s.memory, (s.outlets i).stream) hinput
  have haccepted : { s.outlets i with stream := (turn g (s.memory, (s.outlets i).stream) input).2 }.accepted =
      (s.outlets i).accepted := by rw [Outlet.accepted, hq.history, ← Outlet.accepted]
  constructor
  · refine moved_setOutlet (by rw [hq.memory]; exact .refl cfg now s) ⟨?_, .inl hq.history⟩
    rw [haccepted]
  · exact settled_setOutlet h _ (hq.autoReplay.trans (h.replay i)) (h.listed i) fun hi => haccepted.trans (h.blank i hi)

theorem moved_hand (now : ℕ) (h : Settled cfg s) {i : ℕ} (hr : s.reaches i ref) (sent : Bool) :
    Moved cfg now s (s.hand cfg i ref sent) ∧ Settled cfg (s.hand cfg i ref sent) := by
  have hi : i < s.created := h.listed i (Bool.and_eq_true_iff.1 hr).1
  have htouched := touched_process cfg now s ref
  cases sent with
  | false => exact ⟨⟨htouched, fun j => .refl cfg now _ _⟩, h.replay, h.listed, h.blank⟩
  | true =>
    refine ⟨moved_setOutlet htouched ⟨?_, .inl rfl⟩,
      settled_setOutlet h _ (h.replay i) (fun _ => hi) fun hle => absurd hi (not_lt.2 hle)⟩
    rw [Outlet.accepted, Outlet.accepted, ← List.append_assoc]
    exact List.prefix_append _ _

theorem moved_take (now : ℕ) (h : Settled cfg s) (i : ℕ) :
    Moved cfg now s (Sse.step g cfg s (.take i now)) ∧ Settled cfg (Sse.step g cfg s (.take i now)) := by
  have hsame : Moved cfg now s s ∧ Settled cfg s := ⟨⟨.refl cfg now s, fun j => .refl cfg now _ _⟩, h⟩
  cases hq : (s.outlets i).queue with
  | nil => simpa only [Sse.step, hq] using hsame
  | cons ref rest =>
    cases hrun : (s.outlets i).stream.running with
    | false => simpa only [Sse.step, hq, hrun, Bool.false_eq_true, if_false] using hsame
    | true =>
      rw [step_take g cfg hq hrun now]
      have hi : ¬ s.created ≤ i := fun hle => by simpa [hq] using h.blank i hle
      have hgrown : ∀ (m : Memory) (log : List ℕ) (p : Processed), p.ref = ref →
          (cfg.autoReplay → (m.event ref).data ≠ [] → (m.event ref).timestamp = now) →
          Grown cfg now m (s.outlets i)
            { s.outlets i with queue := rest, stream := { (s.outlets i).stream with eventLog := log }.send p } := by
        rintro m log p rfl hlogged
        refine ⟨?_, .inr ⟨p, rfl, hlogged⟩⟩
        simp [hq]
      cases hlogged : (s.outlets i).stream.autoReplay && (s.memory.event ref).hasContent with
      | false =>
        rw [onEvent_bare g hlogged]
        refine ⟨moved_setOutlet (.refl cfg now s) (hgrown s.memory _ _ rfl fun hreplay hdata => ?_),
          settled_setOutlet h _ (h.replay i) (h.listed i) fun hle => absurd hle hi⟩
        -- with autoReplay an event with data is logged
        rw [h.replay i, hreplay] at hlogged
        simp [Event.hasContent, hdata] at hlogged
      | true =>
        rw [onEvent_logged g hlogged]
        have hreplay : cfg.autoReplay := (h.replay i).symm.trans (Bool.and_eq_true_iff.1 hlogged).1
        refine ⟨moved_setOutlet (touched_assign g hreplay now s ref) (hgrown _ _ _ rfl fun _ _ => ?_),
          settled_setOutlet h _ (h.replay i) (h.listed i) fun hle => absurd hle hi⟩
        simp [Memory.assign]

theorem moved_create (now : ℕ) (h : Settled cfg s) :
    Moved cfg now s (Sse.step g cfg s .create) ∧ Settled cfg (Sse.step g cfg s .create) := by
  have hold : (s.outlets s.created).accepted = [] := h.blank s.created le_rfl
  have hgrown : Grown cfg now s.memory (s.outlets s.created) (newOutlet cfg true) := by
    refine ⟨by rw [hold]; exact List.nil_prefix, .inl ?_⟩
    have hhistory : (s.outlets s.created).stream.history = [] := by
      simpa using (List.append_eq_nil_iff.1 hold).1
    rw [hhistory]
    rfl
  have hmoved := moved_setOutlet (.refl cfg now s) hgrown
  refine ⟨⟨hmoved.memory, hmoved.outlets⟩, ?_, ?_, ?_⟩
  · exact forall_setOutlet (P := fun _ o => o.stream.autoReplay = cfg.autoReplay) rfl h.replay
  · intro j hj
    by_cases hc : j = s.created
    · exact hc ▸ Nat.lt_succ_self _
    · exact (h.listed j (by simpa [Sse.step, hc] using hj)).trans (Nat.lt_succ_self _)
  · intro j hj
    have hlt : s.created < j := hj
    simpa [Sse.step, hlt.ne'] using h.blank j hlt.le

theorem moved_step (now : ℕ) (h : Settled cfg s) (op : Sse.Op) :
    Moved cfg now s (Sse.step g cfg s (atInstant now op)) ∧ Settled cfg (Sse.step g cfg s (atInstant now op)) := by
  have hsame : Moved cfg now s s ∧ Settled cfg s := ⟨⟨.refl cfg now s, fun j => .refl cfg now _ _⟩, h⟩
  cases op with
  | create => exact moved_create g now h
  | remove i =>
    exact ⟨moved_setOutlet (.refl cfg now s) ⟨List.prefix_refl _, .inl rfl⟩,
      settled_setOutlet h _ (h.replay i) (by simp) (h.blank i)⟩
  | make e =>
    exact ⟨⟨touched_make cfg now s rfl, fun j => .refl cfg now _ _⟩, h.replay, h.listed, h.blank⟩
  | publish i ref sent | tryPublish i ref idle =>
    exact guard_inv (I := fun t => Moved cfg now s t ∧ Settled cfg t) hsame fun hr => moved_hand now h hr _
  | take i t => exact moved_take g now h i
  | register i eventId | deregister i sub => exact moved_feed g now h i (by simp)
  | stop i =>
    simp only [atInstant, Sse.step]
    split_ifs
    · exact hsame
    · exact moved_feed g now h i (by simp)

/-! ## The invariant -/

/-- with autoReplay no timestamp is before the instant at which its event was published, without it there are none -/
structure Inv (g : Generator) (cfg : Config) (s : Timed) : Prop where
  booked : Booked g cfg s.server
  settled : Settled cfg s.server
  aligned : ∀ i, (s.published i).length = (s.server.outlets i).accepted.length
  past : ∀ i, ∀ t ∈ s.published i, t ≤ s.clock
  stamped : cfg.autoReplay = true → ∀ i ref t, s.PublishedAt i ref t → (s.server.memory.event ref).data ≠ [] →
    t ≤ (s.server.memory.event ref).timestamp
  bare : cfg.autoReplay = false → ∀ ref, (s.server.memory.event ref).timestamp = 0

theorem inv_start (cfg : Config) (now : ℕ) : Inv g cfg (start cfg now) where
  booked := newServer_booked g cfg
  settled := newServer_settled cfg
  aligned := by simp [start, newServer, newOutlet, Outlet.accepted, newStream]
  past := by simp [start]
  stamped := by simp [Timed.PublishedAt, start]
  bare _ _ := rfl

theorem mem_stamp {now : ℕ} {o : Outlet} {times : List ℕ} {t : ℕ} (h : t ∈ stamp now o times) :
    t ∈ times ∨ t = now := by
  rcases List.mem_append.1 h with ht | ht
  · exact .inl ht
  · exact .inr (List.eq_of_mem_replicate ht)

theorem ref_known {g : Generator} (h : Booked g cfg s) {i : ℕ} {p : Processed}
    (hp : p ∈ (s.outlets i).stream.history) : p.ref < s.allocated :=
  h.known i p.ref (List.mem_append_left _ (List.mem_map_of_mem hp))

theorem stamp_old {now : ℕ} {o o' : Outlet} {times : List ℕ} (haligned : times.length = o.accepted.length) {k : ℕ}
    {p : Processed} (hp : o.stream.history[k]? = some p) : (stamp now o' times)[k]? = times[k]? := by
  have hk : k < o.stream.history.length := (List.getElem?_eq_some_iff.1 hp).1
  refine List.getElem?_append_left ?_
  rw [haligned, Outlet.accepted, List.length_append, List.length_map]
  omega

theorem inv_act {g : Generator} {s : Timed} (h : Inv g cfg s) (op : Sse.Op) :
    Inv g cfg (step g cfg opts s (.act op)) := by
  obtain ⟨hmoved, hsettled⟩ := moved_step g s.clock h.settled op
  have hpast : ∀ i, ∀ t ∈ (step g cfg opts s (.act op)).published i, t ≤ s.clock := by
    intro i t ht
    rcases mem_stamp ht with ht | rfl
    · exact h.past i t ht
    · exact le_rfl
  refine ⟨booked_step h.booked _, hsettled, fun i => ?_, hpast, fun hreplay i ref t hat hdata => ?_,
    fun hbare ref => ?_⟩
  · have hle := (hmoved.outlets i).accepted.length_le
    have haligned := h.aligned i
    simp only [step, stamp, List.length_append, List.length_replicate]
    omega
  · obtain ⟨k, p, hp, rfl, ht⟩ := hat
    have hnow : t ≤ s.clock := hpast i t (List.mem_of_getElem? ht)
    have hold : (s.server.outlets i).stream.history[k]? = some p →
        t ≤ ((Sse.step g cfg s.server (atInstant s.clock op)).memory.event p.ref).timestamp := by
      intro hentry
      have hknown : p.ref < s.server.allocated := ref_known h.booked (List.mem_of_getElem? hentry)
      have ht : (s.published i)[k]? = some t := (stamp_old (h.aligned i) hentry).symm.trans ht
      rcases hmoved.memory.stamped p.ref hknown with heq | heq
      · rw [heq]
        exact h.stamped hreplay i p.ref t ⟨k, p, hentry, rfl, ht⟩ fun hnil =>
          hdata (hmoved.memory.data p.ref hknown hnil)
      · rw [heq]
        exact hnow
    rcases (hmoved.outlets i).history with hsame | ⟨q, hq, hlogged⟩
    · exact hold (hsame ▸ hp)
    · -- the entry is an old one, or the one of the event that was logged in this step
      simp only [step, hq] at hp
      rcases lt_or_ge k (s.server.outlets i).stream.history.length with hk | hk
      · rw [List.getElem?_append_left hk] at hp
        exact hold hp
      · obtain rfl : p = q := by
          rw [List.getElem?_append_right hk] at hp
          simpa using List.mem_of_getElem? hp
        exact hnow.trans (hlogged hreplay hdata).ge
  · rcases hmoved.memory.bare hbare ref with heq | heq
    · exact heq.trans (h.bare hbare ref)
    · exact heq

theorem inv_step {g : Generator} {s : Timed} (h : Inv g cfg s) (op : Op) : Inv g cfg (step g cfg opts s op) := by
  cases op with
  | tick d => exact { h with past := fun i t ht => (h.past i t ht).trans (Nat.le_add_right _ _) }
  | act op => exact inv_act opts h op
  | read i sub =>
    simp only [step]
    split
    · exact h
    · exact { h with }

/-! ## Delivery in time -/

theorem expired_iff {opts : Options} (hopts : 0 < opts.eventTTL) (e : Event) (now : ℕ) :
    expired opts e now ↔ (now : ℤ) > e.timestamp + opts.eventTTL := by
  simp [expired, hopts.ne']

theorem honoured_replay {g : Generator} (hreplay : cfg.autoReplay) {opts : Options}
    (hopts : 0 < opts.eventTTL) {s : Timed} (h : Inv g cfg s) (op : Op) : Honoured opts s op := by
  cases op with
  | tick d | act op => trivial
  | read i sub =>
    intro ref _ hdata t hat
    have hle := h.stamped hreplay i ref t hat hdata
    rw [wrote_event_iff opts s hdata, wrote_nil_iff opts s hdata, ← Bool.not_eq_true, expired_iff hopts]
    omega

theorem honoured_bare_iff {g : Generator} (hbare : cfg.autoReplay = false) {opts : Options}
    (hopts : 0 < opts.eventTTL) {s : Timed} (h : Inv g cfg s) (op : Op) : Honoured opts s op ↔ TooLate opts s op := by
  cases op with
  | tick d | act op => exact Iff.rfl
  | read i sub =>
    refine forall_congr' fun ref => forall_congr' fun _ => forall_congr' fun hdata => forall₂_congr fun t _ => ?_
    rw [wrote_event_iff opts s hdata, wrote_nil_iff opts s hdata, ← Bool.not_eq_true, expired_iff hopts,
      h.bare hbare ref]
    omega

/-- **Event TTL.** Handlers write the events that are younger than eventTTL when they take them, and drop only older
ones, exactly with autoReplay or when no event is taken before it is too old. -/
theorem ttl_iff (g : Generator) (cfg : Config) (opts : Options) (hopts : 0 < opts.eventTTL) (now : ℕ) (ops : List Op) :
    Along (step g cfg opts) (Honoured opts) (start cfg now) ops ↔
      cfg.autoReplay = true ∨ Along (step g cfg opts) (TooLate opts) (start cfg now) ops := by
  have hstart := inv_start g cfg now
  have hinv : ∀ s op, Inv g cfg s → True → Inv g cfg (step g cfg opts s op) := fun s op h _ => inv_step opts h op
  cases hreplay : cfg.autoReplay with
  | true =>
    refine iff_of_true ?_ (.inl rfl)
    exact along_of_along hinv (fun s op h _ => honoured_replay hreplay hopts h op) hstart (along_true ops)
  | false =>
    rw [or_iff_right Bool.false_ne_true]
    exact along_congr hinv (fun s op h _ => honoured_bare_iff hreplay hopts h op) hstart (along_true ops)

def second : ℕ := 1000000000

/-- one letter is published to a stream with one subscriber, who takes it a second later -/
def deliver : List Op :=
  [.act .create, .act (.register 0 []), .act (.make letterA), .act (.publish 0 0 true), .act (.take 0 0), .tick second,
    .read 0 0]

def minute : Options := ⟨false, 60 * second⟩

/-- the year 2000 -/
def present : ℕ := 730119 * 86400 * second

theorem ttl_replay :
    Along (step counting ⟨false, true, 1⟩ minute) (Honoured minute) (start ⟨false, true, 1⟩ present) deliver :=
  (ttl_iff counting ⟨false, true, 1⟩ minute (by decide) present deliver).2 (.inl rfl)

/-- **A young event is dropped.** Without autoReplay the subscriber takes an event one second after it was published and
writes nothing, with eventTTL a minute. -/
theorem dropped_young :
    let s := run (step counting ⟨false, false, 1⟩ minute) (start ⟨false, false, 1⟩ present) deliver.dropLast
    s.next 0 0 = some 0 ∧ (s.server.memory.event 0).data = [97] ∧ s.published 0 = [present] ∧
      s.clock = present + second ∧ s.wrote minute 0 = [] ∧
      (step counting ⟨false, false, 1⟩ minute s (.read 0 0)).body 0 0 = [] := by
  decide +kernel

end LuluExt.Sse.Ttl
