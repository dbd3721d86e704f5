/-
The publishing side of the server: any number of streams that share the events handed to them.

Publish, TryPublish and Notify hand a pointer to the queue of a stream. Before that `process` encodes the data in place
when base64 is on, also when the event is then not taken; and the loop of every stream that logs the event overwrites
its ID and timestamp in place. So one stream's view of an event depends on what happened to it elsewhere.
-/
import LuluExt.Transport.Sse.Stream

namespace LuluExt.Sse

open Run

structure Config where
  encodeBase64 : Bool
  autoReplay : Bool
  bufferSize : ℕ
deriving DecidableEq, Repr

/-- a stream with its event channel: what is in the buffer, and behind it what senders are waiting with -/
structure Outlet where
  stream : Stream
  queue : List ℕ
  /-- in the manager's map -/
  listed : Bool

/-- `origin` is the data an event was made with: a record of the run -/
structure Server where
  memory : Memory
  allocated : ℕ
  origin : ℕ → Bytes
  outlets : ℕ → Outlet
  created : ℕ

def newOutlet (cfg : Config) (listed : Bool) : Outlet := ⟨newStream cfg.autoReplay, [], listed⟩

def newServer (cfg : Config) : Server := ⟨⟨fun _ => .empty, 0⟩, 0, fun _ => [], fun _ => newOutlet cfg false, 0⟩

/-- all events a stream has taken, those in its queue last -/
@[simp] def Outlet.accepted (o : Outlet) : List ℕ := o.stream.history.map Processed.ref ++ o.queue

inductive Op
  | create
  | remove (i : ℕ)
  /-- a caller's event, or the one of `PublishData` -/
  | make (e : Event)
  /-- `Publish`, and `Notify` for each stream: sent, or given up because the stream quits -/
  | publish (i ref : ℕ) (sent : Bool)
  /-- `TryPublish`, while the loop of the stream is waiting for an input or not -/
  | tryPublish (i ref : ℕ) (idle : Bool)
  | take (i now : ℕ)
  | register (i : ℕ) (eventId : Bytes)
  | deregister (i sub : ℕ)
  | stop (i : ℕ)

section Step

variable (g : Generator) (cfg : Config)

def process (m : Memory) (ref : ℕ) : Memory :=
  if cfg.encodeBase64 then { m with event := Function.update m.event ref (m.event ref).encodeBase64 } else m

def Server.setOutlet (s : Server) (i : ℕ) (o : Outlet) : Server := { s with outlets := Function.update s.outlets i o }

def Server.hand (s : Server) (i ref : ℕ) (sent : Bool) : Server :=
  let s' := { s with memory := process cfg s.memory ref }
  if sent then s'.setOutlet i { s.outlets i with queue := (s.outlets i).queue ++ [ref] } else s'

/-- a send that need not wait: there is room in the buffer, or the loop is there to receive it -/
def hasRoom (o : Outlet) (idle : Bool) : Bool :=
  o.queue.length < cfg.bufferSize || (o.queue.isEmpty && o.stream.running && idle)

def Server.feed (s : Server) (i : ℕ) (input : Input) : Server :=
  let σ := turn g (s.memory, (s.outlets i).stream) input
  { s with memory := σ.1 }.setOutlet i { s.outlets i with stream := σ.2 }

def Server.reaches (s : Server) (i ref : ℕ) : Bool := (s.outlets i).listed && ref < s.allocated

def step (s : Server) : Op → Server
  | .create => { s.setOutlet s.created (newOutlet cfg true) with created := s.created + 1 }
  | .remove i => s.setOutlet i { s.outlets i with listed := false }
  | .make e => { s with
      memory := { s.memory with event := Function.update s.memory.event s.allocated e }
      origin := Function.update s.origin s.allocated e.data
      allocated := s.allocated + 1 }
  | .publish i ref sent => if s.reaches i ref then s.hand cfg i ref sent else s
  | .tryPublish i ref idle => if s.reaches i ref then s.hand cfg i ref (hasRoom cfg (s.outlets i) idle) else s
  | .take i now =>
    match (s.outlets i).queue with
    | [] => s
    | ref :: rest =>
      if (s.outlets i).stream.running then
        (s.setOutlet i { s.outlets i with queue := rest }).feed g i (.event ref now)
      else s
  | .register i eventId => s.feed g i (.register eventId)
  | .deregister i sub => s.feed g i (.deregister sub)
  | .stop i => if (s.outlets i).listed then s else s.feed g i .quit

/-- `PublishDataWithMeta`, and with the options that `PublishData` and `PublishDataWithEventName` pass -/
def publishData {α : Type} (marshal : α → Except GoError Bytes) (s : Server) (i : ℕ) (data : Option α)
    (opts : List (Event → Event)) (sent : Bool) : List Op :=
  match eventOf marshal data opts with
  | .ok e => [.make e, .publish i s.allocated sent]
  | .error _ => []

/-- `Notify`, over the streams in the order the map is ranged over -/
def notify (streams : List ℕ) (ref : ℕ) : List Op := streams.map fun i => .publish i ref true

end Step

/-! ## What a step changes -/

theorem made_le_turn (g : Generator) (σ : Memory × Stream) (i : Input) : σ.1.made ≤ (turn g σ i).1.made := by
  rcases turn_cases g σ i with hq | ⟨ref, now, -, -, heq⟩ | ⟨ref, now, -, -, heq⟩
  · rw [hq.memory]
  · rw [heq]
  · rw [heq]
    exact Nat.le_succ _

theorem assign_payload (g : Generator) (m : Memory) (ref now r : ℕ) :
    ((m.assign g ref now).event r).data = (m.event r).data ∧
      ((m.assign g ref now).event r).comment = (m.event r).comment := by
  by_cases hr : r = ref
  · subst hr
    simp [Memory.assign]
  · simp [Memory.assign, hr]

theorem turn_payload (g : Generator) (σ : Memory × Stream) (i : Input) (r : ℕ) :
    ((turn g σ i).1.event r).data = (σ.1.event r).data ∧ ((turn g σ i).1.event r).comment = (σ.1.event r).comment := by
  rcases turn_cases g σ i with hq | ⟨ref, now, -, -, heq⟩ | ⟨ref, now, -, -, heq⟩
  · rw [hq.memory]
    exact ⟨rfl, rfl⟩
  · rw [heq]
    exact ⟨rfl, rfl⟩
  · rw [heq]
    exact assign_payload g σ.1 ref now r

variable {ref : ℕ}

theorem process_of_ne (cfg : Config) (m : Memory) {r : ℕ} (h : r ≠ ref) : (process cfg m ref).event r = m.event r := by
  unfold process
  split_ifs
  · simp [h]
  · rfl

theorem made_process (cfg : Config) (m : Memory) (ref : ℕ) : (process cfg m ref).made = m.made := by
  unfold process
  split_ifs <;> rfl

def wire (cfg : Config) (d : Bytes) : Bytes := if cfg.encodeBase64 then Base64.encode d else d

theorem data_process (cfg : Config) (m : Memory) (ref : ℕ) :
    ((process cfg m ref).event ref).data = wire cfg (m.event ref).data := by
  unfold process wire
  split_ifs
  · simp
  · rfl

theorem process_rest (cfg : Config) (m : Memory) (ref r : ℕ) :
    ((process cfg m ref).event r).id = (m.event r).id ∧
      ((process cfg m ref).event r).timestamp = (m.event r).timestamp ∧
      ((process cfg m ref).event r).comment = (m.event r).comment := by
  by_cases hr : r = ref
  · subst hr
    unfold process Event.encodeBase64
    split_ifs <;> simp
  · rw [process_of_ne cfg m hr]
    exact ⟨rfl, rfl, rfl⟩

@[simp] theorem setOutlet_self (s : Server) (i : ℕ) (o : Outlet) : (s.setOutlet i o).outlets i = o := by
  simp [Server.setOutlet]

variable {i : ℕ}

@[simp] theorem setOutlet_of_ne (s : Server) {j : ℕ} (h : j ≠ i) (o : Outlet) :
    (s.setOutlet i o).outlets j = s.outlets j := by
  simp [Server.setOutlet, h]

variable {s : Server} {o : Outlet}

theorem forall_setOutlet {P : ℕ → Outlet → Prop} (ho : P i o) (h : ∀ j, P j (s.outlets j)) :
    ∀ j, P j ((s.setOutlet i o).outlets j) :=
  (Function.forall_update_iff s.outlets P).2 ⟨ho, fun j _ => h j⟩

/-! ## Bookkeeping -/

/-- holds in every run: the records of each stream, that every event a stream has was made, and what encoding can have
made of it -/
structure Booked (g : Generator) (cfg : Config) (s : Server) : Prop where
  wf : ∀ i, (s.outlets i).stream.Wf
  recorded : ∀ i, Recorded g (s.memory, (s.outlets i).stream)
  known : ∀ i, ∀ ref ∈ (s.outlets i).accepted, ref < s.allocated
  data : ∀ ref < s.allocated, (s.memory.event ref).data = s.origin ref ∨
    cfg.encodeBase64 = true ∧ (Base64.encode (s.origin ref)).length ≤ (s.memory.event ref).data.length

theorem newServer_booked (g : Generator) (cfg : Config) : Booked g cfg (newServer cfg) where
  wf _ := newStream_wf _
  recorded _ := recorded_newStream g _ _
  known := by simp [newServer, newOutlet, newStream]
  data := by simp [newServer]

variable {g : Generator} {cfg : Config}

theorem booked_setOutlet (h : Booked g cfg s) (i : ℕ)
    (hwf : o.stream.Wf) (hrecorded : Recorded g (s.memory, o.stream)) (hknown : ∀ ref ∈ o.accepted, ref < s.allocated) :
    Booked g cfg (s.setOutlet i o) where
  wf := forall_setOutlet (P := fun _ o => o.stream.Wf) hwf h.wf
  recorded := forall_setOutlet (P := fun _ o => Recorded g (s.memory, o.stream)) hrecorded h.recorded
  known := forall_setOutlet (P := fun _ o => ∀ ref ∈ o.accepted, ref < s.allocated) hknown h.known
  data := h.data

theorem booked_memory (h : Booked g cfg s) {m : Memory}
    (hmade : s.memory.made ≤ m.made) (hdata : ∀ ref < s.allocated, (m.event ref).data = s.origin ref ∨
      cfg.encodeBase64 ∧ (Base64.encode (s.origin ref)).length ≤ (m.event ref).data.length) :
    Booked g cfg { s with memory := m } :=
  ⟨h.wf, fun j => (h.recorded j).mono hmade, h.known, hdata⟩

theorem booked_process (h : Booked g cfg s) (ref : ℕ) : Booked g cfg { s with memory := process cfg s.memory ref } := by
  refine booked_memory h (made_process cfg s.memory ref).ge ?_
  intro r hr
  by_cases hrr : r = ref
  · subst hrr
    rw [data_process, wire]
    split_ifs with hb
    · rcases h.data r hr with hd | ⟨-, hd⟩
      · rw [hd]
        exact .inr ⟨hb, le_rfl⟩
      · by_cases hnil : (s.memory.event r).data = []
        · refine .inr ⟨hb, ?_⟩
          rw [hnil] at hd ⊢
          simpa [Base64.encode] using hd
        · exact .inr ⟨hb, hd.trans (Base64.length_lt_encode hnil).le⟩
    · rcases h.data r hr with hd | ⟨hb', -⟩
      · exact .inl hd
      · exact absurd hb' hb
  · rw [process_of_ne cfg s.memory hrr]
    exact h.data r hr

theorem booked_hand (h : Booked g cfg s)
    (href : ref < s.allocated) (sent : Bool) : Booked g cfg (s.hand cfg i ref sent) := by
  have hprocessed := booked_process h ref
  cases sent with
  | false => exact hprocessed
  | true =>
    refine booked_setOutlet hprocessed i (h.wf i) (hprocessed.recorded i) ?_
    intro r hr
    rw [Outlet.accepted, ← List.append_assoc, List.mem_append, List.mem_singleton] at hr
    rcases hr with hr | rfl
    · exact h.known i r hr
    · exact href

theorem mem_accepted_turn {m : Memory} {input : Input} {r : ℕ}
    (h : r ∈ { o with stream := (turn g (m, o.stream) input).2 }.accepted) :
    r ∈ o.accepted ∨ ∃ now, input = .event r now := by
  simp only [Outlet.accepted, List.mem_append] at h ⊢
  rcases h with h | h
  · rcases turn_cases g (m, o.stream) input with hq | ⟨ref, now, hi, -, heq⟩ | ⟨ref, now, hi, -, heq⟩
    · rw [hq.history] at h
      exact .inl (.inl h)
    all_goals
      rw [heq] at h
      simp only [Stream.send, List.map_append, List.mem_append, List.map_cons, List.map_nil, List.mem_singleton] at h
      rcases h with h | rfl
      · exact .inl (.inl h)
      · exact .inr ⟨now, hi⟩
  · exact .inl (.inr h)

theorem booked_feed (h : Booked g cfg s) (i : ℕ) {input : Input}
    (hinput : ∀ ref now, input = .event ref now → ref < s.allocated) : Booked g cfg (s.feed g i input) := by
  have hmemory : Booked g cfg { s with memory := (turn g (s.memory, (s.outlets i).stream) input).1 } := by
    refine booked_memory h (made_le_turn g (s.memory, (s.outlets i).stream) input) ?_
    intro r hr
    rw [(turn_payload g (s.memory, (s.outlets i).stream) input r).1]
    exact h.data r hr
  refine booked_setOutlet hmemory i (turn_wf g (h.wf i) input) (recorded_turn (h.recorded i) input) ?_
  intro r hr
  rcases mem_accepted_turn hr with hr | ⟨now, hi⟩
  · exact h.known i r hr
  · exact hinput r now hi

theorem booked_setQueue (h : Booked g cfg s) {rest : List ℕ}
    (hq : (s.outlets i).queue = ref :: rest) : Booked g cfg (s.setOutlet i { s.outlets i with queue := rest }) := by
  refine booked_setOutlet h i (h.wf i) (h.recorded i) ?_
  intro r hr
  apply h.known i r
  simp only [Outlet.accepted, hq, List.mem_append] at hr ⊢
  tauto

theorem booked_step (h : Booked g cfg s) (op : Op) : Booked g cfg (step g cfg s op) := by
  cases op with
  | create =>
    have hnew := booked_setOutlet h s.created (o := newOutlet cfg true) (newStream_wf _) (recorded_newStream g _ _)
      (by simp [newOutlet, newStream])
    exact { hnew with }
  | remove i => exact booked_setOutlet h i (h.wf i) (h.recorded i) (h.known i)
  | make e =>
    refine ⟨h.wf, fun j => (h.recorded j).mono le_rfl, fun j r hr => (h.known j r hr).trans (Nat.lt_succ_self _), ?_⟩
    intro r hr
    by_cases hnew : r = s.allocated
    · subst hnew
      simp [step]
    · have hlt : r < s.allocated := lt_of_le_of_ne (Nat.lt_succ_iff.1 hr) hnew
      simpa [step, hnew] using h.data r hlt
  | publish i ref sent | tryPublish i ref idle =>
    exact guard_inv h fun hr => booked_hand h (by simpa using (Bool.and_eq_true_iff.1 hr).2) _
  | take i now =>
    simp only [step]
    split
    · exact h
    · rename_i ref rest hq
      split_ifs
      · refine booked_feed (booked_setQueue h hq) i ?_
        intro r t hev
        obtain ⟨rfl, -⟩ := Input.event.inj hev
        exact h.known i ref (by simp [hq])
      · exact h
  | register i eventId | deregister i sub => exact booked_feed h i (by simp)
  | stop i =>
    simp only [step]
    split_ifs
    · exact h
    · exact booked_feed h i (by simp)

/-! ## The frame -/

/-- what every stream was handed is what it has: the data as it was made, encoded once if at all, and for each log entry
the ID and timestamp it was given there, so that the IDs of a log increase -/
structure Framed (cfg : Config) (s : Server) : Prop where
  received : ∀ i, ∀ ref ∈ (s.outlets i).accepted, (s.memory.event ref).data = wire cfg (s.origin ref)
  kept : ∀ i, ∀ p ∈ (s.outlets i).stream.history, p.logged = true →
    (s.memory.event p.ref).id = p.id ∧ (s.memory.event p.ref).timestamp = p.timestamp
  increasing : ∀ i, ((s.outlets i).stream.eventLog.map fun ref => (s.memory.event ref).id).Pairwise (· < ·)

theorem increasing_of_kept {m : Memory} {s : Stream} (h : Recorded g (m, s))
    (hkept : ∀ p ∈ s.history, p.logged → (m.event p.ref).id = p.id) :
    (s.eventLog.map fun ref => (m.event ref).id).Pairwise (· < ·) := by
  have hids : (s.history.filter Processed.logged).map (fun p => (m.event p.ref).id) =
      (s.history.filter Processed.logged).map Processed.id := by
    refine List.map_congr_left ?_
    intro p hp
    obtain ⟨hmem, hl⟩ := List.mem_filter.1 hp
    exact hkept p hmem hl
  have hlog : s.eventLog = (s.history.filter Processed.logged).map Processed.ref := h.eventLog
  rw [hlog, List.map_map]
  change ((s.history.filter Processed.logged).map (fun p => (m.event p.ref).id)).Pairwise (· < ·)
  rw [hids, List.pairwise_map]
  exact h.sorted

/-- a stream has the data of what it was handed, and in its log what it wrote there -/
structure Intact (cfg : Config) (m : Memory) (origin : ℕ → Bytes) (o : Outlet) : Prop where
  received : ∀ ref ∈ o.accepted, (m.event ref).data = wire cfg (origin ref)
  kept : ∀ p ∈ o.stream.history, p.logged = true → (m.event p.ref).id = p.id ∧ (m.event p.ref).timestamp = p.timestamp

theorem framed_of (h : Booked g cfg s) (hintact : ∀ i, Intact cfg s.memory s.origin (s.outlets i)) : Framed cfg s :=
  ⟨fun i => (hintact i).received, fun i => (hintact i).kept,
    fun i => increasing_of_kept (h.recorded i) fun p hp hl => ((hintact i).kept p hp hl).1⟩

theorem Framed.intact (hf : Framed cfg s) (i : ℕ) : Intact cfg s.memory s.origin (s.outlets i) :=
  ⟨hf.received i, hf.kept i⟩

theorem framed_setOutlet (hf : Framed cfg s) (hb : Booked g cfg (s.setOutlet i o))
    (ho : Intact cfg s.memory s.origin o) : Framed cfg (s.setOutlet i o) :=
  framed_of hb (forall_setOutlet (P := fun _ o => Intact cfg s.memory s.origin o) ho hf.intact)

/-- a hand-over that alters nothing: the event has the data it was made with, or, if it is not taken, no stream has it
or there is nothing to encode -/
def HandsOver (cfg : Config) (s : Server) (ref : ℕ) (sent : Bool) : Prop :=
  if sent then (s.memory.event ref).data = s.origin ref
  else cfg.encodeBase64 = false ∨ s.origin ref = [] ∨ ∀ i, ref ∉ (s.outlets i).accepted

theorem wire_eq_iff (h : Booked g cfg s) (href : ref < s.allocated) :
    wire cfg (s.memory.event ref).data = wire cfg (s.origin ref) ↔ (s.memory.event ref).data = s.origin ref := by
  refine ⟨?_, fun heq => by rw [heq]⟩
  intro heq
  rcases h.data ref href with hd | ⟨hb, hlen⟩
  · exact hd
  · rw [wire, wire, if_pos hb, if_pos hb] at heq
    by_cases hnil : (s.memory.event ref).data = []
    · have horigin : Base64.encode (s.origin ref) = [] := by
        rw [← heq, hnil]
        rfl
      rw [hnil, Base64.encode_eq_nil_iff.1 horigin]
    · -- a second encoding is longer than the first
      have hlt := Base64.length_lt_encode hnil
      rw [heq] at hlt
      omega

theorem framed_process (h : Booked g cfg s) (hf : Framed cfg s)
    (href : ∀ i, ref ∈ (s.outlets i).accepted → wire cfg (s.memory.event ref).data = wire cfg (s.origin ref)) :
    Framed cfg { s with memory := process cfg s.memory ref } := by
  refine framed_of (booked_process h ref) fun i => ⟨?_, ?_⟩
  · intro r hr
    by_cases hrr : r = ref
    · subst hrr
      exact (data_process cfg s.memory r).trans (href i hr)
    · exact (congrArg Event.data (process_of_ne cfg s.memory hrr)).trans (hf.received i r hr)
  · intro p hp hl
    obtain ⟨hid, htime, -⟩ := process_rest cfg s.memory ref p.ref
    obtain ⟨hkeptId, hkeptTime⟩ := hf.kept i p hp hl
    exact ⟨hid.trans hkeptId, htime.trans hkeptTime⟩

theorem framed_hand_iff (h : Booked g cfg s) (hf : Framed cfg s)
    (href : ref < s.allocated) (sent : Bool) : Framed cfg (s.hand cfg i ref sent) ↔ HandsOver cfg s ref sent := by
  cases sent with
  | true =>
    simp only [HandsOver]
    rw [← wire_eq_iff h href]
    constructor
    · intro hframed
      have hreceived := hframed.received i ref (by simp [Server.hand])
      exact (data_process cfg s.memory ref).symm.trans hreceived
    · intro heq
      have hprocessed := framed_process h hf fun _ _ => heq
      refine framed_setOutlet hprocessed (booked_hand h href true) ⟨fun r hr => ?_, hprocessed.kept i⟩
      rw [Outlet.accepted, ← List.append_assoc, List.mem_append, List.mem_singleton] at hr
      rcases hr with hr | rfl
      · exact hprocessed.received i r hr
      · exact (data_process cfg s.memory r).trans heq
  | false =>
    simp only [HandsOver, Bool.false_eq_true, if_false]
    constructor
    · intro hframed
      by_contra hnot
      push Not at hnot
      obtain ⟨hb, hne, j, hj⟩ := hnot
      have hb : cfg.encodeBase64 := by simpa using hb
      have hbefore := hf.received j ref hj
      have hafter : ((process cfg s.memory ref).event ref).data = wire cfg (s.origin ref) := hframed.received j ref hj
      rw [data_process, wire_eq_iff h href] at hafter
      rw [hafter, wire, if_pos hb] at hbefore
      have hlt := Base64.length_lt_encode hne
      rw [← hbefore] at hlt
      omega
    · intro hhand
      refine framed_process h hf ?_
      intro j hj
      rw [hf.received j ref hj]
      rcases hhand with hb | hnil | hno
      · simp [wire, hb]
      · simp [wire, hnil, Base64.encode]
      · exact absurd hj (hno j)

theorem feed_setOutlet (g : Generator) (s : Server) (i : ℕ) (o : Outlet) (input : Input) :
    (s.setOutlet i o).feed g i input =
      { s with memory := (turn g (s.memory, o.stream) input).1 }.setOutlet i
        { o with stream := (turn g (s.memory, o.stream) input).2 } := by
  simp [Server.feed, Server.setOutlet]

theorem turn_quiet (g : Generator) (σ : Memory × Stream) {input : Input} (hinput : ∀ ref now, input ≠ .event ref now) :
    Quiet σ (turn g σ input) := by
  rcases turn_cases g σ input with hq | ⟨ref, now, hi, -⟩ | ⟨ref, now, hi, -⟩
  · exact hq
  · exact absurd hi (hinput ref now)
  · exact absurd hi (hinput ref now)

theorem feed_quiet (g : Generator) (s : Server) (i : ℕ) {input : Input} (hinput : ∀ ref now, input ≠ .event ref now) :
    s.feed g i input =
      s.setOutlet i { s.outlets i with stream := (turn g (s.memory, (s.outlets i).stream) input).2 } := by
  rw [Server.feed, (turn_quiet g (s.memory, (s.outlets i).stream) hinput).memory]

theorem framed_feed (h : Booked g cfg s) (hf : Framed cfg s) (i : ℕ)
    {input : Input} (hinput : ∀ ref now, input ≠ .event ref now) : Framed cfg (s.feed g i input) := by
  have hbooked : Booked g cfg (s.feed g i input) :=
    booked_feed h i fun ref now hi => absurd hi (hinput ref now)
  have hq := turn_quiet g (s.memory, (s.outlets i).stream) hinput
  rw [feed_quiet g s i hinput] at hbooked ⊢
  refine framed_setOutlet hf hbooked ⟨?_, ?_⟩
  · rw [Outlet.accepted, hq.history]
    exact hf.received i
  · rw [hq.history]
    exact hf.kept i

/-- no log has the event that the loop of a stream is about to log -/
def LogsNew (s : Server) (i : ℕ) : Prop :=
  match (s.outlets i).queue with
  | [] => True
  | ref :: _ =>
    (s.outlets i).stream.running = true → (s.outlets i).stream.autoReplay = true →
      (s.memory.event ref).hasContent = true → ∀ j, ref ∉ (s.outlets j).stream.eventLog

theorem framed_logged_iff (h : Booked g cfg s) (hf : Framed cfg s) (now : ℕ)
    (ho : o.stream.history = (s.outlets i).stream.history ++ [⟨ref, g.newEventID s.memory.made, now, true⟩])
    (haccepted : ∀ r ∈ o.accepted, r ∈ (s.outlets i).accepted) :
    (∀ j, Intact cfg (s.memory.assign g ref now) s.origin ((s.setOutlet i o).outlets j)) ↔
      ∀ j, ref ∉ (s.outlets j).stream.eventLog := by
  constructor
  · intro hintact j hlog
    rw [(h.recorded j).eventLog] at hlog
    obtain ⟨p, hp, hpref⟩ := List.mem_map.1 hlog
    obtain ⟨hmem, hl⟩ := List.mem_filter.1 hp
    obtain ⟨k, hk, hid⟩ := (h.recorded j).made p hmem hl
    have hold : p ∈ ((s.setOutlet i o).outlets j).stream.history := by
      by_cases hj : j = i
      · subst hj
        simp [ho, hmem]
      · simpa [hj] using hmem
    have hnew := ((hintact j).kept p hold hl).1
    have hlt := g.increasing k s.memory.made hk
    rw [← hid, ← hnew, hpref] at hlt
    simp only [Memory.assign, Function.update_self] at hlt
    exact List.lt_irrefl _ hlt
  · intro hno
    have hold (j : ℕ) : Intact cfg (s.memory.assign g ref now) s.origin (s.outlets j) := by
      refine ⟨fun r hr => (assign_payload g s.memory ref now r).1.trans (hf.received j r hr), fun p hp hl => ?_⟩
      have hne : p.ref ≠ ref := by
        rintro rfl
        refine hno j ?_
        rw [(h.recorded j).eventLog]
        exact List.mem_map_of_mem (List.mem_filter.2 ⟨hp, hl⟩)
      simpa [Memory.assign, hne] using hf.kept j p hp hl
    refine forall_setOutlet (P := fun _ o => Intact cfg (s.memory.assign g ref now) s.origin o) ⟨?_, ?_⟩ hold
    · exact fun r hr => (hold i).received r (haccepted r hr)
    · intro p hp hl
      rw [ho] at hp
      rcases List.mem_append.1 hp with hp | hp
      · exact (hold i).kept p hp hl
      · rw [List.mem_singleton.1 hp]
        exact ⟨by simp [Memory.assign], by simp [Memory.assign]⟩

theorem mem_accepted_send {rest : List ℕ} (hq : o.queue = ref :: rest) {p : Processed}
    (hp : p.ref = ref) (log : List ℕ) (r : ℕ) :
    r ∈ { o with queue := rest, stream := { o.stream with eventLog := log }.send p }.accepted ↔ r ∈ o.accepted := by
  simp [hp, hq]

theorem step_take (g : Generator) (cfg : Config) {rest : List ℕ}
    (hq : (s.outlets i).queue = ref :: rest) (hrun : (s.outlets i).stream.running) (now : ℕ) :
    step g cfg s (.take i now) =
      { s with memory := ((s.outlets i).stream.onEvent g s.memory ref now).1 }.setOutlet i
        { s.outlets i with
          queue := rest
          stream := ((s.outlets i).stream.onEvent g s.memory ref now).2 } := by
  simp [step, hq, hrun, feed_setOutlet, turn]

theorem framed_take_iff (h : Booked g cfg s) (hf : Framed cfg s)
    (i now : ℕ) : Framed cfg (step g cfg s (.take i now)) ↔ LogsNew s i := by
  have hbooked := booked_step h (.take i now)
  cases hq : (s.outlets i).queue with
  | nil => simp [step, LogsNew, hq, hf]
  | cons ref rest =>
    cases hrun : (s.outlets i).stream.running with
    | false => simp [step, LogsNew, hq, hrun, hf]
    | true =>
      rw [step_take g cfg hq hrun] at hbooked ⊢
      simp only [LogsNew, hq, hrun, true_implies]
      cases hlogged : (s.outlets i).stream.autoReplay && (s.memory.event ref).hasContent with
      | false =>
        rw [onEvent_bare g hlogged now] at hbooked ⊢
        have hnot : ¬ ((s.outlets i).stream.autoReplay ∧ (s.memory.event ref).hasContent) := by
          rw [← Bool.and_eq_true_iff, hlogged]
          simp
        refine ⟨fun _ hr hc => absurd ⟨hr, hc⟩ hnot, fun _ => framed_setOutlet hf hbooked ⟨?_, ?_⟩⟩
        · intro r hr
          exact hf.received i r ((mem_accepted_send hq rfl _ r).1 hr)
        · exact forall_mem_send.2 ⟨hf.kept i, by simp⟩
      | true =>
        rw [onEvent_logged g hlogged now] at hbooked ⊢
        have hlog := framed_logged_iff h hf now rfl fun r hr =>
          (mem_accepted_send hq rfl ((s.outlets i).stream.eventLog ++ [ref]) r).1 hr
        obtain ⟨hr, hc⟩ := Bool.and_eq_true_iff.1 hlogged
        exact ⟨fun hframed _ _ => hlog.1 hframed.intact, fun hno => framed_of hbooked (hlog.2 (hno hr hc))⟩

/-- the steps that alter no event that a stream has -/
def Careful (cfg : Config) (s : Server) : Op → Prop
  | .publish i ref sent => s.reaches i ref = true → HandsOver cfg s ref sent
  | .tryPublish i ref idle => s.reaches i ref = true → HandsOver cfg s ref (hasRoom cfg (s.outlets i) idle)
  | .take i _ => LogsNew s i
  | _ => True

theorem framed_step_iff (h : Booked g cfg s) (hf : Framed cfg s) (op : Op) :
    Framed cfg (step g cfg s op) ↔ Careful cfg s op := by
  have hbooked := booked_step h op
  cases op with
  | create =>
    refine iff_of_true ?_ trivial
    have hnew : Framed cfg (s.setOutlet s.created (newOutlet cfg true)) :=
      framed_setOutlet hf { hbooked with } ⟨by simp [newOutlet, newStream], by simp [newOutlet, newStream]⟩
    exact { hnew with }
  | remove i => exact iff_of_true (framed_setOutlet hf hbooked ⟨hf.received i, hf.kept i⟩) trivial
  | make e =>
    -- the new event is nowhere yet
    refine iff_of_true ?_ trivial
    refine framed_of hbooked fun j => ⟨?_, ?_⟩
    · intro r hr
      have hne : r ≠ s.allocated := (h.known j r hr).ne
      simpa [step, hne] using hf.received j r hr
    · intro p hp hl
      have hmem : p.ref ∈ (s.outlets j).accepted := by
        simp only [Outlet.accepted, List.mem_append]
        exact .inl (List.mem_map_of_mem hp)
      have hne : p.ref ≠ s.allocated := (h.known j p.ref hmem).ne
      simpa [step, hne] using hf.kept j p hp hl
  | publish i ref sent | tryPublish i ref idle =>
    simp only [step, Careful]
    split_ifs with hr
    · rw [framed_hand_iff h hf (by simpa using (Bool.and_eq_true_iff.1 hr).2)]
      simp [hr]
    · simp [hr, hf]
  | take i now => exact framed_take_iff h hf i now
  | register i eventId | deregister i sub => exact iff_of_true (framed_feed h hf i (by simp)) trivial
  | stop i =>
    refine iff_of_true ?_ trivial
    simp only [step]
    split_ifs
    · exact hf
    · exact framed_feed h hf i (by simp)

theorem newServer_framed (g : Generator) (cfg : Config) : Framed cfg (newServer cfg) :=
  framed_of (newServer_booked g cfg) fun _ => ⟨by simp [newServer, newOutlet, newStream],
    by simp [newServer, newOutlet, newStream]⟩

/-- **Broadcast frame.** In every state each stream has, of every event it was handed, the data encoded exactly once (or
not, without base64), and of every entry in its log the ID and timestamp it gave it, if and only if every step is
careful. -/
theorem framed_iff (g : Generator) (cfg : Config) (ops : List Op) :
    Always (step g cfg) (Framed cfg) (newServer cfg) ops ↔ Along (step g cfg) (Careful cfg) (newServer cfg) ops := by
  refine always_iff_along_of_iff (I := Booked g cfg) ?_ ?_ (newServer_booked g cfg) (newServer_framed g cfg) ops
  · intro s op hbooked
    exact booked_step hbooked op
  · intro s op hbooked hframed
    exact framed_step_iff hbooked hframed op

def letterA : Event := { Event.empty with data := [97] }

def notifiedTwo : List Op := [.create, .create, .make letterA] ++ notify [0, 1] 0

/-- base64 and a channel without a buffer: `TryPublish` before the loop is waiting, and again -/
def triedAgain : List Op := [.create, .make letterA, .tryPublish 0 0 false, .tryPublish 0 0 true]

/-- a stream logs two events, and another one the first of them -/
def loggedTwice : List Op :=
  [.create, .create, .make letterA, .make letterA, .publish 0 0 true, .publish 0 1 true, .publish 1 0 true, .take 0 1,
    .take 0 2, .take 1 3]

/-- **Shared events.** With base64 both streams that are notified have the data encoded twice, and so has the one whose
event was tried again; and a log has the ID that another stream gave to its first event. -/
theorem shared_event_altered :
    let encoding : Config := ⟨true, true, 0⟩
    let notified := run (step counting encoding) (newServer encoding) notifiedTwo
    let tried := run (step counting encoding) (newServer encoding) triedAgain
    let logging : Config := ⟨false, true, 4⟩
    let logged := run (step counting logging) (newServer logging) loggedTwice
    (¬ Framed encoding notified ∧ ¬ Framed encoding tried ∧ ¬ Framed logging logged) ∧
      (notified.memory.event 0).data = Base64.encode (Base64.encode letterA.data) ∧
      (tried.memory.event 0).data = Base64.encode (Base64.encode letterA.data) ∧
      (logged.outlets 0).stream.eventLog.map (fun ref => (logged.memory.event ref).id) =
        [counting.newEventID 2, counting.newEventID 1] := by
  intro encoding notified tried logging logged
  refine ⟨⟨?_, ?_, ?_⟩, by decide, by decide, by decide⟩
  · intro h
    exact absurd (h.received 0 0 (by decide)) (by decide)
  · intro h
    exact absurd (h.received 0 0 (by decide)) (by decide)
  · intro h
    exact absurd (h.increasing 0) (by decide)

end LuluExt.Sse
