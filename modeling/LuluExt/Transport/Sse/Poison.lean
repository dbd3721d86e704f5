/-
Events that end a response.

The response loop of a subscriber reads its channel until the channel is closed, or until an event with neither data nor
comment: PublishData(nil) makes one. If the event has an ID, a name or a retry it has content, so that with autoReplay
it is logged, and every later subscriber that is replayed the log stops at it too.
-/
import Mathlib.Data.List.TakeWhile
import LuluExt.Transport.Sse.Server

namespace LuluExt.Sse

open Run

/-- how far the response loop gets with what is put on its channel -/
def consumed (m : Memory) (connection : List ℕ) : List ℕ := connection.takeWhile fun ref => !(m.event ref).ends

theorem consumed_eq_iff {m : Memory} {connection : List ℕ} :
    consumed m connection = connection ↔ ∀ ref ∈ connection, (m.event ref).ends = false := by
  rw [consumed]
  simp

/-- what a subscriber that registers now finds on its channel -/
def replayed (m : Memory) (s : Stream) (eventId : Bytes) : List ℕ := (s.onRegister m eventId).connection s.registered

/-- every subscriber is written everything that is put on its channel, and so will be those that come -/
def Alive (s : Server) : Prop :=
  ∀ i, (∀ sub, consumed s.memory ((s.outlets i).stream.connection sub) = (s.outlets i).stream.connection sub) ∧
    ∀ eventId, consumed s.memory (replayed s.memory (s.outlets i).stream eventId) =
      replayed s.memory (s.outlets i).stream eventId

/-- the events of a stream that go to a subscriber, now or at its registration -/
def Goes (s : Stream) (ref : ℕ) : Prop := (∃ sub, ref ∈ s.connection sub) ∨ s.autoReplay = true ∧ ref ∈ s.eventLog

variable {s : Server}

theorem alive_iff_goes (hwf : ∀ i, (s.outlets i).stream.Wf) :
    Alive s ↔ ∀ i ref, Goes (s.outlets i).stream ref → (s.memory.event ref).ends = false := by
  have hreplayed : ∀ i eventId, replayed s.memory (s.outlets i).stream eventId =
      if (s.outlets i).stream.autoReplay then EventLog.replay s.memory (s.outlets i).stream.eventLog eventId
      else [] := by
    intro i eventId
    have hfresh := (hwf i).fresh _ le_rfl
    unfold replayed Stream.onRegister
    dsimp only
    split_ifs
    · rw [put_self, hfresh, List.nil_append]
    · exact hfresh
  constructor
  · intro h i ref hgoes
    rcases hgoes with ⟨sub, hm⟩ | ⟨hreplay, hm⟩
    · exact consumed_eq_iff.1 ((h i).1 sub) ref hm
    · have hall := consumed_eq_iff.1 ((h i).2 []) ref
      rw [hreplayed, if_pos hreplay, replay_nil] at hall
      exact hall hm
  · intro h i
    refine ⟨fun sub => consumed_eq_iff.2 fun ref hm => h i ref (.inl ⟨sub, hm⟩), fun eventId => ?_⟩
    rw [hreplayed]
    split_ifs with hreplay
    · exact consumed_eq_iff.2 fun ref hm => h i ref (.inr ⟨hreplay, (List.mem_filter.1 hm).1⟩)
    · rfl

theorem ends_process (cfg : Config) (m : Memory) (ref r : ℕ) :
    ((process cfg m ref).event r).ends = (m.event r).ends := by
  by_cases hr : r = ref
  · subst hr
    unfold process
    split_ifs
    · simp
    · rfl
  · rw [process_of_ne cfg m hr]

theorem ends_turn (g : Generator) (σ : Memory × Stream) (i : Input) (r : ℕ) :
    ((turn g σ i).1.event r).ends = (σ.1.event r).ends := by
  obtain ⟨hdata, hcomment⟩ := turn_payload g σ i r
  rw [Event.ends, hdata, hcomment, Event.ends]

variable {g : Generator} {cfg : Config}

theorem mem_accepted_of_goes (h : Booked g cfg s) {i ref : ℕ}
    (hgoes : Goes (s.outlets i).stream ref) : ref ∈ (s.outlets i).accepted := by
  refine List.mem_append_left _ ?_
  rcases hgoes with ⟨sub, hm⟩ | ⟨-, hm⟩
  · exact (h.recorded i).sent sub ref hm
  · rw [(h.recorded i).eventLog] at hm
    exact List.map_subset _ (List.filter_subset_self _) hm

theorem goes_turn {σ : Memory × Stream} {input : Input} (hinput : ∀ ref now, input ≠ .event ref now)
    {ref : ℕ} (h : Goes (turn g σ input).2 ref) : Goes σ.2 ref := by
  have hq := turn_quiet g σ hinput
  rcases h with ⟨sub, hm⟩ | ⟨hreplay, hm⟩
  · rcases hq.connection sub ref hm with hm | hm
    · exact .inl ⟨sub, hm⟩
    · exact .inr hm
  · rw [hq.autoReplay] at hreplay
    rw [hq.eventLog] at hm
    exact .inr ⟨hreplay, hm⟩

theorem goes_onEvent_iff (g : Generator) (m : Memory) (s : Stream) (ref now r : ℕ) :
    Goes (s.onEvent g m ref now).2 r ↔
      Goes s r ∨ r = ref ∧ (s.subscribers ≠ [] ∨ (s.autoReplay && (m.event ref).hasContent)) := by
  have hsent : (∃ sub, r ∈ dispatch s.subscribers s.connection ref sub) ↔
      (∃ sub, r ∈ s.connection sub) ∨ r = ref ∧ s.subscribers ≠ [] := by
    simp only [mem_dispatch, exists_or, exists_and_left, ne_eq, List.eq_nil_iff_forall_not_mem, not_forall, not_not]
  cases hlogged : s.autoReplay && (m.event ref).hasContent with
  | false =>
    rw [onEvent_bare g hlogged]
    simp only [Goes, Stream.send, hsent, Bool.false_eq_true, or_false]
    exact or_right_comm
  | true =>
    obtain ⟨hreplay, -⟩ := Bool.and_eq_true_iff.1 hlogged
    rw [onEvent_logged g hlogged]
    simp only [Goes, Stream.send, hsent, hreplay, List.mem_append, List.mem_singleton, true_and, or_true, and_true]
    constructor
    · rintro ((hold | ⟨hr, -⟩) | hlog | hr)
      · exact .inl (.inl hold)
      · exact .inr hr
      · exact .inl (.inr hlog)
      · exact .inr hr
    · rintro ((hold | hlog) | hr)
      · exact .inl (.inl hold)
      · exact .inr (.inl hlog)
      · exact .inr (.inr hr)

/-- the loop of the stream does not take an event that ends responses, unless nobody gets it -/
def TakesHarmless (s : Server) (i : ℕ) : Prop :=
  match (s.outlets i).queue with
  | [] => True
  | ref :: _ =>
    (s.outlets i).stream.running = true → (s.memory.event ref).ends = true →
      (s.outlets i).stream.subscribers = [] ∧
        ((s.outlets i).stream.autoReplay && (s.memory.event ref).hasContent) = false

def Harmless (s : Server) : Op → Prop
  | .take i _ => TakesHarmless s i
  | _ => True

theorem alive_feed (h : Booked g cfg s) (ha : Alive s) (i : ℕ)
    {input : Input} (hinput : ∀ ref now, input ≠ .event ref now) : Alive (s.feed g i input) := by
  have hbooked : Booked g cfg (s.feed g i input) :=
    booked_feed h i fun ref now hi => absurd hi (hinput ref now)
  rw [alive_iff_goes hbooked.wf]
  rw [alive_iff_goes h.wf] at ha
  rw [feed_quiet g s i hinput]
  exact forall_setOutlet (P := fun _ o => ∀ r, Goes o.stream r → (s.memory.event r).ends = false)
    (fun r hr => ha i r (goes_turn (σ := (s.memory, (s.outlets i).stream)) hinput hr)) ha

theorem alive_take_iff (h : Booked g cfg s) (ha : Alive s) (i now : ℕ) :
    Alive (step g cfg s (.take i now)) ↔ TakesHarmless s i := by
  have hbooked := booked_step h (.take i now)
  cases hq : (s.outlets i).queue with
  | nil => simp [step, TakesHarmless, hq, ha]
  | cons ref rest =>
    cases hrun : (s.outlets i).stream.running with
    | false => simp [step, TakesHarmless, hq, hrun, ha]
    | true =>
      have hturn : turn g (s.memory, (s.outlets i).stream) (.event ref now) =
          (s.outlets i).stream.onEvent g s.memory ref now := by simp [turn, hrun]
      have hends : ∀ r, (((s.outlets i).stream.onEvent g s.memory ref now).1.event r).ends =
          (s.memory.event r).ends := by
        intro r
        rw [← hturn]
        exact ends_turn g _ _ r
      rw [step_take g cfg hq hrun] at hbooked ⊢
      rw [alive_iff_goes hbooked.wf]
      rw [alive_iff_goes h.wf] at ha
      simp only [TakesHarmless, hq, hrun, true_implies]
      constructor
      · intro hafter hend
        by_contra hnot
        have hgoes : Goes ((s.outlets i).stream.onEvent g s.memory ref now).2 ref :=
          (goes_onEvent_iff ..).2 (.inr ⟨rfl, by simpa [or_iff_not_imp_left] using hnot⟩)
        have hno := hafter i ref (by simpa using hgoes)
        rw [← hends ref] at hend
        exact absurd (hend.symm.trans hno) (by simp)
      · intro hharmless
        refine forall_setOutlet (P := fun _ o => ∀ r, Goes o.stream r →
          (((s.outlets i).stream.onEvent g s.memory ref now).1.event r).ends = false) (fun r hgoes => ?_) fun j r hr =>
            (hends r).trans (ha j r hr)
        rw [hends]
        rcases (goes_onEvent_iff ..).1 hgoes with hold | ⟨rfl, hnew⟩
        · exact ha i r hold
        · by_contra hend
          obtain ⟨hnobody, hlogged⟩ := hharmless (by simpa using hend)
          simp [hnobody, hlogged] at hnew

theorem alive_hand (h : Booked g cfg s) (ha : Alive s) {i ref : ℕ}
    {sent : Bool} (hb : Booked g cfg (s.hand cfg i ref sent)) : Alive (s.hand cfg i ref sent) := by
  have hgoes := (alive_iff_goes h.wf).1 ha
  rw [alive_iff_goes hb.wf]
  have hprocessed (j r : ℕ) (hr : Goes (s.outlets j).stream r) : ((process cfg s.memory ref).event r).ends = false :=
    (ends_process cfg s.memory ref r).trans (hgoes j r hr)
  cases sent with
  | false => exact hprocessed
  | true =>
    exact forall_setOutlet (P := fun _ o => ∀ r, Goes o.stream r → ((process cfg s.memory ref).event r).ends = false)
      (hprocessed i) hprocessed

theorem alive_step_iff (h : Booked g cfg s) (ha : Alive s) (op : Op) : Alive (step g cfg s op) ↔ Harmless s op := by
  have hbooked := booked_step h op
  have hgoes := (alive_iff_goes h.wf).1 ha
  cases op with
  | create =>
    refine iff_of_true ((alive_iff_goes hbooked.wf).2 ?_) trivial
    exact forall_setOutlet (P := fun _ o => ∀ r, Goes o.stream r → (s.memory.event r).ends = false)
      (by simp [newOutlet, newStream, Goes]) hgoes
  | remove i =>
    refine iff_of_true ((alive_iff_goes hbooked.wf).2 ?_) trivial
    exact forall_setOutlet (P := fun _ o => ∀ r, Goes o.stream r → (s.memory.event r).ends = false) (hgoes i) hgoes
  | make e =>
    refine iff_of_true ((alive_iff_goes hbooked.wf).2 ?_) trivial
    intro j r hr
    have hne : r ≠ s.allocated := (h.known j r (mem_accepted_of_goes h hr)).ne
    simpa [step, hne] using hgoes j r hr
  | publish i ref sent | tryPublish i ref idle =>
    refine iff_of_true ?_ trivial
    simp only [step] at hbooked ⊢
    split_ifs at hbooked ⊢
    · exact alive_hand h ha hbooked
    · exact ha
  | take i now => exact alive_take_iff h ha i now
  | register i eventId | deregister i sub => exact iff_of_true (alive_feed h ha i (by simp)) trivial
  | stop i =>
    refine iff_of_true ?_ trivial
    simp only [step]
    split_ifs
    · exact ha
    · exact alive_feed h ha i (by simp)

theorem newServer_alive (g : Generator) (cfg : Config) : Alive (newServer cfg) := by
  refine (alive_iff_goes (newServer_booked g cfg).wf).2 ?_
  simp [newServer, newOutlet, newStream, Goes]

/-- **No poison.** In every state each subscriber's response gets through everything put on its channel, and so would
that of one which registers then with any Last-Event-ID, if and only if no loop takes an event without data and comment
while it has subscribers, nor logs one. -/
theorem alive_iff (g : Generator) (cfg : Config) (ops : List Op) :
    Always (step g cfg) Alive (newServer cfg) ops ↔ Along (step g cfg) Harmless (newServer cfg) ops := by
  refine always_iff_along_of_iff (I := Booked g cfg) ?_ ?_ (newServer_booked g cfg) (newServer_alive g cfg) ops
  · intro s op hbooked
    exact booked_step hbooked op
  · intro s op hbooked halive
    exact alive_step_iff hbooked halive op

/-- with autoReplay: a subscriber, PublishDataWithMeta(nil, WithEventID), an event with data, and another subscriber -/
def poisoning : List Op :=
  [.create, .register 0 []] ++
    publishData (fun d : Bytes => .ok d) (newServer ⟨false, true, 4⟩) 0 none [withEventID [49]] true ++
    [.take 0 1, .make letterA, .publish 0 1 true, .take 0 2, .register 0 []]

/-- **A poisoned stream.** Both subscribers are sent the event with data, and neither response gets to it. -/
theorem poisoned_stream :
    let s := run (step counting ⟨false, true, 4⟩) (newServer ⟨false, true, 4⟩) poisoning
    ¬ Alive s ∧ (s.outlets 0).stream.connection 0 = [0, 1] ∧ (s.outlets 0).stream.connection 1 = [0, 1] ∧
      consumed s.memory ((s.outlets 0).stream.connection 0) = [] ∧
      consumed s.memory ((s.outlets 0).stream.connection 1) = [] := by
  intro s
  refine ⟨?_, by decide, by decide, by decide, by decide⟩
  intro h
  exact absurd ((h 0).1 0) (by decide)

end LuluExt.Sse
