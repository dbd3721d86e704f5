/-
The loop of the RabbitMQ subscriber that consumes again after a loss, and Unsubscribe.

The loop looks at `closed` at its head. Then it waits for a connection, calls Consume, and records the channel in
`s.ch`, without looking at `closed` again; Unsubscribe closes the channel in `s.ch`. An Unsubscribe in between finds it
empty, or with the old channel in it: the new channel is recorded afterwards, and nobody closes it.

The statements of the loop, Unsubscribe, deliveries of the server, and what becomes of the connection are interleaved. A
wait that cannot end is a step that changes nothing; so is a call that would panic. Consumers are numbered as they are
made, and closed with their connection.

- `final_iff`: Unsubscribe is final exactly when it does not find the loop in its window.
-/
import LuluExt.Lib.Finality

namespace LuluExt.Rabbitmq.Resubscribe

open Run Finality

/-! ## Model -/

inductive Pc where
  /-- before `IsClosed` -/
  | check
  | select
  /-- before the look at `connected`, with the broker's mutex -/
  | locked
  /-- before `Consume` -/
  | consuming
  /-- before `s.ch = ch` -/
  | consumed (c : ℕ)
  /-- in the range over the deliveries -/
  | ranging (c : ℕ)
  | sleeping
  | returned
deriving DecidableEq, Repr

structure Subscriber where
  closed : Bool
  ch : Option ℕ
  pc : Pc
  consumers : ℕ
  isOpen : ℕ → Bool
  /-- deliveries that wait in the channel of a consumer -/
  pending : ℕ → ℕ
  alive : Bool
  connected : Bool
  waitConnection : Bool
  /-- `conn.close` is closed -/
  close : Bool
  handled : List ℕ
  recorded : List ℕ

def initial : Subscriber where
  closed := false
  ch := none
  pc := .check
  consumers := 0
  isOpen _ := false
  pending _ := 0
  alive := true
  connected := true
  waitConnection := true
  close := false
  handled := []
  recorded := []

inductive Op where
  /-- a statement of `resubscribe`: whether its select takes `close` when both are ready, whether Consume succeeds -/
  | loop (takeClose consume : Bool)
  | unsubscribe
  | deliver (c : ℕ)
  /-- the connection is lost, and with it its channels -/
  | lose
  | notice
  /-- the goroutine of the connection has connected again -/
  | reconnect
  | connect
  | disconnect
deriving DecidableEq, Repr

namespace Subscriber

def resubscribe (s : Subscriber) (takeClose consume : Bool) : Subscriber :=
  match s.pc with
  | .check => if s.closed then { s with pc := .returned } else { s with pc := .select }
  | .select =>
    if s.close = true ∧ (takeClose = true ∨ s.waitConnection = false) then { s with pc := .returned }
    else if s.waitConnection then { s with pc := .locked }
    else s
  | .locked => if s.connected then { s with pc := .consuming } else { s with pc := .check }
  | .consuming =>
    if consume = true ∧ s.alive = true then
      { s with
        pc := .consumed s.consumers
        consumers := s.consumers + 1
        isOpen := Function.update s.isOpen s.consumers true }
    else { s with pc := .sleeping }
  | .consumed c => { s with pc := .ranging c, ch := some c, recorded := s.recorded ++ [c] }
  | .ranging c =>
    if 0 < s.pending c then
      { s with pending := Function.update s.pending c (s.pending c - 1), handled := s.handled ++ [c] }
    else if s.isOpen c then s
    else { s with pc := .check }
  | .sleeping => { s with pc := .check }
  | .returned => s

def unsubscribe (s : Subscriber) : Subscriber :=
  match s.ch with
  | none => { s with closed := true }
  | some c => { s with closed := true, isOpen := Function.update s.isOpen c false }

/-- `waitConnection` is closed when the connection is made; closing it twice would be a panic -/
def made (s : Subscriber) : Subscriber :=
  if s.waitConnection then s else { s with alive := true, connected := true, waitConnection := true }

end Subscriber

def step (s : Subscriber) : Op → Subscriber
  | .loop takeClose consume => s.resubscribe takeClose consume
  | .unsubscribe => s.unsubscribe
  | .deliver c => if s.isOpen c then { s with pending := Function.update s.pending c (s.pending c + 1) } else s
  | .lose => { s with alive := false, isOpen := fun _ => false }
  | .notice => if s.alive then s else { s with connected := false, waitConnection := false }
  | .reconnect => s.made
  | .connect => if s.connected = true ∨ s.waitConnection = true then s else { s.made with close := false }
  | .disconnect => { s with close := true, connected := false, alive := false, isOpen := fun _ => false }

def own : Op → Bool
  | .loop _ _ => true
  | _ => false

def view (s : Subscriber) : View := ⟨s.handled, s.recorded, s.isOpen, s.pc = .returned⟩

/-- after the look at `closed`, and before the record of a consumer that is open or has deliveries -/
@[simp] def Window (s : Subscriber) : Prop :=
  match s.pc with
  | .select | .locked | .consuming => True
  | .consumed c => s.isOpen c = true ∨ 0 < s.pending c
  | _ => False

/-- the records begin with this call -/
def unsubscribed (s : Subscriber) : Subscriber := { s.unsubscribe with handled := [], recorded := [] }

/-- `ch` is the consumer whose deliveries are received, and not one that is still to be recorded -/
structure Inv (s : Subscriber) : Prop where
  ranging : ∀ c, s.pc = .ranging c → s.ch = some c
  below : ∀ c, s.ch = some c → c < s.consumers
  consumed : ∀ c, s.pc = .consumed c → c < s.consumers ∧ s.ch ≠ some c

section

variable {s : Subscriber} {c : ℕ}

theorem made_eq (s : Subscriber) :
    ∃ alive connected waitConnection,
      s.made = { s with alive := alive, connected := connected, waitConnection := waitConnection } := by
  unfold Subscriber.made
  split_ifs
  · exact ⟨_, _, _, rfl⟩
  · exact ⟨_, _, _, rfl⟩

/-- what the others leave as it is: only the loop moves, records and handles, and makes consumers -/
structure Others (s t : Subscriber) : Prop where
  pc : t.pc = s.pc
  ch : t.ch = s.ch
  consumers : t.consumers = s.consumers
  handled : t.handled = s.handled
  recorded : t.recorded = s.recorded
  closed : s.closed = true → t.closed = true
  isOpen : ∀ c, s.isOpen c = false → t.isOpen c = false
  pending : ∀ c, s.isOpen c = false → t.pending c = s.pending c

theorem others_refl (s : Subscriber) : Others s s :=
  ⟨rfl, rfl, rfl, rfl, rfl, id, fun _ => id, fun _ _ => rfl⟩

theorem others_step {op : Op} (h : own op = false) (s : Subscriber) : Others s (step s op) := by
  cases op with
  | loop takeClose consume => cases h
  | unsubscribe =>
    simp only [step, Subscriber.unsubscribe]
    split
    · exact { others_refl s with closed := fun _ => rfl }
    · next c hc =>
      refine { others_refl s with closed := fun _ => rfl, isOpen := fun d hd => ?_ }
      by_cases hdc : d = c
      · simp [hdc]
      · simpa [hdc] using hd
  | deliver c =>
    simp only [step]
    split_ifs with hopen
    · refine { others_refl s with pending := fun d hd => ?_ }
      have hne : d ≠ c := by
        rintro rfl
        simp [hopen] at hd
      simp [hne]
    · exact others_refl s
  | lose | disconnect => exact { others_refl s with isOpen := fun _ _ => rfl }
  | notice =>
    simp only [step]
    split_ifs
    all_goals exact { others_refl s with }
  | reconnect =>
    obtain ⟨alive, connected, waitConnection, heq⟩ := made_eq s
    simp only [step, heq]
    exact { others_refl s with }
  | connect =>
    obtain ⟨alive, connected, waitConnection, heq⟩ := made_eq s
    simp only [step, heq]
    split_ifs
    all_goals exact { others_refl s with }

variable {takeClose consume : Bool}

theorem Inv.move (h : Inv s) {pc : Pc} (hranging : ∀ c, pc ≠ .ranging c) (hconsumed : ∀ c, pc ≠ .consumed c) :
    Inv { s with pc := pc } :=
  ⟨fun c hc => absurd hc (hranging c), h.below, fun c hc => absurd hc (hconsumed c)⟩

theorem inv_loop (h : Inv s) : Inv (s.resubscribe takeClose consume) := by
  unfold Subscriber.resubscribe
  cases hpc : s.pc with
  | check | locked =>
    dsimp only
    split_ifs
    all_goals exact h.move nofun nofun
  | select =>
    dsimp only
    split_ifs
    · exact h.move nofun nofun
    · exact h.move nofun nofun
    · exact h
  | consuming =>
    dsimp only
    split_ifs
    · refine ⟨fun c hc => ?_, fun c hc => Nat.lt_succ_of_lt (h.below c hc), fun c hc => ?_⟩
      · cases hc
      · cases hc
        exact ⟨Nat.lt_succ_self _, fun hch => lt_irrefl _ (h.below _ hch)⟩
    · exact h.move nofun nofun
  | consumed c =>
    refine ⟨fun d hd => ?_, fun d hd => ?_, fun d hd => ?_⟩
    · cases hd
      rfl
    · cases hd
      exact (h.consumed c hpc).1
    · cases hd
  | ranging c =>
    dsimp only
    split_ifs
    · exact ⟨hpc ▸ h.ranging, h.below, hpc ▸ h.consumed⟩
    · exact h
    · exact h.move nofun nofun
  | sleeping => exact h.move nofun nofun
  | returned => exact h

theorem inv_step (h : Inv s) (op : Op) : Inv (step s op) := by
  cases hown : own op with
  | false =>
    obtain ⟨hpc, hch, hconsumers⟩ := others_step hown s
    refine ⟨fun c hc => ?_, fun c hc => ?_, fun c hc => ?_⟩
    · rw [hch]
      exact h.ranging c (hpc ▸ hc)
    · rw [hconsumers]
      exact h.below c (hch ▸ hc)
    · rw [hconsumers, hch]
      exact h.consumed c (hpc ▸ hc)
  | true =>
    cases op with
    | loop takeClose consume => exact inv_loop h
    | _ => cases hown

theorem inv_initial : Inv initial := ⟨nofun, nofun, nofun⟩

theorem inv_run (pre : List Op) : Inv (run step initial pre) :=
  run_inv (I := Inv) (fun _ op h => inv_step h op) inv_initial pre

/-! ## Outside the window -/

/-- what is left to do for the loop, once unsubscribed -/
@[simp] def Subscriber.left (s : Subscriber) : ℕ :=
  match s.pc with
  | .returned => 0
  | .check => 1
  | .sleeping => 2
  | .ranging c => s.pending c + 2
  | .consumed c => s.pending c + 3
  | _ => 0

/-- unsubscribed outside the window: either the handler is called only for the consumer that was there, or never -/
structure Settled (s : Subscriber) : Prop where
  closed : s.closed = true
  outside : ¬ Window s
  shut : ∀ c, s.pc = .ranging c → s.isOpen c = false
  quiet : s.recorded = [] ∨ s.handled = [] ∧ ∀ c, s.pc = .ranging c → s.pending c = 0
  unheard : ∀ c, s.pc = .consumed c → s.handled = []
  gone : ∀ c ∈ s.recorded, s.isOpen c = false

theorem window_consumed (hpc : s.pc = .consumed c) : ¬ Window s ↔ s.isOpen c = false ∧ s.pending c = 0 := by
  simp [hpc]

theorem Others.outside {t : Subscriber} (ht : Others s t) (h : ¬ Window s) : ¬ Window t := by
  have hpc := ht.pc
  cases hs : s.pc with
  | consumed c =>
    obtain ⟨hopen, hpending⟩ := (window_consumed hs).1 h
    refine (window_consumed (hpc.trans hs)).2 ⟨ht.isOpen c hopen, ?_⟩
    rw [ht.pending c hopen, hpending]
  | select | locked | consuming => simp [hs] at h
  | _ => simp [hpc.trans hs]

theorem Settled.others {t : Subscriber} (h : Settled s) (ht : Others s t) : Settled t where
  closed := ht.closed h.closed
  outside := ht.outside h.outside
  shut c hc := ht.isOpen c (h.shut c (ht.pc ▸ hc))
  quiet := by
    rw [ht.recorded, ht.handled]
    refine h.quiet.imp_right (And.imp_right fun hquiet c hc => ?_)
    rw [ht.pc] at hc
    rw [ht.pending c (h.shut c hc), hquiet c hc]
  unheard c hc := by
    rw [ht.handled]
    exact h.unheard c (ht.pc ▸ hc)
  gone c hc := ht.isOpen c (h.gone c (ht.recorded ▸ hc))

theorem left_others {t : Subscriber} (h : Settled s) (ht : Others s t) : t.left = s.left := by
  unfold Subscriber.left
  rw [ht.pc]
  cases hpc : s.pc with
  | ranging c => simp [ht.pending c (h.shut c hpc)]
  | consumed c => simp [ht.pending c ((window_consumed hpc).1 h.outside).1]
  | _ => rfl

theorem settled_loop (h : Settled s) :
    Settled (s.resubscribe takeClose consume) ∧ (s.resubscribe takeClose consume).left ≤ s.left - 1 := by
  have hquiet : s.recorded = [] ∨ s.handled = [] := h.quiet.imp_right And.left
  unfold Subscriber.resubscribe
  cases hpc : s.pc with
  | check =>
    simp only [if_pos h.closed]
    refine ⟨⟨h.closed, by simp, by simp, by simpa using hquiet, by simp, h.gone⟩, ?_⟩
    simp
  | sleeping =>
    refine ⟨⟨h.closed, by simp, by simp, by simpa using hquiet, by simp, h.gone⟩, ?_⟩
    simp [hpc]
  | consumed c =>
    obtain ⟨hopen, hpending⟩ := (window_consumed hpc).1 h.outside
    refine ⟨⟨h.closed, by simp, by simpa using hopen, .inr ⟨h.unheard c hpc, by simpa using hpending⟩,
      by simp, fun d hd => ?_⟩, by simp [hpc]⟩
    rcases List.mem_append.1 hd with hd | hd
    · exact h.gone d hd
    · rwa [List.mem_singleton.1 hd]
  | ranging c =>
    have hshut := h.shut c hpc
    dsimp only
    split_ifs with hpending hopen
    · have hrecorded : s.recorded = [] := by
        refine h.quiet.resolve_right fun hq => ?_
        rw [hq.2 c hpc] at hpending
        exact lt_irrefl 0 hpending
      refine ⟨⟨h.closed, by simp, hpc ▸ h.shut, .inl hrecorded, by simp, h.gone⟩, ?_⟩
      simp only [Subscriber.left, hpc, Function.update_self]
      omega
    · simp [hshut] at hopen
    · refine ⟨⟨h.closed, by simp, by simp, by simpa using hquiet, by simp, h.gone⟩, ?_⟩
      simp [hpc]
  | returned =>
    exact ⟨h, by simp [hpc]⟩
  | select | locked | consuming => exact absurd (by simp [hpc]) h.outside

theorem settled_step (h : Settled s) (op : Op) :
    Settled (step s op) ∧ (step s op).left ≤ s.left - (own op).toNat := by
  cases hown : own op with
  | false =>
    have hothers := others_step hown s
    exact ⟨h.others hothers, (left_others h hothers).le⟩
  | true =>
    cases op with
    | loop takeClose consume => exact settled_loop h
    | _ => cases hown

theorem Settled.sound (h : Settled s) : (view s).Sound where
  undelivered c hc hrecorded := by
    rcases h.quiet with hr | ⟨hh, -⟩
    · rw [show (view s).recorded = [] from hr] at hrecorded
      exact absurd hrecorded List.not_mem_nil
    · rw [show (view s).handled = [] from hh] at hc
      exact absurd hc List.not_mem_nil
  closed _ := h.gone

theorem Settled.returned (h : Settled s) (hleft : s.left = 0) : (view s).returned := by
  have houtside := h.outside
  cases hpc : s.pc with
  | returned => simp [view, hpc]
  | select | locked | consuming => simp [hpc] at houtside
  | _ => simp [hpc] at hleft

theorem final_of_settled (h : Settled s) : Final step own view s :=
  final_of_inv (I := Settled) (fun _ op h => (settled_step h op).1) (fun _ op h => (settled_step h op).2)
    (fun _ h => h.sound) (fun _ h => h.returned) h

theorem settled_unsubscribed (hinv : Inv s) (houtside : ¬ Window s) : Settled (unsubscribed s) := by
  have hothers : Others s s.unsubscribe := @others_step .unsubscribe rfl s
  have hpc : (unsubscribed s).pc = s.pc := hothers.pc
  refine ⟨?_, hothers.outside houtside, fun c hc => ?_, .inl rfl, fun _ _ => rfl,
    fun c hc => absurd hc List.not_mem_nil⟩
  · simp only [unsubscribed, Subscriber.unsubscribe]
    split
    all_goals rfl
  · have hch := hinv.ranging c (hpc ▸ hc)
    simp [unsubscribed, Subscriber.unsubscribe, hch]

/-! ## In the window -/

def reconnected : List Op := [.lose, .notice, .connect]

theorem run_reconnected (s : Subscriber) :
    run step s reconnected =
      { s with
        alive := true
        connected := true
        waitConnection := true
        close := false
        isOpen := fun _ => false } := by
  simp [reconnected, step, Subscriber.made]

theorem not_final_of_consumed (hpc : s.pc = .consumed c) (h : s.isOpen c ∨ 0 < s.pending c) :
    ¬ Final step own view s := by
  have hfirst : step s (.loop false false) =
      { s with pc := .ranging c, ch := some c, recorded := s.recorded ++ [c] } := by
    simp only [step, Subscriber.resubscribe, hpc]
  refine not_final [.loop false false, .deliver c, .loop false false] (c := c) ?_ ?_
  all_goals
    rw [run_cons, hfirst]
    by_cases hopen : s.isOpen c
    · simp [view, step, hopen, Subscriber.resubscribe]
    · simp [view, step, hopen, Subscriber.resubscribe, h.resolve_left hopen]

theorem not_final_of_consuming (hpc : s.pc = .consuming) : ¬ Final step own view s := by
  intro hfinal
  refine not_final_of_consumed (c := s.consumers) ?_ (.inl ?_) (hfinal.run (reconnected ++ [.loop false true]))
  all_goals
    rw [run_append, run_reconnected]
    simp [step, Subscriber.resubscribe, hpc]

theorem not_final_of_locked (hpc : s.pc = .locked) : ¬ Final step own view s := by
  intro hfinal
  refine not_final_of_consuming ?_ (hfinal.run (reconnected ++ [.loop false false]))
  rw [run_append, run_reconnected]
  simp [step, Subscriber.resubscribe, hpc]

theorem not_final_of_select (hpc : s.pc = .select) : ¬ Final step own view s := by
  intro hfinal
  refine not_final_of_locked ?_ (hfinal.run (reconnected ++ [.loop false false]))
  rw [run_append, run_reconnected]
  simp [step, Subscriber.resubscribe, hpc]

theorem window_unsubscribed (hinv : Inv s) (h : Window s) : Window (unsubscribed s) := by
  have hothers : Others s s.unsubscribe := @others_step .unsubscribe rfl s
  have hpc : (unsubscribed s).pc = s.pc := hothers.pc
  cases hs : s.pc with
  | consumed c =>
    have hch := (hinv.consumed c hs).2
    simp only [Window, hs, hpc] at h ⊢
    simp only [unsubscribed, Subscriber.unsubscribe]
    split
    · exact h
    · next d hd =>
      have hne : c ≠ d := by
        rintro rfl
        exact hch hd
      simpa [hne] using h
  | select | locked | consuming => simp [hpc, hs]
  | _ => simp [hs] at h

theorem not_final_of_window (h : Window s) : ¬ Final step own view s := by
  cases hpc : s.pc with
  | select => exact not_final_of_select hpc
  | locked => exact not_final_of_locked hpc
  | consuming => exact not_final_of_consuming hpc
  | consumed c => exact not_final_of_consumed hpc (by simpa [hpc] using h)
  | _ => simp [hpc] at h

theorem final_iff (pre : List Op) :
    Final step own view (unsubscribed (run step initial pre)) ↔ ¬ Window (run step initial pre) := by
  have hinv := inv_run pre
  constructor
  · intro hfinal hwindow
    exact not_final_of_window (window_unsubscribed hinv hwindow) hfinal
  · intro houtside
    exact final_of_settled (settled_unsubscribed hinv houtside)

end

end LuluExt.Rabbitmq.Resubscribe
