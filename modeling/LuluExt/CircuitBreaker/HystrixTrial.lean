/-
Who ends a half-open period of the hystrix breaker.

Any number of clients share one breaker: each calls `Allow` and, when admitted, later reports one outcome; `State` and
`Close` calls are interleaved anywhere. `Sys` runs the breaker and keeps what the code does not: a ticket for every
admitted request (the client, and the half-open period whose trial it is), the number of half-open periods, and for
each period left, whose report ended it.

`Exclusive`: every half-open period was ended by the report of its own trial, and at most one trial is outstanding.
A report carries no identity: `MarkSuccess` and `MarkFailure` in HalfOpen take every report for the trial's.
-/
import LuluExt.CircuitBreaker.Hystrix

namespace LuluExt.Hystrix

open LuluExt.Run LuluExt.CircuitBreaker

/-- an admitted request that has not reported yet: its client, and the period whose trial it is (none: admitted in
Closed) -/
structure Ticket where
  client : ℕ
  trialOf : Option ℕ
deriving DecidableEq, Repr

structure Sys where
  b : Breaker
  out : List Ticket
  period : ℕ
  /-- half-open periods left, each with the report that ended it -/
  exits : List (ℕ × Option Ticket)

namespace Sys

inductive Call where
  | allow (client now : ℕ)
  | mark (client : ℕ) (ok : Bool) (now evalNow : ℕ)
  | state (now : ℕ)
  | close
deriving DecidableEq, Repr

def ticket (s : Sys) (client : ℕ) : Option Ticket := s.out.find? fun t => t.client = client

/-- the breaker moves to `b'`; entering and leaving HalfOpen is noted -/
def observe (s : Sys) (b' : Breaker) (reporter : Option Ticket) : Sys where
  b := b'
  out := s.out
  period := if s.b.state ≠ .halfOpen ∧ b'.state = .halfOpen then s.period + 1 else s.period
  exits := if s.b.state = .halfOpen ∧ b'.state ≠ .halfOpen then s.exits ++ [(s.period, reporter)] else s.exits

def giveTicket (s : Sys) (client : ℕ) : Sys :=
  { s with out := ⟨client, if s.b.state = .halfOpen then some s.period else none⟩ :: s.out }

/-- one call; a client with a request in flight asks for no second one, and only admitted clients report -/
def step (s : Sys) : Call → Sys
  | .allow client now =>
    match s.ticket client with
    | some _ => s
    | none =>
      let s' := s.observe (allow s.b now).2 none
      if (allow s.b now).1 = none then s'.giveTicket client else s'
  | .mark client ok now evalNow =>
    match s.ticket client with
    | none => s
    | some t =>
      { s.observe (reported s.b ok now evalNow) (some t) with out := s.out.filter fun t' => t'.client ≠ client }
  | .state now => s.observe (pollState s.b now).2 none
  | .close => s.observe (close s.b) none

def start (cfg : Config) (now : ℕ) : Sys := ⟨new cfg now, [], 0, []⟩

def trials (s : Sys) : List Ticket := s.out.filter fun t => t.trialOf.isSome

/-- every half-open period was ended by its own trial, and at most one trial is outstanding -/
def Exclusive (s : Sys) : Prop :=
  (∀ x ∈ s.exits, ∃ t, x.2 = some t ∧ t.trialOf = some x.1) ∧ s.trials.length ≤ 1

/-- while the breaker is HalfOpen, only the trial of this period reports -/
def OwnReport (s : Sys) : Call → Prop
  | .mark client _ _ _ => s.b.state = .halfOpen → ∀ t, s.ticket client = some t → t.trialOf = some s.period
  | _ => True

/-! ## What a report does to the breaker -/

theorem reported_halfOpen {b : Breaker} (h : Sound b) (hs : b.state = .halfOpen) (ok : Bool) (now evalNow : ℕ) :
    (reported b ok now evalNow).state ≠ .halfOpen := by
  rw [reported_eq (h.wf (by simp [hs])), if_pos hs]
  split_ifs <;> exact nofun

/-! ## The invariant -/

structure TInv (s : Sys) : Prop where
  sound : Sound s.b
  exits_ok : ∀ x ∈ s.exits, ∃ t, x.2 = some t ∧ t.trialOf = some x.1
  /-- an outstanding trial is the trial of the current period, and holds its slot -/
  current : ∀ t ∈ s.out, ∀ p, t.trialOf = some p → p = s.period ∧ s.b.state = .halfOpen ∧ s.b.halfOpenIn = true
  one : s.trials.length ≤ 1

theorem tinv_start (cfg : Config) (now : ℕ) : TInv (start cfg now) :=
  ⟨sound_new cfg now, by simp [start], by simp [start], by simp [start, trials]⟩

variable {s : Sys}

theorem trials_eq_nil (h : ∀ t ∈ s.out, t.trialOf = none) : s.trials = [] := by
  rw [trials, List.filter_eq_nil_iff]
  intro t ht
  simp [h t ht]

theorem TInv.no_trial (h : TInv s) (hs : s.b.state ≠ .halfOpen ∨ s.b.halfOpenIn = false) :
    ∀ t ∈ s.out, t.trialOf = none := by
  intro t ht
  cases hp : t.trialOf with
  | none => rfl
  | some p =>
    obtain ⟨-, h1, h2⟩ := h.current t ht p hp
    rcases hs with hs | hs
    · exact absurd h1 hs
    · rw [h2] at hs; cases hs

theorem tinv_observe (h : TInv s) {b' : Breaker} (hb : Sound b') (hno : ∀ t ∈ s.out, t.trialOf = none)
    (hstay : s.b.state = .halfOpen → b'.state = .halfOpen) : TInv (s.observe b' none) := by
  refine ⟨hb, ?_, ?_, ?_⟩
  · have hex : (s.observe b' none).exits = s.exits := by
      simp only [observe, ite_eq_right_iff, and_imp]
      intro h1 h2
      exact absurd (hstay h1) h2
    rw [hex]; exact h.exits_ok
  · intro t ht p hp
    rw [hno t ht] at hp; cases hp
  · rw [trials_eq_nil (s := s.observe b' none) hno]; simp

theorem observe_same (s : Sys) (reporter : Option Ticket) : s.observe s.b reporter = s := by
  simp [observe]

theorem tinv_allow (h : TInv s) {client : ℕ} (now : ℕ) : TInv (s.step (.allow client now)) := by
  simp only [step]
  split
  · exact h
  · rcases allow_cases s.b now with e | ⟨hs, e⟩ | ⟨hs, hi, e⟩ | ⟨hs, e⟩
    · simpa [e, observe_same] using h
    · -- admitted in Closed: one more ticket, no trial
      have hne : s.b.state ≠ .halfOpen := by simp [hs]
      simp only [e, observe_same, giveTicket, if_neg hne]
      refine ⟨h.sound, h.exits_ok, fun t ht p hp => ?_, ?_⟩
      · rcases List.mem_cons.1 ht with rfl | ht
        · cases hp
        · exact h.current t ht p hp
      · simpa [trials] using h.one
    · -- the free slot: no trial is outstanding, the new ticket is the only one
      have hno := h.no_trial (Or.inr hi)
      have hst : (grantSlot s.b).state = .halfOpen := hs
      have hobs : s.observe (grantSlot s.b) none = { s with b := grantSlot s.b } := by simp [observe, hs, hst]
      simp only [e, hobs, giveTicket, hst]
      refine ⟨⟨h.sound.buckets_pos, fun hd => absurd (h.sound.zero_closed hd) (by simp [hs])⟩, h.exits_ok,
        fun t ht p hp => ?_, ?_⟩
      · rcases List.mem_cons.1 ht with rfl | ht
        · cases hp; exact ⟨rfl, hst, rfl⟩
        · rw [hno t ht] at hp; cases hp
      · have := trials_eq_nil hno
        rw [trials] at this
        simp [trials, this]
    · -- the sleep window is over: a new period without a trial
      simp only [e]
      have hb := (quiet_allow s.b now).sound h.sound
      rw [e] at hb
      exact tinv_observe h hb (h.no_trial (Or.inl (by simp [hs]))) (fun _ => rfl)

theorem mem_of_ticket {client : ℕ} {t : Ticket} (h : s.ticket client = some t) : t ∈ s.out ∧ t.client = client :=
  ⟨List.mem_of_find?_eq_some h, by simpa using List.find?_some h⟩

theorem no_other_trial (h : TInv s) {t t' : Ticket} (ht : t ∈ s.out) (ht' : t' ∈ s.out)
    (hp : t.trialOf.isSome) (hne : t'.client ≠ t.client) : t'.trialOf = none := by
  by_contra hc
  have h1 : t ∈ s.trials := List.mem_filter.2 ⟨ht, hp⟩
  have h2 : t' ∈ s.trials := List.mem_filter.2 ⟨ht', Option.isSome_iff_ne_none.2 hc⟩
  have hone := h.one
  match hl : s.trials with
  | [] => rw [hl] at h1; simp at h1
  | [x] =>
    rw [hl, List.mem_singleton] at h1 h2
    exact hne (by rw [h1, h2])
  | _ :: _ :: _ => rw [hl] at hone; simp at hone

theorem tinv_mark (h : TInv s) {client : ℕ} {ok : Bool} {now evalNow : ℕ}
    (hown : s.OwnReport (.mark client ok now evalNow)) : TInv (s.step (.mark client ok now evalNow)) := by
  simp only [step]
  split
  · exact h
  · rename_i t ht
    obtain ⟨hmem, hcl⟩ := mem_of_ticket ht
    have hb := sound_reported h.sound ok now evalNow
    -- afterwards no trial is outstanding: in HalfOpen its own report took the only ticket, else there was none
    have hno : ∀ t' ∈ s.out.filter (fun t' => t'.client ≠ client), t'.trialOf = none := by
      intro t' ht'
      obtain ⟨ht1, ht2⟩ := List.mem_filter.1 ht'
      by_cases hs : s.b.state = .halfOpen
      · have hp := hown hs t ht
        exact no_other_trial h hmem ht1 (by simp [hp]) (by rw [hcl]; simpa using ht2)
      · exact h.no_trial (Or.inl hs) t' ht1
    refine ⟨hb, ?_, fun t' ht' p hp => ?_, ?_⟩
    · intro x hx
      simp only [observe] at hx
      split_ifs at hx with hcond
      · rcases List.mem_append.1 hx with hx | hx
        · exact h.exits_ok x hx
        · rw [List.mem_singleton.1 hx]
          exact ⟨t, rfl, hown hcond.1 t ht⟩
      · exact h.exits_ok x hx
    · rw [hno t' ht'] at hp; cases hp
    · rw [trials_eq_nil hno]; simp

theorem tinv_step (h : TInv s) {c : Call} (hown : s.OwnReport c) : TInv (s.step c) := by
  cases c with
  | allow client now => exact tinv_allow h now
  | mark client ok now evalNow => exact tinv_mark h hown
  | state now =>
    by_cases hp : s.b.state = .open ∧ (now : ℤ) - s.b.openedAt ≥ s.b.cfg.sleepWindow
    · have hne : s.b.state ≠ .halfOpen := by simp [hp.1]
      exact tinv_observe h ((quiet_pollState s.b now).sound h.sound) (h.no_trial (Or.inl hne)) (fun hs => absurd hs hne)
    · have hsame : (pollState s.b now).2 = s.b := by simp [pollState, hp]
      simpa [step, hsame, observe_same] using h
  | close =>
    have hobs : s.observe (close s.b) none = { s with b := close s.b } := by simp [observe, close]
    rw [step, hobs]
    exact ⟨(quiet_close s.b).sound h.sound, h.exits_ok, h.current, h.one⟩

theorem not_exclusive_step (h : TInv s) {c : Call} (hown : ¬ s.OwnReport c) : ¬ (s.step c).Exclusive := by
  cases c with
  | mark client ok now evalNow =>
    simp only [OwnReport, not_forall] at hown
    obtain ⟨hs, t, ht, hp⟩ := hown
    intro hexcl
    have hex := hexcl.1
    have hafter := reported_halfOpen h.sound hs ok now evalNow
    have hm : (s.period, some t) ∈ (s.step (.mark client ok now evalNow)).exits := by
      simp [step, ht, observe, hs, hafter]
    obtain ⟨t', ht', hp'⟩ := hex _ hm
    cases ht'
    exact hp hp'
  | allow client now | state now | close => exact absurd trivial hown

/-- **Half-open periods end with their own trial exactly when nobody else reports during them.** In all states of a run
each period left was ended by its own trial and at most one trial is outstanding, if and only if no other request
reports while the breaker is HalfOpen. -/
theorem exclusive_iff (cfg : Config) (now : ℕ) (calls : List Call) :
    Always step Exclusive (start cfg now) calls ↔ Along step OwnReport (start cfg now) calls := by
  refine always_iff_along_of_inv (I := TInv) ?_ ?_ ?_ (tinv_start cfg now) calls
  · intro s h
    exact ⟨h.exits_ok, h.one⟩
  · intro s c h hown
    exact tinv_step h hown
  · intro s c h hown
    exact not_exclusive_step h hown

/-- client 1 is admitted in Closed and stays in flight; client 2 trips the breaker; at the end of the sleep window
`State` opens a half-open period and client 3 is its trial -/
def lateCalls : List Call :=
  [.allow 1 0, .allow 2 0, .mark 2 false 0 0, .state 5000000000, .allow 3 5000000000]

def lateStart : Sys := start (configure [withRequestVolumeThreshold 1]) 0

/-- **A late report closes the breaker.** Client 1, admitted in Closed, ends the period of client 3's trial. Had it
reported a failure, the breaker would re-open and let in a second trial beside the first. -/
theorem late_report_closes :
    (run step lateStart lateCalls).b.state = .halfOpen ∧
    (run step lateStart (lateCalls ++ [.mark 1 true 5000000001 5000000001])).b.state = .closed ∧
    (run step lateStart (lateCalls ++ [.mark 1 true 5000000001 5000000001])).exits = [(1, some ⟨1, none⟩)] ∧
    ¬ (run step lateStart (lateCalls ++ [.mark 1 true 5000000001 5000000001])).Exclusive ∧
    (run step lateStart (lateCalls ++ [.mark 1 false 5000000001 5000000001, .state 10000000001,
      .allow 4 10000000001])).trials = [⟨4, some 2⟩, ⟨3, some 1⟩] := by
  have hex : (run step lateStart (lateCalls ++ [.mark 1 true 5000000001 5000000001])).exits =
      [(1, some ⟨1, none⟩)] := by
    decide +kernel
  refine ⟨by decide +kernel, by decide +kernel, hex, ?_, by decide +kernel⟩
  intro hexcl
  obtain ⟨t, ht, hp⟩ := hexcl.1 (1, some ⟨1, none⟩) (by rw [hex]; simp)
  cases ht
  cases hp

end Sys

end LuluExt.Hystrix
