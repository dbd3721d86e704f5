/-
Calls that share one mutex, for any shared state.

A call is a tree of what it still has to do: take the mutex, release it, wait until its context is cancelled, or act on
the shared state, where the environment may answer and what comes next depends on the answer. Any number of goroutines
make calls; their instructions are interleaved.

`Prog.Balanced` says that a call touches the shared state only while it has the mutex and gives it back; then one
goroutine at most has it (`exclusive_run`), and what every call keeps holds whenever the mutex is free (`guarded_run`).
`returns_iff` is the rule for a call that is about to take the mutex and does not wait after that: without cancelling
any context it can return exactly when the call that has the mutex can release it.
-/
import LuluExt.Lib.Run

namespace LuluExt.Mutex

open Run

/-- what a call still has to do; `ε` are the answers of the environment, `ρ` the results -/
inductive Prog (σ ε ρ : Type) where
  | done (result : ρ)
  | lock (k : Prog σ ε ρ)
  | unlock (k : Prog σ ε ρ)
  /-- wait for the context of the call -/
  | await (k : Prog σ ε ρ)
  | act (f : ε → σ → σ) (k : ε → σ → Prog σ ε ρ)

variable {ι κ σ ε ρ : Type}

/-- an operation with a result that the rest of the call depends on -/
def Prog.perform {β : Type} (g : ε → σ → β × σ) (k : β → Prog σ ε ρ) : Prog σ ε ρ :=
  .act (fun e s => (g e s).2) fun e s => k (g e s).1

/-- an operation whose error the call returns; the mutex is released on the way -/
def Prog.orReturn {η : Type} (g : ε → σ → Option η × σ) (k : Prog σ ε (Option η)) : Prog σ ε (Option η) :=
  .perform g fun
  | some err => .unlock (.done (some err))
  | none => k

structure State (ι σ ε ρ : Type) where
  shared : σ
  holder : Option ι
  /-- what the last call of each goroutine still has to do -/
  code : ι → Prog σ ε ρ
  /-- the context of that call -/
  cancelled : ι → Bool

inductive Op (ι κ ε : Type) where
  | call (i : ι) (c : κ)
  /-- the next instruction of a goroutine; it blocks when the mutex is taken or the context is not cancelled -/
  | step (i : ι) (answer : ε)
  | cancel (i : ι)

def Op.IsCancel : Op ι κ ε → Prop
  | .cancel _ => True
  | _ => False

def step [DecidableEq ι] (prog : κ → Prog σ ε ρ) (s : State ι σ ε ρ) : Op ι κ ε → State ι σ ε ρ
  | .call i c =>
    match s.code i with
    | .done _ =>
      { s with code := Function.update s.code i (prog c), cancelled := Function.update s.cancelled i false }
    | _ => s
  | .step i answer =>
    match s.code i with
    | .done _ => s
    | .lock k => if s.holder = none then { s with holder := some i, code := Function.update s.code i k } else s
    | .unlock k => { s with holder := none, code := Function.update s.code i k }
    | .await k => if s.cancelled i = true then { s with code := Function.update s.code i k } else s
    | .act f k => { s with shared := f answer s.shared, code := Function.update s.code i (k answer s.shared) }
  | .cancel i => { s with cancelled := Function.update s.cancelled i true }

/-! ## Programs -/

/-- the environment can answer so that the mutex is released without another context being cancelled -/
def Prog.CanRelease (cancelled : Bool) : Prog σ ε ρ → σ → Prop
  | .done _, _ => True
  | .lock _, _ => False
  | .unlock _, _ => True
  | .await k, s => cancelled = true ∧ k.CanRelease cancelled s
  | .act f k, s => ∃ e, (k e s).CanRelease cancelled (f e s)

/-- the mutex is taken when it is not held, released when it is, and held whenever the shared state is touched and
whenever the call waits -/
def Prog.Balanced : Bool → Prog σ ε ρ → Prop
  | held, .done _ => held = false
  | held, .lock k => held = false ∧ k.Balanced true
  | held, .unlock k => held = true ∧ k.Balanced false
  | held, .await k => held = true ∧ k.Balanced true
  | held, .act _ k => held = true ∧ ∀ e s, (k e s).Balanced true

/-- whatever the answers, the call goes on to its end and `Q` holds of its result and the shared state -/
def Prog.Finishes (Q : ρ → σ → Prop) : Prog σ ε ρ → σ → Prop
  | .done r, s => Q r s
  | .lock _, _ => False
  | .unlock k, s => k.Finishes Q s
  | .await _, _ => False
  | .act f k, s => ∀ e, (k e s).Finishes Q (f e s)

/-- whenever the call releases the mutex, `I` holds of the shared state, if it did when the mutex was taken -/
def Prog.Keeps (I : σ → Prop) : Prog σ ε ρ → σ → Prop
  | .done _, _ => True
  | .lock k, _ => ∀ s, I s → k.Keeps I s
  | .unlock k, s => I s ∧ ∀ s', k.Keeps I s'
  | .await k, s => k.Keeps I s
  | .act f k, s => ∀ e, (k e s).Keeps I (f e s)

theorem balanced_orReturn {η : Type} {g : ε → σ → Option η × σ} {k : Prog σ ε (Option η)} (hk : k.Balanced true) :
    (Prog.orReturn g k).Balanced true := by
  refine ⟨rfl, fun e s => ?_⟩
  dsimp only
  cases (g e s).1 with
  | some err => exact ⟨rfl, rfl⟩
  | none => exact hk

theorem keeps_trivial (p : Prog σ ε ρ) (s : σ) : p.Keeps (fun _ => True) s := by
  induction p generalizing s with
  | done r => trivial
  | lock k ih => exact fun s _ => ih s
  | unlock k ih => exact ⟨trivial, ih⟩
  | await k ih => exact ih s
  | act f k ih => exact fun e => ih e s (f e s)

variable {I : σ → Prop}

/-- a call without the mutex depends on the shared state only once it has taken it -/
theorem Prog.Balanced.keeps {p : Prog σ ε ρ} (hp : p.Balanced false) {s : σ} (h : p.Keeps I s) (s' : σ) :
    p.Keeps I s' := by
  induction p with
  | done r => trivial
  | lock k _ => exact h
  | unlock k _ | await k _ | act f k _ => cases hp.1

theorem Prog.Balanced.canRelease [Nonempty ε] {p : Prog σ ε ρ} (hp : p.Balanced true) (s : σ) :
    p.CanRelease true s := by
  obtain ⟨e⟩ := ‹Nonempty ε›
  induction p generalizing s with
  | done r => trivial
  | lock k _ => cases hp.1
  | unlock k _ => trivial
  | await k ih => exact ⟨rfl, ih hp.2 s⟩
  | act f k ih => exact ⟨e, ih e s (hp.2 e s) (f e s)⟩

/-! ## Mutual exclusion -/

variable [DecidableEq ι] {prog : κ → Prog σ ε ρ} {s : State ι σ ε ρ}

/-- everything a step can do -/
inductive Turn (prog : κ → Prog σ ε ρ) (s : State ι σ ε ρ) : Op ι κ ε → State ι σ ε ρ → Prop where
  | called {i : ι} {c : κ} {r : ρ} (hcode : s.code i = .done r) :
      Turn prog s (.call i c)
        { s with code := Function.update s.code i (prog c), cancelled := Function.update s.cancelled i false }
  | locked {i : ι} {answer : ε} {k : Prog σ ε ρ} (hcode : s.code i = .lock k) (hnone : s.holder = none) :
      Turn prog s (.step i answer) { s with holder := some i, code := Function.update s.code i k }
  | unlocked {i : ι} {answer : ε} {k : Prog σ ε ρ} (hcode : s.code i = .unlock k) :
      Turn prog s (.step i answer) { s with holder := none, code := Function.update s.code i k }
  | resumed {i : ι} {answer : ε} {k : Prog σ ε ρ} (hcode : s.code i = .await k) (hcancelled : s.cancelled i = true) :
      Turn prog s (.step i answer) { s with code := Function.update s.code i k }
  | acted {i : ι} {answer : ε} {f : ε → σ → σ} {k : ε → σ → Prog σ ε ρ} (hcode : s.code i = .act f k) :
      Turn prog s (.step i answer)
        { s with shared := f answer s.shared, code := Function.update s.code i (k answer s.shared) }
  | cancelled (i : ι) : Turn prog s (.cancel i) { s with cancelled := Function.update s.cancelled i true }
  | stays {op : Op ι κ ε} : Turn prog s op s

theorem turn_step (op : Op ι κ ε) : Turn prog s op (step prog s op) := by
  cases op with
  | call i c =>
    simp only [step]
    split
    case h_1 r hcode => exact .called hcode
    case h_2 => exact .stays
  | step i answer =>
    cases hcode : s.code i with
    | done r =>
      simp only [step, hcode]
      exact .stays
    | lock k =>
      simp only [step, hcode]
      split_ifs with hnone
      · exact .locked hcode hnone
      · exact .stays
    | unlock k =>
      simp only [step, hcode]
      exact .unlocked hcode
    | await k =>
      simp only [step, hcode]
      split_ifs with hcancelled
      · exact .resumed hcode hcancelled
      · exact .stays
    | act f k =>
      simp only [step, hcode]
      exact .acted hcode
  | cancel i => exact .cancelled i

/-- each call is as far as it may be, with or without the mutex -/
def Exclusive (s : State ι σ ε ρ) : Prop := ∀ i, (s.code i).Balanced (decide (s.holder = some i))

variable {i : ι}

theorem Exclusive.holder (h : Exclusive s) (hi : s.holder = some i) : (s.code i).Balanced true := by
  simpa [hi] using h i

theorem Exclusive.other (h : Exclusive s) (hi : s.holder ≠ some i) : (s.code i).Balanced false := by
  simpa [hi] using h i

variable {s' : State ι σ ε ρ} {k : Prog σ ε ρ}

/-- a goroutine goes on and the mutex changes hands, if at all, between it and nobody -/
theorem exclusive_update (h : Exclusive s)
    (hcode : s'.code = Function.update s.code i k) (hk : k.Balanced (decide (s'.holder = some i)))
    (hother : ∀ j, j ≠ i → (s'.holder = some j ↔ s.holder = some j)) : Exclusive s' := by
  intro j
  rw [hcode]
  by_cases hj : j = i
  · subst hj
    simpa using hk
  · simpa [hj, hother j hj] using h j

variable {op : Op ι κ ε}

theorem exclusive_turn (hprog : ∀ c, (prog c).Balanced false)
    (hturn : Turn prog s op s') (h : Exclusive s) : Exclusive s' := by
  have hat {i : ι} {p : Prog σ ε ρ} (hcode : s.code i = p) : p.Balanced (decide (s.holder = some i)) := hcode ▸ h i
  cases hturn with
  | @called i c r hcode =>
    have hfree : s.holder ≠ some i := by
      intro hhold
      have hheld := h.holder hhold
      simp [hcode, Prog.Balanced] at hheld
    exact exclusive_update h rfl (by simpa [hfree] using hprog c) fun _ _ => Iff.rfl
  | locked hcode hnone =>
    refine exclusive_update h rfl (by simpa using (hat hcode).2) fun j hj => ?_
    simp [hnone, Ne.symm hj]
  | @unlocked i answer k hcode =>
    have hheld : s.holder = some i := by simpa using (hat hcode).1
    refine exclusive_update h rfl (by simpa using (hat hcode).2) fun j hj => ?_
    simp [hheld, Ne.symm hj]
  | resumed hcode =>
    obtain ⟨hheld, hk⟩ := hat hcode
    exact exclusive_update h rfl (hheld ▸ hk) fun _ _ => Iff.rfl
  | acted hcode =>
    obtain ⟨hheld, hk⟩ := hat hcode
    exact exclusive_update h rfl (hheld ▸ hk _ _) fun _ _ => Iff.rfl
  | cancelled i | stays => exact h

theorem exclusive_step (hprog : ∀ c, (prog c).Balanced false) (op : Op ι κ ε) (h : Exclusive s) :
    Exclusive (step prog s op) :=
  exclusive_turn hprog (turn_step op) h

theorem exclusive_run (hprog : ∀ c, (prog c).Balanced false) (hs : Exclusive s) (ops : List (Op ι κ ε)) :
    Exclusive (run (step prog) s ops) :=
  run_inv (fun _ op => exclusive_step hprog op) hs ops

/-- the invariant of the mutex: it holds of the shared state whenever the mutex is free -/
structure Guarded (I : σ → Prop) (s : State ι σ ε ρ) : Prop where
  free : s.holder = none → I s.shared
  keeps : ∀ i, (s.code i).Keeps I s.shared

theorem keeps_update (h : ∀ i, (s.code i).Keeps I s.shared)
    (hk : k.Keeps I s.shared) (j : ι) : (Function.update s.code i k j).Keeps I s.shared := by
  by_cases hj : j = i
  · simpa [hj] using hk
  · simpa [hj] using h j

theorem guarded_turn (hkeeps : ∀ c s, (prog c).Keeps I s)
    (hexcl : Exclusive s) (hturn : Turn prog s op s') (h : Guarded I s) : Guarded I s' := by
  have hat {i : ι} {p : Prog σ ε ρ} (hcode : s.code i = p) : p.Keeps I s.shared := hcode ▸ h.keeps i
  cases hturn with
  | @called i c r hcode => exact ⟨h.free, keeps_update h.keeps (hkeeps c s.shared)⟩
  | locked hcode hnone =>
    exact ⟨fun hsome => absurd hsome (by simp), keeps_update h.keeps (hat hcode s.shared (h.free hnone))⟩
  | unlocked hcode =>
    obtain ⟨hI, hk⟩ := hat hcode
    exact ⟨fun _ => hI, keeps_update h.keeps (hk s.shared)⟩
  | resumed hcode =>
    have hk := hat hcode
    exact ⟨h.free, keeps_update h.keeps hk⟩
  | @acted i answer f k hcode =>
    -- the shared state changes under the mutex, and nobody else depends on it
    have hbal := hexcl i
    rw [hcode] at hbal
    have hheld : s.holder = some i := by simpa using hbal.1
    refine ⟨fun hnone => by simp [hheld] at hnone, fun j => ?_⟩
    by_cases hj : j = i
    · subst hj
      simpa using hat hcode answer
    · have hother : s.holder ≠ some j := by
        rw [hheld]
        exact fun heq => hj (Option.some.inj heq).symm
      simpa [hj] using (hexcl.other hother).keeps (h.keeps j) _
  | cancelled i => exact ⟨h.free, h.keeps⟩
  | stays => exact h

theorem guarded_run (hprog : ∀ c, (prog c).Balanced false) (hkeeps : ∀ c s, (prog c).Keeps I s)
    (hexcl : Exclusive s) (h : Guarded I s) (ops : List (Op ι κ ε)) : Guarded I (run (step prog) s ops) :=
  (run_inv (I := fun s => Exclusive s ∧ Guarded I s)
    (fun _ op hs => ⟨exclusive_step hprog op hs.1, guarded_turn hkeeps hs.1 (turn_step op) hs.2⟩) ⟨hexcl, h⟩ ops).2

/-- a call that waits has the mutex, and can release it exactly when its context is cancelled -/
theorem canRelease_await [Nonempty ε] (hexcl : Exclusive s) (hcode : s.code i = .await k) :
    s.holder = some i ∧ ((s.code i).CanRelease (s.cancelled i) s.shared ↔ s.cancelled i) := by
  have hbal := hexcl i
  rw [hcode] at hbal ⊢
  obtain ⟨hheld, hk⟩ := hbal
  refine ⟨by simpa using hheld, fun h => h.1, fun hcancelled => ?_⟩
  rw [hcancelled]
  exact ⟨rfl, hk.canRelease s.shared⟩

/-! ## A call that cannot release -/

/-- the mutex is held by a call that cannot release it, and another call is about to take it -/
structure Stuck (s : State ι σ ε ρ) (j i : ι) : Prop where
  holder : s.holder = some j
  never : ¬ (s.code j).CanRelease (s.cancelled j) s.shared
  waits : ∃ k, s.code i = .lock k

variable {j : ι}

omit [DecidableEq ι] in
theorem Stuck.ne {l : ι} (h : Stuck s j i) (hl : ∀ k, s.code l ≠ .lock k) : l ≠ i := by
  rintro rfl
  obtain ⟨k, hk⟩ := h.waits
  exact hl k hk

theorem Stuck.advance (h : Stuck s j i) (hj : ∀ k, s.code j ≠ .lock k) {shared : σ}
    (hk : ¬ k.CanRelease (s.cancelled j) shared) :
    Stuck { s with shared, code := Function.update s.code j k } j i :=
  ⟨h.holder, by simpa using hk, by simpa [Ne.symm (h.ne hj)] using h.waits⟩

theorem Stuck.frame {l : ι} (h : Stuck s j i) (hj : l ≠ j) (hi : l ≠ i) (k : Prog σ ε ρ) (cancelled : ι → Bool)
    (hcancelled : cancelled j = s.cancelled j) :
    Stuck { s with code := Function.update s.code l k, cancelled } j i :=
  ⟨h.holder, by simpa [Ne.symm hj, hcancelled] using h.never, by simpa [Ne.symm hi] using h.waits⟩

theorem stuck_turn (hexcl : Exclusive s) (hop : ¬ op.IsCancel)
    (hturn : Turn prog s op s') (h : Stuck s j i) : Stuck s' j i := by
  have hnever := h.never
  cases hturn with
  | @called l c r hcode =>
    have hlj : l ≠ j := by
      rintro rfl
      exact hnever (by rw [hcode]; trivial)
    exact h.frame hlj (h.ne (by simp [hcode])) _ _ (Function.update_of_ne (Ne.symm hlj) _ _)
  | locked hcode hnone =>
    -- the mutex is taken
    rw [h.holder] at hnone
    cases hnone
  | @unlocked l answer k hcode =>
    have hl := hexcl l
    rw [hcode] at hl
    obtain rfl : j = l := by simpa [h.holder] using hl.1
    exact absurd (by rw [hcode]; trivial) hnever
  | @resumed l answer k hcode hcancelled =>
    by_cases hlj : l = j
    · subst hlj
      rw [hcode] at hnever
      exact h.advance (by simp [hcode]) fun hk => hnever ⟨hcancelled, hk⟩
    · exact h.frame hlj (h.ne (by simp [hcode])) _ _ rfl
  | @acted l answer f k hcode =>
    have hl := hexcl l
    rw [hcode] at hl
    obtain rfl : j = l := by simpa [h.holder] using hl.1
    rw [hcode] at hnever
    exact h.advance (by simp [hcode]) fun hk => hnever ⟨answer, hk⟩
  | cancelled l => exact absurd trivial hop
  | stays => exact h

theorem stuck_run (hprog : ∀ c, (prog c).Balanced false) (hexcl : Exclusive s) (h : Stuck s j i)
    {ops : List (Op ι κ ε)} (hops : ∀ op ∈ ops, ¬ op.IsCancel) : Stuck (run (step prog) s ops) j i := by
  induction ops generalizing s with
  | nil => exact h
  | cons op ops ih =>
    exact ih (exclusive_step hprog op hexcl) (stuck_turn hexcl (hops op (by simp)) (turn_step op) h)
      fun o ho => hops o (by simp [ho])

/-! ## A call that can -/

theorem release [Nonempty ε] (prog : κ → Prog σ ε ρ) (hheld : s.holder = some j)
    (hbal : (s.code j).Balanced true) (hcan : (s.code j).CanRelease (s.cancelled j) s.shared) :
    ∃ ops : List (Op ι κ ε), (∀ op ∈ ops, ¬ op.IsCancel) ∧ (run (step prog) s ops).holder = none ∧
      ∀ i, i ≠ j → (run (step prog) s ops).code i = s.code i := by
  obtain ⟨e⟩ := ‹Nonempty ε›
  induction hcode : s.code j generalizing s with
  | done r =>
    rw [hcode] at hbal
    cases hbal
  | lock k => simp [hcode, Prog.Balanced] at hbal
  | unlock k =>
    refine ⟨[.step j e], by simp [Op.IsCancel], ?_, fun i hi => ?_⟩
    · simp [step, hcode]
    · simp [step, hcode, hi]
  | await k ih =>
    rw [hcode] at hbal hcan
    obtain ⟨ops, hops, hnone, hothers⟩ := @ih { s with code := Function.update s.code j k } hheld
      (by simpa using hbal.2) (by simpa using hcan.2) (by simp)
    refine ⟨.step j e :: ops, by simpa [Op.IsCancel] using hops, ?_, fun i hi => ?_⟩
    · simpa [step, hcode, hcan.1] using hnone
    · simpa [step, hcode, hcan.1, hi] using hothers i hi
  | act f k ih =>
    rw [hcode] at hbal hcan
    obtain ⟨answer, hk⟩ := hcan
    obtain ⟨ops, hops, hnone, hothers⟩ := @ih answer s.shared
      { s with shared := f answer s.shared, code := Function.update s.code j (k answer s.shared) } hheld
      (by simpa using hbal.2 answer s.shared) (by simpa using hk) (by simp)
    refine ⟨.step j answer :: ops, by simpa [Op.IsCancel] using hops, ?_, fun i hi => ?_⟩
    · simpa [step, hcode] using hnone
    · simpa [step, hcode, hi] using hothers i hi

theorem finish [Nonempty ε] (prog : κ → Prog σ ε ρ) {Q : ρ → σ → Prop} (hfin : (s.code i).Finishes Q s.shared) :
    ∃ ops : List (Op ι κ ε), (∀ op ∈ ops, ¬ op.IsCancel) ∧
      ∃ r, (run (step prog) s ops).code i = .done r ∧ Q r (run (step prog) s ops).shared := by
  obtain ⟨e⟩ := ‹Nonempty ε›
  induction hcode : s.code i generalizing s with
  | done r =>
    rw [hcode] at hfin
    exact ⟨[], by simp, r, hcode, hfin⟩
  | lock k => simp [hcode, Prog.Finishes] at hfin
  | unlock k ih =>
    rw [hcode] at hfin
    obtain ⟨ops, hops, hend⟩ := @ih { s with holder := none, code := Function.update s.code i k }
      (by simpa [Prog.Finishes] using hfin) (by simp)
    exact ⟨.step i e :: ops, by simpa [Op.IsCancel] using hops, by simpa [step, hcode] using hend⟩
  | await k => simp [hcode, Prog.Finishes] at hfin
  | act f k ih =>
    rw [hcode] at hfin
    obtain ⟨ops, hops, hend⟩ := @ih e s.shared
      { s with shared := f e s.shared, code := Function.update s.code i (k e s.shared) }
      (by simpa using hfin e) (by simp)
    exact ⟨.step i e :: ops, by simpa [Op.IsCancel] using hops, by simpa [step, hcode] using hend⟩

/-- **A call that is about to take the mutex.** Without cancelling any context it can come to its end, exactly when the
call that has the mutex, if there is one, can release it. -/
theorem returns_iff [Nonempty ε] (hprog : ∀ c, (prog c).Balanced false)
    (hkeeps : ∀ c s, (prog c).Keeps I s) (hexcl : Exclusive s) (hguard : Guarded I s)
    (hcode : s.code i = .lock k) {Q : ρ → σ → Prop} (hfin : ∀ shared, I shared → k.Finishes Q shared) :
    (∃ ops : List (Op ι κ ε), (∀ op ∈ ops, ¬ op.IsCancel) ∧
        ∃ r, (run (step prog) s ops).code i = .done r ∧ Q r (run (step prog) s ops).shared) ↔
      ∀ j, s.holder = some j → (s.code j).CanRelease (s.cancelled j) s.shared := by
  constructor
  · rintro ⟨ops, hops, r, hdone, -⟩ j hj
    by_contra hnever
    obtain ⟨k', hk'⟩ := (stuck_run hprog hexcl ⟨hj, hnever, k, hcode⟩ hops).waits
    rw [hdone] at hk'
    cases hk'
  · intro hcan
    obtain ⟨e⟩ := ‹Nonempty ε›
    -- first the mutex is released
    have hfree : ∃ ops : List (Op ι κ ε), (∀ op ∈ ops, ¬ op.IsCancel) ∧ (run (step prog) s ops).holder = none ∧
        (run (step prog) s ops).code i = .lock k := by
      cases hholder : s.holder with
      | none => exact ⟨[], by simp, hholder, hcode⟩
      | some j =>
        have hbal := hexcl.holder hholder
        have hij : i ≠ j := by
          rintro rfl
          simp [hcode, Prog.Balanced] at hbal
        obtain ⟨ops, hops, hnone, hothers⟩ := release prog hholder hbal (hcan j hholder)
        exact ⟨ops, hops, hnone, (hothers i hij).trans hcode⟩
    obtain ⟨ops₁, hops₁, hnone, hlock⟩ := hfree
    have hI := (guarded_run hprog hkeeps hexcl hguard ops₁).free hnone
    -- then the call takes it, and goes on to its end
    have htaken : (step prog (run (step prog) s ops₁) (.step i e)).code i = k := by simp [step, hlock, hnone]
    have hshared : (step prog (run (step prog) s ops₁) (.step i e)).shared = (run (step prog) s ops₁).shared := by
      simp [step, hlock, hnone]
    obtain ⟨ops₂, hops₂, hend⟩ := finish prog (s := step prog (run (step prog) s ops₁) (.step i e)) (i := i)
      (by rw [htaken, hshared]; exact hfin _ hI)
    refine ⟨ops₁ ++ .step i e :: ops₂, ?_, ?_⟩
    · intro op hop
      rcases List.mem_append.1 hop with hop | hop
      · exact hops₁ op hop
      · rcases List.mem_cons.1 hop with rfl | hop
        · exact id
        · exact hops₂ op hop
    · simpa [run_append] using hend

end LuluExt.Mutex
