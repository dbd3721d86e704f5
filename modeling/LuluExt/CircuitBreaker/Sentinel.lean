/-
The adapter to Sentinel: entries opened by `Allow` and exited by the marks.

`Allow` opens an entry and puts it into the one field `entry` of the breaker; `MarkSuccess` and `MarkFailure` take
whatever that field holds and exit it. Opening and exiting happen outside the mutex. `Execute` keeps its entry in a
variable of its own. Whether Sentinel lets a request pass is an input. Entries are numbered in the order they are
opened; which entry a client opened and what it reported are recorded beside the breaker, which does not know them.

- `serial_accounted`: nothing goes wrong for clients that take turns.
-/
import LuluExt.Lib.Run
import LuluExt.CircuitBreaker.Basic

namespace LuluExt.Sentinel

open Run CircuitBreaker

variable {ι : Type} [DecidableEq ι]

/-! ## The breaker and its clients -/

/-- what `sentinelapi.Entry` returns: an entry, or a block error -/
inductive Answer where
  | pass
  | block (circuitBreaking : Bool)
deriving DecidableEq, Repr

/-- where a client is; `e` is the entry that it opened -/
inductive Pc where
  | idle
  /-- in `Allow`, before the mutex -/
  | entered (e : ℕ)
  /-- `Allow` has returned nil -/
  | admitted (e : ℕ)
  /-- in a mark, after the mutex, with the entry that it took -/
  | marking (e : ℕ) (taken : Option ℕ) (failed : Bool)
  | executing (e : ℕ)
deriving DecidableEq, Repr

structure Sys (ι : Type) where
  entry : Option ℕ
  opened : ℕ
  /-- calls of `Exit`, each with whether an error was traced on the entry before -/
  exits : List (ℕ × Bool)
  /-- whether the client that opened the entry reported a failure, once it has reported -/
  report : ℕ → Option Bool
  pc : ι → Pc

def start : Sys ι := ⟨none, 0, [], fun _ => none, fun _ => .idle⟩

inductive Op (ι : Type) where
  /-- `Allow` up to the mutex -/
  | enter (c : ι) (answer : Answer)
  /-- the rest of `Allow` -/
  | store (c : ι)
  /-- `MarkFailure`, or `MarkSuccess`, through the mutex -/
  | mark (c : ι) (failed : Bool)
  /-- the rest of the mark -/
  | exit (c : ι)
  | execute (c : ι) (answer : Answer)
  | returns (c : ι) (failed : Bool)
deriving DecidableEq, Repr

def step (s : Sys ι) : Op ι → Sys ι
  | .enter c answer =>
    match s.pc c, answer with
    | .idle, .pass => { s with opened := s.opened + 1, pc := Function.update s.pc c (.entered s.opened) }
    | _, _ => s
  | .store c =>
    match s.pc c with
    | .entered e => { s with entry := some e, pc := Function.update s.pc c (.admitted e) }
    | _ => s
  | .mark c failed =>
    match s.pc c with
    | .admitted e =>
      { s with
        entry := none
        report := Function.update s.report e (some failed)
        pc := Function.update s.pc c (.marking e s.entry failed) }
    | _ => s
  | .exit c =>
    match s.pc c with
    | .marking _ (some taken) failed =>
      { s with exits := s.exits ++ [(taken, failed)], pc := Function.update s.pc c .idle }
    | .marking _ none _ => { s with pc := Function.update s.pc c .idle }
    | _ => s
  | .execute c answer =>
    match s.pc c, answer with
    | .idle, .pass => { s with opened := s.opened + 1, pc := Function.update s.pc c (.executing s.opened) }
    | _, _ => s
  | .returns c failed =>
    match s.pc c with
    | .executing e =>
      { s with
        exits := s.exits ++ [(e, failed)]
        report := Function.update s.report e (some failed)
        pc := Function.update s.pc c .idle }
    | _ => s

def exitsOf (exits : List (ℕ × Bool)) (e : ℕ) : List Bool := (exits.filter fun p => p.1 = e).map Prod.snd

/-- every entry was exited exactly once, with the outcome that its client reported -/
def Accounted (s : Sys ι) : Prop := ∀ e < s.opened, ∃ failed, s.report e = some failed ∧ exitsOf s.exits e = [failed]

def Finished (s : Sys ι) : Prop := ∀ c, s.pc c = .idle

/-- the client stands between its `Allow` and its mark -/
def Pc.outstanding : Pc → Bool
  | .admitted _ => true
  | _ => false

/-- an `Allow` that stores its entry finds nobody between `Allow` and mark -/
def Alone (s : Sys ι) : Op ι → Prop
  | .store c => (∃ e, s.pc c = .entered e) → ∀ c', (s.pc c').outstanding = false
  | _ => True

/-! ## What a step does -/

inductive Turn (s : Sys ι) : Op ι → Sys ι → Prop
  | stays (o : Op ι) : Turn s o s
  | opens (o : Op ι) (c : ι) (p : Pc) (hc : s.pc c = .idle) (hp : p = .entered s.opened ∨ p = .executing s.opened) :
    Turn s o { s with opened := s.opened + 1, pc := Function.update s.pc c p }
  | stores (c : ι) (e : ℕ) (hc : s.pc c = .entered e) :
    Turn s (.store c) { s with entry := some e, pc := Function.update s.pc c (.admitted e) }
  | takes (c : ι) (e : ℕ) (failed : Bool) (hc : s.pc c = .admitted e) :
    Turn s (.mark c failed) { s with
      entry := none
      report := Function.update s.report e (some failed)
      pc := Function.update s.pc c (.marking e s.entry failed) }
  | exits (c : ι) (e taken : ℕ) (failed : Bool) (hc : s.pc c = .marking e (some taken) failed) :
    Turn s (.exit c) { s with exits := s.exits ++ [(taken, failed)], pc := Function.update s.pc c .idle }
  | drops (c : ι) (e : ℕ) (failed : Bool) (hc : s.pc c = .marking e none failed) :
    Turn s (.exit c) { s with pc := Function.update s.pc c .idle }
  | returns (c : ι) (e : ℕ) (failed : Bool) (hc : s.pc c = .executing e) :
    Turn s (.returns c failed) { s with
      exits := s.exits ++ [(e, failed)]
      report := Function.update s.report e (some failed)
      pc := Function.update s.pc c .idle }

theorem turn_step (s : Sys ι) (o : Op ι) : Turn s o (step s o) := by
  cases o with
  | enter c answer =>
    simp only [step]
    split
    · exact .opens _ c _ ‹_› (.inl rfl)
    · exact .stays _
  | store c =>
    simp only [step]
    split
    · exact .stores c _ ‹_›
    · exact .stays _
  | mark c failed =>
    simp only [step]
    split
    · exact .takes c _ failed ‹_›
    · exact .stays _
  | exit c =>
    simp only [step]
    split
    · exact .exits c _ _ _ ‹_›
    · exact .drops c _ _ ‹_›
    · exact .stays _
  | execute c answer =>
    simp only [step]
    split
    · exact .opens _ c _ ‹_› (.inr rfl)
    · exact .stays _
  | returns c failed =>
    simp only [step]
    split
    · exact .returns c _ failed ‹_›
    · exact .stays _

theorem exitsOf_append (exits : List (ℕ × Bool)) (t e : ℕ) (failed : Bool) :
    exitsOf (exits ++ [(t, failed)]) e = exitsOf exits e ++ if t = e then [failed] else [] := by
  by_cases h : t = e
  · simp [exitsOf, h]
  · simp [exitsOf, h]

/-! ## The books while nobody is overtaken -/

/-- the entry that a client has opened and not yet settled -/
def Pc.own : Pc → Option ℕ
  | .idle => none
  | .entered e => some e
  | .admitted e => some e
  | .marking e _ _ => some e
  | .executing e => some e

structure Kept (s : Sys ι) : Prop where
  own_lt : ∀ c e, (s.pc c).own = some e → e < s.opened
  own_inj : ∀ c c' e, (s.pc c).own = some e → (s.pc c').own = some e → c = c'
  /-- the field holds the entry of the client between its calls -/
  entry_iff : ∀ e, s.entry = some e ↔ ∃ c, s.pc c = .admitted e
  /-- a mark took the entry of its own client -/
  taken_own : ∀ c e taken failed, s.pc c = .marking e taken failed → taken = some e ∧ s.report e = some failed
  unexited : ∀ c e, (s.pc c).own = some e → exitsOf s.exits e = []
  unopened : ∀ e, s.opened ≤ e → exitsOf s.exits e = []
  settled : ∀ e < s.opened, (∃ c, (s.pc c).own = some e) ∨
    ∃ failed, s.report e = some failed ∧ exitsOf s.exits e = [failed]

omit [DecidableEq ι] in
theorem kept_start : Kept (start : Sys ι) where
  own_lt c e h := by simp [start, Pc.own] at h
  own_inj c c' e h := by simp [start, Pc.own] at h
  entry_iff e := by simp [start]
  taken_own c e taken failed h := by simp [start] at h
  unexited c e h := by simp [start, Pc.own] at h
  unopened e _ := rfl
  settled e h := by simp [start] at h

variable {c : ι}

theorem own_update {pc : ι → Pc} {p : Pc} (hp : p.own = (pc c).own) (c' : ι) :
    (Function.update pc c p c').own = (pc c').own := by
  by_cases h : c' = c
  · rw [h, Function.update_self, hp]
  · rw [Function.update_of_ne h]

variable {e : ℕ}

theorem own_update_idle {pc : ι → Pc} {c' : ι} :
    (Function.update pc c .idle c').own = some e ↔ c' ≠ c ∧ (pc c').own = some e := by
  by_cases h : c' = c
  · simp [h, Pc.own]
  · simp [h]

theorem update_eq_iff {pc : ι → Pc} {c' : ι} {p q : Pc} (hp : p ≠ q) (hc : pc c ≠ q) :
    Function.update pc c p c' = q ↔ pc c' = q := by
  by_cases h : c' = c
  · rw [h, Function.update_self]
    exact iff_of_false hp hc
  · rw [Function.update_of_ne h]

section

variable {s : Sys ι} (h : Kept s)

include h

theorem Kept.opens {p : Pc} (hc : s.pc c = .idle) (hp : p = .entered s.opened ∨ p = .executing s.opened) :
    Kept { s with opened := s.opened + 1, pc := Function.update s.pc c p } := by
  have hown : p.own = some s.opened := by rcases hp with rfl | rfl <;> rfl
  have hother : ∀ {c' e}, (Function.update s.pc c p c').own = some e →
      c' = c ∧ e = s.opened ∨ c' ≠ c ∧ (s.pc c').own = some e := by
    intro c' e he
    by_cases hcc : c' = c
    · rw [hcc, Function.update_self, hown] at he
      exact .inl ⟨hcc, (Option.some.inj he).symm⟩
    · rw [Function.update_of_ne hcc] at he
      exact .inr ⟨hcc, he⟩
  refine ⟨?_, ?_, ?_, ?_, ?_, ?_, ?_⟩
  · intro c' e he
    rcases hother he with ⟨-, rfl⟩ | ⟨-, he⟩
    · exact Nat.lt_succ_self _
    · exact (h.own_lt c' e he).trans (Nat.lt_succ_self _)
  · intro c' c'' e he he'
    rcases hother he with ⟨rfl, rfl⟩ | ⟨-, hold⟩
    · rcases hother he' with ⟨rfl, -⟩ | ⟨-, hold'⟩
      · rfl
      · exact absurd (h.own_lt _ _ hold') (lt_irrefl _)
    · rcases hother he' with ⟨-, rfl⟩ | ⟨-, hold'⟩
      · exact absurd (h.own_lt _ _ hold) (lt_irrefl _)
      · exact h.own_inj _ _ e hold hold'
  · intro e
    have hne : p ≠ .admitted e := by rcases hp with rfl | rfl <;> simp
    have hidle : s.pc c ≠ .admitted e := by simp [hc]
    simp only [update_eq_iff hne hidle, h.entry_iff]
  · intro c' e taken failed he
    have hne : p ≠ .marking e taken failed := by rcases hp with rfl | rfl <;> simp
    exact h.taken_own c' e taken failed ((update_eq_iff hne (by simp [hc])).1 he)
  · intro c' e he
    rcases hother he with ⟨-, rfl⟩ | ⟨-, hold⟩
    · exact h.unopened _ le_rfl
    · exact h.unexited c' e hold
  · intro e he
    exact h.unopened e (Nat.le_of_succ_le he)
  · intro e he
    rcases Nat.lt_succ_iff_lt_or_eq.1 he with hlt | rfl
    · refine (h.settled e hlt).imp_left fun ⟨c', hc'⟩ => ⟨c', ?_⟩
      have hcc : c' ≠ c := fun heq => by simp [heq, hc, Pc.own] at hc'
      simp only [Function.update_of_ne hcc, hc']
    · exact .inl ⟨c, by simp [hown]⟩

theorem Kept.stores (hc : s.pc c = .entered e) (halone : ∀ c', (s.pc c').outstanding = false) :
    Kept { s with entry := some e, pc := Function.update s.pc c (.admitted e) } := by
  have hown : ∀ c', (Function.update s.pc c (.admitted e) c').own = (s.pc c').own := own_update (by rw [hc]; rfl)
  refine ⟨?_, ?_, ?_, ?_, ?_, h.unopened, ?_⟩
  · simpa only [hown] using h.own_lt
  · simpa only [hown] using h.own_inj
  · intro e'
    constructor
    · intro he
      obtain rfl := Option.some.inj he
      exact ⟨c, Function.update_self ..⟩
    · rintro ⟨c', hc'⟩
      dsimp only at hc'
      by_cases hcc : c' = c
      · rw [hcc, Function.update_self] at hc'
        rw [Pc.admitted.inj hc']
      · rw [Function.update_of_ne hcc] at hc'
        have hnone := halone c'
        simp [hc', Pc.outstanding] at hnone
  · intro c' e' taken failed he
    exact h.taken_own c' e' taken failed ((update_eq_iff (by simp) (by simp [hc])).1 he)
  · simpa only [hown] using h.unexited
  · simpa only [hown] using h.settled

theorem Kept.takes {failed : Bool} (hc : s.pc c = .admitted e) :
    Kept { s with
      entry := none
      report := Function.update s.report e (some failed)
      pc := Function.update s.pc c (.marking e s.entry failed) } := by
  have hown : ∀ c', (Function.update s.pc c (.marking e s.entry failed) c').own = (s.pc c').own :=
    own_update (by rw [hc]; rfl)
  have hentry : s.entry = some e := (h.entry_iff e).2 ⟨c, hc⟩
  have hmine : (s.pc c).own = some e := by rw [hc]; rfl
  refine ⟨?_, ?_, ?_, ?_, ?_, h.unopened, ?_⟩
  · simpa only [hown] using h.own_lt
  · simpa only [hown] using h.own_inj
  · intro e'
    refine iff_of_false (by simp) ?_
    rintro ⟨c', hc'⟩
    dsimp only at hc'
    by_cases hcc : c' = c
    · simp [hcc] at hc'
    · rw [Function.update_of_ne hcc] at hc'
      -- two clients between their calls would have to share the field, and with it the entry
      have hsame : e = e' := Option.some.inj (hentry.symm.trans ((h.entry_iff e').2 ⟨c', hc'⟩))
      exact hcc (h.own_inj c' c e (by rw [hc', hsame]; rfl) hmine)
  · intro c' e' taken failed' he
    dsimp only at he ⊢
    by_cases hcc : c' = c
    · rw [hcc, Function.update_self] at he
      obtain ⟨rfl, rfl, rfl⟩ := Pc.marking.inj he
      exact ⟨hentry, Function.update_self ..⟩
    · rw [Function.update_of_ne hcc] at he
      have hne : e' ≠ e := fun heq => hcc (h.own_inj c' c e (by rw [he, heq]; rfl) hmine)
      rw [Function.update_of_ne hne]
      exact h.taken_own c' e' taken failed' he
  · simpa only [hown] using h.unexited
  · intro e' he'
    simp only [hown]
    by_cases heq : e' = e
    · exact .inl ⟨c, by rw [heq, hmine]⟩
    · simpa only [Function.update_of_ne heq] using h.settled e' he'

theorem Kept.settles {failed : Bool} (hown : (s.pc c).own = some e)
    (hc : ∀ e', s.pc c ≠ .admitted e') {report : ℕ → Option Bool} (hreport : report e = some failed)
    (hsame : ∀ e' ≠ e, report e' = s.report e') :
    Kept { s with exits := s.exits ++ [(e, failed)], report := report, pc := Function.update s.pc c .idle } := by
  have hne : ∀ {c' e'}, c' ≠ c → (s.pc c').own = some e' → e ≠ e' := by
    intro c' e' hcc he heq
    exact hcc (h.own_inj c' c e' he (heq ▸ hown))
  have hlt : e < s.opened := h.own_lt c e hown
  refine ⟨?_, ?_, ?_, ?_, ?_, ?_, ?_⟩
  · intro c' e' he
    exact h.own_lt c' e' (own_update_idle.1 he).2
  · intro c' c'' e' he he'
    exact h.own_inj c' c'' e' (own_update_idle.1 he).2 (own_update_idle.1 he').2
  · intro e'
    simp only [update_eq_iff (p := .idle) (q := .admitted e') (by simp) (hc e'), h.entry_iff]
  · intro c' e' taken failed' he
    dsimp only at he ⊢
    by_cases hcc : c' = c
    · simp [hcc] at he
    · rw [Function.update_of_ne hcc] at he
      obtain ⟨htaken, hrep⟩ := h.taken_own c' e' taken failed' he
      exact ⟨htaken, by rw [hsame e' (hne hcc (by rw [he]; rfl)).symm, hrep]⟩
  · intro c' e' he
    obtain ⟨hcc, hold⟩ := own_update_idle.1 he
    rw [exitsOf_append, if_neg (hne hcc hold), h.unexited c' e' hold]
    rfl
  · intro e' he
    rw [exitsOf_append, if_neg (by dsimp only at he; omega), h.unopened e' he]
    rfl
  · intro e' he
    rw [exitsOf_append]
    by_cases heq : e = e'
    · rw [← heq, if_pos rfl, h.unexited c e hown]
      exact .inr ⟨failed, hreport, rfl⟩
    · rcases h.settled e' he with ⟨c', hc'⟩ | ⟨failed', hrep, hex⟩
      · refine .inl ⟨c', own_update_idle.2 ⟨fun hcc => ?_, hc'⟩⟩
        rw [hcc, hown] at hc'
        exact heq (Option.some.inj hc')
      · rw [if_neg heq, hex]
        exact .inr ⟨failed', (hsame e' (Ne.symm heq)).trans hrep, rfl⟩

theorem Kept.step {o : Op ι} (halone : Alone s o) : Kept (step s o) := by
  have hturn := turn_step s o
  generalize Sentinel.step s o = s' at hturn ⊢
  cases hturn with
  | stays => exact h
  | opens _ c p hc hp => exact h.opens hc hp
  | stores c e hc => exact h.stores hc (halone ⟨e, hc⟩)
  | takes c e failed hc => exact h.takes hc
  | exits c e taken failed hc =>
    obtain ⟨htaken, hreport⟩ := h.taken_own c e _ failed hc
    obtain rfl := Option.some.inj htaken
    exact h.settles (by rw [hc]; rfl) (by simp [hc]) hreport fun _ _ => rfl
  | drops c e failed hc => cases (h.taken_own c e none failed hc).1
  | returns c e failed hc =>
    refine h.settles (by rw [hc]; rfl) (by simp [hc]) (Function.update_self ..) fun e' he => ?_
    exact Function.update_of_ne he ..

end

/-! ## A lost entry -/

/-- the entry that a client has in a variable -/
@[simp] def Pc.hand : Pc → Option ℕ
  | .idle => none
  | .entered e => some e
  | .admitted _ => none
  | .marking _ taken _ => taken
  | .executing e => some e

/-- the entry was opened and not exited, and neither the breaker nor a client has it -/
structure Lost (e : ℕ) (s : Sys ι) : Prop where
  lt : e < s.opened
  entry_ne : s.entry ≠ some e
  hand_ne : ∀ c, (s.pc c).hand ≠ some e
  unexited : exitsOf s.exits e = []

variable {s : Sys ι}

omit [DecidableEq ι] in
theorem Kept.own_of_hand (h : Kept s) (he : (s.pc c).hand = some e) : (s.pc c).own = some e := by
  cases hp : s.pc c with
  | idle => simp [hp] at he
  | entered e' => simpa [hp, Pc.own] using he
  | admitted e' => simp [hp] at he
  | marking e' taken failed =>
    rw [hp, (h.taken_own c e' taken failed hp).1] at he
    exact he
  | executing e' => simpa [hp, Pc.own] using he

theorem Kept.loses (h : Kept s) {o : Op ι} (halone : ¬ Alone s o) : ∃ e, Lost e (Sentinel.step s o) := by
  cases o with
  | store c =>
    simp only [Alone, not_forall] at halone
    obtain ⟨⟨e, hc⟩, c', hout⟩ := halone
    obtain ⟨e', hc'⟩ : ∃ e', s.pc c' = .admitted e' := by
      cases hp : s.pc c' <;> simp_all [Pc.outstanding]
    have hown : (s.pc c').own = some e' := by rw [hc']; rfl
    have hnohand : ∀ c'', (s.pc c'').hand ≠ some e' := by
      intro c'' hhand
      rw [h.own_inj c'' c' e' (h.own_of_hand hhand) hown, hc'] at hhand
      cases hhand
    have hne : e ≠ e' := by
      rintro rfl
      exact hnohand c (by rw [hc]; rfl)
    refine ⟨e', ?_⟩
    simp only [Sentinel.step, hc]
    refine ⟨h.own_lt c' e' hown, by simpa using hne, fun c'' => ?_, h.unexited c' e' hown⟩
    by_cases hcc : c'' = c
    · simp [hcc]
    · simpa [hcc] using hnohand c''
  | _ => exact absurd trivial halone

theorem Lost.move (h : Lost e s) {p : Pc} (hp : p.hand ≠ some e) (c' : ι) :
    (Function.update s.pc c p c').hand ≠ some e := by
  by_cases hcc : c' = c
  · rwa [hcc, Function.update_self]
  · rw [Function.update_of_ne hcc]
    exact h.hand_ne c'

theorem Lost.step (h : Lost e s) (o : Op ι) : Lost e (Sentinel.step s o) := by
  have hturn := turn_step s o
  generalize Sentinel.step s o = s' at hturn ⊢
  have hlt := h.lt
  cases hturn with
  | stays => exact h
  | opens _ c p hc hp =>
    refine ⟨hlt.trans (Nat.lt_succ_self _), h.entry_ne, h.move ?_, h.unexited⟩
    rcases hp with rfl | rfl <;> simp only [Pc.hand, ne_eq, Option.some.injEq] <;> omega
  | stores c e' hc =>
    have hmine := h.hand_ne c
    rw [hc] at hmine
    exact ⟨hlt, hmine, h.move (by simp), h.unexited⟩
  | takes c e' failed hc => exact ⟨hlt, by simp, h.move h.entry_ne, h.unexited⟩
  | exits c e' taken failed hc =>
    have hmine : taken ≠ e := by simpa [hc] using h.hand_ne c
    refine ⟨hlt, h.entry_ne, h.move (by simp), ?_⟩
    simp [exitsOf_append, h.unexited, hmine]
  | drops c e' failed hc => exact ⟨hlt, h.entry_ne, h.move (by simp), h.unexited⟩
  | returns c e' failed hc =>
    have hmine : e' ≠ e := by simpa [hc] using h.hand_ne c
    refine ⟨hlt, h.entry_ne, h.move (by simp), ?_⟩
    simp [exitsOf_append, h.unexited, hmine]

omit [DecidableEq ι] in
theorem Lost.not_accounted (h : Lost e s) : ¬ Accounted s := by
  intro hall
  obtain ⟨failed, -, hexits⟩ := hall e h.lt
  rw [h.unexited] at hexits
  cases hexits

omit [DecidableEq ι] in
theorem Kept.accounted (h : Kept s) (hfin : Finished s) : Accounted s := by
  intro e he
  refine (h.settled e he).resolve_left ?_
  rintro ⟨c, hc⟩
  rw [hfin c] at hc
  cases hc

/-- **Entries are accounted for.** In every interleaving of clients, when all have finished: every entry was exited
exactly once and with the outcome that its client reported, if and only if no `Allow` stored its entry while another
client stood between its `Allow` and its mark. -/
theorem accounted_iff (ops : List (Op ι)) (hfin : Finished (run step (start : Sys ι) ops)) :
    Accounted (run step (start : Sys ι) ops) ↔ Along step Alone (start : Sys ι) ops :=
  last_iff_along (I := Kept) (D := fun s => ∃ e, Lost e s) (H := fun _ _ => True)
    (fun _ _ h _ halone => h.step halone) (fun _ _ h _ halone => h.loses halone) (fun _ o ⟨e, h⟩ _ => ⟨e, h.step o⟩)
    kept_start (along_true ops) (fun h => h.accounted hfin) (fun ⟨_, h⟩ => h.not_accounted)

def serialRun : List (Op Bool) :=
  [.enter true .pass, .store true, .mark true true, .exit true, .enter false .pass, .store false, .mark false false,
    .exit false]

theorem serial_finished : Finished (run step start serialRun) := by
  intro c
  cases c <;> rfl

theorem serial_accounted : Accounted (run step start serialRun) :=
  (accounted_iff serialRun serial_finished).2 (by simp [serialRun, Along, Alone, step, start, Pc.outstanding])

/-- both clients are let in before the first reports: its failure is traced on the entry of the other, which succeeded,
and its own entry is never exited -/
theorem overwritten_entry :
    let ops : List (Op Bool) :=
      [.enter true .pass, .store true, .enter false .pass, .store false, .mark true true, .exit true,
        .mark false false, .exit false]
    (run step start ops).report 0 = some true ∧ (run step start ops).report 1 = some false ∧
      (run step start ops).exits = [(1, true)] ∧ ∀ c, (run step start ops).pc c = .idle := by
  decide +kernel

end LuluExt.Sentinel
