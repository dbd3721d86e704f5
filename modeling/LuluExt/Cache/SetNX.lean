/-
`SetNX` of the local cache, called by several callers at once.

A call is two steps, a Get and a Set of freecache; each of them takes freecache's lock, but nothing holds a lock over
both. A caller that finds the key absent sets it, whatever has happened since.
-/
import LuluExt.Cache.Local

namespace LuluExt.LocalCache

open Run
open Go (second)

inductive Phase where
  | ready
  | absent
  | done (result : Except GoError Bool)

structure Callers (n : ℕ) where
  key : String
  value : Fin n → Bytes
  ttl : Fin n → Duration

structure Race (n : ℕ) where
  entries : Entries
  phase : Fin n → Phase

section

variable {n : ℕ} (fc : Freecache) (fl : Go.Float64) (cfg : Config) (calls : Callers n)

def advance (s : Race n) (turn : Fin n × ℤ) : Race n :=
  let (i, now) := turn
  match s.phase i with
  | .ready =>
    match fc.get s.entries now calls.key with
    | .ok _ => { s with phase := Function.update s.phase i (.done (.ok false)) }
    | .error (.other e) => { s with phase := Function.update s.phase i (.done (.error e)) }
    | .error .notFound => { s with phase := Function.update s.phase i .absent }
  | .absent =>
    match fc.set s.entries calls.key (entry fl cfg now (calls.value i) (calls.ttl i)) with
    | (some e, m) => ⟨m, Function.update s.phase i (.done (.error e))⟩
    | (none, m) => ⟨m, Function.update s.phase i (.done (.ok true))⟩
  | .done _ => s

def begin (m : Entries) : Race n := ⟨m, fun _ => .ready⟩

end

section

variable {n : ℕ} {fc : Freecache} {fl : Go.Float64} {cfg : Config} {calls : Callers n} {s : Race n}

/-- exactly one caller was told true, all others false, and its value is stored -/
def Once (calls : Callers n) (s : Race n) : Prop :=
  ∃ i, s.phase i = .done (.ok true) ∧ (∀ j, j ≠ i → s.phase j = .done (.ok false)) ∧
    ∃ e, s.entries calls.key = some e ∧ e.value = calls.value i

/-- the entry has not expired when a caller takes its turn -/
def Unexpired (fc : Freecache) (calls : Callers n) (s : Race n) (turn : Fin n × ℤ) : Prop :=
  ∀ e, s.entries calls.key = some e → fc.expired e.expireSeconds e.setAt turn.2 = false

/-- a caller that looks for the key and does not find it is the only one between its two steps -/
def Alone (calls : Callers n) (s : Race n) (turn : Fin n × ℤ) : Prop :=
  s.phase turn.1 = .ready → s.entries calls.key = none → ∀ j, s.phase j ≠ .absent

/-- nobody has set the key and at most one caller is about to; or one has set it, and no other is about to -/
inductive Clean (calls : Callers n) (s : Race n) : Prop where
  | unset (hkey : s.entries calls.key = none) (hphase : ∀ i, s.phase i = .ready ∨ s.phase i = .absent)
      (hone : ∀ i j, s.phase i = .absent → s.phase j = .absent → i = j)
  | set (i : Fin n) (e : Entry) (hkey : s.entries calls.key = some e) (hvalue : e.value = calls.value i)
      (hphase : s.phase i = .done (.ok true))
      (hothers : ∀ j, j ≠ i → s.phase j = .ready ∨ s.phase j = .done (.ok false))

def Doubled (s : Race n) : Prop :=
  ∃ i j, i ≠ j ∧ (s.phase i = .absent ∨ s.phase i = .done (.ok true)) ∧
    (s.phase j = .absent ∨ s.phase j = .done (.ok true))

variable {i : Fin n}

/-- everything a turn can do when freecache does not refuse and nothing expires -/
inductive Turn (calls : Callers n) (s : Race n) (i : Fin n) : Race n → Prop where
  | refuse (hphase : s.phase i = .ready) (hkey : s.entries calls.key ≠ none) :
      Turn calls s i { s with phase := Function.update s.phase i (.done (.ok false)) }
  | look (hphase : s.phase i = .ready) (hkey : s.entries calls.key = none) :
      Turn calls s i { s with phase := Function.update s.phase i .absent }
  | store (hphase : s.phase i = .absent) (e : Entry) (hvalue : e.value = calls.value i) :
      Turn calls s i
        ⟨Function.update s.entries calls.key (some e), Function.update s.phase i (.done (.ok true))⟩
  | rest (hphase : s.phase i ≠ .ready) : Turn calls s i s

theorem turn_advance (fl : Go.Float64) (cfg : Config) (hget : fc.getErr calls.key = none)
    (hset : ∀ i, fc.setErr calls.key (calls.value i) = none) {now : ℤ}
    (hexp : Unexpired fc calls s (i, now)) : Turn calls s i (advance fc fl cfg calls s (i, now)) := by
  cases hphase : s.phase i with
  | done r =>
    simp only [advance, hphase]
    exact .rest (by simp [hphase])
  | absent =>
    have hset' : fc.setErr calls.key (entry fl cfg now (calls.value i) (calls.ttl i)).value = none := hset i
    simp only [advance, hphase, Freecache.set, hset']
    exact .store hphase _ rfl
  | ready =>
    cases hkey : s.entries calls.key with
    | none =>
      simp only [advance, hphase, Freecache.get, hget, hkey]
      exact .look hphase hkey
    | some e =>
      have halive : fc.expired e.expireSeconds e.setAt now = false := hexp e hkey
      simp only [advance, hphase, Freecache.get, hget, hkey, halive]
      exact .refuse hphase (by simp [hkey])

theorem holds_advance {p : Entry → Prop} {now : ℤ} (h : Holds p s.entries)
    (hentry : p (entry fl cfg now (calls.value i) (calls.ttl i))) :
    Holds p (advance fc fl cfg calls s (i, now)).entries := by
  have hset : Holds p (fc.set s.entries calls.key (entry fl cfg now (calls.value i) (calls.ttl i))).2 :=
    holds_set h hentry
  simp only [advance]
  cases s.phase i with
  | ready =>
    dsimp only
    split <;> exact h
  | done r => exact h
  | absent =>
    dsimp only
    split
    all_goals
      next hfc =>
      rw [hfc] at hset
      exact hset

theorem clean_begin {m : Entries} (hm : m calls.key = none) : Clean calls (begin (n := n) m) :=
  .unset hm (fun _ => .inl rfl) (fun _ _ h => by cases h)

theorem clean_refuse (h : Clean calls s) (hphase : s.phase i = .ready) (hkey : s.entries calls.key ≠ none) :
    Clean calls { s with phase := Function.update s.phase i (.done (.ok false)) } := by
  cases h with
  | unset hnone _ _ => exact absurd hnone hkey
  | set k e hkey' hvalue hk hothers =>
    have hne : k ≠ i := by
      rintro rfl
      rw [hk] at hphase
      cases hphase
    refine .set k e hkey' hvalue (by simpa [Function.update_of_ne hne] using hk) fun j hj => ?_
    rcases eq_or_ne j i with rfl | hji
    · simp
    · simpa [Function.update_of_ne hji] using hothers j hj

theorem clean_look (h : Clean calls s) (hkey : s.entries calls.key = none)
    (hnobody : ∀ j, s.phase j ≠ .absent) : Clean calls { s with phase := Function.update s.phase i .absent } := by
  cases h with
  | set k e hkey' _ _ _ => simp [hkey'] at hkey
  | unset _ hphases _ =>
    have honly : ∀ j, Function.update s.phase i .absent j = .absent → j = i := by
      intro j hj
      by_contra hji
      rw [Function.update_of_ne hji] at hj
      exact hnobody j hj
    refine .unset hkey (fun j => ?_) fun j k hj hk => (honly j hj).trans (honly k hk).symm
    rcases eq_or_ne j i with rfl | hji
    · simp
    · simpa [Function.update_of_ne hji] using hphases j

theorem clean_store {e : Entry} (h : Clean calls s) (hphase : s.phase i = .absent) (hvalue : e.value = calls.value i) :
    Clean calls ⟨Function.update s.entries calls.key (some e), Function.update s.phase i (.done (.ok true))⟩ := by
  cases h with
  | set k _ _ _ hk hothers =>
    have hne : i ≠ k := by
      rintro rfl
      rw [hk] at hphase
      cases hphase
    rcases hothers i hne with h | h <;> rw [h] at hphase <;> cases hphase
  | unset hkey hphases hone =>
    refine .set i e (by simp) hvalue (by simp) fun j hj => .inl ?_
    have hready := (hphases j).resolve_right fun habsent => hj (hone j i habsent hphase)
    simpa [Function.update_of_ne hj] using hready

theorem Turn.clean {s' : Race n} {now : ℤ} (hturn : Turn calls s i s') (h : Clean calls s)
    (halone : Alone calls s (i, now)) : Clean calls s' := by
  cases hturn with
  | refuse hphase hkey => exact clean_refuse h hphase hkey
  | look hphase hkey => exact clean_look h hkey (halone hphase hkey)
  | store hphase e hvalue => exact clean_store h hphase hvalue
  | rest hphase => exact h

theorem Turn.doubled_of_not_alone {s' : Race n} {now : ℤ} (hturn : Turn calls s i s')
    (h : ¬ Alone calls s (i, now)) : Doubled s' := by
  simp only [Alone, not_forall, not_not] at h
  obtain ⟨hready, hnone, j, hj⟩ := h
  have hji : j ≠ i := by
    rintro rfl
    rw [hready] at hj
    cases hj
  cases hturn with
  | refuse hphase hkey => exact absurd hnone hkey
  | look hphase hkey => exact ⟨i, j, hji.symm, by simp, by simp [Function.update_of_ne hji, hj]⟩
  | store hphase e hvalue =>
    rw [hready] at hphase
    cases hphase
  | rest hphase => exact absurd hready hphase

theorem Turn.doubled {s' : Race n} (hturn : Turn calls s i s') (h : Doubled s) : Doubled s' := by
  obtain ⟨j, k, hjk, hj, hk⟩ := h
  -- a caller that is about to set the key, or has, stays one of the two
  have hkeep : ∀ l, (s.phase l = .absent ∨ s.phase l = .done (.ok true)) →
      s'.phase l = .absent ∨ s'.phase l = .done (.ok true) := by
    intro l hl
    cases hturn with
    | rest hphase => exact hl
    | _ =>
      by_cases hli : l = i
      · subst hli
        simp_all
      · simpa [Function.update_of_ne hli] using hl
  exact ⟨j, k, hjk, hkeep j hj, hkeep k hk⟩

variable (hget : fc.getErr calls.key = none) (hset : ∀ i, fc.setErr calls.key (calls.value i) = none)

include hget hset

/-- **SetNX is atomic exactly when no two callers overlap.** For any number of callers on a key that is absent, when
freecache refuses nothing, nothing expires and all calls have returned: exactly one returned true and its value is
stored, if and only if no caller looks for the key while another is between its Get and its Set. -/
theorem once_iff (hn : 0 < n) {m : Entries} (hm : m calls.key = none) (turns : List (Fin n × ℤ))
    (hexp : Along (advance fc fl cfg calls) (Unexpired fc calls) (begin m) turns)
    (hdone : ∀ i, ∃ r, (run (advance fc fl cfg calls) (begin m) turns).phase i = .done r) :
    Once calls (run (advance fc fl cfg calls) (begin m) turns) ↔
      Along (advance fc fl cfg calls) (Alone calls) (begin m) turns := by
  refine last_iff_along (I := Clean calls) (D := Doubled) (H := Unexpired fc calls)
    (fun s o h hexp => (turn_advance fl cfg hget hset hexp).clean h)
    (fun s o _ hexp => (turn_advance fl cfg hget hset hexp).doubled_of_not_alone)
    (fun s o h hexp => (turn_advance fl cfg hget hset hexp).doubled h) (clean_begin hm) hexp ?_ ?_
  · intro hclean
    cases hclean with
    | unset _ hphase _ =>
      obtain ⟨r, hr⟩ := hdone ⟨0, hn⟩
      rcases hphase ⟨0, hn⟩ with h | h <;> rw [hr] at h <;> cases h
    | set i e hkey hvalue hphase hothers =>
      refine ⟨i, hphase, fun j hj => (hothers j hj).resolve_left fun hready => ?_, e, hkey, hvalue⟩
      obtain ⟨r, hr⟩ := hdone j
      rw [hr] at hready
      cases hready
  · rintro ⟨i, j, hij, hi, hj⟩ ⟨k, -, hothers, -⟩
    -- one of the two is not the winner, and was told true
    have hfalse : ∀ l, l ≠ k → (run (advance fc fl cfg calls) (begin m) turns).phase l = .absent ∨
        (run (advance fc fl cfg calls) (begin m) turns).phase l = .done (.ok true) → False := by
      intro l hl hphase
      rw [hothers l hl] at hphase
      rcases hphase with h | h <;> cases h
    by_cases hik : i = k
    · exact hfalse j (fun hjk => hij (hik.trans hjk.symm)) hj
    · exact hfalse i hik hi

end

def twoOwners : Callers 2 := ⟨"lock", ![[1], [2]], fun _ => zeroTTL⟩

/-- freecache that keeps an entry for a second, however many it was given -/
def hasty : Freecache where
  expired s setAt now := decide (setAt + second ≤ now ∧ 0 < s)
  expires {s setAt now} hs hnow := by
    have hsecond : (0 : ℤ) < second := by decide
    have hlong : second ≤ (s + 1) * second := by nlinarith
    simp only [decide_eq_true_eq]
    omega
  never hs := by simp [not_lt.2 hs]
  setErr _ _ := none
  getErr _ := none

def race (turns : List (Fin 2)) : Race 2 :=
  run (advance hasty Go.unrounded ⟨zeroTTL⟩ twoOwners) (begin fun _ => none) (turns.map fun i => (i, 0))

theorem race_unexpired (turns : List (Fin 2)) :
    Along (advance hasty Go.unrounded ⟨zeroTTL⟩ twoOwners) (Unexpired hasty twoOwners) (begin fun _ => none)
      (turns.map fun i => (i, 0)) := by
  refine along_of_along (I := fun s => Holds (fun e => e.setAt = 0) s.entries) (H := fun _ o => o.2 = 0) ?_ ?_
    (by simp [begin, Holds]) (along_forall.2 (by simp))
  · rintro s ⟨i, now⟩ h rfl
    exact holds_advance h rfl
  · rintro s ⟨i, now⟩ h rfl e he
    simp [hasty, h "lock" e he, second]

/-- the second caller comes when the first has returned -/
theorem race_once : Once twoOwners (race [0, 0, 1, 1]) := by
  have hget : hasty.getErr twoOwners.key = none := rfl
  refine (once_iff hget (fun _ => rfl) (by decide) rfl _ (race_unexpired [0, 0, 1, 1]) ?_).2 ?_
  · intro i
    fin_cases i
    · exact ⟨_, rfl⟩
    · exact ⟨_, rfl⟩
  · refine ⟨fun _ _ j => ?_, fun h => ?_, fun _ h => ?_, fun h => ?_, trivial⟩
    · exact (show Phase.ready ≠ Phase.absent by simp)
    · cases (show Phase.absent = Phase.ready from h)
    · cases (show some _ = none from h)
    · cases (show Phase.done (.ok false) = Phase.ready from h)

/-- **Two owners of a lock.** Both callers look for the key, both find it absent, and both set it: each is told that it
set the key, and the value of the second replaces that of the first. -/
theorem set_twice :
    (race [0, 1, 0, 1]).phase 0 = .done (.ok true) ∧ (race [0, 1, 0, 1]).phase 1 = .done (.ok true) ∧
    ((race [0, 1, 0, 1]).entries "lock").map Entry.value = some [2] ∧ ¬ Once twoOwners (race [0, 1, 0, 1]) := by
  refine ⟨rfl, rfl, rfl, ?_⟩
  rintro ⟨i, -, hothers, -⟩
  fin_cases i
  · cases hothers 1 (by decide)
  · cases hothers 0 (by decide)

end LuluExt.LocalCache
