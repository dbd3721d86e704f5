/-
A table of objects that are made on demand, one for each key, and the clients that use them.

Objects live in one heap; the table says which one a key has. A client takes the mutex, looks its key up, calls the
factory if the key has no object, enters what the factory returns and releases the mutex, each in a step of its own. The
factory answers as it likes: with any object, one in use included, or with a panic, and then the mutex is released on
the way out. From then on the client acts on the object it was given. An object is represented by the calls it has
received, so that whatever answers it gives are a function of them. Clients may stay apart and use no object.

- `once_run`: the factory returns at most once for a key, and a key for which it does not panic it is called for once;
- `follows_run`: what each client has called follows from its position, and it calls its own object only;
- `isolated`: if no object is returned for two keys, the object of a key and the clients of that key are, after any run,
  what they are after the steps of these clients alone.
-/
import LuluExt.Lib.Run

namespace LuluExt.Keyed

open Run

variable {κ ρ E P A : Type}

/-- how clients of type `ρ` use their objects: calls are of type `E`, positions of clients `P`, inputs `A` -/
structure Protocol (κ ρ E P A : Type) where
  key : ρ → κ
  /-- clients that use no object -/
  outside : ρ → Bool
  /-- the positions from which a client outside and a client with an object go on -/
  pass : P
  enter : P
  /-- of an object, from the client's position and the calls received: the next position, and the calls made -/
  act : ℕ → ρ → P → List E → A → P × List E
  /-- a client outside moves on -/
  apart : ρ → P → A → P
  /-- who made a call -/
  client : E → ρ
  client_act : ∀ n r p calls a, ∀ e ∈ (act n r p calls a).2, client e = r

/-- where the client that has the mutex is -/
inductive Locked where
  | looking
  | making
  | storing (n : ℕ)
  /-- `none` if the factory has panicked -/
  | unlocking (n : Option ℕ)
deriving DecidableEq, Repr

inductive Pc (P : Type) where
  | apart (p : P)
  /-- before `Lock`, or under the mutex -/
  | getting
  | panicked
  | holds (n : ℕ) (p : P)
deriving DecidableEq, Repr

structure Sys (κ ρ E P : Type) where
  /-- who has the mutex -/
  holder : Option (ρ × Locked)
  table : κ → Option ℕ
  /-- the calls each object has received -/
  heap : ℕ → List E
  /-- the calls of the factory, with what it returned; `none` if it panicked -/
  made : List (κ × Option ℕ)
  /-- of the clients that have arrived -/
  pc : ρ → Option (Pc P)

def start : Sys κ ρ E P := ⟨none, fun _ => none, fun _ => [], [], fun _ => none⟩

inductive Op (ρ A : Type) where
  | arrive (r : ρ)
  /-- the next step of a client on its way to its object; the answer is that of the factory, if it is called -/
  | get (r : ρ) (answer : Option ℕ)
  | act (r : ρ) (a : A)
deriving DecidableEq, Repr

def Op.client : Op ρ A → ρ
  | .arrive r => r
  | .get r _ => r
  | .act r _ => r

/-! ## The objects returned for a key -/

section Returned

variable [DecidableEq κ] {s : Sys κ ρ E P} {k : κ} {n : ℕ}

def Sys.returned (s : Sys κ ρ E P) (k : κ) : List ℕ := s.made.filterMap fun m => if m.1 = k then m.2 else none

theorem mem_returned : n ∈ s.returned k ↔ (k, some n) ∈ s.made := by
  simp only [Sys.returned, List.mem_filterMap]
  constructor
  · rintro ⟨⟨k', m⟩, hmem, hm⟩
    split_ifs at hm with hk
    rwa [← hk, ← hm]
  · exact fun h => ⟨_, h, by simp⟩

theorem returned_append (s : Sys κ ρ E P) (k k' : κ) (answer : Option ℕ) {holder : Option (ρ × Locked)} :
    ({ s with made := s.made ++ [(k', answer)], holder } : Sys κ ρ E P).returned k =
      s.returned k ++ if k' = k then answer.toList else [] := by
  by_cases hk : k' = k <;> cases answer <;> simp [Sys.returned, hk]

theorem length_made (h : (k, none) ∉ s.made) : (s.made.filter (·.1 = k)).length = (s.returned k).length := by
  rw [Sys.returned]
  revert h
  induction s.made with
  | nil => simp
  | cons m made ih =>
    intro h
    obtain ⟨hm, hmade⟩ := not_or.1 (fun hor => h (List.mem_cons.2 hor))
    obtain ⟨k', answer⟩ := m
    by_cases hk : k' = k
    · subst hk
      cases answer with
      | none => exact absurd rfl hm
      | some n => simpa using ih hmade
    · simpa [hk] using ih hmade

/-- the factory returns at most once for a key; if it does not panic for it, it is called for it at most once -/
structure Once (s : Sys κ ρ E P) (k : κ) : Prop where
  returned : (s.returned k).length ≤ 1
  called : (k, none) ∉ s.made → (s.made.filter (·.1 = k)).length ≤ 1

/-- what the position of the client with the mutex says about its key -/
def Fits (s : Sys κ ρ E P) (k : κ) : Locked → Prop
  | .looking | .unlocking none => True
  | .making | .storing _ => s.table k = none
  | .unlocking (some n) => s.table k = some n

/-- what was returned for a key and is not in the table yet -/
def pending (proto : Protocol κ ρ E P A) (k : κ) : Option (ρ × Locked) → List ℕ
  | some (r, .storing n) => if proto.key r = k then [n] else []
  | _ => []

structure Inv (proto : Protocol κ ρ E P A) (s : Sys κ ρ E P) : Prop where
  holds : ∀ r n p, s.pc r = some (.holds n p) → s.table (proto.key r) = some n
  fits : ∀ r l, s.holder = some (r, l) → Fits s (proto.key r) l
  returned : ∀ k, s.returned k = (s.table k).toList ++ pending proto k s.holder

variable {proto : Protocol κ ρ E P A}

theorem inv_start : Inv proto (start : Sys κ ρ E P) where
  holds r n p h := by simp [start] at h
  fits r l h := by simp [start] at h
  returned _ := rfl

theorem Inv.mem_made {r : ρ} {p : P} (h : Inv proto s) (hpc : s.pc r = some (.holds n p)) :
    (proto.key r, some n) ∈ s.made := by
  rw [← mem_returned, h.returned, h.holds r n p hpc]
  exact List.mem_cons_self

theorem Inv.returned_le_one (h : Inv proto s) (k : κ) : (s.returned k).length ≤ 1 := by
  rw [h.returned]
  unfold pending
  split
  next r n hholder =>
    split_ifs with hk
    · simp [show s.table k = none from hk ▸ h.fits r _ hholder]
    · cases s.table k <;> simp
  next => cases s.table k <;> simp

/-- a client goes on under the mutex, and the table and the calls of the factory stay as they are -/
theorem Inv.hold (h : Inv proto s) {holder : Option (ρ × Locked)}
    (hpending : ∀ k, pending proto k s.holder = pending proto k holder)
    (hfits : ∀ r l, holder = some (r, l) → Fits s (proto.key r) l) : Inv proto { s with holder } where
  holds := h.holds
  fits := hfits
  returned k := hpending k ▸ h.returned k

end Returned

/-! ## One step -/

variable [DecidableEq κ] [DecidableEq ρ]

def Sys.move (s : Sys κ ρ E P) (r : ρ) (pc : Pc P) : Sys κ ρ E P := { s with pc := Function.update s.pc r (some pc) }

/-- the factory has answered -/
def Locked.after : Option ℕ → Locked
  | some n => .storing n
  | none => .unlocking none

/-- the mutex is released -/
def Pc.after (p : P) : Option ℕ → Pc P
  | some n => .holds n p
  | none => .panicked

/-- a step under the mutex -/
def Sys.advance (proto : Protocol κ ρ E P A) (s : Sys κ ρ E P) (r : ρ) (answer : Option ℕ) : Locked → Sys κ ρ E P
  | .looking =>
    match s.table (proto.key r) with
    | some n => { s with holder := some (r, .unlocking (some n)) }
    | none => { s with holder := some (r, .making) }
  | .making => { s with made := s.made ++ [(proto.key r, answer)], holder := some (r, .after answer) }
  | .storing n =>
    { s with table := Function.update s.table (proto.key r) (some n), holder := some (r, .unlocking (some n)) }
  | .unlocking n => { s with holder := none }.move r (.after proto.enter n)

/-- the mutex is taken, if it is free, or its holder goes on -/
def Sys.get (proto : Protocol κ ρ E P A) (s : Sys κ ρ E P) (r : ρ) (answer : Option ℕ) : Sys κ ρ E P :=
  match s.holder with
  | none => { s with holder := some (r, .looking) }
  | some (r', l) => if r' = r then s.advance proto r answer l else s

def step (proto : Protocol κ ρ E P A) (s : Sys κ ρ E P) : Op ρ A → Sys κ ρ E P
  | .arrive r =>
    match s.pc r with
    | none => s.move r (if proto.outside r then .apart proto.pass else .getting)
    | some _ => s
  | .get r answer =>
    match s.pc r with
    | some .getting => s.get proto r answer
    | _ => s
  | .act r a =>
    match s.pc r with
    | some (.apart p) => s.move r (.apart (proto.apart r p a))
    | some (.holds n p) =>
      { s with heap := Function.update s.heap n (s.heap n ++ (proto.act n r p (s.heap n) a).2) }.move r
        (.holds n (proto.act n r p (s.heap n) a).1)
    | _ => s

/-- an attempt at the mutex while another client has it; it does nothing -/
def Blocked (s : Sys κ ρ E P) : Op ρ A → Bool
  | .get r _ =>
    match s.holder with
    | some (r', _) => r' ≠ r
    | none => false
  | _ => false

/-- the factory does not return an object that it has returned for another key -/
def Unshared (proto : Protocol κ ρ E P A) (s : Sys κ ρ E P) : Op ρ A → Prop
  | .get r (some n) => s.holder = some (r, .making) → ∀ m ∈ s.made, m.2 = some n → m.1 = proto.key r
  | _ => True

instance (proto : Protocol κ ρ E P A) (s : Sys κ ρ E P) : ∀ o : Op ρ A, Decidable (Unshared proto s o)
  | .get r (some n) =>
    inferInstanceAs (Decidable (s.holder = some (r, .making) → ∀ m ∈ s.made, m.2 = some n → m.1 = proto.key r))
  | .get _ none | .arrive _ | .act _ _ => inferInstanceAs (Decidable True)

variable {proto : Protocol κ ρ E P A} {s s' : Sys κ ρ E P}

/-- everything a step can do -/
inductive Turn (proto : Protocol κ ρ E P A) (s : Sys κ ρ E P) : Op ρ A → Sys κ ρ E P → Prop where
  | arrives {r : ρ} (hpc : s.pc r = none) :
      Turn proto s (.arrive r) (s.move r (if proto.outside r then .apart proto.pass else .getting))
  | locks {r : ρ} {answer : Option ℕ} (hfree : s.holder = none) :
      Turn proto s (.get r answer) { s with holder := some (r, .looking) }
  | finds {r : ρ} {answer : Option ℕ} {n : ℕ} (hr : s.holder = some (r, .looking))
      (hn : s.table (proto.key r) = some n) :
      Turn proto s (.get r answer) { s with holder := some (r, .unlocking (some n)) }
  | misses {r : ρ} {answer : Option ℕ} (hr : s.holder = some (r, .looking)) (hnone : s.table (proto.key r) = none) :
      Turn proto s (.get r answer) { s with holder := some (r, .making) }
  | makes {r : ρ} {answer : Option ℕ} (hr : s.holder = some (r, .making)) :
      Turn proto s (.get r answer)
        { s with made := s.made ++ [(proto.key r, answer)], holder := some (r, .after answer) }
  | stores {r : ρ} {answer : Option ℕ} {n : ℕ} (hr : s.holder = some (r, .storing n)) :
      Turn proto s (.get r answer)
        { s with table := Function.update s.table (proto.key r) (some n), holder := some (r, .unlocking (some n)) }
  | unlocks {r : ρ} {answer n : Option ℕ} (hpc : s.pc r = some .getting) (hr : s.holder = some (r, .unlocking n)) :
      Turn proto s (.get r answer) ({ s with holder := none }.move r (.after proto.enter n))
  | passes {r : ρ} {a : A} {p : P} (hpc : s.pc r = some (.apart p)) :
      Turn proto s (.act r a) (s.move r (.apart (proto.apart r p a)))
  | acts {r : ρ} {a : A} {n : ℕ} {p : P} (hpc : s.pc r = some (.holds n p)) :
      Turn proto s (.act r a)
        ({ s with heap := Function.update s.heap n (s.heap n ++ (proto.act n r p (s.heap n) a).2) }.move r
          (.holds n (proto.act n r p (s.heap n) a).1))
  | stays {o : Op ρ A} : Turn proto s o s

theorem turn_get {r : ρ} (answer : Option ℕ) (hpc : s.pc r = some .getting) :
    Turn proto s (.get r answer) (s.get proto r answer) := by
  unfold Sys.get
  split
  next hfree => exact .locks hfree
  next r' l hr =>
    split_ifs with heq
    · subst heq
      cases l with
      | looking =>
        simp only [Sys.advance]
        split
        next hn => exact .finds hr hn
        next hnone => exact .misses hr hnone
      | making => exact .makes hr
      | storing n => exact .stores hr
      | unlocking n => exact .unlocks hpc hr
    · exact .stays

theorem turn_step (s : Sys κ ρ E P) (o : Op ρ A) : Turn proto s o (step proto s o) := by
  cases o with
  | arrive r =>
    simp only [step]
    split
    next hpc => exact .arrives hpc
    next => exact .stays
  | get r answer =>
    simp only [step]
    split
    next hpc => exact turn_get answer hpc
    next => exact .stays
  | act r a =>
    simp only [step]
    split
    next hpc => exact .passes hpc
    next hpc => exact .acts hpc
    next => exact .stays

theorem step_blocked {o : Op ρ A} (h : Blocked s o) : step proto s o = s := by
  cases o with
  | get r answer =>
    cases hholder : s.holder with
    | none => simp [Blocked, hholder] at h
    | some x =>
      have hne : x.1 ≠ r := by simpa [Blocked, hholder] using h
      simp only [step, Sys.get, hholder, if_neg hne]
      split <;> rfl
  | arrive r | act r a => cases h

/-! ## One object for a key -/

variable {r r' : ρ} {pc : Pc P} {k : κ} {n : ℕ}

theorem Inv.move (h : Inv proto s) {heap : ℕ → List E}
    (hpc : ∀ n p, pc = .holds n p → s.table (proto.key r) = some n) :
    Inv proto (({ s with heap } : Sys κ ρ E P).move r pc) where
  holds r' n p hr' := by
    by_cases heq : r' = r
    · subst heq
      exact hpc n p (by simpa [Sys.move] using hr')
    · exact h.holds r' n p (by simpa [Sys.move, heq] using hr')
  fits := h.fits
  returned := h.returned

omit [DecidableEq ρ] in
theorem Inv.makes (h : Inv proto s) (hr : s.holder = some (r, .making)) (answer : Option ℕ) :
    Inv proto { s with made := s.made ++ [(proto.key r, answer)], holder := some (r, .after answer) } := by
  refine ⟨h.holds, ?_, fun k => ?_⟩
  · rintro r' l ⟨⟩
    cases answer with
    | some n => exact h.fits r _ hr
    | none => trivial
  · rw [returned_append, h.returned k, hr]
    cases answer <;> simp [pending, Locked.after]

omit [DecidableEq ρ] in
theorem Inv.stores (h : Inv proto s) (hr : s.holder = some (r, .storing n)) :
    Inv proto
      { s with table := Function.update s.table (proto.key r) (some n), holder := some (r, .unlocking (some n)) } := by
  have hnone : s.table (proto.key r) = none := h.fits r _ hr
  refine ⟨fun r' m p hpc => ?_, ?_, fun k => (h.returned k).trans ?_⟩
  · have hm := h.holds r' m p hpc
    have hne : proto.key r' ≠ proto.key r := by
      intro hkey
      rw [hkey, hnone] at hm
      cases hm
    exact (Function.update_of_ne hne ..).trans hm
  · rintro r' l ⟨⟩
    exact Function.update_self ..
  · rw [hr]
    by_cases hk : k = proto.key r
    · simp [pending, hk, hnone]
    · simp [pending, hk, Ne.symm hk]

theorem inv_turn {o : Op ρ A} (hturn : Turn proto s o s') (h : Inv proto s) : Inv proto s' := by
  cases hturn with
  | arrives => exact h.move (by intro n p; split_ifs <;> simp)
  | locks hfree =>
    refine h.hold (by simp [hfree, pending]) ?_
    rintro r l ⟨⟩
    trivial
  | finds hr hn =>
    refine h.hold (by simp [hr, pending]) ?_
    rintro r l ⟨⟩
    exact hn
  | misses hr hnone =>
    refine h.hold (by simp [hr, pending]) ?_
    rintro r l ⟨⟩
    exact hnone
  | makes hr => exact h.makes hr _
  | stores hr => exact h.stores hr
  | @unlocks r answer n _ hr =>
    have hfree : Inv proto { s with holder := none } := h.hold (by simp [hr, pending]) (by simp)
    refine hfree.move fun m p hm => ?_
    cases n with
    | some n =>
      cases hm
      exact h.fits r _ hr
    | none => cases hm
  | passes => exact h.move (by simp)
  | acts hpc =>
    refine h.move ?_
    rintro n p ⟨⟩
    exact h.holds _ _ _ hpc
  | stays => exact h

theorem inv_run (ops : List (Op ρ A)) : Inv proto (run (step proto) start ops) :=
  run_inv (I := Inv proto) (fun s o => inv_turn (turn_step s o)) inv_start ops

/-- **At most one object is made for a key.** -/
theorem once_run (proto : Protocol κ ρ E P A) (ops : List (Op ρ A)) (k : κ) : Once (run (step proto) start ops) k where
  returned := (inv_run ops).returned_le_one k
  called h := (length_made h).trans_le ((inv_run ops).returned_le_one k)

/-! ## What each client calls -/

def callsOf (proto : Protocol κ ρ E P A) (s : Sys κ ρ E P) (n : ℕ) (r : ρ) : List E :=
  (s.heap n).filter (proto.client · = r)

/-- the calls of a client are those that `Q` says of its position, all of them on its object -/
structure Follows (proto : Protocol κ ρ E P A) (Q : ρ → P → List E → Prop) (s : Sys κ ρ E P) : Prop where
  own : ∀ r n p, s.pc r = some (.holds n p) → Q r p (callsOf proto s n r)
  other : ∀ r n, (∀ p, s.pc r ≠ some (.holds n p)) → callsOf proto s n r = []

variable {Q : ρ → P → List E → Prop}

omit [DecidableEq κ] in
theorem Follows.move (h : Follows proto Q s) {holder : Option (ρ × Locked)}
    (hbefore : ∀ n p, s.pc r ≠ some (.holds n p)) (hafter : ∀ n p, pc = .holds n p → Q r p []) :
    Follows proto Q (({ s with holder } : Sys κ ρ E P).move r pc) := by
  constructor
  · intro r' n p hpc
    by_cases heq : r' = r
    · subst heq
      have hcalls : callsOf proto s n r' = [] := h.other r' n (hbefore n)
      have hpc : pc = .holds n p := by simpa [Sys.move] using hpc
      exact (show callsOf proto _ n r' = [] from hcalls) ▸ hafter n p hpc
    · exact h.own r' n p (by simpa [Sys.move, heq] using hpc)
  · intro r' n hpc
    by_cases heq : r' = r
    · subst heq
      exact h.other r' n (hbefore n)
    · exact h.other r' n fun p hp => hpc p (by simpa [Sys.move, heq] using hp)

omit [DecidableEq κ] in
/-- calls that a client makes on an object -/
theorem callsOf_append {es : List E} (hes : ∀ e ∈ es, proto.client e = r) (m : ℕ) (r' : ρ) :
    callsOf proto (({ s with heap := Function.update s.heap n (s.heap n ++ es) } : Sys κ ρ E P).move r pc) m r' =
      callsOf proto s m r' ++ if m = n ∧ r' = r then es else [] := by
  simp only [callsOf, Sys.move]
  by_cases hm : m = n
  · subst hm
    rw [Function.update_self, List.filter_append]
    congr 1
    by_cases hr : r' = r
    · rw [if_pos ⟨rfl, hr⟩, List.filter_eq_self]
      exact fun e he => by simp [hes e he, hr]
    · rw [if_neg (fun h => hr h.2), List.filter_eq_nil_iff]
      exact fun e he => by simp [hes e he, Ne.symm hr]
  · simp [hm]

theorem follows_turn (henter : ∀ r, Q r proto.enter [])
    (hact : ∀ n r p calls a es, Q r p es → Q r (proto.act n r p calls a).1 (es ++ (proto.act n r p calls a).2))
    {o : Op ρ A} (hturn : Turn proto s o s') (h : Follows proto Q s) : Follows proto Q s' := by
  cases hturn with
  | arrives hpc => exact h.move (by simp [hpc]) (by intro n p; split_ifs <;> simp)
  | locks | finds | misses | makes | stores => exact ⟨h.own, h.other⟩
  | passes hpc => exact h.move (by simp [hpc]) (by simp)
  | @unlocks r answer n hpc =>
    refine h.move (by simp [hpc]) fun m p hm => ?_
    cases n with
    | some n =>
      cases hm
      exact henter r
    | none => cases hm
  | @acts r a n p hpc =>
    constructor
    · intro r' m q hq
      rw [callsOf_append (proto.client_act n r p (s.heap n) a)]
      by_cases heq : r' = r
      · subst heq
        obtain ⟨rfl, rfl⟩ : n = m ∧ (proto.act n r' p (s.heap n) a).1 = q := by simpa [Sys.move] using hq
        rw [if_pos ⟨rfl, rfl⟩]
        exact hact _ _ _ _ _ _ (h.own r' n p hpc)
      · rw [if_neg fun hboth => heq hboth.2, List.append_nil]
        exact h.own r' m q (by simpa [Sys.move, heq] using hq)
    · intro r' m hm
      rw [callsOf_append (proto.client_act n r p (s.heap n) a)]
      have hne : ¬ (m = n ∧ r' = r) := by
        rintro ⟨rfl, rfl⟩
        exact hm _ (by simp [Sys.move]; rfl)
      rw [if_neg hne, List.append_nil]
      refine h.other r' m fun q hq => ?_
      by_cases heq : r' = r
      · subst heq
        rw [hpc] at hq
        cases hq
        exact hne ⟨rfl, rfl⟩
      · exact hm q (by simpa [Sys.move, heq] using hq)
  | stays => exact h

omit [DecidableEq κ] in
theorem follows_start : Follows proto Q (start : Sys κ ρ E P) := ⟨fun _ _ _ h => by simp [start] at h, fun _ _ _ => rfl⟩

/-- **A client calls its object only**, and what it has called follows from where it has got. -/
theorem follows_run (henter : ∀ r, Q r proto.enter [])
    (hact : ∀ n r p calls a es, Q r p es → Q r (proto.act n r p calls a).1 (es ++ (proto.act n r p calls a).2))
    (ops : List (Op ρ A)) : Follows proto Q (run (step proto) start ops) :=
  run_inv (I := Follows proto Q) (fun s o => follows_turn henter hact (turn_step s o)) follows_start ops

/-! ## Isolation -/

/-- the steps of the clients of a key, without attempts at a mutex that is taken -/
def own (proto : Protocol κ ρ E P A) (k : κ) (s : Sys κ ρ E P) (o : Op ρ A) : Bool :=
  proto.key o.client = k && !Blocked s o

/-- what belongs to a key -/
def Sys.only (proto : Protocol κ ρ E P A) (k : κ) (s : Sys κ ρ E P) : Sys κ ρ E P where
  holder := s.holder.filter fun h => proto.key h.1 = k
  table k' := if k' = k then s.table k' else none
  heap n := (s.heap n).filter fun e => proto.key (proto.client e) = k
  made := s.made.filter fun m => m.1 = k
  pc r := if proto.key r = k then s.pc r else none

theorem ite_update {α β : Type} [DecidableEq α] {p : α → Prop} [DecidablePred p] (f : α → β) (a : α) (b d : β) :
    (fun x => if p x then Function.update f a b x else d) =
      if p a then Function.update (fun x => if p x then f x else d) a b else fun x => if p x then f x else d := by
  funext x
  by_cases heq : x = a
  · subst heq
    split_ifs <;> simp_all
  · split_ifs <;> simp_all

theorem only_move (s : Sys κ ρ E P) (r : ρ) (pc : Pc P) : (s.move r pc).only proto k =
    if proto.key r = k then (s.only proto k).move r pc else s.only proto k := by
  simp only [Sys.only, Sys.move, ite_update]
  split_ifs <;> rfl

omit [DecidableEq ρ] in
theorem only_calls (s : Sys κ ρ E P) (n : ℕ) (es : List E) :
    ({ s with heap := Function.update s.heap n (s.heap n ++ es) } : Sys κ ρ E P).only proto k =
      { s.only proto k with
        heap := Function.update (s.only proto k).heap n
          ((s.only proto k).heap n ++ es.filter fun e => proto.key (proto.client e) = k) } := by
  simp only [Sys.only, Sys.mk.injEq, true_and, and_true, ← List.filter_append]
  exact Function.comp_update (List.filter fun e => proto.key (proto.client e) = k) ..

theorem only_other {o : Op ρ A} {t : Sys κ ρ E P} (hturn : Turn proto s o t) (ho : proto.key o.client ≠ k) :
    t.only proto k = s.only proto k := by
  cases hturn with
  | arrives | passes => exact (only_move ..).trans (if_neg ho)
  | locks hr | finds hr | misses hr | makes hr => simp_all [Sys.only, Op.client, Option.filter_some]
  | @stores r answer n hr =>
    have hkey : proto.key r ≠ k := ho
    simp only [Sys.only, ite_update, if_neg hkey]
    simp [hr, hkey, Option.filter_some]
  | unlocks hpc hr =>
    refine (only_move ..).trans ((if_neg ho).trans ?_)
    simp_all [Sys.only, Op.client, Option.filter_some]
  | @acts r a n p hpc =>
    refine (only_move ..).trans ((if_neg ho).trans ?_)
    have hes : (proto.act n r p (s.heap n) a).2.filter (fun e => proto.key (proto.client e) = k) = [] :=
      List.filter_eq_nil_iff.2 fun e he => by simpa [proto.client_act n r p _ a e he, Op.client] using ho
    rw [only_calls, hes, List.append_nil, Function.update_eq_self]
  | stays => rfl

/-- no object was returned for two keys -/
def Apart (s : Sys κ ρ E P) : Prop := ∀ n k k', (k, some n) ∈ s.made → (k', some n) ∈ s.made → k = k'

theorem apart_turn {o : Op ρ A} (hturn : Turn proto s o s') (ho : Unshared proto s o) (h : Apart s) : Apart s' := by
  cases hturn with
  | @makes r answer hr =>
    have hnew {m : ℕ} {k : κ} (hanswer : answer = some m) (hk : (k, some m) ∈ s.made) : k = proto.key r := by
      subst hanswer
      exact ho hr _ hk rfl
    intro m k k' hk hk'
    obtain hk | ⟨rfl, hm⟩ : (k, some m) ∈ s.made ∨ k = proto.key r ∧ some m = answer := by simpa using hk
    all_goals obtain hk' | ⟨rfl, hm'⟩ : (k', some m) ∈ s.made ∨ k' = proto.key r ∧ some m = answer := by simpa using hk'
    · exact h m k k' hk hk'
    · exact hnew hm'.symm hk
    · exact (hnew hm.symm hk').symm
    · rfl
  | arrives | locks | finds | misses | stores | unlocks | passes | acts | stays => exact h

theorem only_advance (s : Sys κ ρ E P) (hr : proto.key r = k) (answer : Option ℕ) (l : Locked) :
    (s.advance proto r answer l).only proto k = (s.only proto k).advance proto r answer l := by
  cases l with
  | looking =>
    have htable : (s.only proto k).table (proto.key r) = s.table (proto.key r) := if_pos hr
    simp only [Sys.advance, htable]
    split <;> simp [Sys.only, hr]
  | making => simp [Sys.advance, Sys.only, hr]
  | storing n => simp [Sys.advance, Sys.only, ite_update, hr]
  | unlocking n =>
    simp only [Sys.advance, only_move, if_pos hr]
    rfl

theorem only_get (hr : proto.key r = k) (answer : Option ℕ) (hblocked : Blocked s (.get r answer : Op ρ A) = false) :
    (s.get proto r answer).only proto k = (s.only proto k).get proto r answer := by
  unfold Sys.get
  cases hholder : s.holder with
  | none => simp [Sys.only, hholder, hr]
  | some x =>
    obtain ⟨r', l⟩ := x
    obtain rfl : r' = r := by simpa [Blocked, hholder] using hblocked
    have hl : (s.only proto k).holder = some (r', l) := by simp [Sys.only, hholder, hr]
    rw [hl]
    simpa using only_advance s hr answer l

/-- no other key's clients have called an object of a key -/
theorem heap_only (hinv : Inv proto s) (hfollows : Follows proto Q s) (hapart : Apart s) (hn : (k, some n) ∈ s.made) :
    (s.only proto k).heap n = s.heap n := by
  refine List.filter_eq_self.2 fun e he => decide_eq_true ?_
  by_contra hk
  have hnone : callsOf proto s n (proto.client e) = [] :=
    hfollows.other _ n fun p hp => hk (hapart n _ _ (hinv.mem_made hp) hn)
  have hmem : e ∈ callsOf proto s n (proto.client e) := by simpa [callsOf] using he
  simp [hnone] at hmem

theorem only_own (hinv : Inv proto s) (hfollows : Follows proto Q s) (hapart : Apart s) {o : Op ρ A}
    (ho : own proto k s o) : (step proto s o).only proto k = step proto (s.only proto k) o := by
  obtain ⟨hkey, hblocked⟩ : proto.key o.client = k ∧ Blocked s o = false := by simpa [own] using ho
  have hpc : (s.only proto k).pc o.client = s.pc o.client := if_pos hkey
  cases o with
  | arrive r =>
    simp only [step, show (s.only proto k).pc r = s.pc r from hpc]
    split
    · exact (only_move ..).trans (if_pos hkey)
    · rfl
  | get r answer =>
    simp only [step, show (s.only proto k).pc r = s.pc r from hpc]
    split
    · exact only_get hkey answer hblocked
    · rfl
  | act r a =>
    simp only [step, show (s.only proto k).pc r = s.pc r from hpc]
    split
    next => exact (only_move ..).trans (if_pos hkey)
    next n p hholds =>
      have hmem : (k, some n) ∈ s.made := hkey ▸ hinv.mem_made hholds
      refine (only_move ..).trans ((if_pos hkey).trans ?_)
      have hes : (proto.act n r p (s.heap n) a).2.filter (fun e => proto.key (proto.client e) = k) = _ :=
        List.filter_eq_self.2 fun e he => by simpa [proto.client_act n r p _ a e he, Op.client] using hkey
      rw [only_calls, hes, heap_only hinv hfollows hapart hmem]
    next => rfl

/-- what is left of a run when only the clients of a key take their steps -/
def alone (proto : Protocol κ ρ E P A) (k : κ) (ops : List (Op ρ A)) : Sys κ ρ E P :=
  run (step proto) start (picked (step proto) (own proto k) start ops)

/-- what belongs to a key after a run is what belongs to it after the steps of its clients alone: the table's entry, the
factory's calls, the calls its objects have received, the positions of its clients -/
structure Isolated (proto : Protocol κ ρ E P A) (ops : List (Op ρ A)) (k : κ) : Prop where
  table : (run (step proto) start ops).table k = (alone proto k ops).table k
  made : (run (step proto) start ops).made.filter (·.1 = k) = (alone proto k ops).made
  calls : ∀ n, (k, some n) ∈ (run (step proto) start ops).made →
    (run (step proto) start ops).heap n = (alone proto k ops).heap n
  positions : ∀ r, proto.key r = k → (run (step proto) start ops).pc r = (alone proto k ops).pc r

/-- **Isolation.** -/
theorem isolated (proto : Protocol κ ρ E P A) {ops : List (Op ρ A)}
    (hops : Along (step proto) (Unshared proto) start ops) (k : κ) : Isolated proto ops k := by
  let I : Sys κ ρ E P → Prop := fun s => Inv proto s ∧ Follows proto (fun _ _ _ => True) s ∧ Apart s
  have hI : ∀ s o, I s → Unshared proto s o → I (step proto s o) := fun s o hs ho =>
    ⟨inv_turn (turn_step s o) hs.1,
      follows_turn (fun _ => trivial) (fun _ _ _ _ _ _ _ => trivial) (turn_step s o) hs.2.1,
      apart_turn (turn_step s o) ho hs.2.2⟩
  have hstart : I start := ⟨inv_start, follows_start, by simp [Apart, start]⟩
  have honly : (run (step proto) start ops).only proto k = alone proto k ops := by
    refine run_picked (p := own proto k) (R := fun s t => s.only proto k = t) hI (fun s t o _ _ ho h => ?_)
      (fun s t o hs _ ho h => h ▸ only_own hs.1 hs.2.1 hs.2.2 ho) hstart (by simp [Sys.only, start]) hops
    by_cases hkey : proto.key o.client = k
    · -- an attempt at the mutex that does nothing
      have hblocked : Blocked s o := by simpa [own, hkey] using ho
      rwa [step_blocked hblocked]
    · exact (only_other (turn_step s o) hkey).trans h
  obtain ⟨hinv, hfollows, hapart⟩ : I (run (step proto) start ops) :=
    (always_of_along (P := I) (fun _ h => h) hI hstart hops).last
  constructor
  · rw [← honly]
    exact (if_pos rfl).symm
  · rw [← honly]
    rfl
  · intro n hn
    rw [← honly, heap_only hinv hfollows hapart hn]
  · intro r hr
    rw [← honly]
    exact (if_pos hr).symm

end LuluExt.Keyed
