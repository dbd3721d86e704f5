/-
What a ring of buckets remembers over a whole run.

A `Log` is a ring of event lists together with the events recorded since the last reset and the clock. Operations come
with non-decreasing instants (`Timely`): rotate, record an event (rotates first), reset.

- `noStale_always`: in a run whose rotations are all `Aligned` no counted event is older than (n + 1) durations;
- `lossFree_iff`: no `Protected` event is ever missing exactly when every step is `KeepsAhead`.
The two conditions pull in opposite directions: the rotation that clears enough buckets is the one that can lose events.
-/
import LuluExt.Lib.BucketRing

namespace LuluExt

open LuluExt.Run

structure Log (ε : Type*) where
  ring : BucketRing (List ε)
  /-- everything recorded since the last reset -/
  recorded : List ε
  clock : ℕ
deriving DecidableEq, Repr

inductive LogOp (ε : Type*) where
  | rotate (now : ℕ)
  | record (e : ε)
  | reset (now : ℕ)
deriving DecidableEq, Repr

namespace Log

variable {ε : Type*} (time : ε → ℕ)

/-- the instant of an operation -/
def instant : LogOp ε → ℕ
  | .rotate now => now
  | .record e => time e
  | .reset now => now

def step (s : Log ε) : LogOp ε → Log ε
  | .rotate now => { s with ring := s.ring.rotate [] now, clock := now }
  | .record e => ⟨s.ring.record [] (· ++ [e]) (time e), s.recorded ++ [e], time e⟩
  | .reset now => ⟨(s.ring.rotate [] now).reset [], [], now⟩

/-- the clock does not run backwards -/
def Timely (s : Log ε) (o : LogOp ε) : Prop := s.clock ≤ instant time o

instance (s : Log ε) (o : LogOp ε) : Decidable (Timely time s o) := inferInstanceAs (Decidable (_ ≤ _))

/-- number of buckets and their duration -/
def n (s : Log ε) : ℕ := s.ring.buckets.length

def d (s : Log ε) : ℕ := s.ring.bucketDuration

structure Inv (s : Log ε) : Prop where
  wf : s.ring.Wf
  placed : s.ring.Placed time
  sub : ∀ e ∈ s.ring.counted, e ∈ s.recorded
  past : ∀ e ∈ s.recorded, time e ≤ s.clock
  ahead : ∀ e ∈ s.recorded, time e < s.ring.lastRotate + s.d
  last_le : s.ring.lastRotate ≤ s.clock
  near : s.clock < s.ring.lastRotate + s.d

/-- the rotation that starts every operation -/
def rotated (s : Log ε) (now : ℕ) : Log ε := { s with ring := s.ring.rotate [] now, clock := now }

variable {time} {s : Log ε} {now : ℕ}

theorem lastRotate_mono (h : s.ring.lastRotate ≤ now) :
    s.ring.lastRotate ≤ (s.ring.rotate [] now).lastRotate ∧ (s.ring.rotate [] now).lastRotate ≤ now := by
  rw [BucketRing.rotate_lastRotate]
  split_ifs <;> simp [h]

theorem inv_rotated (h : s.Inv time) (ht : s.clock ≤ now) : (s.rotated now).Inv time := by
  obtain ⟨hl1, hl2⟩ := lastRotate_mono (h.last_le.trans ht)
  refine ⟨h.wf.rotate _ _, h.placed.rotate now, fun e he => ?_, fun e he => (h.past e he).trans ht, fun e he => ?_, hl2,
    ?_⟩
  · have hle : e ∈ s.ring.counted := by
      obtain ⟨i, b, hb, hm⟩ := BucketRing.mem_counted.1 he
      simp only [rotated, BucketRing.getElem?_rotate, Option.map_eq_some_iff] at hb
      obtain ⟨b0, hb0, rfl⟩ := hb
      split_ifs at hm with hc
      · simp at hm
      · exact BucketRing.mem_counted.2 ⟨i, b0, hb0, hm⟩
    exact h.sub e hle
  · have := h.ahead e he
    simp only [rotated, d, BucketRing.rotate_bucketDuration] at this ⊢
    omega
  · simpa [rotated, d] using BucketRing.now_lt_rotate h.wf [] now

theorem inv_step {o : LogOp ε} (h : s.Inv time) (ht : Timely time s o) : (s.step time o).Inv time := by
  cases o with
  | rotate now => exact inv_rotated h ht
  | record e =>
    have hr := inv_rotated h ht
    refine ⟨hr.wf.update _ _, hr.placed.update e, fun e' he => ?_, fun e' he => ?_, fun e' he => ?_, hr.last_le,
      hr.near⟩
    · rcases (BucketRing.mem_counted_update hr.wf).1 he with he | rfl
      · exact List.mem_append_left _ (hr.sub e' he)
      · simp [step]
    · rcases List.mem_append.1 he with he | he
      · exact hr.past e' he
      · rw [List.mem_singleton.1 he]; exact le_rfl
    · rcases List.mem_append.1 he with he | he
      · exact hr.ahead e' he
      · rw [List.mem_singleton.1 he]; exact hr.near
  | reset now =>
    have hr := inv_rotated h ht
    refine ⟨hr.wf.reset _, BucketRing.Placed.reset _, fun e he => ?_, by simp [step], by simp [step], hr.last_le,
      hr.near⟩
    rw [show (s.step time (.reset now)).ring.counted = [] from BucketRing.counted_reset _] at he
    simp at he

/-- an empty log over `n` buckets of duration `d`, started at `t0` -/
def start (n d t0 : ℕ) : Log ε := ⟨⟨d, List.replicate n [], t0⟩, [], t0⟩

theorem inv_start {n d : ℕ} (hn : 0 < n) (hd : 0 < d) (t0 : ℕ) : (start n d t0 : Log ε).Inv time := by
  have hnone : (start n d t0 : Log ε).ring.counted = [] := by simp [start, BucketRing.counted]
  refine ⟨⟨hd, by simpa [start] using hn⟩, fun i b hi e he => ?_, by simp [hnone], by simp [start], by simp [start],
    le_rfl, by simpa [start, Log.d] using hd⟩
  have hm := BucketRing.mem_counted.2 ⟨i, b, hi, he⟩
  rw [hnone] at hm
  simp at hm

/-! ## No stale event -/

/-- the rotation at `now` clears every slot crossed: nothing to rotate, or the whole ring goes, or the durations
counted since the last rotation are the slots crossed -/
def AlignedAt (s : Log ε) (now : ℕ) : Prop :=
  s.ring.steps now = 0 ∨ s.n ≤ s.ring.steps now ∨ s.ring.lastRotate % s.d ≤ now % s.d

instance (s : Log ε) (now : ℕ) : Decidable (s.AlignedAt now) := by unfold AlignedAt; infer_instance

variable (time) in
def Aligned (s : Log ε) (o : LogOp ε) : Prop := s.AlignedAt (instant time o)

instance (s : Log ε) (o : LogOp ε) : Decidable (s.Aligned time o) := inferInstanceAs (Decidable (AlignedAt _ _))

variable (time) in
def NoStale (s : Log ε) : Prop := ∀ e ∈ s.ring.counted, s.clock ≤ time e + (s.n + 1) * s.d

instance (s : Log ε) : Decidable (s.NoStale time) := inferInstanceAs (Decidable (∀ e ∈ _, _))

variable (time) in
/-- every counted event lies less than one round behind the last rotation -/
def Fresh (s : Log ε) : Prop := ∀ e ∈ s.ring.counted, s.ring.lastRotate / s.d < time e / s.d + s.n

theorem fresh_rotated (h : s.Inv time) (hf : s.Fresh time) (ht : s.clock ≤ now)
    (ha : s.AlignedAt now) : (s.rotated now).Fresh time := by
  have hn : 0 < s.n := h.wf.buckets_pos
  have hd : 0 < s.d := h.wf.duration_pos
  intro e he
  have hrec : e ∈ s.recorded := (inv_rotated h ht).sub e he
  have hpast : time e ≤ now := (h.past e hrec).trans ht
  obtain ⟨hc, hst⟩ := (BucketRing.mem_counted_rotate h.wf h.placed hpast).1 he
  have hold := hf e hc
  simp only [rotated, d, n, BucketRing.rotate_length, BucketRing.rotate_bucketDuration, BucketRing.rotate_lastRotate]
  change s.ring.steps now ≤ (now / s.d - time e / s.d) % s.n at hst
  change (if s.ring.steps now = 0 then s.ring.lastRotate else now) / s.d < time e / s.d + s.n
  have hlt : (now / s.d - time e / s.d) % s.n < s.n := Nat.mod_lt _ hn
  rcases ha with h0 | hall | hphase
  · rwa [if_pos h0]
  · omega
  · -- the slots crossed are exactly the durations counted, so an event one round old lies in the cleared range
    have hslot := slot_eq hd (h.last_le.trans ht)
    rw [if_pos hphase] at hslot
    change now / s.d = s.ring.lastRotate / s.d + s.ring.steps now at hslot
    split_ifs with h0
    · exact hold
    · by_contra hcon
      have hge : s.n ≤ now / s.d - time e / s.d := by omega
      rw [Nat.mod_eq_sub_mod hge] at hst
      have hle := Nat.mod_le (now / s.d - time e / s.d - s.n) s.n
      omega

theorem fresh_step {o : LogOp ε} (h : s.Inv time) (hf : s.Fresh time) (ht : Timely time s o)
    (ha : s.Aligned time o) : (s.step time o).Fresh time := by
  have hr := fresh_rotated h hf ht ha
  have hi := inv_rotated h ht
  cases o with
  | rotate now => exact hr
  | record e =>
    intro e' he
    rcases (BucketRing.mem_counted_update hi.wf).1 he with he | rfl
    · simpa [step, rotated, d, n, BucketRing.record, BucketRing.update, instant] using hr e' he
    · have hn : 0 < s.n := h.wf.buckets_pos
      have hle := Nat.div_le_div_right (c := s.d) hi.last_le
      simp only [step, d, n, BucketRing.record, BucketRing.update, List.length_modify, BucketRing.rotate_length,
        BucketRing.rotate_bucketDuration]
      exact Nat.lt_of_le_of_lt hle (Nat.lt_add_of_pos_right hn)
  | reset now =>
    intro e he
    rw [show (s.step time (.reset now)).ring.counted = [] from BucketRing.counted_reset _] at he
    simp at he

theorem noStale_of_fresh (h : s.Inv time) (hf : s.Fresh time) : s.NoStale time := by
  intro e he
  have hd : 0 < s.d := h.wf.duration_pos
  have h1 := slot_le_succ hd h.near
  have h2 := hf e he
  have h3 : s.clock < (time e / s.d + s.n + 1) * s.d := lt_slot_end hd (by omega)
  have h4 : time e / s.d * s.d ≤ time e := Nat.div_mul_le_self _ _
  have h5 : (time e / s.d + s.n + 1) * s.d = time e / s.d * s.d + (s.n + 1) * s.d := by ring
  omega

/-- **Aligned rotations keep no stale event.** -/
theorem noStale_always (h : s.Inv time) (hf : s.Fresh time) {ops : List (LogOp ε)}
    (ht : Along (step time) (Timely time) s ops) (ha : Along (step time) (Aligned time) s ops) :
    Always (step time) (NoStale time) s ops := by
  induction ops generalizing s with
  | nil => exact noStale_of_fresh h hf
  | cons o ops ih =>
    exact ⟨noStale_of_fresh h hf, ih (inv_step h ht.1) (fresh_step h hf ht.1 ha.1) ht.2 ha.2⟩

/-! ## No protected event lost -/

variable (time) in
/-- an event the window owes at `now`: less than n - 1 durations old, or in the slot of `now` -/
def Protected (s : Log ε) (now : ℕ) (e : ε) : Prop :=
  now < time e + (s.n - 1) * s.d ∨ time e / s.d = now / s.d

instance (s : Log ε) (now : ℕ) (e : ε) : Decidable (s.Protected time now e) := by unfold Protected; infer_instance

variable (time) in
def LossFree (s : Log ε) : Prop := ∀ e ∈ s.recorded, s.Protected time s.clock e → e ∈ s.ring.counted

instance [DecidableEq ε] (s : Log ε) : Decidable (s.LossFree time) := by unfold LossFree; infer_instance

variable (time) in
/-- a rotation at `now` keeps the protected events: it does not happen, or its phase wraps (so that the slot after the
last rotation is not cleared), or no protected event lies past the slot of the last rotation -/
def KeepsAhead (s : Log ε) (now : ℕ) : Prop :=
  s.ring.steps now = 0 ∨ now % s.d < s.ring.lastRotate % s.d ∨
    ∀ e ∈ s.recorded, s.Protected time now e → time e / s.d ≤ s.ring.lastRotate / s.d

instance (s : Log ε) (now : ℕ) : Decidable (s.KeepsAhead time now) := by unfold KeepsAhead; infer_instance

variable (time) in
/-- `KeepsAhead` for the operations that owe the events afterwards; a reset drops everything on purpose -/
def Keeps (s : Log ε) : LogOp ε → Prop
  | .rotate now => s.KeepsAhead time now
  | .record e => s.KeepsAhead time (time e)
  | .reset _ => True

instance (s : Log ε) : ∀ o : LogOp ε, Decidable (s.Keeps time o)
  | .rotate now => inferInstanceAs (Decidable (s.KeepsAhead time now))
  | .record e => inferInstanceAs (Decidable (s.KeepsAhead time (time e)))
  | .reset _ => inferInstanceAs (Decidable True)

theorem protected_step (o : LogOp ε) {t : ℕ} {e : ε} : (s.step time o).Protected time t e ↔ s.Protected time t e := by
  cases o <;> simp [Protected, step, n, d, BucketRing.record, BucketRing.update, BucketRing.reset]

theorem protected_slot {e : ε} (h : s.Inv time) (hp : s.Protected time now e) :
    now / s.d ≤ time e / s.d + (s.n - 1) := by
  have hd : 0 < s.d := h.wf.duration_pos
  rcases hp with hp | hp
  · rw [← Nat.add_mul_div_right _ _ hd]
    exact Nat.div_le_div_right hp.le
  · omega

theorem Protected.earlier {t : ℕ} {e : ε} (hp : s.Protected time now e) (he : time e ≤ t)
    (ht : t ≤ now) : s.Protected time t e := by
  rcases hp with hp | hp
  · exact Or.inl (Nat.lt_of_le_of_lt ht hp)
  · have h1 := Nat.div_le_div_right (c := s.d) he
    have h2 := Nat.div_le_div_right (c := s.d) ht
    exact Or.inr (by omega)

/-- a rotation drops a protected event exactly when the event lies in the slots it clears -/
theorem protected_counted_rotate {e : ε} (h : s.Inv time) (ht : s.clock ≤ now)
    (he : e ∈ s.recorded) (hp : s.Protected time now e) :
    e ∈ (s.ring.rotate [] now).counted ↔ e ∈ s.ring.counted ∧ time e / s.d + s.ring.steps now ≤ now / s.d := by
  have hn : 0 < s.n := h.wf.buckets_pos
  have hpast : time e ≤ now := (h.past e he).trans ht
  have hle := Nat.div_le_div_right (c := s.d) hpast
  have hslot := protected_slot h hp
  have hlt : now / s.d - time e / s.d < s.n := by omega
  rw [BucketRing.mem_counted_rotate h.wf h.placed hpast]
  change _ ∧ s.ring.steps now ≤ (now / s.d - time e / s.d) % s.n ↔ _
  rw [Nat.mod_eq_of_lt hlt]
  constructor <;> rintro ⟨h1, h2⟩ <;> exact ⟨h1, by omega⟩

theorem keeps_rotated (h : s.Inv time) (hl : s.LossFree time) (ht : s.clock ≤ now) (hk : s.KeepsAhead time now) :
    ∀ e ∈ s.recorded, s.Protected time now e → e ∈ (s.ring.rotate [] now).counted := by
  intro e he hp
  have hd : 0 < s.d := h.wf.duration_pos
  have hc : e ∈ s.ring.counted := hl e he (hp.earlier (h.past e he) ht)
  refine (protected_counted_rotate h ht he hp).2 ⟨hc, ?_⟩
  have hslot : now / s.d = s.ring.lastRotate / s.d + s.ring.steps now + _ := slot_eq hd (h.last_le.trans ht)
  rcases hk with h0 | hw | hk
  · have := Nat.div_le_div_right (c := s.d) ((h.past e he).trans ht)
    omega
  · rw [if_neg (by omega)] at hslot
    have := slot_le_succ hd (h.ahead e he)
    omega
  · have := hk e he hp
    omega

theorem lost_of_not_keepsAhead (h : s.Inv time) (ht : s.clock ≤ now) (hk : ¬ s.KeepsAhead time now) :
    ∃ e ∈ s.recorded, s.Protected time now e ∧ time e < now ∧ e ∉ (s.ring.rotate [] now).counted := by
  have hd : 0 < s.d := h.wf.duration_pos
  simp only [KeepsAhead, not_or, not_forall, not_lt] at hk
  obtain ⟨hs, hw, e, he, hp, hlate⟩ := hk
  have hslot : now / s.d = s.ring.lastRotate / s.d + s.ring.steps now + _ := slot_eq hd (h.last_le.trans ht)
  rw [if_pos hw] at hslot
  refine ⟨e, he, hp, ?_, fun hc => ?_⟩
  · have h1 := h.ahead e he
    have h2 : s.d ≤ now - s.ring.lastRotate := by
      by_contra hcon
      exact hs ((Nat.div_eq_zero_iff_lt hd).2 (by omega))
    omega
  · have := ((protected_counted_rotate h ht he hp).1 hc).2
    omega

theorem lossFree_step {o : LogOp ε} (h : s.Inv time) (hl : s.LossFree time) (ht : Timely time s o)
    (hk : s.Keeps time o) : (s.step time o).LossFree time := by
  cases o with
  | rotate now =>
    intro e he hp
    exact keeps_rotated h hl ht hk e he ((protected_step _).1 hp)
  | record e =>
    intro e' he hp
    refine (BucketRing.mem_counted_update (inv_rotated h ht).wf).2 ?_
    rcases List.mem_append.1 he with he | he
    · exact Or.inl (keeps_rotated h hl ht hk e' he ((protected_step (.record e)).1 hp))
    · exact Or.inr (List.mem_singleton.1 he)
  | reset now => intro e he; simp [step] at he

theorem not_lossFree_step {o : LogOp ε} (h : s.Inv time) (ht : Timely time s o)
    (hk : ¬ s.Keeps time o) : ¬ (s.step time o).LossFree time := by
  intro hl
  cases o with
  | rotate now =>
    obtain ⟨e, he, hp, -, hc⟩ := lost_of_not_keepsAhead h ht hk
    exact hc (hl e he ((protected_step (.rotate now)).2 hp))
  | record e' =>
    obtain ⟨e, he, hp, hlt, hc⟩ := lost_of_not_keepsAhead h ht hk
    have hm := hl e (List.mem_append_left _ he) ((protected_step (.record e')).2 hp)
    rcases (BucketRing.mem_counted_update (inv_rotated h ht).wf).1 hm with hm | rfl
    · exact hc hm
    · exact absurd hlt (lt_irrefl _)
  | reset now => exact hk trivial

/-- **Exactly the steps that keep what lies ahead lose no protected event.** -/
theorem lossFree_iff (h : s.Inv time) (hl : s.LossFree time) {ops : List (LogOp ε)}
    (ht : Along (step time) (Timely time) s ops) :
    Always (step time) (LossFree time) s ops ↔ Along (step time) (Keeps time) s ops := by
  refine always_iff_along (I := fun s => s.Inv time ∧ s.LossFree time) (P := LossFree time) (H := Timely time)
    (C := Keeps time) (fun _ hs => hs.2) ?_ ?_ ⟨h, hl⟩ ht
  · intro s o hs hT hK
    exact ⟨inv_step hs.1 hT, lossFree_step hs.1 hs.2 hT hK⟩
  · intro s o hs hT hK
    exact not_lossFree_step hs.1 hT hK

end Log

end LuluExt
