/-
A ring of buckets over a clock: each instant falls into one slot of length `bucketDuration`, slot k is kept in bucket
k mod n. A rotation at `now` counts the whole bucket durations that passed since the last rotation and clears that many
buckets, ending with the current one. A record rotates and then updates the current bucket. The bucket type is
arbitrary; `map` carries the operations from one bucket type to another, so a ring of counters can be studied through
the ring that lists the events it counts.

For the ring of event lists:
- `counted`: the events still held by some bucket;
- `mem_counted_rotate`: which events a rotation drops.
-/
import LuluExt.Lib.Run

namespace LuluExt

open LuluExt.Run

variable {β γ : Type*}

/-! ## The ring -/

structure BucketRing (β : Type*) where
  bucketDuration : ℕ
  buckets : List β
  lastRotate : ℕ
deriving DecidableEq, Repr

/-- how far index `i` lies behind index `cur` on a ring of `n` -/
def behind (n cur i : ℕ) : ℕ := (cur + (n - i)) % n

/-- clear the `steps` buckets that end with `cur` -/
def clearLast (zero : β) (bs : List β) (cur steps : ℕ) : List β :=
  bs.mapIdx fun i b => if behind bs.length cur i < steps then zero else b

namespace BucketRing

/-- whole bucket durations since the last rotation -/
def steps (r : BucketRing β) (now : ℕ) : ℕ := (now - r.lastRotate) / r.bucketDuration

def index (r : BucketRing β) (now : ℕ) : ℕ := now / r.bucketDuration % r.buckets.length

def rotate (zero : β) (r : BucketRing β) (now : ℕ) : BucketRing β :=
  if r.steps now = 0 then r
  else { r with buckets := clearLast zero r.buckets (r.index now) (r.steps now), lastRotate := now }

/-- update the current bucket -/
def update (r : BucketRing β) (now : ℕ) (f : β → β) : BucketRing β :=
  { r with buckets := r.buckets.modify (r.index now) f }

def record (zero : β) (f : β → β) (r : BucketRing β) (now : ℕ) : BucketRing β := (r.rotate zero now).update now f

def reset (zero : β) (r : BucketRing β) : BucketRing β := { r with buckets := r.buckets.map fun _ => zero }

def map (g : β → γ) (r : BucketRing β) : BucketRing γ := { r with buckets := r.buckets.map g }

/-- a ring whose buckets exist and have a length -/
structure Wf (r : BucketRing β) : Prop where
  duration_pos : 0 < r.bucketDuration
  buckets_pos : 0 < r.buckets.length

variable (zero : β)

@[simp] theorem rotate_bucketDuration (r : BucketRing β) (now : ℕ) :
    (r.rotate zero now).bucketDuration = r.bucketDuration := by
  unfold rotate; split_ifs <;> rfl

@[simp] theorem rotate_length (r : BucketRing β) (now : ℕ) : (r.rotate zero now).buckets.length = r.buckets.length := by
  unfold rotate; split_ifs <;> simp [clearLast]

@[simp] theorem rotate_index (r : BucketRing β) (now t : ℕ) : (r.rotate zero now).index t = r.index t := by
  simp [index]

@[simp] theorem update_length (r : BucketRing β) (now : ℕ) (f : β → β) :
    (r.update now f).buckets.length = r.buckets.length := by
  simp [update]

@[simp] theorem reset_length (r : BucketRing β) : (r.reset zero).buckets.length = r.buckets.length := by
  simp [reset]

theorem rotate_of_steps_eq_zero {r : BucketRing β} {now : ℕ} (h : r.steps now = 0) : r.rotate zero now = r := by
  simp [rotate, h]

theorem rotate_lastRotate (r : BucketRing β) (now : ℕ) :
    (r.rotate zero now).lastRotate = if r.steps now = 0 then r.lastRotate else now := by
  unfold rotate; split_ifs <;> rfl

theorem getElem?_rotate (r : BucketRing β) (now i : ℕ) : (r.rotate zero now).buckets[i]? =
      r.buckets[i]?.map fun b => if behind r.buckets.length (r.index now) i < r.steps now then zero else b := by
  by_cases h : r.steps now = 0
  · simp [rotate, h]
  · simp [rotate, h, clearLast]

/-! ### Change of bucket type -/

variable (g : β → γ)

theorem map_rotate (zero : β) (r : BucketRing β) (now : ℕ) :
    (r.map g).rotate (g zero) now = (r.rotate zero now).map g := by
  have hs : (r.map g).steps now = r.steps now := rfl
  have hi : (r.map g).index now = r.index now := by simp [index, map]
  unfold rotate
  rw [hs, hi]
  split_ifs
  · rfl
  · simp only [map, clearLast, BucketRing.mk.injEq, true_and, and_true]
    apply List.ext_getElem?
    intro i
    simp only [List.getElem?_mapIdx, List.getElem?_map, Option.map_map, List.length_map]
    congr 1
    funext b
    split_ifs <;> rfl

theorem map_update (f : β → β) (f' : γ → γ) (hf : ∀ b, g (f b) = f' (g b)) (r : BucketRing β) (now : ℕ) :
    (r.map g).update now f' = (r.update now f).map g := by
  have hi : (r.map g).index now = r.index now := by simp [index, map]
  simp only [update, hi]
  simp only [map, BucketRing.mk.injEq, true_and, and_true]
  apply List.ext_getElem?
  intro i
  simp only [List.getElem?_modify, List.getElem?_map]
  cases r.buckets[i]? with
  | none => rfl
  | some b =>
    split_ifs <;> simp [hf]

theorem map_record (zero : β) (f : β → β) (f' : γ → γ) (hf : ∀ b, g (f b) = f' (g b)) (r : BucketRing β)
    (now : ℕ) : (r.map g).record (g zero) f' now = (r.record zero f now).map g := by
  unfold record
  rw [map_rotate, map_update g f f' hf]

theorem map_reset (zero : β) (r : BucketRing β) : (r.map g).reset (g zero) = (r.reset zero).map g := by
  simp [map, reset, Function.comp_def]

end BucketRing

/-! ## Positions on the ring -/

theorem behind_lt {n : ℕ} (hn : 0 < n) (cur i : ℕ) : behind n cur i < n := Nat.mod_lt _ hn

/-- an earlier slot lies behind a later one by the slots between them, modulo the ring -/
theorem behind_mod {n e s : ℕ} (hn : 0 < n) (h : e ≤ s) : behind n (s % n) (e % n) = (s - e) % n := by
  have he : e % n ≤ n := (Nat.mod_lt e hn).le
  have key : s % n + (n - e % n) + e ≡ (s - e) + e [MOD n] := by
    have h1 : s % n + (n - e % n) + e ≡ s + (n - e % n) + e % n [MOD n] :=
      ((Nat.mod_modEq s n).add_right _).add (Nat.mod_modEq e n).symm
    have h2 : s + (n - e % n) + e % n = s + n := by omega
    rw [h2] at h1
    rw [Nat.sub_add_cancel h]
    exact h1.trans (Nat.add_modEq_right)
  exact Nat.ModEq.add_right_cancel' e key

/-- slots crossed between two instants: the whole durations between them, and one more when the phase wraps -/
theorem slot_eq {d a b : ℕ} (hd : 0 < d) (h : a ≤ b) :
    b / d = a / d + (b - a) / d + (if a % d ≤ b % d then 0 else 1) := by
  obtain ⟨c, rfl⟩ := Nat.exists_eq_add_of_le h
  rw [Nat.add_sub_cancel_left, Nat.add_div hd]
  have hc : (d ≤ a % d + c % d) ↔ ¬ a % d ≤ (a + c) % d := by
    have ha := Nat.mod_lt a hd
    have hcm := Nat.mod_lt c hd
    rw [Nat.add_mod a c d]
    by_cases hw : d ≤ a % d + c % d
    · have hs : a % d + c % d - d < d := by omega
      rw [Nat.mod_eq_sub_mod hw, Nat.mod_eq_of_lt hs]; omega
    · have hs : a % d + c % d < d := by omega
      rw [Nat.mod_eq_of_lt hs]; omega
  by_cases hw : d ≤ a % d + c % d
  · rw [if_pos hw, if_neg (hc.1 hw)]
  · rw [if_neg hw, if_pos (by by_contra hn; exact hw (hc.2 hn))]

theorem slot_le_succ {d t last : ℕ} (hd : 0 < d) (h : t < last + d) : t / d ≤ last / d + 1 := by
  rw [← Nat.add_div_right _ hd]
  exact Nat.div_le_div_right h.le

theorem lt_slot_end {d t k : ℕ} (hd : 0 < d) (h : t / d ≤ k) : t < (k + 1) * d := by
  exact (Nat.div_lt_iff_lt_mul hd).1 (by omega)

/-! ## Events on the ring -/

section Events

variable {ε : Type*} {time : ε → ℕ}

namespace BucketRing

/-- the events some bucket still holds -/
def counted (r : BucketRing (List ε)) : List ε := r.buckets.flatten

/-- every event is held by the bucket of its own slot -/
def Placed (time : ε → ℕ) (r : BucketRing (List ε)) : Prop :=
  ∀ i b, r.buckets[i]? = some b → ∀ e ∈ b, r.index (time e) = i

variable {r : BucketRing (List ε)}

theorem mem_counted {e : ε} : e ∈ r.counted ↔ ∃ (i : ℕ) (b : List ε), r.buckets[i]? = some b ∧ e ∈ b := by
  rw [counted, List.mem_flatten]
  constructor
  · intro h
    obtain ⟨b, hb, he⟩ := h
    obtain ⟨i, hi⟩ := List.mem_iff_getElem?.1 hb
    exact ⟨i, b, hi, he⟩
  · intro h
    obtain ⟨i, b, hi, he⟩ := h
    exact ⟨b, List.mem_of_getElem? hi, he⟩

theorem index_lt {r : BucketRing β} (h : r.Wf) (now : ℕ) : r.index now < r.buckets.length :=
  Nat.mod_lt _ h.buckets_pos

theorem Wf.rotate {r : BucketRing β} (h : r.Wf) (zero : β) (now : ℕ) : (r.rotate zero now).Wf :=
  ⟨by simpa using h.duration_pos, by simpa using h.buckets_pos⟩

theorem Wf.update {r : BucketRing β} (h : r.Wf) (now : ℕ) (f : β → β) : (r.update now f).Wf :=
  ⟨h.duration_pos, by simpa using h.buckets_pos⟩

theorem Wf.record {r : BucketRing β} (h : r.Wf) (zero : β) (f : β → β) (now : ℕ) : (r.record zero f now).Wf :=
  (h.rotate zero now).update now f

theorem Wf.reset {r : BucketRing β} (h : r.Wf) (zero : β) : (r.reset zero).Wf :=
  ⟨h.duration_pos, by simpa using h.buckets_pos⟩

/-- less than one duration passes after a rotation before the next one counts -/
theorem now_lt_rotate {r : BucketRing β} (h : r.Wf) (zero : β) (now : ℕ) :
    now < (r.rotate zero now).lastRotate + r.bucketDuration := by
  have hd := h.duration_pos
  rw [rotate_lastRotate]
  split_ifs with hs
  · have := (Nat.div_eq_zero_iff_lt hd).1 hs; omega
  · omega

/-- **What a rotation drops**: the events whose slot lies fewer than `steps` behind the current one. -/
theorem mem_counted_rotate (hw : r.Wf) (hp : r.Placed time) {e : ε} {now : ℕ} (he : time e ≤ now) :
    e ∈ (r.rotate [] now).counted ↔ e ∈ r.counted ∧
      r.steps now ≤ (now / r.bucketDuration - time e / r.bucketDuration) % r.buckets.length := by
  have hb : behind r.buckets.length (r.index now) (r.index (time e)) =
      (now / r.bucketDuration - time e / r.bucketDuration) % r.buckets.length :=
    behind_mod hw.buckets_pos (Nat.div_le_div_right he)
  simp only [mem_counted, getElem?_rotate, Option.map_eq_some_iff]
  constructor
  · intro h
    obtain ⟨i, b, ⟨b0, hi, rfl⟩, hm⟩ := h
    split_ifs at hm with hc
    · simp at hm
    · rw [← hp i b0 hi e hm, hb] at hc
      exact ⟨⟨i, b0, hi, hm⟩, Nat.le_of_not_lt hc⟩
  · intro h
    obtain ⟨⟨i, b, hi, hm⟩, hc⟩ := h
    refine ⟨i, b, ⟨b, hi, ?_⟩, hm⟩
    rw [← hp i b hi e hm, if_neg (by omega)]

theorem Placed.rotate (hp : r.Placed time) (now : ℕ) : (r.rotate [] now).Placed time := by
  intro i b hi e he
  rw [getElem?_rotate, Option.map_eq_some_iff] at hi
  obtain ⟨b0, hi, rfl⟩ := hi
  split_ifs at he with hc
  · simp at he
  · rw [rotate_index]; exact hp i b0 hi e he

theorem Placed.update (hp : r.Placed time) (e : ε) : (r.update (time e) (· ++ [e])).Placed time := by
  intro i b hi e' he
  have hix : (r.update (time e) (· ++ [e])).index (time e') = r.index (time e') := by
    simp [index, BucketRing.update]
  rw [hix]
  simp only [BucketRing.update, List.getElem?_modify, Option.map_eq_map, Option.map_eq_some_iff] at hi
  obtain ⟨b0, hi, rfl⟩ := hi
  split_ifs at he with hc
  · rcases List.mem_append.1 he with he | he
    · exact hp i b0 hi e' he
    · rw [List.mem_singleton.1 he]; exact hc
  · exact hp i b0 hi e' he

theorem mem_counted_update (hw : r.Wf) {e e' : ε} {now : ℕ} :
    e' ∈ (r.update now (· ++ [e])).counted ↔ e' ∈ r.counted ∨ e' = e := by
  simp only [mem_counted, BucketRing.update, List.getElem?_modify, Option.map_eq_map, Option.map_eq_some_iff]
  constructor
  · intro h
    obtain ⟨i, b, ⟨b0, hi, rfl⟩, hm⟩ := h
    split_ifs at hm with hc
    · rcases List.mem_append.1 hm with hm | hm
      · exact Or.inl ⟨i, b0, hi, hm⟩
      · exact Or.inr (List.mem_singleton.1 hm)
    · exact Or.inl ⟨i, b0, hi, hm⟩
  · intro h
    rcases h with ⟨i, b, hi, hm⟩ | rfl
    · refine ⟨i, _, ⟨b, hi, rfl⟩, ?_⟩
      split_ifs
      · exact List.mem_append_left _ hm
      · exact hm
    · have hlt := index_lt hw now
      exact ⟨r.index now, _, ⟨_, List.getElem?_eq_getElem hlt, rfl⟩, by simp⟩

theorem flatten_mapIdx_sublist (p : ℕ → Prop) [DecidablePred p] (bs : List (List ε)) :
    (bs.mapIdx fun i b => if p i then [] else b).flatten.Sublist bs.flatten := by
  induction bs generalizing p with
  | nil => simp
  | cons b bs ih =>
    rw [List.mapIdx_cons]
    refine List.Sublist.append ?_ (ih fun i => p (i + 1))
    split_ifs
    · exact List.nil_sublist b
    · exact List.Sublist.refl b

theorem counted_rotate_sublist (r : BucketRing (List ε)) (now : ℕ) : (r.rotate [] now).counted.Sublist r.counted := by
  unfold rotate
  split_ifs
  · exact List.Sublist.refl _
  · exact flatten_mapIdx_sublist (fun i => behind r.buckets.length (r.index now) i < r.steps now) r.buckets

theorem flatten_modify_perm {bs : List (List ε)} {i : ℕ} (hi : i < bs.length) (e : ε) :
    (bs.modify i (· ++ [e])).flatten.Perm (e :: bs.flatten) := by
  induction bs generalizing i with
  | nil => cases hi
  | cons b bs ih =>
    cases i with
    | zero => simp
    | succ i =>
      have hrest : (bs.modify i (· ++ [e])).flatten.Perm (e :: bs.flatten) := ih (by simpa using hi)
      exact (hrest.append_left b).trans List.perm_middle

theorem counted_update_perm (hw : r.Wf) (e : ε) (now : ℕ) : (r.update now (· ++ [e])).counted.Perm (e :: r.counted) :=
  flatten_modify_perm (index_lt hw now) e

theorem counted_reset (r : BucketRing (List ε)) : (r.reset []).counted = [] := by
  simp [counted, BucketRing.reset]

theorem Placed.reset (r : BucketRing (List ε)) : (r.reset []).Placed time := by
  intro i b hi e he
  have hm : e ∈ (r.reset []).counted := mem_counted.2 ⟨i, b, hi, he⟩
  rw [counted_reset] at hm
  simp at hm

end BucketRing

end Events

end LuluExt
