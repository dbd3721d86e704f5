/-
Cumulative acknowledgement: one mark per key, which stands for everything below it.

Items of a key come in order of their offsets. An item that is acknowledged moves the mark of its key past itself; an
item that failed is remembered, and must not lie below the mark of its key. A failed item moves no mark, but the next
acknowledged item of its key moves the mark past both: `safe_iff_clean` says that this is the only way to lose one.
-/
import LuluExt.Lib.Run

namespace LuluExt.Watermark

open Run

variable {κ : Type*} [DecidableEq κ]

inductive Outcome where
  | acked
  | failed
  /-- neither: the item was dealt with, and its acknowledgement did not go through -/
  | left
deriving DecidableEq, Repr

structure Item (κ : Type*) where
  key : κ
  offset : ℕ
  outcome : Outcome

structure Marks (κ : Type*) where
  /-- everything below is acknowledged -/
  mark : κ → ℕ
  /-- everything below was dealt with -/
  seen : κ → ℕ
  failed : List (κ × ℕ)

def step (s : Marks κ) (i : Item κ) : Marks κ where
  mark := if i.outcome = .acked then Function.update s.mark i.key (i.offset + 1) else s.mark
  seen := Function.update s.seen i.key (i.offset + 1)
  failed := if i.outcome = .failed then (i.key, i.offset) :: s.failed else s.failed

/-- no failed item lies below the mark of its key -/
def Safe (s : Marks κ) : Prop := ∀ f ∈ s.failed, s.mark f.1 ≤ f.2

def InOrder (s : Marks κ) (i : Item κ) : Prop := s.seen i.key ≤ i.offset

/-- an item is acknowledged only while its key has no failed item -/
def Clean (s : Marks κ) (i : Item κ) : Prop := i.outcome = .acked → ∀ f ∈ s.failed, f.1 ≠ i.key

structure Inv (s : Marks κ) : Prop where
  mark_le : ∀ k, s.mark k ≤ s.seen k
  failed_lt : ∀ f ∈ s.failed, f.2 < s.seen f.1

variable {s : Marks κ} {i : Item κ}

theorem seen_mono (ho : InOrder s i) (k : κ) : s.seen k ≤ (step s i).seen k := by
  by_cases hk : k = i.key
  · subst hk
    simp only [step, Function.update_self]
    exact ho.trans (Nat.le_succ _)
  · simp [step, Function.update_of_ne hk]

theorem mark_mono (hi : Inv s) (ho : InOrder s i) (k : κ) : s.mark k ≤ (step s i).mark k := by
  by_cases hk : i.outcome = .acked ∧ k = i.key
  · obtain ⟨hacked, rfl⟩ := hk
    simp only [step, hacked, if_true, Function.update_self]
    exact (hi.mark_le _).trans (ho.trans (Nat.le_succ _))
  · simp only [step]
    split_ifs with hacked
    · rw [Function.update_of_ne (fun h => hk ⟨hacked, h⟩)]
    · exact le_rfl

theorem failed_subset : ∀ f ∈ s.failed, f ∈ (step s i).failed := by
  intro f hf
  simp only [step]
  split_ifs
  · exact List.mem_cons_of_mem _ hf
  · exact hf

theorem Inv.step (hi : Inv s) (ho : InOrder s i) : Inv (step s i) := by
  refine ⟨?_, ?_⟩
  · intro k
    by_cases hk : i.outcome = .acked ∧ k = i.key
    · obtain ⟨hacked, rfl⟩ := hk
      simp [Watermark.step, hacked]
    · have hmark : (Watermark.step s i).mark k = s.mark k := by
        simp only [Watermark.step]
        split_ifs with hacked
        · exact Function.update_of_ne (fun h => hk ⟨hacked, h⟩) _ _
        · rfl
      rw [hmark]
      exact (hi.mark_le k).trans (seen_mono ho k)
  · intro f hf
    simp only [Watermark.step] at hf
    split_ifs at hf with hfailed
    · rcases List.mem_cons.1 hf with rfl | hf
      · simp [Watermark.step]
      · exact (hi.failed_lt f hf).trans_le (seen_mono ho f.1)
    · exact (hi.failed_lt f hf).trans_le (seen_mono ho f.1)

theorem safe_step (hi : Inv s) (ho : InOrder s i) (hs : Safe s) (hc : Clean s i) : Safe (step s i) := by
  intro f hf
  cases hout : i.outcome with
  | acked =>
    have hmem : f ∈ s.failed := by simpa [step, hout] using hf
    have hkey : f.1 ≠ i.key := hc hout f hmem
    simpa [step, hout, Function.update_of_ne hkey] using hs f hmem
  | failed =>
    have hmem : f = (i.key, i.offset) ∨ f ∈ s.failed := by simpa [step, hout] using hf
    have hmark : (step s i).mark = s.mark := by simp [step, hout]
    rw [hmark]
    rcases hmem with rfl | hmem
    · exact (hi.mark_le _).trans ho
    · exact hs f hmem
  | left =>
    have hmem : f ∈ s.failed := by simpa [step, hout] using hf
    simpa [step, hout] using hs f hmem

/-- the mark moves past a failed item, which came before the acknowledged one -/
theorem not_safe_step (hi : Inv s) (ho : InOrder s i) (hc : ¬ Clean s i) : ¬ Safe (step s i) := by
  intro hsafe
  simp only [Clean, not_forall, not_not] at hc
  obtain ⟨hacked, f, hf, hkey⟩ := hc
  have hbelow : f.2 < s.seen f.1 := hi.failed_lt f hf
  have hmark := hsafe f (failed_subset f hf)
  rw [hkey] at hbelow hmark
  simp only [step, hacked, if_true, Function.update_self] at hmark
  exact absurd ((hbelow.trans_le ho).le.trans_lt (Nat.lt_succ_self _)) (not_lt.2 hmark)

theorem unsafe_stays (hi : Inv s) (ho : InOrder s i) (hs : ¬ Safe s) : ¬ Safe (step s i) := by
  intro hsafe
  apply hs
  intro f hf
  exact (mark_mono hi ho f.1).trans (hsafe f (failed_subset f hf))

/-- **Nothing is lost exactly while no key acknowledges after a failure.** -/
theorem safe_iff_clean {s : Marks κ} (hi : Inv s) (hs : Safe s) {items : List (Item κ)}
    (ho : Along step InOrder s items) : Safe (run step s items) ↔ Along step Clean s items := by
  have hlast : Always step Safe s items ↔ Safe (run step s items) :=
    always_iff_last (I := Inv) (fun _ _ h o => h.step o) (fun _ _ h o => unsafe_stays h o) hi ho
  rw [← hlast]
  refine always_iff_along (I := fun s => Inv s ∧ Safe s) (fun _ h => h.2) ?_ ?_ ⟨hi, hs⟩ ho
  · intro s i h o hc
    exact ⟨h.1.step o, safe_step h.1 o h.2 hc⟩
  · intro s i h o hc
    exact not_safe_step h.1 o hc

theorem inv_run {s : Marks κ} (hi : Inv s) {items : List (Item κ)} (ho : Along step InOrder s items) :
    Inv (run step s items) := by
  induction items generalizing s with
  | nil => exact hi
  | cons i items ih => exact ih (hi.step ho.1) ho.2

end LuluExt.Watermark
