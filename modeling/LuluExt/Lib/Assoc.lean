/-
Two readings of a list of keys and values: as the map that its entries build, one after another, and as a search for the
first entry of a key. The map has the last value of a key and the search finds the first one (`toMap_eq`, `first_eq`),
so they agree on a key exactly when these are the same, and on all keys when no key is repeated (`first_eq_toMap`).
-/
import Mathlib.Tactic

namespace LuluExt.Assoc

variable {κ ν : Type} [DecidableEq κ]

/-- the values of a key, in order -/
def values (l : List (κ × ν)) (k : κ) : List ν := (l.filter fun x => x.1 = k).map Prod.snd

def put (m : κ → Option ν) (x : κ × ν) : κ → Option ν := Function.update m x.1 (some x.2)

/-- `for k, v := range l { m[k] = v }` -/
def toMap (l : List (κ × ν)) : κ → Option ν := l.foldl put fun _ => none

/-- `for k, v := range l { if k == key { return v } }` -/
def first (l : List (κ × ν)) (k : κ) : Option ν := (l.find? fun x => x.1 = k).map Prod.snd

variable (l : List (κ × ν))

theorem foldl_put (m : κ → Option ν) (k : κ) : l.foldl put m k = (values l k).getLast?.or (m k) := by
  induction l generalizing m with
  | nil => rfl
  | cons x l ih =>
    rw [List.foldl_cons, ih]
    by_cases hx : x.1 = k
    · have hcons : values (x :: l) k = [x.2] ++ values l k := by simp [values, hx]
      rw [hcons, List.getLast?_append, ← hx, put, Function.update_self]
      cases (values l x.1).getLast? <;> rfl
    · have hcons : values (x :: l) k = values l k := by simp [values, hx]
      rw [hcons, put, Function.update_of_ne (Ne.symm hx)]

theorem toMap_eq (k : κ) : toMap l k = (values l k).getLast? := by
  rw [toMap, foldl_put, Option.or_none]

theorem first_eq (k : κ) : first l k = (values l k).head? := by
  rw [first, values, List.head?_map, List.head?_filter]

theorem first_map {ν' : Type} (f : ν → ν') (l : List (κ × ν)) (k : κ) :
    first (l.map fun x => (x.1, f x.2)) k = (first l k).map f := by
  rw [first, first, List.find?_map, Option.map_map, Option.map_map]
  rfl

/-- a key that is not repeated has one value at most -/
theorem first_eq_toMap {l : List (κ × ν)} (hl : (l.map Prod.fst).Nodup) (k : κ) : first l k = toMap l k := by
  rw [first_eq, toMap_eq]
  induction l with
  | nil => rfl
  | cons x l ih =>
    rw [List.map_cons, List.nodup_cons] at hl
    by_cases hx : x.1 = k
    · have hnone : l.filter (fun y => y.1 = k) = [] := by
        rw [List.filter_eq_nil_iff]
        intro y hy heq
        refine hl.1 (List.mem_map.2 ⟨y, hy, ?_⟩)
        rw [hx]
        simpa using heq
      simp [values, hx, hnone]
    · simpa [values, hx] using ih hl.2

/-- the entries of a key are replaced by one at the end -/
theorem values_replace (k : κ) (v : ν) (k' : κ) :
    values (l.filter (fun x => x.1 ≠ k) ++ [(k, v)]) k' = if k' = k then [v] else values l k' := by
  simp only [values, List.filter_append, List.filter_filter]
  split_ifs with hk
  · subst hk
    simp
  · have hsame : ∀ x ∈ l, (decide (x.1 = k') && decide (x.1 ≠ k)) = decide (x.1 = k') := by
      intro x _
      by_cases hx : x.1 = k'
      · simp [hx, hk]
      · simp [hx]
    rw [List.filter_congr hsame, List.filter_cons_of_neg (by simpa using Ne.symm hk)]
    simp

end LuluExt.Assoc
