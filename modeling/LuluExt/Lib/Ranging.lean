/-
Iteration over a map that others change meanwhile, with the guarantees of `Range` of Go's sync.Map: it is no snapshot; a
key is visited at most once; a key visited was in the map at some moment since the iteration began; a key that was in
the map all the time is visited.

The map is its set of keys. An iteration is told of each change of the map while it runs.
-/
import Mathlib.Tactic

namespace LuluExt

/-- an iteration in progress -/
structure Ranging (ι : Type*) where
  /-- in the map since the iteration began -/
  whole : Finset ι
  /-- in the map at some moment since -/
  present : Finset ι
  visited : List ι

namespace Ranging

variable {ι : Type*} [DecidableEq ι]

def start (keys : Finset ι) : Ranging ι := ⟨keys, keys, []⟩

def stored (r : Ranging ι) (i : ι) : Ranging ι := { r with present := insert i r.present }

def deleted (r : Ranging ι) (i : ι) : Ranging ι := { r with whole := r.whole.erase i }

/-- the key that comes next, if it may -/
def visit (r : Ranging ι) (i : ι) : Ranging ι :=
  if i ∈ r.present ∧ i ∉ r.visited then { r with visited := r.visited ++ [i] } else r

def CanEnd (r : Ranging ι) : Prop := ∀ i ∈ r.whole, i ∈ r.visited

instance (r : Ranging ι) : Decidable r.CanEnd := inferInstanceAs (Decidable (∀ i ∈ r.whole, i ∈ r.visited))

theorem visit_whole (r : Ranging ι) (i : ι) : (r.visit i).whole = r.whole := by
  unfold visit
  split_ifs
  · rfl
  · rfl

/-- an undisturbed iteration can go through the keys one by one -/
theorem foldl_visit {r : Ranging ι} {l : List ι} (hpresent : ∀ i ∈ l, i ∈ r.present) (hnodup : (r.visited ++ l).Nodup) :
    l.foldl visit r = { r with visited := r.visited ++ l } := by
  induction l generalizing r with
  | nil => simp
  | cons i l ih =>
    have hi : i ∉ r.visited := fun h => (List.nodup_append'.1 hnodup).2.2 h List.mem_cons_self
    have hvisit : r.visit i = { r with visited := r.visited ++ [i] } :=
      if_pos ⟨hpresent i List.mem_cons_self, hi⟩
    rw [List.foldl_cons, hvisit, ih]
    · simp
    · exact fun j hj => hpresent j (List.mem_cons_of_mem i hj)
    · simpa using hnodup

end Ranging

end LuluExt
