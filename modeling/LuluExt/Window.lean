/-
The sliding window of the hystrix and sres breakers and of the bbr limiter: `rotateLocked` and the bucket index, as the
three packages have them, on an arbitrary bucket type. The packages differ in the index expression of the clearing
loop only, which is a parameter. Instants are nanoseconds since the epoch, the readings of one clock;
`none` is a panic (a bucket duration of zero divides by zero).

- `rotateWith_eq`: with buckets of positive duration the loop is the library's `BucketRing.rotate`.
-/
import LuluExt.Lib.Go
import LuluExt.Lib.BucketRing

namespace LuluExt.Window

variable {β : Type}

/-- the default of the three packages, ten seconds -/
theorem default_pos : 0 < 10000000000 := Nat.succ_pos _

/-- `int(now.UnixNano()/int64(bucketDuration)) % len(buckets)` -/
def bucketIndexLocked (w : BucketRing β) (now : ℕ) : Option ℤ := do
  let q ← Go.quo now w.bucketDuration
  Go.rem q w.buckets.length

/-- round `i` of the clearing loop; `clearIndex cur steps i n` is the index it writes -/
def clearBucket (clearIndex : ℤ → ℤ → ℤ → ℤ → Option ℤ) (zero : β) (w : BucketRing β) (now : ℕ) (steps : ℤ)
    (bs : List β) (i : ℕ) : Option (List β) := do
  let cur ← bucketIndexLocked w now
  let idx ← clearIndex cur steps i bs.length
  Go.store bs idx fun _ => zero

def rotateWith (clearIndex : ℤ → ℤ → ℤ → ℤ → Option ℤ) (zero : β) (w : BucketRing β) (now : ℕ) :
    Option (BucketRing β) := do
  let elapsed : ℤ := now - w.lastRotate
  let steps ← Go.quo elapsed w.bucketDuration
  if steps ≤ 0 then
    return w
  else if steps ≥ w.buckets.length then
    return { w with buckets := w.buckets.map fun _ => zero, lastRotate := now }
  else
    let buckets ← (List.range steps.toNat).foldlM (clearBucket clearIndex zero w now steps) w.buckets
    return { w with buckets := buckets, lastRotate := now }

/-- rotate, then update the bucket of `now`: how every outcome is recorded -/
def recordWith (clearIndex : ℤ → ℤ → ℤ → ℤ → Option ℤ) (zero : β) (f : β → β) (w : BucketRing β) (now : ℕ) :
    Option (BucketRing β) := do
  let w ← rotateWith clearIndex zero w now
  let idx ← bucketIndexLocked w now
  let buckets ← Go.store w.buckets idx f
  return { w with buckets := buckets }

/-- the index expression of the two breakers; the limiter has its own -/
def clearIndex (cur steps i n : ℤ) : Option ℤ := Go.rem (cur - steps + i + 1 + n) n

/-- round `i` of `steps` writes the bucket `steps - 1 - i` behind the current one -/
def ClearsBack (clearIndex : ℤ → ℤ → ℤ → ℤ → Option ℤ) : Prop :=
  ∀ n cur steps i : ℕ, cur < n → steps < n → i < steps →
    clearIndex cur steps i n = some (behind n cur (steps - 1 - i) : ℕ)

theorem clearsBack_clearIndex : ClearsBack clearIndex := by
  intro n cur steps i hc hs hi
  have hcast : (cur : ℤ) - steps + i + 1 + n = ((cur + (n - (steps - 1 - i)) : ℕ) : ℤ) := by omega
  rw [clearIndex, hcast, Go.rem_natCast _ (by omega)]
  rfl

variable {w : BucketRing β}

theorem bucketIndexLocked_eq (hw : w.Wf) (now : ℕ) : bucketIndexLocked w now = some (w.index now : ℤ) := by
  simp only [bucketIndexLocked, Go.quo_natCast now hw.duration_pos, Option.bind_eq_bind, Option.bind_some]
  rw [Go.rem_natCast _ hw.buckets_pos]
  rfl

/-! ## The clearing loop -/

theorem behind_eq {n cur j : ℕ} (hc : cur < n) (hj : j < n) :
    behind n cur j = if j ≤ cur then cur - j else cur + n - j := by
  unfold behind
  split_ifs with h
  · rw [Nat.mod_eq_sub_mod (by omega), Nat.mod_eq_of_lt (by omega)]; omega
  · rw [Nat.mod_eq_of_lt (by omega)]; omega

theorem exists_behind_iff {n cur steps j : ℕ} (hc : cur < n) (hs : steps < n) (hj : j < n) :
    (∃ i ∈ List.range steps, behind n cur (steps - 1 - i) = j) ↔ behind n cur j < steps := by
  constructor
  · intro h
    obtain ⟨i, hi, rfl⟩ := h
    rw [List.mem_range] at hi
    rw [behind_eq hc (behind_lt (by omega) _ _), behind_eq hc (by omega)]
    split_ifs <;> omega
  · intro h
    refine ⟨steps - 1 - behind n cur j, List.mem_range.2 (by omega), ?_⟩
    have hb : steps - 1 - (steps - 1 - behind n cur j) = behind n cur j := by omega
    rw [hb, behind_eq hc (behind_lt (by omega) _ _), behind_eq hc hj]
    split_ifs <;> omega

theorem getElem?_foldl_set (g : ℕ → ℕ) (z : β) (l : List ℕ) (bs : List β) (j : ℕ) :
    (l.foldl (fun bs i => bs.set (g i) z) bs)[j]? = bs[j]?.map fun b => if ∃ i ∈ l, g i = j then z else b := by
  induction l generalizing bs with
  | nil => simp
  | cons a l ih =>
    rw [List.foldl_cons, ih]
    by_cases ha : g a = j
    · subst ha
      by_cases hlen : g a < bs.length
      · simp [hlen]
      · simp [hlen]
    · simp [ha]

theorem foldlM_eq_foldl {f : List β → ℕ → Option (List β)} {g : ℕ → ℕ} {z : β} {n : ℕ} {l : List ℕ} {bs : List β}
    (hn : bs.length = n) (hf : ∀ bs' : List β, bs'.length = n → ∀ i ∈ l, f bs' i = some (bs'.set (g i) z)) :
    l.foldlM f bs = some (l.foldl (fun bs i => bs.set (g i) z) bs) := by
  induction l generalizing bs with
  | nil => rfl
  | cons a l ih =>
    rw [List.foldlM_cons, hf bs hn a List.mem_cons_self]
    exact ih (by simpa using hn) fun bs' hb i hi => hf bs' hb i (List.mem_cons_of_mem a hi)

variable {clearIndex : ℤ → ℤ → ℤ → ℤ → Option ℤ}

theorem clear_loop (hci : ClearsBack clearIndex)
    (hw : w.Wf) (zero : β) (now : ℕ) {steps : ℕ} (hs : steps < w.buckets.length) :
    (List.range steps).foldlM (clearBucket clearIndex zero w now steps) w.buckets =
      some (clearLast zero w.buckets (w.index now) steps) := by
  have hcur := BucketRing.index_lt hw now
  rw [foldlM_eq_foldl (g := fun i => behind w.buckets.length (w.index now) (steps - 1 - i)) (z := zero) rfl]
  · congr 1
    apply List.ext_getElem?
    intro j
    rw [getElem?_foldl_set, clearLast, List.getElem?_mapIdx]
    by_cases hj : j < w.buckets.length
    · simp only [exists_behind_iff hcur hs hj]
    · simp [List.getElem?_eq_none (Nat.le_of_not_lt hj)]
  · intro bs hb i hi
    have hidx : clearIndex (w.index now) steps i bs.length =
        some ((behind w.buckets.length (w.index now) (steps - 1 - i) : ℕ) : ℤ) := by
      rw [hb]; exact hci _ _ _ _ hcur hs (List.mem_range.1 hi)
    have hlt : behind w.buckets.length (w.index now) (steps - 1 - i) < bs.length := by
      rw [hb]; exact behind_lt hw.buckets_pos _ _
    simp only [clearBucket, bucketIndexLocked_eq hw, hidx, Option.bind_eq_bind, Option.bind_some,
      Go.store_natCast _ hlt]
    rw [List.set_eq_modify]

/-! ## The code rotates as the library's ring does -/

theorem clearLast_all (zero : β) {bs : List β} {cur steps : ℕ} (hb : 0 < bs.length) (h : bs.length ≤ steps) :
    clearLast zero bs cur steps = bs.map fun _ => zero := by
  apply List.ext_getElem?
  intro i
  have hi : behind bs.length cur i < steps := (behind_lt hb cur i).trans_le h
  simp only [clearLast, List.getElem?_mapIdx, List.getElem?_map, hi, if_true]

theorem rotateWith_eq (hci : ClearsBack clearIndex)
    (hw : w.Wf) (zero : β) (now : ℕ) : rotateWith clearIndex zero w now = some (w.rotate zero now) := by
  have hd := hw.duration_pos
  unfold rotateWith
  dsimp only
  by_cases hle : w.lastRotate ≤ now
  · have helapsed : (now : ℤ) - w.lastRotate = ((now - w.lastRotate : ℕ) : ℤ) := by omega
    rw [helapsed, Go.quo_natCast _ hd]
    change (if ((w.steps now : ℕ) : ℤ) ≤ 0 then _ else if ((w.steps now : ℕ) : ℤ) ≥ w.buckets.length then _ else
      ((List.range (w.steps now)).foldlM (clearBucket clearIndex zero w now (w.steps now)) w.buckets).bind _) = _
    by_cases h0 : w.steps now = 0
    · simp [h0, BucketRing.rotate_of_steps_eq_zero]
    · rw [if_neg (by omega), BucketRing.rotate, if_neg h0]
      by_cases hall : w.buckets.length ≤ w.steps now
      · rw [if_pos (by omega), clearLast_all zero hw.buckets_pos hall]
        rfl
      · rw [if_neg (by omega), clear_loop hci hw zero now (by omega)]
        rfl
  · -- a clock behind the last rotation counts no step
    have hsteps : w.steps now = 0 := by
      simp [BucketRing.steps, Nat.sub_eq_zero_of_le (Nat.le_of_not_le hle)]
    have hneg : ((now : ℤ) - w.lastRotate).tdiv w.bucketDuration ≤ 0 := by
      rw [show (now : ℤ) - w.lastRotate = -((w.lastRotate : ℤ) - now) by ring, Int.neg_tdiv]
      have := Int.tdiv_nonneg (a := (w.lastRotate : ℤ) - now) (b := w.bucketDuration) (by omega) (by omega)
      omega
    simp [Go.quo, hd.ne', hneg, BucketRing.rotate_of_steps_eq_zero zero hsteps]

/-- with buckets of no duration every rotation panics -/
theorem rotateWith_zero (clearIndex : ℤ → ℤ → ℤ → ℤ → Option ℤ) (zero : β)
    (hd : w.bucketDuration = 0) (now : ℕ) : rotateWith clearIndex zero w now = none := by
  simp [rotateWith, hd, Go.quo]

theorem recordWith_eq (hci : ClearsBack clearIndex) (hw : w.Wf) (zero : β) (f : β → β) (now : ℕ) :
    recordWith clearIndex zero f w now = some (w.record zero f now) := by
  have hr := hw.rotate zero now
  simp only [recordWith, rotateWith_eq hci hw, bucketIndexLocked_eq hr, Option.bind_eq_bind, Option.bind_some,
    Go.store_natCast _ (BucketRing.index_lt hr now)]
  rfl

theorem recordWith_zero (clearIndex : ℤ → ℤ → ℤ → ℤ → Option ℤ) (zero : β) (f : β → β)
    (hd : w.bucketDuration = 0) (now : ℕ) : recordWith clearIndex zero f w now = none := by
  rw [recordWith, rotateWith_zero _ _ hd]
  rfl

end LuluExt.Window
