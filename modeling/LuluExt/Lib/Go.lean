/-
Built-in operations of Go: integer division and slice stores that can panic (`none` is the panic: nothing after it
runs), results with an error, deletion from a slice that is walked (`deleteFrom_eq`), and conversions, of a string to
its bytes and of a floating-point number to a 64-bit integer. Floats are rationals here; a conversion whose value does
not fit is left to the platform by the language, and is a parameter. Where it matters that a float is rounded, the
rounding is a parameter with what the standard guarantees (`Float64`).
-/
import Mathlib.Tactic

/-- an error value, by its text -/
structure LuluExt.GoError where
  text : String
deriving DecidableEq, Repr

namespace LuluExt.Go

variable {β : Type*}

/-- `a / b` truncates towards zero and panics on a zero divisor -/
def quo (a b : ℤ) : Option ℤ := if b = 0 then none else some (a.tdiv b)

/-- `a % b` has the sign of `a` and panics on a zero divisor -/
def rem (a b : ℤ) : Option ℤ := if b = 0 then none else some (a.tmod b)

/-- `s[i] = f(s[i])` panics when `i` is out of range -/
def store (s : List β) (i : ℤ) (f : β → β) : Option (List β) :=
  if 0 ≤ i ∧ i < s.length then some (s.modify i.toNat f) else none

theorem toNat_pos {n : ℤ} (h : n > 0) : 0 < n.toNat := by omega

theorem quo_natCast (a : ℕ) {b : ℕ} (hb : 0 < b) : quo a b = some ((a / b : ℕ) : ℤ) := by
  have : (b : ℤ) ≠ 0 := by omega
  simp only [quo, this]
  rfl

theorem rem_natCast (a : ℕ) {b : ℕ} (hb : 0 < b) : rem a b = some ((a % b : ℕ) : ℤ) := by
  have : (b : ℤ) ≠ 0 := by omega
  simp only [rem, this]
  rfl

theorem store_natCast (s : List β) {i : ℕ} (hi : i < s.length) (f : β → β) : store s i f = some (s.modify i f) := by
  have : (i : ℤ) < s.length := by omega
  simp [store, this]

theorem map_eq_ok {ε α β : Type} {f : α → β} {x : Except ε α} {b : β} :
    x.map f = .ok b ↔ ∃ a, x = .ok a ∧ f a = b := by
  cases x with
  | error e | ok a => simp [Except.map]

/-! ## Slices -/

/-- `for ; i < len(s); i++ { if p(s[i]) { s = append(s[:i], s[i+1:]...); i-- } }` -/
def deleteFrom (p : β → Bool) (s : List β) (i : ℕ) : List β :=
  if h : i < s.length then
    -- `i--` and the `i++` after it leave the index where it is
    if p s[i] then deleteFrom p (s.take i ++ s.drop (i + 1)) i else deleteFrom p s (i + 1)
  else s
termination_by s.length - i
decreasing_by
  · rw [List.length_append, List.length_take, List.length_drop]
    omega
  · omega

/-- what is before the index stays, and of the rest what does not meet `p` -/
theorem deleteFrom_eq (p : β → Bool) (s : List β) (i : ℕ) :
    deleteFrom p s i = s.take i ++ (s.drop i).filter fun x => !p x := by
  fun_induction deleteFrom p s i with
  | case1 s i h hp ih =>
    have hlen : (s.take i).length = i := List.length_take_of_le h.le
    rw [ih, List.drop_eq_getElem_cons h, List.filter_cons_of_neg (by simp [hp]), List.take_left' hlen,
      List.drop_left' hlen]
  | case2 s i h hp ih =>
    rw [ih, List.drop_eq_getElem_cons h, List.filter_cons_of_pos (by simp [hp]), ← List.take_concat_get' s i h,
      List.append_assoc]
    rfl
  | case3 s i h =>
    rw [List.take_of_length_le (not_lt.1 h), List.drop_eq_nil_of_le (not_lt.1 h), List.filter_nil, List.append_nil]

/-! ## Conversions -/

/-- `[]byte(s)` -/
def utf8 (s : String) : List UInt8 := s.toUTF8.data.toList

/-- what is left of an integer in 64 bits, two's complement -/
def wrap64 (x : ℤ) : ℤ := x.bmod (2 ^ 64)

theorem wrap64_of_lt {x : ℤ} (h0 : -2 ^ 63 ≤ x) (h : x < 2 ^ 63) : wrap64 x = x := by
  unfold wrap64
  rw [Int.bmod_def]
  omega

theorem wrap64_of_le {x : ℤ} (h : 2 ^ 63 ≤ x) (h' : x < 2 ^ 64) : wrap64 x = x - 2 ^ 64 := by
  unfold wrap64
  rw [Int.bmod_def]
  omega

theorem wrap64_add_wrap64 (x y : ℤ) : wrap64 (x + wrap64 y) = wrap64 (x + y) := by
  simp only [wrap64, Int.add_bmod_bmod]

/-- the integer part, towards zero -/
def trunc (x : ℚ) : ℤ := if 0 ≤ x then ⌊x⌋ else ⌈x⌉

/-- what the platform makes of a float that does not fit into 64 bits -/
structure Platform where
  outOfRange : ℚ → ℤ

/-- `int64(x)` -/
def Platform.int64 (plat : Platform) (x : ℚ) : ℤ :=
  if -2 ^ 63 ≤ trunc x ∧ trunc x < 2 ^ 63 then trunc x else plat.outOfRange x

/-- the smallest integer for every value that does not fit -/
def amd64 : Platform := ⟨fun _ => -2 ^ 63⟩

theorem Platform.int64_pos_iff (plat : Platform) {x : ℚ} (hx : 0 ≤ x) :
    0 < plat.int64 x ↔ 1 ≤ x ∧ (2 ^ 63 ≤ x → 0 < plat.outOfRange x) := by
  have htrunc : trunc x = ⌊x⌋ := if_pos hx
  have hfloor : 0 ≤ ⌊x⌋ := Int.floor_nonneg.2 hx
  unfold int64
  by_cases hfit : x < 2 ^ 63
  · have hlt : ⌊x⌋ < 2 ^ 63 := Int.floor_lt.2 (by exact_mod_cast hfit)
    rw [htrunc, if_pos ⟨by omega, hlt⟩, Int.floor_pos]
    exact ⟨fun h => ⟨h, fun hbig => absurd hfit (not_lt.2 hbig)⟩, fun h => h.1⟩
  · have hge : (2 : ℤ) ^ 63 ≤ ⌊x⌋ := Int.le_floor.2 (by exact_mod_cast not_lt.1 hfit)
    have hone : (1 : ℚ) ≤ x := le_trans (by norm_num) (not_lt.1 hfit)
    rw [htrunc, if_neg (fun h => absurd h.2 (not_lt.2 hge))]
    exact ⟨fun h => ⟨hone, fun _ => h⟩, fun h => h.2 (not_lt.1 hfit)⟩

/-! ## Rounding -/

/-- the rounding of a result to a float64: to the nearest one, which keeps the order and the integers up to 2^53 -/
structure Float64 where
  round : ℚ → ℚ
  round_mono : ∀ {x y : ℚ}, x ≤ y → round x ≤ round y
  round_int : ∀ n : ℤ, -2 ^ 53 ≤ n → n ≤ 2 ^ 53 → round n = n
  /-- half a unit in the last place, in the range of normal numbers -/
  round_close : ∀ x : ℚ, 1 / 2 ^ 1022 ≤ x → x < 2 ^ 1023 → |round x - x| ≤ x / 2 ^ 53

/-- nanoseconds -/
def second : ℤ := 1000000000

namespace Float64

variable (fl : Float64)

/-- `d.Seconds()` of a duration -/
def seconds (d : ℤ) : ℚ := fl.round (fl.round (d.tdiv second) + fl.round (fl.round (d.tmod second) / second))

theorem round_mem {x : ℚ} {a b : ℤ} (ha : -2 ^ 53 ≤ a) (hb : b ≤ 2 ^ 53) (hax : a ≤ x) (hxb : x ≤ b) :
    a ≤ fl.round x ∧ fl.round x ≤ b := by
  have hab : a ≤ b := by exact_mod_cast hax.trans hxb
  have hlow := fl.round_mono hax
  have hhigh := fl.round_mono hxb
  rw [fl.round_int a ha (hab.trans hb)] at hlow
  rw [fl.round_int b (ha.trans hab) hb] at hhigh
  exact ⟨hlow, hhigh⟩

theorem round_le {x y : ℚ} (hxy : x ≤ y) (hmin : 1 / 2 ^ 1 ≤ y) (hmax : y ≤ 2 ^ 64) : fl.round x ≤ y + y / 2 ^ 53 := by
  have hsmall : (1 : ℚ) / 2 ^ 1022 ≤ 1 / 2 ^ 1 := one_div_pow_le_one_div_pow_of_le one_le_two (by decide)
  have hlarge : (2 : ℚ) ^ 64 < 2 ^ 1023 := pow_lt_pow_right₀ one_lt_two (by decide)
  have hclose := abs_le.1 (fl.round_close y (hsmall.trans hmin) (hmax.trans_lt hlarge))
  have hmono := fl.round_mono hxy
  linarith only [hclose.2, hmono]

end Float64

/-- no rounding at all is within what is guaranteed -/
def unrounded : Float64 where
  round x := x
  round_mono h := h
  round_int _ _ _ := rfl
  round_close x hmin _ := by
    have hpos : (0 : ℚ) < 1 / 2 ^ 1022 := by positivity
    simp only [sub_self, abs_zero]
    exact div_nonneg (hpos.le.trans hmin) (by positivity)

end LuluExt.Go
