/-
Decimal numbers as Go's strconv reads and writes them, and strings.Split.

A text is a list of characters. The functions return a value beside the error, as theirs do: a caller that ignores the
error goes on with zero, or with the bound that was passed. The digits are read one by one, so that a number that is too
large is an error of range even if what follows are no digits.

- `Denotes`: the number of a decimal notation, apart from how it is read;
- `parseUint_eq_iff`, `parseInt_eq_iff`: no error exactly for the notation of a number that 64 bits hold;
- `parseInt_itoa`: what is written is read back; `parseInt_bounds`: whatever is read fits;
- `split_first`, `split_self`: a text with a first separator, and one without any.
-/
import Mathlib.Tactic

namespace LuluExt.Strconv

inductive NumError where
  | errSyntax
  | errRange
deriving DecidableEq, Repr

/-! ## Reading -/

def parseUintFrom (n : ℕ) : List Char → ℕ × Option NumError
  | [] => (n, none)
  | c :: s =>
    if c.isDigit = false then (0, some .errSyntax)
    else if 2 ^ 64 ≤ 10 * n + (c.toNat - '0'.toNat) then (2 ^ 64 - 1, some .errRange)
    else parseUintFrom (10 * n + (c.toNat - '0'.toNat)) s

/-- `strconv.ParseUint(s, 10, 64)` -/
def parseUint (s : List Char) : ℕ × Option NumError := if s = [] then (0, some .errSyntax) else parseUintFrom 0 s

/-- a sign and what follows it -/
def sign : List Char → Bool × List Char
  | '+' :: s => (false, s)
  | '-' :: s => (true, s)
  | s => (false, s)

/-- the integer of a sign and of what the digits gave -/
def signed (neg : Bool) (un : ℕ) (err : Option NumError) : ℤ × Option NumError :=
  if err = some .errSyntax then (0, err)
  else if neg = false ∧ 2 ^ 63 ≤ un then (2 ^ 63 - 1, some .errRange)
  else if neg = true ∧ 2 ^ 63 < un then (-2 ^ 63, some .errRange)
  else (if neg then -un else un, none)

/-- `strconv.ParseInt(s, 10, 64)`, and `strconv.Atoi(s)` -/
def parseInt (s : List Char) : ℤ × Option NumError :=
  signed (sign s).1 (parseUint (sign s).2).1 (parseUint (sign s).2).2

/-- `%d`, and `strconv.Itoa` -/
def itoa (z : ℤ) : List Char := if z < 0 then '-' :: Nat.toDigits 10 z.natAbs else Nat.toDigits 10 z.natAbs

/-- digits and their number -/
structure Numeral (s : List Char) (n : ℕ) : Prop where
  nonempty : s ≠ []
  digits : ∀ c ∈ s, c.isDigit = true
  value : Nat.ofDigitChars 10 s 0 = n

/-- the integer of a decimal notation, with a sign or without -/
inductive Denotes : List Char → ℤ → Prop
  | plain {s : List Char} {n : ℕ} (h : Numeral s n) : Denotes s n
  | plus {s : List Char} {n : ℕ} (h : Numeral s n) : Denotes ('+' :: s) n
  | minus {s : List Char} {n : ℕ} (h : Numeral s n) : Denotes ('-' :: s) (-n)

theorem Numeral.head {c : Char} {s : List Char} {n : ℕ} (h : Numeral (c :: s) n) : c.isDigit :=
  h.digits c List.mem_cons_self

theorem Numeral.sign_eq {s : List Char} {n : ℕ} (h : Numeral s n) : sign s = (false, s) := by
  unfold sign
  split
  · exact absurd h.head (by decide)
  · exact absurd h.head (by decide)
  · rfl

variable (s : List Char)

theorem denotes_iff (z : ℤ) : Denotes s z ↔ ∃ n : ℕ, Numeral (sign s).2 n ∧ z = if (sign s).1 then -(n : ℤ) else n := by
  constructor
  · intro h
    cases h with
    | plain h => exact ⟨_, by rwa [h.sign_eq], by rw [h.sign_eq]; rfl⟩
    | plus h | minus h => exact ⟨_, h, rfl⟩
  · rintro ⟨n, hn, rfl⟩
    revert hn
    unfold sign
    split
    · exact Denotes.plus
    · exact Denotes.minus
    · exact Denotes.plain

theorem Denotes.unique {s : List Char} {z z' : ℤ} (h : Denotes s z) (h' : Denotes s z') : z = z' := by
  obtain ⟨n, hn, rfl⟩ := (denotes_iff s z).1 h
  obtain ⟨n', hn', rfl⟩ := (denotes_iff s z').1 h'
  rw [← hn.value, ← hn'.value]

theorem le_ofDigitChars (n : ℕ) : n ≤ Nat.ofDigitChars 10 s n := by
  induction s generalizing n with
  | nil => exact le_rfl
  | cons c s ih =>
    calc n ≤ 10 * n + (c.toNat - '0'.toNat) := by omega
      _ ≤ Nat.ofDigitChars 10 s (10 * n + (c.toNat - '0'.toNat)) := ih _
      _ = Nat.ofDigitChars 10 (c :: s) n := Nat.ofDigitChars_cons.symm

theorem parseUintFrom_eq_iff {m : ℕ} (hm : m < 2 ^ 64) (n : ℕ) : parseUintFrom m s = (n, none) ↔
    (∀ c ∈ s, c.isDigit) ∧ Nat.ofDigitChars 10 s m = n ∧ n < 2 ^ 64 := by
  induction s generalizing m with
  | nil =>
    constructor
    · intro h
      cases h
      exact ⟨by simp, rfl, hm⟩
    · rintro ⟨-, rfl, -⟩
      rfl
  | cons c s ih =>
    rw [parseUintFrom, Nat.ofDigitChars_cons]
    split_ifs with hdigit hrange
    · simp [hdigit]
    · -- the digits that follow only make it larger
      have hle := le_ofDigitChars s (10 * m + (c.toNat - '0'.toNat))
      constructor
      · intro h
        cases h
      · rintro ⟨-, hvalue, hn⟩
        omega
    · rw [ih (by omega)]
      simp [hdigit]

/-- **An unsigned number is read** exactly if the text is digits and 64 bits hold it. -/
theorem parseUint_eq_iff (n : ℕ) : parseUint s = (n, none) ↔ Numeral s n ∧ n < 2 ^ 64 := by
  unfold parseUint
  split_ifs with hs
  · constructor
    · intro h
      cases h
    · rintro ⟨h, -⟩
      exact absurd hs h.nonempty
  · rw [parseUintFrom_eq_iff s (by decide)]
    constructor
    · rintro ⟨hdigits, hvalue, hn⟩
      exact ⟨⟨hs, hdigits, hvalue⟩, hn⟩
    · rintro ⟨h, hn⟩
      exact ⟨h.digits, h.value, hn⟩

theorem parseUintFrom_errRange {s : List Char} {m n : ℕ} (h : parseUintFrom m s = (n, some .errRange)) :
    n = 2 ^ 64 - 1 := by
  induction s generalizing m with
  | nil => cases h
  | cons c s ih =>
    rw [parseUintFrom] at h
    split_ifs at h with hdigit hrange
    · cases h
    · cases h
      rfl
    · exact ih h

/-- what the digits can give: an error of the notation, a bound that is too large, or a number -/
theorem parseUint_cases : (∃ n, parseUint s = (n, some .errSyntax)) ∨
    parseUint s = (2 ^ 64 - 1, some .errRange) ∨ ∃ n, parseUint s = (n, none) := by
  unfold parseUint
  split_ifs with hs
  · exact .inl ⟨0, rfl⟩
  · rcases hfrom : parseUintFrom 0 s with ⟨n, _ | _ | _⟩
    · exact .inr (.inr ⟨n, rfl⟩)
    · exact .inl ⟨n, rfl⟩
    · rw [parseUintFrom_errRange hfrom]
      exact .inr (.inl rfl)

theorem signed_eq_iff (neg : Bool) (n : ℕ) (z : ℤ) : signed neg n none = (z, none) ↔
    z = (if neg then -(n : ℤ) else n) ∧ -2 ^ 63 ≤ z ∧ z < 2 ^ 63 := by
  unfold signed
  cases neg with
  | false =>
    by_cases hn : 2 ^ 63 ≤ n
    · simp only [hn, and_self, if_true, Prod.mk.injEq, if_false, reduceCtorEq, and_false,
        false_iff]
      omega
    · simp only [hn, and_false, false_and, Prod.mk.injEq, if_false, reduceCtorEq, and_true]
      omega
  | true =>
    by_cases hn : 2 ^ 63 < n
    · simp only [hn, and_self, false_and, if_true, Prod.mk.injEq, if_false, reduceCtorEq, and_false,
        false_iff]
      omega
    · simp only [hn, and_false, false_and, Prod.mk.injEq, if_true, if_false, reduceCtorEq, and_true]
      omega

/-- **An integer is read** exactly if the text is its notation and 64 bits hold it. -/
theorem parseInt_eq_iff (z : ℤ) : parseInt s = (z, none) ↔ Denotes s z ∧ -2 ^ 63 ≤ z ∧ z < 2 ^ 63 := by
  rw [denotes_iff, parseInt]
  constructor
  · intro h
    obtain ⟨n, hn⟩ | hn | ⟨n, hn⟩ := parseUint_cases (sign s).2
    · rw [hn] at h
      cases h
    · rw [hn] at h
      cases hneg : (sign s).1 <;> simp [signed, hneg] at h
    · rw [hn, signed_eq_iff] at h
      exact ⟨⟨n, ((parseUint_eq_iff _ n).1 hn).1, h.1⟩, h.2⟩
  · rintro ⟨⟨n, hn, hz⟩, hbounds⟩
    have hlt : n < 2 ^ 64 := by
      split at hz <;> omega
    rw [(parseUint_eq_iff _ n).2 ⟨hn, hlt⟩, signed_eq_iff]
    exact ⟨hz, hbounds⟩

theorem parseInt_bounds : -2 ^ 63 ≤ (parseInt s).1 ∧ (parseInt s).1 < 2 ^ 63 := by
  unfold parseInt signed
  split_ifs with _ hpos hneg hsign
  · norm_num
  · norm_num
  · norm_num
  · simp only [hsign, true_and] at hneg
    omega
  · simp only [hsign, true_and] at hpos
    omega

/-! ## Writing -/

theorem numeral_toDigits (n : ℕ) : Numeral (Nat.toDigits 10 n) n where
  nonempty := Nat.toDigits_ne_nil
  digits _ hc := Nat.isDigit_of_mem_toDigits (by decide) (by decide) hc
  value := Nat.ofDigitChars_ten_toDigits

theorem denotes_itoa (z : ℤ) : Denotes (itoa z) z := by
  have hdigits := numeral_toDigits z.natAbs
  unfold itoa
  split_ifs with hz
  · have habs : z = -(z.natAbs : ℤ) := by omega
    nth_rewrite 2 [habs]
    exact .minus hdigits
  · have habs : z = z.natAbs := by omega
    nth_rewrite 2 [habs]
    exact .plain hdigits

/-- **What is written is read back.** -/
theorem parseInt_itoa {z : ℤ} (hlo : -2 ^ 63 ≤ z) (hhi : z < 2 ^ 63) : parseInt (itoa z) = (z, none) :=
  (parseInt_eq_iff _ z).2 ⟨denotes_itoa z, hlo, hhi⟩

theorem mem_itoa {z : ℤ} {c : Char} (hc : c ∈ itoa z) : c = '-' ∨ c.isDigit := by
  have hdigits := (numeral_toDigits z.natAbs).digits
  unfold itoa at hc
  split_ifs at hc with hz
  · obtain rfl | hc := List.mem_cons.1 hc
    · exact .inl rfl
    · exact .inr (hdigits c hc)
  · exact .inr (hdigits c hc)

/-! ## Splitting -/

/-- the piece so far, in reverse; the rest of a separator is skipped -/
def splitFrom (sep : List Char) : ℕ → List Char → List Char → List (List Char)
  | _, piece, [] => [piece.reverse]
  | skip + 1, piece, _ :: s => splitFrom sep skip piece s
  | 0, piece, c :: s =>
    if sep.isPrefixOf (c :: s) then piece.reverse :: splitFrom sep (sep.length - 1) [] s
    else splitFrom sep 0 (c :: piece) s

/-- `strings.Split(s, sep)` for a separator that is not empty -/
def split (sep s : List Char) : List (List Char) := splitFrom sep 0 [] s

variable {sep : List Char}

theorem splitFrom_self {s : List Char} (hs : ¬ sep <:+: s) (piece : List Char) :
    splitFrom sep 0 piece s = [piece.reverse ++ s] := by
  induction s generalizing piece with
  | nil => simp [splitFrom]
  | cons c s ih =>
    have hhead : sep.isPrefixOf (c :: s) = false := by
      rw [← Bool.not_eq_true, List.isPrefixOf_iff_prefix]
      exact fun h => hs h.isInfix
    have htail : ¬ sep <:+: s := fun h => hs (h.trans (List.suffix_cons c s).isInfix)
    rw [splitFrom, hhead, ih htail]
    simp

/-- **A text without a separator** is one piece. -/
theorem split_self {s : List Char} (hs : ¬ sep <:+: s) : split sep s = [s] := splitFrom_self hs []

/-- one character of a separator, where what follows is not the rest of it -/
theorem not_infix_append {c : Char} {a b : List Char} (ha : c ∉ a) (hb : c ∉ b) (hsep : ¬ sep <+: b) :
    ¬ (c :: sep) <:+: a ++ c :: b := by
  induction a with
  | nil =>
    rw [List.nil_append, List.infix_cons_iff, List.cons_prefix_cons]
    rintro (⟨-, h⟩ | h)
    · exact hsep h
    · exact hb (h.subset List.mem_cons_self)
  | cons d a ih =>
    rw [List.mem_cons, not_or] at ha
    rw [List.cons_append, List.infix_cons_iff, List.cons_prefix_cons]
    rintro (⟨h, -⟩ | h)
    · exact ha.1 h
    · exact ih ha.2 h

theorem splitFrom_skip (sep piece a b : List Char) :
    splitFrom sep a.length piece (a ++ b) = splitFrom sep 0 piece b := by
  induction a with
  | nil => rfl
  | cons c a ih => exact ih

theorem splitFrom_first {c : Char} {a : List Char} (ha : c ∉ a) (piece b : List Char) :
    splitFrom (c :: sep) 0 piece (a ++ (c :: sep) ++ b) = (piece.reverse ++ a) :: split (c :: sep) b := by
  induction a generalizing piece with
  | nil =>
    rw [List.nil_append, List.cons_append, splitFrom]
    simp [splitFrom_skip, split]
  | cons d a ih =>
    rw [List.mem_cons, not_or] at ha
    obtain ⟨hd, ha⟩ := ha
    have hhead : (c :: sep).isPrefixOf (d :: (a ++ (c :: sep) ++ b)) = false := by
      rw [List.isPrefixOf, beq_false_of_ne hd, Bool.false_and]
    rw [List.cons_append, List.cons_append, splitFrom, hhead, ih ha]
    simp

/-- **The first separator ends the first piece**: here if nothing before it starts as it does. -/
theorem split_first {c : Char} {a : List Char} (ha : c ∉ a) (b : List Char) :
    split (c :: sep) (a ++ (c :: sep) ++ b) = a :: split (c :: sep) b := splitFrom_first ha [] b

end LuluExt.Strconv
