/-
Base64 with the standard alphabet and padding. Encoding a text that is not empty makes it longer, so that encoding it
twice is never the same as encoding it once.
-/
import Mathlib.Tactic

namespace LuluExt.Base64

/-- the character of six bits -/
def digit (n : ℕ) : UInt8 :=
  if n < 26 then UInt8.ofNat (65 + n)
  else if n < 52 then UInt8.ofNat (71 + n)
  else if n < 62 then UInt8.ofNat (n - 4)
  else if n = 62 then 43
  else 47

def pad : UInt8 := 61

def encode : List UInt8 → List UInt8
  | [] => []
  | [a] => [digit (a.toNat / 4), digit (a.toNat % 4 * 16), pad, pad]
  | [a, b] =>
    [digit (a.toNat / 4), digit (a.toNat % 4 * 16 + b.toNat / 16), digit (b.toNat % 16 * 4), pad]
  | a :: b :: c :: rest =>
    digit (a.toNat / 4) :: digit (a.toNat % 4 * 16 + b.toNat / 16) :: digit (b.toNat % 16 * 4 + c.toNat / 64) ::
      digit (c.toNat % 64) :: encode rest

-- "Man", "Ma" and "M"
example : encode [77, 97, 110] = [84, 87, 70, 117] := by decide
example : encode [77, 97] = [84, 87, 69, 61] := by decide
example : encode [77] = [84, 81, 61, 61] := by decide

theorem length_encode (text : List UInt8) : (encode text).length = 4 * ((text.length + 2) / 3) := by
  induction text using encode.induct with
  | case1 => rfl
  | case2 a | case3 a b => simp [encode]
  | case4 a b c rest ih =>
    simp only [encode, List.length_cons]
    omega

theorem length_lt_encode {text : List UInt8} (h : text ≠ []) : text.length < (encode text).length := by
  have hpos := List.length_pos_iff.2 h
  rw [length_encode]
  omega

@[simp] theorem encode_eq_nil_iff {text : List UInt8} : encode text = [] ↔ text = [] := by
  rw [← List.length_eq_zero_iff, ← List.length_eq_zero_iff, length_encode]
  omega

end LuluExt.Base64
