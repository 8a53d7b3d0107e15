import Mathlib.Tactic.Ring
import Mathlib.Tactic.Linarith

/-!
# Arithmetic on words

Natural numbers stand for unsigned words of a fixed width; an operation says what happens when the result
does not fit.

**Operations.**  `checkedMul`, `checkedDiv` and `checkedPow` fail, `saturatingMul` stays at the largest word.

**Portions.**  `portion` is the rounded part of a whole, or a value to fall back on when the product does
not fit.  With the whole to fall back on it never exceeds the whole (`portion_le`), and what is left over is
less than one unit above the exact rest (`rest_mul_lt`).
-/

namespace Words

variable {w a b c n : ℕ}

/-! ## Operations -/

def checkedMul (w a b : ℕ) : Option ℕ := if a * b < 2 ^ w then some (a * b) else none

def checkedDiv (a b : ℕ) : Option ℕ := if b = 0 then none else some (a / b)

def checkedPow (w a b : ℕ) : Option ℕ := if a ^ b < 2 ^ w then some (a ^ b) else none

def saturatingMul (w a b : ℕ) : ℕ := min (a * b) (2 ^ w - 1)

def saturatingAdd (w a b : ℕ) : ℕ := min (a + b) (2 ^ w - 1)

@[simp] lemma checkedMul_eq_some : checkedMul w a b = some n ↔ a * b < 2 ^ w ∧ a * b = n := by
  rw [checkedMul]
  split_ifs with h <;> simp [h]

@[simp] lemma checkedDiv_eq_some : checkedDiv a b = some n ↔ b ≠ 0 ∧ a / b = n := by
  rw [checkedDiv]
  split_ifs with h <;> simp [h]

@[simp] lemma checkedPow_eq_some : checkedPow w a b = some n ↔ a ^ b < 2 ^ w ∧ a ^ b = n := by
  rw [checkedPow]
  split_ifs with h <;> simp [h]

lemma saturatingMul_of_lt (h : a * b < 2 ^ w) : saturatingMul w a b = a * b := by
  rw [saturatingMul]
  omega

lemma saturatingMul_lt (w a b : ℕ) : saturatingMul w a b < 2 ^ w := by
  have hpos : 0 < 2 ^ w := Nat.two_pow_pos w
  rw [saturatingMul]
  omega

/-- A product that does not fit is larger than where it stops. -/
lemma saturatingMul_ne (h : 2 ^ w ≤ a * b) : saturatingMul w a b ≠ a * b := by
  have hlt := saturatingMul_lt w a b
  omega

lemma saturatingMul_pos (hw : 0 < w) (ha : 0 < a) (hb : 0 < b) : 0 < saturatingMul w a b := by
  have hpos : 0 < a * b := Nat.mul_pos ha hb
  have htwo : 2 ^ 1 ≤ 2 ^ w := Nat.pow_le_pow_right (by decide) hw
  rw [saturatingMul]
  omega

lemma saturatingAdd_of_lt (h : a + b < 2 ^ w) : saturatingAdd w a b = a + b := by
  rw [saturatingAdd]
  omega

/-! ## Portions -/

/-- The part `b / c` of `a`, rounded down. -/
def portion (w a b c fallback : ℕ) : ℕ :=
  ((checkedMul w a b).bind fun product => checkedDiv product c).getD fallback

lemma portion_of_lt (h : a * b < 2 ^ w) (hc : c ≠ 0) (d : ℕ) : portion w a b c d = a * b / c := by
  rw [portion, checkedMul, if_pos h, Option.bind_some, checkedDiv, if_neg hc, Option.getD_some]

lemma portion_of_le (h : 2 ^ w ≤ a * b) (c d : ℕ) : portion w a b c d = d := by
  rw [portion, checkedMul, if_neg (Nat.not_lt.mpr h), Option.bind_none, Option.getD_none]

/-- A part is not more than the whole. -/
lemma portion_le (hc : c ≠ 0) (hbc : b ≤ c) : portion w a b c a ≤ a := by
  rcases Nat.lt_or_ge (a * b) (2 ^ w) with h | h
  · rw [portion_of_lt h hc]
    exact Nat.div_le_of_le_mul (by rw [Nat.mul_comm c]; exact Nat.mul_le_mul_left a hbc)
  · rw [portion_of_le h]

/-- What a part leaves over is less than one unit above the exact rest. -/
lemma rest_mul_lt (hbc : b < c) : (a - portion w a b c a) * c < a * (c - b) + c := by
  rcases Nat.lt_or_ge (a * b) (2 ^ w) with h | h
  · rw [portion_of_lt h (by omega)]
    have hcpos : 0 < c := by omega
    have hfloor := Nat.lt_div_mul_add hcpos (a := a * b)
    have hle : a * b ≤ a * c := Nat.mul_le_mul_left a hbc.le
    rw [Nat.sub_mul, Nat.mul_sub]
    omega
  · rw [portion_of_le h, Nat.sub_self, Nat.zero_mul]
    omega

end Words
