import Mathlib.Algebra.BigOperators.Ring.List
import Mathlib.Algebra.Order.BigOperators.Group.List
import Mathlib.Tactic.Ring

/-!
# Rounded shares

Two ways in which a whole is handed out in integers.  Shares of `b` parts are rounded down, so that
together they are at most `b`.  Amounts are the nearest integers to `y / b`, so that each of them gains
less than one half, and `n` of them together less than `n / 2`.
-/

namespace Rounding

variable {ι : Type} {b : ℕ}

/-- `m` is less than one half above `y / b`. -/
def Nearest (b y m : ℕ) : Prop := 2 * b * m < 2 * y + b

/-- Amounts gain less than one half each. -/
lemma sum_lt {m y : ι → ℕ} :
    ∀ {l : List ι}, l ≠ [] → (∀ i ∈ l, Nearest b (y i) (m i)) →
      2 * b * (l.map m).sum < 2 * (l.map y).sum + b * l.length := by
  intro l
  induction l with
  | nil => exact fun hne _ => absurd rfl hne
  | cons i l ih =>
      intro _ h
      have hi : 2 * b * m i < 2 * y i + b := h i (List.mem_cons_self ..)
      simp only [List.map_cons, List.sum_cons, List.length_cons, Nat.mul_add, Nat.mul_one]
      cases l with
      | nil => simpa using hi
      | cons j l =>
          have hl := ih (List.cons_ne_nil j l) fun k hk => h k (List.mem_cons_of_mem i hk)
          omega

/-- **Amounts of a whole** `x`: all but one of them may gain one half. -/
lemma sum_le {m y : ι → ℕ} {l : List ι} {x : ℕ} (hne : l ≠ [])
    (hm : ∀ i ∈ l, Nearest b (y i) (m i)) (hy : (l.map y).sum ≤ b * x) :
    2 * (l.map m).sum ≤ 2 * x + (l.length - 1) := by
  have hlt := sum_lt hne hm
  have hscaled : b * (2 * (l.map m).sum) < b * (2 * x + l.length) := by
    calc b * (2 * (l.map m).sum) = 2 * b * (l.map m).sum := by ring
      _ < 2 * (l.map y).sum + b * l.length := hlt
      _ ≤ 2 * (b * x) + b * l.length := by omega
      _ = b * (2 * x + l.length) := by ring
  have hsum : 2 * (l.map m).sum < 2 * x + l.length := Nat.lt_of_mul_lt_mul_left hscaled
  omega

/-- **Shares that are rounded down** are together at most the whole. -/
lemma sum_floor_le {a p : ι → ℕ} {t : ℕ} {l : List ι} (ht : 0 < t)
    (hp : ∀ i ∈ l, p i * t ≤ a i * b) (ha : (l.map a).sum ≤ t) : (l.map p).sum ≤ b := by
  have hscaled : (l.map p).sum * t ≤ (l.map a).sum * b := by
    rw [← List.sum_map_mul_right, ← List.sum_map_mul_right]
    exact List.sum_le_sum hp
  have hle : (l.map p).sum * t ≤ b * t := by
    calc (l.map p).sum * t ≤ (l.map a).sum * b := hscaled
      _ ≤ t * b := Nat.mul_le_mul_right b ha
      _ = b * t := Nat.mul_comm t b
  exact Nat.le_of_mul_le_mul_right hle ht

end Rounding
