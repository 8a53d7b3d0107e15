import Mathlib.Data.List.Nodup
import Mathlib.Logic.Function.Basic

/-!
# One relation, stored twice or three times

A partial bijection between `A` and `B` is often kept as a map in each direction: a table and the index
by which its entries are found.  `Inverse` says that the two agree.  `Pairing` is for stores that also
have a list of the pairs.  Every change of such a store is a pair added to it, a pair removed from it,
or one after the other, and removing a pair by its first component is removing it by its second.
-/

variable {A B : Type} [DecidableEq A] [DecidableEq B]

/-- **The two directions agree**: each is the inverse of the other where it is defined. -/
def Inverse (left : A → Option B) (right : B → Option A) : Prop :=
  ∀ a b, left a = some b ↔ right b = some a

namespace Inverse

variable {left : A → Option B} {right : B → Option A} {a : A} {b : B}

/-- Two items without partners become a pair. -/
lemma add (h : Inverse left right) (ha : left a = none) (hb : right b = none) :
    Inverse (Function.update left a (some b)) (Function.update right b (some a)) := by
  have hleft : ∀ {y}, left a ≠ some y := by
    intro y
    rw [ha]
    simp
  have hright : ∀ {x}, left x ≠ some b := by
    intro x
    rw [Ne, h, hb]
    simp
  intro x y
  simp only [Function.update_apply]
  by_cases hx : x = a
  · by_cases hy : y = b
    · simp [hx, hy]
    · simp only [hx, hy, if_true, if_false, ← h a y, hleft, iff_false]
      simpa using Ne.symm hy
  · by_cases hy : y = b
    · simp only [hx, hy, if_true, if_false, hright, false_iff]
      simpa using Ne.symm hx
    · simp only [hx, hy, if_false, h x y]

/-- A pair is taken out of both directions. -/
lemma remove (h : Inverse left right) (hab : left a = some b) :
    Inverse (Function.update left a none) (Function.update right b none) := by
  intro x y
  simp only [Function.update_apply]
  by_cases hx : x = a
  · by_cases hy : y = b
    · simp [hx, hy]
    · have hne : right y ≠ some a := by
        rw [Ne, ← h, hab]
        simpa using Ne.symm hy
      simp [hx, hy, hne]
  · by_cases hy : y = b
    · have hne : left x ≠ some b := by
        rw [Ne, h, (h a b).mp hab]
        simpa using Ne.symm hx
      simp [hx, hy, hne]
    · simp only [hx, hy, if_false, h x y]

omit [DecidableEq A] [DecidableEq B] in
/-- All pairs that meet a condition are removed. -/
lemma filter (h : Inverse left right) {p : A → Prop} {q : B → Prop} [DecidablePred p]
    [DecidablePred q] (hpq : ∀ a b, left a = some b → (p a ↔ q b)) :
    Inverse (fun x => if p x then left x else none) (fun y => if q y then right y else none) := by
  intro x y
  dsimp only
  by_cases hxy : left x = some y
  · have hyx := (h x y).mp hxy
    simp [hxy, hyx, hpq x y hxy]
  · have hyx : right y ≠ some x := fun hr => hxy ((h x y).mpr hr)
    constructor
    · intro hl
      split_ifs at hl
      exact absurd hl hxy
    · intro hr
      split_ifs at hr
      exact absurd hr hyx

end Inverse

/-- **The three copies agree**, and the list has every pair once. -/
structure Pairing (left : A → Option B) (right : B → Option A) (pairs : List (A × B)) : Prop where
  symm : ∀ a b, left a = some b ↔ right b = some a
  mem : ∀ a b, (a, b) ∈ pairs ↔ left a = some b
  nodup : pairs.Nodup

namespace Pairing

variable {left : A → Option B} {right : B → Option A} {pairs : List (A × B)} {a : A} {b : B}

omit [DecidableEq A] [DecidableEq B] in
/-- No pair has the first component of another. -/
lemma right_unique (h : Pairing left right pairs) {b' : B} (hb : (a, b) ∈ pairs)
    (hb' : (a, b') ∈ pairs) : b = b' := by
  rw [h.mem] at hb hb'
  exact Option.some.inj (hb.symm.trans hb')

omit [DecidableEq A] [DecidableEq B] in
/-- No pair has the second component of another. -/
lemma left_unique (h : Pairing left right pairs) {a' : A} (ha : (a, b) ∈ pairs)
    (ha' : (a', b) ∈ pairs) : a = a' := by
  rw [h.mem, h.symm] at ha ha'
  exact Option.some.inj (ha.symm.trans ha')

/-- A new pair stands at the end of the list. -/
lemma add (h : Pairing left right pairs) (ha : left a = none) (hb : right b = none) :
    Pairing (Function.update left a (some b)) (Function.update right b (some a))
      (pairs ++ [(a, b)]) := by
  have hleft : ∀ {y}, left a ≠ some y := by
    intro y
    rw [ha]
    simp
  refine ⟨Inverse.add h.symm ha hb, fun x y => ?_, ?_⟩
  · simp only [List.mem_append, h.mem, List.mem_singleton, Prod.mk.injEq, Function.update_apply]
    by_cases hx : x = a
    · simp [hx, hleft, eq_comm]
    · simp [hx]
  · refine List.nodup_append.mpr ⟨h.nodup, List.nodup_singleton _, ?_⟩
    rintro p hp q hq rfl
    rw [List.mem_singleton] at hq
    subst hq
    exact hleft ((h.mem a b).mp hp)

/-- A pair is taken out of the list and of both directions. -/
lemma remove (h : Pairing left right pairs) (hab : left a = some b) :
    Pairing (Function.update left a none) (Function.update right b none)
      (pairs.filter fun p => p.1 ≠ a) := by
  refine ⟨Inverse.remove h.symm hab, fun x y => ?_, h.nodup.filter _⟩
  simp only [List.mem_filter, h.mem, decide_eq_true_eq, Function.update_apply]
  by_cases hx : x = a
  · simp [hx]
  · simp [hx]

/-- A pair is found by either of its components. -/
lemma filter_fst_eq (h : Pairing left right pairs) (hab : left a = some b) :
    pairs.filter (fun p => p.1 ≠ a) = pairs.filter fun p => p.2 ≠ b := by
  refine List.filter_congr fun p hp => ?_
  have hboth : p.1 = a ↔ p.2 = b := by
    constructor
    · rintro rfl
      exact h.right_unique hp ((h.mem _ _).mpr hab)
    · rintro rfl
      exact h.left_unique hp ((h.mem _ _).mpr hab)
  simp only [ne_eq, hboth]

omit [DecidableEq B] in
/-- Removing a pair makes room for one. -/
lemma length_filter_lt (h : Pairing left right pairs) (hab : left a = some b) :
    (pairs.filter fun p => p.1 ≠ a).length < pairs.length := by
  refine List.length_filter_lt_length_iff_exists.mpr ⟨(a, b), (h.mem a b).mpr hab, ?_⟩
  simp

end Pairing
