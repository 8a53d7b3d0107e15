import Mathlib.Data.List.Nodup
import Mathlib.Logic.Relation
import Mathlib.Logic.Function.Basic

/-!
# Locks

Resources are free, locked or used up, and a holder holds a list of them.  What a resource is and who
holds it are kept in two tables, which may disagree.

**Discipline** is that they agree: a resource is locked just if somebody holds it, and nobody else does.
Taking resources keeps it if none of them is locked; giving them back or using them up always does.
-/

/-- What a resource is. -/
inductive LockTable.Phase
  | free
  | locked
  | used
  deriving DecidableEq

/-- Resources and what they are, and holders and what they hold. -/
@[ext] structure LockTable (R T : Type) where
  phase : R → Option LockTable.Phase
  held : T → Option (List R)

namespace LockTable

variable {R T : Type}

def Holds (t : LockTable R T) (x : T) (r : R) : Prop := ∃ rs, t.held x = some rs ∧ r ∈ rs

/-- **The two tables agree**: what is locked is what some holder holds, and no two holders hold the same. -/
structure Disciplined (t : LockTable R T) : Prop where
  locked : ∀ r, t.phase r = some .locked → ∃ x, t.Holds x r
  held : ∀ x r, t.Holds x r → t.phase r = some .locked
  once : ∀ x y r, t.Holds x r → t.Holds y r → x = y

section Discipline

variable {t t' : LockTable R T} {x y : T} {r : R}

/-- **What discipline is about**: locked resources are those that exactly one holder holds. -/
lemma Disciplined.locked_iff (h : t.Disciplined) :
    t.phase r = some .locked ↔ ∃! x, t.Holds x r := by
  constructor
  · intro hr
    obtain ⟨x, hx⟩ := h.locked r hr
    exact ⟨x, hx, fun y hy => h.once y x r hy hx⟩
  · rintro ⟨x, hx, -⟩
    exact h.held x r hx

/-- Nothing is held while nothing is locked. -/
lemma Disciplined.not_holds (h : t.Disciplined) (hr : t.phase r ≠ some .locked) : ¬ t.Holds x r :=
  fun hx => hr (h.held x r hx)

lemma holds_congr (hheld : t'.held = t.held) : t'.Holds x r ↔ t.Holds x r := by
  rw [Holds, Holds, hheld]

/-- Changes among resources that are not locked do not matter. -/
lemma Disciplined.congr (h : t.Disciplined) (hheld : t'.held = t.held)
    (hphase : ∀ r, t'.phase r = some .locked ↔ t.phase r = some .locked) : t'.Disciplined := by
  refine ⟨fun r hr => ?_, fun x r hx => ?_, fun x y r hx hy => ?_⟩
  · obtain ⟨x, hx⟩ := h.locked r ((hphase r).mp hr)
    exact ⟨x, (holds_congr hheld).mpr hx⟩
  · exact (hphase r).mpr (h.held x r ((holds_congr hheld).mp hx))
  · exact h.once x y r ((holds_congr hheld).mp hx) ((holds_congr hheld).mp hy)

end Discipline

/-! ## What happens to resources -/

section Changes

variable [DecidableEq R]

/-- Resources get a phase. -/
def mark (t : LockTable R T) (p : Phase) (rs : List R) : LockTable R T :=
  { t with phase := fun r => if r ∈ rs then some p else t.phase r }

variable [DecidableEq T]

/-- A holder takes resources. -/
def take (t : LockTable R T) (x : T) (rs : List R) : LockTable R T :=
  { t.mark .locked rs with held := Function.update t.held x (some rs) }

/-- A holder no longer holds anything, and what it held gets a phase. -/
def drop (t : LockTable R T) (p : Phase) (x : T) : LockTable R T :=
  { t.mark p ((t.held x).getD []) with held := Function.update t.held x none }

/-- Nobody holds anything any more. -/
def forget (t : LockTable R T) : LockTable R T := { t with held := fun _ => none }

variable {t : LockTable R T} {x y : T} {r : R} {rs : List R} {p : Phase}

lemma holds_take : (t.take x rs).Holds y r ↔ if y = x then r ∈ rs else t.Holds y r := by
  by_cases hy : y = x
  · simp [Holds, take, hy]
  · simp [Holds, take, hy]

lemma holds_drop : (t.drop p x).Holds y r ↔ y ≠ x ∧ t.Holds y r := by
  by_cases hy : y = x
  · simp [Holds, drop, hy]
  · simp [Holds, drop, hy]

/-- What the holder held gets the phase, and everything else stays as it was. -/
lemma phase_drop : (t.drop p x).phase r = some .locked ↔
    (t.Holds x r ∧ p = .locked) ∨ (¬ t.Holds x r ∧ t.phase r = some .locked) := by
  have hmem : r ∈ (t.held x).getD [] ↔ t.Holds x r := by
    cases hx : t.held x with
    | none => simp [Holds, hx]
    | some rs => simp [Holds, hx]
  simp only [drop, mark]
  by_cases hr : t.Holds x r
  · simp [if_pos (hmem.mpr hr), hr]
  · simp [if_neg (hr ∘ hmem.mp), hr]

/-- **A holder takes resources** that are not locked. -/
lemma Disciplined.take (h : t.Disciplined) (hx : t.held x = none)
    (hfree : ∀ r ∈ rs, t.phase r ≠ some .locked) : (t.take x rs).Disciplined := by
  have hnone : ∀ r, ¬ t.Holds x r := by
    rintro r ⟨held, hheld, -⟩
    rw [hx] at hheld
    cases hheld
  refine ⟨fun r hr => ?_, fun y r hy => ?_, fun y z r hy hz => ?_⟩
  · by_cases hmem : r ∈ rs
    · exact ⟨x, holds_take.mpr (by rwa [if_pos rfl])⟩
    · simp only [LockTable.take, mark, if_neg hmem] at hr
      obtain ⟨y, hy⟩ := h.locked r hr
      have hne : y ≠ x := by
        rintro rfl
        exact hnone r hy
      exact ⟨y, holds_take.mpr (by rwa [if_neg hne])⟩
  · rw [holds_take] at hy
    simp only [LockTable.take, mark]
    by_cases hmem : r ∈ rs
    · rw [if_pos hmem]
    · rw [if_neg hmem]
      split_ifs at hy with hyx
      · exact absurd hy hmem
      · exact h.held y r hy
  · rw [holds_take] at hy hz
    split_ifs at hy hz with hyx hzx hzx
    · exact hyx.trans hzx.symm
    · exact absurd hz (h.not_holds (hfree r hy))
    · exact absurd hy (h.not_holds (hfree r hz))
    · exact h.once y z r hy hz

/-- **A holder gives up what it held**, and the tables agree again. -/
lemma Disciplined.drop (h : t.Disciplined) (hp : p ≠ .locked) : (t.drop p x).Disciplined := by
  refine ⟨fun r hr => ?_, fun y r hy => ?_, fun y z r hy hz => ?_⟩
  · rcases phase_drop.mp hr with ⟨-, hlocked⟩ | ⟨hnot, hlocked⟩
    · exact absurd hlocked hp
    · obtain ⟨y, hy⟩ := h.locked r hlocked
      refine ⟨y, holds_drop.mpr ⟨?_, hy⟩⟩
      rintro rfl
      exact hnot hy
  · obtain ⟨hne, hy⟩ := holds_drop.mp hy
    refine phase_drop.mpr (.inr ⟨fun hx => hne (h.once y x r hy hx), h.held y r hy⟩)
  · exact h.once y z r (holds_drop.mp hy).2 (holds_drop.mp hz).2

omit [DecidableEq R] [DecidableEq T] in
/-- **Everything is forgotten** while nothing is locked. -/
lemma Disciplined.forget (hfree : ∀ r, t.phase r ≠ some .locked) : t.forget.Disciplined := by
  refine ⟨fun r hr => absurd hr (hfree r), ?_, ?_⟩
  · rintro x r ⟨rs, hrs, -⟩
    cases hrs
  · rintro x y r ⟨rs, hrs, -⟩
    cases hrs

/-- **What may happen** to a table: what is free comes and goes, a holder takes what is free or gives up
what it held, and everything is forgotten while nothing is locked. -/
inductive Move (t : LockTable R T) : LockTable R T → Prop
  | kept {t' : LockTable R T} (hheld : t'.held = t.held)
      (hphase : ∀ r p, p ≠ .free → (t'.phase r = some p ↔ t.phase r = some p)) : Move t t'
  | taken (x : T) (rs : List R) (hx : t.held x = none)
      (hfree : ∀ r ∈ rs, t.phase r ≠ some .locked ∧ t.phase r ≠ some .used) : Move t (t.take x rs)
  | dropped (x : T) (p : Phase) (hp : p ≠ .locked) : Move t (t.drop p x)
  | forgotten (hfree : ∀ r, t.phase r ≠ some .locked) : Move t t.forget

/-- Every move keeps the tables in agreement. -/
lemma Move.disciplined {t' : LockTable R T} (h : t.Disciplined) (hm : t.Move t') : t'.Disciplined := by
  cases hm with
  | kept hheld hphase => exact h.congr hheld fun r => hphase r .locked (by simp)
  | taken x rs hx hfree => exact h.take hx fun r hr => (hfree r hr).1
  | dropped x p hp => exact h.drop hp
  | forgotten hfree => exact .forget hfree

/-- What is used up stays so, whichever move is made. -/
lemma Move.used {t' : LockTable R T} (h : t.Disciplined) (hm : t.Move t')
    (hr : t.phase r = some .used) : t'.phase r = some .used := by
  cases hm with
  | kept hheld hphase => exact (hphase r .used (by simp)).mpr hr
  | taken x rs hx hfree =>
      have hnot : r ∉ rs := fun hmem => (hfree r hmem).2 hr
      simp only [LockTable.take, mark, if_neg hnot]
      exact hr
  | dropped x p hp =>
      have hnot : r ∉ (t.held x).getD [] := by
        intro hmem
        cases hx : t.held x with
        | none => simp [hx] at hmem
        | some rs =>
            rw [hx] at hmem
            exact h.not_holds (by simp [hr]) ⟨rs, hx, hmem⟩
      simp only [LockTable.drop, mark, if_neg hnot]
      exact hr
  | forgotten hfree => exact hr

/-- Several moves. -/
def Moves : LockTable R T → LockTable R T → Prop := Relation.ReflTransGen Move

lemma Moves.disciplined {t' : LockTable R T} (hm : t.Moves t') (h : t.Disciplined) : t'.Disciplined := by
  induction hm with
  | refl => exact h
  | tail _ hlast ih => exact hlast.disciplined ih

lemma Moves.used {t' : LockTable R T} (hm : t.Moves t') (h : t.Disciplined)
    (hr : t.phase r = some .used) : t'.phase r = some .used := by
  induction hm with
  | refl => exact hr
  | tail hfirst hlast ih => exact hlast.used (Moves.disciplined hfirst h) ih

end Changes

end LockTable
