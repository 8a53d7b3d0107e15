import Mathlib

/-!
# Searching the sublists of a list

A depth-first search goes through the sublists of a list.  At every node it has taken some of the
elements so far and decides what to do with the rest: `visit` updates the state of the search and says
whether it goes on below the node, first with the next element and then without it.

**Rules.**  What every visit keeps, the search keeps (`run_invariant`).  If the search only stops where
nothing better is below, it has covered every sublist in the end (`run_covers`).  What is found on the way
down the first branch stays found (`run_finds`).
-/

/-- A search: what is done at a node, and what taking an element does to it. -/
structure SublistSearch (C A S : Type) where
  visit : List C → A → S → S × Bool
  take : A → C → A

namespace SublistSearch

variable {C A S K : Type}

/-- The search below a node, from the elements that are left. -/
def run (p : SublistSearch C A S) : List C → A → S → S
  | [], a, s => (p.visit [] a s).1
  | x :: rest, a, s =>
      match p.visit (x :: rest) a s with
      | (s, false) => s
      | (s, true) => p.run rest a (p.run rest (p.take a x) s)

variable {p : SublistSearch C A S} {x : C} {rest : List C} {a : A} {s : S}

lemma run_stop (h : (p.visit (x :: rest) a s).2 = false) :
    p.run (x :: rest) a s = (p.visit (x :: rest) a s).1 := by
  rw [run]
  split
  case h_1 next heq => rw [heq]
  case h_2 next heq =>
    rw [heq] at h
    cases h

lemma run_go (h : (p.visit (x :: rest) a s).2 = true) :
    p.run (x :: rest) a s = p.run rest a (p.run rest (p.take a x) (p.visit (x :: rest) a s).1) := by
  rw [run]
  split
  case h_1 next heq =>
    rw [heq] at h
    cases h
  case h_2 next heq => rw [heq]

/-- `N` passes from a node where the search goes on to the two below it. -/
structure Descends (p : SublistSearch C A S) (N : List C → A → S → Prop) : Prop where
  take : ∀ x rest a s, N (x :: rest) a s → (p.visit (x :: rest) a s).2 = true →
    N rest (p.take a x) (p.visit (x :: rest) a s).1
  skip : ∀ x rest a s, N (x :: rest) a s → (p.visit (x :: rest) a s).2 = true →
    N rest a (p.run rest (p.take a x) (p.visit (x :: rest) a s).1)

variable {N : List C → A → S → Prop} {P : S → Prop}

/-- **The invariant of a search.**  What every visit keeps is true of the result. -/
lemma run_invariant (hN : p.Descends N)
    (hvisit : ∀ rest a s, N rest a s → P s → P (p.visit rest a s).1) :
    ∀ rest a s, N rest a s → P s → P (p.run rest a s) := by
  intro rest
  induction rest with
  | nil => exact hvisit []
  | cons x rest ih =>
      intro a s hn hs
      have hnext := hvisit (x :: rest) a s hn hs
      cases hgo : (p.visit (x :: rest) a s).2 with
      | false =>
          rw [run_stop hgo]
          exact hnext
      | true =>
          rw [run_go hgo]
          exact ih a _ (hN.skip x rest a s hn hgo) (ih _ _ (hN.take x rest a s hn hgo) hnext)

/-- What a visit does not undo, the search does not undo. -/
lemma run_keeps (hvisit : ∀ rest a s, P s → P (p.visit rest a s).1) (hs : P s) :
    P (p.run rest a s) := by
  have hN : p.Descends fun _ _ _ => True := ⟨fun _ _ _ _ _ _ => trivial, fun _ _ _ _ _ _ => trivial⟩
  exact run_invariant hN (fun rest a s _ => hvisit rest a s) rest a s trivial hs

/-- **A search that stops only with good reason covers everything.**  `complete a d` is what the node
comes to when it takes `d` from the rest.  The reason may rest on what is true of every state that leads
to the last one. -/
lemma run_covers (complete : A → List C → K) (Good : K → Prop) (Covered : S → K → Prop)
    (Alive : S → Prop) (hN : p.Descends N)
    (hcomplete : ∀ a x d, complete (p.take a x) d = complete a (x :: d))
    (hmono : ∀ rest a s c, Covered s c → Covered (p.visit rest a s).1 c)
    (halive : ∀ rest a s, Alive (p.visit rest a s).1 → Alive s)
    (hstop : ∀ rest a s, N rest a s → Alive s → (p.visit rest a s).2 = false ∨ rest = [] →
      ∀ d, d.Sublist rest → Good (complete a d) → Covered (p.visit rest a s).1 (complete a d)) :
    ∀ rest a s, N rest a s → Alive (p.run rest a s) → ∀ d, d.Sublist rest → Good (complete a d) →
      Covered (p.run rest a s) (complete a d) := by
  have hback : ∀ rest a s, Alive (p.run rest a s) → Alive s := by
    intro rest a s h
    by_contra hdead
    exact run_keeps (P := fun s => ¬ Alive s) (fun rest a s hs h => hs (halive rest a s h)) hdead h
  intro rest
  induction rest with
  | nil =>
      intro a s hn hlive d hd hgood
      exact hstop [] a s hn (halive _ _ _ hlive) (.inr rfl) d hd hgood
  | cons x rest ih =>
      intro a s hn hlive d hd hgood
      cases hgo : (p.visit (x :: rest) a s).2 with
      | false =>
          rw [run_stop hgo] at hlive ⊢
          exact hstop _ a s hn (halive _ _ _ hlive) (.inl hgo) d hd hgood
      | true =>
          rw [run_go hgo] at hlive ⊢
          cases hd with
          | cons _ hd => exact ih a _ (hN.skip x rest a s hn hgo) hlive d hd hgood
          | cons_cons _ hd =>
              -- covered with the element, and not undone without it
              rw [← hcomplete] at hgood ⊢
              exact run_keeps (fun rest a s => hmono rest a s _) (ih (p.take a x) _
                (hN.take x rest a s hn hgo) (hback rest a _ hlive) _ hd hgood)

/-- **What the first branch finds stays found**, if no later visit takes it back. -/
lemma run_finds (hkeep : ∀ rest a s, P s → P (p.visit rest a s).1)
    (hfirst : ∀ rest a s, N rest a s → P (p.visit rest a s).1 ∨
      ∃ x tail, rest = x :: tail ∧ (p.visit rest a s).2 = true ∧
        N tail (p.take a x) (p.visit rest a s).1) :
    ∀ rest a s, N rest a s → P (p.run rest a s) := by
  intro rest
  induction rest with
  | nil =>
      intro a s hn
      rcases hfirst [] a s hn with hfound | ⟨x, tail, hcons, -⟩
      · exact hfound
      · cases hcons
  | cons x rest ih =>
      intro a s hn
      rcases hfirst (x :: rest) a s hn with hfound | ⟨y, tail, hcons, hgo, hnext⟩
      · cases hgo : (p.visit (x :: rest) a s).2 with
        | false =>
            rw [run_stop hgo]
            exact hfound
        | true =>
            rw [run_go hgo]
            exact run_keeps hkeep (run_keeps hkeep hfound)
      · obtain ⟨rfl, rfl⟩ := List.cons.inj hcons
        rw [run_go hgo]
        exact run_keeps hkeep (ih (p.take a x) _ hnext)

/-- A search visits no more nodes than there are. -/
lemma run_count (count : S → ℕ) (hcount : ∀ rest a s, count (p.visit rest a s).1 ≤ count s + 1) :
    ∀ rest a s, count (p.run rest a s) + 1 ≤ count s + 2 ^ (rest.length + 1) := by
  intro rest
  induction rest with
  | nil =>
      intro a s
      have hvisit := hcount [] a s
      simp only [run, List.length_nil]
      omega
  | cons x rest ih =>
      intro a s
      have hvisit := hcount (x :: rest) a s
      have hpow : 2 ^ ((x :: rest).length + 1) = 2 ^ (rest.length + 1) + 2 ^ (rest.length + 1) := by
        rw [List.length_cons, Nat.pow_succ, Nat.mul_two]
      have hpos : 0 < 2 ^ (rest.length + 1) := Nat.two_pow_pos _
      cases hgo : (p.visit (x :: rest) a s).2 with
      | false =>
          rw [run_stop hgo, hpow]
          omega
      | true =>
          rw [run_go hgo, hpow]
          have hwith := ih (p.take a x) (p.visit (x :: rest) a s).1
          have hwithout := ih a (p.run rest (p.take a x) (p.visit (x :: rest) a s).1)
          omega

end SublistSearch
