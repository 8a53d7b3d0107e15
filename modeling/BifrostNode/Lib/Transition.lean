import BifrostNode.Lib.StorageMap

/-!
# Fallible calls and the states they reach

**Calls.**  A fallible call is an `Except ε`.  `ensure` and `okOr` are the two ways a call fails;
`bind_eq_ok`, `ensure_eq_ok` and `okOr_eq_ok` take a successful call apart into the checks it
passed, so that no proof has to unfold the monad.  `Returns` is for calls whose checks do not
matter, and `Throws` for what a call can fail with.  A call that fails inside a transaction leaves
the state as it was (`commit`).

**Runs.**  A system is a partial step function: `none` stands for a step that cannot happen.
`Reachable init step cond` are the states of runs all of whose steps meet `cond`; with
`cond = fun _ _ => True` these are all runs.  `Reachable.invariant` is the one induction over
runs.
-/

/-- `ensure!`: fail with `e` unless the condition holds. -/
def ensure {ε : Type} (p : Prop) [Decidable p] (e : ε) : Except ε Unit :=
  if p then .ok () else .error e

/-- `Option::ok_or`. -/
def okOr {ε α : Type} (o : Option α) (e : ε) : Except ε α := o.elim (.error e) .ok

namespace Transition

variable {ε α β σ ι : Type}

@[simp] lemma ensure_eq_ok {p : Prop} [Decidable p] {e : ε} {u : Unit} :
    ensure p e = .ok u ↔ p := by
  simp only [ensure]
  split_ifs with h <;> simp [h]

@[simp] lemma okOr_eq_ok {o : Option α} {e : ε} {a : α} : okOr o e = .ok a ↔ o = some a := by
  cases o <;> simp [okOr]

/-- A sequence of calls succeeds when its parts do. -/
@[simp] lemma bind_eq_ok {x : Except ε α} {f : α → Except ε β} {b : β} :
    x >>= f = .ok b ↔ ∃ a, x = .ok a ∧ f a = .ok b := by
  cases x <;> simp [bind, Except.bind]

/-- A sequence of calls fails where the first of its parts does. -/
lemma bind_eq_error {x : Except ε α} {f : α → Except ε β} {e : ε} :
    x >>= f = .error e ↔ x = .error e ∨ ∃ a, x = .ok a ∧ f a = .error e := by
  cases x <;> simp [bind, Except.bind]

lemma ensure_eq_error {p : Prop} [Decidable p] {e e' : ε} : ensure p e = .error e' ↔ ¬ p ∧ e = e' := by
  simp only [ensure]
  split_ifs with h <;> simp [h]

lemma okOr_eq_error {o : Option α} {e e' : ε} : okOr o e = .error e' ↔ o = none ∧ e = e' := by
  cases o <;> simp [okOr]

@[simp] lemma pure_eq_ok {a b : α} : (pure a : Except ε α) = .ok b ↔ a = b := by
  simp [pure, Except.pure]

lemma toOption_eq_some {x : Except ε α} {a : α} : x.toOption = some a ↔ x = .ok a := by
  cases x <;> simp [Except.toOption]

/-- Whatever the call returns satisfies `P`. -/
def Returns (P : α → Prop) (x : Except ε α) : Prop := ∀ a, x = .ok a → P a

lemma Returns.pure {P : α → Prop} {a : α} (h : P a) : Returns P (Pure.pure a : Except ε α) := by
  intro b hb
  exact (pure_eq_ok.mp hb) ▸ h

lemma Returns.bind {P : β → Prop} {x : Except ε α} {f : α → Except ε β}
    (h : ∀ a, Returns P (f a)) : Returns P (x >>= f) := by
  intro b hb
  obtain ⟨a, -, ha⟩ := bind_eq_ok.mp hb
  exact h a b ha

/-- A call after one that is known to return something with `Q`. -/
lemma Returns.bind_of {Q : α → Prop} {P : β → Prop} {x : Except ε α} {f : α → Except ε β}
    (hx : Returns Q x) (h : ∀ a, Q a → Returns P (f a)) : Returns P (x >>= f) := by
  intro b hb
  obtain ⟨a, ha, hb⟩ := bind_eq_ok.mp hb
  exact h a (hx a ha) b hb

/-- The end of a branch, before what the branches have in common. -/
lemma Returns.jump {P : β → Prop} {a : α} {f : α → Except ε β} (h : Returns P (f a)) :
    Returns P ((Pure.pure a : Except ε α) >>= f) := h

lemma Returns.ite {P : α → Prop} {c : Prop} [Decidable c] {x y : Except ε α} (hx : Returns P x)
    (hy : Returns P y) : Returns P (if c then x else y) := by
  split_ifs
  · exact hx
  · exact hy

/-- **Induction over a loop of calls.**  What every call keeps, if it returns, the loop keeps. -/
lemma Returns.foldlM {P : σ → Prop} {f : σ → ι → Except ε σ}
    (hstep : ∀ s i, P s → Returns P (f s i)) :
    ∀ {is : List ι} {s : σ}, P s → Returns P (is.foldlM f s) := by
  intro is
  induction is with
  | nil => exact fun hs => .pure hs
  | cons i is ih =>
      intro s hs
      rw [List.foldlM_cons]
      exact .bind_of (hstep s i hs) fun t ht => ih ht

/-! A call on known values computes. -/

@[simp] lemma okOr_some (a : α) (e : ε) : okOr (some a) e = .ok a := rfl

@[simp] lemma okOr_none (e : ε) : okOr (none : Option α) e = .error e := rfl

lemma ensure_pos {p : Prop} [Decidable p] (h : p) (e : ε) : ensure p e = .ok () := if_pos h

lemma ensure_neg {p : Prop} [Decidable p] (h : ¬ p) (e : ε) : ensure p e = .error e := if_neg h

@[simp] lemma ok_bind (a : α) (f : α → Except ε β) : (Except.ok a >>= f) = f a := rfl

@[simp] lemma error_bind (e : ε) (f : α → Except ε β) : (Except.error e >>= f) = .error e := rfl

/-- Whatever the call fails with satisfies `P`. -/
def Throws (P : ε → Prop) (x : Except ε α) : Prop := ∀ e, x = .error e → P e

lemma Throws.pure {P : ε → Prop} {a : α} : Throws P (Pure.pure a : Except ε α) := by
  intro e he
  cases he

lemma Throws.of_ensure {P : ε → Prop} {p : Prop} [Decidable p] {e : ε} (h : P e) :
    Throws P (ensure p e) := by
  intro e' he
  by_cases hp : p
  · rw [ensure_pos hp] at he
    cases he
  · rw [ensure_neg hp] at he
    cases he
    exact h

lemma Throws.of_okOr {P : ε → Prop} {o : Option α} {e : ε} (h : P e) : Throws P (okOr o e) := by
  intro e' he
  cases o with
  | none =>
      cases he
      exact h
  | some a => cases he

lemma Throws.bind {P : ε → Prop} {x : Except ε α} {f : α → Except ε β} (hx : Throws P x)
    (hf : ∀ a, Throws P (f a)) : Throws P (x >>= f) := by
  intro e he
  cases x with
  | error e' =>
      cases he
      exact hx e rfl
  | ok a => exact hf a e he

/-- A loop of calls fails as one of its turns does. -/
lemma Throws.foldlM {P : ε → Prop} {f : σ → ι → Except ε σ} (hf : ∀ s i, Throws P (f s i)) :
    ∀ (is : List ι) (s : σ), Throws P (is.foldlM f s) := by
  intro is
  induction is with
  | nil => exact fun _ => .pure
  | cons i is ih =>
      intro s
      rw [List.foldlM_cons]
      exact .bind (hf s i) fun t => ih t

lemma Throws.mapM {P : ε → Prop} {f : ι → Except ε α} (hf : ∀ i, Throws P (f i)) :
    ∀ is : List ι, Throws P (is.mapM f) := by
  intro is
  induction is with
  | nil => exact .pure
  | cons i is ih =>
      rw [List.mapM_cons]
      exact .bind (hf i) fun _ => .bind ih fun _ => .pure

lemma Throws.forM {P : ε → Prop} {f : ι → Except ε PUnit} (hf : ∀ i, Throws P (f i)) :
    ∀ is : List ι, Throws P (is.forM f) := by
  intro is
  induction is with
  | nil => exact .pure
  | cons i is ih => exact .bind (hf i) fun _ => ih

lemma Throws.ite {P : ε → Prop} {c : Prop} [Decidable c] {x y : Except ε α} (hx : Throws P x)
    (hy : Throws P y) : Throws P (if c then x else y) := by
  split_ifs
  · exact hx
  · exact hy

/-- A loop of checks passes when each of them does. -/
lemma forM_eq_ok {f : ι → Except ε Unit} :
    ∀ {is : List ι}, is.forM f = .ok () ↔ ∀ i ∈ is, f i = .ok () := by
  intro is
  induction is with
  | nil => exact ⟨fun _ _ hi => (by cases hi), fun _ => rfl⟩
  | cons i is ih =>
      have hcons : (i :: is).forM f = (f i >>= fun _ => is.forM f) := rfl
      rw [hcons, bind_eq_ok, List.forall_mem_cons, ← ih]
      exact ⟨fun ⟨_, hi, his⟩ => ⟨hi, his⟩, fun ⟨hi, his⟩ => ⟨_, hi, his⟩⟩

/-- **Induction over a fallible loop.**  What every turn keeps, a loop that succeeds keeps. -/
lemma foldlM_invariant {P : σ → Prop} {f : σ → ι → Option σ}
    (hstep : ∀ s i s', P s → f s i = some s' → P s') :
    ∀ {is : List ι} {s s' : σ}, is.foldlM f s = some s' → P s → P s' := by
  intro is
  induction is with
  | nil =>
      intro s s' h hs
      obtain rfl : s = s' := by simpa using h
      exact hs
  | cons i is ih =>
      intro s s' h hs
      rw [List.foldlM_cons] at h
      obtain ⟨t, ht, h⟩ := Option.bind_eq_some_iff.mp h
      exact ih h (hstep s i t hs ht)

/-- **A fallible loop succeeds** when every turn of it does, and keeps what the next ones need. -/
lemma foldlM_isSome {P : σ → Prop} {f : σ → ι → Option σ} :
    ∀ {is : List ι} {s : σ}, (∀ i ∈ is, ∀ s, P s → ∃ s', f s i = some s' ∧ P s') → P s →
      (is.foldlM f s).isSome := by
  intro is
  induction is with
  | nil => exact fun _ _ => rfl
  | cons i is ih =>
      intro s hstep hs
      obtain ⟨t, ht, hP⟩ := hstep i List.mem_cons_self s hs
      rw [List.foldlM_cons, ht]
      exact ih (fun j hj => hstep j (List.mem_cons_of_mem _ hj)) hP

/-- A fallible map succeeds when it does on every entry. -/
lemma mapM_isSome_iff {f : ι → Option α} :
    ∀ {is : List ι}, (is.mapM f).isSome = true ↔ ∀ i ∈ is, (f i).isSome = true := by
  intro is
  induction is with
  | nil => simp
  | cons i is ih =>
      rw [List.mapM_cons, List.forall_mem_cons, ← ih]
      cases f i with
      | none => simp
      | some a => cases is.mapM f <;> simp

/-- A fallible map that does not fail is a map. -/
lemma mapM_eq_some_map {f : ι → Option α} {g : ι → α} :
    ∀ {is : List ι}, (∀ i ∈ is, f i = some (g i)) → is.mapM f = some (is.map g) := by
  intro is
  induction is with
  | nil => exact fun _ => rfl
  | cons i is ih =>
      intro h
      rw [List.mapM_cons, h i List.mem_cons_self, ih fun j hj => h j (List.mem_cons_of_mem _ hj)]
      rfl

/-- A fallible loop none of whose turns fails is a loop. -/
lemma foldlM_eq_some_foldl {P : σ → Prop} {f : σ → ι → Option σ} {g : σ → ι → σ} :
    ∀ {is : List ι} {s : σ}, (∀ i ∈ is, ∀ s, P s → f s i = some (g s i) ∧ P (g s i)) → P s →
      is.foldlM f s = some (is.foldl g s) ∧ P (is.foldl g s) := by
  intro is
  induction is with
  | nil => exact fun _ hs => ⟨rfl, hs⟩
  | cons i is ih =>
      intro s hstep hs
      obtain ⟨hi, hP⟩ := hstep i List.mem_cons_self s hs
      rw [List.foldlM_cons, List.foldl_cons, hi]
      exact ih (fun j hj => hstep j (List.mem_cons_of_mem _ hj)) hP

/-- Every turn of a fallible loop meets `cond`, in the state in which it is taken. -/
def LoopIf (cond : σ → ι → Prop) (f : σ → ι → Option σ) : σ → List ι → Prop
  | _, [] => True
  | s, i :: is => cond s i ∧ ∀ s', f s i = some s' → LoopIf cond f s' is

instance LoopIf.decidable {cond : σ → ι → Prop} {f : σ → ι → Option σ}
    [∀ s i, Decidable (cond s i)] : ∀ (is : List ι) (s : σ), Decidable (LoopIf cond f s is)
  | [], _ => .isTrue trivial
  | i :: is, s =>
      haveI : ∀ s', Decidable (LoopIf cond f s' is) := LoopIf.decidable is
      inferInstanceAs (Decidable (cond s i ∧ ∀ s' ∈ f s i, LoopIf cond f s' is))

lemma LoopIf.of_forall {cond : σ → ι → Prop} {f : σ → ι → Option σ} (h : ∀ s i, cond s i) :
    ∀ (is : List ι) (s : σ), LoopIf cond f s is := by
  intro is
  induction is with
  | nil => exact fun _ => trivial
  | cons i is ih => exact fun s => ⟨h s i, fun s' _ => ih s'⟩

/-- **Induction over a fallible loop** all of whose turns meet a condition. -/
lemma LoopIf.invariant {P : σ → Prop} {cond : σ → ι → Prop} {f : σ → ι → Option σ}
    (hstep : ∀ s i s', P s → cond s i → f s i = some s' → P s') :
    ∀ {is : List ι} {s s' : σ}, LoopIf cond f s is → is.foldlM f s = some s' → P s → P s' := by
  intro is
  induction is with
  | nil =>
      intro s s' _ h hs
      obtain rfl : s = s' := by simpa using h
      exact hs
  | cons i is ih =>
      intro s s' hif h hs
      rw [List.foldlM_cons] at h
      obtain ⟨t, ht, h⟩ := Option.bind_eq_some_iff.mp h
      exact ih (hif.2 t ht) h (hstep s i t hs hif.1 ht)

/-- A transactional call: the new state if it succeeds, the old one if it fails. -/
def commit (s : σ) : Except ε σ → σ
  | .ok s' => s'
  | .error _ => s

/-- What holds before the call and after its success holds after the transaction. -/
lemma commit_induction {P : σ → Prop} {s : σ} {r : Except ε σ} (hs : P s)
    (hr : ∀ s', r = .ok s' → P s') : P (commit s r) := by
  cases r with
  | ok s' => exact hr s' rfl
  | error e => exact hs

/-- What is asked of a call that succeeds. -/
def IfOk (r : Except ε α) (p : Prop) : Prop := r.toOption.isSome = true → p

instance {r : Except ε α} {p : Prop} [Decidable p] : Decidable (IfOk r p) :=
  inferInstanceAs (Decidable (_ → p))

lemma IfOk.of_ok {r : Except ε α} {p : Prop} {a : α} (h : IfOk r p) (hr : r = .ok a) : p :=
  h (by rw [hr]; rfl)

/-- A transaction of which something is asked fails, or does as asked. -/
lemma IfOk.same_or {s : σ} {r : Except ε σ} {p : Prop} (h : IfOk r p) : commit s r = s ∨ p := by
  cases r with
  | ok s' => exact .inr (h rfl)
  | error e => exact .inl rfl

/-- The states of runs from `init` all of whose steps meet `cond`. -/
inductive Reachable (init : σ → Prop) (step : σ → ι → Option σ) (cond : σ → ι → Prop) : σ → Prop
  | init {s : σ} : init s → Reachable init step cond s
  | step {s s' : σ} {i : ι} : Reachable init step cond s → cond s i → step s i = some s' →
      Reachable init step cond s'

/-- The steps of a run are not restricted. -/
def anyStep : σ → ι → Prop := fun _ _ => True

instance (s : σ) (i : ι) : Decidable (anyStep s i) := .isTrue trivial

/-- **Induction over runs.**  A property that holds initially and is kept by every admissible
step holds of every reachable state. -/
lemma Reachable.invariant {init : σ → Prop} {step : σ → ι → Option σ} {cond : σ → ι → Prop}
    {P : σ → Prop} (hinit : ∀ s, init s → P s)
    (hstep : ∀ s i s', P s → cond s i → step s i = some s' → P s') {s : σ}
    (h : Reachable init step cond s) : P s := by
  induction h with
  | init h0 => exact hinit _ h0
  | step _ hc hs ih => exact hstep _ _ _ ih hc hs

/-- Fewer restrictions reach more states. -/
lemma Reachable.mono {init : σ → Prop} {step : σ → ι → Option σ} {cond cond' : σ → ι → Prop}
    (hcond : ∀ s i, cond s i → cond' s i) {s : σ} (h : Reachable init step cond s) :
    Reachable init step cond' s := by
  induction h with
  | init h0 => exact .init h0
  | step _ hc hs ih => exact .step ih (hcond _ _ hc) hs

/-- Run a list of steps; `none` as soon as one of them cannot happen. -/
def runSteps (step : σ → ι → Option σ) : σ → List ι → Option σ
  | s, [] => some s
  | s, i :: is => (step s i).bind fun s' => runSteps step s' is

/-- The end of a list of steps that meet the condition is reachable. -/
lemma Reachable.runSteps_of {init : σ → Prop} {step : σ → ι → Option σ} {cond : σ → ι → Prop} :
    ∀ {is : List ι} {s s' : σ}, Reachable init step cond s → (∀ i ∈ is, ∀ s, cond s i) →
      Transition.runSteps step s is = some s' → Reachable init step cond s'
  | [], s, s', h, _, hr => by
      obtain rfl : s = s' := by simpa [Transition.runSteps] using hr
      exact h
  | i :: is, s, s', h, hc, hr => by
      obtain ⟨t, ht, hr⟩ := Option.bind_eq_some_iff.mp hr
      exact Reachable.runSteps_of (.step h (hc i List.mem_cons_self s) ht)
        (fun j hj => hc j (List.mem_cons_of_mem _ hj)) hr

/-- The end of a list of steps from a reachable state is reachable. -/
lemma Reachable.runSteps {init : σ → Prop} {step : σ → ι → Option σ} {is : List ι} {s s' : σ}
    (h : Reachable init step anyStep s) (hr : Transition.runSteps step s is = some s') :
    Reachable init step anyStep s' := h.runSteps_of (fun _ _ _ => trivial) hr

/-- One state is reached from another by some run. -/
def Leads (step : σ → ι → Option σ) : σ → σ → Prop :=
  Relation.ReflTransGen fun s s' => ∃ i, step s i = some s'

/-- **Induction over the run between two states.**  What every step keeps is still true at its end. -/
lemma Leads.invariant {step : σ → ι → Option σ} {P : σ → Prop}
    (hstep : ∀ s i s', P s → step s i = some s' → P s') {s s' : σ} (h : Leads step s s') (hs : P s) :
    P s' := by
  induction h with
  | refl => exact hs
  | tail _ hi ih =>
      obtain ⟨i, hi⟩ := hi
      exact hstep _ i _ ih hi

lemma Leads.runSteps {step : σ → ι → Option σ} :
    ∀ {is : List ι} {s s' : σ}, Transition.runSteps step s is = some s' → Leads step s s'
  | [], s, s', hr => by
      obtain rfl : s = s' := by simpa [Transition.runSteps] using hr
      exact .refl
  | i :: is, s, s', hr => by
      obtain ⟨t, ht, hr⟩ := Option.bind_eq_some_iff.mp hr
      exact .head ⟨i, ht⟩ (Leads.runSteps hr)

/-- The steps that meet a decidable condition. -/
def checked (step : σ → ι → Option σ) (cond : σ → ι → Prop) [∀ s i, Decidable (cond s i)]
    (s : σ) (i : ι) : Option σ := if cond s i then step s i else none

/-- A run whose condition is checked on the way. -/
lemma Reachable.runChecked {init : σ → Prop} {step : σ → ι → Option σ} {cond : σ → ι → Prop}
    [∀ s i, Decidable (cond s i)] :
    ∀ {is : List ι} {s s' : σ}, Reachable init step cond s →
      Transition.runSteps (checked step cond) s is = some s' → Reachable init step cond s'
  | [], s, s', h, hr => by
      obtain rfl : s = s' := by simpa [Transition.runSteps] using hr
      exact h
  | i :: is, s, s', h, hr => by
      obtain ⟨t, ht, hr⟩ := Option.bind_eq_some_iff.mp hr
      rw [checked] at ht
      split_ifs at ht with hc
      exact Reachable.runChecked (.step h hc ht) hr

/-- A machine that keeps a record of its run. -/
def watched {γ : Type} (step : σ → ι → Option σ) (note : σ → ι → σ → γ → γ) (x : σ × γ) (i : ι) :
    Option (σ × γ) := (step x.1 i).map fun s => (s, note x.1 i s x.2)

lemma watched_eq_some {γ : Type} {step : σ → ι → Option σ} {note : σ → ι → σ → γ → γ} {x x' : σ × γ}
    {i : ι} (h : watched step note x i = some x') :
    step x.1 i = some x'.1 ∧ x'.2 = note x.1 i x'.1 x.2 := by
  obtain ⟨s, hs, rfl⟩ := Option.map_eq_some_iff.mp h
  exact ⟨hs, rfl⟩

/-- A watched loop goes as the loop does. -/
lemma foldlM_watched {γ : Type} {step : σ → ι → Option σ} (note : σ → ι → σ → γ → γ) :
    ∀ {is : List ι} {s s' : σ} (g : γ), is.foldlM step s = some s' →
      ∃ g', is.foldlM (watched step note) (s, g) = some (s', g') := by
  intro is
  induction is with
  | nil =>
      intro s s' g h
      obtain rfl : s = s' := by simpa using h
      exact ⟨g, rfl⟩
  | cons i is ih =>
      intro s s' g h
      rw [List.foldlM_cons] at h
      obtain ⟨t, ht, h⟩ := Option.bind_eq_some_iff.mp h
      obtain ⟨g', hg⟩ := ih (note s i t g) h
      refine ⟨g', ?_⟩
      rw [List.foldlM_cons, watched, ht]
      exact hg

end Transition
