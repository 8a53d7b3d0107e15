import BifrostNode.Lib.StorageMap

/-!
# Windows of a history

A ledger keeps the last values of something that it has once for each of the numbers `0, 1, 2, ..`, and
forgets the older ones.  `Window log first stop m` says that `m` has the entries of the history `log`
from `first` up to, but not including, `stop`.  Its keys are an interval, so that its size and its
oldest key are known: `keys`, `card` and `head`.

The history is a function, and what the map does not keep of it does not matter (`congr`).  Three
operations move a window: `push` writes the next entry, `rewrite` the last one again, and `drop`
forgets the oldest one.  `Recent` hides where the window begins.
-/

namespace StorageMap

open Function

variable {V : Type} {log log' : ℕ → V} {first stop now bound bound' : ℕ} {m : StorageMap ℕ V}

/-- The entries of a history from `first` up to, but not including, `stop`. -/
def Window (log : ℕ → V) (first stop : ℕ) (m : StorageMap ℕ V) : Prop :=
  ∀ r, m.get r = if first ≤ r ∧ r < stop then some (log r) else none

namespace Window

lemma keys (h : Window log first stop m) : m.keys = Finset.Ico first stop := by
  ext r
  rw [m.mem_keys, h r, Finset.mem_Ico]
  split_ifs with hr
  · simp [hr]
  · simp [hr]

lemma card (h : Window log first stop m) : m.keys.card = stop - first := by
  rw [h.keys, Nat.card_Ico]

/-- The oldest entry comes first. -/
lemma head (h : Window log first stop m) (hlt : first < stop) :
    ∃ rest, ascending m.keys = first :: rest := by
  have hsorted := m.keys.pairwise_sort (· ≤ ·)
  have hfirst : first ∈ m.keys.sort (· ≤ ·) := by
    rw [Finset.mem_sort, h.keys, Finset.mem_Ico]
    exact ⟨le_rfl, hlt⟩
  rw [ascending_eq_sort]
  cases hsort : m.keys.sort (· ≤ ·) with
  | nil =>
      rw [hsort] at hfirst
      cases hfirst
  | cons r rest =>
      rw [hsort] at hfirst hsorted
      have hr : r ∈ m.keys := by
        rw [← Finset.mem_sort (· ≤ ·), hsort]
        exact List.mem_cons_self
      rw [h.keys, Finset.mem_Ico] at hr
      have hle : r ≤ first := by
        rcases List.mem_cons.mp hfirst with heq | hrest
        · exact heq.ge
        · exact (List.pairwise_cons.mp hsorted).1 first hrest
      obtain rfl : r = first := by omega
      exact ⟨rest, rfl⟩

/-- Only the part of the history that the window shows matters. -/
lemma congr (h : Window log first stop m) (heq : ∀ r, first ≤ r → r < stop → log r = log' r) :
    Window log' first stop m := by
  intro r
  rw [h r]
  split_ifs with hr
  · rw [heq r hr.1 hr.2]
  · rfl

/-- The oldest entry is forgotten. -/
lemma drop (h : Window log first stop m) : Window log (first + 1) stop (m.remove first) := by
  intro r
  rw [get_remove, h r]
  split_ifs <;> first | rfl | omega

/-- The next entry is written. -/
lemma push (h : Window log first stop m) (hle : first ≤ stop) (v : V) :
    Window (update log stop v) first (stop + 1) (m.insert stop v) := by
  intro r
  rw [get_insert, h r, update_apply]
  split_ifs <;> first | rfl | omega

/-- The last entry is written again. -/
lemma rewrite (h : Window log first (now + 1) m) (hle : first ≤ now) (v : V) :
    Window (update log now v) first (now + 1) (m.insert now v) := by
  intro r
  rw [get_insert, h r, update_apply]
  split_ifs <;> first | rfl | omega

/-- Nothing is left, and the entry is written. -/
lemma restart (h : Window log first first m) (v : V) :
    Window (update log now v) now (now + 1) (m.insert now v) := by
  intro r
  rw [get_insert, h r, update_apply]
  split_ifs <;> first | rfl | omega

end Window

/-! ## Up to now -/

/-- At least the present entry and fewer than `bound` before it. -/
def Recent (log : ℕ → V) (now bound : ℕ) (m : StorageMap ℕ V) : Prop :=
  ∃ first, first ≤ now ∧ now < first + bound ∧ Window log first (now + 1) m

namespace Recent

/-- One entry. -/
lemma single (v : V) (hlog : log now = v) (hbound : 0 < bound) :
    Recent log now bound ((∅ : StorageMap ℕ V).insert now v) := by
  have hempty : Window log now now (∅ : StorageMap ℕ V) := by
    intro r
    rw [get_empty, if_neg (by omega)]
  refine ⟨now, le_rfl, by omega, (hempty.restart v).congr fun r _ _ => ?_⟩
  rw [← hlog, update_eq_self]

/-- What is there is what happened. -/
lemma get_eq (h : Recent log now bound m) {r : ℕ} {v : V} (hv : m.get r = some v) :
    r ≤ now ∧ v = log r := by
  obtain ⟨first, -, -, hwindow⟩ := h
  rw [hwindow r] at hv
  split_ifs at hv with hr
  exact ⟨by omega, (Option.some.inj hv).symm⟩

lemma mono (h : Recent log now bound m) (hle : bound ≤ bound') : Recent log now bound' m := by
  obtain ⟨first, hfirst, hlt, hwindow⟩ := h
  exact ⟨first, hfirst, by omega, hwindow⟩

/-- The present entry is written again. -/
lemma rewrite (h : Recent log now bound m) (v : V) :
    Recent (update log now v) now bound (m.insert now v) := by
  obtain ⟨first, hle, hlt, hwindow⟩ := h
  exact ⟨first, hle, hlt, hwindow.rewrite hle v⟩

end Recent

/-- Some history, up to now and without gaps. -/
def Unbroken (now : ℕ) (m : StorageMap ℕ V) : Prop := ∃ log bound, Recent log now bound m

namespace Unbroken

/-- One entry. -/
lemma single (v : V) : Unbroken now ((∅ : StorageMap ℕ V).insert now v) :=
  ⟨fun _ => v, 1, .single v rfl Nat.one_pos⟩

/-- The present entry is written again. -/
lemma rewrite (h : Unbroken now m) (v : V) : Unbroken now (m.insert now v) := by
  obtain ⟨log, bound, h⟩ := h
  exact ⟨_, _, h.rewrite v⟩

/-- The next entry is written, and nothing is forgotten. -/
lemma push (h : Unbroken now m) (v : V) : Unbroken (now + 1) (m.insert (now + 1) v) := by
  obtain ⟨log, bound, first, hle, hlt, hwindow⟩ := h
  exact ⟨_, bound + 1, first, by omega, by omega, hwindow.push (by omega) v⟩

/-- Its keys are an interval that ends now. -/
lemma keys (h : Unbroken now m) : ∃ first, first ≤ now ∧ m.keys = Finset.Icc first now := by
  obtain ⟨log, bound, first, hle, -, hwindow⟩ := h
  exact ⟨first, hle, hwindow.keys⟩

end Unbroken

/-! ## Later -/

/-- Before `stop`, entries are at most forgotten. -/
def Forgets (stop : ℕ) (m m' : StorageMap ℕ V) : Prop :=
  ∀ k < stop, ∀ v, m'.get k = some v → m.get k = some v

namespace Forgets

variable {stop stop' : ℕ} {m₁ m₂ : StorageMap ℕ V}

lemma refl (stop : ℕ) (m : StorageMap ℕ V) : Forgets stop m m := fun _ _ _ hv => hv

lemma trans (h₁ : Forgets stop m m₁) (h₂ : Forgets stop' m₁ m₂) (hle : stop ≤ stop') :
    Forgets stop m m₂ := fun k hk v hv => h₁ k hk v (h₂ k (hk.trans_le hle) v hv)

/-- Later entries may be written. -/
lemma insert (stop : ℕ) (m : StorageMap ℕ V) {k : ℕ} (hk : stop ≤ k) (v : V) :
    Forgets stop m (m.insert k v) := by
  intro j hj w hw
  rw [get_insert_of_ne _ (by omega)] at hw
  exact hw

end Forgets

/-! ## Two maps -/

section Agree

variable {W : Type} {R : V → W → Prop} {m' m₁ : StorageMap ℕ V} {n n' : StorageMap ℕ W} {k : ℕ}

/-- What the two maps have under one key is related. -/
def Agree (R : V → W → Prop) (m : StorageMap ℕ V) (n : StorageMap ℕ W) : Prop :=
  ∀ k v w, m.get k = some v → n.get k = some w → R v w

/-- Both are written under one key, where they need not have agreed. -/
lemma Agree.insert (h : ∀ j v w, j ≠ k → m.get j = some v → n.get j = some w → R v w) {v : V} {w : W}
    (hR : R v w) : Agree R (m.insert k v) (n.insert k w) := by
  intro j v' w' hv hw
  rw [get_insert] at hv hw
  split_ifs at hv hw with hj
  · obtain rfl := Option.some.inj hv
    obtain rfl := Option.some.inj hw
    exact hR
  · exact h j v' w' hj hv hw

/-- One of them is written. -/
lemma Agree.insert_left (h : Agree R m n) {v : V} (hR : ∀ w, n.get k = some w → R v w) :
    Agree R (m.insert k v) n := by
  intro j v' w' hv hw
  rw [get_insert] at hv
  split_ifs at hv with hj
  · obtain rfl := Option.some.inj hv
    subst hj
    exact hR w' hw
  · exact h j v' w' hv hw

end Agree

end StorageMap
