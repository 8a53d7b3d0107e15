import Mathlib

/-!
# Finite key-value storage

A `StorageMap K V` is what a ledger keeps under one storage prefix: finitely many keys, each
with one value.  It is a lookup function together with the finite set of its keys, so that
lookups reduce by `Function.update` and sums over the map are plain `Finset` sums.

Three groups of facts are used throughout:

* lookup after `insert`, `remove` and `mapVals`;
* how `sum f` moves under one write, always stated without subtraction
  (`sum_insert_of_some`, `sum_insert_of_none`, `sum_remove_of_some`);
* extensionality, which turns equality of maps into equality of lookups.
-/

/-- A finite map: a lookup function and the finite set of keys on which it is defined. -/
structure StorageMap (K V : Type) where
  keys : Finset K
  get : K → Option V
  mem_keys : ∀ k, k ∈ keys ↔ (get k).isSome = true

namespace StorageMap

variable {K V W : Type}

/-- Two maps with the same lookups are the same map: the key set is determined by them. -/
@[ext] lemma ext {m m' : StorageMap K V} (h : ∀ k, m.get k = m'.get k) : m = m' := by
  have hget : m.get = m'.get := funext h
  have hkeys : m.keys = m'.keys := by
    ext k
    rw [m.mem_keys, m'.mem_keys, h]
  cases m
  cases m'
  simp_all

/-- The comparison of a linear order tells equal keys apart from others. -/
instance lawfulOfLinearOrder {α : Type} [LinearOrder α] : LawfulBEq α := inferInstance

/-- The map with no entries. -/
def empty : StorageMap K V where
  keys := ∅
  get := fun _ => none
  mem_keys := by simp

instance : EmptyCollection (StorageMap K V) := ⟨empty⟩

instance : Inhabited (StorageMap K V) := ⟨empty⟩

@[simp] lemma get_empty (k : K) : (∅ : StorageMap K V).get k = none := rfl

@[simp] lemma keys_empty : (∅ : StorageMap K V).keys = ∅ := rfl

/-- Whether the key is present. -/
def contains (m : StorageMap K V) (k : K) : Bool := (m.get k).isSome

/-- The value under `k`, or the given default when the key is absent. -/
def getD (m : StorageMap K V) (k : K) (d : V) : V := (m.get k).getD d

lemma not_contains {m : StorageMap K V} {k : K} : (!m.contains k) = true ↔ m.get k = none := by
  simp [contains]

/-- Present keys are exactly the members of `keys`, in the form most proofs want. -/
lemma mem_keys_iff {m : StorageMap K V} {k : K} : k ∈ m.keys ↔ ∃ v, m.get k = some v := by
  rw [m.mem_keys, Option.isSome_iff_exists]

section Update

variable [DecidableEq K]

/-- Write one key. -/
def insert (m : StorageMap K V) (k : K) (v : V) : StorageMap K V where
  keys := Insert.insert k m.keys
  get := Function.update m.get k (some v)
  mem_keys := by
    intro j
    rw [Finset.mem_insert, m.mem_keys]
    by_cases h : j = k
    · subst h; simp
    · simp [h]

/-- Delete one key; deleting an absent key changes nothing. -/
def remove (m : StorageMap K V) (k : K) : StorageMap K V where
  keys := m.keys.erase k
  get := Function.update m.get k none
  mem_keys := by
    intro j
    rw [Finset.mem_erase, m.mem_keys]
    by_cases h : j = k
    · subst h; simp
    · simp [h]

lemma get_insert (m : StorageMap K V) (k j : K) (v : V) :
    (m.insert k v).get j = if j = k then some v else m.get j := by
  simp [insert, Function.update_apply]

@[simp] lemma get_insert_self (m : StorageMap K V) (k : K) (v : V) :
    (m.insert k v).get k = some v := by
  simp [insert]

@[simp] lemma get_insert_of_ne (m : StorageMap K V) {k j : K} (h : j ≠ k) (v : V) :
    (m.insert k v).get j = m.get j := by
  simp [insert, h]

lemma get_remove (m : StorageMap K V) (k j : K) :
    (m.remove k).get j = if j = k then none else m.get j := by
  simp [remove, Function.update_apply]

@[simp] lemma get_remove_self (m : StorageMap K V) (k : K) : (m.remove k).get k = none := by
  simp [remove]

@[simp] lemma get_remove_of_ne (m : StorageMap K V) {k j : K} (h : j ≠ k) :
    (m.remove k).get j = m.get j := by
  simp [remove, h]

lemma remove_of_get_none {m : StorageMap K V} {k : K} (h : m.get k = none) : m.remove k = m := by
  ext1 j
  rw [get_remove]
  split_ifs with hj
  · rw [hj, h]
  · rfl

@[simp] lemma insert_insert (m : StorageMap K V) (k : K) (v w : V) :
    (m.insert k v).insert k w = m.insert k w := by
  ext1 j
  simp only [get_insert]
  split_ifs <;> rfl

@[simp] lemma remove_insert (m : StorageMap K V) (k : K) (v : V) :
    (m.insert k v).remove k = m.remove k := by
  ext1 j
  simp only [get_insert, get_remove]
  split_ifs <;> rfl

/-- `BoundedBTreeMap::try_insert`: a new key needs room. -/
def tryInsert (bound : ℕ) (m : StorageMap K V) (k : K) (v : V) : Option (StorageMap K V) :=
  if m.contains k ∨ m.keys.card < bound then some (m.insert k v) else none

end Update

/-- Move the value of one key to another key, through `f`; nothing happens if there is none. -/
def moveKey [DecidableEq K] (m : StorageMap K V) (old new : K) (f : V → V) : StorageMap K V :=
  match m.get old with
  | none => m
  | some v => (m.remove old).insert new (f v)

/-- Moving to an unused key leaves every other key alone. -/
lemma get_moveKey [DecidableEq K] {m : StorageMap K V} (old : K) {new : K} (f : V → V)
    (hnew : m.get new = none) (k : K) :
    (m.moveKey old new f).get k =
      if k = new then (m.get old).map f else if k = old then none else m.get k := by
  cases h : m.get old with
  | none =>
      simp only [moveKey, h]
      split_ifs with h1 h2
      · rw [h1, hnew]; rfl
      · rw [h2, h]
      · rfl
  | some v => simp only [moveKey, h, get_insert, get_remove, Option.map_some]

/-- Apply a function to every stored value, keys unchanged. -/
def mapVals (m : StorageMap K V) (f : V → W) : StorageMap K W where
  keys := m.keys
  get := fun k => (m.get k).map f
  mem_keys := by intro k; rw [m.mem_keys]; simp

@[simp] lemma get_mapVals (m : StorageMap K V) (f : V → W) (k : K) :
    (m.mapVals f).get k = (m.get k).map f := rfl

/-- Keep the keys that satisfy `p`. -/
def filterKeys (m : StorageMap K V) (p : K → Bool) : StorageMap K V where
  keys := m.keys.filter fun k => p k
  get := fun k => if p k then m.get k else none
  mem_keys := by
    intro k
    rw [Finset.mem_filter, m.mem_keys]
    split_ifs with hk <;> simp [hk]

@[simp] lemma get_filterKeys (m : StorageMap K V) (p : K → Bool) (k : K) :
    (m.filterKeys p).get k = if p k then m.get k else none := rfl

/-- Everything under `old` is under `new`, through `f`, and nothing else is.  Where `moveKey` keeps
what `new` had, this does not. -/
def rename [DecidableEq K] (m : StorageMap K V) (old new : K) (f : V → V) : StorageMap K V :=
  match m.get old with
  | none => m.remove new
  | some v => (m.remove old).insert new (f v)

lemma get_rename [DecidableEq K] (m : StorageMap K V) {old new : K} (f : V → V) (k : K) :
    (m.rename old new f).get k =
      if k = new then (m.get old).map f else if k = old then none else m.get k := by
  cases h : m.get old with
  | none =>
      simp only [rename, h, get_remove, Option.map_none]
      split_ifs with h₁ h₂
      · rfl
      · rw [h₂, h]
      · rfl
  | some v => simp only [rename, h, get_insert, get_remove, Option.map_some]

/-- A map that is left alone is renamed if it has nothing under either name. -/
lemma eq_rename_iff [DecidableEq K] {m : StorageMap K V} {old new : K} {f : V → V}
    (hne : old ≠ new) : m = m.rename old new f ↔ m.get old = none ∧ m.get new = none := by
  constructor
  · intro h
    have hold : m.get old = none := by
      have hget := congrArg (fun x => StorageMap.get x old) h
      simpa [get_rename m f, hne] using hget
    refine ⟨hold, ?_⟩
    have hget := congrArg (fun x => StorageMap.get x new) h
    simpa [get_rename m f, hold] using hget
  · rintro ⟨hold, hnew⟩
    ext1 k
    rw [get_rename m f, hold]
    split_ifs with h₁ h₂
    · rw [h₁, hnew]; rfl
    · rw [h₂, hold]
    · rfl

/-- Moving a value renames, unless there is nothing to move and something to overwrite. -/
lemma moveKey_eq_rename_iff [DecidableEq K] {m : StorageMap K V} {old new : K} {f : V → V}
    (hne : old ≠ new) :
    m.moveKey old new f = m.rename old new f ↔ (m.get old = none → m.get new = none) := by
  cases h : m.get old with
  | none =>
      have hsame : m.moveKey old new f = m := by simp only [moveKey, h]
      rw [hsame, eq_rename_iff hne, h]
      simp
  | some v => simp [moveKey, rename, h]

/-- The same for a set of keys. -/
def renameIn [DecidableEq K] (old new : K) (s : Finset K) : Finset K :=
  if old ∈ s then Insert.insert new (s.erase old) else s.erase new

lemma eq_renameIn_iff [DecidableEq K] {old new : K} {s : Finset K} (hne : old ≠ new) :
    s = renameIn old new s ↔ old ∉ s ∧ new ∉ s := by
  by_cases hold : old ∈ s
  · have hgone : old ∉ renameIn old new s := by simp [renameIn, hold, hne]
    constructor
    · intro h
      exact absurd (h ▸ hold) hgone
    · intro h
      exact absurd hold h.1
  · rw [renameIn, if_neg hold, eq_comm, Finset.erase_eq_self]
    simp [hold]

/-! ## Iteration in key order -/

/-- The elements of a finite set in increasing order.  It is `Finset.sort` computed by insertion
sort, so that closed terms evaluate; `ascending_eq_sort` is the only fact about it. -/
def ascending [LinearOrder K] (s : Finset K) : List K :=
  Quot.liftOn s.1 (List.insertionSort (· ≤ ·)) fun a b h =>
    List.Perm.eq_of_pairwise' (List.pairwise_insertionSort _ _) (List.pairwise_insertionSort _ _)
      (((List.perm_insertionSort _ a).trans h).trans (List.perm_insertionSort _ b).symm)

lemma ascending_eq_sort [LinearOrder K] (s : Finset K) : ascending s = s.sort (· ≤ ·) := by
  obtain ⟨⟨l⟩, hl⟩ := s
  refine List.Perm.eq_of_pairwise' (r := (· ≤ ·)) (List.pairwise_insertionSort _ _)
    (Finset.pairwise_sort _ _) ((List.perm_insertionSort _ l).trans ?_)
  exact (Multiset.coe_eq_coe.mp (Finset.sort_eq ⟨Quot.mk _ l, hl⟩ (· ≤ ·))).symm

@[simp] lemma mem_ascending [LinearOrder K] {s : Finset K} {k : K} :
    k ∈ ascending s ↔ k ∈ s := by
  rw [ascending_eq_sort, Finset.mem_sort]

/-- The entries in increasing key order: the order a B-tree map iterates in. -/
def toList [LinearOrder K] (m : StorageMap K V) : List (K × V) :=
  (ascending m.keys).filterMap fun k => (m.get k).map fun v => (k, v)

lemma mem_toList [LinearOrder K] {m : StorageMap K V} {p : K × V} :
    p ∈ m.toList ↔ m.get p.1 = some p.2 := by
  obtain ⟨k, v⟩ := p
  simp only [toList, List.mem_filterMap, mem_ascending, Option.map_eq_some_iff, Prod.mk.injEq]
  constructor
  · rintro ⟨j, -, w, hw, rfl, rfl⟩
    exact hw
  · intro h
    exact ⟨k, mem_keys_iff.mpr ⟨v, h⟩, v, h, rfl, rfl⟩

lemma map_fst_toList [LinearOrder K] (m : StorageMap K V) :
    m.toList.map Prod.fst = ascending m.keys := by
  rw [toList, List.map_filterMap]
  have hall : ∀ k ∈ ascending m.keys,
      ((m.get k).map fun v => (k, v)).map Prod.fst = some k := by
    intro k hk
    obtain ⟨v, hv⟩ := mem_keys_iff.mp (mem_ascending.mp hk)
    simp [hv]
  rw [List.filterMap_congr hall]
  simp

/-- No key is listed twice. -/
lemma nodup_keys_toList [LinearOrder K] (m : StorageMap K V) :
    (m.toList.map Prod.fst).Nodup := by
  rw [map_fst_toList, ascending_eq_sort]
  exact Finset.sort_nodup _ _

/-- Every key is listed. -/
lemma length_toList [LinearOrder K] (m : StorageMap K V) : m.toList.length = m.keys.card := by
  rw [← List.length_map Prod.fst, map_fst_toList, ascending_eq_sort, Finset.length_sort]

/-- The entries under a first key, in the order of the second. -/
def iterPrefix {K₁ K₂ : Type} [DecidableEq K₁] [LinearOrder K₂] (m : StorageMap (K₁ × K₂) V)
    (k : K₁) : List (K₂ × V) :=
  (ascending ((m.keys.filter fun p => p.1 = k).image Prod.snd)).filterMap fun j =>
    (m.get (k, j)).map fun v => (j, v)

lemma get_of_mem_iterPrefix {K₁ K₂ : Type} [DecidableEq K₁] [LinearOrder K₂]
    {m : StorageMap (K₁ × K₂) V} {k : K₁} {p : K₂ × V} (h : p ∈ m.iterPrefix k) :
    m.get (k, p.1) = some p.2 := by
  simp only [iterPrefix, List.mem_filterMap, Option.map_eq_some_iff] at h
  obtain ⟨j, -, v, hv, rfl⟩ := h
  exact hv

/-- A map with no entries. -/
lemma get_of_toList_nil [LinearOrder K] {m : StorageMap K V} (h : m.toList = []) (k : K) :
    m.get k = none := by
  by_contra hget
  obtain ⟨v, hv⟩ := Option.ne_none_iff_exists'.mp hget
  have hmem : (k, v) ∈ m.toList := mem_toList.mpr hv
  simp [h] at hmem

/-! ## Sums over a map -/

/-- The sum of `f` over all entries. -/
def sum (m : StorageMap K V) (f : K → V → ℕ) : ℕ :=
  ∑ k ∈ m.keys, (m.get k).elim 0 (f k)

@[simp] lemma sum_empty (f : K → V → ℕ) : (∅ : StorageMap K V).sum f = 0 := by
  simp [sum]

lemma sum_congr {m : StorageMap K V} {f g : K → V → ℕ}
    (h : ∀ k v, m.get k = some v → f k v = g k v) : m.sum f = m.sum g := by
  refine Finset.sum_congr rfl fun k hk => ?_
  obtain ⟨v, hv⟩ := mem_keys_iff.mp hk
  simp [hv, h k v hv]

/-- Two maps whose entries contribute alike have the same sum. -/
lemma sum_eq_sum {m : StorageMap K V} {m' : StorageMap K W} {f : K → V → ℕ} {g : K → W → ℕ}
    (h : ∀ k, (m.get k).elim 0 (f k) = (m'.get k).elim 0 (g k)) : m.sum f = m'.sum g := by
  classical
  have hleft : m.sum f = ∑ k ∈ m.keys ∪ m'.keys, (m.get k).elim 0 (f k) := by
    refine Finset.sum_subset Finset.subset_union_left fun k _ hk => ?_
    have hnone : m.get k = none := by
      simpa [m.mem_keys] using hk
    simp [hnone]
  have hright : m'.sum g = ∑ k ∈ m.keys ∪ m'.keys, (m'.get k).elim 0 (g k) := by
    refine Finset.sum_subset Finset.subset_union_right fun k _ hk => ?_
    have hnone : m'.get k = none := by
      simpa [m'.mem_keys] using hk
    simp [hnone]
  rw [hleft, hright]
  exact Finset.sum_congr rfl fun k _ => h k

lemma sum_add (m : StorageMap K V) (f g : K → V → ℕ) :
    m.sum (fun k v => f k v + g k v) = m.sum f + m.sum g := by
  rw [sum, sum, sum, ← Finset.sum_add_distrib]
  refine Finset.sum_congr rfl fun k hk => ?_
  obtain ⟨v, hv⟩ := mem_keys_iff.mp hk
  simp [hv]

/-- One entry is at most the whole sum. -/
lemma le_sum {m : StorageMap K V} {k : K} {v : V} (f : K → V → ℕ) (h : m.get k = some v) :
    f k v ≤ m.sum f := by
  have hk : k ∈ m.keys := mem_keys_iff.mpr ⟨v, h⟩
  have := Finset.single_le_sum (f := fun j => (m.get j).elim 0 (f j))
    (fun _ _ => Nat.zero_le _) hk
  simpa [sum, h] using this

/-- Adding up in key order is adding up. -/
lemma sum_toList [LinearOrder K] (m : StorageMap K V) (f : K → V → ℕ) :
    (m.toList.map fun p => f p.1 p.2).sum = m.sum f := by
  have hlist : ∀ ks : List K,
      ((ks.filterMap fun k => (m.get k).map fun v => (k, v)).map fun p => f p.1 p.2).sum =
        (ks.map fun k => (m.get k).elim 0 (f k)).sum := by
    intro ks
    induction ks with
    | nil => rfl
    | cons k ks ih => cases h : m.get k <;> simp [h, ih]
  rw [toList, hlist, sum, ascending_eq_sort, ← List.sum_toFinset _ (Finset.sort_nodup _ _),
    Finset.sort_toFinset]

/-- A sum that vanishes has only vanishing terms. -/
lemma eq_zero_of_sum_eq_zero {m : StorageMap K V} {f : K → V → ℕ} (h : m.sum f = 0) {k : K}
    {v : V} (hk : m.get k = some v) : f k v = 0 :=
  Nat.le_zero.mp (h ▸ le_sum f hk)

section Update

variable [DecidableEq K]

/-- Deleting a present key takes exactly its term out of the sum. -/
lemma sum_remove_of_some {m : StorageMap K V} {k : K} {v : V} (f : K → V → ℕ)
    (h : m.get k = some v) : (m.remove k).sum f + f k v = m.sum f := by
  have hk : k ∈ m.keys := mem_keys_iff.mpr ⟨v, h⟩
  have hrest : (m.remove k).sum f = ∑ j ∈ m.keys.erase k, (m.get j).elim 0 (f j) := by
    refine Finset.sum_congr rfl fun j hj => ?_
    rw [get_remove_of_ne _ (Finset.ne_of_mem_erase hj)]
  have hterm : f k v = (m.get k).elim 0 (f k) := by simp [h]
  rw [hrest, hterm, sum, Finset.sum_erase_add _ _ hk]

/-- Writing a fresh key adds its term. -/
lemma sum_insert_of_none {m : StorageMap K V} {k : K} (v : V) (f : K → V → ℕ)
    (h : m.get k = none) : (m.insert k v).sum f = m.sum f + f k v := by
  have hself : (m.insert k v).get k = some v := get_insert_self _ _ _
  rw [← sum_remove_of_some f hself, remove_insert, remove_of_get_none h]

/-- Overwriting a present key exchanges its term. -/
lemma sum_insert_of_some {m : StorageMap K V} {k : K} {w : V} (v : V) (f : K → V → ℕ)
    (h : m.get k = some w) : (m.insert k v).sum f + f k w = m.sum f + f k v := by
  have hself : (m.insert k v).get k = some v := get_insert_self _ _ _
  have hnew := sum_remove_of_some f hself
  have hold := sum_remove_of_some f h
  rw [remove_insert] at hnew
  omega

/-- A value that moves to another key, over what is there, adds nothing. -/
lemma sum_redirect_le (m : StorageMap K ℕ) {old new : K} (f : K → ℕ → ℕ)
    (hzero : f new 0 = 0) (hsame : ∀ v, f new v = f old v) :
    ((m.remove old).insert new (m.getD old 0)).sum f ≤ m.sum f := by
  have hremoved : (m.remove old).sum f + f new (m.getD old 0) = m.sum f := by
    cases hold : m.get old with
    | none => rw [remove_of_get_none hold, getD, hold, Option.getD_none, hzero, Nat.add_zero]
    | some v => rw [getD, hold, Option.getD_some, hsame, sum_remove_of_some f hold]
  cases hnew : (m.remove old).get new with
  | none => rw [sum_insert_of_none _ f hnew, hremoved]
  | some w =>
      have hover := sum_insert_of_some (m.getD old 0) f hnew
      omega

/-- One write to the map, and a new way of counting that differs at the written key only. -/
lemma sum_insert_congr {m : StorageMap K V} {k : K} {w : V} (v : V) {f g : K → V → ℕ}
    (h : m.get k = some w) (hfg : ∀ j u, j ≠ k → g j u = f j u) :
    (m.insert k v).sum g + f k w = m.sum f + g k v := by
  have hrest : (m.remove k).sum g = (m.remove k).sum f := by
    refine sum_congr fun j u hj => hfg j u ?_
    rintro rfl
    simp at hj
  have hnew := sum_remove_of_some g (get_insert_self m k v)
  have hold := sum_remove_of_some f h
  rw [remove_insert] at hnew
  omega

/-- A deletion, with a new way of counting that differs at the deleted key only. -/
lemma sum_remove_congr {m : StorageMap K V} {k : K} {w : V} {f g : K → V → ℕ}
    (h : m.get k = some w) (hfg : ∀ j u, j ≠ k → g j u = f j u) :
    (m.remove k).sum g + f k w = m.sum f := by
  have hrest : (m.remove k).sum g = (m.remove k).sum f := by
    refine sum_congr fun j u hj => hfg j u ?_
    rintro rfl
    simp at hj
  rw [hrest]
  exact sum_remove_of_some f h

/-- Overwriting a present key with its own value changes nothing. -/
lemma insert_eq_self {m : StorageMap K V} {k : K} {v : V} (h : m.get k = some v) :
    m.insert k v = m := by
  ext1 j
  rw [get_insert]
  split_ifs with hj
  · rw [hj, h]
  · rfl

/-- A sum that does not look at the key is kept when a value moves to an unused key. -/
lemma sum_moveKey {m : StorageMap K V} {old new : K} {f : V → V} (g : V → ℕ)
    (hnew : m.get new = none) (hf : ∀ v, g (f v) = g v) :
    (m.moveKey old new f).sum (fun _ v => g v) = m.sum fun _ v => g v := by
  cases h : m.get old with
  | none => simp only [moveKey, h]
  | some v =>
      have hfresh : (m.remove old).get new = none := by
        rw [get_remove]
        split_ifs <;> simp [hnew]
      have hold := sum_remove_of_some (fun _ v => g v) h
      simp only [moveKey, h]
      rw [sum_insert_of_none _ _ hfresh, hf]
      exact hold

end Update

/-- Without its only entry a map is empty. -/
lemma remove_eq_empty [DecidableEq K] {m : StorageMap K V} {k : K} (h : m.keys.card = 1)
    (hk : (m.get k).isSome) : m.remove k = ∅ := by
  obtain ⟨j, hj⟩ := Finset.card_eq_one.mp h
  obtain rfl : k = j := by
    simpa [hj] using (m.mem_keys k).mpr hk
  ext1 i
  rw [get_remove, get_empty]
  split_ifs with hi
  · rfl
  · have hmem : i ∉ m.keys := by simpa [hj] using hi
    simpa [m.mem_keys] using hmem

/-- Deleting the keys of a list leaves nothing under them, and the other keys alone. -/
lemma get_foldl_remove [DecidableEq K] :
    ∀ (ks : List K) (m : StorageMap K V) (k : K),
      (ks.foldl remove m).get k = if k ∈ ks then none else m.get k := by
  intro ks
  induction ks with
  | nil => simp
  | cons j ks ih =>
      intro m k
      rw [List.foldl_cons, ih, get_remove]
      by_cases hj : k = j
      · simp [hj]
      · simp only [hj, if_false, List.mem_cons, false_or]

/-- Writing one value under the keys of a list. -/
lemma get_foldl_insert [DecidableEq K] {ι : Type} (f : ι → K) (v : V) :
    ∀ (is : List ι) (m : StorageMap K V) (k : K),
      (is.foldl (fun m i => m.insert (f i) v) m).get k =
        if k ∈ is.map f then some v else m.get k := by
  intro is
  induction is with
  | nil => simp
  | cons i is ih =>
      intro m k
      rw [List.foldl_cons, ih, get_insert]
      by_cases hi : k = f i
      · simp [hi]
      · simp only [hi, if_false, List.map_cons, List.mem_cons, false_or]

/-- Writing under the keys of a list leaves the other keys alone. -/
lemma get_foldl_insert_of_notMem [DecidableEq K] {ι : Type} (f : ι → K) (g : ι → V) {k : K} :
    ∀ (is : List ι) (m : StorageMap K V), k ∉ is.map f →
      (is.foldl (fun m i => m.insert (f i) (g i)) m).get k = m.get k := by
  intro is
  induction is with
  | nil => exact fun _ _ => rfl
  | cons i is ih =>
      intro m hk
      rw [List.map_cons, List.mem_cons, not_or] at hk
      rw [List.foldl_cons, ih _ hk.2, get_insert_of_ne _ hk.1]

/-- The keys that are there after writing under the keys of a list. -/
lemma isSome_foldl_insert [DecidableEq K] {ι : Type} (f : ι → K) (g : ι → V) (k : K) :
    ∀ (is : List ι) (m : StorageMap K V),
      ((is.foldl (fun m i => m.insert (f i) (g i)) m).get k).isSome =
        (decide (k ∈ is.map f) || (m.get k).isSome) := by
  intro is
  induction is with
  | nil => simp
  | cons i is ih =>
      intro m
      rw [List.foldl_cons, ih, get_insert]
      by_cases hi : k = f i
      · simp [hi]
      · simp [hi]

/-- Deleting every key leaves nothing. -/
lemma foldl_remove_toList [LinearOrder K] (m : StorageMap K V) :
    m.toList.foldl (fun p b => p.remove b.1) m = ∅ := by
  ext1 k
  rw [← List.foldl_map, get_foldl_remove, get_empty]
  split_ifs with hk
  · rfl
  · cases h : m.get k with
    | none => rfl
    | some v =>
        have hmem : (k, v) ∈ m.toList := mem_toList.mpr h
        exact absurd (List.mem_map_of_mem hmem) hk

lemma mem_iterPrefix {K₁ K₂ : Type} [DecidableEq K₁] [LinearOrder K₂]
    {m : StorageMap (K₁ × K₂) V} {k : K₁} {p : K₂ × V} :
    p ∈ m.iterPrefix k ↔ m.get (k, p.1) = some p.2 := by
  refine ⟨get_of_mem_iterPrefix, fun h => ?_⟩
  simp only [iterPrefix, List.mem_filterMap, Option.map_eq_some_iff, mem_ascending, Finset.mem_image,
    Finset.mem_filter]
  exact ⟨p.1, ⟨(k, p.1), ⟨mem_keys_iff.mpr ⟨p.2, h⟩, rfl⟩, rfl⟩, p.2, h, rfl⟩

/-- Some of the entries under one first key are changed. -/
lemma get_foldl_iterPrefix {K₁ K₂ : Type} [DecidableEq K₁] [LinearOrder K₂]
    (m : StorageMap (K₁ × K₂) V) (k : K₁) (p : V → Bool) (f : V → V) (i : K₁ × K₂) :
    ((m.iterPrefix k).foldl (fun m' e => if p e.2 then m'.insert (k, e.1) (f e.2) else m') m).get i =
      (m.get i).map fun v => if i.1 = k ∧ p v then f v else v := by
  have hfold : ∀ (es : List (K₂ × V)) (m' : StorageMap (K₁ × K₂) V),
      (∀ e ∈ es, m.get (k, e.1) = some e.2) →
      (es.foldl (fun m' e => if p e.2 then m'.insert (k, e.1) (f e.2) else m') m').get i =
        if i.1 = k ∧ i.2 ∈ es.map Prod.fst ∧ (m.get i).any p then (m.get i).map f else m'.get i := by
    intro es
    induction es with
    | nil => simp
    | cons e es ih =>
        intro m' hes
        have he := hes e List.mem_cons_self
        rw [List.foldl_cons, ih _ fun e' he' => hes e' (List.mem_cons_of_mem _ he')]
        by_cases hi : i = (k, e.1)
        · subst hi
          by_cases hp : p e.2 = true <;> simp [he, hp]
        · have hne : ¬ (i.1 = k ∧ i.2 = e.1) := fun h => hi (Prod.ext h.1 h.2)
          have hwrite : (if p e.2 then m'.insert (k, e.1) (f e.2) else m').get i = m'.get i := by
            split_ifs
            · rw [get_insert_of_ne _ hi]
            · rfl
          have hmem : (i.1 = k ∧ i.2 ∈ es.map Prod.fst ∧ (m.get i).any p = true) ↔
              (i.1 = k ∧ i.2 ∈ (e :: es).map Prod.fst ∧ (m.get i).any p = true) := by
            rw [List.map_cons, List.mem_cons]
            tauto
          rw [hwrite]
          simp only [hmem]
  rw [hfold _ m fun e he => get_of_mem_iterPrefix he]
  cases hget : m.get i with
  | none => simp
  | some v =>
      by_cases hk : i.1 = k
      · have hmem : i.2 ∈ (m.iterPrefix k).map Prod.fst := by
          refine List.mem_map.mpr ⟨(i.2, v), mem_iterPrefix.mpr ?_, rfl⟩
          rw [← hk]
          exact hget
        by_cases hp : p v = true <;> simp [hk, hmem, hp]
      · simp [hk]

/-! ## Counting entries -/

/-- The number of entries whose value satisfies `p`. -/
def count (m : StorageMap K V) (p : V → Bool) : ℕ := m.sum fun _ v => if p v then 1 else 0

/-! ## Conditions on entries -/

section Every

variable {R R' : Type} {P : K → R → Prop} {m : StorageMap K R}

/-- Every entry meets a condition. -/
def Every (P : K → R → Prop) (m : StorageMap K R) : Prop := ∀ k r, m.get k = some r → P k r

instance decidableEvery [∀ k, DecidablePred (P k)] : Decidable (m.Every P) :=
  decidable_of_iff (∀ k ∈ m.keys, ∀ r ∈ m.get k, P k r)
    ⟨fun h k r hr => h k (mem_keys_iff.mpr ⟨r, hr⟩) r hr, fun h k _ r hr => h k r hr⟩

lemma Every.empty : (∅ : StorageMap K R).Every P := by
  intro k r hr
  cases hr

lemma Every.insert [DecidableEq K] (h : m.Every P) {k : K} {r : R} (hr : P k r) :
    (m.insert k r).Every P := by
  intro j w hw
  rw [get_insert] at hw
  split_ifs at hw with hj
  · exact hj ▸ Option.some.inj hw ▸ hr
  · exact h j w hw

lemma Every.remove [DecidableEq K] (h : m.Every P) (k : K) : (m.remove k).Every P := by
  intro j w hw
  rw [get_remove] at hw
  split_ifs at hw
  exact h j w hw

lemma Every.filterKeys (h : m.Every P) (p : K → Bool) : (m.filterKeys p).Every P := by
  intro j w hw
  rw [get_filterKeys] at hw
  split_ifs at hw
  exact h j w hw

lemma every_mapVals {f : R' → R} {m : StorageMap K R'} :
    (m.mapVals f).Every P ↔ m.Every fun k r => P k (f r) := by
  constructor
  · intro h k r hr
    exact h k (f r) (by rw [get_mapVals, hr, Option.map_some])
  · intro h k r hr
    rw [get_mapVals] at hr
    obtain ⟨w, hw, rfl⟩ := Option.map_eq_some_iff.mp hr
    exact h k w hw

lemma every_congr {Q : K → R → Prop} (h : ∀ k r, m.get k = some r → (P k r ↔ Q k r)) :
    m.Every P ↔ m.Every Q :=
  ⟨fun hp k r hr => (h k r hr).mp (hp k r hr), fun hq k r hr => (h k r hr).mpr (hq k r hr)⟩

end Every

end StorageMap
