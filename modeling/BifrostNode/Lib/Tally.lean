import BifrostNode.Lib.StorageMap

/-!
# Counters of labelled entries

A table whose entries carry a label, and a counter for each label.  `Tallies` says that a counter is the
number of entries with its label, where a missing counter is zero.  Entries come in, leave, get another
value with the same label, and labels are renamed; the counter is kept along.  Counters are natural
numbers, so a decrement saturates: that it does not do so here is part of what is proved.
-/

namespace StorageMap

variable {K V A : Type} [DecidableEq A]

/-- The number of entries with a label. -/
def tally (m : StorageMap K V) (label : V → Option A) (a : A) : ℕ :=
  m.count fun v => label v = some a

/-- The counters, one lower for the label of an entry that leaves. -/
def decrement (count : StorageMap A ℕ) : Option A → StorageMap A ℕ
  | some a => count.insert a (count.getD a 0 - 1)
  | none => count

/-- **The counters are right**: each one shows how many entries have its label. -/
def Tallies (count : StorageMap A ℕ) (m : StorageMap K V) (label : V → Option A) : Prop :=
  ∀ a, count.getD a 0 = m.tally label a

section Changes

variable [DecidableEq K] {count : StorageMap A ℕ} {m m' : StorageMap K V} {label : V → Option A}
  {k : K} {v w : V} {a : A}

lemma getD_insert (count : StorageMap A ℕ) (a b : A) (n d : ℕ) :
    (count.insert a n).getD b d = if b = a then n else count.getD b d := by
  rw [getD, get_insert]
  split_ifs <;> rfl

lemma getD_remove (count : StorageMap A ℕ) (a b : A) (d : ℕ) :
    (count.remove a).getD b d = if b = a then d else count.getD b d := by
  rw [getD, get_remove]
  split_ifs <;> rfl

/-- One entry takes exactly its own part of the tally with it. -/
lemma tally_remove (h : m.get k = some v) (a : A) :
    (m.remove k).tally label a + (if label v = some a then 1 else 0) = m.tally label a := by
  have hsum := sum_remove_of_some (fun _ v => if decide (label v = some a) then 1 else 0) h
  simpa only [tally, count, decide_eq_true_eq] using hsum

/-- What one key adds to a tally. -/
lemma tally_term (o : Option V) (label : V → Option A) (a : A) :
    (o.elim 0 fun v => if decide (label v = some a) = true then 1 else 0) =
      if o.bind label = some a then 1 else 0 := by
  cases o <;> simp

omit [DecidableEq K] in
/-- The labels are the same. -/
lemma Tallies.congr (h : Tallies count m label)
    (hm : ∀ k, (m'.get k).bind label = (m.get k).bind label) : Tallies count m' label := by
  intro a
  rw [h a]
  refine sum_eq_sum fun k => ?_
  rw [tally_term, tally_term, hm k]

/-- An entry comes in, and the counter of its label goes up by one. -/
lemma Tallies.enter (h : Tallies count m label) (hk : m.get k = none) (hv : label v = some a) :
    Tallies (count.insert a (count.getD a 0 + 1)) (m.insert k v) label := by
  intro b
  have hsum : (m.insert k v).tally label b =
      m.tally label b + if label v = some b then 1 else 0 := by
    have hsum := sum_insert_of_none v (fun _ v => if decide (label v = some b) then 1 else 0) hk
    simpa only [tally, StorageMap.count, decide_eq_true_eq] using hsum
  rw [hsum, getD_insert, ← h b, hv]
  by_cases hb : b = a
  · subst hb
    simp
  · simp [hb, Ne.symm hb]

/-- An entry leaves, and the counter of its label goes down by one. -/
lemma Tallies.leave (h : Tallies count m label) (hk : m.get k = some v) :
    Tallies (decrement count (label v)) (m.remove k) label := by
  intro b
  have hsum : (m.remove k).tally label b + (if label v = some b then 1 else 0) = m.tally label b :=
    tally_remove hk b
  rw [← h b] at hsum
  cases hv : label v with
  | none =>
      rw [hv] at hsum
      simp only [decrement, reduceCtorEq, if_false] at hsum ⊢
      omega
  | some a =>
      rw [hv] at hsum
      simp only [Option.some.injEq] at hsum
      rw [decrement, getD_insert]
      by_cases hb : b = a
      · subst hb
        simp only [if_true] at hsum ⊢
        omega
      · rw [if_neg hb]
        rw [if_neg (Ne.symm hb)] at hsum
        omega

lemma decrement_le (count : StorageMap A ℕ) (o : Option A) (a : A) :
    (decrement count o).getD a 0 ≤ count.getD a 0 := by
  cases o with
  | none => exact le_rfl
  | some b =>
      rw [decrement, getD_insert]
      split_ifs with h
      · rw [h]
        exact Nat.sub_le _ _
      · exact le_rfl

/-- Counters do not rise when entries leave. -/
lemma foldl_decrement_le {E : Type} (label : E → Option A) (a : A) :
    ∀ (es : List E) (count : StorageMap A ℕ),
      (es.foldl (fun count e => decrement count (label e)) count).getD a 0 ≤ count.getD a 0 := by
  intro es
  induction es with
  | nil => exact fun _ => le_rfl
  | cons e es ih => exact fun count => (ih _).trans (decrement_le count (label e) a)

/-- **Several entries leave**, one after the other. -/
lemma Tallies.leaveAll {J : Type} {key : J → K} (hkey : Function.Injective key) :
    ∀ {es : List (J × V)} {count : StorageMap A ℕ} {m : StorageMap K V}, Tallies count m label →
      (es.map Prod.fst).Nodup → (∀ e ∈ es, m.get (key e.1) = some e.2) →
      Tallies (es.foldl (fun count e => decrement count (label e.2)) count)
        ((es.map fun e => key e.1).foldl remove m) label := by
  intro es
  induction es with
  | nil => exact fun h _ _ => h
  | cons e es ih =>
      intro count m h hnodup hes
      obtain ⟨hnot, hnodup⟩ := List.nodup_cons.mp hnodup
      refine ih (h.leave (hes e List.mem_cons_self)) hnodup fun e' he' => ?_
      have hne : key e'.1 ≠ key e.1 := by
        intro heq
        exact hnot (hkey heq ▸ List.mem_map_of_mem he')
      rw [get_remove_of_ne _ hne]
      exact hes e' (List.mem_cons_of_mem _ he')

/-- The counters with the counter of one label moved to another, over what that had. -/
def renameCount (count : StorageMap A ℕ) (old new : A) : StorageMap A ℕ :=
  if 0 < count.getD old 0 then (count.remove old).insert new (count.getD old 0) else count.remove old

/-- The entries of `m'` have the labels of those of `m`, with one of them renamed. -/
def Relabelled (m m' : StorageMap K V) (label : V → Option A) (old new : A) : Prop :=
  ∀ k, (m'.get k).bind label = ((m.get k).bind label).map fun a => if a = old then new else a

section Relabelled

variable {old new : A}

omit [DecidableEq K] in
/-- What one key adds to a tally after the label is renamed. -/
lemma Relabelled.term (h : Relabelled m m' label old new) (k : K) (b : A) :
    ((m'.get k).elim 0 fun v => if decide (label v = some b) = true then 1 else 0) =
      if ((m.get k).bind label).map (fun a => if a = old then new else a) = some b then 1 else 0 := by
  rw [tally_term, h k]

omit [DecidableEq K] in
/-- Nothing has the old label any more. -/
lemma Relabelled.tally_old (h : Relabelled m m' label old new) (hne : old ≠ new) :
    m'.tally label old = 0 := by
  refine Finset.sum_eq_zero fun k _ => ?_
  rw [h.term]
  cases (m.get k).bind label with
  | none => simp
  | some a =>
      by_cases ha : a = old
      · simp [ha, Ne.symm hne]
      · simp [ha]

omit [DecidableEq K] in
/-- What has the new label had one of the two. -/
lemma Relabelled.tally_new (h : Relabelled m m' label old new) (hne : old ≠ new) :
    m'.tally label new = m.tally label old + m.tally label new := by
  rw [tally, tally, tally, StorageMap.count, StorageMap.count, StorageMap.count, ← sum_add]
  refine sum_eq_sum fun k => ?_
  rw [h.term]
  cases hv : m.get k with
  | none => simp
  | some v =>
      cases hl : label v with
      | none => simp [hl]
      | some a =>
          by_cases ha : a = old
          · simp [hl, ha, hne]
          · simp [hl, ha]

omit [DecidableEq K] in
lemma Relabelled.tally_other (h : Relabelled m m' label old new) {b : A} (hold : b ≠ old)
    (hnew : b ≠ new) : m'.tally label b = m.tally label b := by
  refine sum_eq_sum fun k => ?_
  rw [h.term, tally_term]
  cases (m.get k).bind label with
  | none => simp
  | some a =>
      by_cases ha : a = old
      · simp [ha, Ne.symm hold, Ne.symm hnew]
      · simp [ha]

omit [DecidableEq K] in
/-- **A label is renamed**, and only one of the two was in use. -/
lemma Tallies.rename (h : Tallies count m label) (hm : Relabelled m m' label old new)
    (hfree : old = new ∨ count.getD old 0 = 0 ∨ count.getD new 0 = 0) :
    Tallies (count.renameCount old new) m' label := by
  by_cases hne : old = new
  · -- the label keeps its name
    subst hne
    have hsame : Tallies count m' label := by
      refine h.congr fun k => ?_
      have hid : (fun a => if a = old then old else a) = id := by
        funext a
        split_ifs with ha
        · exact ha.symm
        · rfl
      rw [hm k, hid, Option.map_id]
      rfl
    intro b
    rw [← hsame b, renameCount]
    split_ifs with hpos
    · rw [getD_insert, getD_remove]
      split_ifs with hb
      · rw [hb]
      · rfl
    · rw [getD_remove]
      split_ifs with hb
      · rw [hb]
        omega
      · rfl
  · have hfree := hfree.resolve_left hne
    intro b
    by_cases hbnew : b = new
    · subst hbnew
      rw [hm.tally_new hne, ← h old, ← h b, renameCount]
      split_ifs with hpos
      · rw [getD_insert, if_pos rfl]
        omega
      · rw [getD_remove, if_neg (Ne.symm hne)]
        omega
    · by_cases hbold : b = old
      · subst hbold
        rw [hm.tally_old hne, renameCount]
        split_ifs
        · rw [getD_insert, if_neg hbnew, getD_remove, if_pos rfl]
        · rw [getD_remove, if_pos rfl]
      · rw [hm.tally_other hbold hbnew, ← h b, renameCount]
        split_ifs
        · rw [getD_insert, if_neg hbnew, getD_remove, if_neg hbold]
        · rw [getD_remove, if_neg hbold]

end Relabelled

/-- Renaming raises no counter above the two that there were. -/
lemma renameCount_le (count : StorageMap A ℕ) (old new a : A) {n : ℕ}
    (h : ∀ a, count.getD a 0 ≤ n) : (count.renameCount old new).getD a 0 ≤ n := by
  have hremove : (count.remove old).getD a 0 ≤ n := by
    rw [getD_remove]
    split_ifs
    · exact Nat.zero_le n
    · exact h a
  rw [renameCount]
  split_ifs
  · rw [getD_insert]
    split_ifs
    · exact h old
    · exact hremove
  · exact hremove

end Changes

/-- The second keys of a prefix, each once. -/
lemma nodup_iterPrefix {K₁ K₂ : Type} [DecidableEq K₁] [LinearOrder K₂]
    (m : StorageMap (K₁ × K₂) V) (k : K₁) : ((m.iterPrefix k).map Prod.fst).Nodup := by
  have hall : ∀ j ∈ ascending ((m.keys.filter fun p => p.1 = k).image Prod.snd),
      ((m.get (k, j)).map fun v => (j, v)).map Prod.fst = some j := by
    intro j hj
    simp only [mem_ascending, Finset.mem_image, Finset.mem_filter] at hj
    obtain ⟨⟨k', j'⟩, ⟨hmem, rfl⟩, rfl⟩ := hj
    obtain ⟨v, hv⟩ := mem_keys_iff.mp hmem
    simp [hv]
  rw [iterPrefix, List.map_filterMap, List.filterMap_congr hall, List.filterMap_some,
    ascending_eq_sort]
  exact Finset.sort_nodup _ _

end StorageMap
