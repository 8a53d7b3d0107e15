import BifrostNode.Lib.StorageMap

/-!
# Lists ranked from greatest to least

A list of items with a weight `w`, kept in descending order of weight, and owned by pairwise
distinct keys `o`.  This file has the three ingredients that a leaderboard needs.

**Search.**  `binarySearchBy` is the loop of the standard library's binary search.  Its contract
leaves open which of several equal elements it stops at, so `insertionIndex_eq` is stated for
*every* outcome the contract allows (`IsSearchResult`), and `isSearchResult_binarySearchBy` shows
that the loop meets it.

**Insertion.**  `rankInsert` puts a new item after everything that weighs at least as much.

**Keys.**  With pairwise distinct keys, taking out or rewriting the item of one key is, up to
permutation, an operation at the head of the list (`perm_cons_filter`, `perm_cons_map`).
-/

namespace RankedList

variable {α κ : Type}

/-- Weights never increase along the list. -/
def Desc (w : α → ℕ) (l : List α) : Prop := l.Pairwise fun a b => w b ≤ w a

/-! ## Binary search -/

/-- The loop of `slice::binary_search_by`: `base` is the left end of a window of `size` elements. -/
def searchLoop (cmp : α → Ordering) (l : List α) : ℕ → ℕ → ℕ → ℕ
  | 0, _, base => base
  | fuel + 1, size, base =>
      if size ≤ 1 then base
      else searchLoop cmp l fuel (size - size / 2)
        (if l[base + size / 2]?.map cmp = some .gt then base else base + size / 2)

/-- `slice::binary_search_by`: `ok` is a hit, `error` an insertion point. -/
def binarySearchBy (cmp : α → Ordering) (l : List α) : Except ℕ ℕ :=
  let base := searchLoop cmp l l.length l.length 0
  match l[base]?.map cmp with
  | none => .error 0
  | some .eq => .ok base
  | some .lt => .error (base + 1)
  | some .gt => .error base

/-- What the contract of the search promises for the value `v`: a hit carries `v`, and an
insertion point separates the larger weights from the smaller ones, none of them equal to `v`. -/
def IsSearchResult (w : α → ℕ) (v : ℕ) (l : List α) : Except ℕ ℕ → Prop
  | .ok i => ∃ x, l[i]? = some x ∧ w x = v
  | .error i => i ≤ l.length ∧ (∀ j x, j < i → l[j]? = some x → v < w x) ∧
      ∀ j x, i ≤ j → l[j]? = some x → w x < v

/-- Weights at two positions of a descending list compare the other way round. -/
lemma Desc.getElem?_le {w : α → ℕ} {l : List α} (h : Desc w l) {i j : ℕ} {x y : α}
    (hij : i ≤ j) (hx : l[i]? = some x) (hy : l[j]? = some y) : w y ≤ w x := by
  obtain ⟨hi, rfl⟩ := List.getElem?_eq_some_iff.mp hx
  obtain ⟨hj, rfl⟩ := List.getElem?_eq_some_iff.mp hy
  rcases Nat.eq_or_lt_of_le hij with rfl | hlt
  · exact le_rfl
  · exact List.pairwise_iff_getElem.mp h i j hi hj hlt

/-- The loop keeps a window whose left end is not too small and beyond which everything is. -/
lemma searchLoop_spec {w : α → ℕ} {l : List α} (v : ℕ) (h : Desc w l) :
    ∀ (fuel size base : ℕ), 1 ≤ size → size ≤ fuel → base + size ≤ l.length →
      (base = 0 ∨ ∀ x, l[base]? = some x → v ≤ w x) →
      (∀ j x, base + size ≤ j → l[j]? = some x → w x < v) →
      let r := searchLoop (fun x => compare v (w x)) l fuel size base
      r < l.length ∧ (r = 0 ∨ ∀ x, l[r]? = some x → v ≤ w x) ∧
        ∀ j x, r < j → l[j]? = some x → w x < v := by
  intro fuel
  induction fuel with
  | zero => intro size base h1 h2; omega
  | succ fuel ih =>
      intro size base hsize hfuel hlen hbase hbeyond
      simp only [searchLoop]
      split_ifs with h1 hgt
      · have hs : size = 1 := by omega
        subst hs
        exact ⟨by omega, hbase, fun j x hj hx => hbeyond j x (by omega) hx⟩
      · -- the midpoint is already smaller than `v`, and so is everything after it
        obtain ⟨m, hm, hcmp⟩ := Option.map_eq_some_iff.mp hgt
        have hmv : w m < v := Nat.compare_eq_gt.mp hcmp
        refine ih (size - size / 2) base (by omega) (by omega) (by omega) hbase ?_
        intro j x hj hx
        exact lt_of_le_of_lt (h.getElem?_le (by omega) hm hx) hmv
      · refine ih (size - size / 2) (base + size / 2) (by omega) (by omega) (by omega) ?_ ?_
        · refine Or.inr fun x hx => ?_
          by_contra hlt
          refine hgt ?_
          rw [hx, Option.map_some, Nat.compare_eq_gt.mpr (by omega)]
        · intro j x hj hx
          exact hbeyond j x (by omega) hx

/-- On a descending list the search meets its contract. -/
lemma isSearchResult_binarySearchBy {w : α → ℕ} {l : List α} (v : ℕ) (h : Desc w l) :
    IsSearchResult w v l (binarySearchBy (fun x => compare v (w x)) l) := by
  cases hl : l with
  | nil => simp [binarySearchBy, searchLoop, IsSearchResult]
  | cons a t =>
      rw [← hl]
      have hpos : 1 ≤ l.length := by simp [hl]
      obtain ⟨hr, hge, hlt⟩ := searchLoop_spec v h l.length l.length 0 hpos le_rfl (by omega)
        (Or.inl rfl) (fun j x hj hx => by
          have := (List.getElem?_eq_some_iff.mp hx).1
          omega)
      rw [binarySearchBy]
      generalize searchLoop (fun x => compare v (w x)) l l.length l.length 0 = r at hr hge hlt ⊢
      have hx : l[r]? = some l[r] := List.getElem?_eq_getElem hr
      simp only [hx, Option.map_some]
      rcases hcmp : compare v (w l[r]) with _ | _ | _
      · have hv := Nat.compare_eq_lt.mp hcmp
        refine ⟨by omega, fun j x hj hjx => ?_, fun j x hj hjx => hlt j x (by omega) hjx⟩
        exact lt_of_lt_of_le hv (h.getElem?_le (by omega) hjx hx)
      · exact ⟨_, hx, (Nat.compare_eq_eq.mp hcmp).symm⟩
      · have hv := Nat.compare_eq_gt.mp hcmp
        have hr0 : r = 0 := by
          rcases hge with h0 | hge
          · exact h0
          · have := hge _ hx
            omega
        subst hr0
        refine ⟨by omega, fun j x hj => by omega, fun j x hj hjx => ?_⟩
        exact lt_of_le_of_lt (h.getElem?_le hj hx hjx) hv

/-! ## Insertion after everything of at least the same weight -/

/-- The index at which an item of weight `v` goes, given the outcome of the search: a hit is
moved past the rest of its run of equal weights. -/
def insertionIndex (w : α → ℕ) (v : ℕ) (l : List α) : Except ℕ ℕ → ℕ
  | .ok i => ((l.drop i).findIdx? fun x => w x ≠ v).elim l.length fun offset => i + offset
  | .error i => i

/-- Insert after every item of greater or equal weight and before every smaller one. -/
def rankInsert (w : α → ℕ) (x : α) (l : List α) : List α :=
  l.takeWhile (fun y => w x ≤ w y) ++ x :: l.dropWhile fun y => w x ≤ w y

/-- `takeWhile` stops exactly at the boundary between the large and the small weights. -/
lemma length_takeWhile_eq {w : α → ℕ} {v : ℕ} : ∀ {l : List α} {k : ℕ}, k ≤ l.length →
    (∀ j x, j < k → l[j]? = some x → v ≤ w x) → (∀ j x, k ≤ j → l[j]? = some x → w x < v) →
    (l.takeWhile fun y => v ≤ w y).length = k
  | [], k, hk, _, _ => by simp_all
  | a :: t, k, hk, hlow, hhigh => by
      by_cases ha : v ≤ w a
      · have hk0 : k ≠ 0 := by
          rintro rfl
          have := hhigh 0 a le_rfl rfl
          omega
        obtain ⟨k, rfl⟩ := Nat.exists_eq_succ_of_ne_zero hk0
        have ih := length_takeWhile_eq (w := w) (v := v) (l := t) (k := k)
          (by simpa using hk) (fun j x hj hx => hlow (j + 1) x (by omega) (by simpa using hx))
          (fun j x hj hx => hhigh (j + 1) x (by omega) (by simpa using hx))
        simp [ha, ih]
      · have hk0 : k = 0 := by
          by_contra hne
          exact ha (hlow 0 a (by omega) rfl)
        simp [ha, hk0]

/-- Whatever equal element the search stops at, the insertion index is the length of the prefix
of greater or equal weights. -/
lemma insertionIndex_eq {w : α → ℕ} {v : ℕ} {l : List α} {r : Except ℕ ℕ} (h : Desc w l)
    (hr : IsSearchResult w v l r) :
    insertionIndex w v l r = (l.takeWhile fun y => v ≤ w y).length := by
  cases r with
  | error i =>
      obtain ⟨hi, hlow, hhigh⟩ := hr
      exact (length_takeWhile_eq hi (fun j x hj hx => (hlow j x hj hx).le) hhigh).symm
  | ok i =>
      obtain ⟨x, hx, hxv⟩ := hr
      have hi : i < l.length := (List.getElem?_eq_some_iff.mp hx).1
      have hlow : ∀ j y, j ≤ i → l[j]? = some y → v ≤ w y := fun j y hj hy =>
        hxv ▸ h.getElem?_le hj hy hx
      simp only [insertionIndex]
      cases hfind : (l.drop i).findIdx? fun x => w x ≠ v with
      | none =>
          -- the run of equal weights reaches the end of the list
          rw [List.findIdx?_eq_none_iff] at hfind
          refine (length_takeWhile_eq le_rfl (fun j y hj hy => ?_) fun j y hj hy => ?_).symm
          · rcases Nat.lt_or_ge j i with hji | hji
            · exact hlow j y hji.le hy
            · have hmem : y ∈ l.drop i := by
                rw [List.mem_iff_getElem?]
                exact ⟨j - i, by rw [List.getElem?_drop]; simpa [Nat.add_sub_cancel' hji] using hy⟩
              simpa using (by simpa using hfind y hmem : w y = v).ge
          · have := (List.getElem?_eq_some_iff.mp hy).1
            omega
      | some offset =>
          obtain ⟨hoff, hne, heq⟩ := List.findIdx?_eq_some_iff_getElem.mp hfind
          rw [List.length_drop] at hoff
          have hstop : l[i + offset]? = some (l.drop i)[offset] := by
            rw [← List.getElem?_drop, List.getElem?_eq_getElem]
          have hsmall : w (l.drop i)[offset] < v := by
            have hle := h.getElem?_le (by omega) hx hstop
            have : w (l.drop i)[offset] ≠ v := by simpa using hne
            omega
          refine (length_takeWhile_eq (by simp; omega) (fun j y hj hy => ?_)
            fun j y hj hy => ?_).symm
          · rcases Nat.lt_or_ge j i with hji | hji
            · exact hlow j y hji.le hy
            · have hjo : j - i < offset := by simp at hj; omega
              have := heq (j - i) hjo
              have hjl : j - i < (l.drop i).length := by rw [List.length_drop]; omega
              have hget : (l.drop i)[j - i] = y := by
                have h1 : (l.drop i)[j - i]? = some y := by
                  rw [List.getElem?_drop]; simpa [Nat.add_sub_cancel' hji] using hy
                exact (List.getElem?_eq_some_iff.mp h1).2
              simp only [hget] at this
              simpa using (by simpa using this : w y = v).ge
          · exact lt_of_le_of_lt (h.getElem?_le (by simpa using hj) hstop hy) hsmall

/-- Inserting at that index is `rankInsert`. -/
lemma insertIdx_insertionIndex {w : α → ℕ} {x : α} {l : List α} {r : Except ℕ ℕ} (h : Desc w l)
    (hr : IsSearchResult w (w x) l r) :
    l.insertIdx (insertionIndex w (w x) l r) x = rankInsert w x l := by
  rw [insertionIndex_eq h hr, rankInsert]
  have hsplit := List.takeWhile_append_dropWhile (p := fun y => decide (w x ≤ w y)) (l := l)
  generalize l.takeWhile (fun y => decide (w x ≤ w y)) = t at hsplit ⊢
  generalize l.dropWhile (fun y => decide (w x ≤ w y)) = d at hsplit ⊢
  rw [← hsplit]
  clear hsplit
  induction t with
  | nil => simp
  | cons a t ih => simp [ih]

lemma rankInsert_perm (w : α → ℕ) (x : α) (l : List α) : (rankInsert w x l).Perm (x :: l) := by
  have hsplit := List.takeWhile_append_dropWhile (p := fun y => decide (w x ≤ w y)) (l := l)
  refine List.perm_middle.trans ?_
  rw [hsplit]

/-- The place of a new item of weight `v` splits a ranked list into what weighs at least as much
and what weighs less. -/
lemma Desc.split {w : α → ℕ} {l : List α} (h : Desc w l) (v : ℕ) :
    (∀ a ∈ l.takeWhile (fun y => v ≤ w y), v ≤ w a) ∧
      ∀ b ∈ l.dropWhile (fun y => v ≤ w y), w b < v := by
  constructor
  · intro a ha
    simpa using List.mem_takeWhile_imp ha
  · have hd : Desc w (l.dropWhile fun y => v ≤ w y) := h.sublist (List.dropWhile_sublist _)
    cases hdw : l.dropWhile (fun y => decide (v ≤ w y)) with
    | nil => simp
    | cons c d =>
        have hc : w c < v := by
          have := List.head_dropWhile_not (fun y => decide (v ≤ w y)) (l := l) (by simp [hdw])
          simpa [hdw] using this
        rw [hdw] at hd
        intro b hb
        rcases List.mem_cons.mp hb with rfl | hb
        · exact hc
        · exact lt_of_le_of_lt ((List.pairwise_cons.mp hd).1 b hb) hc

lemma Desc.rankInsert {w : α → ℕ} {l : List α} (h : Desc w l) (x : α) :
    Desc w (rankInsert w x l) := by
  obtain ⟨htake, hdrop⟩ := h.split (w x)
  have hsplit := List.takeWhile_append_dropWhile (p := fun y => decide (w x ≤ w y)) (l := l)
  have hdesc : Desc w (l.takeWhile (fun y => decide (w x ≤ w y)) ++
      l.dropWhile fun y => decide (w x ≤ w y)) := by rw [hsplit]; exact h
  obtain ⟨ht, hd, htd⟩ := List.pairwise_append.mp hdesc
  refine List.pairwise_append.mpr ⟨ht, List.pairwise_cons.mpr ⟨?_, hd⟩, ?_⟩
  · intro b hb
    exact (hdrop b hb).le
  · intro a ha b hb
    rcases List.mem_cons.mp hb with rfl | hb
    · exact htake a ha
    · exact htd a ha b hb

/-! ## Stable sorting from greatest to least -/

/-- `slice::sort_by` with the reversed comparison of weights: a stable descending sort. -/
def sortDesc (w : α → ℕ) (l : List α) : List α := l.insertionSort fun a b => w b ≤ w a

lemma sortDesc_perm (w : α → ℕ) (l : List α) : (sortDesc w l).Perm l :=
  List.perm_insertionSort _ l

lemma desc_sortDesc (w : α → ℕ) (l : List α) : Desc w (sortDesc w l) := by
  have : Std.Total fun a b : α => w b ≤ w a := ⟨fun a b => le_total _ _⟩
  have : IsTrans α fun a b => w b ≤ w a := ⟨fun a b c hab hbc => le_trans hbc hab⟩
  exact List.pairwise_insertionSort _ l

/-! ## Ends of a ranked list -/

lemma Desc.head_ge {w : α → ℕ} {a : α} {l : List α} (h : Desc w (a :: l)) :
    ∀ x ∈ a :: l, w x ≤ w a := by
  intro x hx
  rcases List.mem_cons.mp hx with rfl | hx
  · exact le_rfl
  · exact (List.pairwise_cons.mp h).1 x hx

/-- Who comes after the first `n` weighs no more than any of them. -/
lemma Desc.drop_le {w : α → ℕ} {l : List α} (h : Desc w l) {n : ℕ} {x y : α} (hx : x ∈ l.take n)
    (hy : y ∈ l.drop n) : w y ≤ w x := by
  rw [← List.take_append_drop n l] at h
  exact (List.pairwise_append.mp h).2.2 x hx y hy

lemma Desc.filter {w : α → ℕ} {l : List α} (h : Desc w l) (p : α → Bool) : Desc w (l.filter p) :=
  List.Pairwise.filter p h

/-- ... and they are `n`. -/
lemma length_take_of_mem_drop {l : List α} {n : ℕ} {y : α} (hy : y ∈ l.drop n) :
    (l.take n).length = n := by
  have hpos := List.length_pos_of_mem hy
  rw [List.length_drop] at hpos
  rw [List.length_take]
  omega

lemma Desc.last_le {w : α → ℕ} {a : α} {l : List α} (h : Desc w (l ++ [a])) :
    ∀ x ∈ l ++ [a], w a ≤ w x := by
  intro x hx
  rcases List.mem_append.mp hx with hx | hx
  · exact (List.pairwise_append.mp h).2.2 x hx a (by simp)
  · rw [List.mem_singleton.mp hx]

/-! ## Exchanging one item -/

/-- Exchanging one item on a list that stands in front of others. -/
lemma perm_exchange {xs ys rest : List α} {x y : α} (hy : ys.Perm (y :: rest))
    (hx : xs.Perm (x :: rest)) (zs : List α) : ([x] ++ (ys ++ zs)).Perm ([y] ++ (xs ++ zs)) := by
  refine ((hy.append_right zs).cons x).trans ((List.Perm.swap _ _ _).trans (List.Perm.cons y ?_))
  exact hx.symm.append_right zs

/-- Exchanging one item on a list that stands behind others. -/
lemma perm_exchange_right {xs ys rest : List α} {x y : α} (hy : ys.Perm (y :: rest))
    (hx : xs.Perm (x :: rest)) (zs : List α) : ([x] ++ (zs ++ ys)).Perm ([y] ++ (zs ++ xs)) :=
  (List.perm_append_comm.append_left _).trans
    ((perm_exchange hy hx zs).trans (List.perm_append_comm.append_left _))
/-! ## Pairwise distinct keys -/

variable [DecidableEq κ]

/-- Taking out the item of one key is, up to order, taking it off the head. -/
lemma perm_cons_filter {o : α → κ} {l : List α} (hn : (l.map o).Nodup) {x : α} (hx : x ∈ l) :
    l.Perm (x :: l.filter fun y => o y ≠ o x) := by
  obtain ⟨s, t, rfl⟩ := List.append_of_mem hx
  have hne : ∀ y, y ∈ s ∨ y ∈ t → o y ≠ o x := by
    intro y hy heq
    rw [List.map_append, List.map_cons] at hn
    have hperm : (s.map o ++ o x :: t.map o).Perm (o x :: (s.map o ++ t.map o)) :=
      List.perm_middle
    have hnot := (List.nodup_cons.mp (hperm.nodup_iff.mp hn)).1
    refine hnot (heq ▸ ?_)
    rw [← List.map_append]
    exact List.mem_map_of_mem (List.mem_append.mpr hy)
  have hfilter : (s ++ x :: t).filter (fun y => o y ≠ o x) = s ++ t := by
    rw [List.filter_append, List.filter_cons_of_neg (by simp),
      List.filter_eq_self.mpr fun y hy => by simpa using hne y (Or.inl hy),
      List.filter_eq_self.mpr fun y hy => by simpa using hne y (Or.inr hy)]
  rw [hfilter]
  exact List.perm_middle

/-- Rewriting the item of one key is, up to order, exchanging the head. -/
lemma perm_cons_map {o : α → κ} {l : List α} (hn : (l.map o).Nodup) {x : α} (hx : x ∈ l)
    (g : α → α) :
    (l.map fun y => if o y = o x then g y else y).Perm (g x :: l.filter fun y => o y ≠ o x) := by
  refine ((perm_cons_filter hn hx).map _).trans ?_
  rw [List.map_cons, if_pos rfl]
  refine List.Perm.cons _ (List.Perm.of_eq ?_)
  rw [List.map_congr_left (g := id) fun y hy => by
    have : o y ≠ o x := by simpa using (List.mem_filter.mp hy).2
    simp [this]]
  simp

omit [DecidableEq κ] in
/-- With distinct keys an item is determined by its key. -/
lemma eq_of_mem_of_key {o : α → κ} {l : List α} (hn : (l.map o).Nodup) {x y : α} (hx : x ∈ l)
    (hy : y ∈ l) (h : o x = o y) : x = y :=
  List.inj_on_of_nodup_map hn hx hy h

end RankedList
