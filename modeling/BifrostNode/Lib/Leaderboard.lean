import BifrostNode.Lib.RankedList

/-!
# A leaderboard in two tiers

Items with a weight and an owner are kept in two ranked lists of bounded length: a *top* tier and
a *bottom* tier that is used only when the top is full, and in which nothing outweighs the top.
`Tiers` is that shape.  Which items a tier holds matters only up to order, so each rule below
gives the new tiers as ranked lists that are permutations of the expected ones; the rules cover
entering, leaving and changing weight, with the moves across the boundary each of them can cause.
-/

namespace Leaderboard

open RankedList

variable {α κ : Type}

/-- Where owners are distinct, a member is the only one of its owner. -/
lemma filter_owner_eq_singleton [DecidableEq κ] {o : α → κ} {l : List α} (h : (l.map o).Nodup)
    (x : α) : l.filter (fun y => o y = o x) = [x] ↔ x ∈ l := by
  constructor
  · intro hx
    have hmem : x ∈ l.filter fun y => o y = o x := by simp [hx]
    exact (List.mem_filter.mp hmem).1
  · intro hx
    obtain ⟨before, after, rfl⟩ := List.append_of_mem hx
    simp only [List.map_append, List.map_cons, List.nodup_append, List.nodup_cons, List.mem_map,
      List.mem_cons] at h
    obtain ⟨-, ⟨hafter, -⟩, hbefore⟩ := h
    have h₁ : before.filter (fun y => o y = o x) = [] := by
      refine List.filter_eq_nil_iff.mpr fun y hy hyx => ?_
      exact hbefore (o y) ⟨y, hy, rfl⟩ (o x) (Or.inl rfl) (by simpa using hyx)
    have h₂ : after.filter (fun y => o y = o x) = [] := by
      refine List.filter_eq_nil_iff.mpr fun y hy hyx => ?_
      exact hafter ⟨y, hy, by simpa using hyx⟩
    simp [h₁, h₂]

/-- **The shape of a two-tier leaderboard.**  Both tiers are ranked and within their sizes, the
bottom is used only when the top is full, no bottom item outweighs a top item, and every owner
has at most one item. -/
structure Tiers (w : α → ℕ) (o : α → κ) (maxTop maxBottom : ℕ) (top bottom : List α) : Prop where
  top_desc : Desc w top
  bottom_desc : Desc w bottom
  top_le : top.length ≤ maxTop
  bottom_le : bottom.length ≤ maxBottom
  full : bottom ≠ [] → top.length = maxTop
  order : ∀ b ∈ bottom, ∀ t ∈ top, w b ≤ w t
  nodup : ((top ++ bottom).map o).Nodup

namespace Tiers

variable {w : α → ℕ} {o : α → κ} {maxTop maxBottom : ℕ} {top bottom top' bottom' : List α}

/-- The empty leaderboard. -/
lemma nil : Tiers w o maxTop maxBottom [] [] :=
  ⟨List.Pairwise.nil, List.Pairwise.nil, Nat.zero_le _, Nat.zero_le _, fun h => absurd rfl h,
    by simp, by simp⟩

/-- Beyond ranking, the shape depends only on which items each tier holds. -/
lemma of_perm {xs ys : List α} (ht : Desc w top') (hb : Desc w bottom') (hxs : top'.Perm xs)
    (hys : bottom'.Perm ys) (hlx : xs.length ≤ maxTop) (hly : ys.length ≤ maxBottom)
    (hfull : ys ≠ [] → xs.length = maxTop) (horder : ∀ b ∈ ys, ∀ t ∈ xs, w b ≤ w t)
    (hnodup : ((xs ++ ys).map o).Nodup) : Tiers w o maxTop maxBottom top' bottom' where
  top_desc := ht
  bottom_desc := hb
  top_le := hxs.length_eq ▸ hlx
  bottom_le := hys.length_eq ▸ hly
  full := fun h => hxs.length_eq ▸ hfull fun hy => h (List.perm_nil.mp (hy ▸ hys))
  order := fun b hb t ht => horder b (hys.mem_iff.mp hb) t (hxs.mem_iff.mp ht)
  nodup := ((hxs.append hys).map o).nodup_iff.mpr hnodup

/-- While there is room at the top, nobody is at the bottom. -/
lemma bottom_eq_nil (h : Tiers w o maxTop maxBottom top bottom) (hlt : top.length < maxTop) :
    bottom = [] := by
  by_contra hne
  have := h.full hne
  omega

lemma nodup_top (h : Tiers w o maxTop maxBottom top bottom) : (top.map o).Nodup :=
  (List.nodup_append.mp (by simpa using h.nodup)).1

lemma nodup_bottom (h : Tiers w o maxTop maxBottom top bottom) : (bottom.map o).Nodup :=
  (List.nodup_append.mp (by simpa using h.nodup)).2.1

/-- No owner is in both tiers. -/
lemma owner_ne (h : Tiers w o maxTop maxBottom top bottom) {x y : α} (hx : x ∈ top)
    (hy : y ∈ bottom) : o x ≠ o y := by
  have hn := h.nodup
  rw [List.map_append] at hn
  exact (List.nodup_append.mp hn).2.2 _ (List.mem_map_of_mem hx) _ (List.mem_map_of_mem hy)

/-- An item among both tiers is determined by its owner. -/
lemma eq_of_owner (h : Tiers w o maxTop maxBottom top bottom) {x y : α} (hx : x ∈ top ++ bottom)
    (hy : y ∈ top ++ bottom) (ho : o x = o y) : x = y :=
  eq_of_mem_of_key h.nodup hx hy ho

/-! ## Entering -/

/-- A newcomer takes a free place at the top. -/
lemma enterTop (h : Tiers w o maxTop maxBottom top bottom) {x : α} (hlt : top.length < maxTop)
    (hx : ∀ y ∈ top ++ bottom, o y ≠ o x) :
    Tiers w o maxTop maxBottom (rankInsert w x top) bottom := by
  obtain rfl := h.bottom_eq_nil hlt
  refine of_perm (h.top_desc.rankInsert x) h.bottom_desc (rankInsert_perm w x top)
    (List.Perm.refl _) (by simpa using hlt) (by simp) (by simp) (by simp) ?_
  have := h.nodup
  simp only [List.append_nil, List.map_cons, List.nodup_cons, List.mem_map] at this hx ⊢
  exact ⟨fun ⟨y, hy, he⟩ => hx y hy he, this⟩

/-- A newcomer at the bottom, where there is room. -/
lemma enterBottom (h : Tiers w o maxTop maxBottom top bottom) {x : α}
    (hroom : bottom.length < maxBottom) (hfull : top.length = maxTop)
    (hle : ∀ t ∈ top, w x ≤ w t) (hx : ∀ y ∈ top ++ bottom, o y ≠ o x) :
    Tiers w o maxTop maxBottom top (rankInsert w x bottom) := by
  refine of_perm h.top_desc (h.bottom_desc.rankInsert x) (List.Perm.refl _)
    (rankInsert_perm w x bottom) h.top_le (by simpa using hroom) (fun _ => hfull) ?_ ?_
  · intro b hb t ht
    rcases List.mem_cons.mp hb with rfl | hb
    · exact hle t ht
    · exact h.order b hb t ht
  · refine (List.perm_middle.map o).nodup_iff.mpr ?_
    rw [List.map_cons, List.nodup_cons]
    refine ⟨?_, h.nodup⟩
    rw [List.mem_map]
    rintro ⟨y, hy, he⟩
    exact hx y hy he

/-- The last of the bottom may go. -/
lemma dropLowest (h : Tiers w o maxTop maxBottom top bottom) :
    Tiers w o maxTop maxBottom top bottom.dropLast where
  top_desc := h.top_desc
  bottom_desc := h.bottom_desc.sublist (List.dropLast_sublist _)
  top_le := h.top_le
  bottom_le := (List.dropLast_sublist _).length_le.trans h.bottom_le
  full := fun hne => h.full (by rintro rfl; simp at hne)
  order := fun b hb => h.order b (List.dropLast_subset _ hb)
  nodup := h.nodup.sublist (((List.Sublist.refl _).append (List.dropLast_sublist _)).map o)

/-- The last of the top moves to the bottom, where there is room, and a heavier newcomer takes
its place. -/
lemma bump {t : List α} {x y : α} (h : Tiers w o maxTop maxBottom (t ++ [y]) bottom)
    (hroom : bottom.length < maxBottom) (hfull : (t ++ [y]).length = maxTop) (hlt : w y < w x)
    (hx : ∀ z ∈ (t ++ [y]) ++ bottom, o z ≠ o x) :
    Tiers w o maxTop maxBottom (rankInsert w x t) (rankInsert w y bottom) := by
  have ht : Desc w t := h.top_desc.sublist (List.sublist_append_left _ _)
  have hy : ∀ z ∈ t, w y ≤ w z := fun z hz =>
    h.top_desc.last_le z (List.mem_append_left _ hz)
  refine of_perm (ht.rankInsert x) (h.bottom_desc.rankInsert y) (rankInsert_perm w x t)
    (rankInsert_perm w y bottom) (by simpa using hfull.le) (by simpa using hroom)
    (fun _ => by simpa using hfull) ?_ ?_
  · intro b hb z hz
    have hby : w b ≤ w y := by
      rcases List.mem_cons.mp hb with rfl | hb
      · exact le_rfl
      · exact h.order b hb y (by simp)
    rcases List.mem_cons.mp hz with rfl | hz
    · omega
    · exact hby.trans (hy z hz)
  · have hperm : (x :: t ++ y :: bottom).Perm (x :: ((t ++ [y]) ++ bottom)) := by simp
    refine (hperm.map o).nodup_iff.mpr ?_
    rw [List.map_cons, List.nodup_cons]
    refine ⟨?_, h.nodup⟩
    rw [List.mem_map]
    rintro ⟨z, hz, he⟩
    exact hx z hz he

/-! ## Leaving -/

/-- Whoever leaves the top while the bottom is empty is not replaced. -/
lemma leaveTop (h : Tiers w o maxTop maxBottom top []) (p : α → Bool) :
    Tiers w o maxTop maxBottom (top.filter p) [] where
  top_desc := h.top_desc.sublist List.filter_sublist
  bottom_desc := h.bottom_desc
  top_le := List.filter_sublist.length_le.trans h.top_le
  bottom_le := h.bottom_le
  full := fun hne => absurd rfl hne
  order := by simp
  nodup := by
    rw [List.append_nil]
    exact h.nodup_top.sublist (List.filter_sublist.map o)

/-- Whoever leaves the bottom leaves the two tiers in order. -/
lemma leaveBottom (h : Tiers w o maxTop maxBottom top bottom) (p : α → Bool) :
    Tiers w o maxTop maxBottom top (bottom.filter p) where
  top_desc := h.top_desc
  bottom_desc := h.bottom_desc.sublist List.filter_sublist
  top_le := h.top_le
  bottom_le := List.filter_sublist.length_le.trans h.bottom_le
  full := fun hne => h.full (by rintro rfl; simp at hne)
  order := fun b hb => h.order b (List.mem_filter.mp hb).1
  nodup := h.nodup.sublist (((List.Sublist.refl _).append List.filter_sublist).map o)

section Keyed

variable [DecidableEq κ]

/-- Whoever leaves the top is replaced by the first of the bottom. -/
lemma promote {x y : α} (h : Tiers w o maxTop maxBottom top (y :: bottom)) (hx : x ∈ top) :
    Tiers w o maxTop maxBottom (rankInsert w y (top.filter fun z => o z ≠ o x)) bottom := by
  have hperm := perm_cons_filter h.nodup_top hx
  have hlen := hperm.length_eq
  have hfull := h.full (by simp)
  have hsub : ∀ z ∈ top.filter (fun z => o z ≠ o x), z ∈ top := fun z hz =>
    (List.mem_filter.mp hz).1
  have hdesc : Desc w (top.filter fun z => o z ≠ o x) := h.top_desc.sublist List.filter_sublist
  refine of_perm (hdesc.rankInsert y)
    (List.pairwise_cons.mp h.bottom_desc).2 (rankInsert_perm w y _) (List.Perm.refl _)
    (by simp at hlen ⊢; omega) ?_ (fun _ => by simp at hlen ⊢; omega) ?_ ?_
  · have := h.bottom_le
    simp at this
    omega
  · intro b hb t ht
    rcases List.mem_cons.mp ht with rfl | ht
    · exact h.bottom_desc.head_ge b (List.mem_cons_of_mem _ hb)
    · exact h.order b (List.mem_cons_of_mem _ hb) t (hsub t ht)
  · have hnodup : ((top.filter (fun z => o z ≠ o x) ++ y :: bottom).map o).Nodup :=
      h.nodup.sublist ((List.filter_sublist.append (List.Sublist.refl _)).map o)
    have hmid : (y :: top.filter (fun z => o z ≠ o x) ++ bottom).Perm
        (top.filter (fun z => o z ≠ o x) ++ y :: bottom) := List.perm_middle.symm
    exact (hmid.map o).nodup_iff.mpr hnodup

/-! ## Changing weight -/

/-- Owners after the item of one owner was rewritten. -/
lemma nodup_rewrite {l r : List α} {x x' : α} (ho : o x' = o x) (hx : x ∈ l)
    (hn : ((l ++ r).map o).Nodup) :
    (((x' :: l.filter fun z => o z ≠ o x) ++ r).map o).Nodup := by
  have hl : (l.map o).Nodup := (List.nodup_append.mp (by simpa using hn)).1
  have hperm := ((perm_cons_filter hl hx).append_right r).map o
  have := hperm.nodup_iff.mp hn
  simpa [ho] using this

/-- A top item changes weight and stays: it still weighs at least as much as the bottom. -/
lemma reweighTop (h : Tiers w o maxTop maxBottom top bottom) {x : α} {g : α → α} (hx : x ∈ top)
    (ho : o (g x) = o x) (hge : ∀ b ∈ bottom, w b ≤ w (g x)) :
    Tiers w o maxTop maxBottom
      (sortDesc w (top.map fun z => if o z = o x then g z else z)) bottom := by
  have hperm := perm_cons_filter h.nodup_top hx
  have hlen : (g x :: top.filter fun z => o z ≠ o x).length = top.length := by
    simpa using hperm.length_eq.symm
  refine of_perm (desc_sortDesc w _) h.bottom_desc
    ((sortDesc_perm w _).trans (perm_cons_map h.nodup_top hx g)) (List.Perm.refl _)
    (hlen ▸ h.top_le) h.bottom_le (fun hne => hlen ▸ h.full hne) ?_
    (nodup_rewrite ho hx h.nodup)
  intro b hb t ht
  rcases List.mem_cons.mp ht with rfl | ht
  · exact hge b hb
  · exact h.order b hb t (List.mem_filter.mp ht).1

/-- A bottom item changes weight and stays: it still weighs at most as much as the top. -/
lemma reweighBottom (h : Tiers w o maxTop maxBottom top bottom) {x : α} {g : α → α}
    (hx : x ∈ bottom) (ho : o (g x) = o x) (hle : ∀ t ∈ top, w (g x) ≤ w t) :
    Tiers w o maxTop maxBottom top
      (sortDesc w (bottom.map fun z => if o z = o x then g z else z)) := by
  have hperm := perm_cons_filter h.nodup_bottom hx
  have hlen : (g x :: bottom.filter fun z => o z ≠ o x).length = bottom.length := by
    simpa using hperm.length_eq.symm
  refine of_perm h.top_desc (desc_sortDesc w _) (List.Perm.refl _)
    ((sortDesc_perm w _).trans (perm_cons_map h.nodup_bottom hx g)) h.top_le
    (hlen ▸ h.bottom_le) (fun _ => h.full (List.ne_nil_of_mem hx)) ?_ ?_
  · intro b hb t ht
    rcases List.mem_cons.mp hb with rfl | hb
    · exact hle t ht
    · exact h.order b (List.mem_filter.mp hb).1 t ht
  · have hswap : ((bottom ++ top).map o).Nodup :=
      (List.perm_append_comm.map o).nodup_iff.mp h.nodup
    exact (List.perm_append_comm.map o).nodup_iff.mp (nodup_rewrite ho hx hswap)

/-- A bottom item becomes heavier than the last of the top and trades places with it. -/
lemma overtake {t : List α} {x x' y : α} (h : Tiers w o maxTop maxBottom (t ++ [y]) bottom)
    (hx : x ∈ bottom) (ho : o x' = o x) (hlt : w y < w x') :
    Tiers w o maxTop maxBottom (rankInsert w x' t)
      (rankInsert w y (bottom.filter fun z => o z ≠ o x)) := by
  have hlen := (perm_cons_filter h.nodup_bottom hx).length_eq
  have hfull := h.full (List.ne_nil_of_mem hx)
  have hgone : Tiers w o maxTop maxBottom (t ++ [y]) (bottom.filter fun z => o z ≠ o x) :=
    h.leaveBottom _
  refine hgone.bump ?_ hfull hlt ?_
  · have := h.bottom_le
    rw [List.length_cons] at hlen
    omega
  · intro z hz he
    rcases List.mem_append.mp hz with hz | hz
    · exact h.owner_ne hz hx (he.trans ho)
    · have := (List.mem_filter.mp hz).2
      simp [he, ho] at this

/-- A top item becomes lighter than the first of the bottom and trades places with it. -/
lemma fallBehind {x x' y : α} (h : Tiers w o maxTop maxBottom top (y :: bottom)) (hx : x ∈ top)
    (ho : o x' = o x) (hlt : w x' < w y) :
    Tiers w o maxTop maxBottom (rankInsert w y (top.filter fun z => o z ≠ o x))
      (rankInsert w x' bottom) := by
  have hup := h.promote hx
  have hlen := (perm_cons_filter h.nodup_top hx).length_eq
  have hfull := h.full (by simp)
  have hperm := rankInsert_perm w y (top.filter fun z => o z ≠ o x)
  refine hup.enterBottom ?_ ?_ ?_ ?_
  · have := h.bottom_le
    simp at this
    omega
  · rw [hperm.length_eq, ← hfull, hlen]
    simp
  · intro t ht
    rcases List.mem_cons.mp (hperm.mem_iff.mp ht) with rfl | ht
    · exact hlt.le
    · have := h.order y (by simp) t (List.mem_filter.mp ht).1
      omega
  · -- the owner that fell is in neither of the shortened tiers
    have hback : ∀ z ∈ y :: bottom, o z ≠ o x := fun z hz => (h.owner_ne hx hz).symm
    intro z hz he
    rw [ho] at he
    rcases List.mem_append.mp hz with hz | hz
    · rcases List.mem_cons.mp (hperm.mem_iff.mp hz) with rfl | hz
      · exact hback z (by simp) he
      · have := (List.mem_filter.mp hz).2
        simp [he] at this
    · exact hback z (List.mem_cons_of_mem _ hz) he

end Keyed

end Tiers

end Leaderboard
