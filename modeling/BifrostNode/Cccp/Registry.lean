import BifrostNode.Cccp.QueueSpec

/-!
# The registry of the assets

An asset has a cap, and indexes under which transfers find it; every index has a hook state.

**Three maps, three calls.**  The indexes and their hook states have the same keys, and an index leads to
an asset that has a cap (`RegistryInv`).

**Two gaps.**  `add_asset` takes a cap of zero, and `update_asset` changes the hook state of an index
whatever asset it belongs to.  Where neither happens the registry is as it should be
(`registry_sound`).
-/

namespace BifrostNode.Cccp

open Staking Transition StorageMap

variable {AccountId : Type}

/-- **The invariant** of the registry. -/
structure RegistryInv (s : RelayQueue AccountId) : Prop where
  keys : ∀ k, (s.assetIndexes.get k).isSome = (s.assetIndexesHookState.get k).isSome
  assets : ∀ k a, s.assetIndexes.get k = some a → (s.assetCaps.get a).isSome = true
  caps : ∀ a cap, s.assetCaps.get a = some cap →
    0 < cap.maxOnFlightCap ∧ cap.maxOnFlightCap ≤ maxOnFlightCap

/-- The indexes of other assets are left alone. -/
def LeavesOthers (a : H160) (s s' : RelayQueue AccountId) : Prop :=
  ∀ k b, s.assetIndexes.get k = some b → b ≠ a →
    s'.assetIndexes.get k = some b ∧ s'.assetIndexesHookState.get k = s.assetIndexesHookState.get k

section Calls

variable {s t s' : RelayQueue AccountId} {a : H160}

/-- The cap of an asset is written. -/
lemma RegistryInv.cap (hs : RegistryInv s) {cap : AssetCapInfo} (hpos : 0 < cap.maxOnFlightCap)
    (hmax : cap.maxOnFlightCap ≤ maxOnFlightCap) (hi : s'.assetIndexes = s.assetIndexes)
    (hh : s'.assetIndexesHookState = s.assetIndexesHookState)
    (hc : s'.assetCaps = s.assetCaps.insert a cap) : RegistryInv s' := by
  refine ⟨?_, fun k b hk => ?_, fun b cap' hb => ?_⟩
  · rw [hi, hh]
    exact hs.keys
  · rw [hi] at hk
    rw [hc, get_insert]
    split_ifs
    · rfl
    · exact hs.assets k b hk
  · rw [hc, get_insert] at hb
    split_ifs at hb
    · obtain rfl := Option.some.inj hb
      exact ⟨hpos, hmax⟩
    · exact hs.caps b cap' hb

lemma RegistryInv.same (hs : RegistryInv s) (hi : s'.assetIndexes = s.assetIndexes)
    (hh : s'.assetIndexesHookState = s.assetIndexesHookState) (hc : s'.assetCaps = s.assetCaps) :
    RegistryInv s' := by
  refine ⟨?_, ?_, ?_⟩
  · rw [hi, hh]
    exact hs.keys
  · rw [hi, hc]
    exact hs.assets
  · rw [hc]
    exact hs.caps

/-- Indexes are written for an asset that has a cap. -/
lemma RegistryInv.putIndexes (hs : RegistryInv s) (ha : (s.assetCaps.get a).isSome = true)
    (indexes : List AssetIndexInfo) : RegistryInv (s.putIndexes a indexes) := by
  have hget : ∀ k, (s.putIndexes a indexes).assetIndexes.get k =
      if k ∈ indexes.map AssetIndexInfo.hash then some a else s.assetIndexes.get k :=
    get_foldl_insert AssetIndexInfo.hash a indexes s.assetIndexes
  refine ⟨fun k => ?_, fun k b hk => ?_, hs.caps⟩
  · simp only [RelayQueue.putIndexes]
    rw [isSome_foldl_insert AssetIndexInfo.hash fun _ => a,
      isSome_foldl_insert AssetIndexInfo.hash AssetIndexInfo.isHookable, hs.keys k]
  · rw [hget] at hk
    split_ifs at hk
    · obtain rfl := Option.some.inj hk
      exact ha
    · exact hs.assets k b hk

/-- Indexes are removed, and perhaps an asset that has no others. -/
lemma RegistryInv.removeIndexes (hs : RegistryInv s) (indexes : List H256)
    (hi : s'.assetIndexes = indexes.foldl StorageMap.remove s.assetIndexes)
    (hh : s'.assetIndexesHookState = indexes.foldl StorageMap.remove s.assetIndexesHookState)
    (hc : ∀ b cap, s'.assetCaps.get b = some cap → s.assetCaps.get b = some cap)
    (hkept : ∀ k b, k ∉ indexes → s.assetIndexes.get k = some b →
      (s'.assetCaps.get b).isSome = true) : RegistryInv s' := by
  refine ⟨fun k => ?_, fun k b hk => ?_, fun b cap hb => hs.caps b cap (hc b cap hb)⟩
  · rw [hi, hh, get_foldl_remove, get_foldl_remove]
    split_ifs
    · rfl
    · exact hs.keys k
  · rw [hi, get_foldl_remove] at hk
    split_ifs at hk with hmem
    exact hkept k b hmem hk

lemma RegistryInv.addAsset (hs : RegistryInv s) {origin : Origin AccountId} {max : ℕ}
    {indexes : List AssetIndexInfo} (hpos : 0 < max)
    (h : s.addAsset origin a max indexes = .ok s') : RegistryInv s' := by
  simp only [RelayQueue.addAsset, bind_eq_ok, ensure_eq_ok, pure_eq_ok, exists_const] at h
  obtain ⟨-, -, -, hmax, -, -, -, rfl⟩ := h
  have hcap : RegistryInv { s with assetCaps := s.assetCaps.insert a ⟨max, 0⟩ } :=
    hs.cap hpos hmax rfl rfl rfl
  refine hcap.putIndexes ?_ indexes
  simp

lemma RegistryInv.removeAsset (hs : RegistryInv s) {origin : Origin AccountId}
    (h : s.removeAsset origin a = .ok s') : RegistryInv s' := by
  simp only [RelayQueue.removeAsset, bind_eq_ok, ensure_eq_ok, pure_eq_ok, exists_const] at h
  obtain ⟨-, -, -, rfl⟩ := h
  refine hs.removeIndexes _ rfl rfl (fun b cap hb => ?_) fun k b hnot hk => ?_
  · simp only [RelayQueue.removeIndexes, get_remove] at hb
    split_ifs at hb
    exact hb
  · -- an index that stays belongs to another asset
    have hne : b ≠ a := by
      rintro rfl
      refine hnot (List.mem_map.mpr ⟨(k, b), List.mem_filter.mpr ⟨mem_toList.mpr hk, ?_⟩, rfl⟩)
      simp
    simp only [RelayQueue.removeIndexes, get_remove_of_ne _ hne]
    exact hs.assets k b hk

/-! ## `update_asset` -/

/-- What `update_asset` keeps on its way. -/
structure Updating (a : H160) (s t : RelayQueue AccountId) : Prop where
  inv : RegistryInv t
  asset : (t.assetCaps.get a).isSome = true
  others : LeavesOthers a s t

lemma Updating.updateCap {cap : AssetCapInfo} {new : Option ℕ} (hs : RegistryInv s)
    (hcap : s.assetCaps.get a = some cap) (h : s.updateCap a cap new = .ok t) : Updating a s t := by
  cases new with
  | none =>
      simp only [RelayQueue.updateCap, pure_eq_ok] at h
      subst h
      exact ⟨hs, by simp [hcap], fun k b hk _ => ⟨hk, rfl⟩⟩
  | some new =>
      simp only [RelayQueue.updateCap, bind_eq_ok, ensure_eq_ok, pure_eq_ok, exists_const] at h
      obtain ⟨-, hpos, hmax, -, rfl⟩ := h
      refine ⟨hs.cap ?_ ?_ rfl rfl rfl, by simp, fun k b hk _ => ⟨hk, rfl⟩⟩
      · exact hpos
      · exact hmax

/-- A new index was not there. -/
lemma Updating.addIndexes {add : List AssetIndexInfo} (ht : Updating a s t)
    (h : add.foldlM (RelayQueue.addIndex a) t = .ok s') : Updating a s s' := by
  refine Returns.foldlM (P := Updating a s) (fun t i ht t' ht' => ?_) ht s' h
  simp only [RelayQueue.addIndex, bind_eq_ok, ensure_eq_ok, pure_eq_ok, exists_const] at ht'
  obtain ⟨hfree, -, rfl⟩ := ht'
  have hfree := not_contains.mp hfree
  refine ⟨ht.inv.putIndexes ht.asset [i], ht.asset, fun k b hk hne => ?_⟩
  obtain ⟨hindex, hhook⟩ := ht.others k b hk hne
  have hnot : k ≠ i.hash := by
    rintro rfl
    rw [hfree] at hindex
    cases hindex
  refine ⟨?_, ?_⟩
  · exact (get_insert_of_ne _ hnot _).trans hindex
  · exact (get_insert_of_ne _ hnot _).trans hhook

/-- The changed indexes are there, and only their hook states change. -/
lemma updateIndexes_ok {update : List AssetIndexInfo} (h : update.foldlM RelayQueue.updateIndex t = .ok s') :
    s' = { t with
        assetIndexesHookState :=
          update.foldl (fun m i => m.insert i.hash i.isHookable) t.assetIndexesHookState } ∧
      ∀ i ∈ update, (t.assetIndexes.get i.hash).isSome = true := by
  induction update generalizing t with
  | nil =>
      simp only [List.foldlM_nil, pure_eq_ok] at h
      subst h
      exact ⟨rfl, fun i hi => absurd hi List.not_mem_nil⟩
  | cons i update ih =>
      simp only [List.foldlM_cons, bind_eq_ok] at h
      obtain ⟨t₁, h₁, h⟩ := h
      simp only [RelayQueue.updateIndex, bind_eq_ok, ensure_eq_ok, pure_eq_ok, exists_const] at h₁
      obtain ⟨hindex, -, rfl⟩ := h₁
      obtain ⟨rfl, hall⟩ := ih h
      refine ⟨rfl, fun j hj => ?_⟩
      rcases List.mem_cons.mp hj with rfl | hj
      · exact hindex
      · exact hall j hj

lemma Updating.updateIndexes {update : List AssetIndexInfo} (ht : Updating a s t)
    (hown : ∀ i ∈ update, s.assetIndexes.get i.hash = none ∨ s.assetIndexes.get i.hash = some a)
    (h : update.foldlM RelayQueue.updateIndex t = .ok s') : Updating a s s' := by
  obtain ⟨rfl, hall⟩ := updateIndexes_ok h
  refine ⟨⟨fun k => ?_, ht.inv.assets, ht.inv.caps⟩, ht.asset, fun k b hk hne => ?_⟩
  · rw [isSome_foldl_insert AssetIndexInfo.hash AssetIndexInfo.isHookable, ← ht.inv.keys k]
    by_cases hmem : k ∈ update.map AssetIndexInfo.hash
    · obtain ⟨i, hi, rfl⟩ := List.mem_map.mp hmem
      simp [hall i hi]
    · simp [hmem]
  · obtain ⟨hindex, hhook⟩ := ht.others k b hk hne
    refine ⟨hindex, ?_⟩
    have hnot : k ∉ update.map AssetIndexInfo.hash := by
      intro hmem
      obtain ⟨i, hi, rfl⟩ := List.mem_map.mp hmem
      rcases hown i hi with hnone | hsome
      · rw [hnone] at hk
        cases hk
      · rw [hsome] at hk
        exact hne (Option.some.inj hk).symm
    exact (get_foldl_insert_of_notMem AssetIndexInfo.hash AssetIndexInfo.isHookable _ _ hnot).trans hhook

/-- The removed indexes belong to the asset. -/
lemma dropIndexes_ok {indexes : List H256} (h : t.dropIndexes a indexes = .ok s') :
    s' = t.removeIndexes indexes ∧ ∀ k ∈ indexes, t.assetIndexes.get k = some a := by
  simp only [RelayQueue.dropIndexes, bind_eq_ok, ensure_eq_ok, pure_eq_ok, exists_const] at h
  obtain ⟨u, hloop, -, rfl⟩ := h
  refine ⟨rfl, ?_⟩
  -- the loop only checks
  induction indexes with
  | nil => exact fun k hk => absurd hk List.not_mem_nil
  | cons index indexes ih =>
      simp only [List.forIn_cons, bind_eq_ok, okOr_eq_ok, ensure_eq_ok, pure_eq_ok,
        exists_const] at hloop
      obtain ⟨step, ⟨found, hfound, rfl, rfl⟩, hloop⟩ := hloop
      intro k hk
      rcases List.mem_cons.mp hk with rfl | hk
      · exact hfound
      · exact ih hloop k hk

lemma Updating.dropIndexes {indexes : List H256} (ht : Updating a s t)
    (h : t.dropIndexes a indexes = .ok s') : Updating a s s' := by
  obtain ⟨rfl, hall⟩ := dropIndexes_ok h
  refine ⟨ht.inv.removeIndexes indexes rfl rfl (fun _ _ hc => hc) fun k b _ hk =>
    ht.inv.assets k b hk, ht.asset, fun k b hk hne => ?_⟩
  obtain ⟨hindex, hhook⟩ := ht.others k b hk hne
  have hnot : k ∉ indexes := by
    intro hmem
    exact hne (Option.some.inj (hindex.symm.trans (hall k hmem)))
  refine ⟨?_, ?_⟩
  · simp only [RelayQueue.removeIndexes]
    rw [get_foldl_remove, if_neg hnot]
    exact hindex
  · simp only [RelayQueue.removeIndexes]
    rw [get_foldl_remove, if_neg hnot]
    exact hhook

/-- **`update_asset`**, where the changed indexes belong to the asset. -/
lemma RegistryInv.updateAsset (hs : RegistryInv s) {origin : Origin AccountId} {new : Option ℕ}
    {add update : Option (List AssetIndexInfo)} {remove : Option (List H256)}
    (hown : ∀ i ∈ update.getD [], s.assetIndexes.get i.hash = none ∨
      s.assetIndexes.get i.hash = some a)
    (h : s.updateAsset origin a new add update remove = .ok s') :
    RegistryInv s' ∧ LeavesOthers a s s' := by
  simp only [RelayQueue.updateAsset, bind_eq_ok, ensure_eq_ok, okOr_eq_ok, exists_const] at h
  obtain ⟨-, -, -, -, -, -, -, -, -, -, cap, hcap, s₁, h₁, s₂, h₂, s₃, h₃, h⟩ := h
  have hupdated : Updating a s s' :=
    (((Updating.updateCap hs hcap h₁).addIndexes h₂).updateIndexes hown h₃).dropIndexes h
  exact ⟨hupdated.inv, hupdated.others⟩

end Calls

/-! ## Steps -/

/-- An asset gets a cap, and its own hook states, by the calls that succeed. -/
def Step.Proper (s : RelayQueue AccountId) : Step AccountId → Prop
  | .addAsset origin assetId maxOnFlightCap indexes =>
      IfOk (s.addAsset origin assetId maxOnFlightCap indexes) (0 < maxOnFlightCap)
  | .updateAsset origin assetId new add update remove =>
      IfOk (s.updateAsset origin assetId new add update remove)
        (∀ i ∈ update.getD [], s.assetIndexes.get i.hash = none ∨
          s.assetIndexes.get i.hash = some assetId)
  | _ => True

instance (s : RelayQueue AccountId) (i : Step AccountId) : Decidable (i.Proper s) :=
  match i with
  | .addAsset _ _ _ _ | .updateAsset _ _ _ _ _ _ => inferInstanceAs (Decidable (IfOk _ _))
  | .onFlightPoll _ _ | .finalizePoll _ _ | .setSocket _ _ | .removeAsset _ _
  | .replaceAuthority _ _ => .isTrue trivial

section Steps

variable [LinearOrder AccountId] {host : Host} {s s' : RelayQueue AccountId} {i : Step AccountId}

omit [LinearOrder AccountId] in
/-- Polls change how much of a cap is taken up, and nothing else. -/
lemma RegistryInv.taken (hs : RegistryInv s) {a : H160} {cap : AssetCapInfo} {n : ℕ}
    (hcap : s.assetCaps.get a = some cap) (hi : s'.assetIndexes = s.assetIndexes)
    (hh : s'.assetIndexesHookState = s.assetIndexesHookState)
    (hc : s'.assetCaps = s.assetCaps.insert a { cap with onFlightCap := n }) : RegistryInv s' := by
  obtain ⟨hpos, hmax⟩ := hs.caps a cap hcap
  refine hs.cap ?_ ?_ hi hh hc
  · exact hpos
  · exact hmax

/-- **Every step** that is proper keeps the registry in order. -/
lemma RegistryInv.step (hs : RegistryInv s) (hproper : i.Proper s) (h : s.step host i = some s') :
    RegistryInv s' := by
  cases i with
  | onFlightPoll o sub =>
      obtain rfl := Option.some.inj h
      refine commit_induction (P := RegistryInv) hs fun t ht => ?_
      obtain ⟨parsed, info, hp, ⟨-, s₁, htake, rfl⟩ | ⟨-, rfl⟩⟩ := onFlightPoll_ok ht
      · have hs₁ : RegistryInv s₁ := by
          rcases takeCap_ok hp.option_eq htake with ⟨-, rfl⟩ | ⟨-, assetId, cap, -, hcap, -, rfl⟩
          · exact hs
          · exact hs.taken hcap rfl rfl rfl
        exact hs₁.same rfl rfl rfl
      · exact hs.same rfl rfl rfl
  | finalizePoll o sub =>
      obtain rfl := Option.some.inj h
      refine commit_induction (P := RegistryInv) hs fun t ht => ?_
      obtain ⟨parsed, transfer, -, ⟨hfinal, -⟩ | ⟨-, rfl⟩⟩ := finalizePoll_ok ht
      · obtain ⟨caps, rfl, ⟨rfl, -⟩ | ⟨-, assetId, cap, -, hcap, -, rfl⟩⟩ := finalize_ok hfinal
        · exact hs.same rfl rfl rfl
        · exact hs.taken hcap rfl rfl rfl
      · exact hs.same rfl rfl rfl
  | setSocket origin new =>
      obtain rfl := Option.some.inj h
      refine commit_induction (P := RegistryInv) hs fun t ht => ?_
      simp only [RelayQueue.setSocket, bind_eq_ok, ensure_eq_ok, pure_eq_ok, exists_const] at ht
      obtain ⟨-, -, rfl⟩ := ht
      exact hs.same rfl rfl rfl
  | addAsset origin assetId max indexes =>
      obtain rfl := Option.some.inj h
      exact commit_induction (P := RegistryInv) hs fun t ht =>
        hs.addAsset (IfOk.of_ok hproper ht) ht
  | removeAsset origin assetId =>
      obtain rfl := Option.some.inj h
      exact commit_induction (P := RegistryInv) hs fun t ht => hs.removeAsset ht
  | updateAsset origin assetId new add update remove =>
      obtain rfl := Option.some.inj h
      exact commit_induction (P := RegistryInv) hs fun t ht =>
        (hs.updateAsset (IfOk.of_ok hproper ht) ht).1
  | replaceAuthority old new =>
      obtain rfl := Option.some.inj h
      exact hs.same rfl rfl rfl

lemma ReachableIf.registryInv (h : ReachableIf host (fun s i => i.Proper s) s) : RegistryInv s := by
  refine Reachable.invariant (P := RegistryInv) ?_ ?_ h
  · rintro s rfl
    refine ⟨fun k => rfl, fun k a hk => ?_, fun a cap hc => ?_⟩
    · cases hk
    · cases hc
  · intro s i s' hs hproper hstep
    exact hs.step hproper hstep

/-- **The registry is sound**, in every run in which assets get a cap and `update_asset` is given its
own indexes to change: the maps agree, the caps are in their range, and `update_asset` leaves the
indexes of other assets alone. -/
theorem registry_sound (h : ReachableIf host (fun s i => i.Proper s) s) :
    s.assetIndexes.keys = s.assetIndexesHookState.keys ∧
    (∀ k a, s.assetIndexes.get k = some a → a ∈ s.assetCaps.keys) ∧
    (∀ a cap, s.assetCaps.get a = some cap →
      0 < cap.maxOnFlightCap ∧ cap.maxOnFlightCap ≤ maxOnFlightCap) ∧
    ∀ origin a new add update remove s',
      Step.Proper s (.updateAsset origin a new add update remove) →
      s.updateAsset origin a new add update remove = .ok s' →
      ∀ k b, s.assetIndexes.get k = some b → b ≠ a → s'.assetIndexes.get k = some b ∧
        s'.assetIndexesHookState.get k = s.assetIndexesHookState.get k := by
  have hinv := h.registryInv
  refine ⟨?_, fun k a hk => ?_, hinv.caps, fun origin a new add update remove s' hown hcall => ?_⟩
  · ext k
    rw [StorageMap.mem_keys, StorageMap.mem_keys, hinv.keys k]
  · rw [StorageMap.mem_keys]
    exact hinv.assets k a hk
  · exact (hinv.updateAsset (IfOk.of_ok hown hcall) hcall).2

end Steps

/-! ## Small runs

Asset 5 has the index of the sample, and asset 6 the index 1. -/

def twoAssets : List (Step ℕ) :=
  [.addAsset .root 5 10000 [⟨sampleIndex, false⟩], .addAsset .root 6 500 [⟨1, false⟩]]

/-- Asset 6 gets another index, and its first one becomes hookable. -/
theorem registry_sound_sample : ∃ s : RelayQueue ℕ,
    ReachableIf sampleHost (fun s i => i.Proper s) s ∧ s.assetIndexes.get sampleIndex = some 5 ∧
    ∃ s', s.updateAsset .root 6 none (some [⟨2, true⟩]) (some [⟨1, true⟩]) none = .ok s' ∧
      s'.assetIndexes.get sampleIndex = some 5 ∧
      s'.assetIndexesHookState.get sampleIndex = s.assetIndexesHookState.get sampleIndex := by
  have hrun : (runSteps (checked (RelayQueue.step sampleHost) fun s i => i.Proper s)
      RelayQueue.genesis twoAssets).any (fun s =>
        decide (s.assetIndexes.get sampleIndex = some 5 ∧
          Step.Proper s (.updateAsset .root 6 none (some [⟨2, true⟩]) (some [⟨1, true⟩]) none)) &&
        (s.updateAsset .root 6 none (some [⟨2, true⟩]) (some [⟨1, true⟩]) none).toOption.isSome) =
      true := by decide +kernel
  obtain ⟨s, hs, h⟩ := (Option.any_eq_true _ _).mp hrun
  simp only [Bool.and_eq_true, decide_eq_true_eq, Option.isSome_iff_exists, toOption_eq_some] at h
  obtain ⟨⟨hindex, hproper⟩, s', hcall⟩ := h
  have hreach : ReachableIf sampleHost (fun s i => i.Proper s) s :=
    Reachable.runChecked (.init rfl) hs
  exact ⟨s, hreach, hindex, s', hcall, (registry_sound hreach).2.2.2 .root 6 none _ _ none s' hproper
    hcall sampleIndex 5 hindex (by decide)⟩

/-- **A cap of zero, and another's hook state.**  Asset 7 gets a cap of zero, and changing asset 6
changes the hook state of the index of asset 5. -/
theorem registry_gaps : ∃ s : RelayQueue ℕ, ReachableIf sampleHost anyStep s ∧
    (∃ cap, s.assetCaps.get 7 = some cap ∧ cap.maxOnFlightCap = 0) ∧
    s.assetIndexes.get sampleIndex = some 5 ∧
    s.assetIndexesHookState.get sampleIndex = some false ∧
    ∃ s', s.updateAsset .root 6 none none (some [⟨sampleIndex, true⟩]) none = .ok s' ∧
      s'.assetIndexesHookState.get sampleIndex = some true := by
  have hrun : (runSteps (RelayQueue.step sampleHost) RelayQueue.genesis
      (twoAssets ++ [.addAsset .root 7 0 [⟨2, false⟩]])).any (fun s =>
        decide ((s.assetCaps.get 7).map AssetCapInfo.maxOnFlightCap = some 0 ∧
          s.assetIndexes.get sampleIndex = some 5 ∧
          s.assetIndexesHookState.get sampleIndex = some false) &&
        (s.updateAsset .root 6 none none (some [⟨sampleIndex, true⟩]) none).toOption.any fun s' =>
          decide (s'.assetIndexesHookState.get sampleIndex = some true)) = true := by decide +kernel
  obtain ⟨s, hs, h⟩ := (Option.any_eq_true _ _).mp hrun
  simp only [Bool.and_eq_true, decide_eq_true_eq, Option.any_eq_true, toOption_eq_some] at h
  obtain ⟨⟨hcap, hindex, hhook⟩, s', hcall, hchanged⟩ := h
  obtain ⟨cap, hcap, hzero⟩ := Option.map_eq_some_iff.mp hcap
  exact ⟨s, Reachable.runSteps (.init rfl) hs, ⟨cap, hcap, hzero⟩, hindex, hhook, s', hcall, hchanged⟩

end BifrostNode.Cccp
