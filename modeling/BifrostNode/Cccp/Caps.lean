import BifrostNode.Cccp.QueueSpec

/-!
# The caps of fast transfers

The cap of an asset counts what its fast transfers on flight carry.  It is taken by one vote and given
back by a much later one, which names the transfer only through the hash of a message: that the two
agree on the amount and on the asset rests on the hash being injective on the messages in use.

**The invariant** is about the registry and the transfers together.  Governance may change the registry
as long as it leaves the indexes of transfers on flight alone, and `CapInv.assets` is all that the
proofs about its calls need.
-/

namespace BifrostNode.Cccp

open Staking Transition

variable {AccountId : Type}

/-- What a transfer adds to the cap of an asset. -/
def RelayQueue.share (s : RelayQueue AccountId) (assetId : H160)
    (t : TransferInfoWithTxId AccountId) : ℕ :=
  if t.option = .fast ∧ s.assetIndexes.get t.assetIndexHash = some assetId then t.amount else 0

/-- What the fast transfers of an asset carry. -/
def RelayQueue.carried (s : RelayQueue AccountId) (assetId : H160) : ℕ :=
  s.onFlightTransfers.sum fun _ t => s.share assetId t

/-- An entry repeats the message that its key is the hash of. -/
def Linked (host : Host) (M : Set SocketMessage) (h : H256) (t : TransferInfo AccountId) : Prop :=
  ∃ m ∈ M, m.hash host.codec = h ∧ t.amount = m.params.amount.val ∧
    t.assetIndexHash = h256FromSlice m.params.tokenIdx0

/-- The hash tells the message. -/
lemma Linked.eq {host : Host} {M : Set SocketMessage} {t : TransferInfo AccountId} {m : SocketMessage}
    (hinj : Set.InjOn (SocketMessage.hash host.codec) M) (hm : m ∈ M)
    (h : Linked host M (m.hash host.codec) t) :
    t.amount = m.params.amount.val ∧ t.assetIndexHash = h256FromSlice m.params.tokenIdx0 := by
  obtain ⟨m', hm', hhash, hamount, hindex⟩ := h
  obtain rfl := hinj hm' hm hhash
  exact ⟨hamount, hindex⟩

/-- **The invariant of the caps.**  Each on-flight sum is that of the fast transfers of the asset. -/
structure CapInv (host : Host) (M : Set SocketMessage) (s : RelayQueue AccountId) : Prop where
  registered : ∀ i a, s.assetIndexes.get i = some a → ∃ cap, s.assetCaps.get a = some cap
  fast : ∀ h t, s.onFlightTransfers.get h = some t → t.option = .fast →
    ∃ a, s.assetIndexes.get t.assetIndexHash = some a
  cap_eq : ∀ a cap, s.assetCaps.get a = some cap → cap.onFlightCap = s.carried a
  cap_le : ∀ a cap, s.assetCaps.get a = some cap → cap.onFlightCap ≤ cap.maxOnFlightCap
  max_le : ∀ a cap, s.assetCaps.get a = some cap → cap.maxOnFlightCap ≤ maxOnFlightCap
  pending : ∀ h tx p, s.pendingTransfers.get (h, tx) = some p → Linked host M h p
  onFlight : ∀ h t, s.onFlightTransfers.get h = some t → Linked host M h t.toTransferInfo

/-- The messages that a step brings, as requests. -/
def Step.Uses (host : Host) (M : Set SocketMessage) : Step AccountId → Prop
  | .onFlightPoll _ sub => ∀ m, SocketMessage.tryFrom host.codec sub.msg = some m → m.requested ∈ M
  | .finalizePoll _ sub => ∀ m, SocketMessage.tryFrom host.codec sub.msg = some m → m.requested ∈ M
  | _ => True

namespace CapInv

variable {host : Host} {M : Set SocketMessage} {s s' : RelayQueue AccountId}

/-- **Governance** may do what leaves the indexes in use and the current caps alone. -/
lemma assets (h : CapInv host M s) (hflight : s'.onFlightTransfers = s.onFlightTransfers)
    (hpending : s'.pendingTransfers = s.pendingTransfers)
    (hindex : ∀ k t, s.onFlightTransfers.get k = some t → t.option = .fast →
      s'.assetIndexes.get t.assetIndexHash = s.assetIndexes.get t.assetIndexHash)
    (hreg : ∀ i a, s'.assetIndexes.get i = some a → ∃ cap, s'.assetCaps.get a = some cap)
    (hcaps : ∀ a cap', s'.assetCaps.get a = some cap' →
      cap'.onFlightCap ≤ cap'.maxOnFlightCap ∧ cap'.maxOnFlightCap ≤ maxOnFlightCap ∧
      ((∃ cap, s.assetCaps.get a = some cap ∧ cap'.onFlightCap = cap.onFlightCap) ∨
        (s.assetCaps.get a = none ∧ cap'.onFlightCap = 0))) : CapInv host M s' := by
  have hshare : ∀ a k t, s.onFlightTransfers.get k = some t → s'.share a t = s.share a t := by
    intro a k t ht
    rw [RelayQueue.share, RelayQueue.share]
    by_cases hfast : t.option = .fast
    · rw [hindex k t ht hfast]
    · rw [if_neg (fun hc => hfast hc.1), if_neg (fun hc => hfast hc.1)]
  have hcarried : ∀ a, s'.carried a = s.carried a := by
    intro a
    rw [RelayQueue.carried, RelayQueue.carried, hflight]
    exact StorageMap.sum_congr fun k t ht => hshare a k t ht
  refine ⟨hreg, fun k t ht hfast => ?_, fun a cap' hcap' => ?_, fun a cap' hcap' => (hcaps a cap' hcap').1,
    fun a cap' hcap' => (hcaps a cap' hcap').2.1, hpending ▸ h.pending, hflight ▸ h.onFlight⟩
  · rw [hflight] at ht
    rw [hindex k t ht hfast]
    exact h.fast k t ht hfast
  · obtain ⟨-, -, hcase⟩ := hcaps a cap' hcap'
    rw [hcarried]
    rcases hcase with ⟨cap, hcap, heq⟩ | ⟨hnone, hzero⟩
    · rw [heq]
      exact h.cap_eq a cap hcap
    · -- nothing can map to an asset that was not there
      rw [hzero, RelayQueue.carried]
      symm
      refine Finset.sum_eq_zero fun k hk => ?_
      obtain ⟨t, ht⟩ := StorageMap.mem_keys_iff.mp hk
      rw [ht, Option.elim_some]
      refine if_neg ?_
      rintro ⟨-, hidx⟩
      obtain ⟨cap, hcap⟩ := h.registered _ _ hidx
      rw [hnone] at hcap
      cases hcap

/-- An index that is added was not in use. -/
lemma putIndexes (h : CapInv host M s) {assetId : H160} {cap : AssetCapInfo}
    {indexes : List AssetIndexInfo} (hcap : s.assetCaps.get assetId = some cap)
    (hfree : ∀ i ∈ indexes, s.assetIndexes.get i.hash = none) :
    CapInv host M (s.putIndexes assetId indexes) := by
  have hget : ∀ k, (s.putIndexes assetId indexes).assetIndexes.get k =
      if k ∈ indexes.map AssetIndexInfo.hash then some assetId else s.assetIndexes.get k :=
    StorageMap.get_foldl_insert AssetIndexInfo.hash assetId indexes s.assetIndexes
  refine h.assets rfl rfl (fun k t ht hfast => ?_) (fun i a hi => ?_) fun a c hc =>
    ⟨h.cap_le a c hc, h.max_le a c hc, .inl ⟨c, hc, rfl⟩⟩
  · obtain ⟨a, ha⟩ := h.fast k t ht hfast
    rw [hget, if_neg]
    intro hmem
    obtain ⟨i, hi, heq⟩ := List.mem_map.mp hmem
    rw [← heq, hfree i hi] at ha
    cases ha
  · rw [hget] at hi
    split_ifs at hi with hmem
    · obtain rfl : assetId = a := Option.some.inj hi
      exact ⟨cap, hcap⟩
    · exact h.registered i a hi

lemma addAsset (h : CapInv host M s) {origin : Origin AccountId} {assetId : H160} {max : ℕ}
    {indexes : List AssetIndexInfo} (h' : s.addAsset origin assetId max indexes = .ok s') :
    CapInv host M s' := by
  simp only [RelayQueue.addAsset, bind_eq_ok, ensure_eq_ok, pure_eq_ok, exists_const] at h'
  obtain ⟨-, -, -, hmax, -, hnew, hfree, rfl⟩ := h'
  have hnone : s.assetCaps.get assetId = none := by simpa [StorageMap.contains] using hnew
  have hbase : CapInv host M { s with assetCaps := s.assetCaps.insert assetId ⟨max, 0⟩ } := by
    refine h.assets rfl rfl (fun _ _ _ _ => rfl) (fun i a hi => ?_) fun a c hc => ?_
    · obtain ⟨c, hc⟩ := h.registered i a hi
      refine ⟨c, ?_⟩
      have hne : a ≠ assetId := by
        rintro rfl
        rw [hnone] at hc
        cases hc
      exact (StorageMap.get_insert_of_ne _ hne _).trans hc
    · simp only [StorageMap.get_insert] at hc
      split_ifs at hc with ha
      · obtain rfl := Option.some.inj hc
        exact ⟨Nat.zero_le _, hmax, .inr ⟨ha ▸ hnone, rfl⟩⟩
      · exact ⟨h.cap_le a c hc, h.max_le a c hc, .inl ⟨c, hc, rfl⟩⟩
  refine hbase.putIndexes (StorageMap.get_insert_self _ _ _) fun i hi => ?_
  simpa [StorageMap.contains] using hfree i hi

/-- Indexes that no transfer on flight has may go. -/
lemma removeIndexes (h : CapInv host M s) {indexes : List H256}
    (hidle : s.hasActiveTransfers indexes = false)
    (hflight : s'.onFlightTransfers = s.onFlightTransfers)
    (hpending : s'.pendingTransfers = s.pendingTransfers)
    (hget : ∀ k, s'.assetIndexes.get k = if k ∈ indexes then none else s.assetIndexes.get k)
    (hcaps : ∀ a c, s'.assetCaps.get a = some c → s.assetCaps.get a = some c)
    (hkeep : ∀ i a, s'.assetIndexes.get i = some a → s'.assetCaps.get a = s.assetCaps.get a) :
    CapInv host M s' := by
  refine h.assets hflight hpending (fun k t ht _ => ?_) (fun i a hi => ?_) fun a c hc =>
    ⟨h.cap_le a c (hcaps a c hc), h.max_le a c (hcaps a c hc), .inl ⟨c, hcaps a c hc, rfl⟩⟩
  · rw [hget, if_neg]
    intro hmem
    have hactive : s.hasActiveTransfers indexes = true :=
      List.any_eq_true.mpr ⟨(k, t), StorageMap.mem_toList.mpr ht, by simpa using hmem⟩
    rw [hidle] at hactive
    cases hactive
  · rw [hkeep i a hi]
    rw [hget] at hi
    split_ifs at hi
    exact h.registered i a hi

lemma updateCap (h : CapInv host M s) {assetId : H160} {cap : AssetCapInfo} {new : Option ℕ}
    (hcap : s.assetCaps.get assetId = some cap)
    (h' : s.updateCap assetId cap new = .ok s') :
    CapInv host M s' ∧ ∃ cap', s'.assetCaps.get assetId = some cap' := by
  cases new with
  | none =>
      simp only [RelayQueue.updateCap, pure_eq_ok] at h'
      exact h' ▸ ⟨h, cap, hcap⟩
  | some new =>
      simp only [RelayQueue.updateCap, bind_eq_ok, ensure_eq_ok, pure_eq_ok, exists_const] at h'
      obtain ⟨-, -, hmax, hle, rfl⟩ := h'
      refine ⟨h.assets rfl rfl (fun _ _ _ _ => rfl) (fun i a hi => ?_) fun a c hc => ?_, _,
        StorageMap.get_insert_self _ _ _⟩
      · obtain ⟨c, hc⟩ := h.registered i a hi
        by_cases ha : a = assetId
        · rw [ha]
          exact ⟨_, StorageMap.get_insert_self _ _ _⟩
        · exact ⟨c, (StorageMap.get_insert_of_ne _ ha _).trans hc⟩
      · simp only [StorageMap.get_insert] at hc
        split_ifs at hc with ha
        · obtain rfl := Option.some.inj hc
          exact ⟨hle, hmax, .inl ⟨cap, ha ▸ hcap, rfl⟩⟩
        · exact ⟨h.cap_le a c hc, h.max_le a c hc, .inl ⟨c, hc, rfl⟩⟩

lemma removeAsset (h : CapInv host M s) {origin : Origin AccountId} {assetId : H160}
    (h' : s.removeAsset origin assetId = .ok s') : CapInv host M s' := by
  simp only [RelayQueue.removeAsset, bind_eq_ok, ensure_eq_ok, pure_eq_ok, exists_const] at h'
  obtain ⟨-, -, hidle, rfl⟩ := h'
  have hget := StorageMap.get_foldl_remove
    ((s.assetIndexes.toList.filter fun e => e.2 = assetId).map Prod.fst) s.assetIndexes
  refine h.removeIndexes (by simpa using hidle) rfl rfl hget (fun a c hc => ?_) fun i a hi => ?_
  · simp only [RelayQueue.removeIndexes, StorageMap.get_remove] at hc
    split_ifs at hc
    exact hc
  · refine StorageMap.get_remove_of_ne _ ?_
    rintro rfl
    replace hi := (hget i).symm.trans hi
    split_ifs at hi with hmem
    refine hmem (List.mem_map.mpr ⟨(i, a), List.mem_filter.mpr ⟨StorageMap.mem_toList.mpr hi, ?_⟩, rfl⟩)
    simp

lemma updateAsset (h : CapInv host M s) {origin : Origin AccountId} {assetId : H160}
    {new : Option ℕ} {add update : Option (List AssetIndexInfo)} {remove : Option (List H256)}
    (h' : s.updateAsset origin assetId new add update remove = .ok s') : CapInv host M s' := by
  simp only [RelayQueue.updateAsset, bind_eq_ok, ensure_eq_ok, okOr_eq_ok, exists_const] at h'
  obtain ⟨-, -, -, -, -, -, -, -, -, -, cap, hcap, s₁, h₁, s₂, h₂, s₃, h₃, h'⟩ := h'
  obtain ⟨hinv₁, hcap₁⟩ := h.updateCap hcap h₁
  -- the asset stays registered while its indexes are added one by one
  have hinv₂ : CapInv host M s₂ ∧ ∃ cap', s₂.assetCaps.get assetId = some cap' := by
    refine Returns.foldlM (P := fun t => CapInv host M t ∧
      ∃ cap', t.assetCaps.get assetId = some cap') (fun t i ht t' ht' => ?_) ⟨hinv₁, hcap₁⟩ s₂ h₂
    simp only [RelayQueue.addIndex, bind_eq_ok, ensure_eq_ok, pure_eq_ok, exists_const] at ht'
    obtain ⟨hfree, -, rfl⟩ := ht'
    obtain ⟨hinv, cap', hcap'⟩ := ht
    refine ⟨hinv.putIndexes hcap' fun j hj => ?_, cap', hcap'⟩
    rw [List.mem_singleton.mp hj]
    simpa [StorageMap.contains] using hfree
  have hinv₃ : CapInv host M s₃ := by
    refine Returns.foldlM (P := CapInv host M) (fun t i ht t' ht' => ?_) hinv₂.1 s₃ h₃
    simp only [RelayQueue.updateIndex, bind_eq_ok, ensure_eq_ok, pure_eq_ok, exists_const] at ht'
    obtain ⟨-, -, rfl⟩ := ht'
    exact ht.assets rfl rfl (fun _ _ _ _ => rfl) ht.registered fun a c hc =>
      ⟨ht.cap_le a c hc, ht.max_le a c hc, .inl ⟨c, hc, rfl⟩⟩
  simp only [RelayQueue.dropIndexes, bind_eq_ok, ensure_eq_ok, pure_eq_ok, exists_const] at h'
  obtain ⟨-, -, hidle, rfl⟩ := h'
  exact hinv₃.removeIndexes (by simpa using hidle) rfl rfl
    (StorageMap.get_foldl_remove _ s₃.assetIndexes) (fun _ _ hc => hc) fun _ _ _ => rfl

/-! ### Transfers -/

/-- **A transfer gets on flight** and takes up the cap, if it is fast. -/
lemma launch (h : CapInv host M s) {k : H256} {t : TransferInfoWithTxId AccountId}
    (hnone : s.onFlightTransfers.get k = none) (hlinked : Linked host M k t.toTransferInfo)
    (hflight : s'.onFlightTransfers = s.onFlightTransfers.insert k t)
    (hindexes : s'.assetIndexes = s.assetIndexes)
    (hpending : ∀ e p, s'.pendingTransfers.get e = some p → s.pendingTransfers.get e = some p)
    (hcaps : (t.option = .standard ∧ s'.assetCaps = s.assetCaps) ∨
      (t.option = .fast ∧ ∃ a cap, s.assetIndexes.get t.assetIndexHash = some a ∧
        s.assetCaps.get a = some cap ∧ cap.onFlightCap + t.amount ≤ cap.maxOnFlightCap ∧
        s'.assetCaps = s.assetCaps.insert a
          { cap with onFlightCap := cap.onFlightCap + t.amount })) : CapInv host M s' := by
  have hcarried : ∀ a, s'.carried a = s.carried a + s.share a t := by
    intro a
    rw [RelayQueue.carried, RelayQueue.carried, hflight]
    simp only [RelayQueue.share, hindexes]
    exact StorageMap.sum_insert_of_none _ _ hnone
  refine ⟨?_, fun j u hu hfast => ?_, ?_, ?_, ?_, fun j tx p hp => h.pending j tx p (hpending _ _ hp),
    fun j u hu => ?_⟩
  · intro i a hi
    rw [hindexes] at hi
    obtain ⟨c, hc⟩ := h.registered i a hi
    rcases hcaps with ⟨-, heq⟩ | ⟨-, b, cap, -, -, -, heq⟩
    · exact ⟨c, heq ▸ hc⟩
    · rw [heq, StorageMap.get_insert]
      split_ifs
      · exact ⟨_, rfl⟩
      · exact ⟨c, hc⟩
  · rw [hflight, StorageMap.get_insert] at hu
    rw [hindexes]
    split_ifs at hu with hj
    · obtain rfl := Option.some.inj hu
      rcases hcaps with ⟨hstd, -⟩ | ⟨-, a, cap, ha, -⟩
      · rw [hfast] at hstd
        cases hstd
      · exact ⟨a, ha⟩
    · exact h.fast j u hu hfast
  · intro a c hc
    rw [hcarried]
    rcases hcaps with ⟨hstd, heq⟩ | ⟨hfast, b, cap, hb, hcap, -, heq⟩
    · rw [heq] at hc
      rw [RelayQueue.share, if_neg (by simp [hstd]), h.cap_eq a c hc, Nat.add_zero]
    · rw [heq, StorageMap.get_insert] at hc
      split_ifs at hc with ha
      · obtain rfl := Option.some.inj hc
        rw [RelayQueue.share, if_pos ⟨hfast, ha ▸ hb⟩, ha, ← h.cap_eq b cap hcap]
      · rw [RelayQueue.share, if_neg, h.cap_eq a c hc, Nat.add_zero]
        rintro ⟨-, hidx⟩
        exact ha (Option.some.inj (hidx.symm.trans hb))
  · intro a c hc
    rcases hcaps with ⟨-, heq⟩ | ⟨-, b, cap, -, -, hle, heq⟩
    · exact h.cap_le a c (heq ▸ hc)
    · rw [heq, StorageMap.get_insert] at hc
      split_ifs at hc with ha
      · obtain rfl := Option.some.inj hc
        exact hle
      · exact h.cap_le a c hc
  · intro a c hc
    rcases hcaps with ⟨-, heq⟩ | ⟨-, b, cap, -, hcap, -, heq⟩
    · exact h.max_le a c (heq ▸ hc)
    · rw [heq, StorageMap.get_insert] at hc
      split_ifs at hc with ha
      · obtain rfl := Option.some.inj hc
        exact h.max_le b cap hcap
      · exact h.max_le a c hc
  · rw [hflight, StorageMap.get_insert] at hu
    split_ifs at hu with hj
    · obtain rfl := Option.some.inj hu
      exact hj ▸ hlinked
    · exact h.onFlight j u hu

/-- **A transfer ends** and gives back the cap, if it is fast. -/
lemma land (h : CapInv host M s) {k : H256} {t : TransferInfoWithTxId AccountId}
    (hsome : s.onFlightTransfers.get k = some t)
    (hflight : s'.onFlightTransfers = s.onFlightTransfers.remove k)
    (hindexes : s'.assetIndexes = s.assetIndexes)
    (hpending : s'.pendingTransfers = s.pendingTransfers)
    (hcaps : (t.option = .standard ∧ s'.assetCaps = s.assetCaps) ∨
      (t.option = .fast ∧ ∃ a cap, s.assetIndexes.get t.assetIndexHash = some a ∧
        s.assetCaps.get a = some cap ∧ s'.assetCaps = s.assetCaps.insert a
          { cap with onFlightCap := cap.onFlightCap - t.amount })) : CapInv host M s' := by
  have hcarried : ∀ a, s'.carried a + s.share a t = s.carried a := by
    intro a
    rw [RelayQueue.carried, RelayQueue.carried, hflight]
    simp only [RelayQueue.share, hindexes]
    exact StorageMap.sum_remove_of_some _ hsome
  have hold : ∀ j u, s'.onFlightTransfers.get j = some u → s.onFlightTransfers.get j = some u := by
    intro j u hu
    rw [hflight, StorageMap.get_remove] at hu
    split_ifs at hu
    exact hu
  have hcap : ∀ a c, s'.assetCaps.get a = some c → ∃ c₀, s.assetCaps.get a = some c₀ ∧
      c.maxOnFlightCap = c₀.maxOnFlightCap ∧ c.onFlightCap = c₀.onFlightCap - s.share a t := by
    intro a c hc
    rcases hcaps with ⟨hstd, heq⟩ | ⟨hfast, b, cap, hb, hcap, heq⟩
    · rw [heq] at hc
      exact ⟨c, hc, rfl, by rw [RelayQueue.share, if_neg (by simp [hstd]), Nat.sub_zero]⟩
    · rw [heq, StorageMap.get_insert] at hc
      split_ifs at hc with ha
      · obtain rfl := Option.some.inj hc
        exact ⟨cap, ha ▸ hcap, rfl, by rw [RelayQueue.share, if_pos ⟨hfast, ha ▸ hb⟩]⟩
      · refine ⟨c, hc, rfl, ?_⟩
        rw [RelayQueue.share, if_neg, Nat.sub_zero]
        rintro ⟨-, hidx⟩
        exact ha (Option.some.inj (hidx.symm.trans hb))
  refine ⟨?_, fun j u hu hfast => ?_, fun a c hc => ?_, fun a c hc => ?_, fun a c hc => ?_,
    hpending ▸ h.pending, fun j u hu => h.onFlight j u (hold j u hu)⟩
  · intro i a hi
    rw [hindexes] at hi
    obtain ⟨c, hc⟩ := h.registered i a hi
    rcases hcaps with ⟨-, heq⟩ | ⟨-, b, cap, -, -, heq⟩
    · exact ⟨c, heq ▸ hc⟩
    · rw [heq, StorageMap.get_insert]
      split_ifs
      · exact ⟨_, rfl⟩
      · exact ⟨c, hc⟩
  · rw [hindexes]
    exact h.fast j u (hold j u hu) hfast
  · obtain ⟨c₀, hc₀, -, hon⟩ := hcap a c hc
    have hsum := hcarried a
    have heq := h.cap_eq a c₀ hc₀
    omega
  · obtain ⟨c₀, hc₀, hmax, hon⟩ := hcap a c hc
    have hle := h.cap_le a c₀ hc₀
    omega
  · obtain ⟨c₀, hc₀, hmax, -⟩ := hcap a c hc
    rw [hmax]
    exact h.max_le a c₀ hc₀

/-- **Votes** on transfers change neither amounts nor assets. -/
lemma votes (h : CapInv host M s) (hindexes : s'.assetIndexes = s.assetIndexes)
    (hcaps : s'.assetCaps = s.assetCaps)
    (hflight : ∀ j, (s'.onFlightTransfers.get j).map (·.toTransferInfo) =
      (s.onFlightTransfers.get j).map (·.toTransferInfo))
    (hpending : ∀ j tx p, s'.pendingTransfers.get (j, tx) = some p → Linked host M j p) :
    CapInv host M s' := by
  have hold : ∀ j u, s'.onFlightTransfers.get j = some u →
      ∃ t, s.onFlightTransfers.get j = some t ∧ t.toTransferInfo = u.toTransferInfo := by
    intro j u hu
    have heq := hflight j
    rw [hu, Option.map_some] at heq
    exact Option.map_eq_some_iff.mp heq.symm
  have hcarried : ∀ a, s'.carried a = s.carried a := by
    intro a
    rw [RelayQueue.carried, RelayQueue.carried]
    refine StorageMap.sum_eq_sum fun j => ?_
    have heq := congrArg (fun x => x.elim 0 fun i : TransferInfo AccountId =>
      if i.option = .fast ∧ s.assetIndexes.get i.assetIndexHash = some a then i.amount else 0)
      (hflight j)
    simpa only [RelayQueue.share, hindexes, Option.elim_map, Function.comp_def] using heq
  refine ⟨?_, fun j u hu hfast => ?_, fun a c hc => ?_, hcaps ▸ h.cap_le, hcaps ▸ h.max_le, hpending,
    fun j u hu => ?_⟩
  · rw [hindexes, hcaps]
    exact h.registered
  · obtain ⟨t, ht, heq⟩ := hold j u hu
    rw [hindexes, ← heq]
    exact h.fast j t ht (heq ▸ hfast)
  · rw [hcarried]
    exact h.cap_eq a c (hcaps ▸ hc)
  · obtain ⟨t, ht, heq⟩ := hold j u hu
    rw [← heq]
    exact h.onFlight j t ht

/-- What the end of a fast transfer finds: its asset, with enough of a cap. -/
lemma closing (hinj : Set.InjOn (SocketMessage.hash host.codec) M) (h : CapInv host M s)
    {f : SocketMessage} {t : TransferInfoWithTxId AccountId} (hmem : f.requested ∈ M)
    (ht : s.onFlightTransfers.get (f.requested.hash host.codec) = some t) :
    t.amount = f.params.amount.val ∧ t.assetIndexHash = h256FromSlice f.params.tokenIdx0 ∧
    (t.option = .fast → ∃ a cap, s.getAssetInfo (h256FromSlice f.params.tokenIdx0) = some (a, cap) ∧
      f.params.amount.val ≤ cap.onFlightCap) := by
  obtain ⟨hamount, hindex⟩ := Linked.eq hinj hmem (h.onFlight _ t ht)
  refine ⟨hamount, hindex, fun hfast => ?_⟩
  obtain ⟨a, ha⟩ := h.fast _ t ht hfast
  obtain ⟨cap, hcap⟩ := h.registered _ a ha
  refine ⟨a, cap, getAssetInfo_eq_some.mpr ⟨hindex ▸ ha, hcap⟩, ?_⟩
  have hshare : s.share a t = t.amount := if_pos ⟨hfast, ha⟩
  have hle : s.share a t ≤ s.carried a := StorageMap.le_sum (fun _ t => s.share a t) ht
  rw [h.cap_eq a cap hcap, ← show t.amount = f.params.amount.val from hamount, ← hshare]
  exact hle

variable [LinearOrder AccountId]

lemma onFlightPoll (hinj : Set.InjOn (SocketMessage.hash host.codec) M) (h : CapInv host M s)
    {o : Outlook AccountId} {sub : OnFlightPollSubmission AccountId}
    (huse : ∀ m, SocketMessage.tryFrom host.codec sub.msg = some m → m.requested ∈ M)
    (h' : s.onFlightPoll host o sub = .ok s') : CapInv host M s' := by
  obtain ⟨parsed, info, hp, hcase⟩ := onFlightPoll_ok h'
  have hmem : parsed ∈ M := by
    have := huse parsed hp.parses
    rwa [SocketMessage.requested_of_isRequested hp.requested] at this
  have hlinked : Linked host M sub.msgHash info := by
    rcases hp.entry with ⟨pending, hpending, -, hinfo⟩ | ⟨-, -, hamount, hindex⟩
    · rw [hinfo]
      have hp₀ : Linked host M sub.msgHash pending := h.pending _ _ _ hpending
      exact hp₀
    · exact ⟨parsed, hmem, hp.hash_eq.symm, hamount, hindex⟩
  have hsame := Linked.eq hinj hmem (hp.hash_eq ▸ hlinked)
  rcases hcase with ⟨-, s₁, h₁, rfl⟩ | ⟨-, rfl⟩
  · have hcap := takeCap_ok hp.option_eq h₁
    rw [← hsame.1, ← hsame.2] at hcap
    have hkeep : s₁.onFlightTransfers = s.onFlightTransfers ∧ s₁.assetIndexes = s.assetIndexes ∧
        s₁.pendingTransfers = s.pendingTransfers := by
      rcases hcap with ⟨-, rfl⟩ | ⟨-, a, cap, -, -, -, rfl⟩
      · exact ⟨rfl, rfl, rfl⟩
      · exact ⟨rfl, rfl, rfl⟩
    refine h.launch hp.not_onFlight hlinked (t := .fromTransferInfo info sub.srcTxId) ?_ hkeep.2.1
      (fun e p he => ?_) ?_
    · exact congrArg (fun m => StorageMap.insert m sub.msgHash _) hkeep.1
    · simp only [RelayQueue.clearPending, StorageMap.get_filterKeys, hkeep.2.2] at he
      split_ifs at he
      exact he
    · rcases hcap with ⟨hstd, rfl⟩ | ⟨hfast, a, cap, hidx, hget, hle, rfl⟩
      · exact .inl ⟨hstd, rfl⟩
      · exact .inr ⟨hfast, a, cap, hidx, hget, hle, rfl⟩
  · refine h.votes rfl rfl (fun _ => rfl) fun j tx p he => ?_
    simp only [RelayQueue.keepPending, StorageMap.get_insert, Prod.mk.injEq] at he
    split_ifs at he with hj
    · obtain rfl := Option.some.inj he
      exact hj.1 ▸ hlinked
    · exact h.pending j tx p he

lemma finalizePoll (hinj : Set.InjOn (SocketMessage.hash host.codec) M) (h : CapInv host M s)
    {o : Outlook AccountId} {sub : FinalizePollSubmission AccountId}
    (huse : ∀ m, SocketMessage.tryFrom host.codec sub.msg = some m → m.requested ∈ M)
    (h' : s.finalizePoll host o sub = .ok s') : CapInv host M s' := by
  obtain ⟨parsed, t, hc, hcase⟩ := finalizePoll_ok h'
  obtain ⟨hamount, hindex, hasset⟩ := h.closing hinj (huse parsed hc.parses) hc.onFlight
  rcases hcase with ⟨hfin, -⟩ | ⟨-, rfl⟩
  · obtain ⟨caps, rfl, hcaps⟩ := finalize_ok hfin
    refine h.land hc.onFlight rfl rfl rfl ?_
    rcases hcaps with ⟨rfl, hstd | hnone⟩ | ⟨hfast, a, cap, hidx, hget, -, rfl⟩
    · exact .inl ⟨hstd, rfl⟩
    · cases hkind : t.option with
      | standard => exact .inl ⟨rfl, rfl⟩
      | fast =>
          obtain ⟨a, cap, hinfo, -⟩ := hasset hkind
          rw [hnone] at hinfo
          cases hinfo
    · exact .inr ⟨hfast, a, cap, hindex ▸ hidx, hget, by rw [hamount]⟩
  · refine h.votes rfl rfl (fun j => ?_) h.pending
    rw [StorageMap.get_insert]
    split_ifs with hj
    · rw [hj, hc.onFlight]
      rfl
    · rfl

lemma replaceAuthority (h : CapInv host M s) (old new : AccountId) :
    CapInv host M (s.replaceAuthority old new) := by
  refine h.votes rfl rfl (fun j => ?_) fun j tx p hp => ?_
  · simp only [RelayQueue.replaceAuthority, StorageMap.get_mapVals, Option.map_map]
    rfl
  · simp only [RelayQueue.replaceAuthority, StorageMap.get_mapVals, Option.map_eq_some_iff] at hp
    obtain ⟨p₀, hp₀, rfl⟩ := hp
    have hlinked : Linked host M j p₀ := h.pending j tx p₀ hp₀
    exact hlinked

/-- **Step lemma.**  A step that hashes messages of `M` only keeps the sums right. -/
lemma step (hinj : Set.InjOn (SocketMessage.hash host.codec) M) (h : CapInv host M s)
    {i : Step AccountId} (huse : i.Uses host M) (h' : s.step host i = some s') :
    CapInv host M s' := by
  cases i with
  | onFlightPoll o sub =>
      obtain rfl := Option.some.inj h'
      exact commit_induction h fun _ => h.onFlightPoll hinj huse
  | finalizePoll o sub =>
      obtain rfl := Option.some.inj h'
      exact commit_induction h fun _ => h.finalizePoll hinj huse
  | setSocket origin new =>
      obtain rfl := Option.some.inj h'
      refine commit_induction h fun t ht => ?_
      simp only [RelayQueue.setSocket, bind_eq_ok, ensure_eq_ok, pure_eq_ok, exists_const] at ht
      obtain ⟨-, -, rfl⟩ := ht
      exact h.votes rfl rfl (fun _ => rfl) h.pending
  | addAsset origin assetId max indexes =>
      obtain rfl := Option.some.inj h'
      exact commit_induction h fun _ => h.addAsset
  | removeAsset origin assetId =>
      obtain rfl := Option.some.inj h'
      exact commit_induction h fun _ => h.removeAsset
  | updateAsset origin assetId new add update remove =>
      obtain rfl := Option.some.inj h'
      exact commit_induction h fun _ => h.updateAsset
  | replaceAuthority old new =>
      obtain rfl := Option.some.inj h'
      exact h.replaceAuthority old new

end CapInv

/-! ## Runs -/

section Runs

variable [LinearOrder AccountId] {host : Host} {M : Set SocketMessage} {s : RelayQueue AccountId}

/-- **Run lemma.**  The sums are right along every run that hashes messages of `M` only. -/
lemma ReachableIf.capInv (hinj : Set.InjOn (SocketMessage.hash host.codec) M)
    (h : ReachableIf host (fun _ i => i.Uses host M) s) : CapInv host M s := by
  refine Reachable.invariant (fun s hs => ?_) (fun s i s' hs hc => hs.step hinj hc) h
  subst hs
  exact ⟨by simp [RelayQueue.genesis], by simp [RelayQueue.genesis], by simp [RelayQueue.genesis],
    by simp [RelayQueue.genesis], by simp [RelayQueue.genesis], by simp [RelayQueue.genesis],
    by simp [RelayQueue.genesis]⟩

/-- **The caps are exact**, in every run on messages that the hash tells apart: the cap of an asset is
what its fast transfers on flight carry, it is within its limit, every fast transfer has an asset, and
the end of a transfer never fails on the cap. -/
theorem caps_exact (hinj : Set.InjOn (SocketMessage.hash host.codec) M)
    (h : ReachableIf host (fun _ i => i.Uses host M) s) :
    (∀ a cap, s.assetCaps.get a = some cap →
      cap.onFlightCap = (s.onFlightTransfers.sum fun _ t =>
        if t.option = .fast ∧ s.assetIndexes.get t.assetIndexHash = some a then t.amount else 0) ∧
      cap.onFlightCap ≤ cap.maxOnFlightCap) ∧
    (∀ k t, s.onFlightTransfers.get k = some t → t.option = .fast → ∃ a cap,
      s.assetIndexes.get t.assetIndexHash = some a ∧ s.assetCaps.get a = some cap) ∧
    ∀ (f : SocketMessage) t voter, f.requested ∈ M →
      s.onFlightTransfers.get (f.requested.hash host.codec) = some t →
      (t.option = .fast → ∃ a cap, s.getAssetInfo (h256FromSlice f.params.tokenIdx0) = some (a, cap) ∧
        RelayQueue.checkedSub cap.onFlightCap f.params.amount.val ≠ none) ∧
      ∃ s', s.finalize (f.requested.hash host.codec) (h256FromSlice f.params.tokenIdx0)
        f.params.amount.val (t.closedBy voter) = .ok s' := by
  have hs := h.capInv hinj
  refine ⟨fun a cap hcap => ⟨hs.cap_eq a cap hcap, hs.cap_le a cap hcap⟩, fun k t ht hfast => ?_,
    fun f t voter hmem ht => ⟨fun hfast => ?_, ?_⟩⟩
  · obtain ⟨a, ha⟩ := hs.fast k t ht hfast
    obtain ⟨cap, hcap⟩ := hs.registered _ a ha
    exact ⟨a, cap, ha, hcap⟩
  · obtain ⟨-, -, hasset⟩ := hs.closing hinj hmem ht
    obtain ⟨a, cap, hinfo, hle⟩ := hasset hfast
    exact ⟨a, cap, hinfo, by simp [RelayQueue.checkedSub, hle]⟩
  · obtain ⟨-, -, hasset⟩ := hs.closing hinj hmem ht
    rw [RelayQueue.finalize]
    by_cases hfast : t.option = .fast
    · obtain ⟨a, cap, hinfo, hle⟩ := hasset hfast
      have hbound : cap.onFlightCap - f.params.amount.val < 2 ^ 128 := by
        obtain ⟨-, hcap⟩ := getAssetInfo_eq_some.mp hinfo
        have h₁ := hs.cap_le a cap hcap
        have h₂ := hs.max_le a cap hcap
        rw [maxOnFlightCap] at h₂
        omega
      simp only [TransferInfoWithTxId.closedBy, hfast, if_true, hinfo,
        RelayQueue.updateFastTransferCap, Bool.false_eq_true, if_false, RelayQueue.checkedSub, hle,
        okOr_some, ok_bind, RelayQueue.toBalance, hbound]
      exact ⟨_, rfl⟩
    · simp only [TransferInfoWithTxId.closedBy, hfast, if_false]
      exact ⟨_, rfl⟩

/-- The sample is on flight, and a tenth of the cap of its asset is taken. -/
theorem caps_exact_sample : ∃ s : RelayQueue ℕ,
    ReachableIf sampleHost (fun _ i => i.Uses sampleHost {sampleMessage 1}) s ∧
    Set.InjOn (SocketMessage.hash sampleHost.codec) {sampleMessage 1} ∧
    ∃ cap, s.assetCaps.get 5 = some cap ∧ cap.onFlightCap = 1000 ∧
      (s.onFlightTransfers.sum fun _ t =>
        if t.option = .fast ∧ s.assetIndexes.get t.assetIndexHash = some 5 then t.amount else 0) =
          1000 := by
  have hrun : (runSteps (RelayQueue.step sampleHost) RelayQueue.genesis
      (sampleAsset ++ [sampleVote 1 3])).any (fun s =>
        (s.assetCaps.get 5).any fun cap => cap.onFlightCap == 1000) = true := by decide +kernel
  obtain ⟨s, hs, hcap⟩ := (Option.any_eq_true _ _).mp hrun
  obtain ⟨cap, hcap, hval⟩ := (Option.any_eq_true _ _).mp hcap
  have hinj : Set.InjOn (SocketMessage.hash sampleHost.codec) {sampleMessage 1} :=
    Set.injOn_singleton _ _
  have hparse : SocketMessage.tryFrom sampleCodec (sampleBytes 1) = some (sampleMessage 1) := by
    decide +kernel
  have hreach : ReachableIf sampleHost (fun _ i => i.Uses sampleHost {sampleMessage 1}) s := by
    refine Reachable.runSteps_of (.init rfl) (fun i hi _ => ?_) hs
    simp only [sampleAsset, List.cons_append, List.nil_append, List.mem_cons, List.not_mem_nil,
      or_false] at hi
    rcases hi with rfl | rfl | rfl
    · trivial
    · trivial
    · intro m hm
      obtain rfl := Option.some.inj (hparse.symm.trans hm)
      exact Set.mem_singleton _
  refine ⟨s, hreach, hinj, cap, hcap, eq_of_beq hval, ?_⟩
  rw [← eq_of_beq hval]
  exact (((caps_exact hinj hreach).1 5 cap hcap).1).symm

end Runs

end BifrostNode.Cccp
