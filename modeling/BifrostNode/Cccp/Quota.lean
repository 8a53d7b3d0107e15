import BifrostNode.Lib.Tally
import BifrostNode.Cccp.QueueSpec

/-!
# The quota of pending transfers

A relayer may have a limited number of pending transfers that it was the first to vote for.  The counter
of a relayer is raised with a new entry, and lowered for the first voters of all entries of a message
that gets on flight.

**Replacement.**  When an authority is replaced, its counter is written over that of its successor.  While
one of the two is zero, the counters are right (`quota_exact`); otherwise transfers of the successor are
no longer counted (`quota_lost`).
-/

namespace BifrostNode.Cccp

open Staking Transition StorageMap

variable {AccountId : Type} [LinearOrder AccountId]

/-- The relayer that an entry counts for. -/
def TransferInfo.submitter (info : TransferInfo AccountId) : Option AccountId :=
  info.onFlightVoters.head?

/-- **The invariant** of the counters. -/
structure QuotaInv (s : RelayQueue AccountId) : Prop where
  tallies : Tallies s.pendingTransferCount s.pendingTransfers TransferInfo.submitter
  voted : ∀ k info, s.pendingTransfers.get k = some info → info.onFlightVoters ≠ []
  bounded : ∀ a, s.pendingTransferCount.getD a 0 ≤ maxPendingTransfersPerRelayer

/-- A replacement finds at most one of the two accounts with pending transfers. -/
def Step.Separate (s : RelayQueue AccountId) : Step AccountId → Prop
  | .replaceAuthority old new =>
      s.pendingTransferCount.getD old 0 = 0 ∨ s.pendingTransferCount.getD new 0 = 0
  | _ => True

instance (s : RelayQueue AccountId) (i : Step AccountId) : Decidable (i.Separate s) :=
  match i with
  | .replaceAuthority old new => inferInstanceAs (Decidable
      (s.pendingTransferCount.getD old 0 = 0 ∨ s.pendingTransferCount.getD new 0 = 0))
  | .onFlightPoll _ _ | .finalizePoll _ _ | .setSocket _ _ | .addAsset _ _ _ _ | .removeAsset _ _
  | .updateAsset _ _ _ _ _ _ => .isTrue trivial

section Steps

variable {host : Host} {o : Outlook AccountId} {s t s' : RelayQueue AccountId} {i : Step AccountId}

lemma QuotaInv.same (hs : QuotaInv s)
    (hp : s'.pendingTransfers = s.pendingTransfers)
    (hc : s'.pendingTransferCount = s.pendingTransferCount) : QuotaInv s' := by
  refine ⟨?_, ?_, ?_⟩
  · rw [hp, hc]
    exact hs.tallies
  · rw [hp]
    exact hs.voted
  · rw [hc]
    exact hs.bounded

/-- A vote stays pending. -/
lemma QuotaInv.keepPending (hs : QuotaInv s) {authorityId : AccountId} {msgHash srcTxId : H256}
    {info : TransferInfo AccountId}
    (hquota : s.pendingTransfers.get (msgHash, srcTxId) = none →
      s.pendingTransferCount.getD authorityId 0 < maxPendingTransfersPerRelayer)
    (hentry : (∃ pending, s.pendingTransfers.get (msgHash, srcTxId) = some pending ∧
        info.onFlightVoters = pending.onFlightVoters ++ [authorityId]) ∨
      (s.pendingTransfers.get (msgHash, srcTxId) = none ∧ info.onFlightVoters = [authorityId])) :
    QuotaInv (s.keepPending authorityId msgHash srcTxId info) := by
  have hvoted : ∀ k info', (s.pendingTransfers.insert (msgHash, srcTxId) info).get k = some info' →
      info'.onFlightVoters ≠ [] := by
    intro k info' hget
    rw [get_insert] at hget
    split_ifs at hget with hk
    · obtain rfl := Option.some.inj hget
      rcases hentry with ⟨pending, -, hvoters⟩ | ⟨-, hvoters⟩
      · simp [hvoters]
      · simp [hvoters]
    · exact hs.voted k info' hget
  rcases hentry with ⟨pending, hpending, hvoters⟩ | ⟨hnone, hvoters⟩
  · -- the first voter is still the first
    have hcount : (s.keepPending authorityId msgHash srcTxId info).pendingTransferCount =
        s.pendingTransferCount := by
      simp [RelayQueue.keepPending, contains, hpending]
    refine ⟨?_, hvoted, by rw [hcount]; exact hs.bounded⟩
    rw [hcount]
    refine hs.tallies.congr fun k => ?_
    simp only [RelayQueue.keepPending, get_insert]
    split_ifs with hk
    · have hne := hs.voted _ pending hpending
      rw [hk, hpending, Option.bind_some, Option.bind_some, TransferInfo.submitter,
        TransferInfo.submitter, hvoters, List.head?_append_of_ne_nil _ hne]
    · rfl
  · have hcount : (s.keepPending authorityId msgHash srcTxId info).pendingTransferCount =
        s.pendingTransferCount.insert authorityId (s.pendingTransferCount.getD authorityId 0 + 1) := by
      simp [RelayQueue.keepPending, contains, hnone]
    refine ⟨?_, hvoted, fun a => ?_⟩
    · rw [hcount]
      exact hs.tallies.enter hnone (by simp [TransferInfo.submitter, hvoters])
    · rw [hcount, getD_insert]
      split_ifs
      · exact hquota hnone
      · exact hs.bounded a

/-- A message gets on flight, and all its entries are cleared. -/
lemma QuotaInv.clearPending (hs : QuotaInv s) (msgHash : H256) :
    QuotaInv (s.clearPending msgHash) := by
  have hfold : (s.clearPending msgHash).pendingTransferCount =
      (s.pendingTransfers.iterPrefix msgHash).foldl
        (fun count e => decrement count e.2.submitter) s.pendingTransferCount := by
    simp only [RelayQueue.clearPending, TransferInfo.submitter]
    congr 1
  refine ⟨?_, fun k info hget => ?_, fun a => ?_⟩
  · have hinj : Function.Injective fun j : H256 => (msgHash, j) := fun j j' h => (Prod.mk.inj h).2
    have hleft := hs.tallies.leaveAll hinj (nodup_iterPrefix s.pendingTransfers msgHash)
      fun e he => get_of_mem_iterPrefix he
    rw [hfold]
    refine hleft.congr fun k => congrArg (Option.bind · TransferInfo.submitter) ?_
    rw [get_foldl_remove]
    simp only [RelayQueue.clearPending, get_filterKeys, List.mem_map]
    by_cases hk : k.1 = msgHash
    · -- every entry of the message is listed
      rw [if_neg (by simp [hk])]
      cases hget : s.pendingTransfers.get k with
      | none => rw [ite_self]
      | some info =>
          rw [if_pos]
          refine ⟨(k.2, info), mem_iterPrefix.mpr ?_, ?_⟩
          · rw [← hk]
            exact hget
          · rw [← hk]
    · rw [if_pos (by simpa using hk), if_neg]
      rintro ⟨e, -, rfl⟩
      exact hk rfl
  · simp only [RelayQueue.clearPending, get_filterKeys] at hget
    split_ifs at hget
    exact hs.voted k info hget
  · rw [hfold]
    exact (foldl_decrement_le _ a _ _).trans (hs.bounded a)

/-- A replacement keeps the counts, if only one of the two accounts has one. -/
lemma QuotaInv.replaceAuthority (hs : QuotaInv s) {old new : AccountId}
    (hfree : s.pendingTransferCount.getD old 0 = 0 ∨ s.pendingTransferCount.getD new 0 = 0) :
    QuotaInv (s.replaceAuthority old new) := by
  have hhead : ∀ voters : List AccountId,
      (voters.replace old new).head? = voters.head?.map fun a => if a = old then new else a := by
    intro voters
    cases voters with
    | nil => rfl
    | cons a voters =>
        rw [List.replace_cons]
        by_cases ha : a = old
        · simp [ha]
        · have hne : (old == a) = false := by simpa using Ne.symm ha
          simp [ha, hne]
  have hcount : (s.replaceAuthority old new).pendingTransferCount =
      s.pendingTransferCount.renameCount old new := rfl
  refine ⟨?_, fun k info hget => ?_, fun a => ?_⟩
  · rw [hcount]
    refine hs.tallies.rename (fun k => ?_) (.inr hfree)
    simp only [RelayQueue.replaceAuthority, get_mapVals]
    cases s.pendingTransfers.get k with
    | none => rfl
    | some info => exact hhead info.onFlightVoters
  · simp only [RelayQueue.replaceAuthority, get_mapVals] at hget
    obtain ⟨info', hget', rfl⟩ := Option.map_eq_some_iff.mp hget
    have hne := hs.voted k info' hget'
    rw [← List.length_pos_iff] at hne ⊢
    rwa [List.length_replace]
  · rw [hcount]
    exact renameCount_le _ _ _ _ hs.bounded

/-- Only the assets change. -/
def AssetsOnly (s s' : RelayQueue AccountId) : Prop :=
  s' = { s with
    assetIndexesHookState := s'.assetIndexesHookState
    assetIndexes := s'.assetIndexes
    assetCaps := s'.assetCaps }

omit [LinearOrder AccountId] in
lemma updateAsset_assetsOnly {origin : Origin AccountId} {assetId : H160} {new : Option ℕ}
    {add update : Option (List AssetIndexInfo)} {remove : Option (List H256)} :
    Returns (AssetsOnly s) (s.updateAsset origin assetId new add update remove) := by
  intro s' h
  simp only [RelayQueue.updateAsset, bind_eq_ok, ensure_eq_ok, okOr_eq_ok, exists_const] at h
  obtain ⟨-, -, -, -, -, -, -, -, -, -, cap, -, s₁, h₁, s₂, h₂, s₃, h₃, h⟩ := h
  have hs₁ : AssetsOnly s s₁ := by
    cases new with
    | none =>
        simp only [RelayQueue.updateCap, pure_eq_ok] at h₁
        subst h₁
        rfl
    | some new =>
        simp only [RelayQueue.updateCap, bind_eq_ok, ensure_eq_ok, pure_eq_ok, exists_const] at h₁
        obtain ⟨-, -, -, -, rfl⟩ := h₁
        rfl
  have hs₂ : AssetsOnly s s₂ := by
    refine Returns.foldlM (P := AssetsOnly s) (fun t j ht t' ht' => ?_) hs₁ s₂ h₂
    simp only [RelayQueue.addIndex, bind_eq_ok, ensure_eq_ok, pure_eq_ok, exists_const] at ht'
    obtain ⟨-, -, rfl⟩ := ht'
    rw [ht]
    rfl
  have hs₃ : AssetsOnly s s₃ := by
    refine Returns.foldlM (P := AssetsOnly s) (fun t j ht t' ht' => ?_) hs₂ s₃ h₃
    simp only [RelayQueue.updateIndex, bind_eq_ok, ensure_eq_ok, pure_eq_ok, exists_const] at ht'
    obtain ⟨-, -, rfl⟩ := ht'
    rw [ht]
    rfl
  simp only [RelayQueue.dropIndexes, bind_eq_ok, ensure_eq_ok, pure_eq_ok, exists_const] at h
  obtain ⟨-, -, -, rfl⟩ := h
  rw [hs₃]
  rfl

/-- **Every step**, if a replacement keeps the counters apart. -/
lemma QuotaInv.step (hs : QuotaInv s) (hsep : i.Separate s) (h : s.step host i = some s') :
    QuotaInv s' := by
  cases i with
  | onFlightPoll o sub =>
      obtain rfl := Option.some.inj h
      refine commit_induction (P := QuotaInv) hs fun t ht => ?_
      obtain ⟨parsed, info, hp, ⟨-, s₁, htake, rfl⟩ | ⟨-, rfl⟩⟩ := onFlightPoll_ok ht
      · have hs₁ : QuotaInv s₁ := by
          rcases takeCap_ok hp.option_eq htake with ⟨-, rfl⟩ | ⟨-, assetId, cap, -, -, -, rfl⟩
          · exact hs
          · exact hs.same rfl rfl
        exact (hs₁.clearPending sub.msgHash).same rfl rfl
      · refine hs.keepPending hp.quota ?_
        rcases hp.entry with ⟨pending, hpending, -, heq⟩ | ⟨hnone, hvoters, -⟩
        · exact .inl ⟨pending, hpending, by rw [heq]⟩
        · exact .inr ⟨hnone, hvoters⟩
  | finalizePoll o sub =>
      obtain rfl := Option.some.inj h
      refine commit_induction (P := QuotaInv) hs fun t ht => ?_
      obtain ⟨parsed, transfer, -, ⟨hfinal, -⟩ | ⟨-, rfl⟩⟩ := finalizePoll_ok ht
      · obtain ⟨caps, rfl, -⟩ := finalize_ok hfinal
        exact hs.same rfl rfl
      · exact hs.same rfl rfl
  | setSocket origin new =>
      obtain rfl := Option.some.inj h
      refine commit_induction (P := QuotaInv) hs fun t ht => ?_
      simp only [RelayQueue.setSocket, bind_eq_ok, ensure_eq_ok, pure_eq_ok, exists_const] at ht
      obtain ⟨-, -, rfl⟩ := ht
      exact hs.same rfl rfl
  | addAsset origin assetId max indexes =>
      obtain rfl := Option.some.inj h
      refine commit_induction (P := QuotaInv) hs fun t ht => ?_
      simp only [RelayQueue.addAsset, bind_eq_ok, ensure_eq_ok, pure_eq_ok, exists_const] at ht
      obtain ⟨-, -, -, -, -, -, -, rfl⟩ := ht
      exact hs.same rfl rfl
  | removeAsset origin assetId =>
      obtain rfl := Option.some.inj h
      refine commit_induction (P := QuotaInv) hs fun t ht => ?_
      simp only [RelayQueue.removeAsset, bind_eq_ok, ensure_eq_ok, pure_eq_ok, exists_const] at ht
      obtain ⟨-, -, -, rfl⟩ := ht
      exact hs.same rfl rfl
  | updateAsset origin assetId new add update remove =>
      obtain rfl := Option.some.inj h
      refine commit_induction (P := QuotaInv) hs fun t ht => ?_
      have hframe := updateAsset_assetsOnly t ht
      exact hs.same (by rw [hframe]) (by rw [hframe])
  | replaceAuthority old new =>
      obtain rfl := Option.some.inj h
      exact hs.replaceAuthority hsep

end Steps

/-! ## Results -/

section Results

variable {host : Host} {s : RelayQueue AccountId}

lemma ReachableIf.quotaInv (h : ReachableIf host (fun s i => i.Separate s) s) : QuotaInv s := by
  refine Reachable.invariant (P := QuotaInv) ?_ ?_ h
  · rintro s rfl
    refine ⟨fun a => rfl, fun k info hget => ?_, fun a => Nat.zero_le _⟩
    cases hget
  · intro s i s' hs hsep hstep
    exact hs.step hsep hstep

/-- **The quota is exact**, in every run in which a replacement finds at most one of the two accounts
with pending transfers. -/
theorem quota_exact (h : ReachableIf host (fun s i => i.Separate s) s) (r : AccountId) :
    s.pendingTransferCount.getD r 0 =
      (s.pendingTransfers.count fun info => info.onFlightVoters.head? = some r) ∧
    s.pendingTransferCount.getD r 0 ≤ maxPendingTransfersPerRelayer :=
  ⟨h.quotaInv.tallies r, h.quotaInv.bounded r⟩

end Results

/-! ## Small runs -/

/-- A vote for another source transaction of the sample. -/
def otherVote (majority authority : ℕ) : Step ℕ :=
  .onFlightPoll (sampleOutlook majority 0) ⟨authority, sampleBytes 1, sampleHash, 78⟩

/-- Relayer 3 has two pending transfers, and account 4 takes its place. -/
theorem quota_exact_sample : ∃ s : RelayQueue ℕ,
    ReachableIf sampleHost (fun s i => i.Separate s) s ∧ s.pendingTransferCount.getD 4 0 = 2 ∧
    (s.pendingTransfers.count fun info => info.onFlightVoters.head? = some 4) = 2 := by
  have hrun : (runSteps (checked (RelayQueue.step sampleHost) fun s i => i.Separate s)
      RelayQueue.genesis (sampleAsset ++ [sampleVote 3 3, otherVote 3 3, .replaceAuthority 3 4])).any
        (fun s => decide (s.pendingTransferCount.getD 4 0 = 2)) = true := by decide +kernel
  obtain ⟨s, hs, hcount⟩ := (Option.any_eq_true _ _).mp hrun
  have hreach : ReachableIf sampleHost (fun s i => i.Separate s) s :=
    Reachable.runChecked (.init rfl) hs
  have hcount := of_decide_eq_true hcount
  exact ⟨s, hreach, hcount, (quota_exact hreach 4).1.symm.trans hcount⟩

/-- **A transfer is no longer counted.**  Relayers 3 and 4 have one pending transfer each, and account 4
takes the place of relayer 3. -/
theorem quota_lost : ∃ s : RelayQueue ℕ, ReachableIf sampleHost anyStep s ∧
    s.pendingTransferCount.getD 4 0 = 1 ∧
    (s.pendingTransfers.count fun info => info.onFlightVoters.head? = some 4) = 2 := by
  have hrun : (runSteps (RelayQueue.step sampleHost) RelayQueue.genesis
      (sampleAsset ++ [sampleVote 3 3, otherVote 3 4, .replaceAuthority 3 4])).any
        (fun s => decide (s.pendingTransferCount.getD 4 0 = 1) &&
          decide ((s.pendingTransfers.count fun info => info.onFlightVoters.head? = some 4) = 2)) =
      true := by decide +kernel
  obtain ⟨s, hs, h⟩ := (Option.any_eq_true _ _).mp hrun
  simp only [Bool.and_eq_true, decide_eq_true_eq] at h
  exact ⟨s, Reachable.runSteps (.init rfl) hs, h⟩

end BifrostNode.Cccp
