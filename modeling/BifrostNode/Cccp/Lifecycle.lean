import BifrostNode.Cccp.QueueSpec

/-!
# The life of a transfer

A transfer is kept under the hash of its first message: pending under each source transaction that
somebody has voted for, then on flight, then finalized.  `Slide` says what one step can do to what is
kept under one hash, and everything here is read off it.

**Records.**  What a transfer says (`Record`) is written by the first vote for a source transaction.
Later votes add voters and recompute the option, and the source transaction that wins takes its record
along.
-/

namespace BifrostNode.Cccp

open Staking Transition

variable {AccountId : Type}

/-! ## Stages and records -/

inductive Stage
  | absent
  | pending
  | onFlight
  | finalized
  deriving DecidableEq

def Stage.rank : Stage → ℕ
  | absent => 0
  | pending => 1
  | onFlight => 2
  | finalized => 3

/-- What is recorded of a transfer, apart from its votes and its option. -/
structure Record where
  amount : ℕ
  sequenceId : U256
  srcChainId : ℕ
  dstChainId : ℕ
  assetIndexHash : H256
  socketMessage : Bytes
  deriving DecidableEq

def TransferInfo.record (t : TransferInfo AccountId) : Record :=
  ⟨t.amount, t.sequenceId, t.srcChainId, t.dstChainId, t.assetIndexHash, t.socketMessage⟩

namespace RelayQueue

def stage (s : RelayQueue AccountId) (k : H256) : Stage :=
  if s.finalizedTransfers.contains k then .finalized
  else if s.onFlightTransfers.contains k then .onFlight
  else if (s.pendingTransfers.keys.filter fun e => e.1 = k).Nonempty then .pending
  else .absent

/-- The transfer, once a source transaction has won. -/
def won (s : RelayQueue AccountId) (k : H256) : Option (TransferInfoWithTxId AccountId) :=
  (s.finalizedTransfers.get k).or (s.onFlightTransfers.get k)

/-- What is recorded under a source transaction. -/
def recordAt (s : RelayQueue AccountId) (k srcTxId : H256) : Option Record :=
  match s.won k with
  | some t => if t.srcTxId = srcTxId then some t.record else none
  | none => (s.pendingTransfers.get (k, srcTxId)).map TransferInfo.record

/-- A hash is in use in at most one of the stages. -/
structure AtMostOnce (s : RelayQueue AccountId) (k : H256) : Prop where
  pending : ∀ tx p, s.pendingTransfers.get (k, tx) = some p →
    s.onFlightTransfers.get k = none ∧ s.finalizedTransfers.get k = none
  onFlight : ∀ t, s.onFlightTransfers.get k = some t → s.finalizedTransfers.get k = none

end RelayQueue

/-- The moves from one stage to another.  Only a vote that is a majority by itself skips one. -/
inductive Progress (i : Step AccountId) : Stage → Stage → Prop
  | stay (x : Stage) : Progress i x x
  | submitted : Progress i .absent .pending
  | approved : Progress i .pending .onFlight
  | approvedAtOnce {o : Outlook AccountId} {sub : OnFlightPollSubmission AccountId}
      (hi : i = .onFlightPoll o sub) (hmajority : o.majority ≤ 1) : Progress i .absent .onFlight
  | closed : Progress i .onFlight .finalized

/-- **What a step does under one hash**: votes only, a first vote, a winner, or the end of the transfer. -/
inductive Slide (i : Step AccountId) (s s' : RelayQueue AccountId) (k : H256) : Prop
  /-- Nothing but votes. -/
  | votes (hpending : ∀ tx, (s'.pendingTransfers.get (k, tx)).map TransferInfo.record =
        (s.pendingTransfers.get (k, tx)).map TransferInfo.record)
      (honFlight : (s'.onFlightTransfers.get k).map (fun t => (t.srcTxId, t.record)) =
        (s.onFlightTransfers.get k).map fun t => (t.srcTxId, t.record))
      (hfinalized : s'.finalizedTransfers.get k = s.finalizedTransfers.get k)
  /-- A first vote for a source transaction. -/
  | submitted {tx : H256} (hnone : s.pendingTransfers.get (k, tx) = none)
      (hflight : s.onFlightTransfers.get k = none) (hfinal : s.finalizedTransfers.get k = none)
      (hnew : (s'.pendingTransfers.get (k, tx)).isSome)
      (hpending : ∀ tx', tx' ≠ tx → s'.pendingTransfers.get (k, tx') = s.pendingTransfers.get (k, tx'))
      (hflight' : s'.onFlightTransfers.get k = none) (hfinal' : s'.finalizedTransfers.get k = none)
  /-- A source transaction wins. -/
  | launched {tx : H256} {t : TransferInfoWithTxId AccountId}
      (hflight : s.onFlightTransfers.get k = none) (hfinal : s.finalizedTransfers.get k = none)
      (hpending : ∀ tx', s'.pendingTransfers.get (k, tx') = none)
      (hflight' : s'.onFlightTransfers.get k = some t) (hfinal' : s'.finalizedTransfers.get k = none)
      (htx : t.srcTxId = tx)
      (hrecord : ∀ p, s.pendingTransfers.get (k, tx) = some p → p.record = t.record)
      (hfirst : s.pendingTransfers.get (k, tx) = none →
        ∃ o sub, i = .onFlightPoll o sub ∧ o.majority ≤ 1)
  /-- The transfer is finalized. -/
  | closed {t t' : TransferInfoWithTxId AccountId} (hflight : s.onFlightTransfers.get k = some t)
      (hfinal : s.finalizedTransfers.get k = none)
      (hpending : ∀ tx, s'.pendingTransfers.get (k, tx) = s.pendingTransfers.get (k, tx))
      (hflight' : s'.onFlightTransfers.get k = none)
      (hfinal' : s'.finalizedTransfers.get k = some t')
      (hsame : (t'.srcTxId, t'.record) = (t.srcTxId, t.record))

/-! ## One step -/

section Steps

variable {i : Step AccountId} {s s' : RelayQueue AccountId} {k : H256}

/-- The transfers are where they were. -/
lemma Slide.of_eq (hp : s'.pendingTransfers = s.pendingTransfers)
    (ho : s'.onFlightTransfers = s.onFlightTransfers)
    (hf : s'.finalizedTransfers = s.finalizedTransfers) : Slide i s s' k := by
  refine .votes (fun tx => ?_) ?_ ?_
  · rw [hp]
  · rw [ho]
  · rw [hf]

/-- Governance leaves the transfers alone. -/
def Aside (s s' : RelayQueue AccountId) : Prop :=
  s'.pendingTransfers = s.pendingTransfers ∧ s'.onFlightTransfers = s.onFlightTransfers ∧
    s'.finalizedTransfers = s.finalizedTransfers

lemma updateAsset_aside {origin : Origin AccountId} {assetId : H160} {new : Option ℕ}
    {add update : Option (List AssetIndexInfo)} {remove : Option (List H256)} :
    Returns (Aside s) (s.updateAsset origin assetId new add update remove) := by
  intro s' h
  simp only [RelayQueue.updateAsset, bind_eq_ok, ensure_eq_ok, okOr_eq_ok, exists_const] at h
  obtain ⟨-, -, -, -, -, -, -, -, -, -, cap, -, s₁, h₁, s₂, h₂, s₃, h₃, h⟩ := h
  have hs₁ : Aside s s₁ := by
    cases new with
    | none =>
        simp only [RelayQueue.updateCap, pure_eq_ok] at h₁
        subst h₁
        exact ⟨rfl, rfl, rfl⟩
    | some new =>
        simp only [RelayQueue.updateCap, bind_eq_ok, ensure_eq_ok, pure_eq_ok, exists_const] at h₁
        obtain ⟨-, -, -, -, rfl⟩ := h₁
        exact ⟨rfl, rfl, rfl⟩
  have hs₂ : Aside s s₂ := by
    refine Returns.foldlM (P := Aside s) (fun t j ht t' ht' => ?_) hs₁ s₂ h₂
    simp only [RelayQueue.addIndex, bind_eq_ok, ensure_eq_ok, pure_eq_ok, exists_const] at ht'
    obtain ⟨-, -, rfl⟩ := ht'
    exact ht
  have hs₃ : Aside s s₃ := by
    refine Returns.foldlM (P := Aside s) (fun t j ht t' ht' => ?_) hs₂ s₃ h₃
    simp only [RelayQueue.updateIndex, bind_eq_ok, ensure_eq_ok, pure_eq_ok, exists_const] at ht'
    obtain ⟨-, -, rfl⟩ := ht'
    exact ht
  simp only [RelayQueue.dropIndexes, bind_eq_ok, ensure_eq_ok, pure_eq_ok, exists_const] at h
  obtain ⟨-, -, -, rfl⟩ := h
  exact hs₃

lemma takeCap_aside {info : TransferInfo AccountId} {index : H256} {amount : ℕ} :
    Returns (Aside s) (s.takeCap info index amount) := by
  have hstay : Returns (Aside s) (pure s : Except Error (RelayQueue AccountId)) :=
    .pure ⟨rfl, rfl, rfl⟩
  rw [RelayQueue.takeCap]
  split
  · refine .ite (fun s' h => ?_) hstay
    obtain ⟨new, rfl, -⟩ := updateFastTransferCap_ok h
    exact ⟨rfl, rfl, rfl⟩
  · exact hstay

lemma Aside.slide (h : Aside s s') : Slide i s s' k := .of_eq h.1 h.2.1 h.2.2

variable [LinearOrder AccountId] {host : Host}

lemma onFlightPoll_slide {o : Outlook AccountId} {sub : OnFlightPollSubmission AccountId}
    (h : s.onFlightPoll host o sub = .ok s') : Slide (.onFlightPoll o sub) s s' k := by
  obtain ⟨parsed, info, hp, hcase⟩ := onFlightPoll_ok h
  have hrecord : ∀ p, s.pendingTransfers.get (sub.msgHash, sub.srcTxId) = some p →
      p.record = info.record := by
    intro p hget
    rcases hp.entry with ⟨pending, hpending, -, hinfo⟩ | ⟨hnone, -⟩
    · obtain rfl := Option.some.inj (hget.symm.trans hpending)
      rw [hinfo]
      rfl
    · rw [hget] at hnone
      cases hnone
  rcases hcase with ⟨hmajority, s₁, h₁, rfl⟩ | ⟨-, rfl⟩
  · obtain ⟨hpending, hflight, hfinal⟩ : Aside s s₁ := takeCap_aside s₁ h₁
    by_cases hk : k = sub.msgHash
    · subst hk
      refine .launched hp.not_onFlight hp.not_finalized (fun tx => ?_)
        (StorageMap.get_insert_self _ _ _) (hfinal ▸ hp.not_finalized) rfl hrecord fun hnone => ?_
      · simp [RelayQueue.clearPending]
      · rcases hp.entry with ⟨pending, hpending, -⟩ | ⟨-, hvoters, -⟩
        · cases hnone.symm.trans hpending
        · rw [hvoters] at hmajority
          exact ⟨o, sub, rfl, hmajority⟩
    · refine .votes (fun tx => ?_) ?_ (by rw [← hfinal]; rfl)
      · simp [RelayQueue.clearPending, hk, hpending]
      · simp only [StorageMap.get_insert_of_ne _ hk, RelayQueue.clearPending, hflight]
  · by_cases hk : k = sub.msgHash
    · subst hk
      cases hget : s.pendingTransfers.get (sub.msgHash, sub.srcTxId) with
      | none =>
          refine .submitted hget hp.not_onFlight hp.not_finalized ?_ (fun tx htx => ?_)
            hp.not_onFlight hp.not_finalized
          · simp [RelayQueue.keepPending]
          · exact StorageMap.get_insert_of_ne _ (by simp [htx]) _
      | some p =>
          refine .votes (fun tx => ?_) rfl rfl
          simp only [RelayQueue.keepPending, StorageMap.get_insert, Prod.mk.injEq, true_and]
          split_ifs with htx
          · rw [htx, hget, Option.map_some, Option.map_some, hrecord p hget]
          · rfl
    · refine .votes (fun tx => ?_) rfl rfl
      simp [RelayQueue.keepPending, hk]

lemma finalizePoll_slide {o : Outlook AccountId} {sub : FinalizePollSubmission AccountId}
    (h : s.finalizePoll host o sub = .ok s') : Slide (.finalizePoll o sub) s s' k := by
  obtain ⟨parsed, t, hc, hcase⟩ := finalizePoll_ok h
  rcases hcase with ⟨hfin, -⟩ | ⟨-, rfl⟩
  · obtain ⟨caps, rfl, -⟩ := finalize_ok hfin
    by_cases hk : k = parsed.requested.hash host.codec
    · subst hk
      exact .closed hc.onFlight hc.not_finalized (fun _ => rfl) (StorageMap.get_remove_self _ _)
        (StorageMap.get_insert_self _ _ _) rfl
    · refine .votes (fun _ => rfl) ?_ (StorageMap.get_insert_of_ne _ hk _)
      simp only [StorageMap.get_remove_of_ne _ hk]
  · refine .votes (fun _ => rfl) ?_ rfl
    simp only [StorageMap.get_insert]
    split_ifs with hk
    · rw [hk, hc.onFlight]
      rfl
    · rfl

/-- **One step**: a poll that is accepted, a replacement, or nothing that has to do with transfers. -/
lemma step_cases (h : s.step host i = some s') :
    Aside s s' ∨ (∃ o sub, i = .onFlightPoll o sub ∧ s.onFlightPoll host o sub = .ok s') ∨
      (∃ o sub, i = .finalizePoll o sub ∧ s.finalizePoll host o sub = .ok s') ∨
      ∃ old new, i = .replaceAuthority old new ∧ s' = s.replaceAuthority old new := by
  have hstay : Aside s s := ⟨rfl, rfl, rfl⟩
  cases i with
  | onFlightPoll o sub =>
      obtain rfl := Option.some.inj h
      cases hr : s.onFlightPoll host o sub with
      | error e => exact .inl hstay
      | ok t => exact .inr (.inl ⟨o, sub, rfl, hr⟩)
  | finalizePoll o sub =>
      obtain rfl := Option.some.inj h
      cases hr : s.finalizePoll host o sub with
      | error e => exact .inl hstay
      | ok t => exact .inr (.inr (.inl ⟨o, sub, rfl, hr⟩))
  | setSocket origin new =>
      obtain rfl := Option.some.inj h
      refine .inl (commit_induction (P := Aside s) hstay fun t ht => ?_)
      simp only [RelayQueue.setSocket, bind_eq_ok, ensure_eq_ok, pure_eq_ok, exists_const] at ht
      obtain ⟨-, -, rfl⟩ := ht
      exact ⟨rfl, rfl, rfl⟩
  | addAsset origin assetId max indexes =>
      obtain rfl := Option.some.inj h
      refine .inl (commit_induction (P := Aside s) hstay fun t ht => ?_)
      simp only [RelayQueue.addAsset, bind_eq_ok, ensure_eq_ok, pure_eq_ok, exists_const] at ht
      obtain ⟨-, -, -, -, -, -, -, rfl⟩ := ht
      exact ⟨rfl, rfl, rfl⟩
  | removeAsset origin assetId =>
      obtain rfl := Option.some.inj h
      refine .inl (commit_induction (P := Aside s) hstay fun t ht => ?_)
      simp only [RelayQueue.removeAsset, bind_eq_ok, ensure_eq_ok, pure_eq_ok, exists_const] at ht
      obtain ⟨-, -, -, rfl⟩ := ht
      exact ⟨rfl, rfl, rfl⟩
  | updateAsset origin assetId new add update remove =>
      obtain rfl := Option.some.inj h
      exact .inl (commit_induction (P := Aside s) hstay updateAsset_aside)
  | replaceAuthority old new =>
      obtain rfl := Option.some.inj h
      exact .inr (.inr (.inr ⟨old, new, rfl, rfl⟩))

/-- **Step lemma.**  Under one hash every step does one of these things. -/
lemma step_slide (h : s.step host i = some s') : Slide i s s' k := by
  rcases step_cases h with hs | ⟨o, sub, rfl, hs⟩ | ⟨o, sub, rfl, hs⟩ | ⟨old, new, rfl, rfl⟩
  · exact hs.slide
  · exact onFlightPoll_slide hs
  · exact finalizePoll_slide hs
  · refine .votes (fun tx => ?_) ?_ rfl
    · simp only [RelayQueue.replaceAuthority, StorageMap.get_mapVals, Option.map_map]
      rfl
    · simp only [RelayQueue.replaceAuthority, StorageMap.get_mapVals, Option.map_map]
      rfl

end Steps

/-! ## Stages -/

section Stages

variable {i : Step AccountId} {s s' : RelayQueue AccountId} {k : H256}

lemma Slide.atMostOnce (h : Slide i s s' k) (hs : s.AtMostOnce k) : s'.AtMostOnce k := by
  cases h with
  | votes hpending honFlight hfinalized =>
      have hflight : s'.onFlightTransfers.get k = none ↔ s.onFlightTransfers.get k = none := by
        rw [← Option.map_eq_none_iff, honFlight, Option.map_eq_none_iff]
      refine ⟨fun tx p hp => ?_, fun t ht => ?_⟩
      · have hrec := hpending tx
        rw [hp, Option.map_some] at hrec
        obtain ⟨p₀, hp₀, -⟩ := Option.map_eq_some_iff.mp hrec.symm
        rw [hflight, hfinalized]
        exact hs.pending tx p₀ hp₀
      · rw [hfinalized]
        cases hold : s.onFlightTransfers.get k with
        | none =>
            rw [hflight.mpr hold] at ht
            cases ht
        | some t₀ => exact hs.onFlight t₀ hold
  | submitted _ _ _ _ _ hflight' hfinal' =>
      exact ⟨fun _ _ _ => ⟨hflight', hfinal'⟩, fun _ _ => hfinal'⟩
  | launched _ _ hpending hflight' hfinal' =>
      refine ⟨fun tx p hp => ?_, fun _ _ => hfinal'⟩
      rw [hpending tx] at hp
      cases hp
  | closed hflight hfinal hpending hflight' hfinal' =>
      refine ⟨fun tx p hp => ?_, fun t ht => ?_⟩
      · rw [hpending] at hp
        rw [(hs.pending tx p hp).1] at hflight
        cases hflight
      · rw [hflight'] at ht
        cases ht

lemma pending_nonempty : (s.pendingTransfers.keys.filter fun e => e.1 = k).Nonempty ↔
    ∃ tx, s.pendingTransfers.get (k, tx) ≠ none := by
  simp only [Finset.Nonempty, Finset.mem_filter, StorageMap.mem_keys_iff, Prod.exists,
    Option.ne_none_iff_exists']
  constructor
  · rintro ⟨j, tx, hp, rfl⟩
    exact ⟨tx, hp⟩
  · rintro ⟨tx, hp⟩
    exact ⟨k, tx, hp, rfl⟩

lemma stage_finalized (hf : s.finalizedTransfers.get k ≠ none) : s.stage k = .finalized := by
  rw [RelayQueue.stage, if_pos]
  exact Option.isSome_iff_ne_none.mpr hf

lemma stage_onFlight (hf : s.finalizedTransfers.get k = none)
    (ho : s.onFlightTransfers.get k ≠ none) : s.stage k = .onFlight := by
  rw [RelayQueue.stage, if_neg (by simp [StorageMap.contains, hf]), if_pos]
  exact Option.isSome_iff_ne_none.mpr ho

lemma stage_pending (hf : s.finalizedTransfers.get k = none)
    (ho : s.onFlightTransfers.get k = none) (hp : ∃ tx, s.pendingTransfers.get (k, tx) ≠ none) :
    s.stage k = .pending := by
  rw [RelayQueue.stage, if_neg (by simp [StorageMap.contains, hf]),
    if_neg (by simp [StorageMap.contains, ho]), if_pos (pending_nonempty.mpr hp)]

lemma stage_absent (hf : s.finalizedTransfers.get k = none)
    (ho : s.onFlightTransfers.get k = none) (hp : ∀ tx, s.pendingTransfers.get (k, tx) = none) :
    s.stage k = .absent := by
  rw [RelayQueue.stage, if_neg (by simp [StorageMap.contains, hf]),
    if_neg (by simp [StorageMap.contains, ho]), if_neg]
  rw [pending_nonempty]
  simp [hp]

lemma Slide.progress (h : Slide i s s' k) :
    Progress i (s.stage k) (s'.stage k) := by
  cases h with
  | votes hpending honFlight hfinalized =>
      have hflight : s'.onFlightTransfers.get k = none ↔ s.onFlightTransfers.get k = none := by
        rw [← Option.map_eq_none_iff, honFlight, Option.map_eq_none_iff]
      have hpend : ∀ tx, s'.pendingTransfers.get (k, tx) = none ↔
          s.pendingTransfers.get (k, tx) = none := by
        intro tx
        rw [← Option.map_eq_none_iff, hpending tx, Option.map_eq_none_iff]
      have hsame : s'.stage k = s.stage k := by
        by_cases hf : s.finalizedTransfers.get k = none
        · have hf' : s'.finalizedTransfers.get k = none := hfinalized.trans hf
          by_cases ho : s.onFlightTransfers.get k = none
          · by_cases hp : ∃ tx, s.pendingTransfers.get (k, tx) ≠ none
            · obtain ⟨tx, htx⟩ := hp
              rw [stage_pending hf ho ⟨tx, htx⟩,
                stage_pending hf' (hflight.mpr ho) ⟨tx, mt (hpend tx).mp htx⟩]
            · have hnone : ∀ tx, s.pendingTransfers.get (k, tx) = none := by simpa using hp
              rw [stage_absent hf ho hnone,
                stage_absent hf' (hflight.mpr ho) fun tx => (hpend tx).mpr (hnone tx)]
          · rw [stage_onFlight hf ho, stage_onFlight hf' (mt hflight.mp ho)]
        · rw [stage_finalized hf, stage_finalized (hfinalized ▸ hf)]
      rw [hsame]
      exact .stay _
  | @submitted tx hnone hflight hfinal hnew hpending hflight' hfinal' =>
      have hafter : s'.stage k = .pending :=
        stage_pending hfinal' hflight' ⟨tx, Option.isSome_iff_ne_none.mp hnew⟩
      rw [hafter]
      by_cases hbefore : ∃ tx', s.pendingTransfers.get (k, tx') ≠ none
      · rw [stage_pending hfinal hflight hbefore]
        exact .stay _
      · rw [stage_absent hfinal hflight (by simpa using hbefore)]
        exact .submitted
  | @launched tx t hflight hfinal hpending hflight' hfinal' htx hrecord hfirst =>
      have hafter : s'.stage k = .onFlight :=
        stage_onFlight hfinal' (by simp [hflight'])
      rw [hafter]
      by_cases hbefore : ∃ tx', s.pendingTransfers.get (k, tx') ≠ none
      · rw [stage_pending hfinal hflight hbefore]
        exact .approved
      · have hnone : ∀ tx', s.pendingTransfers.get (k, tx') = none := by simpa using hbefore
        rw [stage_absent hfinal hflight hnone]
        obtain ⟨o, sub, hi, hmajority⟩ := hfirst (hnone tx)
        exact .approvedAtOnce hi hmajority
  | closed hflight hfinal hpending hflight' hfinal' =>
      rw [stage_onFlight hfinal (by simp [hflight]), stage_finalized (by simp [hfinal'])]
      exact .closed

lemma Progress.rank_le {x y : Stage} (h : Progress i x y) : x.rank ≤ y.rank := by
  cases h <;> simp [Stage.rank]

end Stages

/-! ## Records -/

section Records

variable {i : Step AccountId} {s s' : RelayQueue AccountId} {k : H256}

lemma recordAt_won {t : TransferInfoWithTxId AccountId} (h : s.won k = some t) (tx : H256) :
    s.recordAt k tx = if t.srcTxId = tx then some t.record else none := by
  rw [RelayQueue.recordAt, h]

lemma recordAt_pending (h : s.won k = none) (tx : H256) :
    s.recordAt k tx = (s.pendingTransfers.get (k, tx)).map TransferInfo.record := by
  rw [RelayQueue.recordAt, h]

lemma won_eq_none : s.won k = none ↔
    s.finalizedTransfers.get k = none ∧ s.onFlightTransfers.get k = none := by
  rw [RelayQueue.won, Option.or_eq_none_iff]

/-- What has won stays, with its source transaction and its record. -/
lemma Slide.won (h : Slide i s s' k) {t : TransferInfoWithTxId AccountId} (ht : s.won k = some t) :
    ∃ t', s'.won k = some t' ∧ t'.srcTxId = t.srcTxId ∧ t'.record = t.record := by
  have hnotnone : ¬ (s.finalizedTransfers.get k = none ∧ s.onFlightTransfers.get k = none) := by
    rw [← won_eq_none, ht]
    simp
  cases h with
  | votes hpending honFlight hfinalized =>
      cases hf : s.finalizedTransfers.get k with
      | some u =>
          obtain rfl : u = t := by simpa [RelayQueue.won, hf] using ht
          exact ⟨u, by simp [RelayQueue.won, hfinalized, hf], rfl, rfl⟩
      | none =>
          have ho : s.onFlightTransfers.get k = some t := by simpa [RelayQueue.won, hf] using ht
          rw [ho, Option.map_some] at honFlight
          obtain ⟨t', ht', hsame⟩ := Option.map_eq_some_iff.mp honFlight
          rw [Prod.mk.injEq] at hsame
          exact ⟨t', by simp [RelayQueue.won, hfinalized, hf, ht'], hsame⟩
  | submitted _ hflight hfinal => exact absurd ⟨hfinal, hflight⟩ hnotnone
  | launched hflight hfinal => exact absurd ⟨hfinal, hflight⟩ hnotnone
  | @closed u u' hflight hfinal _ _ hfinal' hsame =>
      obtain rfl : u = t := by simpa [RelayQueue.won, hfinal, hflight] using ht
      rw [Prod.mk.injEq] at hsame
      exact ⟨u', by simp [RelayQueue.won, hfinal'], hsame⟩

/-- The record under a source transaction is still there, unless another one has won. -/
def RelayQueue.Keeps (s : RelayQueue AccountId) (k tx : H256) (r : Record) : Prop :=
  s.recordAt k tx = some r ∨ ∃ t, s.won k = some t ∧ t.srcTxId ≠ tx

lemma Slide.keeps (h : Slide i s s' k) {tx : H256} {r : Record} (hs : s.Keeps k tx r) :
    s'.Keeps k tx r := by
  cases hwon : s.won k with
  | some t =>
      obtain ⟨t', ht', hsrc, hrec⟩ := h.won hwon
      rcases hs with hs | ⟨u, hu, hne⟩
      · rw [recordAt_won hwon] at hs
        refine .inl ?_
        rw [recordAt_won ht', hsrc, hrec]
        exact hs
      · obtain rfl := Option.some.inj (hu.symm.trans hwon)
        exact .inr ⟨t', ht', hsrc ▸ hne⟩
  | none =>
      have hpend : (s.pendingTransfers.get (k, tx)).map TransferInfo.record = some r := by
        rcases hs with hs | ⟨u, hu, -⟩
        · rwa [recordAt_pending hwon] at hs
        · rw [hwon] at hu
          cases hu
      obtain ⟨hf, ho⟩ := won_eq_none.mp hwon
      cases h with
      | votes hpending honFlight hfinalized =>
          have ho' : s'.onFlightTransfers.get k = none := by
            rw [← Option.map_eq_none_iff, honFlight, ho]
            rfl
          refine .inl ?_
          rw [recordAt_pending (won_eq_none.mpr ⟨hfinalized.trans hf, ho'⟩), hpending, hpend]
      | @submitted tx' hnone _ _ _ hpending hflight' hfinal' =>
          have hne : tx ≠ tx' := by
            rintro rfl
            rw [hnone] at hpend
            cases hpend
          refine .inl ?_
          rw [recordAt_pending (won_eq_none.mpr ⟨hfinal', hflight'⟩), hpending tx hne, hpend]
      | @launched tx' t _ _ _ hflight' hfinal' htx hrecord _ =>
          have hwon' : s'.won k = some t := by simp [RelayQueue.won, hfinal', hflight']
          by_cases hne : t.srcTxId = tx
          · refine .inl ?_
            obtain ⟨p, hp, hr⟩ := Option.map_eq_some_iff.mp hpend
            rw [recordAt_won hwon', if_pos hne, ← hrecord p (by rw [← htx, hne]; exact hp), hr]
          · exact .inr ⟨t, hwon', hne⟩
      | closed hflight =>
          rw [ho] at hflight
          cases hflight

/-- What is finalized stays as it is. -/
lemma Slide.finalized (h : Slide i s s' k) {t : TransferInfoWithTxId AccountId}
    (ht : s.finalizedTransfers.get k = some t) : s'.finalizedTransfers.get k = some t := by
  cases h with
  | votes _ _ hfinalized => exact hfinalized.trans ht
  | submitted _ _ hfinal => cases hfinal.symm.trans ht
  | launched _ hfinal => cases hfinal.symm.trans ht
  | closed _ hfinal => cases hfinal.symm.trans ht

end Records

/-! ## Runs -/

section Runs

variable [LinearOrder AccountId] {host : Host} {s : RelayQueue AccountId}

lemma ReachableIf.atMostOnce (h : ReachableIf host anyStep s) (k : H256) : s.AtMostOnce k := by
  refine Reachable.invariant (fun s hs => ?_) (fun s i s' hs _ hi => (step_slide hi).atMostOnce hs) h
  subst hs
  exact ⟨by simp [RelayQueue.genesis], by simp [RelayQueue.genesis]⟩

/-- **The life of a transfer**, in every run: it is in one stage at a time and goes through them one
after the other, what is finalized never changes, and a record is kept as long as its source
transaction has not lost. -/
theorem transfer_lifecycle (h : ReachableIf host anyStep s) (k : H256) :
    s.AtMostOnce k ∧
    (∀ i s', s.step host i = some s' → Progress i (s.stage k) (s'.stage k)) ∧
    ∀ s', Leads (RelayQueue.step host) s s' →
      (s.stage k).rank ≤ (s'.stage k).rank ∧
      (∀ t, s.finalizedTransfers.get k = some t → s'.finalizedTransfers.get k = some t ∧
        s'.onFlightTransfers.get k = none ∧ ∀ tx, s'.pendingTransfers.get (k, tx) = none) ∧
      ∀ tx r, s.recordAt k tx = some r →
        s'.recordAt k tx = some r ∨ ∃ t, s'.won k = some t ∧ t.srcTxId ≠ tx := by
  refine ⟨h.atMostOnce k, fun i s' hi => (step_slide hi).progress, fun s' hrun => ⟨?_, ?_, ?_⟩⟩
  · refine Leads.invariant (P := fun u => (s.stage k).rank ≤ (u.stage k).rank)
      (fun u i u' hu hi => ?_) hrun le_rfl
    exact hu.trans (step_slide hi).progress.rank_le
  · intro t ht
    have hpair : s'.finalizedTransfers.get k = some t ∧ s'.AtMostOnce k := by
      refine Leads.invariant (P := fun u => u.finalizedTransfers.get k = some t ∧ u.AtMostOnce k)
        (fun u i u' hu hi => ?_) hrun ⟨ht, h.atMostOnce k⟩
      exact ⟨(step_slide hi).finalized hu.1, (step_slide hi).atMostOnce hu.2⟩
    obtain ⟨hfinal, honce⟩ := hpair
    refine ⟨hfinal, ?_, fun tx => ?_⟩
    · cases ho : s'.onFlightTransfers.get k with
      | none => rfl
      | some u => cases (honce.onFlight u ho).symm.trans hfinal
    · cases hp : s'.pendingTransfers.get (k, tx) with
      | none => rfl
      | some p => cases (honce.pending tx p hp).2.symm.trans hfinal
  · intro tx r hr
    exact Leads.invariant (P := fun u => u.Keeps k tx r)
      (fun u i u' hu hi => (step_slide hi).keeps hu) hrun (.inl hr)

/-- The sample, from its first vote to its end. -/
theorem transfer_lifecycle_sample : ∃ s s' : RelayQueue ℕ, ReachableIf sampleHost anyStep s ∧
    Leads (RelayQueue.step sampleHost) s s' ∧ s.stage sampleHash = .pending ∧
    s'.stage sampleHash = .finalized ∧
    ∃ r, s.recordAt sampleHash 77 = some r ∧ (s'.recordAt sampleHash 77 = some r ∨
      ∃ t, s'.won sampleHash = some t ∧ t.srcTxId ≠ 77) := by
  have hrun : (runSteps (RelayQueue.step sampleHost) RelayQueue.genesis
      (sampleAsset ++ [sampleVote 2 3])).any (fun s => decide (s.stage sampleHash = .pending) &&
        (s.recordAt sampleHash 77).isSome && (runSteps (RelayQueue.step sampleHost) s
          [sampleVote 2 4, sampleEnd 2 3, sampleEnd 2 4]).any fun s' =>
            decide (s'.stage sampleHash = .finalized)) = true := by decide +kernel
  obtain ⟨s, hs, h⟩ := (Option.any_eq_true _ _).mp hrun
  simp only [Bool.and_eq_true, decide_eq_true_eq] at h
  obtain ⟨⟨hpending, hsome⟩, h⟩ := h
  obtain ⟨s', hs', hfinal⟩ := (Option.any_eq_true _ _).mp h
  obtain ⟨r, hr⟩ := Option.isSome_iff_exists.mp hsome
  have hreach : ReachableIf sampleHost anyStep s := Reachable.runSteps (.init rfl) hs
  have hleads : Leads (RelayQueue.step sampleHost) s s' := Leads.runSteps hs'
  exact ⟨s, s', hreach, hleads, hpending, of_decide_eq_true hfinal, r, hr,
    ((transfer_lifecycle hreach sampleHash).2.2 s' hleads).2.2 77 r hr⟩

end Runs

end BifrostNode.Cccp
