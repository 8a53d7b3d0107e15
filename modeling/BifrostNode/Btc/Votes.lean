import BifrostNode.Btc.CoinMoves
import BifrostNode.Lib.Ballots

/-!
# Who votes for coins and broadcasts

**Votes** keep whatever is good about the ballots of Blaze, if a vote of somebody new does
(`Blaze.EveryBallot.step`).

**Every ballot has distinct voters**, as far as votes go: `submit_utxos` skips a coin that the relayer has
voted for, and `broadcast_poll` refuses a second vote.  `replace_authority` puts the new account at the end
of a ballot without looking whether it is there.  It leaves coins alone that are confirmed.

**Majorities.**  A broadcast is confirmed by a majority only, and so are coins that are submitted.
-/

namespace BifrostNode.Btc

open Cccp Staking Transition Pool Queue StorageMap

variable {AccountId : Type}

namespace Blaze

/-- **Nobody is on a ballot twice**, on that of a coin or on that of a transaction. -/
structure VotersDistinct (b : Blaze AccountId) : Prop where
  coins : b.utxos.Every fun _ u => u.voters.Nodup
  pending : b.pendingTxs.Every fun _ tx => tx.voters.Nodup
  confirmed : b.confirmedTxs.Every fun _ tx => tx.voters.Nodup

/-- No ballot that `replace_authority` rewrites has both accounts on it. -/
structure Uncontested (old new : AccountId) (b : Blaze AccountId) : Prop where
  coins : b.utxos.Every fun _ u => u.status = .unconfirmed → Ballots.Uncontested old new u.voters
  pending : b.pendingTxs.Every fun _ tx => Ballots.Uncontested old new tx.voters

instance decidableUncontested [DecidableEq AccountId] (old new : AccountId) (b : Blaze AccountId) :
    Decidable (b.Uncontested old new) :=
  decidable_of_iff
    (b.utxos.Every (fun _ u => u.status = .unconfirmed → Ballots.Uncontested old new u.voters) ∧
      b.pendingTxs.Every fun _ tx => Ballots.Uncontested old new tx.voters)
    ⟨fun h => ⟨h.1, h.2⟩, fun h => ⟨h.coins, h.pending⟩⟩

/-- **Every ballot** is good. -/
structure EveryBallot (good : List AccountId → Prop) (b : Blaze AccountId) : Prop where
  coins : b.utxos.Every fun _ u => good u.voters
  pending : b.pendingTxs.Every fun _ tx => good tx.voters
  confirmed : b.confirmedTxs.Every fun _ tx => good tx.voters

lemma genesis_everyBallot {good : List AccountId → Prop} :
    (genesis : Blaze AccountId).EveryBallot good := ⟨.empty, .empty, .empty⟩

lemma votersDistinct_iff {b : Blaze AccountId} : b.VotersDistinct ↔ b.EveryBallot List.Nodup :=
  ⟨fun h => ⟨h.coins, h.pending, h.confirmed⟩, fun h => ⟨h.coins, h.pending, h.confirmed⟩⟩

lemma genesis_votersDistinct : (genesis : Blaze AccountId).VotersDistinct :=
  votersDistinct_iff.mpr genesis_everyBallot

section Ballots

variable {host : Host AccountId} {b b' b'' : Blaze AccountId} {good : List AccountId → Prop}
  {may : AccountId → Prop}

/-! ## Transactions -/

/-- Nobody votes for a transaction: those that are there keep their ballots, and new ones have none. -/
structure Tabled (b b' : Blaze AccountId) : Prop where
  pending : ∀ k tx, b'.pendingTxs.get k = some tx → b.pendingTxs.get k = some tx ∨ tx.voters = []
  confirmed : b'.confirmedTxs = b.confirmedTxs

lemma Tabled.of_eq (hp : b'.pendingTxs = b.pendingTxs) (hc : b'.confirmedTxs = b.confirmedTxs) :
    b.Tabled b' :=
  ⟨fun _ _ htx => .inl (hp ▸ htx), hc⟩

lemma Tabled.trans (h : b.Tabled b') (h' : b'.Tabled b'') : b.Tabled b'' := by
  refine ⟨fun k tx htx => ?_, h'.confirmed.trans h.confirmed⟩
  rcases h'.pending k tx htx with hkept | hnew
  · exact h.pending k tx hkept
  · exact .inr hnew

lemma Tabled.everyBallot (h : b.Tabled b') (hgood : Ballots.KeptByVotes good may)
    (hb : b.EveryBallot good) (hcoins : b'.utxos.Every fun _ u => good u.voters) :
    b'.EveryBallot good := by
  refine ⟨hcoins, fun k tx htx => ?_, ?_⟩
  · rcases h.pending k tx htx with hkept | hnew
    · exact hb.pending k tx hkept
    · rw [hnew]
      exact hgood.nil
  · rw [h.confirmed]
    exact hb.confirmed

lemma CoinsOnly.tabled (h : b.CoinsOnly b') : b.Tabled b' := by
  rw [CoinsOnly] at h
  exact .of_eq (by rw [h]) (by rw [h])

lemma lockUtxos_tabled {txid : H256} {inputs : List UtxoInfoWithSize} :
    Returns b.Tabled (b.lockUtxos txid inputs) := by
  intro b' h
  simp only [lockUtxos, bind_eq_ok, pure_eq_ok] at h
  obtain ⟨b₁, h₁, rfl⟩ := h
  have hset := (setStatus_coinsOnly b₁ h₁).tabled
  refine ⟨fun k tx htx => ?_, hset.confirmed⟩
  simp only [get_insert] at htx
  split_ifs at htx
  · obtain rfl := Option.some.inj htx
    exact .inr rfl
  · exact hset.pending k tx htx

lemma unlockUtxos_tabled {txid : H256} : Returns b.Tabled (b.unlockUtxos txid) := by
  intro b' h
  simp only [unlockUtxos, bind_eq_ok, okOr_eq_ok] at h
  obtain ⟨tx, -, h⟩ := h
  have hremove : b.Tabled { b with pendingTxs := b.pendingTxs.remove txid } := by
    refine ⟨fun k tx htx => .inl ?_, rfl⟩
    simp only [get_remove] at htx
    split_ifs at htx
    exact htx
  exact hremove.trans (setStatus_coinsOnly b' h).tabled

lemma handleToleranceCounter_tabled (host : Host AccountId) (b : Blaze AccountId) (isIncrease : Bool) :
    b.Tabled (b.handleToleranceCounter host isIncrease) := by
  simp only [handleToleranceCounter]
  split_ifs <;> exact .of_eq rfl rfl

variable [LinearOrder AccountId]

/-- **`broadcast_poll`**: the transaction gets a vote, which may confirm it. -/
lemma broadcastPoll_ok {relayers : Relayers AccountId} {sub : BroadcastSubmission AccountId}
    (h : b.broadcastPoll relayers sub = .ok b') :
    ∃ tx, b.pendingTxs.get sub.txid = some tx ∧ sub.authorityId ∉ tx.voters ∧
      ((relayers.majority ≤ (tx.voters ++ [sub.authorityId]).length ∧
          b'.pendingTxs = b.pendingTxs.remove sub.txid ∧ b'.confirmedTxs =
            b.confirmedTxs.insert sub.txid { tx with voters := tx.voters ++ [sub.authorityId] }) ∨
        (b'.confirmedTxs = b.confirmedTxs ∧ b'.pendingTxs =
          b.pendingTxs.insert sub.txid { tx with voters := tx.voters ++ [sub.authorityId] })) := by
  simp only [broadcastPoll, bind_eq_ok, ensure_eq_ok, okOr_eq_ok, exists_const, verifyAuthority,
    ensureActivation] at h
  obtain ⟨-, -, -, tx, htx, hfresh, -, h⟩ := h
  refine ⟨tx, htx, hfresh, ?_⟩
  split_ifs at h with hmajority
  · have hset := setStatus_coinsOnly b' h
    refine .inl ⟨hmajority, hset.pendingTxs_eq, ?_⟩
    rw [CoinsOnly] at hset
    rw [hset]
  · obtain rfl := pure_eq_ok.mp h
    exact .inr ⟨rfl, rfl⟩

lemma broadcastPoll_everyBallot {relayers : Relayers AccountId} {sub : BroadcastSubmission AccountId}
    (hgood : Ballots.KeptByVotes good may) (hmay : ∀ a, relayers.isAuthority a = true → may a)
    (hb : b.EveryBallot good) (hcoins : b'.utxos.Every fun _ u => good u.voters)
    (h : b.broadcastPoll relayers sub = .ok b') : b'.EveryBallot good := by
  obtain ⟨tx, htx, hfresh, hcase⟩ := broadcastPoll_ok h
  have hvoter : may sub.authorityId := by
    simp only [broadcastPoll, bind_eq_ok, ensure_eq_ok, exists_const, verifyAuthority] at h
    exact hmay _ h.1
  have hvoted := hgood.vote _ _ (hb.pending _ tx htx) hvoter hfresh
  rcases hcase with ⟨-, hpending, hconfirmed⟩ | ⟨hconfirmed, hpending⟩
  · refine ⟨hcoins, ?_, ?_⟩
    · rw [hpending]
      exact hb.pending.remove _
    · rw [hconfirmed]
      exact hb.confirmed.insert hvoted
  · refine ⟨hcoins, ?_, ?_⟩
    · rw [hpending]
      exact hb.pending.insert hvoted
    · rw [hconfirmed]
      exact hb.confirmed

/-! ## Coins -/

omit [LinearOrder AccountId] in
/-- A change of status leaves ballots alone. -/
lemma Restamped.voters {inputs : List UtxoInfoWithSize} (h : b.Restamped inputs b')
    (hb : b.utxos.Every fun _ u => good u.voters) : b'.utxos.Every fun _ u => good u.voters := by
  intro k u hu
  rcases h.utxos k with hk | ⟨w, status, -, -, hw, hk⟩
  · exact hb k u (hk ▸ hu)
  · obtain rfl := Option.some.inj (hk.symm.trans hu)
    exact hb k w hw

/-- `submit_utxos` adds no vote but that of the relayer that submits. -/
lemma submitUtxos_voters {relayers : Relayers AccountId}
    {getBondedDescriptor : Bytes → Option Descriptor} {authorityId : AccountId} {utxos : List UtxoInfo}
    (hgood : Ballots.KeptByVotes good may) (hvoter : may authorityId)
    (hb : b.utxos.Every fun _ u => good u.voters) :
    Returns (fun b' => b'.utxos.Every fun _ u => good u.voters)
      (utxos.foldlM (submitUtxo host relayers getBondedDescriptor authorityId) b) := by
  refine submitUtxos_rule (P := fun c => c.utxos.Every fun _ u => good u.voters) hb ?_ ?_ ?_
  · exact fun c k u hc hu _ hfresh _ => hc.insert (hgood.vote _ _ (hc k u hu) hvoter hfresh)
  · exact fun c k u hc hu _ hfresh => hc.insert (hgood.vote _ _ (hc k u hu) hvoter hfresh)
  · exact fun c utxo descriptor inner hc _ _ _ _ => hc.insert (hgood.single hvoter)

/-- `clear_utxos` leaves no ballot. -/
lemma clearUtxos_voters (hb : b.utxos.Every fun _ u => good u.voters) :
    (b.clearUtxos host).utxos.Every fun _ u => good u.voters := by
  refine clearUtxos_rule (P := fun c => c.utxos.Every fun _ u => good u.voters) hb ?_ ?_
  · exact fun c k u hc _ _ => hc.remove k
  · exact fun c k u hc _ _ _ => hc.remove k

omit [LinearOrder AccountId] in
/-- **`force_push_utxos`**, after clearing. -/
lemma forcePushUtxos_voters {getBondedDescriptor : Bytes → Option Descriptor} {utxos : List UtxoInfo}
    (hgood : Ballots.KeptByVotes good may) (hb : b.utxos.Every fun _ u => good u.voters) :
    (utxos.foldl (forcePushUtxo host getBondedDescriptor) b).utxos.Every fun _ u => good u.voters := by
  refine forcePushUtxos_rule (P := fun c => c.utxos.Every fun _ u => good u.voters) hb ?_
  intro c utxo descriptor inner hc _ _ _
  exact hc.insert hgood.nil

/-- **Coins that become available** in a submission have a majority. -/
lemma submitUtxos_majority {relayers : Relayers AccountId}
    {getBondedDescriptor : Bytes → Option Descriptor} {authorityId : AccountId}
    {utxos : List UtxoInfo} {k : H256} (hwas : ∀ w, b.utxos.get k = some w → w.status ≠ .available) :
    Returns (fun b' => ∀ u, b'.utxos.get k = some u → u.status = .available →
        relayers.majority ≤ u.voters.length)
      (utxos.foldlM (submitUtxo host relayers getBondedDescriptor authorityId) b) := by
  refine submitUtxos_rule (P := fun c => ∀ u, c.utxos.get k = some u → u.status = .available →
    relayers.majority ≤ u.voters.length) (fun u hu hstatus => absurd hstatus (hwas u hu)) ?_ ?_ ?_
  · intro c j u hc _ _ _ hmajority w hw hstatus
    simp only [get_insert] at hw
    split_ifs at hw
    · obtain rfl := Option.some.inj hw
      exact hmajority
    · exact hc w hw hstatus
  · intro c j u hc _ hunconfirmed _ w hw hstatus
    simp only [get_insert] at hw
    split_ifs at hw
    · obtain rfl := Option.some.inj hw
      rw [hunconfirmed] at hstatus
      cases hstatus
    · exact hc w hw hstatus
  · intro c utxo descriptor inner hc _ _ _ _ w hw hstatus
    simp only [get_insert] at hw
    split_ifs at hw
    · obtain rfl := Option.some.inj hw
      cases hstatus
    · exact hc w hw hstatus

/-- **A replacement** keeps voters distinct exactly if no ballot has both accounts. -/
lemma VotersDistinct.replaceAuthority_iff (hb : b.VotersDistinct) (old new : AccountId) :
    (b.replaceAuthority old new).VotersDistinct ↔ b.Uncontested old new := by
  have hrefile : ∀ voters : List AccountId, voters.Nodup →
      ((if old ∈ voters then replaceVoter old new voters else voters).Nodup ↔
        Ballots.Uncontested old new voters) := by
    intro voters hvoters
    by_cases hold : old ∈ voters
    · rw [if_pos hold, replaceVoter, Ballots.nodup_refile_iff hvoters hold]
    · rw [if_neg hold]
      exact ⟨fun _ _ hin => absurd hin hold, fun _ => hvoters⟩
  have hcoins : (b.replaceAuthority old new).utxos.Every (fun _ u => u.voters.Nodup) ↔
      b.utxos.Every fun _ u => u.status = .unconfirmed → Ballots.Uncontested old new u.voters := by
    rw [replaceAuthority, every_mapVals]
    refine every_congr fun k u hu => ?_
    have hvoters := hb.coins k u hu
    by_cases hstatus : u.status = .unconfirmed
    · rw [imp_iff_right hstatus, ← hrefile u.voters hvoters]
      simp only [hstatus, true_and]
      split_ifs <;> exact Iff.rfl
    · simp only [hstatus, false_and, if_false, false_imp_iff, hvoters]
  have hpending : (b.replaceAuthority old new).pendingTxs.Every (fun _ tx => tx.voters.Nodup) ↔
      b.pendingTxs.Every fun _ tx => Ballots.Uncontested old new tx.voters := by
    rw [replaceAuthority, every_mapVals]
    refine every_congr fun k tx htx => ?_
    rw [← hrefile tx.voters (hb.pending k tx htx)]
    split_ifs <;> exact Iff.rfl
  exact ⟨fun h => ⟨hcoins.mp h.coins, hpending.mp h.pending⟩,
    fun h => ⟨hcoins.mpr h.coins, hpending.mpr h.pending, hb.confirmed⟩⟩

end Ballots

end Blaze

/-! ## Steps -/

section Steps

variable {host : Host AccountId} {v : View AccountId} {s s' t t' : Bridge AccountId}

lemma Bridge.lockIfActivated_tabled {txid : H256} {psbt : Psbt} :
    Returns (fun t => s.blaze.Tabled t.blaze) (s.lockIfActivated host txid psbt) := by
  intro t h
  rw [Bridge.lockIfActivated] at h
  split_ifs at h
  · simp only [bind_eq_ok, ofBlaze_eq_ok, pure_eq_ok] at h
    obtain ⟨inputs, -, b, hb, rfl⟩ := h
    exact Blaze.lockUtxos_tabled b hb
  · obtain rfl := pure_eq_ok.mp h
    exact .of_eq rfl rfl

lemma Bridge.unlockIfActivated_tabled {txid : H256} :
    Returns (fun t => s.blaze.Tabled t.blaze) (s.unlockIfActivated txid) := by
  intro t h
  rw [Bridge.unlockIfActivated] at h
  split_ifs at h
  · simp only [bind_eq_ok, ofBlaze_eq_ok, pure_eq_ok] at h
    obtain ⟨b, hb, rfl⟩ := h
    exact Blaze.unlockUtxos_tabled b hb
  · obtain rfl := pure_eq_ok.mp h
    exact .of_eq rfl rfl

variable [LinearOrder AccountId]

/-- **Calls of the socket queue** are no votes for transactions. -/
lemma Bridge.queueCall_tabled {call : Queue.Call AccountId} :
    Returns (fun t => s.blaze.Tabled t.blaze) (s.queueCall host v call) := by
  intro t h
  have hkept : Returns (fun t => t.blaze = s.blaze) (s.queueCall host v call) →
      s.blaze.Tabled t.blaze := by
    intro hsame
    rw [hsame t h]
    exact .of_eq rfl rfl
  cases call with
  | setAuthority origin new => exact hkept (.bind fun _ => .bind fun _ => .pure rfl)
  | setSocket origin new isBitcoin =>
      exact hkept (.bind fun _ => .ite (.bind fun _ => .pure rfl) (.bind fun _ => .pure rfl))
  | setMaxFeeRate origin new =>
      exact hkept (.bind fun _ => .bind fun _ => .bind fun _ => .pure rfl)
  | setMaxSocketMessageBytes origin new => exact hkept (.bind fun _ => .bind fun _ => .pure rfl)
  | submitUnsignedPsbt msg =>
      simp only [Bridge.queueCall, Bridge.submitUnsignedPsbt, bind_eq_ok, ensure_eq_ok, pure_eq_ok,
        Unique.exists_iff] at h
      obtain ⟨-, -, -, psbt, -, -, -, -, verified, -, rfl⟩ := h
      exact .of_eq rfl rfl
  | submitSignedPsbt msg =>
      simp only [Bridge.queueCall, Bridge.submitSignedPsbt, bind_eq_ok, ensure_eq_ok, okOr_eq_ok,
        exists_const] at h
      obtain ⟨-, unsigned, -, signed, -, request, -, -, -, combined, -, combined', -, signedPsbts, -,
        h⟩ := h
      split at h
      · obtain rfl := pure_eq_ok.mp h
        exact .of_eq rfl rfl
      · obtain rfl := pure_eq_ok.mp h
        exact .of_eq rfl rfl
  | submitExecutedRequest msg =>
      simp only [Bridge.queueCall, Bridge.submitExecutedRequest, bind_eq_ok, ensure_eq_ok, okOr_eq_ok,
        exists_const, Prod.exists] at h
      obtain ⟨-, request, -, confirmations, shouldExecute, -, h⟩ := h
      by_cases hexec : shouldExecute = true
      · rw [if_pos hexec] at h
        obtain rfl := pure_eq_ok.mp h
        exact .of_eq rfl rfl
      · rw [if_neg hexec] at h
        obtain rfl := pure_eq_ok.mp h
        exact .of_eq rfl rfl
  | submitRollbackRequest origin msg =>
      simp only [Bridge.queueCall, Bridge.submitRollbackRequest, bind_eq_ok, ensure_eq_ok, okOr_eq_ok,
        pure_eq_ok, Unique.exists_iff, tryGetCheckedPsbt] at h
      obtain ⟨-, -, psbt, -, -, -, -, -, vault, -, refund, -, refund', -, txInfo, -, -, -,
        systemVault, -, systemVault', -, -, t₁, hlock, rfl⟩ := h
      exact Bridge.lockIfActivated_tabled t₁ hlock
  | submitRollbackPoll msg =>
      simp only [Bridge.queueCall, Bridge.submitRollbackPoll, bind_eq_ok, ensure_eq_ok, okOr_eq_ok,
        exists_const] at h
      obtain ⟨-, request, -, -, -, votes, -, h⟩ := h
      split_ifs at h
      · obtain rfl := pure_eq_ok.mp h
        exact .of_eq rfl rfl
      · obtain rfl := pure_eq_ok.mp h
        exact .of_eq rfl rfl
  | submitMigrationRequest origin raw =>
      simp only [Bridge.queueCall, Bridge.submitMigrationRequest, bind_eq_ok, ensure_eq_ok,
        Unique.exists_iff] at h
      obtain ⟨-, -, psbt, -, -, -, h⟩ := h
      split at h
      · simp only [bind_eq_ok, ensure_eq_ok, okOr_eq_ok, pure_eq_ok, Unique.exists_iff] at h
        obtain ⟨systemVault, -, address, -, -, rfl⟩ := h
        exact Blaze.clearUtxos_coinsOnly.tabled
      · cases h
  | submitBumpFeeRequest origin oldTxid new =>
      simp only [Bridge.queueCall, Bridge.submitBumpFeeRequest, bind_eq_ok, ensure_eq_ok, okOr_eq_ok,
        pure_eq_ok, Unique.exists_iff, tryGetCheckedPsbt] at h
      obtain ⟨-, request, -, -, -, oldPsbt, -, newPsbt, -, -, -, -, -, -, s₁, h₁, s₂, h₂, s₃, h₃,
        rfl⟩ := h
      have hbump : s.blaze.Tabled s₁.blaze := by
        rw [bumpRecords_blaze s₁ h₁]
        exact .of_eq rfl rfl
      have hunlock := Bridge.unlockIfActivated_tabled s₂ h₂
      have hlock := Bridge.lockIfActivated_tabled s₃ h₃
      exact (hbump.trans hunlock).trans hlock
  | dropPendingRollbackRequest origin txid =>
      simp only [Bridge.queueCall, Bridge.dropPendingRollbackRequest, bind_eq_ok, ensure_eq_ok,
        okOr_eq_ok, exists_const] at h
      obtain ⟨-, -, request, -, -, h⟩ := h
      have hunlock := Bridge.unlockIfActivated_tabled t h
      exact hunlock

/-- **Calls of Blaze** are none either, but for `broadcast_poll`. -/
lemma Bridge.blazeCall_tabled {call : Blaze.Call AccountId} {b : Blaze AccountId}
    (h : s.blazeCall host v call = .ok b) : s.blaze.Tabled b ∨
      ∃ sub, call = .broadcastPoll sub ∧ s.blaze.broadcastPoll v.relayers sub = .ok b := by
  cases call with
  | setActivation origin isActivated =>
      simp only [Bridge.blazeCall, Blaze.setActivation, bind_eq_ok, ensure_eq_ok, pure_eq_ok,
        exists_const] at h
      obtain ⟨-, -, rfl⟩ := h
      refine .inl ⟨fun k tx htx => ?_, rfl⟩
      split_ifs at htx
      · cases htx
      · exact .inl htx
  | submitUtxos sub =>
      simp only [Bridge.blazeCall, Blaze.submitUtxos, bind_eq_ok, ensure_eq_ok, exists_const,
        Blaze.verifyAuthority, Blaze.ensureActivation] at h
      obtain ⟨-, -, -, -, h⟩ := h
      exact .inl (Blaze.submitUtxos_coinsOnly b h).tabled
  | broadcastPoll sub => exact .inr ⟨sub, rfl, h⟩
  | submitFeeRate sub =>
      simp only [Bridge.blazeCall, Blaze.submitFeeRate, bind_eq_ok, ensure_eq_ok, okOr_eq_ok,
        pure_eq_ok, exists_const, Blaze.verifyAuthority, Blaze.ensureActivation] at h
      obtain ⟨-, -, -, -, -, feeRates, -, rfl⟩ := h
      exact .inl (.of_eq rfl rfl)
  | submitOutboundRequests sub =>
      simp only [Bridge.blazeCall, Blaze.submitOutboundRequests, bind_eq_ok, ensure_eq_ok, pure_eq_ok,
        exists_const, Blaze.verifyAuthority] at h
      obtain ⟨-, -, -, -, rfl⟩ := h
      exact .inl (.of_eq rfl rfl)
  | forcePushUtxos origin utxos =>
      simp only [Bridge.blazeCall, Blaze.forcePushUtxos, bind_eq_ok, ensure_eq_ok, pure_eq_ok,
        exists_const, Blaze.ensureActivation] at h
      obtain ⟨-, -, -, rfl⟩ := h
      exact .inl (Blaze.clearUtxos_coinsOnly.trans Blaze.forcePushUtxos_coinsOnly).tabled
  | removeOutboundMessages sub =>
      simp only [Bridge.blazeCall, Blaze.removeOutboundMessages, bind_eq_ok, ensure_eq_ok, pure_eq_ok,
        exists_const, Blaze.ensureActivation] at h
      obtain ⟨-, -, -, rfl⟩ := h
      exact .inl (.of_eq rfl rfl)

/-- The hook sends out transactions that nobody has voted for. -/
lemma Bridge.onInitialize_tabled (h : s.onInitialize host v = some s') :
    s.blaze.Tabled s'.blaze := by
  obtain ⟨plan, -, h⟩ := Option.bind_eq_some_iff.mp h
  have hprepared : s.blaze.Tabled (s.prepare v).1.blaze := by
    simp only [Bridge.prepare]
    split_ifs <;> exact .of_eq rfl rfl
  cases plan with
  | idle =>
      obtain rfl := Option.some.inj h
      exact hprepared
  | fail =>
      obtain rfl := Option.some.inj h
      exact hprepared.trans (Blaze.handleToleranceCounter_tabled host _ true)
  | build psbt messages selected =>
      simp only [Bridge.execute, Option.bind_eq_bind, Option.bind_eq_some_iff, Option.pure_def,
        Option.some.injEq, toOption_eq_some] at h
      obtain ⟨parsed, -, b, hlock, rfl⟩ := h
      have hcleared : (s.prepare v).1.blaze.Tabled
          ((s.prepare v).1.blaze.clearFeeRates.clearOutboundPool messages) := .of_eq rfl rfl
      exact ((hprepared.trans hcleared).trans (Blaze.lockUtxos_tabled b hlock)).trans
        (Blaze.handleToleranceCounter_tabled host b false)

/-- **What a step does to ballots of transactions**, if nobody is replaced. -/
lemma Bridge.step_tabled {i : Bridge.Step AccountId} (hi : ∀ old new, i ≠ .replaceAuthority old new)
    (h : s.step host i = some s') : s.blaze.Tabled s'.blaze ∨
      ∃ v sub, i = .blaze v (.broadcastPoll sub) ∧
        s.blaze.broadcastPoll v.relayers sub = .ok s'.blaze := by
  have hsame : s.blaze.Tabled s.blaze := .of_eq rfl rfl
  cases i with
  | pool v i =>
      simp only [Bridge.step, Option.bind_eq_bind, Option.bind_eq_some_iff, Option.pure_def,
        Option.some.injEq] at h
      obtain ⟨k, -, pool, -, rfl⟩ := h
      exact .inl hsame
  | blaze v call =>
      obtain rfl := Option.some.inj h
      refine commit_induction (P := fun b => s.blaze.Tabled b ∨ ∃ v' sub,
        Bridge.Step.blaze v call = .blaze v' (.broadcastPoll sub) ∧
          s.blaze.broadcastPoll v'.relayers sub = .ok b) (.inl hsame) fun b hb => ?_
      rcases Bridge.blazeCall_tabled hb with htabled | ⟨sub, rfl, hpoll⟩
      · exact .inl htabled
      · exact .inr ⟨v, sub, rfl, hpoll⟩
  | queue v call =>
      obtain rfl := Option.some.inj h
      exact .inl (commit_induction (P := fun t : Bridge AccountId => s.blaze.Tabled t.blaze) hsame
        fun t ht => Bridge.queueCall_tabled t ht)
  | onInitialize v => exact .inl (Bridge.onInitialize_tabled h)
  | replaceAuthority old new => exact absurd rfl (hi old new)

/-- The step takes votes only from those who may vote. -/
def Bridge.Step.TakesFrom (may : AccountId → Prop) : Bridge.Step AccountId → Prop
  | .blaze v _ => ∀ a, v.relayers.isAuthority a = true → may a
  | .queue v _ => ∀ a, v.relayers.isAuthority a = true → may a
  | _ => True

omit [LinearOrder AccountId] in
lemma Bridge.Step.takesFrom_true (i : Bridge.Step AccountId) : i.TakesFrom fun _ => True := by
  cases i <;> simp only [TakesFrom, implies_true]

/-- **Step lemma**, for everything but replacements. -/
lemma Blaze.EveryBallot.step {i : Bridge.Step AccountId} {good : List AccountId → Prop}
    {may : AccountId → Prop} (hs : s.blaze.EveryBallot good) (hgood : Ballots.KeptByVotes good may)
    (hmay : i.TakesFrom may) (hi : ∀ old new, i ≠ .replaceAuthority old new)
    (h : s.step host i = some s') : s'.blaze.EveryBallot good := by
  have hcoins : s'.blaze.utxos.Every fun _ u => good u.voters := by
    cases Bridge.step_blaze h with
    | submitted v sub heq _ =>
        subst heq
        obtain rfl := Option.some.inj h
        refine commit_induction (P := fun b : Blaze AccountId => b.utxos.Every fun _ u => good u.voters)
          hs.coins fun b hb => ?_
        simp only [Bridge.blazeCall, Blaze.submitUtxos, bind_eq_ok, ensure_eq_ok, exists_const,
          Blaze.verifyAuthority, Blaze.ensureActivation] at hb
        obtain ⟨-, hauthority, -, -, hloop⟩ := hb
        exact Blaze.submitUtxos_voters hgood (hmay _ hauthority) hs.coins b hloop
    | rated v sub _ hrate =>
        simp only [Blaze.submitFeeRate, bind_eq_ok, ensure_eq_ok, okOr_eq_ok, pure_eq_ok, exists_const,
          Blaze.verifyAuthority, Blaze.ensureActivation] at hrate
        obtain ⟨-, -, -, -, -, feeRates, -, hblaze⟩ := hrate
        rw [← hblaze]
        exact hs.coins
    | touched hstamp => exact hstamp.voters hs.coins
    | locked selected hstamp _ => exact hstamp.voters hs.coins
    | cleared utxos _ heq =>
        rw [heq]
        exact Blaze.forcePushUtxos_voters hgood (Blaze.clearUtxos_voters hs.coins)
    | renamed old new heq _ => exact absurd heq (hi old new)
  rcases Bridge.step_tabled hi h with htabled | ⟨v, sub, rfl, hpoll⟩
  · exact htabled.everyBallot hgood hs hcoins
  · exact Blaze.broadcastPoll_everyBallot hgood hmay hs hcoins hpoll

lemma Blaze.VotersDistinct.step {i : Bridge.Step AccountId} (hs : s.blaze.VotersDistinct)
    (hi : ∀ old new, i ≠ .replaceAuthority old new) (h : s.step host i = some s') :
    s'.blaze.VotersDistinct :=
  Blaze.votersDistinct_iff.mpr
    ((Blaze.votersDistinct_iff.mp hs).step Ballots.nodup_kept i.takesFrom_true hi h)

/-! ## Majorities -/

/-- **A broadcast is confirmed** by a vote that makes a majority. -/
lemma Bridge.confirmed_by_majority {i : Bridge.Step AccountId}
    (hi : ∀ old new, i ≠ .replaceAuthority old new) (h : s.step host i = some s') {k : H256}
    {tx : Blaze.BTCTransaction AccountId} (hk : s.blaze.confirmedTxs.get k = none)
    (htx : s'.blaze.confirmedTxs.get k = some tx) :
    ∃ v sub, i = .blaze v (.broadcastPoll sub) ∧ v.relayers.majority ≤ tx.voters.length := by
  rcases Bridge.step_tabled hi h with htabled | ⟨v, sub, heq, hpoll⟩
  · rw [htabled.confirmed, hk] at htx
    cases htx
  · obtain ⟨pending, -, -, ⟨hmajority, -, hconfirmed⟩ | ⟨hconfirmed, -⟩⟩ := Blaze.broadcastPoll_ok hpoll
    · rw [hconfirmed, get_insert, hk] at htx
      split_ifs at htx
      obtain rfl := Option.some.inj htx
      exact ⟨v, sub, heq, hmajority⟩
    · rw [hconfirmed, hk] at htx
      cases htx

/-- **A submission makes a coin available** by a vote that makes a majority. -/
lemma Bridge.available_by_majority {sub : Blaze.UtxoSubmission AccountId}
    (h : s.step host (.blaze v (.submitUtxos sub)) = some s') {k : H256} {u : Blaze.Utxo AccountId}
    (hwas : ∀ w, s.blaze.utxos.get k = some w → w.status ≠ .available)
    (hu : s'.blaze.utxos.get k = some u) (hstatus : u.status = .available) :
    v.relayers.majority ≤ u.voters.length := by
  obtain rfl := Option.some.inj h
  revert hu
  refine commit_induction
    (P := fun b : Blaze AccountId => b.utxos.get k = some u → v.relayers.majority ≤ u.voters.length)
    (fun hu => absurd hstatus (hwas u hu)) fun b hb hu => ?_
  simp only [Bridge.blazeCall, Blaze.submitUtxos, bind_eq_ok, ensure_eq_ok, exists_const,
    Blaze.verifyAuthority, Blaze.ensureActivation] at hb
  obtain ⟨-, -, -, -, hloop⟩ := hb
  exact Blaze.submitUtxos_majority hwas b hloop u hu hstatus

end Steps

end BifrostNode.Btc
