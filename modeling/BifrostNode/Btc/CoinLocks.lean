import BifrostNode.Btc.Locks
import BifrostNode.Btc.Rollbacks

/-!
# Locked coins

Three callers lock coins: the hook for a transaction that it builds, a rollback request and a fee bump.  A
rollback that is dropped gives them back, as a fee bump does, and a broadcast uses them up.

**Discipline.**  The hook takes only available coins.  A rollback or a fee bump takes whatever coins its
PSBT names, and pending transactions or locked coins are cleared without looking at the other side.  Where
neither happens (`Bridge.Orderly`), locked coins are those that one pending transaction spends
(`coin_locks_disciplined`).

**The docket.**  While Blaze is activated a transaction that spends coins is that of some request, and so a
new request holds no coins yet (`Bridge.Tracked`).
-/

namespace BifrostNode.Btc

open Cccp Staking Transition Pool Queue StorageMap

variable {AccountId : Type}

/-! ## The condition -/

section Condition

variable [LinearOrder AccountId]

/-- The coins that a call of the queue takes, apart from those that the transaction which it replaces
gives back. -/
def Bridge.takenBy (host : Host AccountId) (s : Bridge AccountId) :
    Queue.Call AccountId → List UtxoInfoWithSize
  | .submitRollbackRequest _ msg => s.inputsOf host msg.unsignedPsbt
  | .submitBumpFeeRequest _ oldTxid new => (s.inputsOf host new).filter fun x =>
      x.hash ∉ (s.lockedBy oldTxid).map UtxoInfoWithSize.hash
  | _ => []

/-- The calls that clear pending transactions or coins. -/
def Blaze.Call.clears : Blaze.Call AccountId → Bool
  | .setActivation _ isActivated => isActivated
  | .forcePushUtxos _ _ => true
  | _ => false

def Queue.Call.clears : Queue.Call AccountId → Bool
  | .submitMigrationRequest _ _ => true
  | _ => false

/-- The coin is neither locked nor used. -/
def Blaze.IsFree (b : Blaze AccountId) (x : UtxoInfoWithSize) : Prop :=
  ∀ u ∈ b.utxos.get x.hash, u.status ≠ .locked ∧ u.status ≠ .used

/-- **Nothing is taken twice and nothing that is taken is cleared**, by the calls that go through.  The
transaction that the hook builds has a txid of its own. -/
def Bridge.Orderly (host : Host AccountId) (s : Bridge AccountId) : Bridge.Step AccountId → Prop
  | .blaze v call => (s.blazeCall host v call).isOk = true → call.clears = true → s.blaze.Unlocked
  | .queue v call => (s.queueCall host v call).isOk = true →
      (∀ x ∈ s.takenBy host call, s.blaze.IsFree x) ∧ (call.clears = true → s.blaze.Unlocked)
  | .onInitialize v => ∀ psbt messages selected,
      s.plan host v = some (.build psbt messages selected) →
        s.blaze.pendingTxs.get (txidOf host psbt) = none
  | .pool _ _ | .replaceAuthority _ _ => True

end Condition

/-! ## One step -/

section Tracked

/-- Some request has the txid, or a rollback is recorded under it. -/
def Docket.Has (d : Docket AccountId) (t : H256) : Prop :=
  d.pending.get t ≠ none ∨ d.finalized.get t ≠ none ∨ d.executed.get t ≠ none ∨
    d.rollback.get t ≠ none

namespace Docket

variable {d : Docket AccountId} {t txid old new : H256} {r : PsbtRequest AccountId}
  {rb : RollbackRequest AccountId}

lemma IsNew.not_has (hnew : d.IsNew t) (hroll : d.rollback.get t = none) : ¬ d.Has t := by
  simp [Has, hnew.pending, hnew.finalized, hnew.executed, hroll]

lemma has_insert : Has { d with pending := d.pending.insert txid r } t ↔ t = txid ∨ d.Has t := by
  by_cases ht : t = txid <;> simp [Has, ht]

lemma has_finalize : Has { d with
    pending := d.pending.remove txid, finalized := d.finalized.insert txid r } t ↔
      t = txid ∨ d.Has t := by
  by_cases ht : t = txid <;> simp [Has, ht]

lemma has_execute : Has { d with
    finalized := d.finalized.remove txid, executed := d.executed.insert txid r } t ↔
      t = txid ∨ d.Has t := by
  by_cases ht : t = txid <;> simp [Has, ht]

lemma has_request {k : H256 × U256} : Has { d with
    rollback := d.rollback.insert txid rb, bonded := d.bonded.insert k txid } t ↔
      t = txid ∨ d.Has t := by
  by_cases ht : t = txid <;> simp [Has, ht]

lemma has_poll : Has { d with rollback := d.rollback.insert txid rb } t ↔ t = txid ∨ d.Has t := by
  by_cases ht : t = txid <;> simp [Has, ht]

lemma has_approve : Has { d with
    pending := d.pending.insert txid r, rollback := d.rollback.insert txid rb } t ↔
      t = txid ∨ d.Has t := by
  by_cases ht : t = txid <;> simp [Has, ht]

lemma Has.bump (h : t = new ∨ (t ≠ old ∧ d.Has t)) : Has { d with
    executed := d.executed.remove old, pending := d.pending.insert new r } t := by
  by_cases hnew : t = new
  · simp [Has, hnew]
  · obtain ⟨hold, ht⟩ := h.resolve_left hnew
    simpa [Has, hnew, hold] using ht

lemma Has.rebond {k : H256 × U256} (h : d.Has t) (hne : t ≠ old) : Has { d with
    rollback := (d.rollback.remove old).insert new rb, bonded := d.bonded.insert k new } t := by
  by_cases hnew : t = new
  · simp [Has, hnew]
  · simpa [Has, hnew, hne] using h

lemma Has.drop (h : d.Has t) (hne : t ≠ txid) : Has { d with rollback := d.rollback.remove txid } t := by
  simpa [Has, hne] using h

end Docket

/-- Transactions that spend coins are on the docket, while Blaze is activated. -/
def Bridge.Tracked (s : Bridge AccountId) : Prop :=
  s.blaze.isActivated = true → ∀ t, s.blaze.locks.held t ≠ none → s.docket.Has t

variable {s s' : Bridge AccountId}

/-- Requests come, and transactions that spend coins go. -/
lemma Bridge.Tracked.mono (h : s.Tracked)
    (hactive : s'.blaze.isActivated = true → s.blaze.isActivated = true)
    (hheld : ∀ t, s'.blaze.locks.held t ≠ none → s.blaze.locks.held t ≠ none)
    (hhas : ∀ t, s.docket.Has t → s'.docket.Has t) : s'.Tracked :=
  fun hact t ht => hhas t (h (hactive hact) t (hheld t ht))

end Tracked

/-- **The invariant**: the tables of locks agree, what holds coins is on the docket, and coins stand under
their hashes. -/
structure Bridge.LockInv (s : Bridge AccountId) : Prop where
  disciplined : s.blaze.locks.Disciplined
  tracked : s.Tracked
  keyed : AllCoins (fun k x => x.hash = k) s.blaze.utxos

/-- **What a step does to locks**: moves of the table, after which every holder is still on the docket. -/
structure Bridge.LocksTo (s s' : Bridge AccountId) : Prop where
  moves : s.blaze.locks.Moves s'.blaze.locks
  tracked : s'.Tracked

section Steps

variable {s s' t t' : Bridge AccountId} {txid : H256} {inputs : List UtxoInfoWithSize}

lemma Blaze.held_eq {b b' : Blaze AccountId} (h : b'.pendingTxs = b.pendingTxs) :
    b'.locks.held = b.locks.held := by
  funext x
  simp only [Blaze.locks, h]

lemma Blaze.IsFree.phase {b : Blaze AccountId} {x : UtxoInfoWithSize} (h : b.IsFree x) :
    b.locks.phase x.hash ≠ some .locked ∧ b.locks.phase x.hash ≠ some .used := by
  constructor
  · intro hlocked
    obtain ⟨u, hu, hstatus⟩ := Blaze.phase_eq_locked.mp hlocked
    exact (h u hu).1 hstatus
  · intro hused
    obtain ⟨u, hu, hstatus⟩ := Blaze.phase_eq_used.mp hused
    exact (h u hu).2 hstatus

/-- Nothing is taken and nothing is given back. -/
lemma Bridge.Tracked.kept (hs : s.Tracked) (hpending : s'.blaze.pendingTxs = s.blaze.pendingTxs)
    (htaken : s.blaze.SameTaken s'.blaze)
    (hactive : s'.blaze.isActivated = true → s.blaze.isActivated = true)
    (hhas : ∀ t, s.docket.Has t → s'.docket.Has t) : s.LocksTo s' := by
  have hheld := Blaze.held_eq hpending
  refine ⟨.single (.kept hheld htaken), hs.mono hactive (fun t ht => ?_) hhas⟩
  rwa [hheld] at ht

/-- Blaze is left alone. -/
lemma Bridge.Tracked.aside (hs : s.Tracked) (hblaze : s'.blaze = s.blaze)
    (hhas : ∀ t, s.docket.Has t → s'.docket.Has t) : s.LocksTo s' := by
  refine hs.kept (by rw [hblaze]) (.of_eq (by rw [hblaze])) (fun hactive => ?_) hhas
  rwa [hblaze] at hactive

/-- Transactions that are not on the docket hold nothing. -/
lemma Bridge.Tracked.held_none (hs : s.Tracked) (hactive : s.blaze.isActivated = true)
    (hnew : s.docket.IsNew txid) (hroll : s.docket.rollback.get txid = none) :
    s.blaze.locks.held txid = none := by
  by_contra hheld
  exact hnew.not_has hroll (hs hactive txid hheld)

lemma held_drop {locks : LockTable H256 H256} {p : LockTable.Phase} {x : H256}
    (h : (locks.drop p txid).held x ≠ none) : x ≠ txid ∧ locks.held x ≠ none := by
  have hne : x ≠ txid := by
    rintro rfl
    simp [LockTable.drop] at h
  refine ⟨hne, ?_⟩
  simpa [LockTable.drop, LockTable.mark, hne] using h

lemma held_take {locks : LockTable H256 H256} {rs : List H256} {x : H256}
    (h : (locks.take txid rs).held x ≠ none) : x = txid ∨ locks.held x ≠ none := by
  by_cases hx : x = txid
  · exact .inl hx
  · refine .inr ?_
    simpa [LockTable.take, LockTable.mark, hx] using h

/-- The coins of a transaction are locked, if Blaze is activated. -/
lemma Bridge.lockIfActivated_locks {host : Host AccountId} {psbt : Psbt}
    (h : t.lockIfActivated host txid psbt = .ok t') :
    t'.blaze.isActivated = t.blaze.isActivated ∧
      if t.blaze.isActivated then ∃ inputs, t.blaze.extractUtxosFromPsbt host psbt = .ok inputs ∧
        t'.blaze.locks = t.blaze.locks.take txid (inputs.map UtxoInfoWithSize.hash)
      else t'.blaze = t.blaze := by
  rw [Bridge.lockIfActivated] at h
  split_ifs at h ⊢ with hactive
  · simp only [bind_eq_ok, ofBlaze_eq_ok, pure_eq_ok] at h
    obtain ⟨inputs, hinputs, b, hb, rfl⟩ := h
    refine ⟨?_, inputs, hinputs, Blaze.lockUtxos_locks hb⟩
    simp only [Blaze.lockUtxos, bind_eq_ok, pure_eq_ok] at hb
    obtain ⟨b₁, hb₁, rfl⟩ := hb
    exact (Blaze.setStatus_coinsOnly b₁ hb₁).isActivated_eq
  · obtain rfl := pure_eq_ok.mp h
    exact ⟨rfl, rfl⟩

/-- The coins of a transaction are unlocked, if Blaze is activated. -/
lemma Bridge.unlockIfActivated_locks (h : t.unlockIfActivated txid = .ok t') :
    t'.blaze.isActivated = t.blaze.isActivated ∧
      if t.blaze.isActivated then t'.blaze.locks = t.blaze.locks.drop .free txid
      else t'.blaze = t.blaze := by
  refine ⟨Bridge.unlockIfActivated_isActivated t' h, ?_⟩
  rw [Bridge.unlockIfActivated] at h
  split_ifs at h ⊢ with hactive
  · simp only [bind_eq_ok, ofBlaze_eq_ok, pure_eq_ok] at h
    obtain ⟨b, hb, rfl⟩ := h
    exact Blaze.unlockUtxos_locks hb
  · obtain rfl := pure_eq_ok.mp h
    rfl

variable [LinearOrder AccountId] {host : Host AccountId} {v : View AccountId}

omit [LinearOrder AccountId] in
/-- The coins that a transaction holds are those that it has locked. -/
lemma Bridge.held_eq_lockedBy (hactive : s.blaze.isActivated = true) :
    (s.blaze.locks.held txid).getD [] = (s.lockedBy txid).map UtxoInfoWithSize.hash := by
  simp only [Bridge.lockedBy, if_pos hactive, Blaze.locks]
  cases s.blaze.pendingTxs.get txid <;> rfl

/-- A call of Blaze moves locks only, and their holders stay on the docket. -/
lemma Bridge.blazeCall_locks (hs : s.Tracked) {call : Blaze.Call AccountId} {b : Blaze AccountId}
    (hi : s.Orderly host (.blaze v call)) (h : s.blazeCall host v call = .ok b) :
    s.LocksTo { s with blaze := b } := by
  have hclear : call.clears = true → s.blaze.Unlocked := by
    refine hi ?_
    rw [h]
    rfl
  cases call with
  | setActivation origin isActivated =>
      simp only [Bridge.blazeCall, Blaze.setActivation, bind_eq_ok, ensure_eq_ok, pure_eq_ok,
        exists_const] at h
      obtain ⟨-, -, rfl⟩ := h
      cases isActivated with
      | true =>
          have hforget : Blaze.locks { s.blaze with isActivated := true, pendingTxs := ∅ } =
              s.blaze.locks.forget := rfl
          refine ⟨?_, fun _ t ht => absurd rfl ht⟩
          exact hforget ▸ .single (.forgotten (hclear rfl).phase_ne)
      | false => exact hs.kept rfl (.of_eq rfl) (fun hactive => (by cases hactive)) fun t ht => ht
  | submitUtxos sub =>
      simp only [Bridge.blazeCall, Blaze.submitUtxos, bind_eq_ok, ensure_eq_ok, exists_const,
        Blaze.verifyAuthority, Blaze.ensureActivation] at h
      obtain ⟨-, -, -, -, h⟩ := h
      have hcoins := Blaze.submitUtxos_coinsOnly b h
      exact hs.kept hcoins.pendingTxs_eq (Blaze.submitUtxos_sameTaken b h)
        (fun hactive => hcoins.isActivated_eq.symm.trans hactive) fun t ht => ht
  | broadcastPoll sub =>
      obtain ⟨hactive, hlocks⟩ := Blaze.broadcastPoll_locks h
      have hback : b.isActivated = true → s.blaze.isActivated = true :=
        fun hact => hactive.symm.trans hact
      rcases hlocks with hsame | hdrop
      · refine ⟨?_, hs.mono hback (fun t ht => ?_) fun t ht => ht⟩
        · show s.blaze.locks.Moves b.locks
          rw [hsame]
          exact .refl
        · rwa [hsame] at ht
      · refine ⟨?_, hs.mono hback (fun t ht => ?_) fun t ht => ht⟩
        · show s.blaze.locks.Moves b.locks
          rw [hdrop]
          exact .single (.dropped sub.txid .used (by simp))
        · rw [hdrop] at ht
          exact (held_drop ht).2
  | submitFeeRate sub =>
      simp only [Bridge.blazeCall, Blaze.submitFeeRate, bind_eq_ok, ensure_eq_ok, okOr_eq_ok,
        pure_eq_ok, exists_const, Blaze.verifyAuthority, Blaze.ensureActivation] at h
      obtain ⟨-, -, -, -, -, feeRates, -, rfl⟩ := h
      exact hs.kept rfl (.of_eq rfl) (fun hactive => hactive) fun t ht => ht
  | submitOutboundRequests sub =>
      simp only [Bridge.blazeCall, Blaze.submitOutboundRequests, bind_eq_ok, ensure_eq_ok, pure_eq_ok,
        exists_const, Blaze.verifyAuthority] at h
      obtain ⟨-, -, -, -, rfl⟩ := h
      exact hs.kept rfl (.of_eq rfl) (fun hactive => hactive) fun t ht => ht
  | forcePushUtxos origin utxos =>
      simp only [Bridge.blazeCall, Blaze.forcePushUtxos, bind_eq_ok, ensure_eq_ok, pure_eq_ok,
        exists_const, Blaze.ensureActivation] at h
      obtain ⟨-, -, -, rfl⟩ := h
      have hcoins : s.blaze.CoinsOnly (utxos.foldl (Blaze.forcePushUtxo host
          (s.pool.getBondedDescriptor host)) (s.blaze.clearUtxos host)) :=
        Blaze.clearUtxos_coinsOnly.trans Blaze.forcePushUtxos_coinsOnly
      exact hs.kept hcoins.pendingTxs_eq ((hclear rfl).clearUtxos.trans Blaze.forcePushUtxos_sameTaken)
        (fun hactive => hcoins.isActivated_eq.symm.trans hactive) fun t ht => ht
  | removeOutboundMessages sub =>
      simp only [Bridge.blazeCall, Blaze.removeOutboundMessages, bind_eq_ok, ensure_eq_ok, pure_eq_ok,
        exists_const, Blaze.ensureActivation] at h
      obtain ⟨-, -, -, rfl⟩ := h
      exact hs.kept rfl (.of_eq rfl) (fun hactive => hactive) fun t ht => ht

lemma Bridge.submitSignedPsbt_locks (hs : s.Tracked) {msg : SignedPsbtMessage AccountId}
    (h : s.submitSignedPsbt host v msg = .ok s') : s.LocksTo s' := by
  simp only [Bridge.submitSignedPsbt, bind_eq_ok, ensure_eq_ok, okOr_eq_ok, exists_const] at h
  obtain ⟨-, unsigned, -, signed, -, request, -, -, -, combined, -, combined', -, signedPsbts, -, h⟩ := h
  split at h
  · obtain rfl := pure_eq_ok.mp h
    exact hs.aside rfl fun t ht => Docket.has_finalize.mpr (.inr ht)
  · obtain rfl := pure_eq_ok.mp h
    exact hs.aside rfl fun t ht => Docket.has_insert.mpr (.inr ht)

lemma Bridge.submitExecutedRequest_locks (hs : s.Tracked) {msg : ExecutedPsbtMessage AccountId}
    (h : s.submitExecutedRequest v msg = .ok s') : s.LocksTo s' := by
  simp only [Bridge.submitExecutedRequest, bind_eq_ok, ensure_eq_ok, okOr_eq_ok, exists_const,
    Prod.exists] at h
  obtain ⟨-, request, -, confirmations, shouldExecute, -, h⟩ := h
  by_cases hexec : shouldExecute = true
  · rw [if_pos hexec] at h
    obtain rfl := pure_eq_ok.mp h
    exact hs.aside rfl fun t ht => Docket.has_execute.mpr (.inr ht)
  · rw [if_neg hexec] at h
    obtain rfl := pure_eq_ok.mp h
    exact hs.aside rfl fun t ht => ht

omit [LinearOrder AccountId] in
/-- **A rollback request takes coins** that are free. -/
lemma Bridge.submitRollbackRequest_locks (hs : s.Tracked) {origin : Origin AccountId}
    {msg : RollbackPsbtMessage AccountId}
    (hfree : ∀ x ∈ s.inputsOf host msg.unsignedPsbt, s.blaze.IsFree x)
    (h : s.submitRollbackRequest host v origin msg = .ok s') : s.LocksTo s' := by
  simp only [Bridge.submitRollbackRequest, bind_eq_ok, ensure_eq_ok, okOr_eq_ok, pure_eq_ok,
    Unique.exists_iff, ensureNew_eq_ok, ensureNoRollback_eq_ok, tryGetCheckedPsbt] at h
  obtain ⟨-, -, psbt, hpsbt, -, hnew, hroll, -, vault, -, refund, -, refund', -, txInfo, -, -, -,
    systemVault, -, systemVault', -, -, t, ht, rfl⟩ := h
  obtain ⟨hactive, hlocks⟩ := lockIfActivated_locks ht
  obtain ⟨-, hqueue⟩ := lockIfActivated_same t ht
  have hdocket : t.docket = s.docket := congrArg SocketQueue.docket hqueue
  have hhas : ∀ x, x = txidOf host psbt ∨ s.docket.Has x → Docket.Has { t.docket with
      rollback := t.docket.rollback.insert (txidOf host psbt)
        (.new msg.unsignedPsbt msg.who msg.txid msg.vout vault msg.amount)
      bonded := t.docket.bonded.insert (msg.txid, msg.vout) (txidOf host psbt) } x := by
    intro x hx
    rw [hdocket]
    exact Docket.has_request.mpr hx
  split_ifs at hlocks with hact
  · obtain ⟨inputs, hinputs, htake⟩ := hlocks
    have hof : s.inputsOf host msg.unsignedPsbt = inputs := by
      rw [Bridge.inputsOf, if_pos hact, hpsbt, Option.elim_some, hinputs]
      rfl
    rw [hof] at hfree
    refine ⟨?_, fun hact' x hx => hhas x ?_⟩
    · show s.blaze.locks.Moves t.blaze.locks
      rw [htake]
      refine .single (.taken _ _ (hs.held_none hact hnew hroll) fun r hr => ?_)
      obtain ⟨x, hx, rfl⟩ := List.mem_map.mp hr
      exact (hfree x hx).phase
    · have hx' : t.blaze.locks.held x ≠ none := hx
      rw [htake] at hx'
      exact (held_take hx').imp_right (hs hact x)
  · rw [hqueue]
    exact hs.aside hlocks fun x hx => Docket.has_request.mpr (.inr hx)

lemma Bridge.submitRollbackPoll_locks (hs : s.Tracked) {msg : RollbackPollMessage AccountId}
    (h : s.submitRollbackPoll v msg = .ok s') : s.LocksTo s' := by
  simp only [Bridge.submitRollbackPoll, bind_eq_ok, ensure_eq_ok, okOr_eq_ok, exists_const] at h
  obtain ⟨-, request, -, -, -, votes, -, h⟩ := h
  split_ifs at h
  · obtain rfl := pure_eq_ok.mp h
    exact hs.aside rfl fun t ht => Docket.has_approve.mpr (.inr ht)
  · obtain rfl := pure_eq_ok.mp h
    exact hs.aside rfl fun t ht => Docket.has_poll.mpr (.inr ht)

omit [LinearOrder AccountId] in
/-- A rollback request that is dropped gives its coins back. -/
lemma Bridge.dropPendingRollbackRequest_locks (hs : s.Tracked) {origin : Origin AccountId} {txid : H256}
    (h : s.dropPendingRollbackRequest origin txid = .ok s') : s.LocksTo s' := by
  simp only [Bridge.dropPendingRollbackRequest, bind_eq_ok, ensure_eq_ok, okOr_eq_ok,
    exists_const] at h
  obtain ⟨-, -, request, -, -, h⟩ := h
  obtain ⟨hactive, hlocks⟩ := unlockIfActivated_locks h
  obtain ⟨-, hqueue⟩ := unlockIfActivated_same s' h
  have hdocket : s'.docket = { s.docket with rollback := s.docket.rollback.remove txid } :=
    congrArg SocketQueue.docket hqueue
  split_ifs at hlocks with hact
  · have hdrop : s'.blaze.locks = s.blaze.locks.drop .free txid := hlocks
    refine ⟨?_, fun _ x hx => ?_⟩
    · rw [hdrop]
      exact .single (.dropped txid .free (by simp))
    · rw [hdrop] at hx
      obtain ⟨hne, hheld⟩ := held_drop hx
      rw [hdocket]
      exact (hs hact x hheld).drop hne
  · have hblaze : s'.blaze = s.blaze := hlocks
    refine ⟨?_, fun hact' => ?_⟩
    · rw [hblaze]
      exact .refl
    · rw [hblaze] at hact'
      exact absurd hact' hact

/-- **A migration clears coins** of which none is locked. -/
lemma Bridge.submitMigrationRequest_locks (hs : s.Tracked) {origin : Origin AccountId} {raw : Bytes}
    (hclear : s.blaze.Unlocked) (h : s.submitMigrationRequest host origin raw = .ok s') :
    s.LocksTo s' := by
  simp only [Bridge.submitMigrationRequest, bind_eq_ok, ensure_eq_ok, Unique.exists_iff] at h
  obtain ⟨-, -, psbt, -, -, -, h⟩ := h
  split at h
  · simp only [bind_eq_ok, ensure_eq_ok, okOr_eq_ok, pure_eq_ok, Unique.exists_iff] at h
    obtain ⟨systemVault, -, address, -, -, rfl⟩ := h
    have hcoins : s.blaze.CoinsOnly (s.blaze.clearUtxos host) := Blaze.clearUtxos_coinsOnly
    exact hs.kept hcoins.pendingTxs_eq hclear.clearUtxos
      (fun hactive => hcoins.isActivated_eq.symm.trans hactive)
      fun t ht => Docket.has_insert.mpr (.inr ht)
  · cases h

omit [LinearOrder AccountId] in
/-- What a fee bump does for the type of its request can take only the old txid off the docket. -/
lemma Bridge.bumpRecords_has {old new : H256} {request : PsbtRequest AccountId} {raw : Bytes} :
    Returns (fun t => ∀ x, x ≠ old → s.docket.Has x → t.docket.Has x)
      (s.bumpRecords host old new request raw) := by
  rw [Bridge.bumpRecords]
  split
  · exact .bind fun _ => .pure fun x _ hx => hx
  · exact .pure fun x _ hx => hx
  · exact .bind fun rb => .pure fun x hne hx => hx.rebond hne

/-- **A fee bump** gives coins back and takes coins that are free then. -/
lemma Bridge.submitBumpFeeRequest_locks (hs : s.Tracked) {origin : Origin AccountId} {old : H256}
    {raw : Bytes}
    (hfree : ∀ x ∈ s.takenBy host (.submitBumpFeeRequest origin old raw), s.blaze.IsFree x)
    (h : s.submitBumpFeeRequest host origin old raw = .ok s') : s.LocksTo s' := by
  simp only [Bridge.submitBumpFeeRequest, bind_eq_ok, ensure_eq_ok, okOr_eq_ok, pure_eq_ok,
    Unique.exists_iff, ensureNew_eq_ok, ensureNoRollback_eq_ok, tryGetCheckedPsbt] at h
  obtain ⟨-, request, -, -, -, oldPsbt, -, newPsbt, hpsbt, -, -, -, hnew, hroll, s₁, h₁, s₂, h₂, s₃, h₃,
    rfl⟩ := h
  have hblaze₁ : s₁.blaze = s.blaze := bumpRecords_blaze s₁ h₁
  obtain ⟨hactive₂, hlocks₂⟩ := unlockIfActivated_locks h₂
  obtain ⟨hactive₃, hlocks₃⟩ := lockIfActivated_locks h₃
  have hqueue : s₃.queue = { s₁.queue with
      executedRequests := s₁.queue.executedRequests.remove old } :=
    (lockIfActivated_same s₃ h₃).2.trans (unlockIfActivated_same s₂ h₂).2
  have hhas : ∀ x, x = txidOf host newPsbt ∨ (x ≠ old ∧ s.docket.Has x) →
      (s₃.addPending (txidOf host newPsbt)
        (.new raw request.socketMessages request.requestType)).docket.Has x := by
    intro x hx
    have hbump : Docket.Has { s₁.docket with
        executed := s₁.docket.executed.remove old
        pending := s₁.docket.pending.insert (txidOf host newPsbt)
          (.new raw request.socketMessages request.requestType) } x :=
      .bump (hx.imp_right fun hold => ⟨hold.1, bumpRecords_has s₁ h₁ x hold.1 hold.2⟩)
    simp only [Bridge.docket, Bridge.addPending, hqueue]
    exact hbump
  simp only [hblaze₁] at hactive₂ hlocks₂
  by_cases hact : s.blaze.isActivated = true
  · have hact₂ : s₂.blaze.isActivated = true := hactive₂.trans hact
    rw [if_pos hact] at hlocks₂
    rw [if_pos hact₂] at hlocks₃
    obtain ⟨inputs, hinputs, htake⟩ := hlocks₃
    have hstamp := Bridge.unlockIfActivated_restamped s₂ h₂
    simp only [hblaze₁] at hstamp
    have hof : s.inputsOf host raw = inputs := by
      rw [Blaze.extractUtxosFromPsbt_congr newPsbt hstamp.inner] at hinputs
      rw [Bridge.inputsOf, if_pos hact, hpsbt, Option.elim_some, hinputs]
      rfl
    have hnone : s.blaze.locks.held (txidOf host newPsbt) = none := hs.held_none hact hnew hroll
    refine ⟨?_, fun _ x hx => hhas x ?_⟩
    · show s.blaze.locks.Moves s₃.blaze.locks
      rw [htake, hlocks₂]
      refine .tail (.single (.dropped old .free (by simp))) (.taken _ _ ?_ fun r hr => ?_)
      · by_contra hheld
        exact (held_drop hheld).2 hnone
      · obtain ⟨x, hx, rfl⟩ := List.mem_map.mp hr
        -- what the old transaction had locked is free, and the rest was so before
        simp only [LockTable.drop, LockTable.mark, Bridge.held_eq_lockedBy hact]
        split_ifs with hback
        · simp
        · refine (hfree x ?_).phase
          rw [Bridge.takenBy, hof, List.mem_filter]
          exact ⟨hx, by simpa using hback⟩
    · have hx' : s₃.blaze.locks.held x ≠ none := hx
      rw [htake, hlocks₂] at hx'
      refine (held_take hx').imp_right fun hheld => ?_
      obtain ⟨hne, hheld⟩ := held_drop hheld
      exact ⟨hne, hs hact x hheld⟩
  · have hact₂ : ¬ s₂.blaze.isActivated = true := by
      rw [hactive₂]
      exact hact
    rw [if_neg hact] at hlocks₂
    rw [if_neg hact₂] at hlocks₃
    have hsame : s₃.blaze = s.blaze := hlocks₃.trans hlocks₂
    refine ⟨?_, fun hact₃ => ?_⟩
    · show s.blaze.locks.Moves s₃.blaze.locks
      rw [hsame]
      exact .refl
    · have hact₃ : s₃.blaze.isActivated = true := hact₃
      rw [hsame] at hact₃
      exact absurd hact₃ hact

/-- A call of the socket queue moves locks only, and their holders stay on the docket. -/
lemma Bridge.queueCall_locks (hs : s.Tracked) {call : Queue.Call AccountId}
    (hi : s.Orderly host (.queue v call)) (h : s.queueCall host v call = .ok s') : s.LocksTo s' := by
  have hok : (s.queueCall host v call).isOk = true := by
    rw [h]
    rfl
  obtain ⟨hfree, hclear⟩ := hi hok
  have hkept : Returns (fun t => t.blaze = s.blaze ∧ t.docket = s.docket) (s.queueCall host v call) →
      s.LocksTo s' := by
    intro hsame
    obtain ⟨hblaze, hdocket⟩ := hsame s' h
    exact hs.aside hblaze fun t ht => hdocket.symm ▸ ht
  cases call with
  | setAuthority origin new => exact hkept (.bind fun _ => .bind fun _ => .pure ⟨rfl, rfl⟩)
  | setSocket origin new isBitcoin =>
      exact hkept (.bind fun _ => .ite (.bind fun _ => .pure ⟨rfl, rfl⟩)
        (.bind fun _ => .pure ⟨rfl, rfl⟩))
  | setMaxFeeRate origin new =>
      exact hkept (.bind fun _ => .bind fun _ => .bind fun _ => .pure ⟨rfl, rfl⟩)
  | setMaxSocketMessageBytes origin new => exact hkept (.bind fun _ => .bind fun _ => .pure ⟨rfl, rfl⟩)
  | submitUnsignedPsbt msg =>
      simp only [Bridge.queueCall, Bridge.submitUnsignedPsbt, bind_eq_ok, ensure_eq_ok, pure_eq_ok,
        Unique.exists_iff] at h
      obtain ⟨-, -, -, psbt, -, -, -, -, verified, -, rfl⟩ := h
      exact hs.aside rfl fun t ht => Docket.has_insert.mpr (.inr ht)
  | submitSignedPsbt msg => exact submitSignedPsbt_locks hs h
  | submitExecutedRequest msg => exact submitExecutedRequest_locks hs h
  | submitRollbackRequest origin msg => exact submitRollbackRequest_locks hs hfree h
  | submitRollbackPoll msg => exact submitRollbackPoll_locks hs h
  | submitMigrationRequest origin psbt => exact submitMigrationRequest_locks hs (hclear rfl) h
  | submitBumpFeeRequest origin old new => exact submitBumpFeeRequest_locks hs hfree h
  | dropPendingRollbackRequest origin txid => exact dropPendingRollbackRequest_locks hs h

/-! ## The hook -/

/-- What comes before the plan of the hook leaves coins and transactions alone. -/
lemma Bridge.prepare_coins : (s.prepare v).1.blaze.utxos = s.blaze.utxos ∧
    (s.prepare v).1.blaze.pendingTxs = s.blaze.pendingTxs ∧
    (s.prepare v).1.blaze.isActivated = s.blaze.isActivated := by
  simp only [Bridge.prepare]
  split_ifs <;> exact ⟨rfl, rfl, rfl⟩

omit [LinearOrder AccountId] in
/-- Tolerance can only deactivate. -/
lemma Blaze.handleToleranceCounter_coins (host : Host AccountId) (b : Blaze AccountId)
    (isIncrease : Bool) :
    (b.handleToleranceCounter host isIncrease).utxos = b.utxos ∧
    (b.handleToleranceCounter host isIncrease).pendingTxs = b.pendingTxs ∧
    ((b.handleToleranceCounter host isIncrease).isActivated = true → b.isActivated = true) := by
  simp only [Blaze.handleToleranceCounter]
  split_ifs <;> simp

/-- The hook locks coins that are available, under the request that it adds. -/
lemma Bridge.onInitialize_locks (hs : s.LockInv) (hi : s.Orderly host (.onInitialize v))
    (h : s.onInitialize host v = some s') : s.LocksTo s' := by
  obtain ⟨plan, hplan, h⟩ := Option.bind_eq_some_iff.mp h
  obtain ⟨hutxos, hpending, hactive⟩ := s.prepare_coins (v := v)
  have hdocket := (s.prepare_same (v := v)).2
  have hlocks : (s.prepare v).1.blaze.locks = s.blaze.locks := by
    rw [Blaze.locks, hutxos, hpending]
    rfl
  cases plan with
  | idle =>
      obtain rfl := Option.some.inj h
      exact hs.tracked.kept hpending (.of_eq hutxos) (fun hact => hactive.symm.trans hact)
        fun t ht => hdocket.symm ▸ ht
  | fail =>
      obtain rfl := Option.some.inj h
      obtain ⟨hutxos', hpending', hactive'⟩ :=
        Blaze.handleToleranceCounter_coins host (s.prepare v).1.blaze true
      exact hs.tracked.kept (hpending'.trans hpending) (.of_eq (hutxos'.trans hutxos))
        (fun hact => hactive.symm.trans (hactive' hact)) fun t ht => hdocket.symm ▸ ht
  | build psbt messages selected =>
      simp only [Bridge.execute, Option.bind_eq_bind, Option.bind_eq_some_iff, Option.pure_def,
        Option.some.injEq, toOption_eq_some] at h
      obtain ⟨parsed, -, b, hlock, rfl⟩ := h
      obtain ⟨hutxos', hpending', -⟩ := Blaze.handleToleranceCounter_coins host b false
      have htake : (b.handleToleranceCounter host false).locks =
          s.blaze.locks.take (txidOf host psbt) (selected.map UtxoInfoWithSize.hash) := by
        have hsame : (b.handleToleranceCounter host false).locks = b.locks := by
          rw [Blaze.locks, hutxos', hpending']
          rfl
        rw [hsame, Blaze.lockUtxos_locks hlock, ← hlocks]
        rfl
      refine ⟨?_, fun hact x hx => ?_⟩
      · show s.blaze.locks.Moves (b.handleToleranceCounter host false).locks
        rw [htake]
        refine .single (.taken _ _ ?_ fun r hr => ?_)
        · simp only [Blaze.locks, hi psbt messages selected hplan, Option.map_none]
        · obtain ⟨x, hx, rfl⟩ := List.mem_map.mp hr
          obtain ⟨k, u, hu, hstatus, hinner⟩ := Bridge.plan_selected hplan x hx
          have hk : x.hash = k := hinner ▸ hs.keyed k u hu
          have hphase : s.blaze.locks.phase x.hash = some .free := by
            simp only [Blaze.locks, hk, hu, Option.map_some, hstatus]
            rfl
          rw [hphase]
          simp
      · have hact : s.blaze.isActivated = true := by
          by_contra hnot
          have hidle : s.prepare v = (s, none) := if_neg fun hc => hnot hc.1
          simp [Bridge.plan, hidle] at hplan
        have hx' : (b.handleToleranceCounter host false).locks.held x ≠ none := hx
        rw [htake] at hx'
        have hhas : Docket.Has { s.docket with
            pending := s.docket.pending.insert (txidOf host psbt)
              (.new (host.lib.serialize psbt) messages .normal) } x :=
          Docket.has_insert.mpr ((held_take hx').imp_right (hs.tracked hact x))
        rw [← hdocket] at hhas
        exact hhas

/-- The replacement of an authority is not about coins. -/
lemma Blaze.replaceAuthority_locks (b : Blaze AccountId) (old new : AccountId) :
    (b.replaceAuthority old new).locks = b.locks := by
  refine LockTable.ext ?_ ?_
  · funext k
    simp only [Blaze.locks, Blaze.replaceAuthority, StorageMap.get_mapVals, Option.map_map]
    congr 1
    funext u
    simp only [Function.comp_apply]
    split_ifs <;> rfl
  · funext x
    simp only [Blaze.locks, Blaze.replaceAuthority, StorageMap.get_mapVals, Option.map_map]
    congr 1
    funext tx
    simp only [Function.comp_apply]
    split_ifs <;> rfl

/-- **Step lemma.**  Every orderly step moves locks only, and keeps their holders on the docket. -/
lemma Bridge.step_locks (hs : s.LockInv) {i : Bridge.Step AccountId} (hi : s.Orderly host i)
    (h : s.step host i = some s') : s.LocksTo s' := by
  cases i with
  | pool v i =>
      simp only [Bridge.step, Option.bind_eq_bind, Option.bind_eq_some_iff, Option.pure_def,
        Option.some.injEq] at h
      obtain ⟨k, -, pool, -, rfl⟩ := h
      exact hs.tracked.aside rfl fun t ht => ht
  | blaze v call =>
      obtain rfl := Option.some.inj h
      refine commit_induction (P := fun b => s.LocksTo { s with blaze := b })
        (hs.tracked.aside rfl fun t ht => ht) fun b hb => ?_
      exact Bridge.blazeCall_locks hs.tracked hi hb
  | queue v call =>
      obtain rfl := Option.some.inj h
      refine commit_induction (P := s.LocksTo) (hs.tracked.aside rfl fun t ht => ht) fun t ht => ?_
      exact Bridge.queueCall_locks hs.tracked hi ht
  | onInitialize v => exact Bridge.onInitialize_locks hs hi h
  | replaceAuthority old new =>
      obtain rfl := Option.some.inj h
      have hlocks : (s.replaceAuthority old new).blaze.locks = s.blaze.locks :=
        Blaze.replaceAuthority_locks s.blaze old new
      refine ⟨?_, hs.tracked.mono (fun hact => hact) (fun t ht => ?_) fun t ht => ?_⟩
      · rw [hlocks]
        exact .refl
      · rwa [hlocks] at ht
      · simpa [Docket.Has, Bridge.docket, SocketQueue.docket, Bridge.replaceAuthority,
          SocketQueue.replaceAuthority] using ht

/-! ## Runs -/

/-- **Locks are in order** in every orderly run. -/
lemma BridgeIf.lockInv (h : BridgeIf host (Bridge.Orderly host) s) : s.LockInv := by
  refine Reachable.invariant ?_ ?_ h
  · rintro s ⟨members, authority, rfl⟩
    refine ⟨⟨fun r hr => ?_, ?_, ?_⟩, fun hact => (by cases hact), fun k u hu => (by cases hu)⟩
    · cases hr
    · rintro x r ⟨rs, hrs, -⟩
      cases hrs
    · rintro x y r ⟨rs, hrs, -⟩
      cases hrs
  · intro s i s' hs hi hstep
    have hto := Bridge.step_locks hs hi hstep
    refine ⟨hto.moves.disciplined hs.disciplined, hto.tracked, ?_⟩
    exact (Bridge.step_blaze hstep).allCoins
      (fun utxo descriptor inner _ hinner => (Blaze.withSize_eq_some hinner).1) hs.keyed

/-- **Locked coins are those that one pending transaction spends.**  In a run in which no transaction takes
coins that are locked or used, and nothing is cleared while coins are locked, a coin is locked just if one
pending transaction spends it, pending transactions spend coins that there are, and a step lets no second
pending transaction spend a coin that was locked, and none spend one that was used. -/
theorem coin_locks_disciplined (h : BridgeIf host (Bridge.Orderly host) s) :
    (∀ k, (∃ u, s.blaze.utxos.get k = some u ∧ u.status = .locked) ↔
      ∃! txid, s.blaze.Spends txid k) ∧
    (∀ txid tx input, s.blaze.pendingTxs.get txid = some tx → input ∈ tx.inputs →
      ∃ u, s.blaze.utxos.get input.hash = some u) ∧
    ∀ i s', s.Orderly host i → s.step host i = some s' →
      ∀ k u, s.blaze.utxos.get k = some u →
        (u.status = .locked → ∀ txid txid', s'.blaze.Spends txid k → s'.blaze.Spends txid' k →
          txid = txid') ∧
        (u.status = .used → ∀ txid, ¬ s'.blaze.Spends txid k) := by
  have hs := h.lockInv
  refine ⟨fun k => ?_, fun txid tx input htx hinput => ?_, fun i s' hi hstep k u hu => ?_⟩
  · rw [← Blaze.phase_eq_locked, hs.disciplined.locked_iff]
    simp only [Blaze.spends_iff]
  · have hspends : s.blaze.Spends txid input.hash := ⟨tx, htx, input, hinput, rfl⟩
    have hlocked := hs.disciplined.held txid input.hash (Blaze.spends_iff.mp hspends)
    obtain ⟨u, hu, -⟩ := Blaze.phase_eq_locked.mp hlocked
    exact ⟨u, hu⟩
  · have hmoves := (Bridge.step_locks hs hi hstep).moves
    have hafter := hmoves.disciplined hs.disciplined
    refine ⟨fun _ txid txid' ht ht' => ?_, fun hused txid ht => ?_⟩
    · exact hafter.once txid txid' k (Blaze.spends_iff.mp ht) (Blaze.spends_iff.mp ht')
    · have hphase := hmoves.used hs.disciplined (Blaze.phase_eq_used.mpr ⟨u, hu, hused⟩)
      exact hafter.not_holds (by simp [hphase]) (Blaze.spends_iff.mp ht)

end Steps

/-! ## Small runs

There is one coin, of the vault of user 7.  The two rollback requests give back different outputs of user 7,
and their transactions spend the same coin. -/

section Small

instance (b : Blaze ℕ) : Decidable b.Unlocked :=
  inferInstanceAs (Decidable (∀ e ∈ b.utxos.toList, e.2.status ≠ .locked))

instance (b : Blaze ℕ) (x : UtxoInfoWithSize) : Decidable (b.IsFree x) :=
  inferInstanceAs (Decidable (∀ u ∈ b.utxos.get x.hash, u.status ≠ .locked ∧ u.status ≠ .used))

def lockHost : Host ℕ := { smallHost with
  lib := { smallHost.lib with descriptorFromStr := fun text => some ⟨text, [9], [1], []⟩ } }

/-- Calls of Blaze and of the socket queue can be checked. -/
def orderlyCall (s : Bridge ℕ) : Bridge.Step ℕ → Bool
  | .blaze v call => !(s.blazeCall lockHost v call).isOk || !call.clears || decide s.blaze.Unlocked
  | .queue v call => !(s.queueCall lockHost v call).isOk ||
      (decide (∀ x ∈ s.takenBy lockHost call, s.blaze.IsFree x) &&
        (!call.clears || decide s.blaze.Unlocked))
  | .onInitialize _ => false
  | .pool _ _ | .replaceAuthority _ _ => true

lemma orderly_of_orderlyCall {s : Bridge ℕ} {i : Bridge.Step ℕ} (h : orderlyCall s i = true) :
    s.Orderly lockHost i := by
  cases i with
  | pool v i => trivial
  | blaze v call =>
      simp only [orderlyCall, Bool.or_eq_true, Bool.not_eq_true', decide_eq_true_eq] at h
      intro hok hclears
      simpa [hok, hclears] using h
  | queue v call =>
      simp only [orderlyCall, Bool.or_eq_true, Bool.not_eq_true', Bool.and_eq_true,
        decide_eq_true_eq] at h
      intro hok
      obtain ⟨hfree, hclear⟩ := h.resolve_left (by simp [hok])
      refine ⟨hfree, fun hclears => hclear.resolve_left (by simp [hclears])⟩
  | onInitialize v => cases h
  | replaceAuthority old new => trivial

def lockRun : List (Bridge.Step ℕ) :=
  smallStart.take 8 ++ [.blaze smallView (.forcePushUtxos .root [⟨1, 0, 1000, [1, 10, 20]⟩]),
    .blaze smallView (.setActivation .root true),
    .queue smallView (.submitRollbackRequest .root ⟨7, 77, 0, 1000, [1, 10]⟩)]

/-- The transaction spends the coin. -/
def spendsCoin (s : Bridge ℕ) (txid : H256) : Bool :=
  (s.blaze.pendingTxs.get txid).any fun tx => tx.inputs.any fun input => input.hash = 0

lemma spends_of_spendsCoin {s : Bridge ℕ} {txid : H256} (h : spendsCoin s txid = true) :
    s.blaze.Spends txid 0 := by
  obtain ⟨tx, htx, hany⟩ := (Option.any_eq_true _ _).mp h
  obtain ⟨input, hinput, hhash⟩ := List.any_eq_true.mp hany
  exact ⟨tx, htx, input, hinput, of_decide_eq_true hhash⟩

/-- The coin is locked for the first request, and for no other transaction. -/
theorem coin_locks_disciplined_rollback : ∃ s : Bridge ℕ,
    BridgeIf lockHost (Bridge.Orderly lockHost) s ∧ s.blaze.Spends 1990 0 ∧
    ∃! txid, s.blaze.Spends txid 0 := by
  have hrun : (runSteps (checked (Bridge.step lockHost) fun s i => orderlyCall s i = true)
      (.genesis lockHost [1, 2] none) lockRun).any (fun s => spendsCoin s 1990 &&
        (s.blaze.utxos.get 0).any fun u => decide (u.status = .locked)) = true := by decide +kernel
  obtain ⟨s, hs, hP⟩ := (Option.any_eq_true _ _).mp hrun
  have hchecked : BridgeIf lockHost (fun s i => orderlyCall s i = true) s :=
    Reachable.runChecked (.init ⟨_, _, rfl⟩) hs
  have horderly : BridgeIf lockHost (Bridge.Orderly lockHost) s :=
    Reachable.mono (fun s i => orderly_of_orderlyCall) hchecked
  simp only [Bool.and_eq_true] at hP
  obtain ⟨u, hu, hstatus⟩ := (Option.any_eq_true _ _).mp hP.2
  exact ⟨s, horderly, spends_of_spendsCoin hP.1,
    ((coin_locks_disciplined horderly).1 0).mp ⟨u, hu, of_decide_eq_true hstatus⟩⟩

/-- **Both requests are accepted**, and two pending transactions spend the coin. -/
theorem coin_locked_twice : ∃ s : Bridge ℕ, BridgeIf lockHost anyStep s ∧
    (∃ u, s.blaze.utxos.get 0 = some u ∧ u.status = .locked) ∧ s.blaze.Spends 1990 0 ∧
    s.blaze.Spends 1980 0 ∧ ¬ ∃! txid, s.blaze.Spends txid 0 := by
  have hrun := smallRun_exists lockHost anyStep
    (lockRun ++ [.queue smallView (.submitRollbackRequest .root ⟨7, 78, 0, 1000, [1, 20]⟩)])
    (fun _ _ _ => trivial)
    (P := fun s => spendsCoin s 1990 && spendsCoin s 1980 &&
      (s.blaze.utxos.get 0).any fun u => decide (u.status = .locked)) (by decide +kernel)
  obtain ⟨s, hs, hP⟩ := hrun
  simp only [Bool.and_eq_true] at hP
  obtain ⟨⟨hfirst, hsecond⟩, hlocked⟩ := hP
  obtain ⟨u, hu, hstatus⟩ := (Option.any_eq_true _ _).mp hlocked
  have hfirst := spends_of_spendsCoin hfirst
  have hsecond := spends_of_spendsCoin hsecond
  refine ⟨s, hs, ⟨u, hu, of_decide_eq_true hstatus⟩, hfirst, hsecond, fun hone => ?_⟩
  exact absurd (hone.unique hfirst hsecond) (by decide)

end Small

end BifrostNode.Btc
