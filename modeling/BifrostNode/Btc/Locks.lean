import BifrostNode.Btc.CoinMoves
import BifrostNode.Lib.Locks

/-!
# The lock table of Blaze

A coin is locked while a transaction spends it.  The status of the coin and the list of the pending
transactions say so independently of each other.  The coins with their status are the resources of a lock
table (`Blaze.locks`), the pending transactions are its holders, and what Blaze does to either is one of the
changes of a lock table.

Votes for coins and coins that are pushed leave the table as it is, but for coins that are free
(`Blaze.SameTaken`).
-/

namespace BifrostNode.Btc

open Cccp Staking Transition Pool Queue StorageMap

variable {AccountId : Type}

/-! ## The lock table -/

namespace Blaze

def UtxoStatus.phase : UtxoStatus → LockTable.Phase
  | .unconfirmed | .available => .free
  | .locked => .locked
  | .used => .used

/-- Coins and what they are, and pending transactions and the coins that they spend. -/
def locks (b : Blaze AccountId) : LockTable H256 H256 where
  phase k := (b.utxos.get k).map fun u => u.status.phase
  held txid := (b.pendingTxs.get txid).map fun tx => tx.inputs.map UtxoInfoWithSize.hash

/-- A pending transaction spends a coin. -/
def Spends (b : Blaze AccountId) (txid k : H256) : Prop :=
  ∃ tx, b.pendingTxs.get txid = some tx ∧ ∃ input ∈ tx.inputs, input.hash = k

variable {b b' : Blaze AccountId} {txid k : H256} {inputs : List UtxoInfoWithSize}

lemma spends_iff : b.Spends txid k ↔ b.locks.Holds txid k := by
  simp only [Spends, LockTable.Holds, locks, Option.map_eq_some_iff]
  constructor
  · rintro ⟨tx, htx, input, hinput, rfl⟩
    exact ⟨_, ⟨tx, htx, rfl⟩, List.mem_map_of_mem hinput⟩
  · rintro ⟨_, ⟨tx, htx, rfl⟩, hk⟩
    obtain ⟨input, hinput, rfl⟩ := List.mem_map.mp hk
    exact ⟨tx, htx, input, hinput, rfl⟩

lemma phase_eq_locked : b.locks.phase k = some .locked ↔
    ∃ u, b.utxos.get k = some u ∧ u.status = .locked := by
  simp only [locks, Option.map_eq_some_iff]
  refine exists_congr fun u => and_congr_right fun _ => ?_
  cases u.status <;> simp [UtxoStatus.phase]

lemma phase_eq_used : b.locks.phase k = some .used ↔
    ∃ u, b.utxos.get k = some u ∧ u.status = .used := by
  simp only [locks, Option.map_eq_some_iff]
  refine exists_congr fun u => and_congr_right fun _ => ?_
  cases u.status <;> simp [UtxoStatus.phase]

/-- **A status for coins** marks them. -/
lemma setStatus_locks {status : UtxoStatus} :
    ∀ {inputs : List UtxoInfoWithSize} {b b' : Blaze AccountId}, b.setStatus status inputs = .ok b' →
      b'.locks = b.locks.mark status.phase (inputs.map UtxoInfoWithSize.hash) := by
  intro inputs
  induction inputs with
  | nil =>
      intro b b' h
      obtain rfl := pure_eq_ok.mp h
      simp [LockTable.mark]
  | cons input inputs ih =>
      intro b b' h
      simp only [setStatus, List.foldlM_cons, bind_eq_ok, okOr_eq_ok, pure_eq_ok] at h
      obtain ⟨b₁, ⟨u, hu, rfl⟩, h⟩ := h
      rw [ih h]
      refine LockTable.ext ?_ rfl
      funext k
      simp only [LockTable.mark, locks, List.map_cons, List.mem_cons, get_insert]
      by_cases hk : k = input.hash
      · simp [hk]
      · simp [hk]

/-- **`lock_utxos`** takes coins. -/
lemma lockUtxos_locks (h : b.lockUtxos txid inputs = .ok b') :
    b'.locks = b.locks.take txid (inputs.map UtxoInfoWithSize.hash) := by
  simp only [lockUtxos, bind_eq_ok, pure_eq_ok] at h
  obtain ⟨b₁, h, rfl⟩ := h
  have hmark := setStatus_locks h
  refine LockTable.ext ?_ ?_
  · show b₁.locks.phase = _
    rw [hmark]
    rfl
  · funext x
    have hheld : b₁.locks.held x = b.locks.held x := by
      rw [hmark]
      rfl
    simp only [locks] at hheld
    simp only [locks, LockTable.take, LockTable.mark, get_insert, Function.update_apply]
    split_ifs
    · rfl
    · exact hheld

/-- **`unlock_utxos`** gives coins back. -/
lemma unlockUtxos_locks (h : b.unlockUtxos txid = .ok b') : b'.locks = b.locks.drop .free txid := by
  simp only [unlockUtxos, bind_eq_ok, okOr_eq_ok] at h
  obtain ⟨tx, htx, h⟩ := h
  rw [setStatus_locks h]
  refine LockTable.ext ?_ ?_
  · funext k
    simp only [LockTable.drop, LockTable.mark, locks, htx, Option.map_some, Option.getD_some]
    rfl
  · funext x
    simp only [locks, LockTable.drop, LockTable.mark, get_remove, Function.update_apply]
    split_ifs <;> rfl

/-- **A vote on a broadcast** uses the coins of the transaction up, or leaves all coins alone. -/
lemma broadcastPoll_locks [LinearOrder AccountId] {relayers : Relayers AccountId}
    {sub : BroadcastSubmission AccountId} (h : b.broadcastPoll relayers sub = .ok b') :
    b'.isActivated = b.isActivated ∧
      (b'.locks = b.locks ∨ b'.locks = b.locks.drop .used sub.txid) := by
  simp only [broadcastPoll, bind_eq_ok, ensure_eq_ok, okOr_eq_ok, exists_const, verifyAuthority,
    ensureActivation] at h
  obtain ⟨-, -, -, tx, htx, -, -, h⟩ := h
  split_ifs at h with hmajority
  · refine ⟨(setStatus_coinsOnly b' h).isActivated_eq, .inr ?_⟩
    rw [setStatus_locks h]
    refine LockTable.ext ?_ ?_
    · funext k
      simp only [LockTable.drop, LockTable.mark, locks, htx, Option.map_some, Option.getD_some]
      rfl
    · funext x
      simp only [locks, LockTable.drop, LockTable.mark, get_remove, Function.update_apply]
      split_ifs <;> rfl
  · obtain rfl := pure_eq_ok.mp h
    refine ⟨rfl, .inl (LockTable.ext rfl ?_)⟩
    funext x
    simp only [locks, get_insert]
    split_ifs with hx
    · rw [hx, htx]
      rfl
    · rfl

/-! ## Coins that nobody has taken -/

/-- The same coins are locked, and the same ones are used. -/
def SameTaken (b b' : Blaze AccountId) : Prop :=
  ∀ k p, p ≠ .free → (b'.locks.phase k = some p ↔ b.locks.phase k = some p)

lemma SameTaken.of_eq (h : b'.utxos = b.utxos) : b.SameTaken b' := by
  intro k p _
  simp only [locks, h]

lemma SameTaken.trans {b'' : Blaze AccountId} (h : b.SameTaken b') (h' : b'.SameTaken b'') :
    b.SameTaken b'' := fun k p hp => (h' k p hp).trans (h k p hp)

/-- A coin that is free can change, and a new one can come in. -/
lemma SameTaken.insert {u : Utxo AccountId} (hold : ∀ u₀ ∈ b.utxos.get k, u₀.status.phase = .free)
    (hnew : u.status.phase = .free) (h : b'.utxos = b.utxos.insert k u) : b.SameTaken b' := by
  intro j p hp
  simp only [locks, h, get_insert]
  split_ifs with hj
  · rw [hj]
    cases hget : b.utxos.get k with
    | none => simp [hnew, hp.symm]
    | some u₀ => simp [hnew, hold u₀ hget, hp.symm]
  · rfl

/-- A coin that is free can go. -/
lemma SameTaken.remove (hold : ∀ u₀ ∈ b.utxos.get k, u₀.status.phase = .free)
    (h : b'.utxos = b.utxos.remove k) : b.SameTaken b' := by
  intro j p hp
  simp only [locks, h, get_remove]
  split_ifs with hj
  · rw [hj]
    cases hget : b.utxos.get k with
    | none => rfl
    | some u₀ => simp [hold u₀ hget, hp.symm]
  · rfl

/-- No coin is locked. -/
def Unlocked (b : Blaze AccountId) : Prop := ∀ e ∈ b.utxos.toList, e.2.status ≠ .locked

lemma Unlocked.phase_ne (h : b.Unlocked) (k : H256) : b.locks.phase k ≠ some .locked := by
  intro hk
  obtain ⟨u, hu, hstatus⟩ := phase_eq_locked.mp hk
  exact h (k, u) (mem_toList.mpr hu) hstatus

section Calls

variable [LinearOrder AccountId] {host : Host AccountId}
  {getBondedDescriptor : Bytes → Option Descriptor}

/-- **Clearing** removes only free coins, if none is locked. -/
lemma Unlocked.clearUtxos (h : b.Unlocked) : b.SameTaken (b.clearUtxos host) := by
  refine clearUtxos_rule (P := b.SameTaken) (.of_eq rfl) ?_ ?_
  · intro c k u hc hu hstatus
    refine hc.trans (.remove (fun u₀ hu₀ => ?_) rfl)
    obtain rfl := Option.some.inj (hu.symm.trans hu₀)
    rw [hstatus]
    rfl
  · intro c k u hc hu hstatus hused
    refine hc.trans (.remove (fun u₀ hu₀ => ?_) rfl)
    obtain rfl := Option.some.inj (hu.symm.trans hu₀)
    cases hlocked : u.status with
    | unconfirmed => rfl
    | available => rfl
    | locked =>
        have hphase := (hc k .locked (by simp)).mp (phase_eq_locked.mpr ⟨u, hu, hlocked⟩)
        exact absurd hphase (h.phase_ne k)
    | used => exact absurd hlocked hused

omit [LinearOrder AccountId] in
lemma forcePushUtxos_sameTaken {utxos : List UtxoInfo} :
    b.SameTaken (utxos.foldl (forcePushUtxo host getBondedDescriptor) b) := by
  refine forcePushUtxos_rule (P := b.SameTaken) (.of_eq rfl) ?_
  intro c utxo descriptor inner hc _ _ hnone
  refine hc.trans (.insert (fun u₀ hu₀ => ?_) rfl rfl)
  cases hnone.symm.trans hu₀

/-- **Votes for coins** are only cast on coins that are not confirmed. -/
lemma submitUtxos_sameTaken {relayers : Relayers AccountId} {authorityId : AccountId}
    {utxos : List UtxoInfo} : Returns b.SameTaken
      (utxos.foldlM (submitUtxo host relayers getBondedDescriptor authorityId) b) := by
  have hfree : ∀ (c : Blaze AccountId) k u, c.utxos.get k = some u → u.status = .unconfirmed →
      ∀ u₀ ∈ c.utxos.get k, u₀.status.phase = .free := by
    intro c k u hu hstatus u₀ hu₀
    obtain rfl := Option.some.inj (hu.symm.trans hu₀)
    rw [hstatus]
    rfl
  refine submitUtxos_rule (P := b.SameTaken) (.of_eq rfl) ?_ ?_ ?_
  · intro c k u hc hu hstatus _ _
    exact hc.trans (.insert (hfree c k u hu hstatus) rfl rfl)
  · intro c k u hc hu hstatus _
    refine hc.trans (.insert (hfree c k u hu hstatus) ?_ rfl)
    exact hfree c k u hu hstatus u hu
  · intro c utxo descriptor inner hc _ _ hnone _
    refine hc.trans (.insert (fun u₀ hu₀ => ?_) rfl rfl)
    cases hnone.symm.trans hu₀

end Calls

end Blaze

end BifrostNode.Btc
