import BifrostNode.Lib.Pairing
import BifrostNode.Btc.Registration
import BifrostNode.Cccp.QueueSpec

/-!
# Vaults

A vault is found by its owner, and its address is found in `BondedVault` and `BondedDescriptor`.  The
owner of the system vault is the account of the precompile.

**One step.**  A step of the pool generates the address of one vault, clears a vault, drops a round, or
leaves the generated vaults alone (`VaultMove`).

**Threshold.**  The descriptor of a vault is made with the threshold of the moment at which the last key
arrives, not with the one the vault was requested with.  Where the two agree, and no two vaults of a
round get the same keys, the records and the indexes are right in every run (`vaults_sound`).
-/

namespace BifrostNode.Btc.Pool

open Cccp Staking Transition

variable {AccountId : Type}

/-! ## Steps -/

/-- What can happen to the pool: its calls, each with what it sees of the rest of the chain, and what
other pallets call. -/
inductive Step (AccountId : Type)
  | requestSetRefund (origin : Origin AccountId) (new : Bytes)
  | requestVault (o : Outlook AccountId) (origin : Origin AccountId) (refundAddress : Bytes)
  | requestSystemVault (o : Outlook AccountId) (origin : Origin AccountId) (migrationPrepare : Bool)
  | submitVaultKey (o : Outlook AccountId) (sub : VaultKeySubmission AccountId)
  | submitSystemVaultKey (o : Outlook AccountId) (sub : VaultKeySubmission AccountId)
  | vaultKeyPresubmission (o : Outlook AccountId) (sub : VaultKeyPreSubmission AccountId)
  | clearVault (origin : Origin AccountId) (vaultAddress : Bytes)
  | migrationControl (o : Outlook AccountId) (origin : Origin AccountId)
  | dropPreviousRound (origin : Origin AccountId) (round : ℕ)
  | setMaxPresubmission (origin : Origin AccountId) (max : ℕ)
  | setMultiSigRatio (origin : Origin AccountId) (new : ℕ)
  | approveSetRefunds (o : Outlook AccountId) (approval : SetRefundsApproval AccountId)
  | addMigrationTx (txid : H256)
  | removeMigrationTx (txid : H256)
  | executeMigrationTx (txid : H256)
  | replaceAuthority (old new : AccountId)
  | processSetRefunds
  | changeMembersSorted (new : List AccountId)

variable [LinearOrder AccountId]

/-- **One step**: a call that fails changes nothing, and a hook that panics is no step. -/
def Registration.step (host : Host AccountId) (s : Registration AccountId) :
    Step AccountId → Option (Registration AccountId)
  | .requestSetRefund origin new => some (commit s (s.requestSetRefund host origin new))
  | .requestVault o origin refundAddress =>
      some (commit s (s.requestVault host o origin refundAddress))
  | .requestSystemVault o origin migrationPrepare =>
      some (commit s (s.requestSystemVault o origin migrationPrepare))
  | .submitVaultKey o sub => some (commit s (s.submitVaultKey host o sub))
  | .submitSystemVaultKey o sub => some (commit s (s.submitSystemVaultKey host o sub))
  | .vaultKeyPresubmission o sub => some (commit s (s.vaultKeyPresubmission host o sub))
  | .clearVault origin vaultAddress => some (commit s (s.clearVault host origin vaultAddress))
  | .migrationControl o origin => some (commit s (s.migrationControl o origin))
  | .dropPreviousRound origin round => some (commit s (s.dropPreviousRound origin round))
  | .setMaxPresubmission origin max => some (commit s (s.setMaxPresubmission origin max))
  | .setMultiSigRatio origin new => some (commit s (s.setMultiSigRatio origin new))
  | .approveSetRefunds o approval => some (commit s (s.approveSetRefunds o approval))
  | .addMigrationTx txid => some (s.addMigrationTx txid)
  | .removeMigrationTx txid => some (s.removeMigrationTx txid)
  | .executeMigrationTx txid => some (s.executeMigrationTx txid)
  | .replaceAuthority old new => some (s.replaceAuthority old new)
  | .processSetRefunds => some s.processSetRefunds
  | .changeMembersSorted new => some (s.changeMembersSorted new)

/-- The states of runs all of whose steps meet a condition. -/
def PoolIf (host : Host AccountId) (cond : Registration AccountId → Step AccountId → Prop)
    (s : Registration AccountId) : Prop :=
  Reachable (fun s => ∃ members, s = .genesis host members) (Registration.step host) cond s

/-! ## Vaults and their indexes -/

/-- **The record is right**: the descriptor is the sorted multi-signature of `n` keys with threshold
`m`. -/
def MultiSigAccount.IsMultisig (host : Host AccountId) (self : MultiSigAccount AccountId) : Prop :=
  self.rawPubKeys.length = self.n ∧
    ∃ desc, host.lib.newWshSortedmulti self.m (self.rawPubKeys.insertionSort (· ≤ ·)) = some desc ∧
      host.lib.sanityCheck desc = true ∧ self.descriptor = desc.text

/-- The vault of an owner in a round, once its address is generated. -/
def Registration.generatedVault (host : Host AccountId) (s : Registration AccountId)
    (k : ℕ × AccountId) : Option (MultiSigAccount AccountId) :=
  (if k.2 = Registration.precompile host then s.systemVault.get k.1
    else (s.registrationPool.get k).map BitcoinRelayTarget.vault).filter fun v => !v.isPending

/-- The address of a vault, in its round. -/
def Registration.addressOf (host : Host AccountId) (s : Registration AccountId)
    (k : ℕ × AccountId) : Option (ℕ × Bytes) :=
  (s.generatedVault host k).bind fun v => v.generated.map fun a => (k.1, a)

/-- The owner of an address, in its round. -/
def Registration.bondOf (s : Registration AccountId) (i : ℕ × Bytes) : Option (ℕ × AccountId) :=
  (s.bondedVault.get i).map fun who => (i.1, who)

/-- **The invariant of the vaults**: addresses and their owners correspond, and addresses belong to the
keys. -/
structure VaultInv (host : Host AccountId) (s : Registration AccountId) : Prop where
  bonds : Inverse (s.addressOf host) s.bondOf
  sound : ∀ k v a, s.generatedVault host k = some v → v.generated = some a →
    v.IsMultisig host ∧ s.bondedDescriptor.get (k.1, a) = some v.descriptor
  users : ∀ r, s.registrationPool.get (r, Registration.precompile host) = none

/-- **What a step can do to the generated vaults**: nothing, generate one, clear one, or drop a round. -/
inductive VaultMove (host : Host AccountId) (s s' : Registration AccountId) : Prop
  | kept (hv : s'.generatedVault host = s.generatedVault host)
      (hb : s'.bondedVault = s.bondedVault) (hd : s'.bondedDescriptor = s.bondedDescriptor) :
      VaultMove host s s'
  | generated (k : ℕ × AccountId) (v : MultiSigAccount AccountId) (a : Bytes)
      (hnone : s.generatedVault host k = none) (ha : v.generated = some a)
      (hfree : s.bondedVault.get (k.1, a) = none) (hsound : v.IsMultisig host)
      (hv : s'.generatedVault host = Function.update (s.generatedVault host) k (some v))
      (hb : s'.bondedVault = s.bondedVault.insert (k.1, a) k.2)
      (hd : s'.bondedDescriptor = s.bondedDescriptor.insert (k.1, a) v.descriptor) :
      VaultMove host s s'
  | cleared (k : ℕ × AccountId) (a : Bytes) (hbond : s.bondedVault.get (k.1, a) = some k.2)
      (hv : s'.generatedVault host = Function.update (s.generatedVault host) k none)
      (hb : s'.bondedVault = s.bondedVault.remove (k.1, a))
      (hd : s'.bondedDescriptor = s.bondedDescriptor.remove (k.1, a)) : VaultMove host s s'
  | dropped (round : ℕ)
      (hv : s'.generatedVault host =
        fun k => if k.1 ≠ round then s.generatedVault host k else none)
      (hb : s'.bondedVault = s.bondedVault.filterKeys fun i => i.1 ≠ round)
      (hd : s'.bondedDescriptor = s.bondedDescriptor.filterKeys fun i => i.1 ≠ round) :
      VaultMove host s s'

section Invariant

variable {host : Host AccountId} {s s' : Registration AccountId}

lemma VaultInv.owner_unique (h : VaultInv host s) {k k' : ℕ × AccountId}
    {v : MultiSigAccount AccountId} {a : Bytes} (hv : s.generatedVault host k = some v)
    (ha : v.generated = some a) (hk' : s.bondedVault.get (k.1, a) = some k'.2) (hr : k'.1 = k.1) :
    k' = k := by
  have haddr : s.addressOf host k = some (k.1, a) := by
    rw [Registration.addressOf, hv, Option.bind_some, ha]
    rfl
  have hbond := (h.bonds k (k.1, a)).mp haddr
  rw [Registration.bondOf, hk', Option.map_some, Option.some.injEq] at hbond
  rw [← hbond, ← hr]

lemma Registration.addressOf_update {k : ℕ × AccountId} {w : Option (MultiSigAccount AccountId)}
    (hv : s'.generatedVault host = Function.update (s.generatedVault host) k w) :
    s'.addressOf host = Function.update (s.addressOf host) k
      (w.bind fun v => v.generated.map fun a => (k.1, a)) := by
  funext k'
  rw [Registration.addressOf, hv]
  by_cases hk : k' = k
  · subst hk
    rw [Function.update_self, Function.update_self]
  · rw [Function.update_of_ne hk, Function.update_of_ne hk, Registration.addressOf]

namespace VaultInv

/-- Nothing happens to the generated vaults. -/
lemma kept (h : VaultInv host s) (hv : s'.generatedVault host = s.generatedVault host)
    (hb : s'.bondedVault = s.bondedVault) (hd : s'.bondedDescriptor = s.bondedDescriptor)
    (husers : ∀ r, s'.registrationPool.get (r, Registration.precompile host) = none) :
    VaultInv host s' where
  bonds := by
    have haddr : s'.addressOf host = s.addressOf host := by
      funext k
      rw [Registration.addressOf, hv, Registration.addressOf]
    have hbond : s'.bondOf = s.bondOf := by
      funext i
      rw [Registration.bondOf, hb, Registration.bondOf]
    rw [haddr, hbond]
    exact h.bonds
  sound := by
    rw [hv, hd]
    exact h.sound
  users := husers

/-- A vault gets an address that nobody has in its round. -/
lemma generated (h : VaultInv host s) {k : ℕ × AccountId} {v : MultiSigAccount AccountId} {a : Bytes}
    (hnone : s.generatedVault host k = none) (ha : v.generated = some a)
    (hfree : s.bondedVault.get (k.1, a) = none) (hsound : v.IsMultisig host)
    (hv : s'.generatedVault host = Function.update (s.generatedVault host) k (some v))
    (hb : s'.bondedVault = s.bondedVault.insert (k.1, a) k.2)
    (hd : s'.bondedDescriptor = s.bondedDescriptor.insert (k.1, a) v.descriptor)
    (husers : ∀ r, s'.registrationPool.get (r, Registration.precompile host) = none) :
    VaultInv host s' where
  bonds := by
    have hbond : s'.bondOf = Function.update s.bondOf (k.1, a) (some k) := by
      funext i
      rw [Registration.bondOf, hb, StorageMap.get_insert, Function.update_apply]
      split_ifs with hi
      · rw [hi]
        rfl
      · rfl
    rw [Registration.addressOf_update hv, Option.bind_some, ha, Option.map_some, hbond]
    refine Inverse.add h.bonds ?_ ?_
    · rw [Registration.addressOf, hnone]
      rfl
    · rw [Registration.bondOf, hfree]
      rfl
  sound k' v' a' hv' ha' := by
    rw [hv] at hv'
    rw [hd]
    by_cases hk : k' = k
    · subst hk
      rw [Function.update_self, Option.some.injEq] at hv'
      subst hv'
      rw [ha, Option.some.injEq] at ha'
      subst ha'
      exact ⟨hsound, StorageMap.get_insert_self _ _ _⟩
    · rw [Function.update_of_ne hk] at hv'
      obtain ⟨hsound', hdesc⟩ := h.sound k' v' a' hv' ha'
      -- no vault of the round has had this address
      have hne : (k'.1, a') ≠ (k.1, a) := by
        intro heq
        have haddr : s.addressOf host k' = some (k.1, a) := by
          rw [← heq, Registration.addressOf, hv', Option.bind_some, ha']
          rfl
        have hbond := (h.bonds k' (k.1, a)).mp haddr
        rw [Registration.bondOf, hfree] at hbond
        cases hbond
      exact ⟨hsound', by rw [StorageMap.get_insert_of_ne _ hne, hdesc]⟩
  users := husers

/-- The owner of an address loses it. -/
lemma cleared (h : VaultInv host s) {k : ℕ × AccountId} {a : Bytes}
    (hbond : s.bondedVault.get (k.1, a) = some k.2)
    (hv : s'.generatedVault host = Function.update (s.generatedVault host) k none)
    (hb : s'.bondedVault = s.bondedVault.remove (k.1, a))
    (hd : s'.bondedDescriptor = s.bondedDescriptor.remove (k.1, a))
    (husers : ∀ r, s'.registrationPool.get (r, Registration.precompile host) = none) :
    VaultInv host s' where
  bonds := by
    have hbonds : s'.bondOf = Function.update s.bondOf (k.1, a) none := by
      funext i
      rw [Registration.bondOf, hb, StorageMap.get_remove, Function.update_apply]
      split_ifs with hi
      · rfl
      · rfl
    rw [Registration.addressOf_update hv, Option.bind_none, hbonds]
    refine Inverse.remove h.bonds ((h.bonds k (k.1, a)).mpr ?_)
    rw [Registration.bondOf, hbond]
    rfl
  sound k' v' a' hv' ha' := by
    rw [hv] at hv'
    by_cases hk : k' = k
    · rw [hk, Function.update_self] at hv'
      cases hv'
    · rw [Function.update_of_ne hk] at hv'
      obtain ⟨hsound', hdesc⟩ := h.sound k' v' a' hv' ha'
      have hne : (k'.1, a') ≠ (k.1, a) := by
        intro heq
        obtain ⟨hr, rfl⟩ := Prod.mk.inj heq
        exact hk (h.owner_unique hv' ha' (hr ▸ hbond) hr.symm).symm
      exact ⟨hsound', by rw [hd, StorageMap.get_remove_of_ne _ hne, hdesc]⟩
  users := husers

/-- A round is dropped with all its addresses. -/
lemma dropped (h : VaultInv host s) {round : ℕ}
    (hv : s'.generatedVault host = fun k => if k.1 ≠ round then s.generatedVault host k else none)
    (hb : s'.bondedVault = s.bondedVault.filterKeys fun i => i.1 ≠ round)
    (hd : s'.bondedDescriptor = s.bondedDescriptor.filterKeys fun i => i.1 ≠ round)
    (husers : ∀ r, s'.registrationPool.get (r, Registration.precompile host) = none) :
    VaultInv host s' where
  bonds := by
    have haddr : s'.addressOf host =
        fun k => if k.1 ≠ round then s.addressOf host k else none := by
      funext k
      rw [Registration.addressOf, hv]
      dsimp only
      split_ifs <;> rfl
    have hbonds : s'.bondOf = fun i => if i.1 ≠ round then s.bondOf i else none := by
      funext i
      rw [Registration.bondOf, hb, StorageMap.get_filterKeys]
      by_cases hi : i.1 = round
      · simp [hi]
      · simp only [hi, not_false_eq_true, decide_true, if_true, ne_eq]
        rfl
    rw [haddr, hbonds]
    refine Inverse.filter h.bonds fun k i hk => ?_
    rw [Registration.addressOf, Option.bind_eq_some_iff] at hk
    obtain ⟨v, -, hv⟩ := hk
    obtain ⟨a, -, rfl⟩ := Option.map_eq_some_iff.mp hv
    rfl
  sound k' v' a' hv' ha' := by
    rw [hv] at hv'
    dsimp only at hv'
    split_ifs at hv' with hr
    obtain ⟨hsound', hdesc⟩ := h.sound k' v' a' hv' ha'
    refine ⟨hsound', ?_⟩
    rw [hd, StorageMap.get_filterKeys, hdesc]
    simp [hr]
  users := husers

/-- **Every move** keeps the invariant. -/
lemma move (h : VaultInv host s) (hm : VaultMove host s s')
    (husers : ∀ r, s'.registrationPool.get (r, Registration.precompile host) = none) :
    VaultInv host s' := by
  cases hm with
  | kept hv hb hd => exact h.kept hv hb hd husers
  | generated k v a hnone ha hfree hsound hv hb hd =>
      exact h.generated hnone ha hfree hsound hv hb hd husers
  | cleared k a hbond hv hb hd => exact h.cleared hbond hv hb hd husers
  | dropped round hv hb hd => exact h.dropped hv hb hd husers

end VaultInv

end Invariant

/-! ## Steps that generate no address -/

section Kept

variable {host : Host AccountId} {s s' : Registration AccountId}

/-- The generated vaults stay as they are. -/
structure KeepsVaults (host : Host AccountId) (s s' : Registration AccountId) : Prop where
  vaults : s'.generatedVault host = s.generatedVault host
  bonded : s'.bondedVault = s.bondedVault
  descriptors : s'.bondedDescriptor = s.bondedDescriptor
  users : (∀ r, s.registrationPool.get (r, Registration.precompile host) = none) →
    ∀ r, s'.registrationPool.get (r, Registration.precompile host) = none

lemma KeepsVaults.refl (host : Host AccountId) (s : Registration AccountId) :
    KeepsVaults host s s := ⟨rfl, rfl, rfl, id⟩

lemma KeepsVaults.trans {s₁ : Registration AccountId} (h₁ : KeepsVaults host s s₁)
    (h₂ : KeepsVaults host s₁ s') : KeepsVaults host s s' where
  vaults := h₂.vaults.trans h₁.vaults
  bonded := h₂.bonded.trans h₁.bonded
  descriptors := h₂.descriptors.trans h₁.descriptors
  users hs := h₂.users (h₁.users hs)

/-- The step touches neither vaults nor their indexes. -/
lemma KeepsVaults.of_eq (hv : s'.systemVault = s.systemVault)
    (hp : s'.registrationPool = s.registrationPool) (hb : s'.bondedVault = s.bondedVault)
    (hd : s'.bondedDescriptor = s.bondedDescriptor) : KeepsVaults host s s' := by
  refine ⟨?_, hb, hd, ?_⟩
  · funext k
    rw [Registration.generatedVault, hv, hp, Registration.generatedVault]
  · rw [hp]
    exact id

/-- The vaults when the record of a user is written. -/
lemma Registration.generatedVault_user {r : ℕ} {who : AccountId}
    {target : BitcoinRelayTarget AccountId} (hwho : who ≠ precompile host)
    (hv : s'.systemVault = s.systemVault)
    (hp : s'.registrationPool = s.registrationPool.insert (r, who) target) :
    s'.generatedVault host = Function.update (s.generatedVault host) (r, who)
      ((some target.vault).filter fun v => !v.isPending) := by
  funext k
  rw [generatedVault, hv, hp, Function.update_apply]
  by_cases hk : k = (r, who)
  · simp [hk, hwho]
  · rw [if_neg hk, StorageMap.get_insert_of_ne _ hk]
    rfl

/-- The vaults when a system vault is written. -/
lemma Registration.generatedVault_system {r : ℕ} {vault : MultiSigAccount AccountId}
    (hv : s'.systemVault = s.systemVault.insert r vault)
    (hp : s'.registrationPool = s.registrationPool) :
    s'.generatedVault host = Function.update (s.generatedVault host) (r, precompile host)
      ((some vault).filter fun v => !v.isPending) := by
  funext k
  rw [generatedVault, hv, hp, Function.update_apply]
  by_cases hk : k = (r, precompile host)
  · simp [hk]
  · rw [if_neg hk, generatedVault]
    split_ifs with hwho
    · have hr : k.1 ≠ r := fun hr => hk (Prod.ext hr hwho)
      rw [StorageMap.get_insert_of_ne _ hr]
    · rfl

/-- A record of a user is rewritten with a vault that is generated no sooner. -/
lemma KeepsVaults.user {r : ℕ} {who : AccountId} {target target' : BitcoinRelayTarget AccountId}
    (ht : s.registrationPool.get (r, who) = some target)
    (hsame : (some target'.vault).filter (fun v => !v.isPending) =
      (some target.vault).filter fun v => !v.isPending)
    (hv : s'.systemVault = s.systemVault)
    (hp : s'.registrationPool = s.registrationPool.insert (r, who) target')
    (hb : s'.bondedVault = s.bondedVault) (hd : s'.bondedDescriptor = s.bondedDescriptor) :
    KeepsVaults host s s' := by
  refine ⟨?_, hb, hd, fun hs r' => ?_⟩
  · by_cases hwho : who = Registration.precompile host
    · -- nobody looks for the vault of a user under the account of the precompile
      funext k
      rw [Registration.generatedVault, hv, hp, Registration.generatedVault]
      split_ifs with hk
      · rfl
      · have hne : k ≠ (r, who) := fun heq => hk (by rw [heq, hwho])
        rw [StorageMap.get_insert_of_ne _ hne]
    · rw [Registration.generatedVault_user hwho hv hp, hsame, Function.update_eq_self_iff,
        Registration.generatedVault, if_neg hwho, ht]
      rfl
  · rw [hp]
    have hne : (r', Registration.precompile host) ≠ (r, who) := by
      intro heq
      rw [← heq, hs r'] at ht
      cases ht
    rw [StorageMap.get_insert_of_ne _ hne]
    exact hs r'

/-- A system vault is written that is generated no sooner. -/
lemma KeepsVaults.system {r : ℕ} {vault : MultiSigAccount AccountId}
    (hsame : (some vault).filter (fun v => !v.isPending) =
      (s.systemVault.get r).filter fun v => !v.isPending)
    (hv : s'.systemVault = s.systemVault.insert r vault)
    (hp : s'.registrationPool = s.registrationPool) (hb : s'.bondedVault = s.bondedVault)
    (hd : s'.bondedDescriptor = s.bondedDescriptor) : KeepsVaults host s s' := by
  refine ⟨?_, hb, hd, ?_⟩
  · rw [Registration.generatedVault_system hv hp, hsame, Function.update_eq_self_iff,
      Registration.generatedVault, if_pos rfl]
  · rw [hp]
    exact id

lemma Registration.setRefund_keeps {r : ℕ} {who : AccountId}
    {target : BitcoinRelayTarget AccountId} (ht : s.registrationPool.get (r, who) = some target)
    (new : Bytes) : KeepsVaults host s (s.setRefund r who target new) := by
  have hp : (s.setRefund r who target new).registrationPool =
      s.registrationPool.insert (r, who) { target with refundAddress := new } := rfl
  refine .user ht ?_ rfl hp rfl rfl
  rfl

/-- **The rule for `process_set_refunds`**: what one refund address of a user keeps, if no vault has it,
all of them keep. -/
lemma Registration.processSetRefunds_rule (s : Registration AccountId)
    {P : Registration AccountId → Prop} (hs : P s)
    (hset : ∀ (t : Registration AccountId) (who : AccountId) (state : SetRefundState)
      (target : BitcoinRelayTarget AccountId), P t →
      t.bondedVault.get (s.currentRound, state.new) = none →
      t.registrationPool.get (s.currentRound, who) = some target →
      P (t.setRefund s.currentRound who target state.new)) :
    ∃ t, P t ∧ s.processSetRefunds = { t with
      pendingSetRefunds := t.pendingSetRefunds.filterKeys fun k => k.1 ≠ s.currentRound } := by
  refine ⟨_, List.foldlRecOn (motive := P) _ _ hs fun t ht e _ => ?_, rfl⟩
  obtain ⟨who, state⟩ := e
  dsimp only
  split_ifs with hcontains
  · exact ht
  · cases htarget : t.registrationPool.get (s.currentRound, who) with
    | none => exact ht
    | some target =>
        have hfree : t.bondedVault.get (s.currentRound, state.new) = none := by
          simpa [StorageMap.contains] using hcontains
        exact hset t who state target ht hfree htarget

lemma Registration.processSetRefunds_keeps (host : Host AccountId) (s : Registration AccountId) :
    KeepsVaults host s s.processSetRefunds := by
  obtain ⟨t, ht, heq⟩ := s.processSetRefunds_rule (P := KeepsVaults host s) (.refl host s)
    fun t who state target ht _ htarget => ht.trans (Registration.setRefund_keeps htarget _)
  rw [heq]
  exact ht.trans (.of_eq rfl rfl rfl rfl)

/-- A refund address that is approved leaves the vaults alone. -/
lemma Registration.approveSetRefund_keeps {r : ℕ} {refundSet : AccountId × Bytes} :
    Returns (KeepsVaults host s) (s.approveSetRefund r refundSet) := by
  intro s' h
  simp only [approveSetRefund, bind_eq_ok, okOr_eq_ok, ensure_eq_ok, exists_const] at h
  obtain ⟨pending, -, -, h⟩ := h
  split_ifs at h
  · simp only [bind_eq_ok, pure_eq_ok] at h
    obtain ⟨t, rfl, rfl⟩ := h
    exact .of_eq rfl rfl rfl rfl
  · simp only [bind_eq_ok, okOr_eq_ok, pure_eq_ok] at h
    obtain ⟨target, htarget, t, rfl, rfl⟩ := h
    have hset : KeepsVaults host s (s.setRefund r refundSet.1 target pending.new) :=
      Registration.setRefund_keeps htarget _
    exact hset.trans (.of_eq rfl rfl rfl rfl)

lemma Registration.approveSetRefunds_keeps {o : Outlook AccountId}
    {approval : SetRefundsApproval AccountId} :
    Returns (KeepsVaults host s) (s.approveSetRefunds o approval) :=
  .bind fun _ => .bind fun _ => .bind fun _ => .bind fun _ => Returns.foldlM
    (fun _ _ ht t' ht' => ht.trans (Registration.approveSetRefund_keeps t' ht')) (.refl host s)

/-- A system vault that is requested is pending. -/
lemma Registration.requestSystemVault_keeps {o : Outlook AccountId} {origin : Origin AccountId}
    {migrationPrepare : Bool} :
    Returns (KeepsVaults host s) (s.requestSystemVault o origin migrationPrepare) := by
  intro s' h
  simp only [requestSystemVault, bind_eq_ok, ensure_eq_ok, pure_eq_ok, exists_const] at h
  obtain ⟨-, -, habsent, rfl⟩ := h
  generalize (if migrationPrepare = true then s.currentRound + 1 else s.currentRound) = r at habsent
  have hnone : s.systemVault.get r = none := by simpa [StorageMap.contains] using habsent
  refine .system ?_ rfl rfl rfl rfl
  rw [hnone]
  rfl

lemma Registration.migrationControl_keeps {o : Outlook AccountId} {origin : Origin AccountId} :
    Returns (KeepsVaults host s) (s.migrationControl o origin) := by
  refine .bind fun _ => ?_
  cases s.serviceState with
  | normal => exact .bind fun _ => .pure (.of_eq rfl rfl rfl rfl)
  | setExecutiveMembers =>
      intro s' h
      have hmark : KeepsVaults host s { s with serviceState := .prepareNextSystemVault } :=
        .of_eq rfl rfl rfl rfl
      exact hmark.trans (Registration.requestSystemVault_keeps s' h)
  | prepareNextSystemVault =>
      intro s' h
      cases h
  | utxoTransfer => exact .bind fun _ => .pure (.of_eq rfl rfl rfl rfl)

lemma MultiSigAccount.replaceAuthority_address (v : MultiSigAccount AccountId)
    (old new : AccountId) : (v.replaceAuthority old new).address = v.address := by
  rw [replaceAuthority]
  cases v.pubKeys.get old <;> rfl

/-- The authority of a pending vault is replaced. -/
lemma Registration.replaceAuthority_keeps (host : Host AccountId) (s : Registration AccountId)
    (old new : AccountId) : KeepsVaults host s (s.replaceAuthority old new) := by
  have hpending : ∀ {v : MultiSigAccount AccountId}, v.isPending = true →
      (v.replaceAuthority old new).isPending = true := by
    intro v hv
    rw [MultiSigAccount.isPending, MultiSigAccount.replaceAuthority_address]
    exact hv
  -- the system vault of the round
  have hsystem : KeepsVaults host s { s with
      systemVault := (s.replaceAuthority old new).systemVault } := by
    simp only [replaceAuthority]
    cases hv : s.systemVault.get s.currentRound with
    | none => exact .refl host s
    | some vault =>
        dsimp only
        split_ifs with hp
        · refine .system ?_ rfl rfl rfl rfl
          simp [Option.filter, hv, hp, hpending hp]
        · exact .refl host s
  -- the vaults of the users
  let write (pool : StorageMap (ℕ × AccountId) (BitcoinRelayTarget AccountId))
      (e : AccountId × BitcoinRelayTarget AccountId) :=
    if e.2.vault.isPending then
      pool.insert (s.currentRound, e.1) { e.2 with vault := e.2.vault.replaceAuthority old new }
    else pool
  have husers : ∀ (es : List (AccountId × BitcoinRelayTarget AccountId))
      (t : Registration AccountId), KeepsVaults host s t →
      (∀ e ∈ es, ∃ target, t.registrationPool.get (s.currentRound, e.1) = some target ∧
        (e.2.vault.isPending = true → target.vault.isPending = true)) →
      KeepsVaults host s { t with registrationPool := es.foldl write t.registrationPool } := by
    intro es
    induction es with
    | nil => exact fun _ ht _ => ht
    | cons e es ih =>
        intro t ht hes
        rw [List.foldl_cons]
        obtain ⟨target, htarget, hp⟩ := hes e List.mem_cons_self
        by_cases he : e.2.vault.isPending = true
        · have hwrite : write t.registrationPool e = t.registrationPool.insert (s.currentRound, e.1)
              { e.2 with vault := e.2.vault.replaceAuthority old new } := if_pos he
          refine ih { t with registrationPool := write t.registrationPool e } (ht.trans ?_)
            fun e' he' => ?_
          · refine .user htarget ?_ rfl hwrite rfl rfl
            simp [Option.filter, hp he, hpending he]
          · obtain ⟨target', htarget', hp'⟩ := hes e' (List.mem_cons_of_mem _ he')
            simp only [hwrite, StorageMap.get_insert]
            split_ifs with heq
            · exact ⟨_, rfl, fun _ => hpending he⟩
            · exact ⟨target', htarget', hp'⟩
        · have hwrite : write t.registrationPool e = t.registrationPool := if_neg he
          rw [hwrite]
          exact ih t ht fun e' he' => hes e' (List.mem_cons_of_mem _ he')
  refine (husers (s.registrationPool.iterPrefix s.currentRound) _ hsystem fun e he => ?_).trans
    (.of_eq rfl rfl rfl rfl)
  exact ⟨e.2, StorageMap.get_of_mem_iterPrefix he, id⟩

end Kept

/-! ## Steps that generate an address -/

/-- If the vault has all its keys, it gets the threshold it was requested with, and an address that no
vault of the round has. -/
def Registration.Completes (host : Host AccountId) (o : Outlook AccountId) (s : Registration AccountId)
    (vault : MultiSigAccount AccountId) (round : ℕ) : Prop :=
  vault.isKeyGenerationReady = true → s.getM o = vault.m ∧
    ∀ p ∈ (s.generateVaultAddress host o vault.rawPubKeys).toOption,
      s.bondedVault.get (round, p.1) = none

instance (host : Host AccountId) (o : Outlook AccountId) (s : Registration AccountId)
    (vault : MultiSigAccount AccountId) (round : ℕ) : Decidable (s.Completes host o vault round) :=
  inferInstanceAs (Decidable (_ → _))

/-- A vault that a call completes gets the threshold it was requested with, and an address of its own,
and nobody registers as the precompile. -/
def Step.Regular (host : Host AccountId) (s : Registration AccountId) : Step AccountId → Prop
  | .requestVault o origin refundAddress => IfOk (s.requestVault host o origin refundAddress)
      (origin ≠ .signed (Registration.precompile host) ∧
        ∀ p ∈ (s.takePreSubmitted s.currentRound (.new (s.getM o) (Registration.getN o))
          o.executives).toOption, s.Completes host o p.1 s.currentRound)
  | .submitVaultKey o sub => IfOk (s.submitVaultKey host o sub)
      (∀ target ∈ s.registrationPool.get (s.currentRound, sub.who),
        s.Completes host o { target.vault with
          pubKeys := target.vault.pubKeys.insert sub.authorityId sub.pubKey } s.currentRound)
  | .submitSystemVaultKey o sub => IfOk (s.submitSystemVaultKey host o sub)
      (∀ r ∈ s.systemVaultRound, ∀ vault ∈ s.systemVault.get r,
        s.Completes host o { vault with
          pubKeys := vault.pubKeys.insert sub.authorityId sub.pubKey } r)
  | _ => True

instance (host : Host AccountId) (s : Registration AccountId) (i : Step AccountId) :
    Decidable (i.Regular host s) :=
  match i with
  | .requestVault _ _ _ => inferInstanceAs (Decidable (IfOk _ (_ ∧ _)))
  | .submitVaultKey _ _ => inferInstanceAs (Decidable (IfOk _ (∀ _ ∈ _, _)))
  | .submitSystemVaultKey _ _ => inferInstanceAs (Decidable (IfOk _ (∀ _ ∈ _, ∀ _ ∈ _, _)))
  | .requestSetRefund _ _ | .requestSystemVault _ _ _ | .vaultKeyPresubmission _ _
  | .clearVault _ _ | .migrationControl _ _ | .dropPreviousRound _ _ | .setMaxPresubmission _ _
  | .setMultiSigRatio _ _ | .approveSetRefunds _ _ | .addMigrationTx _ | .removeMigrationTx _
  | .executeMigrationTx _ | .replaceAuthority _ _ | .processSetRefunds | .changeMembersSorted _ =>
      .isTrue trivial

section Generated

variable {host : Host AccountId} {o : Outlook AccountId} {s s' : Registration AccountId}

/-- **A vault is bonded** under an address that nobody has in its round, and its keys make the address. -/
lemma Registration.tryBondVaultAddress_eq_ok {vault vault' : MultiSigAccount AccountId}
    {refundAddress : Bytes} {who : AccountId} {round : ℕ}
    (hready : vault.isKeyGenerationReady = true) (hc : s.Completes host o vault round)
    (h : s.tryBondVaultAddress host o vault refundAddress who round = .ok (vault', s')) :
    ∃ a, vault'.generated = some a ∧ vault'.IsMultisig host ∧
      s.bondedVault.get (round, a) = none ∧
      s' = { s with
        bondedVault := s.bondedVault.insert (round, a) who
        bondedDescriptor := s.bondedDescriptor.insert (round, a) vault'.descriptor } := by
  obtain ⟨hm, hfree⟩ := hc hready
  simp only [tryBondVaultAddress, bind_eq_ok, ensure_eq_ok, pure_eq_ok, exists_const, Prod.exists,
    Prod.mk.injEq] at h
  obtain ⟨a, d, hgen, -, -, rfl, rfl⟩ := h
  refine ⟨a, rfl, ?_, hfree (a, d) (toOption_eq_some.mpr hgen), rfl⟩
  simp only [generateVaultAddress, bind_eq_ok, okOr_eq_ok, pure_eq_ok, Prod.mk.injEq] at hgen
  obtain ⟨desc, hdesc, address, -, -, -, -, rfl⟩ := hgen
  simp only [generateDescriptor] at hdesc
  split_ifs at hdesc
  obtain ⟨hmulti, hsane⟩ := Option.filter_eq_some_iff.mp hdesc
  refine ⟨?_, desc, ?_, hsane, rfl⟩
  · have hcount : vault.n = vault.pubKeys.keys.card := by
      simpa [MultiSigAccount.isKeyGenerationReady] using hready
    show vault.rawPubKeys.length = vault.n
    rw [MultiSigAccount.rawPubKeys, List.length_map, StorageMap.length_toList, hcount]
  · rw [← hm]
    exact hmulti

/-- A key is added to a pending vault. -/
lemma Registration.addKey_eq_ok {vault vault' : MultiSigAccount AccountId} {authorityId : AccountId}
    {pubKey refundAddress : Bytes} {who : AccountId} {round : ℕ}
    (hc : s.Completes host o { vault with
      pubKeys := vault.pubKeys.insert authorityId pubKey } round)
    (h : s.addKey host o vault authorityId pubKey refundAddress who round = .ok (vault', s')) :
    vault.isPending = true ∧ ((vault'.isPending = true ∧ s' = s) ∨
      ∃ a, vault'.generated = some a ∧ vault'.IsMultisig host ∧
        s.bondedVault.get (round, a) = none ∧
        s' = { s with
          bondedVault := s.bondedVault.insert (round, a) who
          bondedDescriptor := s.bondedDescriptor.insert (round, a) vault'.descriptor }) := by
  simp only [addKey, bind_eq_ok, ensure_eq_ok, okOr_eq_ok, exists_const] at h
  obtain ⟨hpending, -, -, -, -, pubKeys, hkeys, h⟩ := h
  have heq : pubKeys = vault.pubKeys.insert authorityId pubKey := by
    simp only [StorageMap.tryInsert] at hkeys
    split_ifs at hkeys
    exact (Option.some.inj hkeys).symm
  subst heq
  refine ⟨hpending, ?_⟩
  split_ifs at h with hready
  · exact Or.inr (Registration.tryBondVaultAddress_eq_ok hready hc h)
  · simp only [pure_eq_ok, Prod.mk.injEq] at h
    obtain ⟨rfl, rfl⟩ := h
    exact Or.inl ⟨hpending, rfl⟩

/-- Keys are taken from what was submitted in advance. -/
lemma Registration.takePreSubmitted_eq_ok {round m n : ℕ} {executives : List AccountId}
    {vault : MultiSigAccount AccountId}
    (h : s.takePreSubmitted round (.new m n) executives = .ok (vault, s')) :
    vault.isPending = true ∧ vault.m = m ∧ ∃ keys, s' = { s with preSubmittedPubKeys := keys } := by
  have hfold : Returns (fun p : MultiSigAccount AccountId × Registration AccountId =>
      p.1.isPending = true ∧ p.1.m = m ∧ ∃ keys, p.2 = { s with preSubmittedPubKeys := keys })
      (s.takePreSubmitted round (.new m n) executives) := by
    refine Returns.foldlM (fun p executive hp => ?_) ⟨rfl, rfl, s.preSubmittedPubKeys, rfl⟩
    obtain ⟨hpending, hm, keys, heq⟩ := hp
    dsimp only
    cases (StorageMap.ascending (p.2.preSubmittedPubKeys.getD (round, executive) ∅)).head? with
    | none => exact .pure ⟨hpending, hm, _, by rw [heq]⟩
    | some pubKey =>
        refine .ite (.pure ⟨hpending, hm, _, by rw [heq]⟩) (.bind fun _ => .pure ?_)
        exact ⟨hpending, hm, _, by rw [heq]⟩
  exact hfold _ h

/-- What a step does to the vaults, and that nobody is registered as the precompile. -/
structure Moves (host : Host AccountId) (s s' : Registration AccountId) : Prop where
  move : VaultMove host s s'
  users : ∀ r, s'.registrationPool.get (r, Registration.precompile host) = none

lemma KeepsVaults.moves (hs : VaultInv host s) (h : KeepsVaults host s s') : Moves host s s' :=
  ⟨.kept h.vaults h.bonded h.descriptors, h.users hs.users⟩

omit [LinearOrder AccountId] in
/-- The filter that picks generated vaults keeps a vault with an address. -/
lemma MultiSigAccount.filter_generated {v : MultiSigAccount AccountId} {a : Bytes}
    (ha : v.generated = some a) : ((some v).filter fun v => !v.isPending) = some v := by
  rw [generated] at ha
  cases hv : v.address with
  | pending =>
      rw [hv] at ha
      cases ha
  | generated address => simp [Option.filter, isPending, hv]

/-- The vault of a user is generated. -/
lemma VaultMove.user {r : ℕ} {who : AccountId} {a : Bytes} (target : BitcoinRelayTarget AccountId)
    (hwho : who ≠ Registration.precompile host) (hnone : s.generatedVault host (r, who) = none)
    (ha : target.vault.generated = some a) (hsound : target.vault.IsMultisig host)
    (hfree : s.bondedVault.get (r, a) = none) (hv : s'.systemVault = s.systemVault)
    (hp : s'.registrationPool = s.registrationPool.insert (r, who) target)
    (hb : s'.bondedVault = s.bondedVault.insert (r, a) who)
    (hd : s'.bondedDescriptor = s.bondedDescriptor.insert (r, a) target.vault.descriptor) :
    VaultMove host s s' := by
  refine .generated (r, who) target.vault a hnone ha hfree hsound ?_ hb hd
  rw [Registration.generatedVault_user hwho hv hp, MultiSigAccount.filter_generated ha]

/-- A system vault is generated. -/
lemma VaultMove.system {r : ℕ} {vault : MultiSigAccount AccountId} {a : Bytes}
    (hnone : s.generatedVault host (r, Registration.precompile host) = none)
    (ha : vault.generated = some a) (hsound : vault.IsMultisig host)
    (hfree : s.bondedVault.get (r, a) = none)
    (hv : s'.systemVault = s.systemVault.insert r vault)
    (hp : s'.registrationPool = s.registrationPool)
    (hb : s'.bondedVault = s.bondedVault.insert (r, a) (Registration.precompile host))
    (hd : s'.bondedDescriptor = s.bondedDescriptor.insert (r, a) vault.descriptor) :
    VaultMove host s s' := by
  refine .generated (r, Registration.precompile host) vault a hnone ha hfree hsound ?_ hb hd
  rw [Registration.generatedVault_system hv hp, MultiSigAccount.filter_generated ha]

lemma Registration.users_insert (hs : VaultInv host s) {r : ℕ} {who : AccountId}
    (hwho : who ≠ precompile host) (target : BitcoinRelayTarget AccountId) (r' : ℕ) :
    (s.registrationPool.insert (r, who) target).get (r', precompile host) = none := by
  have hne : (r', precompile host) ≠ (r, who) := by
    rintro ⟨⟩
    exact hwho rfl
  rw [StorageMap.get_insert_of_ne _ hne]
  exact hs.users r'

/-- `request_vault` makes one move. -/
lemma Registration.requestVault_moves (hs : VaultInv host s) {origin : Origin AccountId}
    {refundAddress : Bytes} (hreg : (Step.requestVault o origin refundAddress).Regular host s) :
    Returns (Moves host s) (s.requestVault host o origin refundAddress) := by
  intro s' h
  have hreg := IfOk.of_ok hreg h
  simp only [requestVault, bind_eq_ok, ensure_eq_ok, pure_eq_ok, exists_const, Prod.exists] at h
  obtain ⟨-, who, hwho, address, -, -, habsent, vault, s₁, htake, rfl⟩ := h
  have hsigned : who ≠ precompile host := by
    rintro rfl
    cases origin with
    | signed who =>
        obtain rfl := Except.ok.inj hwho
        exact hreg.1 rfl
    | _ => cases hwho
  have hcomplete := hreg.2 (vault, s₁) (toOption_eq_some.mpr htake)
  obtain ⟨hpending, -, keys, rfl⟩ := Registration.takePreSubmitted_eq_ok htake
  have hnone : s.generatedVault host (s.currentRound, who) = none := by
    have hget : s.registrationPool.get (s.currentRound, who) = none := by
      simpa [StorageMap.contains] using habsent
    rw [generatedVault, if_neg hsigned, hget]
    rfl
  -- the record of the user is pending, or its vault has just been bonded
  have hstay : ∀ (t : Registration AccountId) (target : BitcoinRelayTarget AccountId),
      target.vault.isPending = true → t.systemVault = s.systemVault →
      t.registrationPool = s.registrationPool.insert (s.currentRound, who) target →
      t.bondedVault = s.bondedVault → t.bondedDescriptor = s.bondedDescriptor → Moves host s t := by
    intro t target hp hv ht hb hd
    refine ⟨.kept ?_ hb hd, fun r => ?_⟩
    · rw [generatedVault_user hsigned hv ht, Function.update_eq_self_iff, hnone]
      simp [Option.filter, hp]
    · rw [ht]
      exact Registration.users_insert hs hsigned _ r
  by_cases hready : vault.isKeyGenerationReady = true
  · simp only [hready, if_true]
    have hc : ({ s with preSubmittedPubKeys := keys } : Registration AccountId).Completes host o
        vault s.currentRound := hcomplete
    cases hbond : ({ s with preSubmittedPubKeys := keys } :
        Registration AccountId).tryBondVaultAddress host o vault address who s.currentRound with
    | error e => exact hstay _ ⟨address, { vault with pubKeys := ∅ }⟩ hpending rfl rfl rfl rfl
    | ok p =>
        obtain ⟨vault', s₂⟩ := p
        obtain ⟨a, ha, hsound, hfree, rfl⟩ :=
          Registration.tryBondVaultAddress_eq_ok hready hc hbond
        refine ⟨?_, fun r => Registration.users_insert hs hsigned _ r⟩
        exact .user ⟨address, vault'⟩ hsigned hnone ha hsound hfree rfl rfl rfl rfl
  · simp only [hready]
    exact hstay _ ⟨address, vault⟩ hpending rfl rfl rfl rfl

/-- `submit_vault_key` makes one move. -/
lemma Registration.submitVaultKey_moves (hs : VaultInv host s) {sub : VaultKeySubmission AccountId}
    (hreg : (Step.submitVaultKey o sub).Regular host s) :
    Returns (Moves host s) (s.submitVaultKey host o sub) := by
  intro s' h
  have hreg := IfOk.of_ok hreg h
  simp only [submitVaultKey, bind_eq_ok, ensure_eq_ok, okOr_eq_ok, pure_eq_ok, exists_const,
    Prod.exists] at h
  obtain ⟨-, -, -, -, target, htarget, vault, s₁, hadd, rfl⟩ := h
  have hwho : sub.who ≠ precompile host := by
    intro heq
    rw [heq, hs.users] at htarget
    cases htarget
  obtain ⟨hold, hnew⟩ := Registration.addKey_eq_ok (hreg target htarget) hadd
  rcases hnew with ⟨hpending, rfl⟩ | ⟨a, ha, hsound, hfree, rfl⟩
  · refine KeepsVaults.moves hs ?_
    refine .user htarget ?_ rfl rfl rfl rfl
    simp [Option.filter, hold, hpending]
  · refine ⟨?_, fun r => Registration.users_insert hs hwho _ r⟩
    refine .user { target with vault } hwho ?_ ha hsound hfree rfl rfl rfl rfl
    rw [generatedVault, if_neg hwho, htarget]
    simp [Option.filter, hold]

/-- `submit_system_vault_key` makes one move. -/
lemma Registration.submitSystemVaultKey_moves (hs : VaultInv host s)
    {sub : VaultKeySubmission AccountId}
    (hreg : (Step.submitSystemVaultKey o sub).Regular host s) :
    Returns (Moves host s) (s.submitSystemVaultKey host o sub) := by
  intro s' h
  have hreg := IfOk.of_ok hreg h
  simp only [submitSystemVaultKey, bind_eq_ok, ensure_eq_ok, okOr_eq_ok, pure_eq_ok, exists_const,
    Prod.exists] at h
  obtain ⟨-, -, r, hr, -, -, systemVault, hvault, vault, s₁, hadd, rfl⟩ := h
  obtain ⟨hold, hnew⟩ := Registration.addKey_eq_ok (hreg r hr systemVault hvault) hadd
  rcases hnew with ⟨hpending, rfl⟩ | ⟨a, ha, hsound, hfree, rfl⟩
  · refine KeepsVaults.moves hs ?_
    refine .system ?_ rfl rfl rfl rfl
    simp [Option.filter, hvault, hold, hpending]
  · refine ⟨.system ?_ ha hsound hfree rfl rfl rfl rfl, hs.users⟩
    rw [generatedVault, if_pos rfl, hvault]
    simp [Option.filter, hold]

/-- `clear_vault` makes one move. -/
lemma Registration.clearVault_moves (hs : VaultInv host s) {origin : Origin AccountId}
    {vaultAddress : Bytes} : Returns (Moves host s) (s.clearVault host origin vaultAddress) := by
  intro s' h
  simp only [clearVault, bind_eq_ok, ensure_eq_ok, okOr_eq_ok, exists_const] at h
  obtain ⟨-, -, a, -, who, hwho, h⟩ := h
  split_ifs at h with hsystem
  · subst hsystem
    simp only [bind_eq_ok, okOr_eq_ok, pure_eq_ok] at h
    obtain ⟨vault, -, s₁, rfl, rfl⟩ := h
    refine ⟨.cleared (s.currentRound, precompile host) a hwho ?_ rfl rfl, hs.users⟩
    funext k
    simp only [generatedVault, Function.update_apply]
    by_cases hk : k = (s.currentRound, precompile host)
    · simp [hk]
    · rw [if_neg hk]
      split_ifs with hk₂
      · have hr : k.1 ≠ s.currentRound := fun hr => hk (Prod.ext hr hk₂)
        rw [StorageMap.get_remove_of_ne _ hr]
      · rfl
  · simp only [bind_eq_ok, okOr_eq_ok, pure_eq_ok] at h
    obtain ⟨target, -, s₁, rfl, rfl⟩ := h
    refine ⟨.cleared (s.currentRound, who) a hwho ?_ rfl rfl, fun r => ?_⟩
    · funext k
      simp only [generatedVault, Function.update_apply]
      by_cases hk : k = (s.currentRound, who)
      · simp [hk, hsystem]
      · rw [if_neg hk, StorageMap.get_remove_of_ne _ hk]
    · simp only [StorageMap.get_remove, hs.users r, ite_self]

/-- `drop_previous_round` makes one move. -/
lemma Registration.dropPreviousRound_moves (hs : VaultInv host s) {origin : Origin AccountId}
    {round : ℕ} : Returns (Moves host s) (s.dropPreviousRound origin round) := by
  intro s' h
  simp only [dropPreviousRound, bind_eq_ok, ensure_eq_ok, pure_eq_ok, exists_const] at h
  obtain ⟨-, -, -, rfl⟩ := h
  refine ⟨.dropped round ?_ rfl rfl, fun r => ?_⟩
  · funext k
    simp only [generatedVault, StorageMap.get_filterKeys]
    by_cases hr : k.1 = round
    · simp [hr]
    · simp [hr]
  · simp only [StorageMap.get_filterKeys, hs.users r, ite_self]

/-- **Step lemma.**  Every regular step changes the generated vaults in one of these ways. -/
lemma Registration.step_moves {i : Step AccountId} (hs : VaultInv host s) (hreg : i.Regular host s)
    (h : s.step host i = some s') : Moves host s s' := by
  have hkept : KeepsVaults host s s' → Moves host s s' := KeepsVaults.moves hs
  -- a call that fails changes nothing
  have hcommit : ∀ {r : Except Error (Registration AccountId)}, Returns (Moves host s) r →
      Moves host s (commit s r) := fun hr =>
    commit_induction (P := Moves host s) (KeepsVaults.moves hs (.refl host s)) hr
  have hquiet : ∀ {r : Except Error (Registration AccountId)}, Returns (KeepsVaults host s) r →
      Moves host s (commit s r) := fun hr => hcommit fun t ht => KeepsVaults.moves hs (hr t ht)
  cases i with
  | requestVault o origin refundAddress =>
      exact Option.some.inj h ▸ hcommit (Registration.requestVault_moves hs hreg)
  | submitVaultKey o sub =>
      exact Option.some.inj h ▸ hcommit (Registration.submitVaultKey_moves hs hreg)
  | submitSystemVaultKey o sub =>
      exact Option.some.inj h ▸ hcommit (Registration.submitSystemVaultKey_moves hs hreg)
  | clearVault origin vaultAddress =>
      exact Option.some.inj h ▸ hcommit (Registration.clearVault_moves hs)
  | dropPreviousRound origin round =>
      exact Option.some.inj h ▸ hcommit (Registration.dropPreviousRound_moves hs)
  | requestSystemVault o origin migrationPrepare =>
      exact Option.some.inj h ▸ hquiet Registration.requestSystemVault_keeps
  | migrationControl o origin =>
      exact Option.some.inj h ▸ hquiet Registration.migrationControl_keeps
  | approveSetRefunds o approval =>
      exact Option.some.inj h ▸ hquiet Registration.approveSetRefunds_keeps
  | requestSetRefund origin new =>
      refine Option.some.inj h ▸ hquiet ?_
      exact .bind fun _ => .bind fun _ => .bind fun _ => .bind fun _ => .bind fun _ =>
        .bind fun _ => .bind fun _ => .pure (.of_eq rfl rfl rfl rfl)
  | vaultKeyPresubmission o sub =>
      refine Option.some.inj h ▸ hquiet ?_
      exact .bind fun _ => .bind fun _ => .bind fun _ => .bind fun _ => .bind fun _ =>
        .bind fun _ => .pure (.of_eq rfl rfl rfl rfl)
  | setMaxPresubmission origin max =>
      refine Option.some.inj h ▸ hquiet ?_
      exact .bind fun _ => .bind fun _ => .pure (.of_eq rfl rfl rfl rfl)
  | setMultiSigRatio origin new =>
      refine Option.some.inj h ▸ hquiet ?_
      exact .bind fun _ => .bind fun _ => .bind fun _ => .pure (.of_eq rfl rfl rfl rfl)
  | addMigrationTx txid =>
      refine hkept (Option.some.inj h ▸ ?_)
      rw [addMigrationTx]
      split_ifs <;> exact .of_eq rfl rfl rfl rfl
  | executeMigrationTx txid =>
      refine hkept (Option.some.inj h ▸ ?_)
      rw [executeMigrationTx]
      split_ifs <;> exact .of_eq rfl rfl rfl rfl
  | removeMigrationTx txid => exact hkept (Option.some.inj h ▸ .of_eq rfl rfl rfl rfl)
  | replaceAuthority old new =>
      exact hkept (Option.some.inj h ▸ s.replaceAuthority_keeps host old new)
  | processSetRefunds => exact hkept (Option.some.inj h ▸ s.processSetRefunds_keeps host)
  | changeMembersSorted new => exact hkept (Option.some.inj h ▸ .of_eq rfl rfl rfl rfl)

/-- **Run lemma.**  The invariant of the vaults holds in every regular run. -/
lemma PoolIf.vaultInv (h : PoolIf host (fun s i => i.Regular host s) s) : VaultInv host s := by
  refine Reachable.invariant (P := VaultInv host) ?_ ?_ h
  · rintro s ⟨members, rfl⟩
    have hnone : ∀ k, (Registration.genesis host members).generatedVault host k = none := by
      intro k
      rw [Registration.generatedVault]
      split_ifs <;> rfl
    refine ⟨fun k i => ?_, fun k v a hv => ?_, fun _ => rfl⟩
    · rw [Registration.addressOf, hnone]
      exact iff_of_false (fun h => by cases h) (fun h => by cases h)
    · rw [hnone] at hv
      cases hv
  · intro s i s' hs hreg hstep
    have hmoves := Registration.step_moves hs hreg hstep
    exact hs.move hmoves.move hmoves.users

end Generated

/-! ## Results -/

section Results

variable {host : Host AccountId} {s : Registration AccountId}

/-- The keys of a vault are distinct, and its descriptor is the sorted multi-signature of these `n` keys
with threshold `m`. -/
structure MultiSigAccount.Sound (host : Host AccountId) (vault : MultiSigAccount AccountId) :
    Prop where
  count : vault.rawPubKeys.length = vault.n
  distinct : vault.rawPubKeys.Nodup
  multisig : ∃ desc, host.lib.newWshSortedmulti vault.m (vault.rawPubKeys.insertionSort (· ≤ ·)) =
    some desc ∧ vault.descriptor = desc.text

/-- **Vaults are what their records say**, in every regular run: the descriptor of a vault is made from
its keys and its threshold, and its address leads to its owner and to its descriptor. -/
theorem vaults_sound
    (hsane : ∀ m keys desc, host.lib.newWshSortedmulti m keys = some desc →
      host.lib.sanityCheck desc = true → keys.Nodup)
    (h : PoolIf host (fun s i => i.Regular host s) s) :
    (∀ r who target a, s.registrationPool.get (r, who) = some target →
      target.vault.address = .generated a →
      target.vault.Sound host ∧ s.bondedVault.get (r, a) = some who ∧
        s.bondedDescriptor.get (r, a) = some target.vault.descriptor) ∧
    (∀ r vault a, s.systemVault.get r = some vault → vault.address = .generated a →
      vault.Sound host ∧ s.bondedVault.get (r, a) = some (Registration.precompile host) ∧
        s.bondedDescriptor.get (r, a) = some vault.descriptor) := by
  have hinv := h.vaultInv
  have hall : ∀ r who vault a, s.generatedVault host (r, who) = some vault →
      vault.address = .generated a →
      vault.Sound host ∧ s.bondedVault.get (r, a) = some who ∧
        s.bondedDescriptor.get (r, a) = some vault.descriptor := by
    intro r who vault a hv ha
    have hgen : vault.generated = some a := by rw [MultiSigAccount.generated, ha]
    obtain ⟨⟨hcount, desc, hdesc, hcheck, htext⟩, hbonded⟩ := hinv.sound (r, who) vault a hv hgen
    refine ⟨⟨hcount, ?_, desc, hdesc, htext⟩, ?_, hbonded⟩
    · exact (List.perm_insertionSort _ _).nodup_iff.mp (hsane _ _ desc hdesc hcheck)
    · have haddr : s.addressOf host (r, who) = some (r, a) := by
        rw [Registration.addressOf, hv, Option.bind_some, hgen]
        rfl
      have hbond := (hinv.bonds (r, who) (r, a)).mp haddr
      obtain ⟨w, hw, heq⟩ := Option.map_eq_some_iff.mp hbond
      obtain ⟨-, rfl⟩ := Prod.mk.inj heq
      exact hw
  refine ⟨fun r who target a ht ha => hall r who target.vault a ?_ ha, fun r vault a hv ha =>
    hall r (Registration.precompile host) vault a ?_ ha⟩
  · have hwho : who ≠ Registration.precompile host := by
      rintro rfl
      rw [hinv.users] at ht
      cases ht
    rw [Registration.generatedVault, if_neg hwho, ht]
    simp [Option.filter, MultiSigAccount.isPending, ha]
  · rw [Registration.generatedVault, if_pos rfl, hv]
    simp [Option.filter, MultiSigAccount.isPending, ha]

end Results

/-! ## A small pool

Keys are single bytes, and an address is the text of its descriptor, which lists the threshold and the
keys.  The executives are the accounts 1 and 2. -/

section Regtest

def regtestLibrary : Library where
  serialize _ := []
  deserialize _ := none
  computeTxid _ := 0
  combine _ _ := none
  finalize _ := none
  addressFromScript script := some script
  addressFromStr text := some text
  requireNetwork _ := true
  scriptPubkey address := address
  descriptorFromStr _ := none
  newWshSortedmulti m keys :=
    if 1 ≤ m ∧ m ≤ keys.length then some ⟨UInt8.ofNat m :: keys.flatten, [], [], keys⟩ else none
  sanityCheck desc := decide desc.keys.Nodup
  descriptorAddress desc := some desc.text
  isPublicKey key := key.length = 1
  instructions _ := []

def regtest : Host ℕ where
  codec := sampleCodec
  lib := regtestLibrary
  chainId := 3068
  bitcoinChainId := 10004
  accountOf a := a.val
  h160Of a := Fin.ofNat _ a
  twox64 h := h.val
  feeRateExpiration := 2
  toleranceThreshold := 3
  defaultMaxFeeRate := 1000
  defaultMaxSocketMessageBytes := 2000
  defaultMultiSigRatio := 50

/-- Two executives, and nothing else to see. -/
def regtestOutlook : Outlook ℕ := ⟨[1, 2], true, fun _ => true, 1⟩

/-- The multi-signature of the small pool takes no key twice. -/
lemma regtestLibrary_sane (m : ℕ) (keys : List Bytes) (desc : Descriptor)
    (h : regtest.lib.newWshSortedmulti m keys = some desc)
    (hcheck : regtest.lib.sanityCheck desc = true) : keys.Nodup := by
  simp only [regtest, regtestLibrary] at h
  split_ifs at h
  obtain rfl := Option.some.inj h
  exact of_decide_eq_true hcheck

/-- What a run shows, it shows of a reachable state. -/
lemma regtestRun_exists (cond : Registration ℕ → Step ℕ → Prop) [∀ s i, Decidable (cond s i)]
    (steps : List (Step ℕ)) {P : Registration ℕ → Bool}
    (h : (runSteps (checked (Registration.step regtest) cond) (.genesis regtest [1, 2]) steps).any P =
      true) : ∃ s, PoolIf regtest cond s ∧ P s = true := by
  obtain ⟨s, hs, hP⟩ := (Option.any_eq_true _ _).mp h
  exact ⟨s, Reachable.runChecked (.init ⟨_, rfl⟩) hs, hP⟩

/-- User 7 gets a vault in which one of two keys is enough. -/
theorem vaults_sound_regtest : ∃ s : Registration ℕ,
    PoolIf regtest (fun s i => i.Regular regtest s) s ∧
    ∃ target, s.registrationPool.get (1, 7) = some target ∧
      target.vault.address = .generated [1, 10, 20] ∧ target.vault.m = 1 ∧
      target.vault.Sound regtest := by
  have hrun := regtestRun_exists (fun s i => i.Regular regtest s)
    [.requestVault regtestOutlook (.signed 7) [5], .submitVaultKey regtestOutlook ⟨1, 7, [20], 1⟩,
      .submitVaultKey regtestOutlook ⟨2, 7, [10], 1⟩]
    (P := fun s => (s.registrationPool.get (1, 7)).any fun target =>
      decide (target.vault.address = .generated [1, 10, 20] ∧ target.vault.m = 1)) (by decide)
  obtain ⟨s, hs, hP⟩ := hrun
  obtain ⟨target, ht, hvault⟩ := (Option.any_eq_true _ _).mp hP
  obtain ⟨ha, hm⟩ := of_decide_eq_true hvault
  exact ⟨s, hs, target, ht, ha, hm,
    ((vaults_sound regtestLibrary_sane hs).1 1 7 target [1, 10, 20] ht ha).1⟩

/-- **A vault with another threshold.**  User 7 requests a vault in which one of two keys is enough.
Before the last key arrives, the ratio is raised, and the address is that of two keys of two. -/
theorem vault_unsound : ∃ s : Registration ℕ, PoolIf regtest anyStep s ∧
    ∃ target, s.registrationPool.get (1, 7) = some target ∧
      target.vault.address = .generated [2, 10, 20] ∧ target.vault.m = 1 ∧
      ¬ target.vault.Sound regtest := by
  have hrun := regtestRun_exists anyStep
    [.requestVault regtestOutlook (.signed 7) [5], .submitVaultKey regtestOutlook ⟨1, 7, [20], 1⟩,
      .setMultiSigRatio .root 100, .submitVaultKey regtestOutlook ⟨2, 7, [10], 1⟩]
    (P := fun s => (s.registrationPool.get (1, 7)).any fun target =>
      decide (target.vault.address = .generated [2, 10, 20] ∧ target.vault.m = 1 ∧
        target.vault.descriptor = [2, 10, 20])) (by decide)
  obtain ⟨s, hs, hP⟩ := hrun
  obtain ⟨target, ht, hvault⟩ := (Option.any_eq_true _ _).mp hP
  obtain ⟨ha, hm, hdesc⟩ := of_decide_eq_true hvault
  refine ⟨s, hs, target, ht, ha, hm, fun hsound => ?_⟩
  obtain ⟨desc, hmulti, htext⟩ := hsound.multisig
  rw [hm] at hmulti
  simp only [regtest, regtestLibrary] at hmulti
  split_ifs at hmulti
  obtain rfl := Option.some.inj hmulti
  rw [hdesc] at htext
  cases htext

end Regtest

end BifrostNode.Btc.Pool
