import BifrostNode.Btc.Vaults

/-!
# What a step of the pool does

**One step.**  `PoolMove` says everything that a step of the registration pool can do, with what was
checked before, and `Registration.step_cases` that it does.  Keys, refund addresses, members and the
system vault of the next round are all looked after by cases on it.

**Loops.**  Refund addresses are set one after the other (`RefundMove`), and a replaced authority is
replaced in every pending vault of the round (`Registration.replaceAuthority_vaultAt`).
-/

namespace BifrostNode.Btc.Pool

open Cccp Staking Transition

variable {AccountId : Type} [LinearOrder AccountId]

/-! ## Moves -/

/-- Refund addresses of the round are set, and requests for that are forgotten. -/
inductive RefundMove (r : ℕ) (s : Registration AccountId) : Registration AccountId → Prop
  | refl : RefundMove r s s
  | set {t : Registration AccountId} {who : AccountId} {target : BitcoinRelayTarget AccountId}
      {new : Bytes} (h : RefundMove r s t) (hfree : t.bondedVault.get (r, new) = none)
      (htarget : t.registrationPool.get (r, who) = some target) :
      RefundMove r s (t.setRefund r who target new)
  | forget {t : Registration AccountId} (p : StorageMap (ℕ × AccountId) SetRefundState)
      (h : RefundMove r s t) : RefundMove r s { t with pendingSetRefunds := p }

/-- The last key is there, and the address that belongs to the keys is bonded. -/
structure Bonds (host : Host AccountId) (o : Outlook AccountId) (s : Registration AccountId)
    (vault : MultiSigAccount AccountId) (refundAddress : Bytes) (who : AccountId) (round : ℕ)
    (vault' : MultiSigAccount AccountId) (s' : Registration AccountId) (a d : Bytes) : Prop where
  ready : vault.isKeyGenerationReady = true
  address : s.generateVaultAddress host o vault.rawPubKeys = .ok (a, d)
  other : a ≠ refundAddress
  free : s.bondedRefund.get (round, a) = none
  vault_eq : vault' = { vault with address := .generated a, descriptor := d }
  state_eq : s' = { s with
    bondedVault := s.bondedVault.insert (round, a) who
    bondedDescriptor := s.bondedDescriptor.insert (round, a) d }

/-- A key comes to a pending vault. -/
structure KeyAdded (host : Host AccountId) (o : Outlook AccountId) (s : Registration AccountId)
    (vault : MultiSigAccount AccountId) (authorityId : AccountId) (pubKey refundAddress : Bytes)
    (who : AccountId) (round : ℕ) (vault' : MultiSigAccount AccountId)
    (s' : Registration AccountId) : Prop where
  pending : vault.isPending = true
  authority : vault.pubKeys.get authorityId = none
  free : s.bondedPubKey.get (round, pubKey) = none
  outcome : ({ vault with pubKeys := vault.pubKeys.insert authorityId pubKey }.isKeyGenerationReady =
        false ∧ vault' = { vault with pubKeys := vault.pubKeys.insert authorityId pubKey } ∧ s' = s) ∨
      ∃ a d, Bonds host o s { vault with pubKeys := vault.pubKeys.insert authorityId pubKey }
        refundAddress who round vault' s' a d

/-- What the pool holds after a vault is requested. -/
def Registration.withTarget (s : Registration AccountId) (who : AccountId) (refundAddress : Bytes)
    (vault : MultiSigAccount AccountId) : Registration AccountId :=
  { s with
    bondedRefund := s.bondedRefund.insert (s.currentRound, refundAddress)
      (s.bondedRefund.getD (s.currentRound, refundAddress) [] ++ [who])
    registrationPool := s.registrationPool.insert (s.currentRound, who) ⟨refundAddress, vault⟩ }

/-- **What a step can do to the pool**: one constructor for each kind of record it writes. -/
inductive PoolMove (host : Host AccountId) (s : Registration AccountId) (i : Step AccountId)
    (s' : Registration AccountId) : Prop
  | tuned (h : s' = { s with
      maxPreSubmission := s'.maxPreSubmission
      multiSigRatio := s'.multiSigRatio
      ongoingVaultMigration := s'.ongoingVaultMigration
      pendingSetRefunds := s'.pendingSetRefunds }) : PoolMove host s i s'
  | members (new : List AccountId) (hi : i = .changeMembersSorted new)
      (h : s' = s.changeMembersSorted new) : PoolMove host s i s'
  | refunds (h : RefundMove s.currentRound s s') : PoolMove host s i s'
  | opened (o : Outlook AccountId) (who : AccountId) (raw address : Bytes)
      (keys : StorageMap (ℕ × AccountId) (Finset Bytes)) (vault vault' : MultiSigAccount AccountId)
      (hi : i = .requestVault o (.signed who) raw) (hnormal : s.serviceState = .normal)
      (hfree : s.bondedVault.get (s.currentRound, address) = none)
      (hnone : s.registrationPool.get (s.currentRound, who) = none)
      (htake : s.takePreSubmitted s.currentRound (.new (s.getM o) (Registration.getN o)) o.executives =
        .ok (vault, { s with preSubmittedPubKeys := keys }))
      (hvault : (vault.isKeyGenerationReady = false ∧ vault' = vault) ∨
        (vault.isKeyGenerationReady = true ∧ vault' = { vault with pubKeys := ∅ }))
      (h : s' = { s with preSubmittedPubKeys := keys }.withTarget who address vault') :
      PoolMove host s i s'
  | bonded (o : Outlook AccountId) (who : AccountId) (raw address : Bytes)
      (keys : StorageMap (ℕ × AccountId) (Finset Bytes)) (vault vault' : MultiSigAccount AccountId)
      (a d : Bytes) (t : Registration AccountId)
      (hi : i = .requestVault o (.signed who) raw) (hnormal : s.serviceState = .normal)
      (hfree : s.bondedVault.get (s.currentRound, address) = none)
      (hnone : s.registrationPool.get (s.currentRound, who) = none)
      (htake : s.takePreSubmitted s.currentRound (.new (s.getM o) (Registration.getN o)) o.executives =
        .ok (vault, { s with preSubmittedPubKeys := keys }))
      (hbonds : Bonds host o { s with preSubmittedPubKeys := keys } vault address who s.currentRound
        vault' t a d)
      (h : s' = { t with
        bondedPubKey := vault'.rawPubKeys.foldl (fun m k => m.insert (s.currentRound, k) who)
          s.bondedPubKey }.withTarget who address vault') : PoolMove host s i s'
  | keyed (o : Outlook AccountId) (sub : VaultKeySubmission AccountId)
      (target : BitcoinRelayTarget AccountId) (vault' : MultiSigAccount AccountId)
      (t : Registration AccountId) (hi : i = .submitVaultKey o sub)
      (hexec : sub.authorityId ∈ o.executives) (hnormal : s.serviceState = .normal)
      (htarget : s.registrationPool.get (s.currentRound, sub.who) = some target)
      (hkey : KeyAdded host o s target.vault sub.authorityId sub.pubKey target.refundAddress sub.who
        s.currentRound vault' t)
      (h : s' = { t with
        bondedPubKey := s.bondedPubKey.insert (s.currentRound, sub.pubKey) sub.who
        registrationPool := s.registrationPool.insert (s.currentRound, sub.who)
          { target with vault := vault' } }) : PoolMove host s i s'
  | systemKeyed (o : Outlook AccountId) (sub : VaultKeySubmission AccountId) (r : ℕ)
      (vault vault' : MultiSigAccount AccountId) (t : Registration AccountId)
      (hi : i = .submitSystemVaultKey o sub) (hexec : sub.authorityId ∈ o.executives)
      (hr : s.systemVaultRound = some r) (hvault : s.systemVault.get r = some vault)
      (hkey : KeyAdded host o s vault sub.authorityId sub.pubKey []
        (Registration.precompile host) r vault' t)
      (h : s' = { t with
        serviceState := if vault'.isKeyGenerationReady ∧ s.serviceState = .prepareNextSystemVault then
          .utxoTransfer else s.serviceState
        bondedPubKey := s.bondedPubKey.insert (r, sub.pubKey) (Registration.precompile host)
        systemVault := s.systemVault.insert r vault' }) : PoolMove host s i s'
  | requested (o : Outlook AccountId) (prepare : Bool)
      (hi : i = .requestSystemVault o .root prepare)
      (hstate : s.serviceState = .normal ∨ s.serviceState = .prepareNextSystemVault)
      (hnone : s.systemVault.get (if prepare then s.currentRound + 1 else s.currentRound) = none)
      (h : s' = { s with
        systemVault := s.systemVault.insert
          (if prepare then s.currentRound + 1 else s.currentRound)
          (.new (s.getM o) (Registration.getN o)) }) : PoolMove host s i s'
  | presubmitted (o : Outlook AccountId) (sub : VaultKeyPreSubmission AccountId)
      (hi : i = .vaultKeyPresubmission o sub) (hexec : sub.authorityId ∈ o.executives)
      (hnormal : s.serviceState = .normal)
      (h : s' = { s with
        preSubmittedPubKeys := s.preSubmittedPubKeys.insert (s.currentRound, sub.authorityId)
          (s.preSubmittedPubKeys.getD (s.currentRound, sub.authorityId) ∅ ∪ sub.pubKeys.toFinset) }) :
      PoolMove host s i s'
  | cleared (raw a : Bytes) (who : AccountId) (target : BitcoinRelayTarget AccountId)
      (hi : i = .clearVault .root raw) (ha : Registration.getCheckedBitcoinAddress host raw = .ok a)
      (hnormal : s.serviceState = .normal)
      (hbond : s.bondedVault.get (s.currentRound, a) = some who)
      (hwho : who ≠ Registration.precompile host)
      (htarget : s.registrationPool.get (s.currentRound, who) = some target)
      (h : s' = { s with
        bondedPubKey := (target.vault.rawPubKeys.map (s.currentRound, ·)).foldl StorageMap.remove
          s.bondedPubKey
        registrationPool := s.registrationPool.remove (s.currentRound, who)
        bondedRefund := s.bondedRefund.remove (s.currentRound, target.refundAddress)
        bondedVault := s.bondedVault.remove (s.currentRound, a)
        bondedDescriptor := s.bondedDescriptor.remove (s.currentRound, a) }) : PoolMove host s i s'
  | systemCleared (raw a : Bytes) (vault : MultiSigAccount AccountId)
      (hi : i = .clearVault .root raw) (hnormal : s.serviceState = .normal)
      (hbond : s.bondedVault.get (s.currentRound, a) = some (Registration.precompile host))
      (hvault : s.systemVault.get s.currentRound = some vault)
      (h : s' = { s with
        bondedPubKey := (vault.rawPubKeys.map (s.currentRound, ·)).foldl StorageMap.remove
          s.bondedPubKey
        systemVault := s.systemVault.remove s.currentRound
        bondedVault := s.bondedVault.remove (s.currentRound, a)
        bondedDescriptor := s.bondedDescriptor.remove (s.currentRound, a) }) : PoolMove host s i s'
  | started (o : Outlook AccountId) (hi : i = .migrationControl o .root)
      (hstate : s.serviceState = .normal) (hready : o.isReadyForMigrate = true)
      (h : s' = { s with serviceState := .setExecutiveMembers }) : PoolMove host s i s'
  | prepared (o : Outlook AccountId) (hi : i = .migrationControl o .root)
      (hstate : s.serviceState = .setExecutiveMembers)
      (hnone : s.systemVault.get (s.currentRound + 1) = none)
      (h : s' = { s with
        serviceState := .prepareNextSystemVault
        systemVault := s.systemVault.insert (s.currentRound + 1)
          (.new (s.getM o) (Registration.getN o)) }) : PoolMove host s i s'
  | ended (o : Outlook AccountId) (hi : i = .migrationControl o .root)
      (hstate : s.serviceState = .utxoTransfer)
      (h : s' = { s with
        currentRound := s.currentRound + 1
        serviceState := .normal
        ongoingVaultMigration := ∅ }) : PoolMove host s i s'
  | dropped (round : ℕ) (hi : i = .dropPreviousRound .root round) (hlt : round < s.currentRound)
      (hnormal : s.serviceState = .normal)
      (h : s' = { s with
        systemVault := s.systemVault.remove round
        registrationPool := s.registrationPool.filterKeys fun k => k.1 ≠ round
        bondedVault := s.bondedVault.filterKeys fun k => k.1 ≠ round
        bondedRefund := s.bondedRefund.filterKeys fun k => k.1 ≠ round
        bondedPubKey := s.bondedPubKey.filterKeys fun k => k.1 ≠ round
        bondedDescriptor := s.bondedDescriptor.filterKeys fun k => k.1 ≠ round
        preSubmittedPubKeys := s.preSubmittedPubKeys.filterKeys fun k => k.1 ≠ round }) :
      PoolMove host s i s'
  | renamed (old new : AccountId) (hi : i = .replaceAuthority old new)
      (h : s' = s.replaceAuthority old new) : PoolMove host s i s'

section Cases

variable {host : Host AccountId} {o : Outlook AccountId} {s s' : Registration AccountId}

/-! ## What the calls share -/

lemma Registration.tryBondVaultAddress_bonds {vault vault' : MultiSigAccount AccountId}
    {refundAddress : Bytes} {who : AccountId} {round : ℕ}
    (hready : vault.isKeyGenerationReady = true)
    (h : s.tryBondVaultAddress host o vault refundAddress who round = .ok (vault', s')) :
    ∃ a d, Bonds host o s vault refundAddress who round vault' s' a d := by
  simp only [tryBondVaultAddress, bind_eq_ok, ensure_eq_ok, pure_eq_ok, exists_const, Prod.exists,
    Prod.mk.injEq] at h
  obtain ⟨a, d, haddress, hother, hfree, rfl, rfl⟩ := h
  exact ⟨a, d, hready, haddress, hother, StorageMap.not_contains.mp hfree, rfl, rfl⟩

lemma Registration.addKey_added {vault vault' : MultiSigAccount AccountId} {authorityId : AccountId}
    {pubKey refundAddress : Bytes} {who : AccountId} {round : ℕ}
    (h : s.addKey host o vault authorityId pubKey refundAddress who round = .ok (vault', s')) :
    KeyAdded host o s vault authorityId pubKey refundAddress who round vault' s' := by
  simp only [addKey, bind_eq_ok, ensure_eq_ok, okOr_eq_ok, exists_const] at h
  obtain ⟨hpending, hauthority, -, -, hfree, pubKeys, hkeys, h⟩ := h
  have heq : pubKeys = vault.pubKeys.insert authorityId pubKey := by
    simp only [StorageMap.tryInsert] at hkeys
    split_ifs at hkeys
    exact (Option.some.inj hkeys).symm
  subst heq
  refine ⟨hpending, StorageMap.not_contains.mp hauthority, StorageMap.not_contains.mp hfree, ?_⟩
  split_ifs at h with hready
  · exact .inr (tryBondVaultAddress_bonds hready h)
  · simp only [pure_eq_ok, Prod.mk.injEq] at h
    exact .inl ⟨by simpa using hready, h.1.symm, h.2.symm⟩

omit [LinearOrder AccountId] in
lemma signer_eq_ok {origin : Origin AccountId} {who : AccountId}
    (h : Registration.signer origin = .ok who) : origin = .signed who := by
  cases origin with
  | signed who' => rw [Except.ok.inj h]
  | _ => cases h

omit [LinearOrder AccountId] in
lemma root_of_matches {origin : Origin AccountId} (h : (origin matches .root) = true) :
    origin = .root := by
  cases origin <;> simp_all

/-! ## The calls -/

lemma Registration.requestVault_cases {origin : Origin AccountId} {raw : Bytes}
    (h : s.requestVault host o origin raw = .ok s') :
    PoolMove host s (.requestVault o origin raw) s' := by
  simp only [requestVault, bind_eq_ok, ensure_eq_ok, pure_eq_ok, exists_const, Prod.exists] at h
  obtain ⟨hnormal, who, hwho, address, -, hfree, hnone, vault, s₁, htake, rfl⟩ := h
  obtain rfl := signer_eq_ok hwho
  obtain ⟨-, -, keys, rfl⟩ := Registration.takePreSubmitted_eq_ok htake
  have hfree := StorageMap.not_contains.mp hfree
  have hnone := StorageMap.not_contains.mp hnone
  by_cases hready : vault.isKeyGenerationReady = true
  · cases hbond : ({ s with preSubmittedPubKeys := keys } :
        Registration AccountId).tryBondVaultAddress host o vault address who s.currentRound with
    | error e =>
        refine .opened o who raw address keys vault _ rfl hnormal hfree hnone htake
          (.inr ⟨hready, rfl⟩) ?_
        simp [hready, withTarget]
    | ok p =>
        obtain ⟨vault', t⟩ := p
        obtain ⟨a, d, hbonds⟩ := Registration.tryBondVaultAddress_bonds hready hbond
        refine .bonded o who raw address keys vault vault' a d t rfl hnormal hfree hnone htake hbonds ?_
        simp [hready, withTarget, hbonds.state_eq]
  · refine .opened o who raw address keys vault _ rfl hnormal hfree hnone htake
      (.inl ⟨by simpa using hready, rfl⟩) ?_
    simp [hready, withTarget]

lemma Registration.submitVaultKey_cases {sub : VaultKeySubmission AccountId}
    (h : s.submitVaultKey host o sub = .ok s') : PoolMove host s (.submitVaultKey o sub) s' := by
  simp only [submitVaultKey, verifyExecutive, bind_eq_ok, ensure_eq_ok, okOr_eq_ok, pure_eq_ok,
    exists_const, Prod.exists] at h
  obtain ⟨hexec, hnormal, -, target, htarget, vault', t, hadd, rfl⟩ := h
  have hkey := addKey_added hadd
  refine .keyed o sub target vault' t rfl hexec hnormal htarget hkey ?_
  rcases hkey.outcome with ⟨-, -, rfl⟩ | ⟨a, d, hbonds⟩
  · rfl
  · rw [hbonds.state_eq]

lemma Registration.submitSystemVaultKey_cases {sub : VaultKeySubmission AccountId}
    (h : s.submitSystemVaultKey host o sub = .ok s') :
    PoolMove host s (.submitSystemVaultKey o sub) s' := by
  simp only [submitSystemVaultKey, verifyExecutive, bind_eq_ok, ensure_eq_ok, okOr_eq_ok, pure_eq_ok,
    exists_const, Prod.exists] at h
  obtain ⟨hexec, r, hr, -, -, vault, hvault, vault', t, hadd, rfl⟩ := h
  have hkey := addKey_added hadd
  refine .systemKeyed o sub r vault vault' t rfl hexec hr hvault hkey ?_
  rcases hkey.outcome with ⟨-, -, rfl⟩ | ⟨a, d, hbonds⟩
  · rfl
  · rw [hbonds.state_eq]

lemma Registration.clearVault_cases {origin : Origin AccountId} {raw : Bytes}
    (h : s.clearVault host origin raw = .ok s') : PoolMove host s (.clearVault origin raw) s' := by
  simp only [clearVault, bind_eq_ok, ensure_eq_ok, okOr_eq_ok, exists_const] at h
  obtain ⟨horigin, hnormal, a, ha, who, hbond, h⟩ := h
  obtain rfl := root_of_matches horigin
  split_ifs at h with hwho
  · subst hwho
    simp only [bind_eq_ok, okOr_eq_ok, pure_eq_ok] at h
    obtain ⟨vault, hvault, t, rfl, rfl⟩ := h
    exact .systemCleared raw a vault rfl hnormal hbond hvault rfl
  · simp only [bind_eq_ok, okOr_eq_ok, pure_eq_ok] at h
    obtain ⟨target, htarget, t, rfl, rfl⟩ := h
    exact .cleared raw a who target rfl ha hnormal hbond hwho htarget rfl

omit [LinearOrder AccountId] in
lemma Registration.requestSystemVault_eq_ok {origin : Origin AccountId} {prepare : Bool}
    (h : s.requestSystemVault o origin prepare = .ok s') :
    origin = .root ∧ (s.serviceState = .normal ∨ s.serviceState = .prepareNextSystemVault) ∧
      s.systemVault.get (if prepare then s.currentRound + 1 else s.currentRound) = none ∧
      s' = { s with
        systemVault := s.systemVault.insert
          (if prepare then s.currentRound + 1 else s.currentRound)
          (.new (s.getM o) (Registration.getN o)) } := by
  simp only [requestSystemVault, bind_eq_ok, ensure_eq_ok, pure_eq_ok, exists_const] at h
  obtain ⟨horigin, hstate, hnone, rfl⟩ := h
  exact ⟨root_of_matches horigin, hstate, StorageMap.not_contains.mp hnone, rfl⟩

lemma Registration.migrationControl_cases {origin : Origin AccountId}
    (h : s.migrationControl o origin = .ok s') : PoolMove host s (.migrationControl o origin) s' := by
  simp only [migrationControl, bind_eq_ok, ensure_eq_ok, exists_const] at h
  obtain ⟨horigin, h⟩ := h
  obtain rfl := root_of_matches horigin
  split at h
  · rename_i hstate
    simp only [bind_eq_ok, ensure_eq_ok, pure_eq_ok, exists_const] at h
    exact .started o rfl hstate h.1 h.2.symm
  · rename_i hstate
    obtain ⟨-, -, hnone, rfl⟩ := requestSystemVault_eq_ok h
    exact .prepared o rfl hstate hnone rfl
  · cases h
  · rename_i hstate
    simp only [bind_eq_ok, ensure_eq_ok, pure_eq_ok, exists_const] at h
    exact .ended o rfl hstate h.2.symm

/-- One refund address that is approved. -/
lemma Registration.approveSetRefund_refunds {r : ℕ} {refundSet : AccountId × Bytes}
    {t t' : Registration AccountId} (ht : RefundMove r s t)
    (h : t.approveSetRefund r refundSet = .ok t') : RefundMove r s t' := by
  simp only [approveSetRefund, bind_eq_ok, okOr_eq_ok, ensure_eq_ok, exists_const] at h
  obtain ⟨pending, -, -, h⟩ := h
  split_ifs at h with hcontains
  · simp only [bind_eq_ok, pure_eq_ok] at h
    obtain ⟨_, rfl, rfl⟩ := h
    exact .forget _ ht
  · simp only [bind_eq_ok, okOr_eq_ok, pure_eq_ok] at h
    obtain ⟨target, htarget, _, rfl, rfl⟩ := h
    have hfree : t.bondedVault.get (r, pending.new) = none := by
      simpa [StorageMap.contains] using hcontains
    exact .forget _ (.set ht hfree htarget)

lemma Registration.approveSetRefunds_cases {approval : SetRefundsApproval AccountId}
    (h : s.approveSetRefunds o approval = .ok s') :
    PoolMove host s (.approveSetRefunds o approval) s' := by
  have hloop : Returns (RefundMove s.currentRound s) (s.approveSetRefunds o approval) := by
    refine .bind fun _ => .bind fun _ => .bind fun _ => .bind fun _ => ?_
    exact Returns.foldlM (fun _ _ ht _ ht' => approveSetRefund_refunds ht ht') .refl
  exact .refunds (hloop s' h)

lemma Registration.processSetRefunds_refunds :
    RefundMove s.currentRound s s.processSetRefunds := by
  obtain ⟨t, ht, heq⟩ := s.processSetRefunds_rule (P := RefundMove s.currentRound s) .refl
    fun t who state target ht hfree htarget => .set ht hfree htarget
  rw [heq]
  exact .forget _ ht

/-- **What a step does to the pool.**  Every step is one of these moves. -/
lemma Registration.step_cases {i : Step AccountId} (h : s.step host i = some s') :
    PoolMove host s i s' := by
  -- a call that fails changes nothing
  have hcall : ∀ {x : Except Error (Registration AccountId)}, some (commit s x) = some s' →
      Returns (PoolMove host s i) x → PoolMove host s i s' := by
    intro x heq hx
    obtain rfl := Option.some.inj heq
    exact commit_induction (P := PoolMove host s i) (.tuned rfl) hx
  cases i with
  | requestVault o origin raw => exact hcall h fun _ => requestVault_cases
  | submitVaultKey o sub => exact hcall h fun _ => submitVaultKey_cases
  | submitSystemVaultKey o sub => exact hcall h fun _ => submitSystemVaultKey_cases
  | clearVault origin raw => exact hcall h fun _ => clearVault_cases
  | migrationControl o origin => exact hcall h fun _ => migrationControl_cases
  | approveSetRefunds o approval => exact hcall h fun _ => approveSetRefunds_cases
  | requestSystemVault o origin prepare =>
      refine hcall h fun t ht => ?_
      obtain ⟨rfl, hstate, hnone, rfl⟩ := requestSystemVault_eq_ok ht
      exact .requested o prepare rfl hstate hnone rfl
  | vaultKeyPresubmission o sub =>
      refine hcall h fun t ht => ?_
      simp only [vaultKeyPresubmission, verifyExecutive, bind_eq_ok, ensure_eq_ok, pure_eq_ok,
        exists_const] at ht
      obtain ⟨hexec, hnormal, -, -, -, -, rfl⟩ := ht
      exact .presubmitted o sub rfl hexec hnormal rfl
  | dropPreviousRound origin round =>
      refine hcall h fun t ht => ?_
      simp only [dropPreviousRound, bind_eq_ok, ensure_eq_ok, pure_eq_ok, exists_const] at ht
      obtain ⟨horigin, hnormal, hlt, rfl⟩ := ht
      obtain rfl := root_of_matches horigin
      exact .dropped round rfl hlt hnormal rfl
  | requestSetRefund origin new =>
      exact hcall h (.bind fun _ => .bind fun _ => .bind fun _ => .bind fun _ => .bind fun _ =>
        .bind fun _ => .bind fun _ => .pure (.tuned rfl))
  | setMaxPresubmission origin max =>
      exact hcall h (.bind fun _ => .bind fun _ => .pure (.tuned rfl))
  | setMultiSigRatio origin new =>
      exact hcall h (.bind fun _ => .bind fun _ => .bind fun _ => .pure (.tuned rfl))
  | addMigrationTx txid =>
      obtain rfl := Option.some.inj h
      rw [addMigrationTx]
      split_ifs <;> exact .tuned rfl
  | executeMigrationTx txid =>
      obtain rfl := Option.some.inj h
      rw [executeMigrationTx]
      split_ifs <;> exact .tuned rfl
  | removeMigrationTx txid =>
      obtain rfl := Option.some.inj h
      exact .tuned rfl
  | replaceAuthority old new =>
      obtain rfl := Option.some.inj h
      exact .renamed old new rfl rfl
  | processSetRefunds =>
      obtain rfl := Option.some.inj h
      exact .refunds processSetRefunds_refunds
  | changeMembersSorted new =>
      obtain rfl := Option.some.inj h
      exact .members new rfl rfl

end Cases

/-! ## Vaults of users and of the system -/

/-- The vault of a user in a round, or the system vault of the round. -/
def Registration.vaultAt (s : Registration AccountId) :
    ℕ × Option AccountId → Option (MultiSigAccount AccountId)
  | (r, none) => s.systemVault.get r
  | (r, some who) => (s.registrationPool.get (r, who)).map BitcoinRelayTarget.vault

/-- The owner of a vault, as the indexes have it. -/
def ownerOf (host : Host AccountId) : Option AccountId → AccountId
  | none => Registration.precompile host
  | some who => who

section VaultAt

variable {host : Host AccountId} {s t s' : Registration AccountId} {r : ℕ} {who : AccountId}

omit [LinearOrder AccountId] in
lemma Registration.vaultAt_congr (hv : s'.systemVault = s.systemVault)
    (hp : s'.registrationPool = s.registrationPool) : s'.vaultAt = s.vaultAt := by
  funext ⟨r, id⟩
  cases id with
  | none => rw [vaultAt, vaultAt, hv]
  | some who => rw [vaultAt, vaultAt, hp]

lemma Registration.vaultAt_user {target : BitcoinRelayTarget AccountId}
    (hv : s'.systemVault = s.systemVault)
    (hp : s'.registrationPool = s.registrationPool.insert (r, who) target) :
    s'.vaultAt = Function.update s.vaultAt (r, some who) (some target.vault) := by
  funext ⟨r', id⟩
  cases id with
  | none =>
      rw [Function.update_of_ne (by simp), vaultAt, vaultAt, hv]
  | some who' =>
      rw [vaultAt, hp, StorageMap.get_insert]
      by_cases hk : (r', who') = (r, who)
      · obtain ⟨rfl, rfl⟩ := Prod.mk.inj hk
        simp
      · have hne : (r', some who') ≠ (r, some who) := by simpa using hk
        rw [if_neg hk, Function.update_of_ne hne]
        rfl

lemma Registration.withTarget_vaultAt (s : Registration AccountId) (who : AccountId) (address : Bytes)
    (vault : MultiSigAccount AccountId) : (s.withTarget who address vault).vaultAt =
      Function.update s.vaultAt (s.currentRound, some who) (some vault) := by
  have h : (s.withTarget who address vault).vaultAt = Function.update s.vaultAt
      (s.currentRound, some who) (some (BitcoinRelayTarget.mk address vault).vault) :=
    Registration.vaultAt_user rfl rfl
  exact h

lemma Registration.vaultAt_system {vault : MultiSigAccount AccountId}
    (hv : s'.systemVault = s.systemVault.insert r vault)
    (hp : s'.registrationPool = s.registrationPool) :
    s'.vaultAt = Function.update s.vaultAt (r, none) (some vault) := by
  funext ⟨r', id⟩
  cases id with
  | none =>
      rw [vaultAt, hv, StorageMap.get_insert]
      by_cases hk : r' = r
      · subst hk
        simp
      · rw [if_neg hk, Function.update_of_ne (by simpa using hk)]
        rfl
  | some who' =>
      rw [Function.update_of_ne (by simp), vaultAt, vaultAt, hp]

/-- Setting refund addresses leaves the vaults and their keys alone. -/
lemma RefundMove.frame (h : RefundMove r s s') : s'.vaultAt = s.vaultAt ∧
    s'.bondedPubKey = s.bondedPubKey ∧ s'.bondedVault = s.bondedVault ∧
    s'.systemVault = s.systemVault ∧ s'.currentRound = s.currentRound ∧
    s'.serviceState = s.serviceState ∧ s'.preSubmittedPubKeys = s.preSubmittedPubKeys ∧
    s'.relayExecutives = s.relayExecutives := by
  induction h with
  | refl => exact ⟨rfl, rfl, rfl, rfl, rfl, rfl, rfl, rfl⟩
  | set h hfree htarget ih =>
      rename_i t who target new
      obtain ⟨hvault, hrest⟩ := ih
      refine ⟨?_, hrest⟩
      have hpool : (t.setRefund r who target new).registrationPool =
          t.registrationPool.insert (r, who) { target with refundAddress := new } := rfl
      have hsystem : (t.setRefund r who target new).systemVault = t.systemVault := rfl
      rw [← hvault, Registration.vaultAt_user hsystem hpool, Function.update_eq_self_iff]
      simp [Registration.vaultAt, htarget]
  | forget p h ih => exact ih

/-- The records of the users after an authority is replaced. -/
lemma Registration.replaceAuthority_pool (s : Registration AccountId) (old new : AccountId)
    (k : ℕ × AccountId) : (s.replaceAuthority old new).registrationPool.get k =
      (s.registrationPool.get k).map fun target =>
        if k.1 = s.currentRound ∧ target.vault.isPending then
          { target with vault := target.vault.replaceAuthority old new }
        else target :=
  StorageMap.get_foldl_iterPrefix s.registrationPool s.currentRound (fun t => t.vault.isPending)
    (fun t => { t with vault := t.vault.replaceAuthority old new }) k

lemma Registration.replaceAuthority_system (s : Registration AccountId) (old new : AccountId)
    (r : ℕ) : (s.replaceAuthority old new).systemVault.get r =
      (s.systemVault.get r).map fun vault =>
        if r = s.currentRound ∧ vault.isPending then vault.replaceAuthority old new else vault := by
  simp only [replaceAuthority]
  cases hv : s.systemVault.get s.currentRound with
  | none =>
      by_cases hr : r = s.currentRound
      · simp [hr, hv]
      · simp [hr]
  | some vault =>
      dsimp only
      split_ifs with hp <;> by_cases hr : r = s.currentRound
      · simp [hr, hv, hp]
      · simp [hr]
      · simp [hr, hv, hp]
      · simp [hr]

/-- The authority is replaced in the pending vaults of the round. -/
lemma Registration.replaceAuthority_vaultAt (s : Registration AccountId) (old new : AccountId)
    (k : ℕ × Option AccountId) : (s.replaceAuthority old new).vaultAt k =
      (s.vaultAt k).map fun vault =>
        if k.1 = s.currentRound ∧ vault.isPending then vault.replaceAuthority old new else vault := by
  obtain ⟨r, id⟩ := k
  cases id with
  | none => exact s.replaceAuthority_system old new r
  | some who =>
      rw [vaultAt, replaceAuthority_pool, vaultAt, Option.map_map, Option.map_map]
      refine congrFun (congrArg Option.map (funext fun target => ?_)) _
      simp only [Function.comp_apply]
      split_ifs <;> rfl

end VaultAt

/-! ## One vault -/

/-- **What a step can do to one vault**: one constructor for each change, with what it was and what it is. -/
inductive VaultChange (host : Host AccountId) (s : Registration AccountId) (i : Step AccountId)
    (k : ℕ × Option AccountId) :
    Option (MultiSigAccount AccountId) → Option (MultiSigAccount AccountId) → Prop
  | same (v : Option (MultiSigAccount AccountId)) : VaultChange host s i k v v
  | gone (v : Option (MultiSigAccount AccountId)) : VaultChange host s i k v none
  | requested (m n : ℕ) : VaultChange host s i k none (some (.new m n))
  | opened (o : Outlook AccountId) (who : AccountId) (raw address : Bytes)
      (keys : StorageMap (ℕ × AccountId) (Finset Bytes)) (vault vault' : MultiSigAccount AccountId)
      (hi : i = .requestVault o (.signed who) raw) (hk : k = (s.currentRound, some who))
      (htake : s.takePreSubmitted s.currentRound (.new (s.getM o) (Registration.getN o)) o.executives =
        .ok (vault, { s with preSubmittedPubKeys := keys }))
      (hvault : vault' = vault ∨ vault' = { vault with pubKeys := ∅ } ∨
        ∃ t a d, Bonds host o { s with preSubmittedPubKeys := keys } vault address who s.currentRound
          vault' t a d) : VaultChange host s i k none (some vault')
  | keyed (o : Outlook AccountId) (authorityId : AccountId) (pubKey refundAddress : Bytes)
      (vault vault' : MultiSigAccount AccountId) (t : Registration AccountId)
      (hexec : authorityId ∈ o.executives)
      (hi : ∃ sub : VaultKeySubmission AccountId, sub.authorityId = authorityId ∧
        (i = .submitVaultKey o sub ∨ i = .submitSystemVaultKey o sub))
      (hkey : KeyAdded host o s vault authorityId pubKey refundAddress (ownerOf host k.2) k.1 vault' t) :
      VaultChange host s i k (some vault) (some vault')
  | renamed (old new : AccountId) (vault : MultiSigAccount AccountId)
      (hi : i = .replaceAuthority old new) (hk : k.1 = s.currentRound)
      (hpending : vault.isPending = true) :
      VaultChange host s i k (some vault) (some (vault.replaceAuthority old new))

section Change

variable {host : Host AccountId} {s s' : Registration AccountId} {i : Step AccountId}

/-- One vault is written, and all others stay. -/
lemma VaultChange.of_update {k₀ : ℕ × Option AccountId} {v : Option (MultiSigAccount AccountId)}
    (hv : s'.vaultAt = Function.update s.vaultAt k₀ v)
    (h : VaultChange host s i k₀ (s.vaultAt k₀) v) (k : ℕ × Option AccountId) :
    VaultChange host s i k (s.vaultAt k) (s'.vaultAt k) := by
  rw [hv]
  by_cases hk : k = k₀
  · subst hk
    rw [Function.update_self]
    exact h
  · rw [Function.update_of_ne hk]
    exact .same _

lemma VaultChange.of_eq (hv : s'.vaultAt = s.vaultAt) (k : ℕ × Option AccountId) :
    VaultChange host s i k (s.vaultAt k) (s'.vaultAt k) := by
  rw [hv]
  exact .same _

/-- Only the indexes of addresses change when a key is added. -/
lemma KeyAdded.frame {o : Outlook AccountId} {vault vault' : MultiSigAccount AccountId}
    {authorityId who : AccountId} {pubKey refundAddress : Bytes} {round : ℕ}
    {t : Registration AccountId}
    (h : KeyAdded host o s vault authorityId pubKey refundAddress who round vault' t) :
    t = { s with bondedVault := t.bondedVault, bondedDescriptor := t.bondedDescriptor } := by
  rcases h.outcome with ⟨-, -, rfl⟩ | ⟨a, d, hbonds⟩
  · rfl
  · rw [hbonds.state_eq]

/-- **What a step does to every vault.**  Each move changes each vault in one of these ways. -/
lemma PoolMove.vaultChange (hm : PoolMove host s i s') (k : ℕ × Option AccountId) :
    VaultChange host s i k (s.vaultAt k) (s'.vaultAt k) := by
  cases hm with
  | tuned h => exact .of_eq (by rw [h]; rfl) k
  | members new hi h => exact .of_eq (by rw [h]; rfl) k
  | refunds h => exact .of_eq h.frame.1 k
  | opened o who raw address keys vault vault' hi hnormal hfree hnone htake hvault h =>
      have hsystem : s'.systemVault = s.systemVault := by
        rw [h]
        rfl
      have hpool : s'.registrationPool = s.registrationPool.insert (s.currentRound, who)
          ⟨address, vault'⟩ := by
        rw [h]
        rfl
      have hold : s.vaultAt (s.currentRound, some who) = none := by
        simp [Registration.vaultAt, hnone]
      refine .of_update (Registration.vaultAt_user hsystem hpool) ?_ k
      rw [hold]
      refine .opened o who raw address keys vault vault' hi rfl htake ?_
      rcases hvault with ⟨-, hvault⟩ | ⟨-, hvault⟩
      · exact .inl hvault
      · exact .inr (.inl hvault)
  | bonded o who raw address keys vault vault' a d t hi hnormal hfree hnone htake hbonds h =>
      have hsystem : s'.systemVault = s.systemVault := by
        rw [h, hbonds.state_eq]
        rfl
      have hpool : s'.registrationPool = s.registrationPool.insert (s.currentRound, who)
          ⟨address, vault'⟩ := by
        rw [h, hbonds.state_eq]
        rfl
      have hold : s.vaultAt (s.currentRound, some who) = none := by
        simp [Registration.vaultAt, hnone]
      refine .of_update (Registration.vaultAt_user hsystem hpool) ?_ k
      rw [hold]
      exact .opened o who raw address keys vault vault' hi rfl htake (.inr (.inr ⟨t, a, d, hbonds⟩))
  | keyed o sub target vault' t hi hexec hnormal htarget hkey h =>
      have hsystem : s'.systemVault = s.systemVault := by
        rw [h, hkey.frame]
      have hpool : s'.registrationPool = s.registrationPool.insert (s.currentRound, sub.who)
          { target with vault := vault' } := by rw [h]
      have hold : s.vaultAt (s.currentRound, some sub.who) = some target.vault := by
        simp [Registration.vaultAt, htarget]
      refine .of_update (Registration.vaultAt_user hsystem hpool) ?_ k
      rw [hold]
      exact .keyed o sub.authorityId sub.pubKey _ target.vault vault' t hexec ⟨sub, rfl, .inl hi⟩ hkey
  | systemKeyed o sub r vault vault' t hi hexec hr hvault hkey h =>
      have hpool : s'.registrationPool = s.registrationPool := by
        rw [h, hkey.frame]
      have hsystem : s'.systemVault = s.systemVault.insert r vault' := by rw [h]
      have hold : s.vaultAt (r, none) = some vault := hvault
      refine .of_update (Registration.vaultAt_system hsystem hpool) ?_ k
      rw [hold]
      exact .keyed o sub.authorityId sub.pubKey _ vault vault' t hexec ⟨sub, rfl, .inr hi⟩ hkey
  | requested o prepare hi hstate hnone h =>
      have hsystem : s'.systemVault = s.systemVault.insert
          (if prepare then s.currentRound + 1 else s.currentRound)
          (.new (s.getM o) (Registration.getN o)) := by rw [h]
      refine .of_update (Registration.vaultAt_system hsystem (by rw [h])) ?_ k
      rw [Registration.vaultAt, hnone]
      exact .requested _ _
  | presubmitted o sub hi hexec hnormal h => exact .of_eq (by rw [h]; rfl) k
  | cleared raw a who target hi ha hnormal hbond hwho htarget h =>
      obtain ⟨r, id⟩ := k
      subst h
      cases id with
      | none => exact .same _
      | some who' =>
          simp only [Registration.vaultAt, StorageMap.get_remove]
          split_ifs
          · exact .gone _
          · exact .same _
  | systemCleared raw a vault hi hnormal hbond hvault h =>
      obtain ⟨r, id⟩ := k
      subst h
      cases id with
      | none =>
          simp only [Registration.vaultAt, StorageMap.get_remove]
          split_ifs
          · exact .gone _
          · exact .same _
      | some who' => exact .same _
  | started o hi hstate hready h => exact .of_eq (by rw [h]; rfl) k
  | prepared o hi hstate hnone h =>
      have hsystem : s'.systemVault = s.systemVault.insert (s.currentRound + 1)
          (.new (s.getM o) (Registration.getN o)) := by rw [h]
      refine .of_update (Registration.vaultAt_system hsystem (by rw [h])) ?_ k
      rw [Registration.vaultAt, hnone]
      exact .requested _ _
  | ended o hi hstate h => exact .of_eq (by rw [h]; rfl) k
  | dropped round hi hlt hnormal h =>
      obtain ⟨r, id⟩ := k
      subst h
      cases id with
      | none =>
          simp only [Registration.vaultAt, StorageMap.get_remove]
          split_ifs
          · exact .gone _
          · exact .same _
      | some who' =>
          simp only [Registration.vaultAt, StorageMap.get_filterKeys]
          split_ifs
          · exact .same _
          · exact .gone _
  | renamed old new hi h =>
      rw [h, Registration.replaceAuthority_vaultAt]
      cases hvault : s.vaultAt k with
      | none => exact .same _
      | some vault =>
          rw [Option.map_some]
          split_ifs with hc
          · exact .renamed old new vault hi hc.1 hc.2
          · exact .same _

end Change

end BifrostNode.Btc.Pool
