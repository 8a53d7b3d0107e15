import BifrostNode.Btc.Bitcoin
import BifrostNode.Staking.State
import BifrostNode.Lib.Transition

/-!
# The registration pool

`btc-registration-pool` gives every user a vault, a multi-signature address whose keys the relay
executives submit, and keeps the address that refunds go to.  The system vault takes what is left over.

**Migration.**  When the executives change, everything moves to the vaults of the next round.  The
migration goes through the states of `MigrationSequence`, and most calls are blocked meanwhile.

**Around the pallet.**  A call comes with what it sees of the executives and of the socket queue.  The
submissions that get here carry a valid signature of the authority they name.
-/

namespace BifrostNode.Btc

open Cccp Staking Transition

variable {AccountId : Type}

/-- What the runtime is built with. -/
structure Host (AccountId : Type) where
  codec : Codec
  lib : Library
  chainId : ℕ
  bitcoinChainId : ℕ
  accountOf : H160 → AccountId
  h160Of : AccountId → H160
  twox64 : H256 → ℕ
  feeRateExpiration : ℕ
  toleranceThreshold : ℕ
  defaultMaxFeeRate : ℕ
  defaultMaxSocketMessageBytes : ℕ
  defaultMultiSigRatio : ℕ

namespace Pool

/-! ## Records -/

inductive Error
  | addressAlreadyRegistered
  | vaultAlreadyGenerated
  | vaultAlreadyContainsPubKey
  | authorityAlreadySubmittedPubKey
  | invalidBitcoinAddress
  | invalidPublicKey
  | descriptorGeneration
  | noWritingSameValue
  | userDNE
  | vaultDNE
  | refundSetDNE
  | outOfRange
  | underMaintenance
  | socketQueueNotReady
  | doNotInterceptMigration
  | preSubmissionDNE
  | poolRoundOutdated
  | refundSetAlreadyRequested
  | badOrigin
  | badSigner
  | stale
  deriving DecidableEq

inductive MigrationSequence
  | normal
  | setExecutiveMembers
  | prepareNextSystemVault
  | utxoTransfer
  deriving DecidableEq

inductive AddressState
  | pending
  | generated (address : Bytes)
  deriving DecidableEq

structure MultiSigAccount (AccountId : Type) where
  address : AddressState
  descriptor : Bytes
  pubKeys : StorageMap AccountId Bytes
  m : ℕ
  n : ℕ

namespace MultiSigAccount

def new (m n : ℕ) : MultiSigAccount AccountId := ⟨.pending, [], ∅, m, n⟩

def isPending (self : MultiSigAccount AccountId) : Bool := self.address = .pending

/-- The address, once it is generated. -/
def generated (self : MultiSigAccount AccountId) : Option Bytes :=
  match self.address with
  | .pending => none
  | .generated address => some address

def isKeyGenerationReady (self : MultiSigAccount AccountId) : Bool := self.n = self.pubKeys.keys.card

def isKeySubmitted [LinearOrder AccountId] (self : MultiSigAccount AccountId) (pubKey : Bytes) : Bool :=
  self.pubKeys.toList.any fun e => e.2 = pubKey

def isAuthoritySubmitted (self : MultiSigAccount AccountId) (authorityId : AccountId) : Bool :=
  self.pubKeys.contains authorityId

/-- `pub_keys()`: the keys in the order of the authorities. -/
def rawPubKeys [LinearOrder AccountId] (self : MultiSigAccount AccountId) : List Bytes :=
  self.pubKeys.toList.map Prod.snd

/-- `replace_authority`. -/
def replaceAuthority [DecidableEq AccountId] (self : MultiSigAccount AccountId)
    (old new : AccountId) : MultiSigAccount AccountId :=
  match self.pubKeys.get old with
  | none => self
  | some key => { self with pubKeys := (self.pubKeys.remove old).insert new key }

end MultiSigAccount

structure BitcoinRelayTarget (AccountId : Type) where
  refundAddress : Bytes
  vault : MultiSigAccount AccountId

structure SetRefundState where
  old : Bytes
  new : Bytes

structure VaultKeySubmission (AccountId : Type) where
  authorityId : AccountId
  who : AccountId
  pubKey : Bytes
  poolRound : ℕ

structure VaultKeyPreSubmission (AccountId : Type) where
  authorityId : AccountId
  pubKeys : List Bytes
  poolRound : ℕ

structure SetRefundsApproval (AccountId : Type) where
  authorityId : AccountId
  refundSets : List (AccountId × Bytes)
  poolRound : ℕ
  deadline : ℕ

/-- The storage of the pallet. -/
structure Registration (AccountId : Type) where
  currentRound : ℕ
  relayExecutives : StorageMap ℕ (List AccountId)
  serviceState : MigrationSequence
  systemVault : StorageMap ℕ (MultiSigAccount AccountId)
  registrationPool : StorageMap (ℕ × AccountId) (BitcoinRelayTarget AccountId)
  bondedVault : StorageMap (ℕ × Bytes) AccountId
  bondedRefund : StorageMap (ℕ × Bytes) (List AccountId)
  bondedPubKey : StorageMap (ℕ × Bytes) AccountId
  bondedDescriptor : StorageMap (ℕ × Bytes) Bytes
  multiSigRatio : ℕ
  preSubmittedPubKeys : StorageMap (ℕ × AccountId) (Finset Bytes)
  maxPreSubmission : ℕ
  ongoingVaultMigration : StorageMap H256 Bool
  pendingSetRefunds : StorageMap (ℕ × AccountId) SetRefundState

/-- What a call sees of the executives, the socket queue and the chain. -/
structure Outlook (AccountId : Type) where
  executives : List AccountId
  isReadyForMigrate : Bool
  isLegacyAuthority : AccountId → Bool
  now : ℕ

namespace Registration

/-- `GenesisConfig::build`, after `initialize_members`. -/
def genesis (host : Host AccountId) (members : List AccountId) : Registration AccountId where
  currentRound := 1
  relayExecutives := (∅ : StorageMap ℕ (List AccountId)).insert 1 members
  serviceState := .normal
  systemVault := ∅
  registrationPool := ∅
  bondedVault := ∅
  bondedRefund := ∅
  bondedPubKey := ∅
  bondedDescriptor := ∅
  multiSigRatio := host.defaultMultiSigRatio
  preSubmittedPubKeys := ∅
  maxPreSubmission := 100
  ongoingVaultMigration := ∅
  pendingSetRefunds := ∅

variable [LinearOrder AccountId]

/-! ## `PoolManager` -/

/-- `get_refund_address`. -/
def getRefundAddress (s : Registration AccountId) (who : AccountId) : Option Bytes :=
  (s.registrationPool.get (s.currentRound, who)).map BitcoinRelayTarget.refundAddress

/-- `get_vault_address`. -/
def getVaultAddress (s : Registration AccountId) (who : AccountId) : Option Bytes :=
  (s.registrationPool.get (s.currentRound, who)).bind fun target => target.vault.generated

/-- `get_bonded_descriptor`. -/
def getBondedDescriptor (host : Host AccountId) (s : Registration AccountId) (who : Bytes) :
    Option Descriptor :=
  let round := if s.serviceState = .utxoTransfer then s.currentRound + 1 else s.currentRound
  (s.bondedDescriptor.get (round, who)).bind host.lib.descriptorFromStr

/-- `get_system_vault`. -/
def getSystemVault (s : Registration AccountId) (round : ℕ) : Option Bytes :=
  (s.systemVault.get round).bind MultiSigAccount.generated

/-- `get_relay_executives`. -/
def getRelayExecutives (s : Registration AccountId) (round : ℕ) : List AccountId :=
  s.relayExecutives.getD round []

/-- `add_migration_tx`. -/
def addMigrationTx (s : Registration AccountId) (txid : H256) : Registration AccountId :=
  if s.ongoingVaultMigration.contains txid then s
  else { s with ongoingVaultMigration := s.ongoingVaultMigration.insert txid false }

/-- `remove_migration_tx`. -/
def removeMigrationTx (s : Registration AccountId) (txid : H256) : Registration AccountId :=
  { s with ongoingVaultMigration := s.ongoingVaultMigration.remove txid }

/-- `execute_migration_tx`. -/
def executeMigrationTx (s : Registration AccountId) (txid : H256) : Registration AccountId :=
  if s.ongoingVaultMigration.contains txid then
    { s with ongoingVaultMigration := s.ongoingVaultMigration.insert txid true }
  else s

/-- `replace_authority`. -/
def replaceAuthority (s : Registration AccountId) (old new : AccountId) : Registration AccountId :=
  let round := s.currentRound
  let keys := s.preSubmittedPubKeys.getD (round, old) ∅
  let preSubmitted := s.preSubmittedPubKeys.remove (round, old)
  { s with
    preSubmittedPubKeys := if keys = ∅ then preSubmitted else preSubmitted.insert (round, new) keys
    systemVault := match s.systemVault.get round with
      | some vault =>
          if vault.isPending then s.systemVault.insert round (vault.replaceAuthority old new)
          else s.systemVault
      | none => s.systemVault
    registrationPool := (s.registrationPool.iterPrefix round).foldl (fun pool (address, target) =>
      if target.vault.isPending then
        pool.insert (round, address) { target with vault := target.vault.replaceAuthority old new }
      else pool) s.registrationPool }

/-- The refund address of a user changes, and so do the bonds of the two addresses. -/
def setRefund (s : Registration AccountId) (round : ℕ) (who : AccountId)
    (target : BitcoinRelayTarget AccountId) (new : Bytes) : Registration AccountId :=
  let old := target.refundAddress
  let bonded := s.bondedRefund.insert (round, old)
    ((s.bondedRefund.getD (round, old) []).filter fun u => u ≠ who)
  { s with
    bondedRefund := bonded.insert (round, new) (bonded.getD (round, new) [] ++ [who])
    registrationPool :=
      s.registrationPool.insert (round, who) { target with refundAddress := new } }

/-- `process_set_refunds`. -/
def processSetRefunds (s : Registration AccountId) : Registration AccountId :=
  let round := s.currentRound
  let s := (s.pendingSetRefunds.iterPrefix round).foldl (fun s (who, state) =>
    if s.bondedVault.contains (round, state.new) then s
    else match s.registrationPool.get (round, who) with
      | some target => s.setRefund round who target state.new
      | none => s) s
  { s with pendingSetRefunds := s.pendingSetRefunds.filterKeys fun k => k.1 ≠ round }

/-! ## `ChangeMembers` -/

/-- `change_members_sorted`. -/
def changeMembersSorted (s : Registration AccountId) (new : List AccountId) :
    Registration AccountId :=
  let round := if s.serviceState = .normal then s.currentRound else s.currentRound + 1
  { s with relayExecutives := s.relayExecutives.insert round new }

/-! ## Vaults -/

/-- `get_n`. -/
def getN (o : Outlook AccountId) : ℕ := o.executives.length

/-- `get_m`: `mul_ceil` of the ratio, in percent. -/
def getM (s : Registration AccountId) (o : Outlook AccountId) : ℕ :=
  (s.multiSigRatio * getN o + 99) / 100

/-- `generate_descriptor`. -/
def generateDescriptor (host : Host AccountId) (m : ℕ) (rawPubKeys : List Bytes) :
    Option Descriptor :=
  if rawPubKeys.all host.lib.isPublicKey then
    (host.lib.newWshSortedmulti m (rawPubKeys.insertionSort (· ≤ ·))).filter host.lib.sanityCheck
  else none

/-- `generate_vault_address`: the address and the descriptor. -/
def generateVaultAddress (host : Host AccountId) (o : Outlook AccountId) (s : Registration AccountId)
    (rawPubKeys : List Bytes) : Except Error (Bytes × Bytes) := do
  let desc ← okOr (generateDescriptor host (s.getM o) rawPubKeys) .descriptorGeneration
  let address ← okOr (host.lib.descriptorAddress desc) .descriptorGeneration
  let address ← okOr (boundedAddress address) .invalidBitcoinAddress
  return (address, desc.text)

/-- `try_bond_vault_address`. -/
def tryBondVaultAddress (host : Host AccountId) (o : Outlook AccountId) (s : Registration AccountId)
    (vault : MultiSigAccount AccountId) (refundAddress : Bytes) (who : AccountId) (round : ℕ) :
    Except Error (MultiSigAccount AccountId × Registration AccountId) := do
  let (vaultAddress, descriptor) ← s.generateVaultAddress host o vault.rawPubKeys
  ensure (vaultAddress ≠ refundAddress) .addressAlreadyRegistered
  ensure (!s.bondedRefund.contains (round, vaultAddress)) .addressAlreadyRegistered
  return ({ vault with address := .generated vaultAddress, descriptor },
    { s with
      bondedVault := s.bondedVault.insert (round, vaultAddress) who
      bondedDescriptor := s.bondedDescriptor.insert (round, vaultAddress) descriptor })

/-- `get_checked_bitcoin_address`. -/
def getCheckedBitcoinAddress (host : Host AccountId) (address : Bytes) : Except Error Bytes := do
  let checked ← okOr (host.lib.addressFromStr address) .invalidBitcoinAddress
  ensure (host.lib.requireNetwork checked) .invalidBitcoinAddress
  okOr (boundedAddress checked) .invalidBitcoinAddress

/-- The account that stands for the system vault. -/
def precompile (host : Host AccountId) : AccountId := host.accountOf 256

/-! ## Calls -/

/-- `ensure_signed`. -/
def signer : Origin AccountId → Except Error AccountId
  | .signed who => .ok who
  | _ => .error .badOrigin

/-- `request_set_refund`. -/
def requestSetRefund (host : Host AccountId) (s : Registration AccountId) (origin : Origin AccountId)
    (new : Bytes) : Except Error (Registration AccountId) := do
  ensure (s.serviceState = .normal) .underMaintenance
  let who ← signer origin
  let new ← getCheckedBitcoinAddress host new
  let target ← okOr (s.registrationPool.get (s.currentRound, who)) .userDNE
  ensure (target.refundAddress ≠ new) .noWritingSameValue
  ensure (!s.bondedVault.contains (s.currentRound, new)) .addressAlreadyRegistered
  ensure (!s.pendingSetRefunds.contains (s.currentRound, who)) .refundSetAlreadyRequested
  return { s with
    pendingSetRefunds :=
      s.pendingSetRefunds.insert (s.currentRound, who) ⟨target.refundAddress, new⟩ }

/-- The keys that the executives submitted in advance: one of each, unless it is in use. -/
def takePreSubmitted (s : Registration AccountId) (round : ℕ) (vault : MultiSigAccount AccountId)
    (executives : List AccountId) :
    Except Error (MultiSigAccount AccountId × Registration AccountId) :=
  executives.foldlM (fun (vault, s) executive => do
    let keys := s.preSubmittedPubKeys.getD (round, executive) ∅
    match (StorageMap.ascending keys).head? with
    | none =>
        return (vault, { s with
          preSubmittedPubKeys := s.preSubmittedPubKeys.insert (round, executive) ∅ })
    | some pubKey =>
        let s := { s with
          preSubmittedPubKeys :=
            s.preSubmittedPubKeys.insert (round, executive) (keys.erase pubKey) }
        if s.bondedPubKey.contains (round, pubKey) then return (vault, s)
        else
          let pubKeys ← okOr (vault.pubKeys.tryInsert multiSigMaxAccounts executive pubKey) .outOfRange
          return ({ vault with pubKeys }, s)) (vault, s)

/-- `request_vault`. -/
def requestVault (host : Host AccountId) (o : Outlook AccountId) (s : Registration AccountId)
    (origin : Origin AccountId) (refundAddress : Bytes) : Except Error (Registration AccountId) := do
  ensure (s.serviceState = .normal) .underMaintenance
  let who ← signer origin
  let refundAddress ← getCheckedBitcoinAddress host refundAddress
  let round := s.currentRound
  ensure (!s.bondedVault.contains (round, refundAddress)) .addressAlreadyRegistered
  ensure (!s.registrationPool.contains (round, who)) .addressAlreadyRegistered
  let (vault, s) ← s.takePreSubmitted round (.new (s.getM o) (getN o)) o.executives
  let (vault, s) :=
    if vault.isKeyGenerationReady then
      match s.tryBondVaultAddress host o vault refundAddress who round with
      | .ok (vault, s) =>
          (vault, { s with
            bondedPubKey :=
              vault.rawPubKeys.foldl (fun m k => m.insert (round, k) who) s.bondedPubKey })
      | .error _ => ({ vault with pubKeys := ∅ }, s)
    else (vault, s)
  return { s with
    bondedRefund := s.bondedRefund.insert (round, refundAddress)
      (s.bondedRefund.getD (round, refundAddress) [] ++ [who])
    registrationPool := s.registrationPool.insert (round, who) ⟨refundAddress, vault⟩ }

/-- `request_system_vault`. -/
def requestSystemVault (o : Outlook AccountId) (s : Registration AccountId)
    (origin : Origin AccountId) (migrationPrepare : Bool) : Except Error (Registration AccountId) := do
  ensure (origin matches .root) .badOrigin
  ensure (s.serviceState = .normal ∨ s.serviceState = .prepareNextSystemVault) .underMaintenance
  let targetRound := if migrationPrepare then s.currentRound + 1 else s.currentRound
  ensure (!s.systemVault.contains targetRound) .vaultAlreadyGenerated
  return { s with
    systemVault := s.systemVault.insert targetRound (.new (s.getM o) (getN o)) }

/-- A key is added to a pending vault, which is bonded when all keys are there. -/
def addKey (host : Host AccountId) (o : Outlook AccountId) (s : Registration AccountId)
    (vault : MultiSigAccount AccountId) (authorityId : AccountId) (pubKey refundAddress : Bytes)
    (who : AccountId) (round : ℕ) : Except Error (MultiSigAccount AccountId × Registration AccountId) := do
  ensure vault.isPending .vaultAlreadyGenerated
  ensure (!vault.isAuthoritySubmitted authorityId) .authorityAlreadySubmittedPubKey
  ensure (!vault.isKeySubmitted pubKey) .vaultAlreadyContainsPubKey
  ensure (host.lib.isPublicKey pubKey) .invalidPublicKey
  ensure (!s.bondedPubKey.contains (round, pubKey)) .vaultAlreadyContainsPubKey
  let pubKeys ← okOr (vault.pubKeys.tryInsert multiSigMaxAccounts authorityId pubKey) .outOfRange
  let vault := { vault with pubKeys }
  if vault.isKeyGenerationReady then
    s.tryBondVaultAddress host o vault refundAddress who round
  else return (vault, s)

/-- `verify_key_submission` and `verify_key_presubmission`. -/
def verifyExecutive (o : Outlook AccountId) (authorityId : AccountId) : Except Error Unit :=
  ensure (authorityId ∈ o.executives) .badSigner

/-- `submit_vault_key`. -/
def submitVaultKey (host : Host AccountId) (o : Outlook AccountId) (s : Registration AccountId)
    (sub : VaultKeySubmission AccountId) : Except Error (Registration AccountId) := do
  verifyExecutive o sub.authorityId
  ensure (s.serviceState = .normal) .underMaintenance
  let round := s.currentRound
  ensure (round = sub.poolRound) .poolRoundOutdated
  let target ← okOr (s.registrationPool.get (round, sub.who)) .userDNE
  let (vault, s) ← s.addKey host o target.vault sub.authorityId sub.pubKey target.refundAddress
    sub.who round
  return { s with
    bondedPubKey := s.bondedPubKey.insert (round, sub.pubKey) sub.who
    registrationPool := s.registrationPool.insert (round, sub.who) { target with vault } }

/-- The round whose system vault takes keys. -/
def systemVaultRound (s : Registration AccountId) : Option ℕ :=
  match s.serviceState with
  | .normal => some s.currentRound
  | .prepareNextSystemVault => some (s.currentRound + 1)
  | .setExecutiveMembers | .utxoTransfer => none

/-- `submit_system_vault_key`. -/
def submitSystemVaultKey (host : Host AccountId) (o : Outlook AccountId) (s : Registration AccountId)
    (sub : VaultKeySubmission AccountId) : Except Error (Registration AccountId) := do
  verifyExecutive o sub.authorityId
  let round ← okOr s.systemVaultRound .underMaintenance
  ensure (round = sub.poolRound) .poolRoundOutdated
  ensure (precompile host = sub.who) .vaultDNE
  let systemVault ← okOr (s.systemVault.get round) .vaultDNE
  let (vault, s) ← s.addKey host o systemVault sub.authorityId sub.pubKey [] (precompile host) round
  return { s with
    serviceState :=
      if vault.isKeyGenerationReady ∧ s.serviceState = .prepareNextSystemVault then .utxoTransfer
      else s.serviceState
    bondedPubKey := s.bondedPubKey.insert (round, sub.pubKey) (precompile host)
    systemVault := s.systemVault.insert round vault }

/-- `vault_key_presubmission`. -/
def vaultKeyPresubmission (host : Host AccountId) (o : Outlook AccountId) (s : Registration AccountId)
    (sub : VaultKeyPreSubmission AccountId) : Except Error (Registration AccountId) := do
  verifyExecutive o sub.authorityId
  ensure (s.serviceState = .normal) .underMaintenance
  let round := s.currentRound
  ensure (round = sub.poolRound) .poolRoundOutdated
  ensure (sub.pubKeys.all host.lib.isPublicKey) .invalidPublicKey
  let presubmitted := s.preSubmittedPubKeys.getD (round, sub.authorityId) ∅
  ensure (presubmitted.card + sub.pubKeys.length ≤ s.maxPreSubmission) .outOfRange
  ensure (∀ k ∈ sub.pubKeys, k ∉ presubmitted) .authorityAlreadySubmittedPubKey
  return { s with
    preSubmittedPubKeys := s.preSubmittedPubKeys.insert (round, sub.authorityId)
      (presubmitted ∪ sub.pubKeys.toFinset) }

/-- `clear_vault`. -/
def clearVault (host : Host AccountId) (s : Registration AccountId) (origin : Origin AccountId)
    (vaultAddress : Bytes) : Except Error (Registration AccountId) := do
  ensure (origin matches .root) .badOrigin
  ensure (s.serviceState = .normal) .underMaintenance
  let round := s.currentRound
  let vaultAddress ← getCheckedBitcoinAddress host vaultAddress
  let who ← okOr (s.bondedVault.get (round, vaultAddress)) .vaultDNE
  let s ← if who = precompile host then do
      let vault ← okOr (s.systemVault.get round) .vaultDNE
      pure { s with
        bondedPubKey := (vault.rawPubKeys.map (round, ·)).foldl StorageMap.remove s.bondedPubKey
        systemVault := s.systemVault.remove round }
    else do
      let target ← okOr (s.registrationPool.get (round, who)) .userDNE
      pure { s with
        bondedPubKey :=
          (target.vault.rawPubKeys.map (round, ·)).foldl StorageMap.remove s.bondedPubKey
        registrationPool := s.registrationPool.remove (round, who)
        bondedRefund := s.bondedRefund.remove (round, target.refundAddress) }
  return { s with
    bondedVault := s.bondedVault.remove (round, vaultAddress)
    bondedDescriptor := s.bondedDescriptor.remove (round, vaultAddress) }

/-- `migration_control`. -/
def migrationControl (o : Outlook AccountId) (s : Registration AccountId)
    (origin : Origin AccountId) : Except Error (Registration AccountId) := do
  ensure (origin matches .root) .badOrigin
  match s.serviceState with
  | .normal =>
      ensure o.isReadyForMigrate .socketQueueNotReady
      return { s with serviceState := .setExecutiveMembers }
  | .setExecutiveMembers =>
      requestSystemVault o { s with serviceState := .prepareNextSystemVault } origin true
  | .prepareNextSystemVault => .error .doNotInterceptMigration
  | .utxoTransfer =>
      let state := s.ongoingVaultMigration.toList
      ensure (state ≠ [] ∧ ∀ e ∈ state, e.2 = true) .doNotInterceptMigration
      return { s with
        currentRound := s.currentRound + 1
        serviceState := .normal
        ongoingVaultMigration := ∅ }

/-- `drop_previous_round`. -/
def dropPreviousRound (s : Registration AccountId) (origin : Origin AccountId) (round : ℕ) :
    Except Error (Registration AccountId) := do
  ensure (origin matches .root) .badOrigin
  ensure (s.serviceState = .normal) .underMaintenance
  ensure (round < s.currentRound) .outOfRange
  return { s with
    systemVault := s.systemVault.remove round
    registrationPool := s.registrationPool.filterKeys fun k => k.1 ≠ round
    bondedVault := s.bondedVault.filterKeys fun k => k.1 ≠ round
    bondedRefund := s.bondedRefund.filterKeys fun k => k.1 ≠ round
    bondedPubKey := s.bondedPubKey.filterKeys fun k => k.1 ≠ round
    bondedDescriptor := s.bondedDescriptor.filterKeys fun k => k.1 ≠ round
    preSubmittedPubKeys := s.preSubmittedPubKeys.filterKeys fun k => k.1 ≠ round }

/-- `set_max_presubmission`. -/
def setMaxPresubmission (s : Registration AccountId) (origin : Origin AccountId) (max : ℕ) :
    Except Error (Registration AccountId) := do
  ensure (origin matches .root) .badOrigin
  ensure (0 < max) .outOfRange
  return { s with maxPreSubmission := max }

/-- `set_multi_sig_ratio`. -/
def setMultiSigRatio (s : Registration AccountId) (origin : Origin AccountId) (new : ℕ) :
    Except Error (Registration AccountId) := do
  ensure (origin matches .root) .badOrigin
  ensure (50 ≤ new) .outOfRange
  ensure (new ≠ s.multiSigRatio) .noWritingSameValue
  return { s with multiSigRatio := new }

/-- One refund address of `approve_set_refunds`. -/
def approveSetRefund (round : ℕ) (s : Registration AccountId) (refundSet : AccountId × Bytes) :
    Except Error (Registration AccountId) := do
  let (who, new) := refundSet
  let pending ← okOr (s.pendingSetRefunds.get (round, who)) .refundSetDNE
  ensure (pending.new = new) .refundSetDNE
  let s ← if s.bondedVault.contains (round, pending.new) then pure s
    else do
      let target ← okOr (s.registrationPool.get (round, who)) .userDNE
      pure (s.setRefund round who target pending.new)
  return { s with pendingSetRefunds := s.pendingSetRefunds.remove (round, who) }

/-- `approve_set_refunds`. -/
def approveSetRefunds (o : Outlook AccountId) (s : Registration AccountId)
    (approval : SetRefundsApproval AccountId) : Except Error (Registration AccountId) := do
  ensure (o.isLegacyAuthority approval.authorityId) .badSigner
  ensure (o.now ≤ approval.deadline) .stale
  ensure (s.serviceState = .normal) .underMaintenance
  ensure (s.currentRound = approval.poolRound) .poolRoundOutdated
  approval.refundSets.foldlM (approveSetRefund s.currentRound) s

end Registration

end Pool

end BifrostNode.Btc
