import BifrostNode.Btc.SocketQueue
import BifrostNode.Btc.Vaults

/-!
# The Bitcoin bridge

The registration pool, Blaze and the socket queue are one machine: the calls of the socket queue lock
coins and move the migration on, and the pool asks the queue whether it is ready.

**The hook.**  At the start of a block the queue looks at the outbound pool.  It has nothing to do, or
fails to build a transaction, or builds one (`Plan`).

**Steps.**  A step is a call of one of the three pallets, the hook, or what the relay manager and the
executives do to them.  It comes with what is seen of the rest of the chain.
-/

namespace BifrostNode.Btc

open Cccp Staking Transition Pool Queue

variable {AccountId : Type}

/-- The state of the three pallets. -/
structure Bridge (AccountId : Type) where
  pool : Registration AccountId
  blaze : Blaze AccountId
  queue : SocketQueue AccountId

/-- What the hook decides to do. -/
inductive Plan
  | idle
  | fail
  | build (psbt : Psbt) (messages : List Bytes) (selected : List UtxoInfoWithSize)

/-- The call fails as its call of Blaze does. -/
def ofBlaze {α : Type} : Except Blaze.Error α → Except Queue.Error α := Except.mapError .blaze

namespace Bridge

def genesis (host : Host AccountId) (members : List AccountId) (authority : Option AccountId) :
    Bridge AccountId := ⟨.genesis host members, .genesis, .genesis host authority⟩

variable [LinearOrder AccountId]

/-! ## What the pallets see of each other -/

/-- What the pool sees. -/
def outlook (v : View AccountId) (s : Bridge AccountId) : Pool.Outlook AccountId :=
  ⟨v.executives, s.queue.isReadyForMigrate, s.queue.isLegacyAuthority, v.now⟩

/-- `verify_authority` of the queue. -/
def isQueueAuthority (v : View AccountId) (s : Bridge AccountId) (authorityId : AccountId) : Bool :=
  s.queue.isQueueAuthority v s.blaze.isActivated authorityId

/-- `verify_socket_message`, for Blaze. -/
def verifySocketMessage (host : Host AccountId) (v : View AccountId) (s : Bridge AccountId)
    (message : Bytes) : Bool := (s.queue.verifySocketMessage host v message).isOk

/-- No request has the txid. -/
def ensureNew (s : Bridge AccountId) (txid : H256) : Except Queue.Error Unit := do
  ensure (!s.queue.pendingRequests.contains txid) .requestAlreadyExists
  ensure (!s.queue.finalizedRequests.contains txid) .requestAlreadyExists
  ensure (!s.queue.executedRequests.contains txid) .requestAlreadyExists

/-- No rollback request has the txid. -/
def ensureNoRollback (s : Bridge AccountId) (txid : H256) : Except Queue.Error Unit :=
  ensure (!s.queue.rollbackRequests.contains txid) .requestAlreadyExists

/-- `SocketMessages` gets the messages of a transaction. -/
def recordMessages (s : Bridge AccountId) (txid : H256) (messages : List SocketMessage) :
    Bridge AccountId :=
  let socketMessages := messages.foldl (fun m msg => m.insert msg.reqId.sequence (txid, msg))
    s.queue.socketMessages
  { s with queue := { s.queue with socketMessages } }

/-- `PendingRequests` gets a request. -/
def addPending (s : Bridge AccountId) (txid : H256) (request : PsbtRequest AccountId) :
    Bridge AccountId :=
  { s with queue := { s.queue with
    pendingRequests := s.queue.pendingRequests.insert txid request } }

/-! ## The hook -/

/-- The coins that are worth spending, with what it costs to spend them. -/
def scoredUtxos (utxos : List UtxoInfoWithSize) (longTermFeeRate feeRate : ℕ) : List ScoredUtxo :=
  utxos.filterMap fun x =>
    let fee := u64 (x.inputVbytes * feeRate)
    if x.amount < fee then none
    else some ⟨x, fee, u64 (x.inputVbytes * longTermFeeRate), x.amount - fee⟩

/-- What the selected coins have to be worth: the outputs, and the fee of all but the inputs. -/
def outboundTarget (requests : List (SocketMessage × Script)) (outboundAmountSum feeRate : ℕ) : ℕ :=
  let outputVbytes := u64 (∑ script ∈ (requests.map Prod.snd).toFinset, (9 + script.length))
  saturate64 (outboundAmountSum + u64 (feeRate * u64 (11 + outputVbytes)))

/-- The part of `on_initialize` that builds a transaction. -/
def planOutbound (host : Host AccountId) (s : Bridge AccountId) (longTermFeeRate feeRate : ℕ) :
    Option Plan := do
  if s.blaze.outboundPool = [] then return .idle
  let (messages, requests) ← filterUnregisteredOutbounds host s.pool s.blaze.outboundPool
  if messages = [] then return .idle
  let utxos := s.blaze.getUtxos host
  let amounts ← requests.mapM fun e => asU64 e.1.params.amount
  let outboundAmountSum := u64 amounts.sum
  let blazeVaultSum := u64 (utxos.map UtxoInfoWithSize.amount).sum
  if blazeVaultSum ≤ outboundAmountSum then return .fail
  let target := outboundTarget requests outboundAmountSum feeRate
  match selectCoins (scoredUtxos utxos longTermFeeRate feeRate) target (u64 (43 * feeRate)) 200000
      100000 dustLimit with
  | none => return .fail
  | some (selected, strategy) =>
      match ← compositePsbt host s.pool selected requests outboundAmountSum feeRate strategy with
      | none => return .fail
      | some psbt => return .build psbt messages selected

/-- What the hook does with its plan. -/
def execute (host : Host AccountId) (s : Bridge AccountId) : Plan → Option (Bridge AccountId)
  | .idle => some s
  | .fail => some { s with blaze := s.blaze.handleToleranceCounter host true }
  | .build psbt messages selected => do
      let txid := txidOf host psbt
      let parsed ← messages.mapM (SocketMessage.tryFrom host.codec)
      let s := s.addPending txid (.new (host.lib.serialize psbt) messages .normal)
      let s := s.recordMessages txid parsed
      let blaze := s.blaze.clearFeeRates.clearOutboundPool messages
      let blaze ← (blaze.lockUtxos txid selected).toOption
      return { s with blaze := blaze.handleToleranceCounter host false }

/-- The fee rates that the relayers agree on, if the hook is to look at the outbound pool.  Pending
refund addresses come first. -/
def prepare (v : View AccountId) (s : Bridge AccountId) : Bridge AccountId × Option (ℕ × ℕ) :=
  if s.blaze.isActivated ∧ s.pool.serviceState = .normal then
    let (blaze, rates) := s.blaze.tryFeeRateFinalization v.relayers.majority v.now
    ({ s with pool := s.pool.processSetRefunds, blaze }, rates)
  else (s, none)

/-- What `on_initialize` is going to do. -/
def plan (host : Host AccountId) (v : View AccountId) (s : Bridge AccountId) : Option Plan :=
  match s.prepare v with
  | (_, none) => some .idle
  | (s, some (longTermFeeRate, feeRate)) => s.planOutbound host longTermFeeRate feeRate

/-- `on_initialize`. -/
def onInitialize (host : Host AccountId) (v : View AccountId) (s : Bridge AccountId) :
    Option (Bridge AccountId) := do (s.prepare v).1.execute host (← s.plan host v)

/-! ## Requests -/

/-- `submit_unsigned_psbt`. -/
def submitUnsignedPsbt (host : Host AccountId) (v : View AccountId) (s : Bridge AccountId)
    (msg : UnsignedPsbtMessage AccountId) : Except Queue.Error (Bridge AccountId) := do
  ensure (s.isQueueAuthority v msg.authorityId) .badSigner
  ofBlaze (s.blaze.ensureActivation false)
  ensure (s.pool.serviceState = .normal) .underMaintenance
  let psbt ← tryGetCheckedPsbt host msg.psbt
  let txid := txidOf host psbt
  tryPsbtFeeVerification host s.queue.maxFeeRate psbt
  s.ensureNew txid
  s.ensureNoRollback txid
  let verified ← s.queue.tryPsbtOutputVerification host v s.pool psbt msg.outputs
  let s := s.recordMessages txid (verified.map Prod.fst)
  return s.addPending txid (.new msg.psbt (verified.map Prod.snd) .normal)

/-- Whether an authority may sign.  During a migration the signers are those of its start. -/
def isSigner (v : View AccountId) (s : Bridge AccountId) (authorityId : AccountId) : Bool :=
  if s.pool.serviceState = .utxoTransfer then
    authorityId ∈ s.pool.getRelayExecutives s.pool.currentRound
  else authorityId ∈ v.executives

/-- `submit_signed_psbt`. -/
def submitSignedPsbt (host : Host AccountId) (v : View AccountId) (s : Bridge AccountId)
    (msg : SignedPsbtMessage AccountId) : Except Queue.Error (Bridge AccountId) := do
  ensure (s.isSigner v msg.authorityId) .badSigner
  let unsigned ← tryGetCheckedPsbt host msg.unsignedPsbt
  let signed ← tryGetCheckedPsbt host msg.signedPsbt
  let txid := txidOf host unsigned
  let request ← okOr (s.queue.pendingRequests.get txid) .requestDNE
  ensure (!request.isSignedPsbtSubmitted msg.signedPsbt) .signedPsbtAlreadySubmitted
  ensure (!request.isUnsignedPsbt msg.signedPsbt) .invalidPsbt
  let combined ← tryGetCheckedPsbt host request.combinedPsbt
  let combined ← tryPsbtCombination host combined signed
  let signedPsbts ← okOr (request.signedPsbts.tryInsert multiSigMaxAccounts msg.authorityId
    msg.signedPsbt) .outOfRange
  let request := { request with combinedPsbt := host.lib.serialize combined, signedPsbts }
  match host.lib.finalize combined with
  | some finalized =>
      let request := { request with finalizedPsbt := host.lib.serialize finalized }
      return { s with queue := { s.queue with
        finalizedRequests := s.queue.finalizedRequests.insert txid request
        pendingRequests := s.queue.pendingRequests.remove txid
        bondedOutboundTx := if request.requestType = .normal then
          s.queue.bondedOutboundTx.insert txid request.socketMessages else s.queue.bondedOutboundTx } }
  | none => return s.addPending txid request

/-- The confirmations of a broadcast with another one, and whether they are enough. -/
def confirmBroadcast (v : View AccountId) (s : Bridge AccountId)
    (msg : ExecutedPsbtMessage AccountId) :
    Except Queue.Error (StorageMap H256 (StorageMap AccountId Bool) × Bool) := do
  let all := s.queue.broadcastConfirmations
  if s.blaze.isActivated then
    let confirmations := all.getD msg.txid ∅
    ensure (!confirmations.contains msg.authorityId) .broadcastAlreadyConfirmed
    let confirmations ← okOr (confirmations.tryInsert maxAuthorities msg.authorityId true) .outOfRange
    if v.relayers.majority ≤ confirmations.keys.card then return (all.remove msg.txid, true)
    else return (all.insert msg.txid confirmations, false)
  else return (all.remove msg.txid, true)

/-- `submit_executed_request`. -/
def submitExecutedRequest (v : View AccountId) (s : Bridge AccountId)
    (msg : ExecutedPsbtMessage AccountId) : Except Queue.Error (Bridge AccountId) := do
  ensure (s.isQueueAuthority v msg.authorityId) .badSigner
  let request ← okOr (s.queue.finalizedRequests.get msg.txid) .requestDNE
  let (broadcastConfirmations, shouldExecute) ← s.confirmBroadcast v msg
  let queue := { s.queue with broadcastConfirmations }
  if shouldExecute then
    return { s with
      pool := if request.requestType = .migration then s.pool.executeMigrationTx msg.txid else s.pool
      queue := { queue with
        finalizedRequests := queue.finalizedRequests.remove msg.txid
        executedRequests := queue.executedRequests.insert msg.txid request } }
  else return { s with queue }

/-! ## Rollbacks -/

/-- One output of a rollback request. -/
def verifyRollbackOutput (host : Host AccountId) (systemVault refund : Bytes) (outputs : ℕ)
    (amount : U256) (output : TxOut) : Except Queue.Error Unit := do
  let address ← tryConvertToAddressFromScript host output.scriptPubkey
  if address = systemVault then ensure (outputs = 2) .invalidPsbt
  else if address = refund then
    let amount ← okOr (asU64 amount) .panicked
    ensure (output.value ≤ amount) .invalidPsbt
  else throw .invalidPsbt

/-- The coins of a PSBT are locked, if Blaze is activated. -/
def lockIfActivated (host : Host AccountId) (s : Bridge AccountId) (txid : H256) (psbt : Psbt) :
    Except Queue.Error (Bridge AccountId) :=
  if s.blaze.isActivated then do
    let inputs ← ofBlaze (s.blaze.extractUtxosFromPsbt host psbt)
    let blaze ← ofBlaze (s.blaze.lockUtxos txid inputs)
    return { s with blaze }
  else return s

/-- The coins of a transaction are unlocked, if Blaze is activated. -/
def unlockIfActivated (s : Bridge AccountId) (txid : H256) : Except Queue.Error (Bridge AccountId) :=
  if s.blaze.isActivated then do
    let blaze ← ofBlaze (s.blaze.unlockUtxos txid)
    return { s with blaze }
  else return s

/-- `submit_rollback_request`. -/
def submitRollbackRequest (host : Host AccountId) (v : View AccountId) (s : Bridge AccountId)
    (origin : Origin AccountId) (msg : RollbackPsbtMessage AccountId) :
    Except Queue.Error (Bridge AccountId) := do
  ensure (origin matches .root) .badOrigin
  ensure (s.pool.serviceState = .normal) .underMaintenance
  let psbt ← tryGetCheckedPsbt host msg.unsignedPsbt
  let psbtTxid := txidOf host psbt
  tryPsbtFeeVerification host s.queue.maxFeeRate psbt
  s.ensureNew psbtTxid
  s.ensureNoRollback psbtTxid
  ensure (!s.queue.bondedRollbackOutputs.contains (msg.txid, msg.vout)) .requestAlreadyExists
  let vault ← okOr (s.pool.getVaultAddress msg.who) .userDNE
  let refund ← okOr (s.pool.getRefundAddress msg.who) .userDNE
  let refund ← tryConvertToAddressFromVec host refund
  let txInfo ← s.queue.tryGetTxInfo v (generateHashKey host msg.txid msg.vout msg.who msg.amount)
  ensure (txInfo.toUser = 0) .requestAlreadyExists
  let outputs := psbt.unsignedTx.output
  ensure (outputs.length ≤ 2) .invalidPsbt
  let systemVault ← okOr (s.pool.getSystemVault s.pool.currentRound) .systemVaultDNE
  let systemVault ← tryConvertToAddressFromVec host systemVault
  outputs.forM (verifyRollbackOutput host systemVault refund outputs.length msg.amount)
  let s ← s.lockIfActivated host psbtTxid psbt
  return { s with queue := { s.queue with
    rollbackRequests := s.queue.rollbackRequests.insert psbtTxid
      (.new msg.unsignedPsbt msg.who msg.txid msg.vout vault msg.amount)
    bondedRollbackOutputs := s.queue.bondedRollbackOutputs.insert (msg.txid, msg.vout) psbtTxid } }

/-- `submit_rollback_poll`. -/
def submitRollbackPoll (v : View AccountId) (s : Bridge AccountId)
    (msg : RollbackPollMessage AccountId) : Except Queue.Error (Bridge AccountId) := do
  ensure (v.relayers.isAuthority msg.authorityId) .badSigner
  let request ← okOr (s.queue.rollbackRequests.get msg.txid) .requestDNE
  ensure (!request.isApproved) .requestAlreadyApproved
  ensure (request.votes.get msg.authorityId ≠ some msg.isApproved) .noWritingSameValue
  let votes ← okOr (request.votes.tryInsert maxAuthorities msg.authorityId msg.isApproved) .outOfRange
  let request := { request with votes }
  let putRequest (s : Bridge AccountId) (request : RollbackRequest AccountId) : Bridge AccountId :=
    { s with queue := { s.queue with
      rollbackRequests := s.queue.rollbackRequests.insert msg.txid request } }
  if v.relayers.majority ≤ request.supporters.card then
    let s := s.addPending msg.txid (.new request.unsignedPsbt [] .rollback)
    return putRequest s { request with isApproved := true }
  else return putRequest s request

/-- `drop_pending_rollback_request`. -/
def dropPendingRollbackRequest (s : Bridge AccountId) (origin : Origin AccountId) (txid : H256) :
    Except Queue.Error (Bridge AccountId) := do
  ensure (origin matches .root) .badOrigin
  ensure (s.pool.serviceState = .normal) .underMaintenance
  let request ← okOr (s.queue.rollbackRequests.get txid) .requestDNE
  ensure (!request.isApproved) .requestDNE
  let s := { s with queue := { s.queue with
    rollbackRequests := s.queue.rollbackRequests.remove txid } }
  s.unlockIfActivated txid

/-! ## Migration and fee bumps -/

/-- `submit_migration_request`. -/
def submitMigrationRequest (host : Host AccountId) (s : Bridge AccountId) (origin : Origin AccountId)
    (raw : Bytes) : Except Queue.Error (Bridge AccountId) := do
  ensure (origin matches .root) .badOrigin
  ensure (s.pool.serviceState = .utxoTransfer) .underMaintenance
  let psbt ← tryGetCheckedPsbt host raw
  let txid := txidOf host psbt
  tryPsbtFeeVerification host s.queue.maxFeeRate psbt
  s.ensureNew txid
  match psbt.unsignedTx.output with
  | [output] =>
      let systemVault ← okOr (s.pool.getSystemVault (s.pool.currentRound + 1)) .systemVaultDNE
      let address ← outputAddress host output
      ensure (address = systemVault) .invalidPsbt
      let s := s.addPending txid (.new raw [] .migration)
      return { s with pool := s.pool.addMigrationTx txid, blaze := s.blaze.clearUtxos host }
  | _ => throw .invalidPsbt

/-- What a fee bump does for the type of its request. -/
def bumpRecords (host : Host AccountId) (s : Bridge AccountId) (oldTxid newTxid : H256)
    (request : PsbtRequest AccountId) (new : Bytes) : Except Queue.Error (Bridge AccountId) :=
  match request.requestType with
  | .normal => do
      let messages ← request.socketMessages.mapM fun m =>
        okOr (SocketMessage.tryFrom host.codec m) .invalidSocketMessage
      let s := s.recordMessages newTxid messages
      return { s with queue := { s.queue with
        bondedOutboundTx := s.queue.bondedOutboundTx.remove oldTxid } }
  | .migration =>
      return { s with pool := (s.pool.removeMigrationTx oldTxid).addMigrationTx newTxid }
  | .rollback => do
      let rollback ← okOr (s.queue.rollbackRequests.get oldTxid) .requestDNE
      let rollback := { rollback with unsignedPsbt := new }
      return { s with queue := { s.queue with
        rollbackRequests := (s.queue.rollbackRequests.remove oldTxid).insert newTxid rollback
        bondedRollbackOutputs :=
          s.queue.bondedRollbackOutputs.insert (rollback.txid, rollback.vout) newTxid } }

/-- `submit_bump_fee_request`. -/
def submitBumpFeeRequest (host : Host AccountId) (s : Bridge AccountId) (origin : Origin AccountId)
    (oldTxid : H256) (new : Bytes) : Except Queue.Error (Bridge AccountId) := do
  ensure (origin matches .root) .badOrigin
  let request ← okOr (s.queue.executedRequests.get oldTxid) .requestDNE
  ensure (request.unsignedPsbt ≠ new) .noWritingSameValue
  ensure (s.pool.serviceState = if request.requestType = .migration then .utxoTransfer else .normal)
    .underMaintenance
  let oldPsbt ← tryGetCheckedPsbt host request.unsignedPsbt
  let newPsbt ← tryGetCheckedPsbt host new
  let newTxid := txidOf host newPsbt
  ensure (newTxid ≠ oldTxid) .noWritingSameValue
  tryPsbtFeeVerification host s.queue.maxFeeRate newPsbt
  tryBumpFeePsbtVerification host s.pool oldPsbt newPsbt request.requestType
  s.ensureNew newTxid
  s.ensureNoRollback newTxid
  let s ← s.bumpRecords host oldTxid newTxid request new
  let s := { s with queue := { s.queue with
    executedRequests := s.queue.executedRequests.remove oldTxid } }
  let s ← s.unlockIfActivated oldTxid
  let s ← s.lockIfActivated host newTxid newPsbt
  return s.addPending newTxid (.new new request.socketMessages request.requestType)

/-! ## Governance -/

/-- `set_authority`. -/
def setAuthority (s : Bridge AccountId) (origin : Origin AccountId) (new : AccountId) :
    Except Queue.Error (Bridge AccountId) := do
  ensure (origin matches .root) .badOrigin
  ensure (s.queue.authority ≠ some new) .noWritingSameValue
  return { s with queue := { s.queue with authority := some new } }

/-- `set_socket`. -/
def setSocket (s : Bridge AccountId) (origin : Origin AccountId) (new : AccountId)
    (isBitcoin : Bool) : Except Queue.Error (Bridge AccountId) := do
  ensure (origin matches .root) .badOrigin
  if isBitcoin then
    ensure (s.queue.bitcoinSocket ≠ some new) .noWritingSameValue
    return { s with queue := { s.queue with bitcoinSocket := some new } }
  else
    ensure (s.queue.socket ≠ some new) .noWritingSameValue
    return { s with queue := { s.queue with socket := some new } }

/-- `set_max_fee_rate`. -/
def setMaxFeeRate (s : Bridge AccountId) (origin : Origin AccountId) (new : ℕ) :
    Except Queue.Error (Bridge AccountId) := do
  ensure (origin matches .root) .badOrigin
  ensure (s.queue.maxFeeRate ≠ new) .noWritingSameValue
  ensure (new * 250 < 2 ^ 64) .outOfRange
  return { s with queue := { s.queue with maxFeeRate := new } }

/-- `set_max_socket_message_bytes`. -/
def setMaxSocketMessageBytes (s : Bridge AccountId) (origin : Origin AccountId) (new : ℕ) :
    Except Queue.Error (Bridge AccountId) := do
  ensure (origin matches .root) .badOrigin
  ensure (s.queue.maxSocketMessageBytes ≠ new) .noWritingSameValue
  return { s with queue := { s.queue with maxSocketMessageBytes := new } }

/-- The three pallets replace an authority. -/
def replaceAuthority (s : Bridge AccountId) (old new : AccountId) : Bridge AccountId :=
  ⟨s.pool.replaceAuthority old new, s.blaze.replaceAuthority old new, s.queue.replaceAuthority old new⟩

end Bridge

/-! ## Steps -/

/-- A step of the pool with what it sees, if it is one that happens by itself.  The others are taken by
the queue and by the replacement of an authority. -/
def Pool.Step.seen (o : Pool.Outlook AccountId) : Pool.Step AccountId → Option (Pool.Step AccountId)
  | .requestVault _ origin refundAddress => some (.requestVault o origin refundAddress)
  | .requestSystemVault _ origin prepare => some (.requestSystemVault o origin prepare)
  | .submitVaultKey _ sub => some (.submitVaultKey o sub)
  | .submitSystemVaultKey _ sub => some (.submitSystemVaultKey o sub)
  | .vaultKeyPresubmission _ sub => some (.vaultKeyPresubmission o sub)
  | .migrationControl _ origin => some (.migrationControl o origin)
  | .approveSetRefunds _ approval => some (.approveSetRefunds o approval)
  | .requestSetRefund origin new => some (.requestSetRefund origin new)
  | .clearVault origin vaultAddress => some (.clearVault origin vaultAddress)
  | .dropPreviousRound origin round => some (.dropPreviousRound origin round)
  | .setMaxPresubmission origin max => some (.setMaxPresubmission origin max)
  | .setMultiSigRatio origin new => some (.setMultiSigRatio origin new)
  | .changeMembersSorted new => some (.changeMembersSorted new)
  | .addMigrationTx _ | .removeMigrationTx _ | .executeMigrationTx _ | .replaceAuthority _ _
  | .processSetRefunds => none

/-- A call of Blaze. -/
inductive Blaze.Call (AccountId : Type)
  | setActivation (origin : Origin AccountId) (isActivated : Bool)
  | submitUtxos (sub : Blaze.UtxoSubmission AccountId)
  | broadcastPoll (sub : Blaze.BroadcastSubmission AccountId)
  | submitFeeRate (sub : Blaze.FeeRateSubmission AccountId)
  | submitOutboundRequests (sub : Blaze.SocketMessagesSubmission AccountId)
  | forcePushUtxos (origin : Origin AccountId) (utxos : List UtxoInfo)
  | removeOutboundMessages (sub : Blaze.SocketMessagesSubmission AccountId)

/-- A call of the socket queue. -/
inductive Queue.Call (AccountId : Type)
  | setAuthority (origin : Origin AccountId) (new : AccountId)
  | setSocket (origin : Origin AccountId) (new : AccountId) (isBitcoin : Bool)
  | submitUnsignedPsbt (msg : UnsignedPsbtMessage AccountId)
  | submitSignedPsbt (msg : SignedPsbtMessage AccountId)
  | submitExecutedRequest (msg : ExecutedPsbtMessage AccountId)
  | submitRollbackRequest (origin : Origin AccountId) (msg : RollbackPsbtMessage AccountId)
  | submitRollbackPoll (msg : RollbackPollMessage AccountId)
  | submitMigrationRequest (origin : Origin AccountId) (psbt : Bytes)
  | setMaxFeeRate (origin : Origin AccountId) (new : ℕ)
  | submitBumpFeeRequest (origin : Origin AccountId) (oldTxid : H256) (new : Bytes)
  | dropPendingRollbackRequest (origin : Origin AccountId) (txid : H256)
  | setMaxSocketMessageBytes (origin : Origin AccountId) (new : ℕ)

/-- What can happen to the bridge. -/
inductive Bridge.Step (AccountId : Type)
  | pool (v : View AccountId) (i : Pool.Step AccountId)
  | blaze (v : View AccountId) (call : Blaze.Call AccountId)
  | queue (v : View AccountId) (call : Queue.Call AccountId)
  | onInitialize (v : View AccountId)
  | replaceAuthority (old new : AccountId)

namespace Bridge

variable [LinearOrder AccountId]

/-- A call of Blaze. -/
def blazeCall (host : Host AccountId) (v : View AccountId) (s : Bridge AccountId) :
    Blaze.Call AccountId → Except Blaze.Error (Blaze AccountId)
  | .setActivation origin isActivated => s.blaze.setActivation origin isActivated
  | .submitUtxos sub => s.blaze.submitUtxos host v.relayers (s.pool.getBondedDescriptor host) sub
  | .broadcastPoll sub => s.blaze.broadcastPoll v.relayers sub
  | .submitFeeRate sub => s.blaze.submitFeeRate host v.relayers s.queue.maxFeeRate v.now sub
  | .submitOutboundRequests sub => s.blaze.submitOutboundRequests host v.relayers
      s.queue.maxSocketMessageBytes (s.verifySocketMessage host v) sub
  | .forcePushUtxos origin utxos =>
      s.blaze.forcePushUtxos host (s.pool.getBondedDescriptor host) origin utxos
  | .removeOutboundMessages sub => s.blaze.removeOutboundMessages (s.isQueueAuthority v) sub

/-- A call of the socket queue. -/
def queueCall (host : Host AccountId) (v : View AccountId) (s : Bridge AccountId) :
    Queue.Call AccountId → Except Queue.Error (Bridge AccountId)
  | .setAuthority origin new => s.setAuthority origin new
  | .setSocket origin new isBitcoin => s.setSocket origin new isBitcoin
  | .submitUnsignedPsbt msg => s.submitUnsignedPsbt host v msg
  | .submitSignedPsbt msg => s.submitSignedPsbt host v msg
  | .submitExecutedRequest msg => s.submitExecutedRequest v msg
  | .submitRollbackRequest origin msg => s.submitRollbackRequest host v origin msg
  | .submitRollbackPoll msg => s.submitRollbackPoll v msg
  | .submitMigrationRequest origin psbt => s.submitMigrationRequest host origin psbt
  | .setMaxFeeRate origin new => s.setMaxFeeRate origin new
  | .submitBumpFeeRequest origin oldTxid new => s.submitBumpFeeRequest host origin oldTxid new
  | .dropPendingRollbackRequest origin txid => s.dropPendingRollbackRequest origin txid
  | .setMaxSocketMessageBytes origin new => s.setMaxSocketMessageBytes origin new

/-- **One step.**  `none` is a panic of the hook, or a step that does not happen by itself. -/
def step (host : Host AccountId) (s : Bridge AccountId) : Step AccountId → Option (Bridge AccountId)
  | .pool v i => do
      let i ← i.seen (s.outlook v)
      let pool ← s.pool.step host i
      return { s with pool }
  | .blaze v call => some { s with blaze := commit s.blaze (s.blazeCall host v call) }
  | .queue v call => some (commit s (s.queueCall host v call))
  | .onInitialize v => s.onInitialize host v
  | .replaceAuthority old new => some (s.replaceAuthority old new)

end Bridge

/-- The states of runs all of whose steps meet a condition. -/
def BridgeIf [LinearOrder AccountId] (host : Host AccountId)
    (cond : Bridge AccountId → Bridge.Step AccountId → Prop) (s : Bridge AccountId) : Prop :=
  Reachable (fun s => ∃ members authority, s = .genesis host members authority) (Bridge.step host)
    cond s

end BifrostNode.Btc
