import BifrostNode.Cccp.Queue
import BifrostNode.Btc.Blaze

/-!
# The socket queue

`btc-socket-queue` collects the signatures of the executives on transactions.  A request is pending
until it can be finalized, finalized until it is broadcast, and executed from then on.  Rollback
requests wait for the votes of the relayers before they get there.

This is the storage of the pallet and what it reads and checks.  Its calls also write to the
registration pool and to Blaze, and are in `BifrostNode.Btc.Bridge`.

**Around the pallet.**  The relayers, the executives and the answers of the two Socket contracts are
read when a call runs, so a call comes with what it sees of them.  A contract call can fail, and its
answer can be one that does not decode.
-/

namespace BifrostNode.Btc

open Cccp Staking Transition Pool

variable {AccountId : Type}

/-- `TxInfo`, as far as it is read. -/
structure TxInfo where
  toUser : H160

/-- What is seen of the rest of the chain. -/
structure View (AccountId : Type) where
  relayers : Relayers AccountId
  executives : List AccountId
  getRequest : AccountId → AccountId → Bytes → Option (Option RequestInfo)
  getTxInfo : AccountId → AccountId → H256 → Option (Option TxInfo)
  now : ℕ

namespace Queue

/-! ## Records -/

inductive Error
  | authorityAlreadySubmitted
  | broadcastAlreadyConfirmed
  | signedPsbtAlreadySubmitted
  | socketMessageAlreadySubmitted
  | requestAlreadyExists
  | requestAlreadyApproved
  | authorityDNE
  | socketDNE
  | socketMessageDNE
  | u256OverFlowed
  | userDNE
  | systemVaultDNE
  | requestDNE
  | invalidPsbt
  | invalidUncheckedOutput
  | invalidCalldata
  | invalidSocketMessage
  | invalidRequestInfo
  | invalidTxInfo
  | invalidBitcoinAddress
  | cannotFinalizePsbt
  | outOfRange
  | noWritingSameValue
  | underMaintenance
  | invalidFeeRate
  | blaze (e : Blaze.Error)
  | badOrigin
  | badSigner
  | panicked
  deriving DecidableEq

inductive RequestType
  | normal
  | rollback
  | migration
  deriving DecidableEq

structure RollbackRequest (AccountId : Type) where
  unsignedPsbt : Bytes
  who : AccountId
  txid : H256
  vout : U256
  toVault : Bytes
  amount : U256
  votes : StorageMap AccountId Bool
  isApproved : Bool

namespace RollbackRequest

def new (unsignedPsbt : Bytes) (who : AccountId) (txid : H256) (vout : U256) (toVault : Bytes)
    (amount : U256) : RollbackRequest AccountId :=
  { unsignedPsbt, who, txid, vout, toVault, amount, votes := ∅, isApproved := false }

/-- `replace_authority`. -/
def replaceAuthority [DecidableEq AccountId] (self : RollbackRequest AccountId)
    (old new : AccountId) : RollbackRequest AccountId :=
  { self with votes := self.votes.moveKey old new id }

/-- The accounts that vote for the request. -/
def supporters (self : RollbackRequest AccountId) : Finset AccountId :=
  self.votes.keys.filter fun a => self.votes.get a = some true

end RollbackRequest

structure PsbtRequest (AccountId : Type) where
  unsignedPsbt : Bytes
  combinedPsbt : Bytes
  finalizedPsbt : Bytes
  signedPsbts : StorageMap AccountId Bytes
  socketMessages : List Bytes
  requestType : RequestType

namespace PsbtRequest

def new (unsignedPsbt : Bytes) (socketMessages : List Bytes) (requestType : RequestType) :
    PsbtRequest AccountId :=
  { unsignedPsbt, combinedPsbt := unsignedPsbt, finalizedPsbt := [], signedPsbts := ∅
    socketMessages, requestType }

/-- `is_signed_psbt_submitted`. -/
def isSignedPsbtSubmitted [LinearOrder AccountId] (self : PsbtRequest AccountId) (psbt : Bytes) :
    Bool := self.signedPsbts.toList.any fun e => e.2 = psbt

/-- `is_unsigned_psbt`. -/
def isUnsignedPsbt (self : PsbtRequest AccountId) (psbt : Bytes) : Bool := self.unsignedPsbt = psbt

/-- `replace_authority`. -/
def replaceAuthority [DecidableEq AccountId] (self : PsbtRequest AccountId) (old new : AccountId) :
    PsbtRequest AccountId := { self with signedPsbts := self.signedPsbts.moveKey old new id }

end PsbtRequest

structure UnsignedPsbtMessage (AccountId : Type) where
  authorityId : AccountId
  outputs : List (Bytes × List Bytes)
  psbt : Bytes
  deriving DecidableEq

structure SignedPsbtMessage (AccountId : Type) where
  authorityId : AccountId
  unsignedPsbt : Bytes
  signedPsbt : Bytes
  deriving DecidableEq

structure ExecutedPsbtMessage (AccountId : Type) where
  authorityId : AccountId
  txid : H256
  deriving DecidableEq

structure RollbackPsbtMessage (AccountId : Type) where
  who : AccountId
  txid : H256
  vout : U256
  amount : U256
  unsignedPsbt : Bytes

structure RollbackPollMessage (AccountId : Type) where
  authorityId : AccountId
  txid : H256
  isApproved : Bool
  deriving DecidableEq

end Queue

open Queue

/-- The storage of the pallet. -/
structure SocketQueue (AccountId : Type) where
  socket : Option AccountId
  bitcoinSocket : Option AccountId
  authority : Option AccountId
  socketMessages : StorageMap U256 (H256 × SocketMessage)
  pendingRequests : StorageMap H256 (PsbtRequest AccountId)
  finalizedRequests : StorageMap H256 (PsbtRequest AccountId)
  executedRequests : StorageMap H256 (PsbtRequest AccountId)
  rollbackRequests : StorageMap H256 (RollbackRequest AccountId)
  bondedOutboundTx : StorageMap H256 (List Bytes)
  bondedRollbackOutputs : StorageMap (H256 × U256) H256
  maxFeeRate : ℕ
  maxSocketMessageBytes : ℕ
  broadcastConfirmations : StorageMap H256 (StorageMap AccountId Bool)

/-! ## PSBTs -/

namespace Queue

/-- `U256::as_u64`, which panics if the number does not fit. -/
def asU64 (n : U256) : Option ℕ := if n.val < 2 ^ 64 then some n.val else none

/-- `try_get_checked_psbt`. -/
def tryGetCheckedPsbt (host : Host AccountId) (psbt : Bytes) : Except Error Psbt :=
  okOr (host.lib.deserialize psbt) .invalidPsbt

/-- `try_psbt_combination`. -/
def tryPsbtCombination (host : Host AccountId) (combined signed : Psbt) : Except Error Psbt :=
  okOr (host.lib.combine combined signed) .invalidPsbt

/-- `try_convert_to_address_from_vec`. -/
def tryConvertToAddressFromVec (host : Host AccountId) (address : Bytes) : Except Error Bytes :=
  okOr (host.lib.addressFromStr address) .invalidBitcoinAddress

/-- `try_convert_to_address_from_script`. -/
def tryConvertToAddressFromScript (host : Host AccountId) (script : Script) : Except Error Bytes :=
  okOr (host.lib.addressFromScript script) .invalidBitcoinAddress

/-- The address that an output pays to, as it is kept in storage. -/
def outputAddress (host : Host AccountId) (output : TxOut) : Except Error Bytes := do
  let address ← tryConvertToAddressFromScript host output.scriptPubkey
  okOr (boundedAddress address) .invalidBitcoinAddress

/-- `convert_txid` of the transaction of a PSBT. -/
def txidOf (host : Host AccountId) (psbt : Psbt) : H256 := host.lib.computeTxid psbt.unsignedTx

/-- `estimate_finalized_vb`. -/
def estimateFinalizedVb (host : Host AccountId) (psbt : Psbt) : Except Error ℕ := do
  ensure (psbt.inputs.length ≤ psbt.unsignedTx.input.length) .invalidPsbt
  let sizes ← (psbt.unsignedTx.input.zip psbt.inputs).mapM fun (txin, input) => do
    let witnessScript ← okOr input.witnessScript .invalidPsbt
    okOr (estimateFinalizedInputSize host.lib witnessScript (some txin)) .invalidPsbt
  return u64 (10 + sizes.sum + (psbt.unsignedTx.output.map fun o => toVbytesCeil o.weight).sum)

/-- `try_psbt_fee_verification`. -/
def tryPsbtFeeVerification (host : Host AccountId) (maxFeeRate : ℕ) (psbt : Psbt) :
    Except Error Unit := do
  let fee ← okOr psbt.fee .invalidPsbt
  let estimatedVb ← estimateFinalizedVb host psbt
  ensure (fee / estimatedVb ≤ maxFeeRate) .invalidFeeRate

/-- The check of `try_bump_fee_psbt_verification` of one output. -/
def verifyBumpedOutput (host : Host AccountId) (requestType : RequestType) (systemVault : Bytes)
    (oldOutputs : StorageMap Bytes ℕ) (feeDiff : ℕ) (output : TxOut) : Except Error Unit := do
  let address ← outputAddress host output
  match oldOutputs.get address with
  | some oldAmount =>
      let amountDiff ← okOr (checkedSub64 oldAmount output.value) .invalidPsbt
      match requestType with
      | .migration => ensure (address ≠ systemVault ∨ feeDiff = amountDiff) .invalidPsbt
      | .rollback => ensure (address = systemVault ∨ feeDiff = amountDiff) .invalidPsbt
      | .normal => ensure (address = systemVault ∨ output.value = oldAmount) .invalidPsbt
  | none =>
      ensure (requestType ≠ .migration) .invalidPsbt
      ensure (address = systemVault) .invalidPsbt

/-- `try_bump_fee_psbt_verification`. -/
def tryBumpFeePsbtVerification [LinearOrder AccountId] (host : Host AccountId)
    (pool : Registration AccountId) (old new : Psbt) (requestType : RequestType) :
    Except Error Unit := do
  let systemVault ← okOr (pool.getSystemVault pool.currentRound) .systemVaultDNE
  let oldOutputs := old.unsignedTx.output
  let newOutputs := new.unsignedTx.output
  ensure (newOutputs.length ≤ oldOutputs.length + 1 ∧ oldOutputs.length ≤ newOutputs.length + 1)
    .invalidPsbt
  ensure (∀ input ∈ old.unsignedTx.input, input ∈ new.unsignedTx.input) .invalidPsbt
  let oldFee ← okOr old.fee .invalidPsbt
  let newFee ← okOr new.fee .invalidPsbt
  ensure (oldFee < newFee) .invalidPsbt
  let oldAmounts ← oldOutputs.foldlM (fun m output => do
    return m.insert (← outputAddress host output) output.value) (∅ : StorageMap Bytes ℕ)
  newOutputs.forM (verifyBumpedOutput host requestType systemVault oldAmounts (newFee - oldFee))

/-- `generate_hash_key`. -/
def generateHashKey (host : Host AccountId) (txid : H256) (vout : U256) (who : AccountId)
    (amount : U256) : H256 :=
  host.codec.keccak256 (host.codec.encode
    [.fixedBytes (h256Bytes txid), .uint vout, .address (host.h160Of who), .uint amount])

/-- The token that a message has to be about, on the chains that have one. -/
def expectedTokenIdx0 (chainId : ℕ) : Option Bytes :=
  if chainId = 3068 then
    some [0, 0, 0, 3, 0, 0, 0, 3, 0, 0, 0x0b, 0xfc, 0xcb, 0x4e, 0x4f, 0x67, 0xb3, 0x3e, 0xeb, 0xfc,
      0x17, 0xc8, 0x2c, 0xf6, 0xe8, 0xc0, 0xb5, 0x6d, 0x26, 0x9a, 0xeb, 0x79]
  else if chainId = 49088 then
    some [0, 0, 0, 3, 0, 0, 0, 3, 0, 0, 0xbf, 0xc0, 0xe0, 0x02, 0x30, 0x6b, 0x8f, 0xdf, 0x96, 0x04,
      0x4e, 0xef, 0x87, 0x0c, 0xc5, 0x00, 0xf1, 0x5e, 0x11, 0xef, 0x4e, 0xaa]
  else none

end Queue

namespace SocketQueue

/-- `GenesisConfig::build`. -/
def genesis (host : Host AccountId) (authority : Option AccountId) : SocketQueue AccountId where
  socket := none
  bitcoinSocket := none
  authority := authority
  socketMessages := ∅
  pendingRequests := ∅
  finalizedRequests := ∅
  executedRequests := ∅
  rollbackRequests := ∅
  bondedOutboundTx := ∅
  bondedRollbackOutputs := ∅
  maxFeeRate := host.defaultMaxFeeRate
  maxSocketMessageBytes := host.defaultMaxSocketMessageBytes
  broadcastConfirmations := ∅

/-! ## The Socket contracts -/

/-- `try_get_request`. -/
def tryGetRequest (v : View AccountId) (s : SocketQueue AccountId) (reqId : Bytes) :
    Except Queue.Error RequestInfo := do
  let caller ← okOr s.authority .authorityDNE
  let socket ← okOr s.socket .socketDNE
  let answer ← okOr (v.getRequest caller socket reqId) .invalidCalldata
  okOr answer .invalidRequestInfo

/-- `try_get_tx_info`. -/
def tryGetTxInfo (v : View AccountId) (s : SocketQueue AccountId) (hashKey : H256) :
    Except Queue.Error TxInfo := do
  let caller ← okOr s.authority .authorityDNE
  let bitcoinSocket ← okOr s.bitcoinSocket .socketDNE
  let answer ← okOr (v.getTxInfo caller bitcoinSocket hashKey) .invalidCalldata
  okOr answer .invalidTxInfo

/-- `verify_socket_message`. -/
def verifySocketMessage (host : Host AccountId) (v : View AccountId) (s : SocketQueue AccountId)
    (message : Bytes) : Except Queue.Error Unit := do
  let msg ← okOr (SocketMessage.tryFrom host.codec message) .invalidSocketMessage
  ensure (msg.encode host.codec = message) .invalidSocketMessage
  let msgHash := host.codec.keccak256 (UserRequest.encode host.codec ⟨msg.insCode, msg.params⟩)
  let requestInfo ← s.tryGetRequest v (msg.encodeReqId host.codec)
  ensure (requestInfo.isMsgHash msgHash) .invalidSocketMessage
  ensure (requestInfo.isAccepted ∧ msg.isAccepted) .invalidSocketMessage
  ensure (msg.isBitcoinOutbound host.chainId host.bitcoinChainId) .invalidSocketMessage
  let expected ← okOr (expectedTokenIdx0 host.chainId) .invalidSocketMessage
  ensure (msg.params.tokenIdx0 = expected) .invalidSocketMessage
  ensure (!s.socketMessages.contains msg.reqId.sequence) .socketMessageAlreadySubmitted

variable [LinearOrder AccountId]

/-! ## `SocketQueueManager` -/

/-- `is_ready_for_migrate`. -/
def isReadyForMigrate (s : SocketQueue AccountId) : Bool :=
  s.pendingRequests.toList.isEmpty && s.finalizedRequests.toList.isEmpty &&
    s.rollbackRequests.toList.all fun e => e.2.isApproved

/-- `verify_legacy_authority`. -/
def isLegacyAuthority (s : SocketQueue AccountId) (authorityId : AccountId) : Bool :=
  s.authority = some authorityId

/-- `verify_authority`. -/
def isQueueAuthority (v : View AccountId) (isActivated : Bool) (s : SocketQueue AccountId)
    (authorityId : AccountId) : Bool :=
  if isActivated then v.relayers.isAuthority authorityId else s.isLegacyAuthority authorityId

/-- `replace_authority`. -/
def replaceAuthority (s : SocketQueue AccountId) (old new : AccountId) : SocketQueue AccountId :=
  { s with
    pendingRequests := s.pendingRequests.mapVals fun r => r.replaceAuthority old new
    rollbackRequests := s.rollbackRequests.mapVals fun r =>
      if r.isApproved then r else r.replaceAuthority old new
    broadcastConfirmations := s.broadcastConfirmations.mapVals fun c => c.moveKey old new id }

/-! ## Outputs -/

/-- One message that `try_psbt_output_verification` finds listed under an address: the messages so far,
and what they add up to. -/
def verifyOutputMessage (host : Host AccountId) (v : View AccountId) (pool : Registration AccountId)
    (s : SocketQueue AccountId) (address : Bytes) (verified : List (SocketMessage × Bytes) × ℕ)
    (message : Bytes) : Except Queue.Error (List (SocketMessage × Bytes) × ℕ) := do
  let msg ← okOr (SocketMessage.tryFrom host.codec message) .invalidSocketMessage
  ensure (msg.reqId.sequence ∉ verified.1.map fun e => e.1.reqId.sequence) .invalidSocketMessage
  s.verifySocketMessage host v message
  let refund ← okOr (pool.getRefundAddress (host.accountOf msg.params.toUser)) .userDNE
  ensure (address = refund) .invalidSocketMessage
  let amount ← okOr (RelayQueue.checkedAdd verified.2 msg.params.amount.val) .u256OverFlowed
  return (verified.1 ++ [(msg, message)], amount)

/-- One output of `try_psbt_output_verification`. -/
def verifyOutput (host : Host AccountId) (v : View AccountId) (pool : Registration AccountId)
    (s : SocketQueue AccountId) (systemVault : Bytes) (outputs : ℕ)
    (unchecked : StorageMap Bytes (List Bytes)) (verified : List (SocketMessage × Bytes))
    (output : TxOut) : Except Queue.Error (List (SocketMessage × Bytes)) := do
  let address ← outputAddress host output
  let messages ← okOr (unchecked.get address) .invalidUncheckedOutput
  if address = systemVault then
    ensure (outputs ≠ 1) .invalidPsbt
    ensure (messages = []) .invalidUncheckedOutput
    return verified
  else
    let (verified, amount) ← messages.foldlM (s.verifyOutputMessage host v pool address) (verified, 0)
    ensure (output.value = amount) .invalidPsbt
    return verified

/-- `try_psbt_output_verification`: the messages, each with its bytes. -/
def tryPsbtOutputVerification (host : Host AccountId) (v : View AccountId)
    (pool : Registration AccountId) (s : SocketQueue AccountId) (psbt : Psbt)
    (uncheckedOutputs : List (Bytes × List Bytes)) :
    Except Queue.Error (List (SocketMessage × Bytes)) := do
  let outputs := psbt.unsignedTx.output
  ensure (outputs.length = uncheckedOutputs.length) .invalidPsbt
  ensure (1 ≤ outputs.length) .invalidPsbt
  let systemVault ← okOr (pool.getSystemVault pool.currentRound) .systemVaultDNE
  let unchecked := uncheckedOutputs.foldl (fun m e => m.insert e.1 e.2)
    (∅ : StorageMap Bytes (List Bytes))
  outputs.foldlM (s.verifyOutput host v pool systemVault outputs.length unchecked) []

end SocketQueue

/-! ## Building a transaction

`none` is a panic. -/

namespace Queue

variable [LinearOrder AccountId]

/-- The refund address of the user of a message, as a script. -/
def refundScript (host : Host AccountId) (pool : Registration AccountId) (msg : SocketMessage) :
    Option (Option Script) :=
  match pool.getRefundAddress (host.accountOf msg.params.toUser) with
  | none => some none
  | some refund => (host.lib.addressFromStr refund).map fun a => some (host.lib.scriptPubkey a)

/-- One message of `filter_unregistered_outbounds`: whether it is kept. -/
def registeredOutbound (host : Host AccountId) (pool : Registration AccountId) (message : Bytes) :
    Option (Option (SocketMessage × Script)) :=
  match SocketMessage.tryFrom host.codec message with
  | none => some none
  | some msg => (refundScript host pool msg).map fun script => script.map fun script => (msg, script)

/-- `filter_unregistered_outbounds`. -/
def filterUnregisteredOutbounds (host : Host AccountId) (pool : Registration AccountId)
    (outboundPool : List Bytes) : Option (List Bytes × List (SocketMessage × Script)) := do
  let found ← outboundPool.mapM (registeredOutbound host pool)
  let unregistered := ((outboundPool.zip found).filter fun e => e.2.isNone).map Prod.fst
  return (outboundPool.filter (· ∉ unregistered), found.filterMap id)

/-- The outputs of `composite_psbt` before the change: one for each script. -/
def mergeOutputs (requests : List (SocketMessage × Script)) : Option (StorageMap Script ℕ) :=
  requests.foldlM (fun m (msg, script) => do
    let value ← asU64 msg.params.amount
    let sum ← checkedAdd64 (m.getD script 0) value
    return m.insert script sum) ∅

/-- The change of `composite_psbt`, if there is one and it is more than dust. -/
def changeAmount (selected : List UtxoInfoWithSize) (output : List TxOut) (target feeRate : ℕ) :
    Option ℕ := do
  let inputSum := u64 (selected.map UtxoInfoWithSize.amount).sum
  let inputSizeSum := u64 (selected.map UtxoInfoWithSize.inputVbytes).sum
  let outputSizeSum := u64 ((output.map TxOut.size).sum + 43)
  let fee := saturate64 (feeRate * u64 (11 + inputSizeSum + outputSizeSum))
  let rest ← checkedSub64 inputSum target
  (checkedSub64 rest fee).filter fun change => dustLimit < change

/-- The outputs of `composite_psbt` with the change.  There is no transaction if the change has nowhere
to go. -/
def addChange (host : Host AccountId) (pool : Registration AccountId)
    (selected : List UtxoInfoWithSize) (output : List TxOut) (target feeRate : ℕ) :
    Option (List TxOut) :=
  match changeAmount selected output target feeRate with
  | none => some output
  | some change => do
      let systemVault ← pool.getSystemVault pool.currentRound
      let systemVault ← host.lib.addressFromStr systemVault
      return output ++ [⟨change, host.lib.scriptPubkey systemVault⟩]

/-- The input of a transaction that spends a coin. -/
def spendInput (x : UtxoInfoWithSize) : TxIn := ⟨⟨x.txid, x.vout⟩, [], 0xfffffffd⟩

/-- What the PSBT says of a coin that it spends. -/
def spendPsbtInput (host : Host AccountId) (x : UtxoInfoWithSize) : Option PsbtInput := do
  let descriptor ← host.lib.descriptorFromStr x.descriptor
  return {
    witnessUtxo := some ⟨x.amount, descriptor.scriptPubkey⟩
    nonWitnessUtxo := none
    witnessScript := some descriptor.scriptCode
    bip32Derivation := StorageMap.ascending descriptor.keys.toFinset
    others := [] }

/-- `composite_psbt`.  The inner option is the one that the source returns. -/
def compositePsbt (host : Host AccountId) (pool : Registration AccountId)
    (selected : List UtxoInfoWithSize) (requests : List (SocketMessage × Script))
    (target feeRate : ℕ) (strategy : SelectionStrategy) : Option (Option Psbt) := do
  let merged ← mergeOutputs requests
  let output := (merged.toList.filter fun e => dustLimit < e.2).map fun e => (⟨e.2, e.1⟩ : TxOut)
  if output = [] then return none
  let changed := if strategy = .knapsack then addChange host pool selected output target feeRate
    else some output
  match changed with
  | none => return none
  | some output =>
      match Psbt.fromUnsignedTx ⟨2, 0, selected.map spendInput, output⟩ with
      | none => return none
      | some psbt =>
          let inputs ← selected.mapM (spendPsbtInput host)
          return some { psbt with inputs }

end Queue

end BifrostNode.Btc
