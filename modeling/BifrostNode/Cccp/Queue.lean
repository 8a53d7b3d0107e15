import BifrostNode.Cccp.Message
import BifrostNode.Staking.State
import BifrostNode.Lib.Transition

/-!
# The relay queue of the cross-chain protocol

`cccp-relay-queue` collects the votes of the relayers on transfers.  A transfer is pending until a
majority has seen its source transaction, on flight until its end has been seen, and finalized from
then on.  Fast transfers take up the cap of their asset while they are on flight.

**Keys.**  A transfer is kept under the hash of its first message.  A message that ends it carries
another status, and its hash is that of the same message with the first status.

**Around the pallet.**  The relayers, their majority, the answers of the Socket contract and the size
limit of the socket queue are read when a call runs, so a call comes with what it sees of them.  The
submissions that get here carry a valid signature of the authority they name.
-/

namespace BifrostNode.Cccp

open Staking Transition

variable {AccountId : Type}

/-! ## Records -/

inductive Error
  | emptySubmission
  | invalidSocketMessage
  | onChainExistenceMismatch
  | messageHashMismatch
  | messageStatusMismatch
  | invalidRequestInfo
  | socketDNE
  | transferAlreadyFinalized
  | transferAlreadyOnFlight
  | transferNotOnFlight
  | alreadyVoted
  | outOfRange
  | noWritingSameValue
  | assetAlreadyExists
  | assetIndexAlreadyExists
  | assetDNE
  | assetIndexDNE
  | assetIndexNotBelongToAsset
  | assetHasActiveTransfers
  | capReductionBelowCurrentUsage
  | emptyAssetIndexes
  | tooManyAssetIndexes
  | duplicateAssetIndex
  | conflictingAssetIndexOperation
  | pendingTransferCapExceeded
  | invalidMaxCap
  | capTooLarge
  | badOrigin
  | badSigner
  | exhaustsResources
  deriving DecidableEq

/-- `MAX_PENDING_TRANSFERS_PER_RELAYER`. -/
def maxPendingTransfersPerRelayer : ℕ := 100

/-- `MAX_ON_FLIGHT_CAP`: a hundred million tokens of eighteen decimals. -/
def maxOnFlightCap : ℕ := 100000000 * 10 ^ 18

/-- `MAX_ASSET_INDEXES_PER_CALL`. -/
def maxAssetIndexesPerCall : ℕ := 100

inductive TransferOption
  | fast
  | standard
  deriving DecidableEq

structure AssetIndexInfo where
  hash : H256
  isHookable : Bool

structure AssetCapInfo where
  maxOnFlightCap : ℕ
  onFlightCap : ℕ
  deriving DecidableEq

structure TransferInfo (AccountId : Type) where
  amount : ℕ
  sequenceId : U256
  srcChainId : ℕ
  dstChainId : ℕ
  assetIndexHash : H256
  option : TransferOption
  socketMessage : Bytes
  onFlightVoters : List AccountId
  deriving DecidableEq

structure TransferInfoWithTxId (AccountId : Type) extends TransferInfo AccountId where
  finalizationVoters : List AccountId
  srcTxId : H256
  deriving DecidableEq

/-- `from_transfer_info`. -/
def TransferInfoWithTxId.fromTransferInfo (info : TransferInfo AccountId) (srcTxId : H256) :
    TransferInfoWithTxId AccountId := { info with finalizationVoters := [], srcTxId }

structure OnFlightPollSubmission (AccountId : Type) where
  authorityId : AccountId
  msg : Bytes
  msgHash : H256
  srcTxId : H256

structure FinalizePollSubmission (AccountId : Type) where
  authorityId : AccountId
  msg : Bytes

/-- The storage of the pallet. -/
structure RelayQueue (AccountId : Type) where
  socket : Option AccountId
  assetIndexesHookState : StorageMap H256 Bool
  assetIndexes : StorageMap H256 H160
  assetCaps : StorageMap H160 AssetCapInfo
  pendingTransfers : StorageMap (H256 × H256) (TransferInfo AccountId)
  pendingTransferCount : StorageMap AccountId ℕ
  onFlightTransfers : StorageMap H256 (TransferInfoWithTxId AccountId)
  finalizedTransfers : StorageMap H256 (TransferInfoWithTxId AccountId)

/-- What the runtime is built with. -/
structure Host where
  codec : Codec
  chainId : ℕ

/-- What a call sees of the relayers, the Socket contracts and the socket queue. -/
structure Outlook (AccountId : Type) where
  isAuthority : AccountId → Bool
  majority : ℕ
  getRequest : AccountId → Bytes → Option RequestInfo
  maxSocketMessageBytes : ℕ

namespace RelayQueue

/-- Nothing is stored at genesis. -/
def genesis : RelayQueue AccountId := ⟨none, ∅, ∅, ∅, ∅, ∅, ∅, ∅⟩

/-! ## Helpers -/

/-- `verify_authority`. -/
def verifyAuthority (o : Outlook AccountId) (authorityId : AccountId) : Except Error Unit :=
  ensure (o.isAuthority authorityId) .badSigner

/-- `validate_and_parse_socket_message`. -/
def validateAndParseSocketMessage (host : Host) (message : Bytes) (check : SocketMessage → Bool) :
    Except Error SocketMessage := do
  ensure (message ≠ []) .emptySubmission
  let msg ← okOr (SocketMessage.tryFrom host.codec message) .invalidSocketMessage
  ensure (check msg) .messageStatusMismatch
  return msg

/-- `try_get_request`. -/
def tryGetRequest (o : Outlook AccountId) (s : RelayQueue AccountId) (reqId : Bytes) :
    Except Error RequestInfo := do
  let socket ← okOr s.socket .socketDNE
  okOr (o.getRequest socket reqId) .invalidRequestInfo

/-- `validate_on_chain_existence`. -/
def validateOnChainExistence (host : Host) (o : Outlook AccountId) (s : RelayQueue AccountId)
    (msg : SocketMessage) : Except Error RequestInfo := do
  let msgHash := host.codec.keccak256 (UserRequest.encode host.codec ⟨msg.insCode, msg.params⟩)
  let requestInfo ← s.tryGetRequest o (msg.encodeReqId host.codec)
  ensure (requestInfo.isMsgHash msgHash) .onChainExistenceMismatch
  return requestInfo

/-- `get_asset_info`. -/
def getAssetInfo (s : RelayQueue AccountId) (assetIndexHash : H256) : Option (H160 × AssetCapInfo) := do
  let assetId ← s.assetIndexes.get assetIndexHash
  let assetCap ← s.assetCaps.get assetId
  return (assetId, assetCap)

/-- `U256::checked_add`. -/
def checkedAdd (a b : ℕ) : Option ℕ := if a + b < 2 ^ 256 then some (a + b) else none

/-- `U256::checked_sub`. -/
def checkedSub (a b : ℕ) : Option ℕ := if b ≤ a then some (a - b) else none

/-- `try_into` from `U256` to the balance type, which has 128 bits. -/
def toBalance (n : ℕ) : Option ℕ := if n < 2 ^ 128 then some n else none

/-- `determine_transfer_option`. -/
def determineTransferOption (assetCap : AssetCapInfo) (amount : ℕ) : Except Error TransferOption := do
  let capAfter ← okOr (checkedAdd assetCap.onFlightCap amount) .outOfRange
  return if assetCap.maxOnFlightCap < capAfter then .standard else .fast

/-- `update_fast_transfer_cap`. -/
def updateFastTransferCap (s : RelayQueue AccountId) (assetId : H160) (assetCap : AssetCapInfo)
    (amount : ℕ) (isAddition : Bool) : Except Error (RelayQueue AccountId) := do
  let newCap ← okOr (if isAddition then checkedAdd assetCap.onFlightCap amount
    else checkedSub assetCap.onFlightCap amount) .outOfRange
  let onFlightCap ← okOr (toBalance newCap) .outOfRange
  return { s with assetCaps := s.assetCaps.insert assetId { assetCap with onFlightCap } }

variable [LinearOrder AccountId]

/-- `add_voter_to_list`. -/
def addVoterToList (voters : List AccountId) (authorityId : AccountId) :
    Except Error (List AccountId) := do
  ensure (authorityId ∉ voters) .alreadyVoted
  ensure (voters.length < maxAuthorities) .outOfRange
  return voters ++ [authorityId]

/-! ## Polls -/

/-- The option that a transfer has at the moment: standard if its asset is not registered. -/
def currentOption (s : RelayQueue AccountId) (assetIndexHash : H256) (amount : ℕ) :
    Except Error TransferOption :=
  match s.getAssetInfo assetIndexHash with
  | some (_, assetCap) => determineTransferOption assetCap amount
  | none => return .standard

/-- The validation of `on_flight_poll` that depends on the direction. -/
def validateDirection (host : Host) (o : Outlook AccountId) (s : RelayQueue AccountId)
    (msg : SocketMessage) : Except Error Unit :=
  if msg.isOutbound host.chainId then do
    let requestInfo ← s.validateOnChainExistence host o msg
    ensure requestInfo.isRequested .messageStatusMismatch
  else do
    let requestInfo ← s.tryGetRequest o (msg.encodeReqId host.codec)
    ensure (requestInfo.status = 0) .messageStatusMismatch

/-- The entry that a vote leads to: another voter, or a first one. -/
def castVote (s : RelayQueue AccountId) (authorityId : AccountId) (msgHash srcTxId : H256)
    (fresh : TransferInfo AccountId) : Except Error (TransferInfo AccountId) :=
  match s.pendingTransfers.get (msgHash, srcTxId) with
  | some pending => do
      let onFlightVoters ← addVoterToList pending.onFlightVoters authorityId
      return { pending with onFlightVoters, option := fresh.option }
  | none => return fresh

/-- The cap of a fast transfer that gets on flight. -/
def takeCap (s : RelayQueue AccountId) (info : TransferInfo AccountId) (assetIndexHash : H256)
    (amount : ℕ) : Except Error (RelayQueue AccountId) :=
  match s.getAssetInfo assetIndexHash with
  | some (assetId, assetCap) =>
      if info.option = .fast then s.updateFastTransferCap assetId assetCap amount true else return s
  | none => return s

/-- All entries of a message are cleared, and no longer count for their submitters. -/
def clearPending (s : RelayQueue AccountId) (msgHash : H256) : RelayQueue AccountId :=
  { s with
    pendingTransferCount := (s.pendingTransfers.iterPrefix msgHash).foldl (fun count e =>
      match e.2.onFlightVoters.head? with
      | some submitter => count.insert submitter (count.getD submitter 0 - 1)
      | none => count) s.pendingTransferCount
    pendingTransfers := s.pendingTransfers.filterKeys fun k => k.1 ≠ msgHash }

/-- The entry stays pending, and a new one counts for its submitter. -/
def keepPending (s : RelayQueue AccountId) (authorityId : AccountId) (msgHash srcTxId : H256)
    (info : TransferInfo AccountId) : RelayQueue AccountId :=
  { s with
    pendingTransferCount :=
      if s.pendingTransfers.contains (msgHash, srcTxId) then s.pendingTransferCount
      else s.pendingTransferCount.insert authorityId (s.pendingTransferCount.getD authorityId 0 + 1)
    pendingTransfers := s.pendingTransfers.insert (msgHash, srcTxId) info }

/-- `on_flight_poll`. -/
def onFlightPoll (host : Host) (o : Outlook AccountId) (s : RelayQueue AccountId)
    (sub : OnFlightPollSubmission AccountId) : Except Error (RelayQueue AccountId) := do
  ensure (sub.msg.length ≤ o.maxSocketMessageBytes) .exhaustsResources
  verifyAuthority o sub.authorityId
  let parsed ← validateAndParseSocketMessage host sub.msg (·.isRequested)
  ensure (sub.msgHash = host.codec.keccak256 sub.msg) .messageHashMismatch
  ensure (sub.msgHash = parsed.hash host.codec) .messageHashMismatch
  let amount ← okOr (toBalance parsed.params.amount.val) .outOfRange
  let srcChainId ← okOr (chainIdFromBeBytes parsed.reqId.chain) .outOfRange
  let dstChainId ← okOr (chainIdFromBeBytes parsed.insCode.chain) .outOfRange
  let assetIndexHash := h256FromSlice parsed.params.tokenIdx0
  ensure (!s.onFlightTransfers.contains sub.msgHash) .transferAlreadyOnFlight
  ensure (!s.finalizedTransfers.contains sub.msgHash) .transferAlreadyFinalized
  ensure (s.pendingTransfers.contains (sub.msgHash, sub.srcTxId) ∨
    s.pendingTransferCount.getD sub.authorityId 0 < maxPendingTransfersPerRelayer)
    .pendingTransferCapExceeded
  let option ← s.currentOption assetIndexHash parsed.params.amount.val
  s.validateDirection host o parsed
  let info ← s.castVote sub.authorityId sub.msgHash sub.srcTxId
    { amount, sequenceId := parsed.reqId.sequence, srcChainId, dstChainId, assetIndexHash, option
      socketMessage := sub.msg, onFlightVoters := [sub.authorityId] }
  if o.majority ≤ info.onFlightVoters.length then
    let s ← s.takeCap info assetIndexHash amount
    let s := s.clearPending sub.msgHash
    return { s with
      onFlightTransfers :=
        s.onFlightTransfers.insert sub.msgHash (.fromTransferInfo info sub.srcTxId) }
  else return s.keepPending sub.authorityId sub.msgHash sub.srcTxId info

/-- The end of `finalize_poll`: the transfer is finalized, and gives back the cap that it took. -/
def finalize (s : RelayQueue AccountId) (msgHash assetIndexHash : H256) (amount : ℕ)
    (transfer : TransferInfoWithTxId AccountId) : Except Error (RelayQueue AccountId) :=
  let assetInfo := s.getAssetInfo assetIndexHash
  let s := { s with
    onFlightTransfers := s.onFlightTransfers.remove msgHash
    finalizedTransfers := s.finalizedTransfers.insert msgHash transfer }
  if transfer.option = .fast then
    match assetInfo with
    | some (assetId, assetCap) => s.updateFastTransferCap assetId assetCap amount false
    | none => return s
  else return s

/-- `finalize_poll`. -/
def finalizePoll (host : Host) (o : Outlook AccountId) (s : RelayQueue AccountId)
    (sub : FinalizePollSubmission AccountId) : Except Error (RelayQueue AccountId) := do
  verifyAuthority o sub.authorityId
  let parsed ← validateAndParseSocketMessage host sub.msg fun msg =>
    msg.isCommitted || msg.isRollbacked || msg.isAccepted || msg.isRejected
  let _ ← okOr (chainIdFromBeBytes parsed.reqId.chain) .outOfRange
  let _ ← okOr (chainIdFromBeBytes parsed.insCode.chain) .outOfRange
  let assetIndexHash := h256FromSlice parsed.params.tokenIdx0
  let msgHash := parsed.requested.hash host.codec
  ensure (!s.finalizedTransfers.contains msgHash) .transferAlreadyFinalized
  let transfer ← okOr (s.onFlightTransfers.get msgHash) .transferNotOnFlight
  let requestInfo ← s.validateOnChainExistence host o parsed
  let finalizationVoters ← addVoterToList transfer.finalizationVoters sub.authorityId
  let transfer := { transfer with finalizationVoters }
  if parsed.isOutbound host.chainId then
    ensure ((requestInfo.isCommitted && parsed.isCommitted) ||
      (requestInfo.isRollbacked && parsed.isRollbacked)) .messageStatusMismatch
    s.finalize msgHash assetIndexHash parsed.params.amount.val transfer
  else
    ensure ((requestInfo.isAccepted && (parsed.isAccepted || parsed.isCommitted)) ||
      (requestInfo.isRejected && (parsed.isRejected || parsed.isRollbacked))) .messageStatusMismatch
    if o.majority ≤ finalizationVoters.length then
      s.finalize msgHash assetIndexHash parsed.params.amount.val transfer
    else
      return { s with onFlightTransfers := s.onFlightTransfers.insert msgHash transfer }

/-! ## Governance -/

/-- `set_socket`. -/
def setSocket (s : RelayQueue AccountId) (origin : Origin AccountId) (new : AccountId) :
    Except Error (RelayQueue AccountId) := do
  ensure (origin matches .root) .badOrigin
  ensure (s.socket ≠ some new) .noWritingSameValue
  return { s with socket := some new }

/-- Write the given indexes of an asset. -/
def putIndexes (s : RelayQueue AccountId) (assetId : H160) (indexes : List AssetIndexInfo) :
    RelayQueue AccountId :=
  { s with
    assetIndexes := indexes.foldl (fun m i => m.insert i.hash assetId) s.assetIndexes
    assetIndexesHookState :=
      indexes.foldl (fun m i => m.insert i.hash i.isHookable) s.assetIndexesHookState }

/-- Remove the given indexes. -/
def removeIndexes (s : RelayQueue AccountId) (indexes : List H256) : RelayQueue AccountId :=
  { s with
    assetIndexes := indexes.foldl StorageMap.remove s.assetIndexes
    assetIndexesHookState := indexes.foldl StorageMap.remove s.assetIndexesHookState }

/-- Whether a transfer on flight has one of the indexes. -/
def hasActiveTransfers (s : RelayQueue AccountId) (indexes : List H256) : Bool :=
  s.onFlightTransfers.toList.any fun e => e.2.assetIndexHash ∈ indexes

/-- `add_asset`. -/
def addAsset (s : RelayQueue AccountId) (origin : Origin AccountId) (assetId : H160)
    (maxOnFlightCap : ℕ) (assetIndexes : List AssetIndexInfo) : Except Error (RelayQueue AccountId) := do
  ensure (origin matches .root) .badOrigin
  ensure (assetIndexes.length ≠ 0) .emptyAssetIndexes
  ensure (assetIndexes.length ≤ maxAssetIndexesPerCall) .tooManyAssetIndexes
  ensure (maxOnFlightCap ≤ Cccp.maxOnFlightCap) .capTooLarge
  ensure (assetIndexes.map AssetIndexInfo.hash).Nodup .duplicateAssetIndex
  ensure (!s.assetCaps.contains assetId) .assetAlreadyExists
  ensure (∀ i ∈ assetIndexes, !s.assetIndexes.contains i.hash) .assetIndexAlreadyExists
  let s := { s with assetCaps := s.assetCaps.insert assetId ⟨maxOnFlightCap, 0⟩ }
  return s.putIndexes assetId assetIndexes

/-- `remove_asset`. -/
def removeAsset (s : RelayQueue AccountId) (origin : Origin AccountId) (assetId : H160) :
    Except Error (RelayQueue AccountId) := do
  ensure (origin matches .root) .badOrigin
  ensure (s.assetCaps.contains assetId) .assetDNE
  let assetIndexes := (s.assetIndexes.toList.filter fun e => e.2 = assetId).map Prod.fst
  ensure (!s.hasActiveTransfers assetIndexes) .assetHasActiveTransfers
  return { s with assetCaps := s.assetCaps.remove assetId }.removeIndexes assetIndexes

/-- The new cap of `update_asset`. -/
def updateCap (s : RelayQueue AccountId) (assetId : H160) (assetCap : AssetCapInfo) :
    Option ℕ → Except Error (RelayQueue AccountId)
  | none => return s
  | some new => do
      ensure (assetCap.maxOnFlightCap ≠ new) .noWritingSameValue
      ensure (0 < new) .invalidMaxCap
      ensure (new ≤ Cccp.maxOnFlightCap) .capTooLarge
      ensure (assetCap.onFlightCap ≤ new) .capReductionBelowCurrentUsage
      return { s with assetCaps := s.assetCaps.insert assetId { assetCap with maxOnFlightCap := new } }

/-- One new index of `update_asset`. -/
def addIndex (assetId : H160) (s : RelayQueue AccountId) (index : AssetIndexInfo) :
    Except Error (RelayQueue AccountId) := do
  ensure (!s.assetIndexes.contains index.hash) .assetIndexAlreadyExists
  ensure (!s.assetIndexesHookState.contains index.hash) .assetIndexAlreadyExists
  return s.putIndexes assetId [index]

/-- One changed index of `update_asset`. -/
def updateIndex (s : RelayQueue AccountId) (index : AssetIndexInfo) :
    Except Error (RelayQueue AccountId) := do
  ensure (s.assetIndexes.contains index.hash) .assetIndexDNE
  ensure (s.assetIndexesHookState.contains index.hash) .assetIndexDNE
  return { s with
    assetIndexesHookState := s.assetIndexesHookState.insert index.hash index.isHookable }

/-- The removed indexes of `update_asset`. -/
def dropIndexes (s : RelayQueue AccountId) (assetId : H160) (indexes : List H256) :
    Except Error (RelayQueue AccountId) := do
  for index in indexes do
    let found ← okOr (s.assetIndexes.get index) .assetIndexDNE
    ensure (found = assetId) .assetIndexNotBelongToAsset
  ensure (!s.hasActiveTransfers indexes) .assetHasActiveTransfers
  return s.removeIndexes indexes

/-- `update_asset`.  An absent list is an empty one, but for the first check. -/
def updateAsset (s : RelayQueue AccountId) (origin : Origin AccountId) (assetId : H160)
    (newMaxOnFlightCap : Option ℕ) (add update : Option (List AssetIndexInfo))
    (remove : Option (List H256)) : Except Error (RelayQueue AccountId) := do
  ensure (origin matches .root) .badOrigin
  ensure (newMaxOnFlightCap.isSome || add.isSome || update.isSome || remove.isSome) .emptySubmission
  let add := add.getD []
  let update := update.getD []
  let remove := remove.getD []
  ensure (add.length ≤ maxAssetIndexesPerCall) .tooManyAssetIndexes
  ensure (update.length ≤ maxAssetIndexesPerCall) .tooManyAssetIndexes
  ensure (remove.length ≤ maxAssetIndexesPerCall) .tooManyAssetIndexes
  ensure (add.map AssetIndexInfo.hash).Nodup .duplicateAssetIndex
  ensure (update.map AssetIndexInfo.hash).Nodup .duplicateAssetIndex
  ensure remove.Nodup .duplicateAssetIndex
  ensure (∀ i ∈ add, i.hash ∉ remove) .conflictingAssetIndexOperation
  ensure (∀ i ∈ update, i.hash ∉ remove) .conflictingAssetIndexOperation
  let assetCap ← okOr (s.assetCaps.get assetId) .assetDNE
  let s ← s.updateCap assetId assetCap newMaxOnFlightCap
  let s ← add.foldlM (addIndex assetId) s
  let s ← update.foldlM updateIndex s
  s.dropIndexes assetId remove

/-! ## Replacement -/

/-- `replace_authority`. -/
def replaceAuthority (s : RelayQueue AccountId) (old new : AccountId) : RelayQueue AccountId :=
  let oldCount := s.pendingTransferCount.getD old 0
  let count := s.pendingTransferCount.remove old
  { s with
    pendingTransferCount := if 0 < oldCount then count.insert new oldCount else count
    pendingTransfers := s.pendingTransfers.mapVals fun info =>
      { info with onFlightVoters := info.onFlightVoters.replace old new }
    onFlightTransfers := s.onFlightTransfers.mapVals fun transfer =>
      { transfer with finalizationVoters := transfer.finalizationVoters.replace old new } }

end RelayQueue

end BifrostNode.Cccp
