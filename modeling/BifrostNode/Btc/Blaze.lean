import BifrostNode.Btc.Coins
import BifrostNode.Btc.Registration

/-!
# Blaze

`blaze` keeps the coins of the vaults, so that the chain itself can build the transactions that pay
outbound requests.  The relayers vote on coins, on broadcasts and on fee rates, and put the requests
into the outbound pool.

**Coins.**  A coin is unconfirmed until a majority has seen it, available from then on, locked while a
transaction spends it, and used once a majority has seen that transaction.

**Around the pallet.**  A call comes with what it sees of the relayers, the registration pool and the
socket queue.  The submissions that get here carry a valid signature of the authority they name.
-/

namespace BifrostNode.Btc

open Cccp Staking Transition

variable {AccountId : Type}

/-! ## Bytes -/

/-- The little endian bytes of a number, as many as asked for. -/
def toLeBytes : ℕ → ℕ → Bytes
  | 0, _ => []
  | width + 1, n => .ofNat n :: toLeBytes width (n / 256)

/-- `H256::as_bytes`. -/
def h256Bytes (h : H256) : Bytes := (toLeBytes 32 h.val).reverse

/-- `Compact<u32>`, which is how the length of a vector is encoded. -/
def compact (n : ℕ) : Bytes :=
  if n < 2 ^ 6 then toLeBytes 1 (4 * n)
  else if n < 2 ^ 14 then toLeBytes 2 (4 * n + 1)
  else if n < 2 ^ 30 then toLeBytes 4 (4 * n + 2)
  else 3 :: toLeBytes 4 n

/-- The encoding of `(txid, vout, amount, address)`. -/
def UtxoInfo.encode (self : UtxoInfo) : Bytes :=
  h256Bytes self.txid ++ (toLeBytes 4 self.vout ++
    (toLeBytes 8 self.amount ++ (compact self.address.length ++ self.address)))

/-- The hash under which a coin is kept. -/
def UtxoInfo.hash (host : Host AccountId) (self : UtxoInfo) : H256 :=
  host.codec.keccak256 self.encode

/-- The entries of a map whose keys go through `Twox64Concat`, in the order of the storage. -/
def storageOrder {V : Type} (host : Host AccountId) (m : StorageMap H256 V) : List (H256 × V) :=
  m.toList.insertionSort fun a b => host.twox64 a.1 ≤ host.twox64 b.1

/-! ## Records -/

/-- What a call sees of the relayers. -/
structure Relayers (AccountId : Type) where
  isAuthority : AccountId → Bool
  majority : ℕ

namespace Blaze

inductive Error
  | unknownUtxo
  | unknownTransaction
  | utxoDNE
  | alreadySpent
  | alreadyVoted
  | emptySubmission
  | invalidSubmission
  | outOfRange
  | noWritingSameValue
  | invalidActivationState
  | badOrigin
  | badSigner
  | stale
  | exhaustsResources
  deriving DecidableEq

/-- `MAX_SOCKET_MESSAGES_PER_SUBMISSION`. -/
def maxSocketMessagesPerSubmission : ℕ := 10

/-- `MAX_UTXOS_PER_SUBMISSION`. -/
def maxUtxosPerSubmission : ℕ := 50

/-- `MAX_UNCONFIRMED_UTXOS_PER_RELAYER`. -/
def maxUnconfirmedUtxosPerRelayer : ℕ := 100

inductive UtxoStatus
  | unconfirmed
  | available
  | locked
  | used
  deriving DecidableEq

/-- `replace_authority` of the two records below, for the voters that have the old authority. -/
def replaceVoter [DecidableEq AccountId] (old new : AccountId) (voters : List AccountId) :
    List AccountId := voters.filter (· ≠ old) ++ [new]

structure Utxo (AccountId : Type) where
  inner : UtxoInfoWithSize
  status : UtxoStatus
  voters : List AccountId
  deriving DecidableEq

structure BTCTransaction (AccountId : Type) where
  inputs : List UtxoInfoWithSize
  voters : List AccountId
  deriving DecidableEq

structure FeeRate where
  ltFeeRate : ℕ
  feeRate : ℕ
  expiresAt : ℕ
  deriving DecidableEq

structure UtxoSubmission (AccountId : Type) where
  authorityId : AccountId
  utxos : List UtxoInfo
  deriving DecidableEq

structure BroadcastSubmission (AccountId : Type) where
  authorityId : AccountId
  txid : H256
  deriving DecidableEq

structure FeeRateSubmission (AccountId : Type) where
  authorityId : AccountId
  ltFeeRate : ℕ
  feeRate : ℕ
  deadline : ℕ
  deriving DecidableEq

structure SocketMessagesSubmission (AccountId : Type) where
  authorityId : AccountId
  messages : List Bytes
  deriving DecidableEq

end Blaze

open Blaze

/-- The storage of the pallet. -/
structure Blaze (AccountId : Type) where
  isActivated : Bool
  toleranceCounter : ℕ
  utxos : StorageMap H256 (Utxo AccountId)
  unconfirmedUtxoCount : StorageMap AccountId ℕ
  pendingTxs : StorageMap H256 (BTCTransaction AccountId)
  confirmedTxs : StorageMap H256 (BTCTransaction AccountId)
  outboundPool : List Bytes
  feeRates : StorageMap AccountId FeeRate

namespace Blaze

/-- Nothing is stored at genesis. -/
def genesis : Blaze AccountId := ⟨false, 0, ∅, ∅, ∅, ∅, [], ∅⟩

variable [LinearOrder AccountId]

/-! ## `BlazeManager` -/

/-- `replace_authority`. -/
def replaceAuthority (s : Blaze AccountId) (old new : AccountId) : Blaze AccountId :=
  let oldCount := s.unconfirmedUtxoCount.getD old 0
  let count := s.unconfirmedUtxoCount.remove old
  { s with
    unconfirmedUtxoCount := if 0 < oldCount then count.insert new oldCount else count
    utxos := s.utxos.mapVals fun utxo =>
      if utxo.status = .unconfirmed ∧ old ∈ utxo.voters then
        { utxo with voters := replaceVoter old new utxo.voters }
      else utxo
    pendingTxs := s.pendingTxs.mapVals fun tx =>
      if old ∈ tx.voters then { tx with voters := replaceVoter old new tx.voters } else tx
    feeRates := s.feeRates.moveKey old new id }

/-- `get_utxos`. -/
def getUtxos (host : Host AccountId) (s : Blaze AccountId) : List UtxoInfoWithSize :=
  (storageOrder host s.utxos).filterMap fun e =>
    if e.2.status = .available then some e.2.inner else none

/-- An unconfirmed coin no longer counts for its submitter. -/
def discount (s : Blaze AccountId) (voters : List AccountId) : Blaze AccountId :=
  match voters.head? with
  | some submitter =>
      { s with
        unconfirmedUtxoCount := s.unconfirmedUtxoCount.insert submitter
          (s.unconfirmedUtxoCount.getD submitter 0 - 1) }
  | none => s

/-- `clear_utxos`. -/
def clearUtxos (host : Host AccountId) (s : Blaze AccountId) : Blaze AccountId :=
  (storageOrder host s.utxos).foldl (fun s (hash, utxo) =>
    if utxo.status = .used then s
    else
      let s := if utxo.status = .unconfirmed then s.discount utxo.voters else s
      { s with utxos := s.utxos.remove hash }) s

/-- The inputs of a transaction get a status. -/
def setStatus (s : Blaze AccountId) (status : UtxoStatus) (inputs : List UtxoInfoWithSize) :
    Except Error (Blaze AccountId) :=
  inputs.foldlM (fun s input => do
    let utxo ← okOr (s.utxos.get input.hash) .utxoDNE
    return { s with utxos := s.utxos.insert input.hash { utxo with status } }) s

/-- `lock_utxos`. -/
def lockUtxos (s : Blaze AccountId) (txid : H256) (inputs : List UtxoInfoWithSize) :
    Except Error (Blaze AccountId) := do
  let s ← s.setStatus .locked inputs
  return { s with pendingTxs := s.pendingTxs.insert txid ⟨inputs, []⟩ }

/-- `unlock_utxos`. -/
def unlockUtxos (s : Blaze AccountId) (txid : H256) : Except Error (Blaze AccountId) := do
  let tx ← okOr (s.pendingTxs.get txid) .unknownTransaction
  { s with pendingTxs := s.pendingTxs.remove txid }.setStatus .available tx.inputs

/-- `extract_utxos_from_psbt`.  An input that does not say what it spends panics in the source, and is
not there after `try_psbt_fee_verification`. -/
def extractUtxosFromPsbt (host : Host AccountId) (s : Blaze AccountId) (psbt : Psbt) :
    Except Error (List UtxoInfoWithSize) :=
  (psbt.unsignedTx.input.zip psbt.inputs).mapM fun (txin, input) => do
    let spent ← okOr (Psbt.fundingUtxo txin input) .unknownUtxo
    let found := (storageOrder host s.utxos).find? fun e =>
      e.2.inner.txid = txin.previousOutput.txid ∧ e.2.inner.vout = txin.previousOutput.vout ∧
        e.2.inner.amount = spent.value
    okOr (found.map fun e => e.2.inner) .utxoDNE

/-- `clear_outbound_pool`. -/
def clearOutboundPool (s : Blaze AccountId) (targets : List Bytes) : Blaze AccountId :=
  { s with outboundPool := s.outboundPool.filter (· ∉ targets) }

/-- The fee rates that have not expired. -/
def liveFeeRates (s : Blaze AccountId) (n : ℕ) : StorageMap AccountId FeeRate :=
  s.feeRates.filterKeys fun k => (s.feeRates.get k).any fun rate => n ≤ rate.expiresAt

/-- The entry in the middle of the sorted list. -/
def median (rates : List ℕ) : ℕ := (rates.insertionSort (· ≤ ·)).getD (rates.length / 2) 0

/-- `try_fee_rate_finalization`.  Without any fee rate and any relayer the source panics. -/
def tryFeeRateFinalization (majority : ℕ) (s : Blaze AccountId) (n : ℕ) :
    Blaze AccountId × Option (ℕ × ℕ) :=
  let feeRates := s.liveFeeRates n
  let rates := feeRates.toList.map Prod.snd
  let ltFeeRate := median (rates.map FeeRate.ltFeeRate)
  let feeRate := median (rates.map FeeRate.feeRate)
  ({ s with feeRates },
    if majority ≤ rates.length ∧ ltFeeRate ≤ feeRate then some (ltFeeRate, feeRate) else none)

/-- `clear_fee_rates`. -/
def clearFeeRates (s : Blaze AccountId) : Blaze AccountId := { s with feeRates := ∅ }

/-- `handle_tolerance_counter`. -/
def handleToleranceCounter (host : Host AccountId) (s : Blaze AccountId) (isIncrease : Bool) :
    Blaze AccountId :=
  let next := if isIncrease then min (s.toleranceCounter + 1) (2 ^ 32 - 1) else s.toleranceCounter - 1
  if host.toleranceThreshold < next then { s with isActivated := false, toleranceCounter := 0 }
  else { s with toleranceCounter := next }

/-- `ensure_activation`. -/
def ensureActivation (s : Blaze AccountId) (isActivated : Bool) : Except Error Unit :=
  ensure (s.isActivated = isActivated) .invalidActivationState

/-- `verify_authority`. -/
def verifyAuthority (relayers : Relayers AccountId) (authorityId : AccountId) : Except Error Unit :=
  ensure (relayers.isAuthority authorityId) .badSigner

/-! ## Calls -/

/-- `set_activation`. -/
def setActivation (s : Blaze AccountId) (origin : Origin AccountId) (isActivated : Bool) :
    Except Error (Blaze AccountId) := do
  ensure (origin matches .root) .badOrigin
  ensure (s.isActivated ≠ isActivated) .noWritingSameValue
  return { s with isActivated, pendingTxs := if isActivated then ∅ else s.pendingTxs }

/-- A coin with the size that it adds to a transaction. -/
def withSize (host : Host AccountId) (utxo : UtxoInfo) (descriptor : Descriptor) :
    Option UtxoInfoWithSize := do
  let inputVbytes ← estimateFinalizedInputSize host.lib descriptor.scriptCode none
  return ⟨utxo.hash host, utxo.txid, utxo.vout, utxo.amount, descriptor.text, inputVbytes⟩

/-- Another vote for a coin that `submit_utxos` finds. -/
def voteUtxo (relayers : Relayers AccountId) (s : Blaze AccountId) (authorityId : AccountId)
    (hash : H256) (u : Utxo AccountId) : Except Error (Blaze AccountId) := do
  ensure (u.voters.length < maxAuthorities) .outOfRange
  let voters := u.voters ++ [authorityId]
  if relayers.majority ≤ voters.length then
    let s := s.discount voters
    return { s with utxos := s.utxos.insert hash { u with voters, status := .available } }
  else return { s with utxos := s.utxos.insert hash { u with voters } }

/-- One coin of `submit_utxos`. -/
def submitUtxo (host : Host AccountId) (relayers : Relayers AccountId)
    (getBondedDescriptor : Bytes → Option Descriptor) (authorityId : AccountId) (s : Blaze AccountId)
    (utxo : UtxoInfo) : Except Error (Blaze AccountId) :=
  match getBondedDescriptor utxo.address with
  | none => return s
  | some descriptor =>
      match s.utxos.get (utxo.hash host) with
      | some u =>
          if u.status ≠ .unconfirmed ∨ authorityId ∈ u.voters then return s
          else s.voteUtxo relayers authorityId (utxo.hash host) u
      | none =>
          let count := s.unconfirmedUtxoCount.getD authorityId 0
          if maxUnconfirmedUtxosPerRelayer ≤ count then return s
          else match withSize host utxo descriptor with
            | none => return s
            | some inner =>
                return { s with
                  utxos := s.utxos.insert (utxo.hash host) ⟨inner, .unconfirmed, [authorityId]⟩
                  unconfirmedUtxoCount := s.unconfirmedUtxoCount.insert authorityId (count + 1) }

/-- `submit_utxos`. -/
def submitUtxos (host : Host AccountId) (relayers : Relayers AccountId)
    (getBondedDescriptor : Bytes → Option Descriptor) (s : Blaze AccountId)
    (sub : UtxoSubmission AccountId) : Except Error (Blaze AccountId) := do
  ensure (sub.utxos.length ≤ maxUtxosPerSubmission) .exhaustsResources
  verifyAuthority relayers sub.authorityId
  s.ensureActivation true
  ensure (sub.utxos ≠ []) .emptySubmission
  sub.utxos.foldlM (submitUtxo host relayers getBondedDescriptor sub.authorityId) s

/-- `broadcast_poll`. -/
def broadcastPoll (relayers : Relayers AccountId) (s : Blaze AccountId)
    (sub : BroadcastSubmission AccountId) : Except Error (Blaze AccountId) := do
  verifyAuthority relayers sub.authorityId
  s.ensureActivation true
  ensure (!s.confirmedTxs.contains sub.txid) .alreadySpent
  let tx ← okOr (s.pendingTxs.get sub.txid) .unknownTransaction
  ensure (sub.authorityId ∉ tx.voters) .alreadyVoted
  ensure (tx.voters.length < maxAuthorities) .outOfRange
  let voted := { tx with voters := tx.voters ++ [sub.authorityId] }
  if relayers.majority ≤ voted.voters.length then
    let confirmedTxs := s.confirmedTxs.insert sub.txid voted
    let pendingTxs := s.pendingTxs.remove sub.txid
    { s with confirmedTxs, pendingTxs }.setStatus .used tx.inputs
  else return { s with pendingTxs := s.pendingTxs.insert sub.txid voted }

/-- `submit_fee_rate`. -/
def submitFeeRate (host : Host AccountId) (relayers : Relayers AccountId) (maxFeeRate now : ℕ)
    (s : Blaze AccountId) (sub : FeeRateSubmission AccountId) : Except Error (Blaze AccountId) := do
  verifyAuthority relayers sub.authorityId
  ensure (now ≤ sub.deadline) .stale
  s.ensureActivation true
  ensure (1 ≤ sub.ltFeeRate ∧ sub.ltFeeRate ≤ maxFeeRate) .outOfRange
  ensure (1 ≤ sub.feeRate ∧ sub.feeRate ≤ maxFeeRate) .outOfRange
  let feeRates ← okOr (s.feeRates.tryInsert maxAuthorities sub.authorityId
    ⟨sub.ltFeeRate, sub.feeRate, now + host.feeRateExpiration⟩) .outOfRange
  return { s with feeRates }

/-- One message of `submit_outbound_requests`: the pool, and the sequences in it. -/
def submitOutboundRequest (host : Host AccountId) (verifySocketMessage : Bytes → Bool)
    (pool : List Bytes × List U256) (message : Bytes) : List Bytes × List U256 :=
  if message ∈ pool.1 then pool
  else match SocketMessage.tryFrom host.codec message with
    | none => pool
    | some msg =>
        if msg.reqId.sequence ∈ pool.2 then pool
        else if verifySocketMessage message then
          (pool.1 ++ [message], pool.2 ++ [msg.reqId.sequence])
        else pool

/-- `submit_outbound_requests`, which does not need Blaze to be activated. -/
def submitOutboundRequests (host : Host AccountId) (relayers : Relayers AccountId)
    (maxSocketMessageBytes : ℕ) (verifySocketMessage : Bytes → Bool) (s : Blaze AccountId)
    (sub : SocketMessagesSubmission AccountId) : Except Error (Blaze AccountId) := do
  ensure (sub.messages.length ≤ maxSocketMessagesPerSubmission) .exhaustsResources
  ensure (∀ m ∈ sub.messages, m.length ≤ maxSocketMessageBytes) .exhaustsResources
  verifyAuthority relayers sub.authorityId
  ensure (sub.messages ≠ []) .emptySubmission
  let sequences := s.outboundPool.filterMap fun m =>
    (SocketMessage.tryFrom host.codec m).map fun msg => msg.reqId.sequence
  return { s with
    outboundPool := (sub.messages.foldl (submitOutboundRequest host verifySocketMessage)
      (s.outboundPool, sequences)).1 }

/-- One coin of `force_push_utxos`. -/
def forcePushUtxo (host : Host AccountId) (getBondedDescriptor : Bytes → Option Descriptor)
    (s : Blaze AccountId) (utxo : UtxoInfo) : Blaze AccountId :=
  match getBondedDescriptor utxo.address with
  | none => s
  | some descriptor =>
      if s.utxos.contains (utxo.hash host) then s
      else match withSize host utxo descriptor with
        | none => s
        | some inner =>
            { s with utxos := s.utxos.insert (utxo.hash host) ⟨inner, .available, []⟩ }

/-- `force_push_utxos`. -/
def forcePushUtxos (host : Host AccountId) (getBondedDescriptor : Bytes → Option Descriptor)
    (s : Blaze AccountId) (origin : Origin AccountId) (utxos : List UtxoInfo) :
    Except Error (Blaze AccountId) := do
  ensure (origin matches .root) .badOrigin
  s.ensureActivation false
  ensure (utxos ≠ []) .emptySubmission
  return utxos.foldl (forcePushUtxo host getBondedDescriptor) (s.clearUtxos host)

/-- `remove_outbound_messages`.  Its signer is checked by the socket queue. -/
def removeOutboundMessages (isQueueAuthority : AccountId → Bool) (s : Blaze AccountId)
    (sub : SocketMessagesSubmission AccountId) : Except Error (Blaze AccountId) := do
  ensure (isQueueAuthority sub.authorityId) .badSigner
  s.ensureActivation false
  ensure (sub.messages ≠ []) .emptySubmission
  return s.clearOutboundPool sub.messages

end Blaze

end BifrostNode.Btc
