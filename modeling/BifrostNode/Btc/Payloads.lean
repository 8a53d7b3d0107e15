import BifrostNode.Lib.Text
import BifrostNode.Btc.Bridge

/-!
# Signed payloads

The submissions to the Bitcoin pallets are unsigned transactions.  `validate_unsigned` accepts one when
the authority it names is entitled to it and has signed its payload.

**Payloads.**  Each call writes its own payload, some behind the hash of a tag, some not, and some
leave out what the call carries.  `Signed` is what a payload says, and no two payloads that say
different things are the same bytes (`Signed.bytes_inj`).

**Confusion.**  Two calls that say the same can still be different calls: `Confusable` lists how, and
`payload_binds` that there is no other way.
-/

namespace BifrostNode.Btc

open Cccp Staking Transition Pool Text

variable {AccountId Signature : Type}

/-! ## Calls -/

/-- The calls that are unsigned transactions. -/
inductive UnsignedCall (AccountId : Type)
  | submitVaultKey (sub : VaultKeySubmission AccountId)
  | submitSystemVaultKey (sub : VaultKeySubmission AccountId)
  | vaultKeyPresubmission (sub : VaultKeyPreSubmission AccountId)
  | approveSetRefunds (approval : SetRefundsApproval AccountId)
  | submitUnsignedPsbt (msg : Queue.UnsignedPsbtMessage AccountId)
  | submitSignedPsbt (msg : Queue.SignedPsbtMessage AccountId)
  | submitExecutedRequest (msg : Queue.ExecutedPsbtMessage AccountId)
  | submitRollbackPoll (msg : Queue.RollbackPollMessage AccountId)
  | submitUtxos (sub : Blaze.UtxoSubmission AccountId)
  | broadcastPoll (sub : Blaze.BroadcastSubmission AccountId)
  | submitFeeRate (sub : Blaze.FeeRateSubmission AccountId)
  | submitOutboundRequests (sub : Blaze.SocketMessagesSubmission AccountId)
  | removeOutboundMessages (sub : Blaze.SocketMessagesSubmission AccountId)

/-- The tags that a payload can start with the hash of. -/
inductive Tag
  | setRefundsApproval
  | unsignedPsbt
  | signedPsbt
  | executedPsbt
  | rollbackPoll
  | utxosSubmission
  | broadcastPoll
  deriving DecidableEq

def Tag.text : Tag → String
  | .setRefundsApproval => "SetRefundsApproval"
  | .unsignedPsbt => "UnsignedPsbt"
  | .signedPsbt => "SignedPsbt"
  | .executedPsbt => "ExecutedPsbt"
  | .rollbackPoll => "RollbackPoll"
  | .utxosSubmission => "UtxosSubmission"
  | .broadcastPoll => "BroadcastPoll"

def Tag.bytes (tag : Tag) : Bytes := ascii tag.text.toList

lemma Tag.bytes_injective : Function.Injective Tag.bytes := by
  intro a b h
  cases a <;> cases b <;> first | rfl | exact absurd h (by decide)

/-- `keccak_256` of a tag. -/
def Tag.hash (host : Host AccountId) (tag : Tag) : Bytes :=
  h256Bytes (host.codec.keccak256 tag.bytes)

/-- The bytes of an account. -/
def accountBytes (host : Host AccountId) (who : AccountId) : Bytes :=
  (toLeBytes 20 (host.h160Of who).val).reverse

namespace UnsignedCall

def authorityId : UnsignedCall AccountId → AccountId
  | submitVaultKey sub => sub.authorityId
  | submitSystemVaultKey sub => sub.authorityId
  | vaultKeyPresubmission sub => sub.authorityId
  | approveSetRefunds approval => approval.authorityId
  | submitUnsignedPsbt msg => msg.authorityId
  | submitSignedPsbt msg => msg.authorityId
  | submitExecutedRequest msg => msg.authorityId
  | submitRollbackPoll msg => msg.authorityId
  | submitUtxos sub => sub.authorityId
  | broadcastPoll sub => sub.authorityId
  | submitFeeRate sub => sub.authorityId
  | submitOutboundRequests sub => sub.authorityId
  | removeOutboundMessages sub => sub.authorityId

/-- The `message` whose signature is verified. -/
def payload (host : Host AccountId) : UnsignedCall AccountId → Bytes
  | submitVaultKey sub => ascii (decimal sub.poolRound ++ ':' :: hexString sub.pubKey)
  | submitSystemVaultKey sub => ascii (decimal sub.poolRound ++ ':' :: hexString sub.pubKey)
  | vaultKeyPresubmission sub =>
      ascii (decimal sub.poolRound ++ ':' :: sub.pubKeys.flatMap hexString)
  | approveSetRefunds approval =>
      Tag.setRefundsApproval.hash host ++
        ascii (decimal approval.poolRound ++ ':' :: (decimal approval.deadline ++ ':' ::
          approval.refundSets.flatMap fun x => hex (accountBytes host x.1)))
  | submitUnsignedPsbt msg => Tag.unsignedPsbt.hash host ++ msg.psbt
  | submitSignedPsbt msg => Tag.signedPsbt.hash host ++ msg.signedPsbt
  | submitExecutedRequest msg => Tag.executedPsbt.hash host ++ h256Bytes msg.txid
  | submitRollbackPoll msg =>
      Tag.rollbackPoll.hash host ++ (h256Bytes msg.txid ++ [if msg.isApproved then 1 else 0])
  | submitUtxos sub =>
      Tag.utxosSubmission.hash host ++
        ascii (sub.utxos.flatMap fun x => hex (h256Bytes (x.hash host)))
  | broadcastPoll sub => Tag.broadcastPoll.hash host ++ h256Bytes sub.txid
  | submitFeeRate sub =>
      ascii (decimal sub.deadline ++ ':' :: (decimal sub.ltFeeRate ++ ':' :: decimal sub.feeRate))
  | submitOutboundRequests sub => ascii (sub.messages.flatMap hexString)
  | removeOutboundMessages sub => ascii (sub.messages.flatMap hexString)

end UnsignedCall

/-! ## `validate_unsigned` -/

inductive InvalidTransaction
  | badSigner
  | badProof
  | stale
  | exhaustsResources
  deriving DecidableEq

/-- What a valid transaction provides a part of. -/
inductive Provided (AccountId Signature : Type)
  | account (who : AccountId)
  | signature (signature : Signature)
  | pubKeys (keys : List Bytes)
  | refundSets (sets : List (AccountId × Bytes))
  | txid (txid : H256)
  | number (n : ℕ)
  deriving DecidableEq

/-- A valid transaction.  All of them have the highest priority and are propagated. -/
structure ValidTransaction (AccountId Signature : Type) where
  tagPrefix : String
  provides : List (Provided AccountId Signature)
  deriving DecidableEq

section Validate

variable [LinearOrder AccountId]
variable (host : Host AccountId) (verify : Signature → Bytes → AccountId → Bool)
variable (v : View AccountId) (s : Bridge AccountId)

/-- The check that the call makes of its authority and its arguments. -/
def UnsignedCall.precheck : UnsignedCall AccountId → Except InvalidTransaction Unit
  | .submitVaultKey sub => ensure (sub.authorityId ∈ v.executives) .badSigner
  | .submitSystemVaultKey sub => ensure (sub.authorityId ∈ v.executives) .badSigner
  | .vaultKeyPresubmission sub => ensure (sub.authorityId ∈ v.executives) .badSigner
  | .approveSetRefunds approval => do
      ensure (s.queue.isLegacyAuthority approval.authorityId) .badSigner
      ensure (v.now ≤ approval.deadline) .stale
  | .submitUnsignedPsbt msg => ensure (s.isQueueAuthority v msg.authorityId) .badSigner
  | .submitSignedPsbt msg => ensure (s.isSigner v msg.authorityId) .badSigner
  | .submitExecutedRequest msg => ensure (s.isQueueAuthority v msg.authorityId) .badSigner
  | .submitRollbackPoll msg => ensure (v.relayers.isAuthority msg.authorityId) .badSigner
  | .submitUtxos sub => do
      ensure (sub.utxos.length ≤ Blaze.maxUtxosPerSubmission) .exhaustsResources
      ensure (v.relayers.isAuthority sub.authorityId) .badSigner
  | .broadcastPoll sub => ensure (v.relayers.isAuthority sub.authorityId) .badSigner
  | .submitFeeRate sub => do
      ensure (v.relayers.isAuthority sub.authorityId) .badSigner
      ensure (v.now ≤ sub.deadline) .stale
  | .submitOutboundRequests sub => do
      ensure (sub.messages.length ≤ Blaze.maxSocketMessagesPerSubmission) .exhaustsResources
      ensure (sub.messages.all fun m => m.length ≤ s.queue.maxSocketMessageBytes) .exhaustsResources
      ensure (v.relayers.isAuthority sub.authorityId) .badSigner
  | .removeOutboundMessages sub => ensure (s.isQueueAuthority v sub.authorityId) .badSigner

/-- The transaction that is built for an accepted call. -/
def UnsignedCall.build (sig : Signature) :
    UnsignedCall AccountId → ValidTransaction AccountId Signature
  | .submitVaultKey sub =>
      ⟨"RegPoolKeySubmission", [.account sub.authorityId, .account sub.who, .signature sig]⟩
  | .submitSystemVaultKey sub =>
      ⟨"SystemKeySubmission", [.account sub.authorityId, .account sub.who, .signature sig]⟩
  | .vaultKeyPresubmission sub =>
      ⟨"KeyPreSubmission", [.account sub.authorityId, .pubKeys sub.pubKeys, .signature sig]⟩
  | .approveSetRefunds approval =>
      ⟨"SetRefundsApproval", [.account approval.authorityId, .refundSets approval.refundSets]⟩
  | .submitUnsignedPsbt msg =>
      ⟨"UnsignedPsbtSubmission", [.account msg.authorityId, .signature sig]⟩
  | .submitSignedPsbt msg => ⟨"SignedPsbtSubmission", [.account msg.authorityId, .signature sig]⟩
  | .submitExecutedRequest msg =>
      ⟨"ExecutedPsbtSubmission", [.account msg.authorityId, .signature sig]⟩
  | .submitRollbackPoll msg =>
      ⟨"RollbackPollSubmission", [.account msg.authorityId, .signature sig]⟩
  | .submitUtxos sub => ⟨"UtxosSubmission", [.account sub.authorityId, .signature sig]⟩
  | .broadcastPoll sub =>
      ⟨"BroadcastPoll", [.account sub.authorityId, .txid sub.txid, .signature sig]⟩
  | .submitFeeRate sub =>
      ⟨"FeeRateSubmission", [.account sub.authorityId, .number sub.ltFeeRate, .number sub.feeRate,
        .signature sig]⟩
  | .submitOutboundRequests sub =>
      ⟨"OutboundRequestSubmission", [.account sub.authorityId, .signature sig]⟩
  | .removeOutboundMessages sub =>
      ⟨"RemoveOutboundMessagesSubmission", [.account sub.authorityId, .signature sig]⟩

/-- `validate_unsigned` of the three pallets. -/
def validateUnsigned (c : UnsignedCall AccountId) (sig : Signature) :
    Except InvalidTransaction (ValidTransaction AccountId Signature) := do
  c.precheck v s
  ensure (verify sig (c.payload host) c.authorityId) .badProof
  return c.build sig

end Validate

/-! ## What is signed -/

lemma toLeBytes_length (width n : ℕ) : (toLeBytes width n).length = width := by
  induction width generalizing n with
  | zero => rfl
  | succ width ih => simp [toLeBytes, ih]

lemma toLeBytes_inj {width m n : ℕ} (hm : m < 256 ^ width) (hn : n < 256 ^ width)
    (h : toLeBytes width m = toLeBytes width n) : m = n := by
  induction width generalizing m n with
  | zero => omega
  | succ width ih =>
      simp only [toLeBytes, List.cons.injEq] at h
      rw [Nat.pow_succ] at hm hn
      have hhigh := ih (by omega) (by omega) h.2
      have hlow := congrArg UInt8.toNat h.1
      simp only [UInt8.toNat_ofNat'] at hlow
      omega

lemma h256Bytes_length (h : H256) : (h256Bytes h).length = 32 := by
  simp [h256Bytes, toLeBytes_length]

lemma h256Bytes_injective : Function.Injective h256Bytes := by
  intro a b h
  have hbytes := List.reverse_injective h
  exact Fin.ext (toLeBytes_inj (by have := a.isLt; omega) (by have := b.isLt; omega) hbytes)

lemma accountBytes_length (host : Host AccountId) (who : AccountId) :
    (accountBytes host who).length = 20 := by
  simp [accountBytes, toLeBytes_length]

lemma accountBytes_injective {host : Host AccountId} (hacc : Function.Injective host.h160Of) :
    Function.Injective (accountBytes host) := by
  intro a b h
  have hbytes := List.reverse_injective h
  refine hacc (Fin.ext (toLeBytes_inj ?_ ?_ hbytes))
  · have := (host.h160Of a).isLt
    omega
  · have := (host.h160Of b).isLt
    omega

/-- `vout` is a `u32`, and `amount` a `u64`. -/
structure UtxoInfo.Fits (u : UtxoInfo) : Prop where
  vout : u.vout < 2 ^ 32
  amount : u.amount < 2 ^ 64

/-- A longer vector has a longer encoding. -/
lemma compact_length_mono {m n : ℕ} (h : m ≤ n) : (compact m).length ≤ (compact n).length := by
  simp only [compact]
  split_ifs <;> simp only [toLeBytes_length, List.length_cons] <;> omega

lemma UtxoInfo.encode_inj {u w : UtxoInfo} (hu : u.Fits) (hw : w.Fits) (h : u.encode = w.encode) :
    u = w := by
  have hlength := congrArg List.length h
  simp only [UtxoInfo.encode, List.length_append, h256Bytes_length, toLeBytes_length] at hlength
  -- the encodings are equally long only if the addresses are
  have haddress : u.address.length = w.address.length := by
    rcases le_total u.address.length w.address.length with hle | hle
    · have := compact_length_mono hle
      omega
    · have := compact_length_mono hle
      omega
  rw [UtxoInfo.encode, UtxoInfo.encode] at h
  rcases List.append_inj h (by simp [h256Bytes_length]) with ⟨htxid, h⟩
  rcases List.append_inj h (by simp [toLeBytes_length]) with ⟨hvout, h⟩
  rcases List.append_inj h (by simp [toLeBytes_length]) with ⟨hamount, h⟩
  rcases List.append_inj h (by rw [haddress]) with ⟨-, haddress⟩
  cases u
  cases w
  simp only [UtxoInfo.mk.injEq]
  exact ⟨h256Bytes_injective htxid, toLeBytes_inj hu.vout hw.vout hvout,
    toLeBytes_inj hu.amount hw.amount hamount, haddress⟩

/-- What a payload says. -/
inductive Signed (AccountId : Type)
  | keys (round : ℕ) (keys : List Bytes)
  | refunds (round deadline : ℕ) (users : List AccountId)
  | unsignedPsbt (psbt : Bytes)
  | signedPsbt (psbt : Bytes)
  | executed (txid : H256)
  | rollback (txid : H256) (isApproved : Bool)
  | utxos (utxos : List UtxoInfo)
  | broadcast (txid : H256)
  | feeRate (deadline ltFeeRate feeRate : ℕ)
  | messages (messages : List Bytes)

def UnsignedCall.signed : UnsignedCall AccountId → Signed AccountId
  | submitVaultKey sub => .keys sub.poolRound [sub.pubKey]
  | submitSystemVaultKey sub => .keys sub.poolRound [sub.pubKey]
  | vaultKeyPresubmission sub => .keys sub.poolRound sub.pubKeys
  | approveSetRefunds approval =>
      .refunds approval.poolRound approval.deadline (approval.refundSets.map Prod.fst)
  | submitUnsignedPsbt msg => .unsignedPsbt msg.psbt
  | submitSignedPsbt msg => .signedPsbt msg.signedPsbt
  | submitExecutedRequest msg => .executed msg.txid
  | submitRollbackPoll msg => .rollback msg.txid msg.isApproved
  | submitUtxos sub => .utxos sub.utxos
  | broadcastPoll sub => .broadcast sub.txid
  | submitFeeRate sub => .feeRate sub.deadline sub.ltFeeRate sub.feeRate
  | submitOutboundRequests sub => .messages sub.messages
  | removeOutboundMessages sub => .messages sub.messages

namespace Signed

/-- The tag in front. -/
def tag : Signed AccountId → Option Tag
  | keys _ _ => none
  | refunds _ _ _ => some .setRefundsApproval
  | unsignedPsbt _ => some .unsignedPsbt
  | signedPsbt _ => some .signedPsbt
  | executed _ => some .executedPsbt
  | rollback _ _ => some .rollbackPoll
  | utxos _ => some .utxosSubmission
  | broadcast _ => some .broadcastPoll
  | feeRate _ _ _ => none
  | messages _ => none

/-- The text of what is written as a text. -/
def text (host : Host AccountId) : Signed AccountId → List Char
  | keys round ks => decimal round ++ ':' :: ks.flatMap hexString
  | refunds round deadline users => decimal round ++ ':' :: (decimal deadline ++ ':' ::
      users.flatMap fun who => hex (accountBytes host who))
  | utxos us => us.flatMap fun x => hex (h256Bytes (x.hash host))
  | feeRate deadline lt fee => decimal deadline ++ ':' :: (decimal lt ++ ':' :: decimal fee)
  | messages ms => ms.flatMap hexString
  | _ => []

/-- What follows the tag. -/
def body (host : Host AccountId) : Signed AccountId → Bytes
  | unsignedPsbt psbt => psbt
  | signedPsbt psbt => psbt
  | executed txid => h256Bytes txid
  | rollback txid isApproved => h256Bytes txid ++ [if isApproved then 1 else 0]
  | broadcast txid => h256Bytes txid
  | d => ascii (d.text host)

def bytes (host : Host AccountId) (d : Signed AccountId) : Bytes :=
  (d.tag.elim [] fun tag => tag.hash host) ++ d.body host

end Signed

lemma UnsignedCall.payload_eq (host : Host AccountId) (c : UnsignedCall AccountId) :
    c.payload host = c.signed.bytes host := by
  cases c <;>
    simp [payload, signed, Signed.bytes, Signed.tag, Signed.body, Signed.text, List.flatMap_map]

lemma Signed.text_isAscii (host : Host AccountId) (d : Signed AccountId) : IsAscii (d.text host) := by
  have hdecimal : ∀ n, IsAscii (decimal n) := fun n => isAscii_of_digits (decimal_digits n)
  have hhex : ∀ b, IsAscii (hex b) := fun b => isAscii_of_digits (hex_digits b)
  have hcolon : (':' : Char).toNat < 128 := by decide
  cases d with
  | keys round keys => exact (hdecimal _).append (.cons hcolon (isAscii_flatMap_hexString _))
  | refunds round deadline users =>
      exact (hdecimal _).append (.cons hcolon ((hdecimal _).append (.cons hcolon
        (.flatMap fun _ _ => hhex _))))
  | utxos utxos => exact .flatMap fun _ _ => hhex _
  | feeRate deadline ltFeeRate feeRate =>
      exact (hdecimal _).append (.cons hcolon ((hdecimal _).append (.cons hcolon (hdecimal _))))
  | messages messages => exact isAscii_flatMap_hexString _
  | _ => simp [Signed.text, IsAscii]

/-! ## Payloads say what they say -/

namespace Signed

/-- The coins that are hashed for it. -/
def coins : Signed AccountId → List UtxoInfo
  | utxos us => us
  | _ => []

/-- What is hashed for it, next to the tags. -/
def hashed (d : Signed AccountId) : Set Bytes := Set.range Tag.bytes ∪ {b | ∃ u ∈ d.coins, b = u.encode}

section Binding

variable {host : Host AccountId} {d d' : Signed AccountId}

lemma untagged_inj (hd : d.tag = none) (hd' : d'.tag = none) (h : d.text host = d'.text host) :
    d = d' := by
  have hdecimal : ∀ n, ':' ∉ decimal n := fun n => colon_notMem_of_digits (decimal_digits n)
  -- the number of colons tells which of the three it is
  have hcount := congrArg (List.count ':') h
  have hzero : ∀ n, (decimal n).count ':' = 0 := fun n => List.count_eq_zero.mpr (hdecimal n)
  have hzero' : ∀ ks : List Bytes, (ks.flatMap hexString).count ':' = 0 := fun ks =>
    List.count_eq_zero.mpr (colon_notMem_flatMap_hexString ks)
  cases d with
  | keys round ks =>
      cases d' with
      | keys round' ks' =>
          rcases append_cons_inj (hdecimal _) (hdecimal _) h with ⟨hround, hkeys⟩
          rw [decimal_injective hround, flatMap_hexString_injective hkeys]
      | feeRate _ _ _ => simp [text, hzero, hzero'] at hcount
      | messages _ => simp [text, hzero, hzero'] at hcount
      | _ => simp [tag] at hd'
  | feeRate deadline lt fee =>
      cases d' with
      | keys _ _ => simp [text, hzero, hzero'] at hcount
      | feeRate deadline' lt' fee' =>
          rcases append_cons_inj (hdecimal _) (hdecimal _) h with ⟨hdeadline, h⟩
          rcases append_cons_inj (hdecimal _) (hdecimal _) h with ⟨hlt, hfee⟩
          rw [decimal_injective hdeadline, decimal_injective hlt, decimal_injective hfee]
      | messages _ => simp [text, hzero, hzero'] at hcount
      | _ => simp [tag] at hd'
  | messages ms =>
      cases d' with
      | keys _ _ => simp [text, hzero, hzero'] at hcount
      | feeRate _ _ _ => simp [text, hzero, hzero'] at hcount
      | messages ms' => rw [flatMap_hexString_injective h]
      | _ => simp [tag] at hd'
  | _ => simp [tag] at hd

lemma refunds_inj (hacc : Function.Injective host.h160Of) {round round' deadline deadline' : ℕ}
    {users users' : List AccountId}
    (h : (refunds round deadline users).text host = (refunds round' deadline' users').text host) :
    refunds round deadline users = refunds round' deadline' users' := by
  have hdecimal : ∀ n, ':' ∉ decimal n := fun n => colon_notMem_of_digits (decimal_digits n)
  have hwidth : ∀ who, (hex (accountBytes host who)).length = 40 := by
    intro who
    rw [hex_length, accountBytes_length]
  rcases append_cons_inj (hdecimal _) (hdecimal _) h with ⟨hround, h⟩
  rcases append_cons_inj (hdecimal _) (hdecimal _) h with ⟨hdeadline, h⟩
  have husers := flatMap_injOn (by omega) hwidth
    (fun _ _ _ _ h => accountBytes_injective hacc (hex_injective h)) h
  rw [decimal_injective hround, decimal_injective hdeadline, husers]

lemma utxos_inj {us us' : List UtxoInfo}
    (hkeccak : Set.InjOn host.codec.keccak256
      ((utxos us : Signed AccountId).hashed ∪ (utxos us' : Signed AccountId).hashed))
    (hus : ∀ u ∈ us, u.Fits) (hus' : ∀ u ∈ us', u.Fits)
    (h : (utxos us).text host = (utxos us').text host) : us = us' := by
  have hwidth : ∀ u : UtxoInfo, (hex (h256Bytes (u.hash host))).length = 64 := by
    intro u
    rw [hex_length, h256Bytes_length]
  refine flatMap_injOn (by omega) hwidth ?_ h
  intro u hu u' hu' heq
  have hhash : u.hash host = u'.hash host := h256Bytes_injective (hex_injective heq)
  exact UtxoInfo.encode_inj (hus u hu) (hus' u' hu')
    (hkeccak (.inl (.inr ⟨u, hu, rfl⟩)) (.inr (.inr ⟨u', hu', rfl⟩)) hhash)

/-- Behind one tag, the rest tells what is said. -/
lemma tagged_inj (hkeccak : Set.InjOn host.codec.keccak256 (d.hashed ∪ d'.hashed))
    (hacc : Function.Injective host.h160Of) (hd : ∀ u ∈ d.coins, u.Fits)
    (hd' : ∀ u ∈ d'.coins, u.Fits) (hsome : d.tag ≠ none) (ht : d.tag = d'.tag)
    (h : d.body host = d'.body host) : d = d' := by
  have htext : ∀ {e e' : Signed AccountId}, ascii (e.text host) = ascii (e'.text host) →
      e.text host = e'.text host := fun h => ascii_inj (text_isAscii _ _) (text_isAscii _ _) h
  cases d with
  | refunds round deadline users =>
      cases d' with
      | refunds round' deadline' users' => exact refunds_inj hacc (htext h)
      | _ => simp [tag] at ht
  | unsignedPsbt psbt =>
      cases d' with
      | unsignedPsbt psbt' => exact congrArg unsignedPsbt h
      | _ => simp [tag] at ht
  | signedPsbt psbt =>
      cases d' with
      | signedPsbt psbt' => exact congrArg signedPsbt h
      | _ => simp [tag] at ht
  | executed txid =>
      cases d' with
      | executed txid' => exact congrArg executed (h256Bytes_injective h)
      | _ => simp [tag] at ht
  | rollback txid isApproved =>
      cases d' with
      | rollback txid' isApproved' =>
          rcases List.append_inj h (by simp [h256Bytes_length]) with ⟨htxid, hvote⟩
          have hvote : isApproved = isApproved' := by
            cases isApproved <;> cases isApproved' <;> simp_all
          rw [h256Bytes_injective htxid, hvote]
      | _ => simp [tag] at ht
  | utxos us =>
      cases d' with
      | utxos us' => exact congrArg utxos (utxos_inj hkeccak hd hd' (htext h))
      | _ => simp [tag] at ht
  | broadcast txid =>
      cases d' with
      | broadcast txid' => exact congrArg broadcast (h256Bytes_injective h)
      | _ => simp [tag] at ht
  | _ => simp [tag] at hsome

lemma body_of_untagged (h : d.tag = none) : d.body host = ascii (d.text host) := by
  cases d <;> first | rfl | simp [tag] at h

/-- Different things said are different bytes. -/
lemma bytes_inj (hkeccak : Set.InjOn host.codec.keccak256 (d.hashed ∪ d'.hashed))
    (htags : ∀ tag : Tag, ∃ b ∈ tag.hash host, 128 ≤ b.toNat)
    (hacc : Function.Injective host.h160Of) (hd : ∀ u ∈ d.coins, u.Fits)
    (hd' : ∀ u ∈ d'.coins, u.Fits) (h : d.bytes host = d'.bytes host) : d = d' := by
  -- a tag has a byte that no text has
  have hmixed : ∀ {e e' : Signed AccountId} {t : Tag}, e.tag = none → e'.tag = some t →
      e.bytes host ≠ e'.bytes host := by
    intro e e' t he he' heq
    obtain ⟨b, hb, hlarge⟩ := htags t
    have hmem : b ∈ ascii (e.text host) := by
      rw [← body_of_untagged he, show e.body host = e.bytes host by simp [bytes, he], heq]
      simp [bytes, he', hb]
    have := toNat_lt_of_mem_ascii (text_isAscii host e) hmem
    omega
  rcases ht : d.tag with _ | t <;> rcases ht' : d'.tag with _ | t'
  · simp only [bytes, ht, ht', Option.elim_none, List.nil_append, body_of_untagged ht,
      body_of_untagged ht'] at h
    exact untagged_inj ht ht' (ascii_inj (text_isAscii _ _) (text_isAscii _ _) h)
  · exact absurd h (hmixed ht ht')
  · exact absurd h.symm (hmixed ht' ht)
  · simp only [bytes, ht, ht', Option.elim_some] at h
    rcases List.append_inj h (by simp [Tag.hash, h256Bytes_length]) with ⟨htag, hbody⟩
    have htag : t.bytes = t'.bytes :=
      hkeccak (.inl (.inl ⟨t, rfl⟩)) (.inl (.inl ⟨t', rfl⟩)) (h256Bytes_injective htag)
    have htag : t = t' := Tag.bytes_injective htag
    subst htag
    exact tagged_inj hkeccak hacc hd hd' (by simp [ht]) (ht.trans ht'.symm) hbody

end Binding

end Signed

/-! ## Confusion -/

/-- The keys that a call submits, and for which round. -/
def UnsignedCall.keys : UnsignedCall AccountId → Option (ℕ × List Bytes)
  | submitVaultKey sub => some (sub.poolRound, [sub.pubKey])
  | submitSystemVaultKey sub => some (sub.poolRound, [sub.pubKey])
  | vaultKeyPresubmission sub => some (sub.poolRound, sub.pubKeys)
  | _ => none

/-- Two calls of one authority that differ only in what no payload tells. -/
inductive Confusable (c c' : UnsignedCall AccountId) : Prop
  /-- Which of the three calls it is, and for which user. -/
  | keys {round : ℕ} {keys : List Bytes} (hc : c.keys = some (round, keys))
      (hc' : c'.keys = some (round, keys)) (hne : c ≠ c')
  /-- The new refund addresses. -/
  | refunds {a a' : SetRefundsApproval AccountId} (hc : c = .approveSetRefunds a)
      (hc' : c' = .approveSetRefunds a') (hround : a.poolRound = a'.poolRound)
      (hdeadline : a.deadline = a'.deadline)
      (husers : a.refundSets.map Prod.fst = a'.refundSets.map Prod.fst)
      (hne : a.refundSets.map Prod.snd ≠ a'.refundSets.map Prod.snd)
  /-- The messages that the outputs of a transaction pay. -/
  | outputs {m m' : Queue.UnsignedPsbtMessage AccountId} (hc : c = .submitUnsignedPsbt m)
      (hc' : c' = .submitUnsignedPsbt m') (hpsbt : m.psbt = m'.psbt) (hne : m.outputs ≠ m'.outputs)
  /-- The transaction that is signed. -/
  | unsignedPsbt {m m' : Queue.SignedPsbtMessage AccountId} (hc : c = .submitSignedPsbt m)
      (hc' : c' = .submitSignedPsbt m') (hsigned : m.signedPsbt = m'.signedPsbt)
      (hne : m.unsignedPsbt ≠ m'.unsignedPsbt)
  /-- Whether messages enter the pool or leave it. -/
  | removed {m m' : Blaze.SocketMessagesSubmission AccountId} (hc : c = .submitOutboundRequests m)
      (hc' : c' = .removeOutboundMessages m') (hmessages : m.messages = m'.messages)
  | submitted {m m' : Blaze.SocketMessagesSubmission AccountId} (hc : c = .removeOutboundMessages m)
      (hc' : c' = .submitOutboundRequests m') (hmessages : m.messages = m'.messages)

section Confusion

variable {c c' : UnsignedCall AccountId}

lemma UnsignedCall.signed_eq_keys_iff {round : ℕ} {keys : List Bytes} :
    c.signed = .keys round keys ↔ c.keys = some (round, keys) := by
  cases c <;> simp [UnsignedCall.signed, UnsignedCall.keys]

lemma Confusable.ne (h : Confusable c c') : c ≠ c' := by
  cases h with
  | keys _ _ hne => exact hne
  | refunds hc hc' _ _ _ hne =>
      rintro rfl
      rw [hc, UnsignedCall.approveSetRefunds.injEq] at hc'
      exact hne (by rw [hc'])
  | outputs hc hc' _ hne =>
      rintro rfl
      rw [hc, UnsignedCall.submitUnsignedPsbt.injEq] at hc'
      exact hne (by rw [hc'])
  | unsignedPsbt hc hc' _ hne =>
      rintro rfl
      rw [hc, UnsignedCall.submitSignedPsbt.injEq] at hc'
      exact hne (by rw [hc'])
  | removed hc hc' _ => simp [hc, hc']
  | submitted hc hc' _ => simp [hc, hc']

lemma Confusable.signed (h : Confusable c c') : c.signed = c'.signed := by
  cases h with
  | keys hc hc' _ =>
      rw [UnsignedCall.signed_eq_keys_iff.mpr hc, UnsignedCall.signed_eq_keys_iff.mpr hc']
  | refunds hc hc' hround hdeadline husers _ =>
      simp [hc, hc', UnsignedCall.signed, hround, hdeadline, husers]
  | outputs hc hc' hpsbt _ => simp [hc, hc', UnsignedCall.signed, hpsbt]
  | unsignedPsbt hc hc' hsigned _ => simp [hc, hc', UnsignedCall.signed, hsigned]
  | removed hc hc' hmessages => simp [hc, hc', UnsignedCall.signed, hmessages]
  | submitted hc hc' hmessages => simp [hc, hc', UnsignedCall.signed, hmessages]

/-- Calls of one authority that say the same are the same or `Confusable`. -/
lemma UnsignedCall.eq_or_confusable (hauth : c.authorityId = c'.authorityId)
    (h : c.signed = c'.signed) : c = c' ∨ Confusable c c' := by
  by_contra hcon
  rw [not_or] at hcon
  rcases hcon with ⟨hne, hnot⟩
  have hkeys : ∀ round keys, c.signed = .keys round keys → False := fun round keys hc =>
    hnot (.keys (signed_eq_keys_iff.mp hc) (signed_eq_keys_iff.mp (h ▸ hc)) hne)
  cases c with
  | submitVaultKey sub => exact hkeys _ _ rfl
  | submitSystemVaultKey sub => exact hkeys _ _ rfl
  | vaultKeyPresubmission sub => exact hkeys _ _ rfl
  | approveSetRefunds a =>
      cases c' with
      | approveSetRefunds a' =>
          simp only [signed, Signed.refunds.injEq] at h
          refine hnot (.refunds rfl rfl h.1 h.2.1 h.2.2 fun hsnd => hne ?_)
          have hsets : a.refundSets = a'.refundSets := by
            rw [← List.zip_unzip a.refundSets, ← List.zip_unzip a'.refundSets]
            simp only [List.unzip_fst, List.unzip_snd, h.2.2, hsnd]
          cases a
          cases a'
          simp only [authorityId] at hauth h hsets
          simp [hauth, h, hsets]
      | _ => simp [signed] at h
  | submitUnsignedPsbt m =>
      cases c' with
      | submitUnsignedPsbt m' =>
          simp only [signed, Signed.unsignedPsbt.injEq] at h
          refine hnot (.outputs rfl rfl h fun houtputs => hne ?_)
          cases m
          cases m'
          simp_all [authorityId]
      | _ => simp [signed] at h
  | submitSignedPsbt m =>
      cases c' with
      | submitSignedPsbt m' =>
          simp only [signed, Signed.signedPsbt.injEq] at h
          refine hnot (.unsignedPsbt rfl rfl h fun hunsigned => hne ?_)
          cases m
          cases m'
          simp_all [authorityId]
      | _ => simp [signed] at h
  | submitExecutedRequest m =>
      cases c' with
      | submitExecutedRequest m' =>
          cases m
          cases m'
          simp_all [authorityId, signed]
      | _ => simp [signed] at h
  | submitRollbackPoll m =>
      cases c' with
      | submitRollbackPoll m' =>
          cases m
          cases m'
          simp_all [authorityId, signed]
      | _ => simp [signed] at h
  | submitUtxos m =>
      cases c' with
      | submitUtxos m' =>
          cases m
          cases m'
          simp_all [authorityId, signed]
      | _ => simp [signed] at h
  | broadcastPoll m =>
      cases c' with
      | broadcastPoll m' =>
          cases m
          cases m'
          simp_all [authorityId, signed]
      | _ => simp [signed] at h
  | submitFeeRate m =>
      cases c' with
      | submitFeeRate m' =>
          cases m
          cases m'
          simp_all [authorityId, signed]
      | _ => simp [signed] at h
  | submitOutboundRequests m =>
      cases c' with
      | submitOutboundRequests m' =>
          cases m
          cases m'
          simp_all [authorityId, signed]
      | removeOutboundMessages m' => exact hnot (.removed rfl rfl (by simpa [signed] using h))
      | _ => simp [signed] at h
  | removeOutboundMessages m =>
      cases c' with
      | submitOutboundRequests m' => exact hnot (.submitted rfl rfl (by simpa [signed] using h))
      | removeOutboundMessages m' =>
          cases m
          cases m'
          simp_all [authorityId, signed]
      | _ => simp [signed] at h

end Confusion

lemma validateUnsigned_verified [LinearOrder AccountId] {host : Host AccountId}
    {verify : Signature → Bytes → AccountId → Bool} {v : View AccountId} {s : Bridge AccountId}
    {c : UnsignedCall AccountId} {sig : Signature} {tx : ValidTransaction AccountId Signature}
    (h : validateUnsigned host verify v s c sig = .ok tx) :
    verify sig (c.payload host) c.authorityId = true := by
  simp only [validateUnsigned, bind_eq_ok, ensure_eq_ok, Unique.exists_iff] at h
  exact h.2.1

/-- **What a signature binds.**  For two accepted calls of one authority, equal payloads make equal
calls exactly when the calls are not `Confusable`, and then no signature is accepted for both of two
different calls.

The hash does not collide on the tags and on the coins of the two calls, the hash of no tag is a text,
and an account is its address. -/
theorem payload_binds [LinearOrder AccountId] {host : Host AccountId}
    {verify : Signature → Bytes → AccountId → Bool} {v v' : View AccountId}
    {s s' : Bridge AccountId} {c c' : UnsignedCall AccountId} {sig sig' : Signature}
    {tx tx' : ValidTransaction AccountId Signature}
    (hkeccak : Set.InjOn host.codec.keccak256 (c.signed.hashed ∪ c'.signed.hashed))
    (htags : ∀ tag : Tag, ∃ b ∈ tag.hash host, 128 ≤ b.toNat)
    (hacc : Function.Injective host.h160Of)
    (hcoins : ∀ u ∈ c.signed.coins, u.Fits) (hcoins' : ∀ u ∈ c'.signed.coins, u.Fits)
    (hverify : ∀ sig who m m', verify sig m who = true → verify sig m' who = true → m = m')
    (h : validateUnsigned host verify v s c sig = .ok tx)
    (h' : validateUnsigned host verify v' s' c' sig' = .ok tx')
    (hauth : c.authorityId = c'.authorityId) :
    ((c.payload host = c'.payload host → c = c') ↔ ¬ Confusable c c') ∧
      (sig = sig' → (c = c' ↔ ¬ Confusable c c')) := by
  have hbinds : c.payload host = c'.payload host → c = c' ∨ Confusable c c' := by
    intro hpayload
    rw [c.payload_eq, c'.payload_eq] at hpayload
    exact UnsignedCall.eq_or_confusable hauth
      (Signed.bytes_inj hkeccak htags hacc hcoins hcoins' hpayload)
  refine ⟨⟨?_, ?_⟩, ?_⟩
  · intro hsame hconf
    have hpayload : c.payload host = c'.payload host := by
      rw [c.payload_eq, c'.payload_eq, hconf.signed]
    exact hconf.ne (hsame hpayload)
  · intro hconf hpayload
    exact (hbinds hpayload).resolve_right hconf
  · rintro rfl
    refine ⟨fun heq hconf => hconf.ne heq, fun hconf => ?_⟩
    have hpayload := hverify sig c.authorityId _ _ (validateUnsigned_verified h)
      (hauth ▸ validateUnsigned_verified h')
    exact (hbinds hpayload).resolve_right hconf

/-- The hashes of the tags. -/
def Tag.keccak : Tag → H256
  | .setRefundsApproval => 0x0e7b01f5e3e96d58036dde56293be7072bc33a410bf8cfecd5cbe7ad1579be3b
  | .unsignedPsbt => 0x0e0ac3dcd3a83a7f6391fe8d640cd3b9117a4969bcf16577aed38eea23ff0d86
  | .signedPsbt => 0xe48154ac95f641fcfaaa96d8019c43a1258210e7991936efa07bb21b7b00f7d7
  | .executedPsbt => 0x4076587f8d14743b757486aefbad4db06c6142eb9086a5da0177a996333a8db6
  | .rollbackPoll => 0x5847de1542f98e112227009c7f4072b2bbb9cc559080fa3773caba79d3e7f01b
  | .utxosSubmission => 0x9f3b3eb59fe3d1870efca3a160b5009ae6aa23437dccb6b214e68e55977a8e57
  | .broadcastPoll => 0xb57f13a7c1063ef070cf8d8fd9ee0f73a189e12341b58c9b6330e68c26cb32cb

def allTags : List Tag :=
  [.setRefundsApproval, .unsignedPsbt, .signedPsbt, .executedPsbt, .rollbackPoll, .utxosSubmission,
    .broadcastPoll]

/-- A host whose accounts are addresses, and that hashes nothing but the tags. -/
def tagHost : Host H160 where
  codec := { sampleCodec with
    keccak256 := fun b => ((allTags.find? fun t => t.bytes = b).map Tag.keccak).getD 0 }
  lib := regtestLibrary
  chainId := 3068
  bitcoinChainId := 10004
  accountOf a := a
  h160Of a := a
  twox64 h := h.val
  feeRateExpiration := 2
  toleranceThreshold := 3
  defaultMaxFeeRate := 1000
  defaultMaxSocketMessageBytes := 2000
  defaultMultiSigRatio := 50

/-- A signature is what was signed and by whom. -/
def idealVerify (sig : Bytes × H160) (m : Bytes) (who : H160) : Bool := sig = (m, who)

/-- Account 1 is the authority, a relayer and an executive. -/
def oneView : View H160 := ⟨⟨fun a => a = 1, 1⟩, [1], fun _ _ _ => none, fun _ _ _ => none, 1⟩

/-- At genesis, with account 1 as the authority. -/
def oneBridge : Bridge H160 := .genesis tagHost [1] (some 1)

lemma tagHost_keccak (t : Tag) : tagHost.codec.keccak256 t.bytes = t.keccak := by
  cases t <;> decide +kernel

lemma Tag.keccak_injective : Function.Injective Tag.keccak := by
  have hall : ∀ t ∈ allTags, ∀ t' ∈ allTags, t.keccak = t'.keccak → t = t' := by decide +kernel
  have hmem : ∀ t : Tag, t ∈ allTags := by
    intro t
    cases t <;> simp [allTags]
  intro t t' h
  exact hall t (hmem t) t' (hmem t') h

lemma tagHost_tags (t : Tag) : ∃ b ∈ t.hash tagHost, 128 ≤ b.toNat := by
  rw [Tag.hash, tagHost_keccak]
  cases t <;> decide +kernel

/-- The host does not collide where there are no coins. -/
lemma tagHost_collisionless {d d' : Signed H160} (hd : d.coins = []) (hd' : d'.coins = []) :
    Set.InjOn tagHost.codec.keccak256 (d.hashed ∪ d'.hashed) := by
  have htags : d.hashed ∪ d'.hashed = Set.range Tag.bytes := by simp [Signed.hashed, hd, hd']
  rw [htags]
  rintro _ ⟨t, rfl⟩ _ ⟨t', rfl⟩ h
  rw [tagHost_keccak, tagHost_keccak] at h
  rw [Tag.keccak_injective h]

/-- That a transaction is executed, and that it is broadcast. -/
theorem payload_binds_txid :
    let c : UnsignedCall H160 := .submitExecutedRequest ⟨1, 5⟩
    let c' : UnsignedCall H160 := .broadcastPoll ⟨1, 5⟩
    (c.payload tagHost = c'.payload tagHost → c = c') ∧ ¬ Confusable c c' := by
  intro c c'
  have hnot : ¬ Confusable c c' := by
    intro h
    cases h <;> simp_all [c, UnsignedCall.keys]
  have h : validateUnsigned tagHost idealVerify oneView oneBridge c (c.payload tagHost, 1) =
      .ok (c.build (c.payload tagHost, 1)) := rfl
  have h' : validateUnsigned tagHost idealVerify oneView oneBridge c' (c'.payload tagHost, 1) =
      .ok (c'.build (c'.payload tagHost, 1)) := rfl
  have hverify : ∀ sig who m m', idealVerify sig m who = true → idealVerify sig m' who = true →
      m = m' := by
    intro sig who m m' hm hm'
    simp only [idealVerify, decide_eq_true_eq] at hm hm'
    rw [hm, Prod.mk.injEq] at hm'
    exact hm'.1
  have hbinds := payload_binds (tagHost_collisionless rfl rfl) tagHost_tags Function.injective_id
    (by simp [c, UnsignedCall.signed, Signed.coins]) (by simp [c', UnsignedCall.signed, Signed.coins])
    hverify h h' rfl
  exact ⟨hbinds.1.mpr hnot, hnot⟩

/-- A compressed public key. -/
def sampleKey : Bytes := 2 :: List.replicate 32 7

/-- A key that was signed for user 7 is accepted for user 8. -/
theorem vault_key_for_another_user :
    let c : UnsignedCall H160 := .submitVaultKey ⟨1, 7, sampleKey, 1⟩
    let c' : UnsignedCall H160 := .submitVaultKey ⟨1, 8, sampleKey, 1⟩
    let sig : Bytes × H160 := (c.payload tagHost, 1)
    (∃ tx, validateUnsigned tagHost idealVerify oneView oneBridge c sig = .ok tx) ∧
      (∃ tx, validateUnsigned tagHost idealVerify oneView oneBridge c' sig = .ok tx) ∧
      c.authorityId = c'.authorityId ∧ c.payload tagHost = c'.payload tagHost ∧ c ≠ c' := by
  refine ⟨⟨_, rfl⟩, ⟨_, rfl⟩, rfl, rfl, ?_⟩
  simp

end BifrostNode.Btc
