import Mathlib

/-!
# Socket messages

The messages of the cross-chain protocol, as `bp_cccp` reads them from bytes and writes them back.

**The ABI** itself is a library: `decode` and `encode` between bytes and tokens are parameters, and so
is `keccak_256`.  What the primitives do with the tokens is modelled as it is.  A conversion that the
source would panic on (`from_slice` with a wrong length) cannot occur here, since the kinds that are
decoded fix the lengths.
-/

namespace BifrostNode.Cccp

abbrev Bytes := List UInt8

abbrev H160 := Fin (2 ^ 160)

abbrev H256 := Fin (2 ^ 256)

abbrev U256 := Fin (2 ^ 256)

/-! Instances that definitions carry along.  They have names of their own, so that a definition is the
same wherever it is compiled. -/

instance (priority := 2000) neZeroH160 : NeZero (2 ^ 160) := inferInstance

instance (priority := 2000) neZeroH256 : NeZero (2 ^ 256) := inferInstance

instance (priority := 2000) lawfulBytes : LawfulBEq Bytes := inferInstance

instance (priority := 2000) lawfulU256 : LawfulBEq U256 := inferInstance

/-! ## Tokens -/

/-- `ethabi_decode::ParamKind`, as far as it is used. -/
inductive ParamKind
  | address
  | bytes
  | uint (bits : ℕ)
  | fixedBytes (length : ℕ)
  | fixedArray (kind : ParamKind) (length : ℕ)
  | tuple (kinds : List ParamKind)

/-- `ethabi_decode::Token`, as far as it is used. -/
inductive Token
  | address (a : H160)
  | bytes (b : Bytes)
  | uint (n : U256)
  | fixedBytes (b : Bytes)
  | fixedArray (ts : List Token)
  | tuple (ts : List Token)

namespace Token

def toFixedBytes : Token → Option Bytes
  | fixedBytes b => some b
  | _ => none

def toUint : Token → Option U256
  | uint n => some n
  | _ => none

def toAddress : Token → Option H160
  | address a => some a
  | _ => none

def toBytes : Token → Option Bytes
  | bytes b => some b
  | _ => none

def toTuple : Token → Option (List Token)
  | tuple ts => some ts
  | _ => none

end Token

/-- The ABI codec and the hash. -/
structure Codec where
  decode : List ParamKind → Bytes → Option (List Token)
  encode : List Token → Bytes
  keccak256 : Bytes → H256

/-! ## Messages -/

structure RequestID where
  chain : Bytes
  roundId : U256
  sequence : U256
  deriving DecidableEq

def RequestID.tryFrom : List Token → Option RequestID
  | [chain, roundId, sequence] =>
      return ⟨← chain.toFixedBytes, ← roundId.toUint, ← sequence.toUint⟩
  | _ => none

def RequestID.tokens (self : RequestID) : List Token :=
  [.fixedBytes self.chain, .uint self.roundId, .uint self.sequence]

structure Instruction where
  chain : Bytes
  method : Bytes
  deriving DecidableEq

def Instruction.tryFrom : List Token → Option Instruction
  | [chain, method] => return ⟨← chain.toFixedBytes, ← method.toFixedBytes⟩
  | _ => none

def Instruction.tokens (self : Instruction) : List Token :=
  [.fixedBytes self.chain, .fixedBytes self.method]

structure TaskParams where
  tokenIdx0 : Bytes
  tokenIdx1 : Bytes
  refund : H160
  toUser : H160
  amount : U256
  variants : Bytes
  deriving DecidableEq

def TaskParams.tryFrom : List Token → Option TaskParams
  | [tokenIdx0, tokenIdx1, refund, toUser, amount, variants] =>
      return ⟨← tokenIdx0.toFixedBytes, ← tokenIdx1.toFixedBytes, ← refund.toAddress,
        ← toUser.toAddress, ← amount.toUint, ← variants.toBytes⟩
  | _ => none

def TaskParams.tokens (self : TaskParams) : List Token :=
  [.fixedBytes self.tokenIdx0, .fixedBytes self.tokenIdx1, .address self.refund, .address self.toUser,
    .uint self.amount, .bytes self.variants]

structure UserRequest where
  insCode : Instruction
  params : TaskParams

def UserRequest.encode (codec : Codec) (self : UserRequest) : Bytes :=
  codec.encode [.tuple [.tuple self.insCode.tokens, .tuple self.params.tokens]]

structure SocketMessage where
  reqId : RequestID
  status : U256
  insCode : Instruction
  params : TaskParams
  deriving DecidableEq

/-- `u32::to_be_bytes`. -/
def toBeBytes (n : ℕ) : Bytes :=
  [.ofNat (n / 2 ^ 24), .ofNat (n / 2 ^ 16), .ofNat (n / 2 ^ 8), .ofNat n]

/-- The number that bytes are the big endian form of. -/
def ofBeBytes (b : Bytes) : ℕ := b.foldl (fun n x => n * 256 + x.toNat) 0

/-- `u32::from_be_bytes` of a slice, which has to have four bytes. -/
def chainIdFromBeBytes (b : Bytes) : Option ℕ :=
  if b.length = 4 then some (ofBeBytes b) else none

/-- `H256::from_slice`. -/
def h256FromSlice (b : Bytes) : H256 := Fin.ofNat (2 ^ 256) (ofBeBytes b)

namespace SocketMessage

def kinds : List ParamKind :=
  [.tuple
    [.tuple [.fixedBytes 4, .uint 64, .uint 128], .uint 8, .tuple [.fixedBytes 4, .fixedBytes 16],
      .tuple [.fixedBytes 32, .fixedBytes 32, .address, .address, .uint 256, .bytes]]]

def tryFromTokens : List Token → Option SocketMessage
  | [reqId, status, insCode, params] =>
      return ⟨← RequestID.tryFrom (← reqId.toTuple), ← status.toUint,
        ← Instruction.tryFrom (← insCode.toTuple), ← TaskParams.tryFrom (← params.toTuple)⟩
  | _ => none

/-- `TryFrom<UnboundedBytes>`. -/
def tryFrom (codec : Codec) (bytes : Bytes) : Option SocketMessage := do
  match ← codec.decode kinds bytes with
  | .tuple msg :: _ => tryFromTokens msg
  | _ => none

def encode (codec : Codec) (self : SocketMessage) : Bytes :=
  codec.encode [.tuple [.tuple self.reqId.tokens, .uint self.status, .tuple self.insCode.tokens,
    .tuple self.params.tokens]]

/-- `encode_req_id`. -/
def encodeReqId (codec : Codec) (self : SocketMessage) : Bytes := codec.encode self.reqId.tokens

def isRequested (self : SocketMessage) : Bool := self.status = 1

def isAccepted (self : SocketMessage) : Bool := self.status = 5

def isRejected (self : SocketMessage) : Bool := self.status = 6

def isCommitted (self : SocketMessage) : Bool := self.status = 7

def isRollbacked (self : SocketMessage) : Bool := self.status = 8

def isOutbound (self : SocketMessage) (bifrostChainId : ℕ) : Bool :=
  self.reqId.chain = toBeBytes bifrostChainId

/-- `is_bitcoin_outbound`. -/
def isBitcoinOutbound (self : SocketMessage) (bifrostChainId bitcoinChainId : ℕ) : Bool :=
  self.reqId.chain = toBeBytes bifrostChainId ∧ self.insCode.chain = toBeBytes bitcoinChainId

/-- The message with which the request began. -/
def requested (self : SocketMessage) : SocketMessage := { self with status := 1 }

/-- The hash under which a request is kept. -/
def hash (codec : Codec) (self : SocketMessage) : H256 := codec.keccak256 (self.encode codec)

lemma requested_of_isRequested {self : SocketMessage} (h : self.isRequested = true) :
    self.requested = self := by
  have hstatus : self.status = 1 := of_decide_eq_true h
  cases self
  simp only [requested] at hstatus ⊢
  rw [hstatus]

end SocketMessage

/-- What the Socket contract answers to `get_request`: the first of the status fields, and the hash of
the user's request. -/
structure RequestInfo where
  status : U256
  msgHash : H256

namespace RequestInfo

def isMsgHash (self : RequestInfo) (hash : H256) : Bool := self.msgHash = hash

def isRequested (self : RequestInfo) : Bool := self.status = 1

def isAccepted (self : RequestInfo) : Bool := self.status = 5

def isRejected (self : RequestInfo) : Bool := self.status = 6

def isCommitted (self : RequestInfo) : Bool := self.status = 7

def isRollbacked (self : RequestInfo) : Bool := self.status = 8

end RequestInfo

end BifrostNode.Cccp
