import BifrostNode.Cccp.Message

/-!
# Bitcoin transactions

What the Bitcoin pallets read of transactions, PSBTs, addresses and descriptors.

**The library.**  Serialization, hashing, signatures, addresses and descriptors belong to `bitcoin` and
`miniscript`, and are parameters: `Library` has one field for each function that the pallets call.  What
those functions only add up or compare (`fee`, the sizes) is written out.

**Representations.**  A txid is kept in the order of bytes that the pallets use, which is the reverse of
that of `bitcoin`.  An address is its text, and a descriptor is its text with the scripts it stands for.
-/

namespace BifrostNode.Btc

open Cccp

abbrev Script := Bytes

/-- Bytes are ordered as numbers, and so are strings of them lexicographically. -/
instance byteOrder : LinearOrder UInt8 where
  le_refl _ := UInt8.le_refl _
  le_trans _ _ _ := UInt8.le_trans
  le_antisymm _ _ := UInt8.le_antisymm
  le_total := UInt8.le_total
  lt_iff_le_not_ge a b := by
    simp only [UInt8.le_iff_toNat_le, UInt8.lt_iff_toNat_lt]
    omega
  toDecidableLE := inferInstance

/-! ## Transactions -/

structure OutPoint where
  txid : H256
  vout : ℕ
  deriving DecidableEq

structure TxIn where
  previousOutput : OutPoint
  scriptSig : Script
  sequence : ℕ
  deriving DecidableEq

structure TxOut where
  value : ℕ
  scriptPubkey : Script
  deriving DecidableEq

structure Transaction where
  version : ℕ
  lockTime : ℕ
  input : List TxIn
  output : List TxOut
  deriving DecidableEq

/-- `u64` arithmetic wraps around. -/
def u64 (n : ℕ) : ℕ := n % 2 ^ 64

/-- `u64::checked_add`. -/
def checkedAdd64 (a b : ℕ) : Option ℕ := if a + b < 2 ^ 64 then some (a + b) else none

/-- `u64::checked_sub`. -/
def checkedSub64 (a b : ℕ) : Option ℕ := if b ≤ a then some (a - b) else none

/-- `u64::saturating_add` and `saturating_mul` end here. -/
def saturate64 (n : ℕ) : ℕ := min n (2 ^ 64 - 1)

/-- `VarInt::size`. -/
def varIntSize (n : ℕ) : ℕ :=
  if n < 0xfd then 1 else if n ≤ 0xffff then 3 else if n ≤ 0xffffffff then 5 else 9

/-- `TxIn::base_size`. -/
def TxIn.baseSize (self : TxIn) : ℕ :=
  36 + varIntSize self.scriptSig.length + self.scriptSig.length + 4

/-- `TxOut::size`. -/
def TxOut.size (self : TxOut) : ℕ :=
  8 + varIntSize self.scriptPubkey.length + self.scriptPubkey.length

/-- `Weight::to_vbytes_ceil`. -/
def toVbytesCeil (weight : ℕ) : ℕ := (weight + 3) / 4

/-- `TxOut::weight`. -/
def TxOut.weight (self : TxOut) : ℕ := 4 * self.size

/-! ## PSBTs -/

/-- An input of a PSBT.  `others` is what only the library looks at. -/
structure PsbtInput where
  witnessUtxo : Option TxOut
  nonWitnessUtxo : Option Transaction
  witnessScript : Option Script
  bip32Derivation : List Bytes
  others : Bytes
  deriving DecidableEq

structure Psbt where
  unsignedTx : Transaction
  inputs : List PsbtInput
  deriving DecidableEq

namespace Psbt

/-- `from_unsigned_tx`. -/
def fromUnsignedTx (tx : Transaction) : Option Psbt :=
  if tx.input.all fun i => i.scriptSig.isEmpty then
    some ⟨tx, tx.input.map fun _ => ⟨none, none, none, [], []⟩⟩
  else none

/-- The output that an input spends. -/
def fundingUtxo (txin : TxIn) (input : PsbtInput) : Option TxOut :=
  match input.witnessUtxo, input.nonWitnessUtxo with
  | some utxo, _ => some utxo
  | none, some tx => tx.output[txin.previousOutput.vout]?
  | none, none => none

/-- `checked_add` over a list of values. -/
def checkedSum (values : List ℕ) : Option ℕ := values.foldlM checkedAdd64 0

/-- `fee`. -/
def fee (self : Psbt) : Option ℕ := do
  let utxos ← (self.unsignedTx.input.zip self.inputs).mapM fun (txin, input) =>
    fundingUtxo txin input
  let inputs ← checkedSum (utxos.map TxOut.value)
  let outputs ← checkedSum (self.unsignedTx.output.map TxOut.value)
  checkedSub64 inputs outputs

end Psbt

/-! ## Scripts and descriptors -/

/-- `script::Instruction`, or an error of the iterator. -/
inductive Instruction
  | op (code : ℕ)
  | pushBytes
  | error
  deriving DecidableEq

structure Descriptor where
  text : Bytes
  scriptPubkey : Script
  scriptCode : Script
  keys : List Bytes
  deriving DecidableEq

/-- What is called of `bitcoin` and `miniscript`, for the network of the runtime. -/
structure Library where
  serialize : Psbt → Bytes
  deserialize : Bytes → Option Psbt
  computeTxid : Transaction → H256
  combine : Psbt → Psbt → Option Psbt
  finalize : Psbt → Option Psbt
  addressFromScript : Script → Option Bytes
  addressFromStr : Bytes → Option Bytes
  requireNetwork : Bytes → Bool
  scriptPubkey : Bytes → Script
  descriptorFromStr : Bytes → Option Descriptor
  newWshSortedmulti : ℕ → List Bytes → Option Descriptor
  sanityCheck : Descriptor → Bool
  descriptorAddress : Descriptor → Option Bytes
  isPublicKey : Bytes → Bool
  instructions : Script → List Instruction

/-- The number that an opcode pushes, if it is `OP_1` to `OP_16`. -/
def pushedNumber : Instruction → Option ℕ
  | .op code => if 0x51 ≤ code ∧ code ≤ 0x60 then some (code - 0x51 + 1) else none
  | _ => none

/-- `parse_multisig_script`. -/
def parseMultisigScript (lib : Library) (script : Script) : Option (ℕ × ℕ) := do
  let instructions := lib.instructions script
  if instructions.length < 3 then none
  let m ← instructions.head?.bind pushedNumber
  if instructions.getLast? = some (.op 0xae) then
    let n ← instructions[instructions.length - 2]?.bind pushedNumber
    return (m, n)
  else none

/-- `estimate_finalized_input_size`. -/
def estimateFinalizedInputSize (lib : Library) (witnessScript : Script) (txin : Option TxIn) :
    Option ℕ := do
  let (m, _) ← parseMultisigScript lib witnessScript
  let scriptLen := witnessScript.length + 1
  let estimatedWitnessSize := 1 + 73 * m + scriptLen
  let nonWitnessDataSize := 4 * (txin.elim 41 TxIn.baseSize)
  return toVbytesCeil (estimatedWitnessSize + nonWitnessDataSize)

/-! ## Constants and addresses -/

/-- `DUST_LIMIT`. -/
def dustLimit : ℕ := 546

/-- `ADDRESS_MAX_LENGTH`. -/
def addressMaxLength : ℕ := 90

/-- `MULTI_SIG_MAX_ACCOUNTS`. -/
def multiSigMaxAccounts : ℕ := 20

/-- `BoundedBitcoinAddress::try_from`. -/
def boundedAddress (text : Bytes) : Option Bytes :=
  if text.length ≤ addressMaxLength then some text else none

end BifrostNode.Btc
