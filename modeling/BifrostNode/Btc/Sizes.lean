import BifrostNode.Btc.Outbound

/-!
# What a signed transaction weighs

The builder charges for a transaction before it is signed: eleven bytes, the estimated size of every
coin, and nine bytes and the script of every output.

**Scripts.**  A vault is locked by a sorted multi-signature.  `ReadsScripts` is what is assumed of
`bitcoin` and `miniscript` about its script, and `parse_multisig_script` reads the two numbers back only
while both are pushed by an opcode (`parseMultisigScript_sortedMulti`).

**Weight.**  `weight` is that of BIP 141, where a byte of a witness counts once and every other byte four
times.  The heaviest finalization of a transaction has signatures of 72 bytes (`weight_le`).

**Deficit.**  Per input the estimate leaves out the number of items of the witness, and two bytes of the
length of a long script; what rounding up adds makes up for it in part.  `size_covered_iff` says when.
-/

namespace BifrostNode.Btc

open Cccp

variable {AccountId : Type}

/-! ## Scripts of sorted multi-signatures -/

/-- A number is pushed by `OP_1` to `OP_16`, and as a byte above. -/
def pushNumber (k : ℕ) : Script := if k ≤ 16 then [UInt8.ofNat (0x50 + k)] else [0x01, UInt8.ofNat k]

/-- The witness script of an `m`-of-`n` multi-signature with compressed keys. -/
def multisigScript (m : ℕ) (keys : List Bytes) : Script :=
  pushNumber m ++ (keys.flatMap (fun key => 0x21 :: key) ++ (pushNumber keys.length ++ [0xae]))

/-- **What is assumed of the library**: how it iterates over a script, and what script a sorted
multi-signature has. -/
structure ReadsScripts (lib : Library) : Prop where
  nil : lib.instructions [] = []
  op : ∀ (code : UInt8) (rest : Script), 0x4e < code.toNat →
    lib.instructions (code :: rest) = .op code.toNat :: lib.instructions rest
  push : ∀ (count : UInt8) (data rest : Script), count.toNat = data.length → data.length ≤ 0x4b →
    lib.instructions (count :: (data ++ rest)) = .pushBytes :: lib.instructions rest
  multi : ∀ m keys desc, lib.newWshSortedmulti m keys = some desc →
    1 ≤ m ∧ m ≤ keys.length ∧ keys.length ≤ multiSigMaxAccounts ∧
      ∃ sorted, sorted.Perm keys ∧ desc.scriptCode = multisigScript m sorted

/-- The instruction that pushes a number. -/
def numberInstruction (k : ℕ) : Instruction := if k ≤ 16 then .op (0x50 + k) else .pushBytes

lemma pushedNumber_numberInstruction {k : ℕ} (hk : 1 ≤ k) :
    pushedNumber (numberInstruction k) = if k ≤ 16 then some k else none := by
  rw [numberInstruction]
  split_ifs with h
  · have hrange : 0x51 ≤ 0x50 + k ∧ 0x50 + k ≤ 0x60 := by omega
    rw [pushedNumber, if_pos hrange]
    exact congrArg some (by omega)
  · rfl

lemma length_pushNumber {k : ℕ} (hk : k ≤ 16) : (pushNumber k).length = 1 := by
  rw [pushNumber, if_pos hk]
  rfl

lemma length_multisigScript {m : ℕ} {keys : List Bytes} (hm : m ≤ keys.length)
    (hkeys : keys.length ≤ 16) (hcompressed : ∀ key ∈ keys, key.length = 33) :
    (multisigScript m keys).length = 34 * keys.length + 3 := by
  have hpushes : ∀ ks : List Bytes, (∀ key ∈ ks, key.length = 33) →
      (ks.flatMap fun key => (0x21 : UInt8) :: key).length = 34 * ks.length := by
    intro ks hks
    induction ks with
    | nil => rfl
    | cons key ks ih =>
        have hkey := hks key (List.mem_cons_self ..)
        have hrest := ih fun k hk => hks k (List.mem_cons_of_mem _ hk)
        simp only [List.flatMap_cons, List.length_append, List.length_cons, hkey, hrest]
        omega
  simp only [multisigScript, List.length_append, hpushes keys hcompressed, length_pushNumber hkeys,
    length_pushNumber (hm.trans hkeys), List.length_singleton]
  omega

namespace ReadsScripts

variable {lib : Library}

/-- A number is one instruction. -/
lemma instructions_number (h : ReadsScripts lib) {k : ℕ} (hk : k ≤ multiSigMaxAccounts)
    (rest : Script) :
    lib.instructions (pushNumber k ++ rest) = numberInstruction k :: lib.instructions rest := by
  have hbound : k ≤ 20 := hk
  rw [pushNumber, numberInstruction]
  split_ifs with hsmall
  · have hcode : (UInt8.ofNat (0x50 + k)).toNat = 0x50 + k := by
      rw [UInt8.toNat_ofNat']
      omega
    rw [List.singleton_append, h.op _ rest (by omega), hcode]
  · exact h.push 0x01 [UInt8.ofNat k] rest rfl (by simp)

/-- So is every key. -/
lemma instructions_keys (h : ReadsScripts lib) {keys : List Bytes}
    (hcompressed : ∀ key ∈ keys, key.length = 33) (rest : Script) :
    lib.instructions (keys.flatMap (fun key => 0x21 :: key) ++ rest) =
      List.replicate keys.length .pushBytes ++ lib.instructions rest := by
  induction keys with
  | nil => rfl
  | cons key keys ih =>
      have hkey := hcompressed key (List.mem_cons_self ..)
      have hrest := ih fun k hk => hcompressed k (List.mem_cons_of_mem _ hk)
      rw [List.flatMap_cons, List.append_assoc, List.cons_append,
        h.push 0x21 key _ (by rw [hkey]; rfl) (by omega), hrest]
      rfl

/-- A multi-signature has its two counts around its keys, and one opcode. -/
lemma instructions_multisigScript (h : ReadsScripts lib) {m : ℕ} {keys : List Bytes}
    (hm : m ≤ keys.length) (hkeys : keys.length ≤ multiSigMaxAccounts)
    (hcompressed : ∀ key ∈ keys, key.length = 33) :
    lib.instructions (multisigScript m keys) = numberInstruction m ::
      (List.replicate keys.length .pushBytes ++ [numberInstruction keys.length, .op 0xae]) := by
  have hcheck : lib.instructions [0xae] = [.op 0xae] := by
    rw [h.op 0xae [] (by decide), h.nil]
    rfl
  rw [multisigScript, h.instructions_number (hm.trans hkeys), h.instructions_keys hcompressed,
    h.instructions_number hkeys, hcheck]

/-- **What the parser reads back**: both numbers, if the number of keys is pushed by an opcode. -/
lemma parseMultisigScript_multisigScript (h : ReadsScripts lib) {m : ℕ} {keys : List Bytes}
    (hpos : 1 ≤ m) (hm : m ≤ keys.length) (hkeys : keys.length ≤ multiSigMaxAccounts)
    (hcompressed : ∀ key ∈ keys, key.length = 33) :
    parseMultisigScript lib (multisigScript m keys) =
      if keys.length ≤ 16 then some (m, keys.length) else none := by
  have hread := h.instructions_multisigScript hm hkeys hcompressed
  have hlength : (lib.instructions (multisigScript m keys)).length = keys.length + 3 := by
    rw [hread]
    simp
  have hhead : (lib.instructions (multisigScript m keys)).head? = some (numberInstruction m) := by
    rw [hread]
    rfl
  have hlast : (lib.instructions (multisigScript m keys)).getLast? = some (.op 0xae) := by
    rw [hread, List.getLast?_cons, List.getLast?_append]
    rfl
  have hcount : (lib.instructions (multisigScript m keys))[keys.length + 1]? =
      some (numberInstruction keys.length) := by
    rw [hread, List.getElem?_cons_succ, List.getElem?_append_right (by simp)]
    simp
  have hnot : ¬ keys.length + 3 < 3 := by omega
  have hindex : keys.length + 3 - 2 = keys.length + 1 := by omega
  simp only [parseMultisigScript, hlength, if_neg hnot, hhead, hlast, hindex, hcount,
    Option.bind_some, pushedNumber_numberInstruction hpos,
    pushedNumber_numberInstruction (hpos.trans hm), if_true]
  by_cases hsmall : keys.length ≤ 16
  · rw [if_pos (hm.trans hsmall), if_pos hsmall, if_pos hsmall]
    rfl
  · rw [if_neg hsmall, if_neg hsmall]
    split_ifs <;> rfl

end ReadsScripts

/-! ## Vaults -/

/-- A vault that `generate_descriptor` builds of compressed keys. -/
structure SortedMulti (host : Host AccountId) where
  m : ℕ
  rawPubKeys : List Bytes
  desc : Descriptor
  compressed : ∀ key ∈ rawPubKeys, key.length = 33
  built : Pool.Registration.generateDescriptor host m rawPubKeys = some desc

namespace SortedMulti

variable {host : Host AccountId}

def n (self : SortedMulti host) : ℕ := self.rawPubKeys.length

/-- The size that `submit_utxos` records for a coin of the vault. -/
def inputVbytes (self : SortedMulti host) : Option ℕ :=
  estimateFinalizedInputSize host.lib self.desc.scriptCode none

/-- The vault has the script of its sorted keys. -/
lemma script (h : ReadsScripts host.lib) (v : SortedMulti host) :
    1 ≤ v.m ∧ v.m ≤ v.n ∧ v.n ≤ multiSigMaxAccounts ∧
      ∃ keys, keys.length = v.n ∧ (∀ key ∈ keys, key.length = 33) ∧
        v.desc.scriptCode = multisigScript v.m keys := by
  have hbuilt := v.built
  rw [Pool.Registration.generateDescriptor] at hbuilt
  split_ifs at hbuilt with hkeys
  obtain ⟨hmulti, -⟩ := Option.filter_eq_some_iff.mp hbuilt
  obtain ⟨hpos, hm, hmax, keys, hperm, hscript⟩ := h.multi _ _ _ hmulti
  have hlength : (v.rawPubKeys.insertionSort (· ≤ ·)).length = v.n :=
    List.length_insertionSort _ _
  have hkeys : keys.Perm v.rawPubKeys := hperm.trans (List.perm_insertionSort _ _)
  rw [hlength] at hm hmax
  exact ⟨hpos, hm, hmax, keys, hkeys.length_eq, fun key hkey => v.compressed key
    (hkeys.mem_iff.mp hkey), hscript⟩

lemma length_scriptCode (h : ReadsScripts host.lib) (v : SortedMulti host) (hn : v.n ≤ 16) :
    v.desc.scriptCode.length = 34 * v.n + 3 := by
  obtain ⟨-, hm, -, keys, hlength, hcompressed, hscript⟩ := v.script h
  rw [hscript, length_multisigScript (hlength ▸ hm) (hlength ▸ hn) hcompressed, hlength]

/-- **The estimate of a coin** is there if and only if the vault has at most 16 keys. -/
lemma inputVbytes_eq (h : ReadsScripts host.lib) (v : SortedMulti host) :
    v.inputVbytes =
      if v.n ≤ 16 then some (toVbytesCeil (169 + 73 * v.m + 34 * v.n)) else none := by
  obtain ⟨hpos, hm, hmax, keys, hlength, hcompressed, hscript⟩ := v.script h
  rw [inputVbytes, estimateFinalizedInputSize, hscript,
    h.parseMultisigScript_multisigScript hpos (hlength ▸ hm) (hlength ▸ hmax) hcompressed, hlength]
  split_ifs with hn
  · have hbytes := v.length_scriptCode h hn
    rw [hscript] at hbytes
    show some (toVbytesCeil (1 + 73 * v.m + ((multisigScript v.m keys).length + 1) + 4 * 41)) = _
    rw [hbytes]
    exact congrArg (some ∘ toVbytesCeil) (by omega)
  · rfl

/-- What the estimate leaves out of a signed input: one byte for the number of items of the witness,
and two bytes of the length of a script of more than 252 bytes. -/
def missed (self : SortedMulti host) : ℕ := if self.n ≤ 7 then 1 else 3

/-- What it adds by rounding up to whole bytes. -/
def rounding (self : SortedMulti host) : ℕ := (3 + 3 * self.m + 2 * self.n) % 4

/-- What an input weighs with signatures of 72 bytes. -/
def signedWeight (self : SortedMulti host) : ℕ := 169 + 73 * self.m + 34 * self.n + self.missed

end SortedMulti

/-! ## Weight -/

/-- `Transaction::base_size`. -/
def Transaction.baseSize (self : Transaction) : ℕ :=
  4 + varIntSize self.input.length + (self.input.map TxIn.baseSize).sum +
    varIntSize self.output.length + (self.output.map TxOut.size).sum + 4

/-- An item of a witness, or a witness, comes behind its length. -/
def witnessSize (witness : List Bytes) : ℕ :=
  varIntSize witness.length + (witness.map fun item => varIntSize item.length + item.length).sum

/-- `Transaction::weight` of a transaction with a witness for each input: marker, flag and witnesses
count once, everything else four times. -/
def weight (tx : Transaction) (witnesses : List (List Bytes)) : ℕ :=
  4 * tx.baseSize + (2 + (witnesses.map witnessSize).sum)

/-- `Transaction::vsize`. -/
def vsize (tx : Transaction) (witnesses : List (List Bytes)) : ℕ := toVbytesCeil (weight tx witnesses)

section Finalization

variable {host : Host AccountId}

/-- The witness of an input: an empty item, `m` signatures of at most 72 bytes, and the script. -/
def SortedMulti.IsSigned (v : SortedMulti host) (witness : List Bytes) : Prop :=
  ∃ signatures : List Bytes, signatures.length = v.m ∧ (∀ s ∈ signatures, s.length ≤ 72) ∧
    witness = [] :: (signatures ++ [v.desc.scriptCode])

/-- A finalized transaction with these inputs and outputs. -/
structure Finalizes (vaults : List (SortedMulti host)) (output : List TxOut) (tx : Transaction)
    (witnesses : List (List Bytes)) : Prop where
  inputs : tx.input.length = vaults.length
  unsigned : ∀ txin ∈ tx.input, txin.scriptSig = []
  output_eq : tx.output = output
  signed : List.Forall₂ SortedMulti.IsSigned vaults witnesses

/-- The size that the builder charges for. -/
def chargedSize (sizes : List ℕ) (output : List TxOut) : ℕ :=
  11 + sizes.sum + (output.map fun o => 9 + o.scriptPubkey.length).sum

/-- **The size estimate covers the finalized transaction**: there is an estimate for every coin, and
what the builder charges for is at least the virtual size. -/
def SizeCovered (vaults : List (SortedMulti host)) (output : List TxOut) : Prop :=
  ∃ sizes, vaults.mapM SortedMulti.inputVbytes = some sizes ∧
    ∀ tx witnesses, Finalizes vaults output tx witnesses →
      vsize tx witnesses ≤ chargedSize sizes output

/-- The weight with signatures of 72 bytes. -/
def fullWeight (vaults : List (SortedMulti host)) (output : List TxOut) : ℕ :=
  4 * (8 + varIntSize vaults.length + varIntSize output.length + (output.map TxOut.size).sum) +
    (2 + (vaults.map SortedMulti.signedWeight).sum)

lemma varIntSize_of_lt {k : ℕ} (hk : k < 253) : varIntSize k = 1 := if_pos hk

lemma one_le_varIntSize (k : ℕ) : 1 ≤ varIntSize k := by
  rw [varIntSize]
  split_ifs <;> decide

namespace SortedMulti

/-- The size of a witness whose signatures have the given lengths. -/
lemma witnessSize_eq (h : ReadsScripts host.lib) {v : SortedMulti host} (hn : v.n ≤ 16)
    {signatures : List Bytes} (hcount : signatures.length = v.m)
    (hlength : ∀ s ∈ signatures, s.length ≤ 72) :
    witnessSize ([] :: (signatures ++ [v.desc.scriptCode])) =
      (v.m + (signatures.map List.length).sum) + (5 + 34 * v.n + v.missed) := by
  obtain ⟨-, hm, -⟩ := v.script h
  have hscript := v.length_scriptCode h hn
  have hsum : (signatures.map fun s => varIntSize s.length + s.length).sum =
      signatures.length + (signatures.map List.length).sum := by
    clear hcount
    induction signatures with
    | nil => rfl
    | cons s signatures ih =>
        have hs := hlength s (List.mem_cons_self ..)
        have hrest := ih fun t ht => hlength t (List.mem_cons_of_mem _ ht)
        simp only [List.map_cons, List.sum_cons, List.length_cons, hrest,
          varIntSize_of_lt (show s.length < 253 by omega)]
        omega
  have hlen : varIntSize (34 * v.n + 3) = v.missed := by
    rw [varIntSize, missed]
    split_ifs <;> omega
  have hitems : varIntSize (v.m + 1 + 1) = 1 := varIntSize_of_lt (by omega)
  simp only [witnessSize, List.length_cons, List.length_append, List.length_nil, List.map_cons,
    List.map_append, List.map_nil, List.sum_cons, List.sum_append, List.sum_nil, hsum, hcount,
    hscript, hlen, hitems, varIntSize_of_lt (show 0 < 253 by decide)]
  omega

/-- What the estimate, the missed bytes and the rounding have to do with the weight. -/
lemma four_mul_estimate (v : SortedMulti host) :
    4 * toVbytesCeil (169 + 73 * v.m + 34 * v.n) + v.missed = v.signedWeight + v.rounding := by
  rw [toVbytesCeil, signedWeight, rounding]
  omega

end SortedMulti

/-! ## The heaviest finalization -/

section Heaviest

variable {vaults : List (SortedMulti host)} {output : List TxOut} {tx : Transaction}
  {witnesses : List (List Bytes)}

lemma sum_baseSize {inputs : List TxIn} (h : ∀ txin ∈ inputs, txin.scriptSig = []) :
    (inputs.map TxIn.baseSize).sum = 41 * inputs.length := by
  induction inputs with
  | nil => rfl
  | cons txin inputs ih =>
      have hsize : txin.baseSize = 41 := by
        rw [TxIn.baseSize, h txin (List.mem_cons_self ..)]
        rfl
      have hrest := ih fun i hi => h i (List.mem_cons_of_mem _ hi)
      rw [List.map_cons, List.sum_cons, hsize, hrest, List.length_cons]
      omega

/-- The weight of a finalization, up to its witnesses. -/
lemma Finalizes.weight_eq (hf : Finalizes vaults output tx witnesses) :
    weight tx witnesses = 4 * (8 + varIntSize vaults.length + varIntSize output.length +
      (output.map TxOut.size).sum) + (2 + (164 * vaults.length + (witnesses.map witnessSize).sum)) := by
  rw [weight, Transaction.baseSize, sum_baseSize hf.unsigned, hf.inputs, hf.output_eq]
  omega

/-- Signatures of 72 bytes are the heaviest. -/
lemma SortedMulti.IsSigned.witnessSize_le (h : ReadsScripts host.lib) {v : SortedMulti host}
    (hn : v.n ≤ 16) {witness : List Bytes} (hsigned : v.IsSigned witness) :
    164 + witnessSize witness ≤ v.signedWeight := by
  obtain ⟨signatures, hcount, hlength, rfl⟩ := hsigned
  have hsum : (signatures.map List.length).sum ≤ signatures.length * 72 := by
    have hmap : ∀ len ∈ signatures.map List.length, len ≤ 72 := by
      intro len hlen
      obtain ⟨s, hs, rfl⟩ := List.mem_map.mp hlen
      exact hlength s hs
    have hle := List.sum_le_card_nsmul _ _ hmap
    simpa using hle
  rw [SortedMulti.witnessSize_eq h hn hcount hlength, SortedMulti.signedWeight]
  omega

lemma Finalizes.weight_le (h : ReadsScripts host.lib) (hn : ∀ v ∈ vaults, v.n ≤ 16)
    (hf : Finalizes vaults output tx witnesses) : weight tx witnesses ≤ fullWeight vaults output := by
  have hsum : ∀ {vs : List (SortedMulti host)} {ws : List (List Bytes)}, (∀ v ∈ vs, v.n ≤ 16) →
      List.Forall₂ SortedMulti.IsSigned vs ws →
      164 * vs.length + (ws.map witnessSize).sum ≤ (vs.map SortedMulti.signedWeight).sum := by
    intro vs ws hvs hsigned
    induction hsigned with
    | nil => simp
    | cons hone hall ih =>
        have hhead := hone.witnessSize_le h (hvs _ (List.mem_cons_self ..))
        have htail := ih fun v hv => hvs v (List.mem_cons_of_mem _ hv)
        simp only [List.length_cons, List.map_cons, List.sum_cons]
        omega
  have hinputs := hsum hn hf.signed
  rw [hf.weight_eq, fullWeight]
  omega

/-- A transaction is finalized with signatures of 72 bytes. -/
lemma exists_finalizes (h : ReadsScripts host.lib) (hn : ∀ v ∈ vaults, v.n ≤ 16)
    (output : List TxOut) :
    ∃ tx witnesses, Finalizes vaults output tx witnesses ∧
      weight tx witnesses = fullWeight vaults output := by
  have hwitnesses : ∀ {vs : List (SortedMulti host)}, (∀ v ∈ vs, v.n ≤ 16) →
      ∃ ws, List.Forall₂ SortedMulti.IsSigned vs ws ∧
        164 * vs.length + (ws.map witnessSize).sum = (vs.map SortedMulti.signedWeight).sum := by
    intro vs hvs
    induction vs with
    | nil => exact ⟨[], .nil, rfl⟩
    | cons v vs ih =>
        obtain ⟨ws, hall, hsum⟩ := ih fun v hv => hvs v (List.mem_cons_of_mem _ hv)
        have hlength : ∀ s ∈ List.replicate v.m (List.replicate 72 (0 : UInt8)), s.length ≤ 72 := by
          intro s hs
          rw [List.eq_of_mem_replicate hs, List.length_replicate]
        have hsize := SortedMulti.witnessSize_eq h (hvs v (List.mem_cons_self ..))
          (List.length_replicate ..) hlength
        refine ⟨_ :: ws, .cons ⟨_, List.length_replicate .., hlength, rfl⟩ hall, ?_⟩
        simp only [List.map_replicate, List.length_replicate, List.sum_replicate, smul_eq_mul]
          at hsize
        simp only [List.length_cons, List.map_cons, List.sum_cons, hsize, SortedMulti.signedWeight]
        omega
  obtain ⟨witnesses, hsigned, hsum⟩ := hwitnesses hn
  have hf : Finalizes vaults output
      ⟨2, 0, List.replicate vaults.length ⟨⟨0, 0⟩, [], 0xfffffffd⟩, output⟩ witnesses := by
    refine ⟨List.length_replicate .., fun txin htxin => ?_, rfl, hsigned⟩
    rw [List.eq_of_mem_replicate htxin]
  refine ⟨_, witnesses, hf, ?_⟩
  rw [hf.weight_eq, fullWeight, hsum]

end Heaviest

/-! ## When the estimate covers -/

section Deficit

variable {vaults : List (SortedMulti host)} {output : List TxOut}

/-- What the encoding of a length weighs beyond its first byte. -/
def longLength (k : ℕ) : ℕ := 4 * (varIntSize k - 1)

/-- The weight that the builder does not charge for: what the estimates leave out, and numbers of
inputs, of outputs and of bytes of an output script that take more than a byte. -/
def uncharged (vaults : List (SortedMulti host)) (output : List TxOut) : ℕ :=
  (vaults.map SortedMulti.missed).sum + longLength vaults.length + longLength output.length +
    (output.map fun o => longLength o.scriptPubkey.length).sum

lemma sum_size (output : List TxOut) :
    4 * (output.map TxOut.size).sum = 4 * (output.map fun o => 9 + o.scriptPubkey.length).sum +
      (output.map fun o => longLength o.scriptPubkey.length).sum := by
  induction output with
  | nil => rfl
  | cons o output ih =>
      have hone := one_le_varIntSize o.scriptPubkey.length
      simp only [List.map_cons, List.sum_cons, TxOut.size, longLength] at ih ⊢
      omega

/-- The estimates of vaults of at most 16 keys, and what they miss. -/
lemma mapM_inputVbytes (h : ReadsScripts host.lib) (hn : ∀ v ∈ vaults, v.n ≤ 16) :
    ∃ sizes, vaults.mapM SortedMulti.inputVbytes = some sizes ∧
      4 * sizes.sum + (vaults.map SortedMulti.missed).sum =
        (vaults.map SortedMulti.signedWeight).sum + (vaults.map SortedMulti.rounding).sum := by
  induction vaults with
  | nil => exact ⟨[], rfl, rfl⟩
  | cons v vaults ih =>
      obtain ⟨sizes, hsizes, hsum⟩ := ih fun v hv => hn v (List.mem_cons_of_mem _ hv)
      have hsize := v.inputVbytes_eq h
      rw [if_pos (hn v (List.mem_cons_self ..))] at hsize
      have hfour := v.four_mul_estimate
      refine ⟨toVbytesCeil (169 + 73 * v.m + 34 * v.n) :: sizes, ?_, ?_⟩
      · rw [List.mapM_cons, hsize, hsizes]
        rfl
      · simp only [List.map_cons, List.sum_cons]
        omega

/-- A vault of more than 16 keys has no estimate. -/
lemma mapM_inputVbytes_eq_none (h : ReadsScripts host.lib) {v : SortedMulti host} (hv : v ∈ vaults)
    (hn : 16 < v.n) : vaults.mapM SortedMulti.inputVbytes = none := by
  have hnone : v.inputVbytes = none := by
    rw [v.inputVbytes_eq h, if_neg (by omega)]
  induction vaults with
  | nil => cases hv
  | cons u vaults ih =>
      rw [List.mapM_cons]
      rcases List.mem_cons.mp hv with rfl | hv
      · rw [hnone]
        rfl
      · rw [ih hv]
        cases u.inputVbytes <;> rfl

/-- Where every coin has an estimate, the size is covered if and only if rounding makes up for what is
not charged. -/
lemma sizeCovered_of_small (h : ReadsScripts host.lib) (hn : ∀ v ∈ vaults, v.n ≤ 16) :
    SizeCovered vaults output ↔
      uncharged vaults output ≤ 2 + (vaults.map SortedMulti.rounding).sum := by
  obtain ⟨sizes, hsizes, hsum⟩ := mapM_inputVbytes h hn
  have houtput := sum_size output
  have hin := one_le_varIntSize vaults.length
  have hout := one_le_varIntSize output.length
  have hfull : fullWeight vaults output + 2 + (vaults.map SortedMulti.rounding).sum =
      4 * chargedSize sizes output + uncharged vaults output := by
    simp only [fullWeight, chargedSize, uncharged, longLength] at houtput ⊢
    omega
  constructor
  · rintro ⟨sizes', hsizes', hcovered⟩
    obtain rfl := Option.some.inj (hsizes.symm.trans hsizes')
    obtain ⟨tx, witnesses, hf, hweight⟩ := exists_finalizes h hn output
    have hvsize := hcovered tx witnesses hf
    rw [vsize, toVbytesCeil, hweight] at hvsize
    omega
  · intro hle
    refine ⟨sizes, hsizes, fun tx witnesses hf => ?_⟩
    have hweight := hf.weight_le h hn
    rw [vsize, toVbytesCeil]
    omega

/-- **When the estimate covers the finalized transaction.**  There is an estimate for every coin if and
only if no vault has more than 16 keys.  What is charged is then at least the virtual size of every
finalized transaction if and only if what is not charged is at most two units of weight more than what
rounding adds. -/
theorem size_covered_iff (h : ReadsScripts host.lib) (vaults : List (SortedMulti host))
    (output : List TxOut) :
    SizeCovered vaults output ↔ (∀ v ∈ vaults, v.n ≤ 16) ∧
      uncharged vaults output ≤ 2 + (vaults.map SortedMulti.rounding).sum := by
  by_cases hn : ∀ v ∈ vaults, v.n ≤ 16
  · rw [sizeCovered_of_small h hn]
    exact (and_iff_right hn).symm
  · obtain ⟨v, hv, hlarge⟩ : ∃ v ∈ vaults, 16 < v.n := by simpa using hn
    constructor
    · rintro ⟨sizes, hsizes, -⟩
      rw [mapM_inputVbytes_eq_none h hv hlarge] at hsizes
      cases hsizes
    · rintro ⟨hsmall, -⟩
      have := hsmall v hv
      omega

end Deficit

end Finalization

/-! ## A small library

Scripts are read as `bitcoin` reads them, but for data behind `OP_PUSHDATA`. -/

section Scripts

/-- The instructions of a script, the first bytes of which are pushed. -/
def readScript : ℕ → Script → List Instruction
  | _, [] => []
  | pending + 1, _ :: rest => readScript pending rest
  | 0, code :: rest =>
      if code.toNat ≤ 0x4b then .pushBytes :: readScript code.toNat rest
      else if code.toNat ≤ 0x4e then [.error]
      else .op code.toNat :: readScript 0 rest

lemma readScript_append (data rest : Script) :
    readScript data.length (data ++ rest) = readScript 0 rest := by
  induction data with
  | nil => rfl
  | cons byte data ih => exact ih

def multisigHost : Host ℕ := { Pool.regtest with
  lib := { Pool.regtestLibrary with
    newWshSortedmulti := fun m keys =>
      if 1 ≤ m ∧ m ≤ keys.length ∧ keys.length ≤ multiSigMaxAccounts then
        some ⟨[], [], multisigScript m keys, keys⟩
      else none
    sanityCheck := fun _ => true
    isPublicKey := fun key => key.length = 33
    instructions := readScript 0 } }

lemma multisigHost_reads : ReadsScripts multisigHost.lib where
  nil := rfl
  op := by
    intro code rest hcode
    have hpush : ¬ code.toNat ≤ 0x4b := by omega
    have hdata : ¬ code.toNat ≤ 0x4e := by omega
    show readScript 0 (code :: rest) = .op code.toNat :: readScript 0 rest
    rw [readScript, if_neg hpush, if_neg hdata]
  push := by
    intro count data rest hcount hlength
    show readScript 0 (count :: (data ++ rest)) = .pushBytes :: readScript 0 rest
    rw [readScript, if_pos (by omega), hcount, readScript_append]
  multi := by
    intro m keys desc hdesc
    simp only [multisigHost] at hdesc
    split_ifs at hdesc with hbounds
    obtain rfl := Option.some.inj hdesc
    exact ⟨hbounds.1, hbounds.2.1, hbounds.2.2, keys, .refl keys, rfl⟩

/-- The vault of the threshold `m` and of `n` keys that are told apart by their bytes. -/
def sampleVault (m n : ℕ) (h : 1 ≤ m ∧ m ≤ n ∧ n ≤ multiSigMaxAccounts) :
    SortedMulti multisigHost where
  m := m
  rawPubKeys := (List.range n).map fun i => List.replicate 33 (UInt8.ofNat i)
  desc := ⟨[], [], multisigScript m (((List.range n).map fun i =>
    List.replicate 33 (UInt8.ofNat i)).insertionSort (· ≤ ·)), ((List.range n).map fun i =>
      List.replicate 33 (UInt8.ofNat i)).insertionSort (· ≤ ·)⟩
  compressed := by
    intro key hkey
    obtain ⟨i, -, rfl⟩ := List.mem_map.mp hkey
    exact List.length_replicate ..
  built := by
    have hkeys : ((List.range n).map fun i => List.replicate 33 (UInt8.ofNat i)).all
        multisigHost.lib.isPublicKey = true := by
      rw [List.all_map, List.all_eq_true]
      intro i hi
      have hlength : (List.replicate 33 (UInt8.ofNat i)).length = 33 := List.length_replicate ..
      exact decide_eq_true hlength
    have hbounds : 1 ≤ m ∧ m ≤ (((List.range n).map fun i =>
        List.replicate 33 (UInt8.ofNat i)).insertionSort (· ≤ ·)).length ∧
        (((List.range n).map fun i =>
          List.replicate 33 (UInt8.ofNat i)).insertionSort (· ≤ ·)).length ≤ multiSigMaxAccounts := by
      rw [List.length_insertionSort, List.length_map, List.length_range]
      exact h
    rw [Pool.Registration.generateDescriptor, if_pos hkeys]
    show Option.filter _ (if _ then _ else none) = _
    rw [if_pos hbounds]
    rfl

/-- A hundred coins of a 2-of-3 vault that pay to one witness key hash. -/
theorem size_covered_two_of_three :
    SizeCovered (List.replicate 100 (sampleVault 2 3 (by decide)))
      [⟨1000, List.replicate 22 0⟩] :=
  (size_covered_iff multisigHost_reads _ _).mpr (by decide)

/-- **Not every transaction is covered.**  A vault of 17 keys has no estimate, and three coins of a
3-of-4 vault weigh more than what is charged. -/
theorem size_not_covered :
    ReadsScripts multisigHost.lib ∧
      (sampleVault 9 17 (by decide)).inputVbytes = none ∧
      ¬ SizeCovered [sampleVault 9 17 (by decide)] [⟨1000, List.replicate 22 0⟩] ∧
      (∀ v ∈ List.replicate 3 (sampleVault 3 4 (by decide)), v.inputVbytes = some 131) ∧
      ¬ SizeCovered (List.replicate 3 (sampleVault 3 4 (by decide)))
        [⟨1000, List.replicate 22 0⟩] := by
  have hlarge : (sampleVault 9 17 (by decide)).inputVbytes = none :=
    (sampleVault 9 17 (by decide)).inputVbytes_eq multisigHost_reads
  have hthree : (sampleVault 3 4 (by decide)).inputVbytes = some 131 := by
    rw [SortedMulti.inputVbytes_eq multisigHost_reads]
    rfl
  have hall : ∀ v ∈ List.replicate 3 (sampleVault 3 4 (by decide)), v = sampleVault 3 4 (by decide) :=
    fun v hv => List.eq_of_mem_replicate hv
  refine ⟨multisigHost_reads, hlarge, ?_, fun v hv => ?_, fun hcovered => ?_⟩
  · rintro ⟨sizes, hsizes, -⟩
    rw [mapM_inputVbytes_eq_none multisigHost_reads (List.mem_singleton_self _) (by decide)] at hsizes
    cases hsizes
  · rw [hall v hv, hthree]
  · have hsmall : ∀ v ∈ List.replicate 3 (sampleVault 3 4 (by decide)), v.n ≤ 16 := by
      intro v hv
      rw [hall v hv]
      decide
    have hle := (sizeCovered_of_small multisigHost_reads hsmall).mp hcovered
    revert hle
    decide

end Scripts

end BifrostNode.Btc
