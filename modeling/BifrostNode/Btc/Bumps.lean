import BifrostNode.Btc.Bridge

/-!
# Fee bumps

A transaction that is stuck is replaced by one with a higher fee.  `try_bump_fee_psbt_verification` compares
every new output with what the old transaction pays to its address.

**What it misses.**  An old output that the new transaction leaves out is compared with nothing, and of two
old outputs to one address the last one counts.

**Migrations.**  `submit_migration_request` admits one output, to the system vault of the *next* round, and
the verification compares the fees with what goes to the vault of the current round.  So the one amount that
a migration pays is compared with nothing but the old one, which it must not exceed.

`bump_keeps_iff` says when the payments are kept.
-/

namespace BifrostNode.Btc

open Cccp Transition Pool Queue StorageMap

/-! ## Amounts that go by their keys -/

section Graph

variable {α β : Type} {g : α → β} {s t : Multiset (α × β)}

/-- Entries whose values go by their keys are known by their keys. -/
lemma eq_map_fst_of_graph (h : ∀ e ∈ t, e.2 = g e.1) : (t.map Prod.fst).map (fun a => (a, g a)) = t := by
  rw [Multiset.map_map]
  conv_rhs => rw [← Multiset.map_id t]
  refine Multiset.map_congr rfl fun e he => ?_
  exact Prod.ext rfl (h e he).symm

lemma eq_iff_of_graph (h : ∀ e ∈ t, e.2 = g e.1) :
    t = s ↔ (∀ e ∈ s, e.2 = g e.1) ∧ t.map Prod.fst = s.map Prod.fst := by
  constructor
  · rintro rfl
    exact ⟨h, rfl⟩
  · rintro ⟨hs, hkeys⟩
    rw [← eq_map_fst_of_graph h, ← eq_map_fst_of_graph hs, hkeys]

lemma le_iff_of_graph (h : ∀ e ∈ t, e.2 = g e.1) :
    s ≤ t ↔ (∀ e ∈ s, e.2 = g e.1) ∧ s.map Prod.fst ≤ t.map Prod.fst := by
  constructor
  · intro hle
    exact ⟨fun e he => h e (Multiset.mem_of_le hle he), Multiset.map_le_map hle⟩
  · rintro ⟨hs, hkeys⟩
    rw [← eq_map_fst_of_graph h, ← eq_map_fst_of_graph hs]
    exact Multiset.map_le_map hkeys

/-- No key comes with two values. -/
def OneValue (s : Multiset (α × β)) : Prop := ∀ e ∈ s, ∀ e' ∈ s, e.1 = e'.1 → e.2 = e'.2

/-- If the value that goes by a key is always there, it is the only one exactly when there is one only. -/
lemma oneValue_iff_graph (h : ∀ e ∈ s, (e.1, g e.1) ∈ s) : OneValue s ↔ ∀ e ∈ s, e.2 = g e.1 := by
  refine ⟨fun hone e he => hone e he _ (h e he) rfl, fun hgraph e he e' he' hkey => ?_⟩
  rw [hgraph e he, hgraph e' he', hkey]

end Graph

/-! ## Payments -/

variable {AccountId : Type}

/-- What a PSBT pays, and to which addresses. -/
def payments (host : Host AccountId) (psbt : Psbt) : Multiset (Option Bytes × ℕ) :=
  (psbt.unsignedTx.output.map fun o => ((outputAddress host o).toOption, o.value) : List _)

/-- The payments to others than the vault. -/
def userPayments (vault : Bytes) (paid : Multiset (Option Bytes × ℕ)) :
    Multiset (Option Bytes × ℕ) := paid.filter fun e => e.1 ≠ some vault

/-- The payments before the fee went up. -/
def raised (feeDiff : ℕ) (paid : Multiset (Option Bytes × ℕ)) : Multiset (Option Bytes × ℕ) :=
  paid.map fun e => (e.1, e.2 + feeDiff)

/-- Those who are paid, as often as they are. -/
def payees (paid : Multiset (Option Bytes × ℕ)) : Multiset (Option Bytes) := paid.map Prod.fst

lemma payees_raised (feeDiff : ℕ) (paid : Multiset (Option Bytes × ℕ)) :
    payees (raised feeDiff paid) = payees paid := by
  rw [payees, raised, Multiset.map_map]
  rfl

/-- The payments that a request of the type is for are kept: those to users for a normal request, those to
users less the fee for a rollback, and for a migration all of them, one output to the vault less the fee. -/
def PaymentsKept (vault : Bytes) (feeDiff : ℕ) (old new : Multiset (Option Bytes × ℕ)) :
    RequestType → Prop
  | .normal => userPayments vault new = userPayments vault old
  | .rollback => userPayments vault old ≤ raised feeDiff (userPayments vault new)
  | .migration => ∃ amount rest, old = (some vault, amount + feeDiff) ::ₘ rest ∧
      new = (some vault, amount) ::ₘ rest

/-- **A bump keeps the payments**: it spends what was spent, its fee is higher, and the payments are
kept. -/
def BumpKeeps (host : Host AccountId) (vault : Bytes) (old new : Psbt) (requestType : RequestType) :
    Prop :=
  (∀ input ∈ old.unsignedTx.input, input ∈ new.unsignedTx.input) ∧
    ∃ oldFee newFee, old.fee = some oldFee ∧ new.fee = some newFee ∧ oldFee < newFee ∧
      PaymentsKept vault (newFee - oldFee) (payments host old) (payments host new) requestType

/-- What the coins that a PSBT spends are worth. -/
def Psbt.spent (self : Psbt) : Option ℕ := do
  let utxos ← (self.unsignedTx.input.zip self.inputs).mapM fun (txin, input) =>
    Psbt.fundingUtxo txin input
  Psbt.checkedSum (utxos.map TxOut.value)

/-- **The condition.**  The users are paid as often as they were, or at least as often for a rollback, and
none of them was paid two different amounts.  For a migration the coins that are spent are worth the same,
and but for the amount of one output to the vault nothing changes. -/
def SamePayees (host : Host AccountId) (vault : Bytes) (old new : Psbt) : RequestType → Prop
  | .normal => OneValue (userPayments vault (payments host old)) ∧
      payees (userPayments vault (payments host new)) = payees (userPayments vault (payments host old))
  | .rollback => OneValue (userPayments vault (payments host old)) ∧
      payees (userPayments vault (payments host old)) ≤ payees (userPayments vault (payments host new))
  | .migration => new.spent = old.spent ∧ ∃ rest oldAmount newAmount,
      payments host old = (some vault, oldAmount) ::ₘ rest ∧
        payments host new = (some vault, newAmount) ::ₘ rest

/-! ## What is verified -/

section Verified

variable {host : Host AccountId} {old new : Psbt} {requestType : RequestType} {vault : Bytes}

/-- The amounts of the old outputs, by their addresses. -/
lemma oldAmounts_spec {outputs : List TxOut} :
    ∀ {m m' : StorageMap Bytes ℕ},
      outputs.foldlM (fun m output => do
        return m.insert (← outputAddress host output) output.value) m = .ok m' →
      (∀ address value, m'.get address = some value → m.get address = some value ∨
        ∃ o ∈ outputs, outputAddress host o = .ok address ∧ o.value = value) ∧
      (∀ address, (m.get address).isSome → (m'.get address).isSome) ∧
      ∀ o ∈ outputs, ∃ address, outputAddress host o = .ok address ∧ (m'.get address).isSome := by
  induction outputs with
  | nil =>
      intro m m' h
      obtain rfl : m = m' := by simpa using h
      exact ⟨fun _ _ h => .inl h, fun _ h => h, fun _ ho => (by cases ho)⟩
  | cons o outputs ih =>
      intro m m' h
      simp only [List.foldlM_cons, bind_eq_ok, pure_eq_ok] at h
      obtain ⟨_, ⟨address, haddress, rfl⟩, h⟩ := h
      obtain ⟨hfrom, hkeep, hall⟩ := ih h
      have hself : ((m.insert address o.value).get address).isSome := by
        rw [get_insert_self]
        rfl
      refine ⟨fun key value hget => ?_, fun key hkey => hkeep key ?_, ?_⟩
      · rcases hfrom key value hget with hget | ⟨o', ho', hkey⟩
        · rw [get_insert] at hget
          split_ifs at hget with heq
          · obtain rfl := Option.some.inj hget
            exact .inr ⟨o, List.mem_cons_self, heq ▸ haddress, rfl⟩
          · exact .inl hget
        · exact .inr ⟨o', List.mem_cons_of_mem _ ho', hkey⟩
      · rw [get_insert]
        split_ifs
        · rfl
        · exact hkey
      · intro o' ho'
        rcases List.mem_cons.mp ho' with rfl | ho'
        · exact ⟨address, haddress, hkeep address hself⟩
        · exact hall o' ho'

/-- The old amount that a new output is compared with, if it is.  The output of a migration has one, of
which the verification says little. -/
def Compared (vault : Bytes) (amounts : StorageMap Bytes ℕ) (feeDiff : ℕ) (address : Bytes)
    (value : ℕ) : RequestType → Prop
  | .normal => address ≠ vault → amounts.get address = some value
  | .rollback => address ≠ vault → amounts.get address = some (value + feeDiff)
  | .migration => ∃ oldAmount, amounts.get address = some oldAmount

lemma verifyBumpedOutput_ok {amounts : StorageMap Bytes ℕ} {feeDiff : ℕ} {output : TxOut}
    (h : verifyBumpedOutput host requestType vault amounts feeDiff output = .ok ()) :
    ∃ address, outputAddress host output = .ok address ∧
      Compared vault amounts feeDiff address output.value requestType := by
  simp only [verifyBumpedOutput, bind_eq_ok] at h
  obtain ⟨address, haddress, h⟩ := h
  refine ⟨address, haddress, ?_⟩
  split at h
  case h_1 oldAmount hget =>
    simp only [bind_eq_ok, okOr_eq_ok, checkedSub64] at h
    obtain ⟨diff, hdiff, h⟩ := h
    split_ifs at hdiff with hle
    obtain rfl := Option.some.inj hdiff
    cases requestType with
    | normal =>
        intro hne
        rcases ensure_eq_ok.mp h with hvault | hvalue
        · exact absurd hvault hne
        · rw [hget, hvalue]
    | rollback =>
        intro hne
        rcases ensure_eq_ok.mp h with hvault | hfee
        · exact absurd hvault hne
        · rw [hget, hfee]
          congr 1
          omega
    | migration => exact ⟨oldAmount, hget⟩
  case h_2 hget =>
    simp only [bind_eq_ok, ensure_eq_ok] at h
    obtain ⟨-, hmigration, hvault⟩ := h
    cases requestType with
    | normal => exact fun hne => absurd hvault hne
    | rollback => exact fun hne => absurd hvault hne
    | migration => exact absurd rfl hmigration

/-- **What is verified**: inputs, fee and payments, all against the vault of the current round. -/
lemma tryBumpFeePsbtVerification_ok [LinearOrder AccountId] {pool : Registration AccountId}
    (h : tryBumpFeePsbtVerification host pool old new requestType = .ok ()) :
    ∃ vault oldFee newFee, pool.getSystemVault pool.currentRound = some vault ∧
      (∀ input ∈ old.unsignedTx.input, input ∈ new.unsignedTx.input) ∧
      old.fee = some oldFee ∧ new.fee = some newFee ∧ oldFee < newFee ∧
      ∃ amounts : StorageMap Bytes ℕ,
        (∀ address value, amounts.get address = some value →
          (some address, value) ∈ payments host old) ∧
        (∀ e ∈ payments host old, ∃ value, e.1.bind amounts.get = some value) ∧
        ∀ e ∈ payments host new, ∃ address, e.1 = some address ∧
          Compared vault amounts (newFee - oldFee) address e.2 requestType := by
  simp only [tryBumpFeePsbtVerification, bind_eq_ok, okOr_eq_ok, ensure_eq_ok] at h
  obtain ⟨vault, hvault, -, -, -, hinputs, oldFee, hold, newFee, hnew, -, hfees, amounts, hamounts,
    houtputs⟩ := h
  obtain ⟨hfrom, -, hall⟩ := oldAmounts_spec hamounts
  refine ⟨vault, oldFee, newFee, hvault, hinputs, hold, hnew, hfees, amounts,
    fun address value hget => ?_, fun e he => ?_, fun e he => ?_⟩
  · rcases hfrom address value hget with hnone | ⟨o, ho, haddress, rfl⟩
    · cases hnone
    · exact Multiset.mem_coe.mpr (List.mem_map.mpr ⟨o, ho, by rw [haddress]; rfl⟩)
  · obtain ⟨o, ho, rfl⟩ := List.mem_map.mp (Multiset.mem_coe.mp he)
    obtain ⟨address, haddress, hsome⟩ := hall o ho
    obtain ⟨value, hvalue⟩ := Option.isSome_iff_exists.mp hsome
    exact ⟨value, by simp only [haddress, Except.toOption, Option.bind_some, hvalue]⟩
  · obtain ⟨o, ho, rfl⟩ := List.mem_map.mp (Multiset.mem_coe.mp he)
    obtain ⟨address, haddress, hcompared⟩ := verifyBumpedOutput_ok (forM_eq_ok.mp houtputs o ho)
    exact ⟨address, by rw [haddress]; rfl, hcompared⟩

end Verified

/-! ## Migrations -/

section Migration

variable {host : Host AccountId} {psbt old new : Psbt} {vault : Bytes} {oldFee newFee : ℕ}

lemma foldlM_checkedAdd64 {values : List ℕ} :
    ∀ {start sum : ℕ}, values.foldlM checkedAdd64 start = some sum → sum = start + values.sum := by
  induction values with
  | nil =>
      intro start sum h
      obtain rfl := Option.some.inj h
      rfl
  | cons value values ih =>
      intro start sum h
      simp only [List.foldlM_cons, Option.bind_eq_bind, Option.bind_eq_some_iff, checkedAdd64] at h
      obtain ⟨next, hnext, h⟩ := h
      split_ifs at hnext
      obtain rfl := Option.some.inj hnext
      rw [ih h, List.sum_cons, Nat.add_assoc]

lemma sum_payments (host : Host AccountId) (psbt : Psbt) :
    ((payments host psbt).map Prod.snd).sum = (psbt.unsignedTx.output.map TxOut.value).sum := by
  simp only [payments, Multiset.map_coe, Multiset.sum_coe, List.map_map]
  rfl

/-- What is spent is paid to somebody, or it is the fee. -/
lemma spent_eq (host : Host AccountId) {fee : ℕ} (h : psbt.fee = some fee) :
    psbt.spent = some (((payments host psbt).map Prod.snd).sum + fee) := by
  simp only [Psbt.fee, Option.bind_eq_bind, Option.bind_eq_some_iff, checkedSub64] at h
  obtain ⟨utxos, hutxos, inputs, hinputs, outputs, houtputs, h⟩ := h
  split_ifs at h with hle
  have hfee := Option.some.inj h
  have hsum : outputs = 0 + _ := foldlM_checkedAdd64 houtputs
  simp only [Psbt.spent, Option.bind_eq_bind, hutxos, Option.bind_some, hinputs]
  rw [sum_payments]
  congr 1
  omega

/-- The fee of a migration is all that its output to the vault has less. -/
lemma migration_kept_iff (hold : old.fee = some oldFee) (hnew : new.fee = some newFee)
    (hfees : oldFee < newFee) :
    PaymentsKept vault (newFee - oldFee) (payments host old) (payments host new) .migration ↔
      SamePayees host vault old new .migration := by
  rw [PaymentsKept, SamePayees, spent_eq host hold, spent_eq host hnew]
  constructor
  · rintro ⟨amount, rest, heq, hneweq⟩
    refine ⟨?_, rest, amount + (newFee - oldFee), amount, heq, hneweq⟩
    rw [heq, hneweq, Multiset.map_cons, Multiset.map_cons, Multiset.sum_cons, Multiset.sum_cons]
    congr 1
    omega
  · rintro ⟨hspent, rest, oldAmount, newAmount, heq, hneweq⟩
    have hsums := Option.some.inj hspent
    rw [heq, hneweq, Multiset.map_cons, Multiset.map_cons, Multiset.sum_cons, Multiset.sum_cons] at hsums
    have hamount : oldAmount = newAmount + (newFee - oldFee) := by
      simp only at hsums
      omega
    exact ⟨newAmount, rest, hamount ▸ heq, hneweq⟩

/-- If the vault was paid alone and once, the one output of the other transaction goes to it. -/
lemma samePayees_single_iff (hsingle : payees (payments host old) = {some vault})
    (hpaid : ∀ e ∈ payments host new, e.1 ∈ payees (payments host old)) :
    SamePayees host vault old new .migration ↔
      new.spent = old.spent ∧ new.unsignedTx.output.length = 1 := by
  obtain ⟨⟨-, oldAmount⟩, hold, rfl⟩ := Multiset.map_eq_singleton.mp hsingle
  have hcard : new.unsignedTx.output.length = (payments host new).card := by
    rw [payments, Multiset.coe_card, List.length_map]
  rw [hcard, SamePayees, hold]
  refine and_congr_right fun _ => ⟨?_, fun hone => ?_⟩
  · rintro ⟨rest, _, newAmount, heq, hneweq⟩
    have hrest := congrArg Multiset.card heq
    rw [Multiset.card_singleton, Multiset.card_cons] at hrest
    rw [hneweq, Multiset.card_cons]
    omega
  · obtain ⟨⟨payee, newAmount⟩, hneweq⟩ := Multiset.card_eq_one.mp hone
    have hpayee := hpaid (payee, newAmount) (hneweq ▸ Multiset.mem_singleton_self _)
    rw [hsingle, Multiset.mem_singleton] at hpayee
    exact ⟨0, oldAmount, newAmount, rfl, by rw [hneweq, ← hpayee]; rfl⟩

end Migration

/-! ## When the payments are kept -/

/-- **When a bump keeps the payments.**  A bump that is verified keeps them exactly when it pays those who
were paid, and none of these was paid two different amounts.  The vault is that of the current round, and
for a migration any, such as that of the next round.  A migration that paid the vault alone and once is kept
exactly when the coins that are spent are worth the same and there is one output again. -/
theorem bump_keeps_iff [LinearOrder AccountId] {host : Host AccountId} {pool : Registration AccountId}
    {old new : Psbt} {requestType : RequestType} {vault : Bytes}
    (hvault : requestType ≠ .migration → pool.getSystemVault pool.currentRound = some vault)
    (h : tryBumpFeePsbtVerification host pool old new requestType = .ok ()) :
    (BumpKeeps host vault old new requestType ↔ SamePayees host vault old new requestType) ∧
      (requestType = .migration → payees (payments host old) = {some vault} →
        (BumpKeeps host vault old new requestType ↔
          new.spent = old.spent ∧ new.unsignedTx.output.length = 1)) := by
  obtain ⟨current, oldFee, newFee, hcurrent, hinputs, hold, hnew, hfees, amounts, hfrom, hall,
    hcompared⟩ := tryBumpFeePsbtVerification_ok h
  -- only the payments are left to be kept
  have hkeeps : BumpKeeps host vault old new requestType ↔ PaymentsKept vault (newFee - oldFee)
      (payments host old) (payments host new) requestType := by
    refine ⟨?_, fun hkept => ⟨hinputs, oldFee, newFee, hold, hnew, hfees, hkept⟩⟩
    rintro ⟨-, oldFee', newFee', hold', hnew', -, hkept⟩
    obtain rfl := Option.some.inj (hold.symm.trans hold')
    obtain rfl := Option.some.inj (hnew.symm.trans hnew')
    exact hkept
  rw [hkeeps]
  set g : Option Bytes → ℕ := fun a => (a.bind amounts.get).getD 0 with hg
  have huser : OneValue (userPayments vault (payments host old)) ↔
      ∀ e ∈ userPayments vault (payments host old), e.2 = g e.1 := by
    refine oneValue_iff_graph fun e he => ?_
    obtain ⟨hmem, hne⟩ := Multiset.mem_filter.mp he
    obtain ⟨value, hvalue⟩ := hall e hmem
    obtain ⟨address, haddress, hget⟩ := Option.bind_eq_some_iff.mp hvalue
    have hlast : g e.1 = value := by simp only [hg, hvalue, Option.getD_some]
    rw [hlast, haddress]
    exact Multiset.mem_filter.mpr ⟨hfrom address value hget, haddress ▸ hne⟩
  cases requestType with
  | normal =>
      obtain rfl := Option.some.inj (hcurrent.symm.trans (hvault (by decide)))
      have hgraph : ∀ e ∈ userPayments current (payments host new), e.2 = g e.1 := by
        intro e he
        obtain ⟨hmem, hne⟩ := Multiset.mem_filter.mp he
        obtain ⟨address, haddress, hsame⟩ := hcompared e hmem
        rw [haddress] at hne
        rw [hg, haddress]
        have hget : amounts.get address = some e.2 := hsame fun heq => hne (congrArg some heq)
        simp only [Option.bind_some, hget, Option.getD_some]
      refine ⟨?_, fun hmigration => by cases hmigration⟩
      rw [PaymentsKept, SamePayees, huser]
      exact eq_iff_of_graph hgraph
  | rollback =>
      obtain rfl := Option.some.inj (hcurrent.symm.trans (hvault (by decide)))
      have hgraph : ∀ e ∈ raised (newFee - oldFee) (userPayments current (payments host new)),
          e.2 = g e.1 := by
        intro e he
        obtain ⟨e, hpaid, rfl⟩ := Multiset.mem_map.mp he
        obtain ⟨hmem, hne⟩ := Multiset.mem_filter.mp hpaid
        obtain ⟨address, haddress, hless⟩ := hcompared e hmem
        rw [haddress] at hne
        have hget : amounts.get address = some (e.2 + (newFee - oldFee)) :=
          hless fun heq => hne (congrArg some heq)
        simp only [hg, haddress, Option.bind_some, hget, Option.getD_some]
      refine ⟨?_, fun hmigration => by cases hmigration⟩
      rw [PaymentsKept, SamePayees, huser,
        ← payees_raised (newFee - oldFee) (userPayments current (payments host new))]
      exact le_iff_of_graph hgraph
  | migration =>
      have hpaid : ∀ e ∈ payments host new, e.1 ∈ payees (payments host old) := by
        intro e he
        obtain ⟨address, haddress, oldAmount, hget⟩ := hcompared e he
        rw [haddress]
        exact Multiset.mem_map_of_mem Prod.fst (hfrom address oldAmount hget)
      refine ⟨migration_kept_iff hold hnew hfees, fun _ hsingle => ?_⟩
      rw [migration_kept_iff hold hnew hfees]
      exact samePayees_single_iff hsingle hpaid

section Small

/-- The system vault has the address `[9]`, and that of the next round `[11]`. -/
def bumpPool : Registration ℕ := { Registration.genesis regtest [1, 2] with
  systemVault := ((∅ : StorageMap ℕ _).insert 1 ⟨.generated [9], [], ∅, 1, 1⟩).insert 2
    ⟨.generated [11], [], ∅, 1, 1⟩ }

/-- A transaction that spends coins of the values. -/
def bumpPsbt (coins : List ℕ) (output : List TxOut) : Psbt where
  unsignedTx := ⟨2, 0, coins.zipIdx.map fun c => ⟨⟨1, c.2⟩, [], 0⟩, output⟩
  inputs := coins.map fun c => ⟨some ⟨c, [1]⟩, none, none, [], []⟩

theorem bump_keeps_small : BumpKeeps regtest [9]
      (bumpPsbt [10000] [⟨1000, [5]⟩, ⟨2000, [6]⟩, ⟨5000, [9]⟩])
      (bumpPsbt [10000] [⟨1000, [5]⟩, ⟨2000, [6]⟩, ⟨4000, [9]⟩]) .normal ∧
    BumpKeeps regtest [11] (bumpPsbt [10000] [⟨8000, [11]⟩]) (bumpPsbt [10000] [⟨7000, [11]⟩])
      .migration := by
  constructor
  · have hvault : bumpPool.getSystemVault bumpPool.currentRound = some [9] := by decide +kernel
    refine (bump_keeps_iff (fun _ => hvault) (by rfl)).1.mpr ⟨?_, by decide +kernel⟩
    have hpaid : userPayments [9] (payments regtest
        (bumpPsbt [10000] [⟨1000, [5]⟩, ⟨2000, [6]⟩, ⟨5000, [9]⟩])) =
          {(some [5], 1000), (some [6], 2000)} := by decide +kernel
    rw [hpaid]
    simp [OneValue]
  · have hbump : tryBumpFeePsbtVerification regtest bumpPool (bumpPsbt [10000] [⟨8000, [11]⟩])
        (bumpPsbt [10000] [⟨7000, [11]⟩]) .migration = .ok () := by rfl
    exact ((bump_keeps_iff (fun hne => absurd rfl hne) hbump).2 rfl (by decide +kernel)).mpr
      (by decide +kernel)

/-- **A payment is left out.**  The new transaction does not pay user 6 any more.  It has one output less,
which is allowed, and the payment is compared with nothing.

**The amount of a migration is compared with no fee.**  The vault of the next round gets 1000 less, and the
fee is higher by 6000, for which another coin is spent. -/
theorem bump_drops : (tryBumpFeePsbtVerification regtest bumpPool
        (bumpPsbt [10000] [⟨1000, [5]⟩, ⟨2000, [6]⟩, ⟨5000, [9]⟩])
        (bumpPsbt [10000] [⟨1000, [5]⟩, ⟨4000, [9]⟩]) .normal = .ok () ∧
      bumpPool.getSystemVault bumpPool.currentRound = some [9] ∧
      ¬ BumpKeeps regtest [9] (bumpPsbt [10000] [⟨1000, [5]⟩, ⟨2000, [6]⟩, ⟨5000, [9]⟩])
        (bumpPsbt [10000] [⟨1000, [5]⟩, ⟨4000, [9]⟩]) .normal) ∧
    (tryBumpFeePsbtVerification regtest bumpPool
        (bumpPsbt [10000] [⟨8000, [11]⟩]) (bumpPsbt [10000, 5000] [⟨7000, [11]⟩]) .migration = .ok () ∧
      bumpPool.getSystemVault (bumpPool.currentRound + 1) = some [11] ∧
      ¬ BumpKeeps regtest [11] (bumpPsbt [10000] [⟨8000, [11]⟩])
        (bumpPsbt [10000, 5000] [⟨7000, [11]⟩]) .migration) := by
  refine ⟨⟨by rfl, by decide +kernel, ?_⟩, by rfl, by decide +kernel, ?_⟩
  · rintro ⟨-, oldFee, newFee, -, -, -, hkept⟩
    have hcard := congrArg Multiset.card hkept
    revert hcard
    decide +kernel
  · rintro ⟨-, oldFee, newFee, hold, hnew, hfees, hkept⟩
    have hspent := ((migration_kept_iff hold hnew hfees).mp hkept).1
    revert hspent
    decide +kernel

end Small

end BifrostNode.Btc
