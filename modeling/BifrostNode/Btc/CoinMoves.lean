import BifrostNode.Btc.Docket
import BifrostNode.Btc.Selection

/-!
# What happens to coins

Relayers submit coins and vote for them, and the calls of the socket queue and the hook change their
status when transactions lock them, give them back or spend them.

**One step.**  `BlazeMove` says everything that a step of the bridge can do to the coins and to the
counters of their submitters, and `Bridge.step_blaze` that it does.

**Status changes** are described key by key (`Restamped`), so that the order in which the inputs of a
transaction are gone through does not matter.
-/

namespace BifrostNode.Btc

open Cccp Staking Transition Pool Queue StorageMap

variable {AccountId : Type}

/-! ## The order of the storage -/

/-- The order does not depend on what is stored. -/
lemma storageOrder_mapVals {V W : Type} (host : Host AccountId) (m : StorageMap H256 V) (f : V → W) :
    storageOrder host (m.mapVals f) = (storageOrder host m).map fun e => (e.1, f e.2) := by
  have hlist : (m.mapVals f).toList = m.toList.map fun e => (e.1, f e.2) := by
    simp only [toList, List.map_filterMap, get_mapVals, Option.map_map]
    rfl
  rw [storageOrder, storageOrder, hlist]
  exact (List.map_insertionSort (fun a b : H256 × V => host.twox64 a.1 ≤ host.twox64 b.1)
    (fun a b : H256 × W => host.twox64 a.1 ≤ host.twox64 b.1) _ _ fun _ _ _ _ => Iff.rfl).symm

lemma mem_storageOrder {V : Type} {host : Host AccountId} {m : StorageMap H256 V} {e : H256 × V} :
    e ∈ storageOrder host m ↔ m.get e.1 = some e.2 := by
  rw [storageOrder, List.mem_insertionSort, mem_toList]

lemma nodup_storageOrder {V : Type} (host : Host AccountId) (m : StorageMap H256 V) :
    ((storageOrder host m).map Prod.fst).Nodup := by
  have hperm := (List.perm_insertionSort (fun a b : H256 × V => host.twox64 a.1 ≤ host.twox64 b.1)
    m.toList).map Prod.fst
  exact hperm.nodup_iff.mpr m.nodup_keys_toList

namespace Blaze

section Coins

variable {host : Host AccountId} {b b' b'' : Blaze AccountId}

/-- The coins that a PSBT spends do not depend on the status of the coins. -/
lemma extractUtxosFromPsbt_congr (psbt : Psbt)
    (h : ∀ k, (b'.utxos.get k).map Utxo.inner = (b.utxos.get k).map Utxo.inner) :
    b'.extractUtxosFromPsbt host psbt = b.extractUtxosFromPsbt host psbt := by
  have hinner : b'.utxos.mapVals Utxo.inner = b.utxos.mapVals Utxo.inner := by
    ext1 k
    exact h k
  have hfind : ∀ (c : Blaze AccountId) (p : UtxoInfoWithSize → Bool),
      ((storageOrder host c.utxos).find? fun e => p e.2.inner).map (fun e => e.2.inner) =
        ((storageOrder host (c.utxos.mapVals Utxo.inner)).find? fun e => p e.2).map Prod.snd := by
    intro c p
    rw [storageOrder_mapVals, List.find?_map, Option.map_map]
    rfl
  simp only [extractUtxosFromPsbt]
  congr 1
  funext e
  congr 1
  funext spent
  have hb := hfind b fun x => decide (x.txid = e.1.previousOutput.txid ∧
    x.vout = e.1.previousOutput.vout ∧ x.amount = spent.value)
  have hb' := hfind b' fun x => decide (x.txid = e.1.previousOutput.txid ∧
    x.vout = e.1.previousOutput.vout ∧ x.amount = spent.value)
  rw [hinner, ← hb] at hb'
  exact congrArg (okOr · Error.utxoDNE) hb'

/-- A coin with its size is kept under its hash, and described by the descriptor of its vault. -/
lemma withSize_eq_some {utxo : UtxoInfo} {descriptor : Descriptor} {inner : UtxoInfoWithSize}
    (h : withSize host utxo descriptor = some inner) :
    inner.hash = utxo.hash host ∧ inner.descriptor = descriptor.text := by
  simp only [withSize, Option.bind_eq_bind, Option.bind_eq_some_iff, Option.pure_def,
    Option.some.injEq] at h
  obtain ⟨_, -, rfl⟩ := h
  exact ⟨rfl, rfl⟩

/-! ## Clearing -/

@[simp] lemma discount_utxos [LinearOrder AccountId] (b : Blaze AccountId) (voters : List AccountId) :
    (b.discount voters).utxos = b.utxos := by
  rw [discount]
  split <;> rfl

/-- **The rule for `clear_utxos`**: what the removal of one coin keeps, clearing keeps.  A coin is still
there as it was when its turn comes. -/
lemma clearUtxos_rule [LinearOrder AccountId] {P : Blaze AccountId → Prop} (hb : P b)
    (hunconfirmed : ∀ c k u, P c → c.utxos.get k = some u → u.status = .unconfirmed →
      P { c.discount u.voters with utxos := c.utxos.remove k })
    (hother : ∀ c k u, P c → c.utxos.get k = some u → u.status ≠ .unconfirmed → u.status ≠ .used →
      P { c with utxos := c.utxos.remove k }) : P (b.clearUtxos host) := by
  have hloop : ∀ (clear : Blaze AccountId → H256 × Utxo AccountId → Blaze AccountId),
      (∀ s e, clear s e = if e.2.status = .used then s
        else
          let s := if e.2.status = .unconfirmed then s.discount e.2.voters else s
          { s with utxos := s.utxos.remove e.1 }) →
      ∀ (es : List (H256 × Utxo AccountId)) (c : Blaze AccountId), P c →
      (es.map Prod.fst).Nodup → (∀ e ∈ es, c.utxos.get e.1 = some e.2) → P (es.foldl clear c) := by
    intro clear hclear es
    induction es with
    | nil => exact fun _ hc _ _ => hc
    | cons e es ih =>
        intro c hc hnodup hes
        obtain ⟨hnot, hnodup⟩ := List.nodup_cons.mp hnodup
        have he := hes e List.mem_cons_self
        have hrest : ∀ e' ∈ es, (c.utxos.remove e.1).get e'.1 = some e'.2 := by
          intro e' he'
          have hne : e'.1 ≠ e.1 := by
            intro heq
            exact hnot (heq ▸ List.mem_map_of_mem he')
          rw [get_remove_of_ne _ hne]
          exact hes e' (List.mem_cons_of_mem _ he')
        rw [List.foldl_cons, hclear]
        dsimp only
        split_ifs with hused hstatus
        · exact ih c hc hnodup fun e' he' => hes e' (List.mem_cons_of_mem _ he')
        · rw [discount_utxos]
          exact ih _ (hunconfirmed c e.1 e.2 hc he hstatus) hnodup hrest
        · exact ih _ (hother c e.1 e.2 hc he hstatus hused) hnodup hrest
  exact hloop _ (fun _ _ => rfl) _ b hb (nodup_storageOrder host b.utxos) fun e he => mem_storageOrder.mp he

/-- **The rule for `submit_utxos`**: a coin gets a vote, which may confirm it, or comes in. -/
lemma submitUtxos_rule [LinearOrder AccountId] {P : Blaze AccountId → Prop} {relayers : Relayers AccountId}
    {getBondedDescriptor : Bytes → Option Descriptor} {authorityId : AccountId}
    {utxos : List UtxoInfo} (hb : P b)
    (hconfirm : ∀ c k u, P c → c.utxos.get k = some u → u.status = .unconfirmed →
      authorityId ∉ u.voters → relayers.majority ≤ (u.voters ++ [authorityId]).length →
      P { c.discount (u.voters ++ [authorityId]) with
        utxos := c.utxos.insert k
          { u with voters := u.voters ++ [authorityId], status := .available } })
    (hvote : ∀ c k u, P c → c.utxos.get k = some u → u.status = .unconfirmed →
      authorityId ∉ u.voters → P { c with
        utxos := c.utxos.insert k { u with voters := u.voters ++ [authorityId] } })
    (henter : ∀ c utxo descriptor inner, P c → getBondedDescriptor utxo.address = some descriptor →
      withSize host utxo descriptor = some inner → c.utxos.get (utxo.hash host) = none →
      c.unconfirmedUtxoCount.getD authorityId 0 < maxUnconfirmedUtxosPerRelayer →
      P { c with
        utxos := c.utxos.insert (utxo.hash host) ⟨inner, .unconfirmed, [authorityId]⟩
        unconfirmedUtxoCount := c.unconfirmedUtxoCount.insert authorityId
          (c.unconfirmedUtxoCount.getD authorityId 0 + 1) }) :
    Returns P (utxos.foldlM (submitUtxo host relayers getBondedDescriptor authorityId) b) := by
  refine Returns.foldlM (fun c utxo hc => ?_) hb
  rw [submitUtxo]
  split
  case h_1 => exact .pure hc
  case h_2 descriptor hdescriptor =>
    split
    case h_1 u hu =>
      by_cases hskip : u.status ≠ .unconfirmed ∨ authorityId ∈ u.voters
      · rw [if_pos hskip]
        exact .pure hc
      · rw [if_neg hskip, voteUtxo]
        obtain ⟨hstatus, hfresh⟩ := not_or.mp hskip
        refine .bind fun _ => ?_
        dsimp only
        split_ifs with hmajority
        · rw [discount_utxos]
          exact .pure (hconfirm c _ u hc hu (not_not.mp hstatus) hfresh hmajority)
        · exact .pure (hvote c _ u hc hu (not_not.mp hstatus) hfresh)
    case h_2 hnone =>
      dsimp only
      split_ifs with hquota
      · exact .pure hc
      · split
        case h_1 => exact .pure hc
        case h_2 inner hinner =>
          exact .pure (henter c utxo descriptor inner hc hdescriptor hinner hnone (not_le.mp hquota))

/-- **The rule for `force_push_utxos`**, after clearing: coins come in. -/
lemma forcePushUtxos_rule {P : Blaze AccountId → Prop}
    {getBondedDescriptor : Bytes → Option Descriptor} {utxos : List UtxoInfo} (hb : P b)
    (hpush : ∀ c utxo descriptor inner, P c → getBondedDescriptor utxo.address = some descriptor →
      withSize host utxo descriptor = some inner → c.utxos.get (utxo.hash host) = none →
      P { c with utxos := c.utxos.insert (utxo.hash host) ⟨inner, .available, []⟩ }) :
    P (utxos.foldl (forcePushUtxo host getBondedDescriptor) b) := by
  induction utxos generalizing b with
  | nil => exact hb
  | cons utxo utxos ih =>
      refine ih ?_
      rw [forcePushUtxo]
      split
      case h_1 => exact hb
      case h_2 descriptor hdescriptor =>
        split_ifs with hthere
        · exact hb
        · split
          case h_1 => exact hb
          case h_2 inner hinner =>
            refine hpush b utxo descriptor inner hb hdescriptor hinner ?_
            simpa [StorageMap.contains] using hthere

/-! ## Coins and counters -/

/-- Only coins and the counters of their submitters change. -/
def CoinsOnly (b b' : Blaze AccountId) : Prop :=
  b' = { b with utxos := b'.utxos, unconfirmedUtxoCount := b'.unconfirmedUtxoCount }

lemma CoinsOnly.refl (b : Blaze AccountId) : b.CoinsOnly b := rfl

lemma CoinsOnly.trans (h : b.CoinsOnly b') (h' : b'.CoinsOnly b'') : b.CoinsOnly b'' := by
  rw [CoinsOnly] at h h' ⊢
  rw [h', h]

lemma CoinsOnly.feeRates_eq (h : b.CoinsOnly b') : b'.feeRates = b.feeRates := by
  rw [CoinsOnly] at h
  rw [h]

lemma CoinsOnly.pendingTxs_eq (h : b.CoinsOnly b') : b'.pendingTxs = b.pendingTxs := by
  rw [CoinsOnly] at h
  rw [h]

lemma CoinsOnly.isActivated_eq (h : b.CoinsOnly b') : b'.isActivated = b.isActivated := by
  rw [CoinsOnly] at h
  rw [h]

lemma CoinsOnly.outboundPool_eq (h : b.CoinsOnly b') : b'.outboundPool = b.outboundPool := by
  rw [CoinsOnly] at h
  rw [h]

lemma setStatus_coinsOnly {status : UtxoStatus} {inputs : List UtxoInfoWithSize} :
    Returns b.CoinsOnly (b.setStatus status inputs) := by
  refine Returns.foldlM (P := b.CoinsOnly) (fun c input hc => ?_) (.refl b)
  exact .bind fun _ => .pure (hc.trans rfl)

section Calls

variable [LinearOrder AccountId] {getBondedDescriptor : Bytes → Option Descriptor}

lemma discount_coinsOnly (voters : List AccountId) : b.CoinsOnly (b.discount voters) := by
  rw [discount]
  split <;> rfl

lemma submitUtxos_coinsOnly {relayers : Relayers AccountId} {authorityId : AccountId}
    {utxos : List UtxoInfo} : Returns b.CoinsOnly
      (utxos.foldlM (submitUtxo host relayers getBondedDescriptor authorityId) b) := by
  refine submitUtxos_rule (P := b.CoinsOnly) (.refl b) ?_ ?_ ?_
  · intro c k u hc _ _ _ _
    exact (hc.trans (discount_coinsOnly (u.voters ++ [authorityId]))).trans rfl
  · exact fun c k u hc _ _ _ => hc.trans rfl
  · exact fun c utxo descriptor inner hc _ _ _ _ => hc.trans rfl

lemma clearUtxos_coinsOnly : b.CoinsOnly (b.clearUtxos host) := by
  refine clearUtxos_rule (P := b.CoinsOnly) (.refl b) ?_ ?_
  · intro c k u hc hu hstatus
    exact (hc.trans (discount_coinsOnly u.voters)).trans rfl
  · exact fun c k u hc _ _ _ => hc.trans rfl

omit [LinearOrder AccountId] in
lemma forcePushUtxos_coinsOnly {utxos : List UtxoInfo} :
    b.CoinsOnly (utxos.foldl (forcePushUtxo host getBondedDescriptor) b) :=
  forcePushUtxos_rule (P := b.CoinsOnly) (.refl b) fun _ _ _ _ hc _ _ _ => hc.trans rfl

end Calls

/-! ## Status changes -/

/-- Some of the coins get a status other than unconfirmed, and fee rates can only go. -/
structure Restamped (b : Blaze AccountId) (inputs : List UtxoInfoWithSize) (b' : Blaze AccountId) :
    Prop where
  count : b'.unconfirmedUtxoCount = b.unconfirmedUtxoCount
  feeRates : ∀ a rate, b'.feeRates.get a = some rate → ∃ a', b.feeRates.get a' = some rate
  utxos : ∀ k, b'.utxos.get k = b.utxos.get k ∨ ∃ u status, (∃ input ∈ inputs, input.hash = k) ∧
    status ≠ UtxoStatus.unconfirmed ∧ b.utxos.get k = some u ∧ b'.utxos.get k = some { u with status }

lemma Restamped.of_eq {inputs : List UtxoInfoWithSize} (hu : b'.utxos = b.utxos)
    (hc : b'.unconfirmedUtxoCount = b.unconfirmedUtxoCount) (hf : b'.feeRates = b.feeRates) :
    b.Restamped inputs b' :=
  ⟨hc, fun a rate h => ⟨a, hf ▸ h⟩, fun k => .inl (by rw [hu])⟩

/-- One change of status after another. -/
lemma Restamped.trans {inputs inputs' : List UtxoInfoWithSize} (h : b.Restamped inputs b')
    (h' : b'.Restamped inputs' b'') : b.Restamped (inputs ++ inputs') b'' := by
  refine ⟨h'.count.trans h.count, fun a rate hrate => ?_, fun k => ?_⟩
  · obtain ⟨a', ha'⟩ := h'.feeRates a rate hrate
    exact h.feeRates a' rate ha'
  rcases h.utxos k with hk | ⟨u, status, ⟨input, hmem, hinput⟩, hstatus, hu, hk⟩
  · rcases h'.utxos k with hk' | ⟨u, status, ⟨input, hmem, hinput⟩, hstatus, hu, hk'⟩
    · exact .inl (hk'.trans hk)
    · exact .inr ⟨u, status, ⟨input, List.mem_append_right _ hmem, hinput⟩, hstatus,
        hk.symm.trans hu, hk'⟩
  · rcases h'.utxos k with hk' | ⟨u', status', -, hstatus', hu', hk'⟩
    · exact .inr ⟨u, status, ⟨input, List.mem_append_left _ hmem, hinput⟩, hstatus, hu,
        hk'.trans hk⟩
    · obtain rfl := Option.some.inj (hk.symm.trans hu')
      exact .inr ⟨u, status', ⟨input, List.mem_append_left _ hmem, hinput⟩, hstatus', hu, hk'⟩

/-- A change of status leaves the coins what they are. -/
lemma Restamped.inner {inputs : List UtxoInfoWithSize} (h : b.Restamped inputs b') (k : H256) :
    (b'.utxos.get k).map Utxo.inner = (b.utxos.get k).map Utxo.inner := by
  rcases h.utxos k with hk | ⟨u, status, -, -, hu, hk⟩
  · rw [hk]
  · rw [hk, hu]
    rfl

/-- The inputs of a transaction get a status. -/
lemma setStatus_restamped {status : UtxoStatus} (hstatus : status ≠ .unconfirmed) :
    ∀ {inputs : List UtxoInfoWithSize} {b : Blaze AccountId},
      Returns (b.Restamped inputs) (b.setStatus status inputs) := by
  intro inputs
  induction inputs with
  | nil => exact .pure (.of_eq rfl rfl rfl)
  | cons input inputs ih =>
      intro b b' h
      simp only [setStatus, List.foldlM_cons, bind_eq_ok, okOr_eq_ok, pure_eq_ok] at h
      obtain ⟨b₁, ⟨u, hu, rfl⟩, h⟩ := h
      have hone : b.Restamped [input]
          { b with utxos := b.utxos.insert input.hash { u with status } } := by
        refine ⟨rfl, fun a rate h => ⟨a, h⟩, fun k => ?_⟩
        by_cases hk : k = input.hash
        · subst hk
          refine .inr ⟨u, status, ⟨input, List.mem_singleton_self _, rfl⟩, hstatus, hu, ?_⟩
          simp
        · exact .inl (get_insert_of_ne b.utxos hk _)
      exact hone.trans (ih b' h)

lemma lockUtxos_restamped {txid : H256} {inputs : List UtxoInfoWithSize} :
    Returns (b.Restamped inputs) (b.lockUtxos txid inputs) := by
  intro b' h
  simp only [lockUtxos, bind_eq_ok, pure_eq_ok] at h
  obtain ⟨b₁, h, rfl⟩ := h
  have hset := setStatus_restamped (by simp) b₁ h
  exact ⟨hset.count, hset.feeRates, hset.utxos⟩

lemma unlockUtxos_restamped {txid : H256} : Returns (b.Restamped
    ((b.pendingTxs.get txid).elim [] BTCTransaction.inputs)) (b.unlockUtxos txid) := by
  intro b' h
  simp only [unlockUtxos, bind_eq_ok, okOr_eq_ok] at h
  obtain ⟨tx, htx, h⟩ := h
  rw [htx]
  -- the transaction is not pending any more, which says nothing about its coins
  have hset := setStatus_restamped (by simp) b' h
  exact ⟨hset.count, hset.feeRates, hset.utxos⟩

end Coins

end Blaze

/-! ## The coins that a step touches -/

section Touched

variable [LinearOrder AccountId]

/-- The coins that a call of Blaze spends: those of a transaction that gets its majority. -/
def Bridge.spentBy (v : View AccountId) (s : Bridge AccountId) :
    Blaze.Call AccountId → List UtxoInfoWithSize
  | .broadcastPoll sub => (s.blaze.pendingTxs.get sub.txid).elim [] fun tx =>
      if v.relayers.majority ≤ tx.voters.length + 1 then tx.inputs else []
  | _ => []

/-- The coins that a transaction has locked. -/
def Bridge.lockedBy (s : Bridge AccountId) (txid : H256) : List UtxoInfoWithSize :=
  if s.blaze.isActivated then (s.blaze.pendingTxs.get txid).elim [] Blaze.BTCTransaction.inputs else []

/-- The coins that a PSBT spends. -/
def Bridge.inputsOf (host : Host AccountId) (s : Bridge AccountId) (raw : Bytes) :
    List UtxoInfoWithSize :=
  if s.blaze.isActivated then
    (host.lib.deserialize raw).elim [] fun psbt =>
      (s.blaze.extractUtxosFromPsbt host psbt).toOption.getD []
  else []

/-- The coins that a call of the socket queue locks or gives back. -/
def Bridge.movedBy (host : Host AccountId) (s : Bridge AccountId) :
    Queue.Call AccountId → List UtxoInfoWithSize
  | .submitRollbackRequest _ msg => s.inputsOf host msg.unsignedPsbt
  | .submitBumpFeeRequest _ oldTxid new => s.lockedBy oldTxid ++ s.inputsOf host new
  | .dropPendingRollbackRequest _ txid => s.lockedBy txid
  | _ => []

/-- The coins that a call locks, gives back or spends, if it goes through. -/
def Bridge.touched (host : Host AccountId) (s : Bridge AccountId) :
    Bridge.Step AccountId → List UtxoInfoWithSize
  | .blaze v call => if (s.blazeCall host v call).isOk then s.spentBy v call else []
  | .queue v call => if (s.queueCall host v call).isOk then s.movedBy host call else []
  | .pool _ _ | .onInitialize _ | .replaceAuthority _ _ => []

end Touched

/-! ## One step -/

section Moves

variable [LinearOrder AccountId] {host : Host AccountId} {v : View AccountId} {s s' : Bridge AccountId}

/-- **What a step can do to the coins**: one constructor for each operation of Blaze. -/
inductive BlazeMove (host : Host AccountId) (s : Bridge AccountId) (i : Bridge.Step AccountId)
    (b : Blaze AccountId) : Prop
  | submitted (v : View AccountId) (sub : Blaze.UtxoSubmission AccountId)
      (hi : i = .blaze v (.submitUtxos sub))
      (h : sub.utxos.foldlM (Blaze.submitUtxo host v.relayers (s.pool.getBondedDescriptor host)
        sub.authorityId) s.blaze = .ok b) : BlazeMove host s i b
  | rated (v : View AccountId) (sub : Blaze.FeeRateSubmission AccountId)
      (hi : i = .blaze v (.submitFeeRate sub))
      (h : s.blaze.submitFeeRate host v.relayers s.queue.maxFeeRate v.now sub = .ok b) :
      BlazeMove host s i b
  | touched (h : s.blaze.Restamped (s.touched host i) b) : BlazeMove host s i b
  | locked (selected : List UtxoInfoWithSize) (h : s.blaze.Restamped selected b)
      (havailable : ∀ input ∈ selected, ∃ k u, s.blaze.utxos.get k = some u ∧
        u.status = .available ∧ u.inner = input) : BlazeMove host s i b
  | cleared (utxos : List UtxoInfo) (hi : ∀ v sub, i ≠ .blaze v (.submitUtxos sub))
      (h : b = utxos.foldl (Blaze.forcePushUtxo host (s.pool.getBondedDescriptor host))
        (s.blaze.clearUtxos host)) : BlazeMove host s i b
  | renamed (old new : AccountId) (hi : i = .replaceAuthority old new)
      (h : b = s.blaze.replaceAuthority old new) : BlazeMove host s i b

/-- Coins and counters are as they were. -/
lemma BlazeMove.same {i : Bridge.Step AccountId} {b : Blaze AccountId}
    (hu : b.utxos = s.blaze.utxos)
    (hc : b.unconfirmedUtxoCount = s.blaze.unconfirmedUtxoCount)
    (hf : b.feeRates = s.blaze.feeRates) : BlazeMove host s i b :=
  .touched (.of_eq hu hc hf)

/-- A call of Blaze moves coins in one of these ways. -/
lemma Bridge.blazeCall_move {call : Blaze.Call AccountId} {b : Blaze AccountId}
    (h : s.blazeCall host v call = .ok b) : BlazeMove host s (.blaze v call) b := by
  have hok : (s.blazeCall host v call).isOk = true := by
    rw [h]
    rfl
  cases call with
  | setActivation origin isActivated =>
      simp only [Bridge.blazeCall, Blaze.setActivation, bind_eq_ok, ensure_eq_ok, pure_eq_ok,
        exists_const] at h
      obtain ⟨-, -, rfl⟩ := h
      exact .same rfl rfl rfl
  | submitUtxos sub =>
      simp only [Bridge.blazeCall, Blaze.submitUtxos, bind_eq_ok, ensure_eq_ok, exists_const,
        Blaze.verifyAuthority, Blaze.ensureActivation] at h
      obtain ⟨-, -, -, -, h⟩ := h
      exact .submitted v sub rfl h
  | broadcastPoll sub =>
      have htouched : s.touched host (.blaze v (.broadcastPoll sub)) =
          s.spentBy v (.broadcastPoll sub) := if_pos hok
      simp only [Bridge.blazeCall, Blaze.broadcastPoll, bind_eq_ok, ensure_eq_ok, okOr_eq_ok,
        exists_const, Blaze.verifyAuthority, Blaze.ensureActivation] at h
      obtain ⟨-, -, -, tx, htx, -, -, h⟩ := h
      refine .touched ?_
      rw [htouched]
      simp only [Bridge.spentBy, htx, Option.elim_some, List.length_append, List.length_singleton]
        at h ⊢
      split_ifs at h ⊢ with hmaj
      · have hset := Blaze.setStatus_restamped (by simp) b h
        exact ⟨hset.count, hset.feeRates, hset.utxos⟩
      · obtain rfl := pure_eq_ok.mp h
        exact .of_eq rfl rfl rfl
  | submitFeeRate sub =>
      exact .rated v sub rfl h
  | submitOutboundRequests sub =>
      simp only [Bridge.blazeCall, Blaze.submitOutboundRequests, bind_eq_ok, ensure_eq_ok, pure_eq_ok,
        exists_const, Blaze.verifyAuthority] at h
      obtain ⟨-, -, -, -, rfl⟩ := h
      exact .same rfl rfl rfl
  | forcePushUtxos origin utxos =>
      simp only [Bridge.blazeCall, Blaze.forcePushUtxos, bind_eq_ok, ensure_eq_ok, pure_eq_ok,
        exists_const, Blaze.ensureActivation] at h
      obtain ⟨-, -, -, rfl⟩ := h
      exact .cleared utxos (by simp) rfl
  | removeOutboundMessages sub =>
      simp only [Bridge.blazeCall, Blaze.removeOutboundMessages, bind_eq_ok, ensure_eq_ok, pure_eq_ok,
        exists_const, Blaze.ensureActivation] at h
      obtain ⟨-, -, -, rfl⟩ := h
      exact .same rfl rfl rfl

omit [LinearOrder AccountId] in
lemma Bridge.unlockIfActivated_restamped {txid : H256} :
    Returns (fun t => s.blaze.Restamped (s.lockedBy txid) t.blaze) (s.unlockIfActivated txid) := by
  intro t h
  rw [Bridge.unlockIfActivated] at h
  rw [Bridge.lockedBy]
  split_ifs at h ⊢ with hact
  · simp only [bind_eq_ok, ofBlaze_eq_ok, pure_eq_ok] at h
    obtain ⟨b, hb, rfl⟩ := h
    exact Blaze.unlockUtxos_restamped b hb
  · obtain rfl := pure_eq_ok.mp h
    exact .of_eq rfl rfl rfl

omit [LinearOrder AccountId] in
lemma Bridge.unlockIfActivated_isActivated {txid : H256} :
    Returns (fun t => t.blaze.isActivated = s.blaze.isActivated) (s.unlockIfActivated txid) := by
  intro t h
  rw [Bridge.unlockIfActivated] at h
  split_ifs at h
  · simp only [bind_eq_ok, ofBlaze_eq_ok, pure_eq_ok, Blaze.unlockUtxos, okOr_eq_ok] at h
    obtain ⟨b, ⟨tx, -, hb⟩, rfl⟩ := h
    exact (Blaze.setStatus_coinsOnly b hb).isActivated_eq
  · obtain rfl := pure_eq_ok.mp h
    rfl

omit [LinearOrder AccountId] in
/-- The coins of a PSBT are locked, in a state in which some coins have got another status. -/
lemma Bridge.lockIfActivated_restamped {t t' : Bridge AccountId} {inputs : List UtxoInfoWithSize}
    {txid : H256} {raw : Bytes} {psbt : Psbt} (hraw : host.lib.deserialize raw = some psbt)
    (hact : t.blaze.isActivated = s.blaze.isActivated) (ht : s.blaze.Restamped inputs t.blaze)
    (h : t.lockIfActivated host txid psbt = .ok t') :
    s.blaze.Restamped (inputs ++ s.inputsOf host raw) t'.blaze := by
  refine ht.trans ?_
  rw [Bridge.lockIfActivated, hact] at h
  rw [Bridge.inputsOf, hraw, Option.elim_some]
  split_ifs at h ⊢ with hs
  · simp only [bind_eq_ok, ofBlaze_eq_ok, pure_eq_ok] at h
    obtain ⟨found, hfound, b, hb, rfl⟩ := h
    rw [Blaze.extractUtxosFromPsbt_congr psbt ht.inner] at hfound
    rw [hfound]
    exact Blaze.lockUtxos_restamped b hb
  · obtain rfl := pure_eq_ok.mp h
    exact .of_eq rfl rfl rfl

omit [LinearOrder AccountId] in
/-- What a fee bump does for the type of its request leaves Blaze alone. -/
lemma Bridge.bumpRecords_blaze {oldTxid newTxid : H256} {request : PsbtRequest AccountId}
    {new : Bytes} : Returns (fun t => t.blaze = s.blaze)
      (s.bumpRecords host oldTxid newTxid request new) := by
  rw [Bridge.bumpRecords]
  split
  · exact .bind fun _ => .pure rfl
  · exact .pure rfl
  · exact .bind fun _ => .pure rfl

/-- A call of the socket queue moves coins in one of these ways. -/
lemma Bridge.queueCall_move {call : Queue.Call AccountId} {t : Bridge AccountId}
    (h : s.queueCall host v call = .ok t) : BlazeMove host s (.queue v call) t.blaze := by
  have hok : (s.queueCall host v call).isOk = true := by
    rw [h]
    rfl
  have hkept : Returns (fun t => t.blaze = s.blaze) (s.queueCall host v call) →
      BlazeMove host s (.queue v call) t.blaze := by
    intro hsame
    rw [hsame t h]
    exact .same rfl rfl rfl
  have htouched : s.touched host (.queue v call) = s.movedBy host call := if_pos hok
  cases call with
  | setAuthority origin new => exact hkept (.bind fun _ => .bind fun _ => .pure rfl)
  | setSocket origin new isBitcoin =>
      exact hkept (.bind fun _ => .ite (.bind fun _ => .pure rfl) (.bind fun _ => .pure rfl))
  | setMaxFeeRate origin new =>
      exact hkept (.bind fun _ => .bind fun _ => .bind fun _ => .pure rfl)
  | setMaxSocketMessageBytes origin new => exact hkept (.bind fun _ => .bind fun _ => .pure rfl)
  | submitUnsignedPsbt msg =>
      simp only [Bridge.queueCall, Bridge.submitUnsignedPsbt, bind_eq_ok, ensure_eq_ok, pure_eq_ok,
        Unique.exists_iff] at h
      obtain ⟨-, -, -, psbt, -, -, -, -, verified, -, rfl⟩ := h
      exact .same rfl rfl rfl
  | submitSignedPsbt msg =>
      simp only [Bridge.queueCall, Bridge.submitSignedPsbt, bind_eq_ok, ensure_eq_ok, okOr_eq_ok,
        exists_const] at h
      obtain ⟨-, unsigned, -, signed, -, request, -, -, -, combined, -, combined', -, signedPsbts, -,
        h⟩ := h
      split at h
      · obtain rfl := pure_eq_ok.mp h
        exact .same rfl rfl rfl
      · obtain rfl := pure_eq_ok.mp h
        exact .same rfl rfl rfl
  | submitExecutedRequest msg =>
      simp only [Bridge.queueCall, Bridge.submitExecutedRequest, bind_eq_ok, ensure_eq_ok, okOr_eq_ok,
        exists_const, Prod.exists] at h
      obtain ⟨-, request, -, confirmations, shouldExecute, -, h⟩ := h
      by_cases hexec : shouldExecute = true
      · rw [if_pos hexec] at h
        obtain rfl := pure_eq_ok.mp h
        exact .same rfl rfl rfl
      · rw [if_neg hexec] at h
        obtain rfl := pure_eq_ok.mp h
        exact .same rfl rfl rfl
  | submitRollbackRequest origin msg =>
      simp only [Bridge.queueCall, Bridge.submitRollbackRequest, bind_eq_ok, ensure_eq_ok, okOr_eq_ok,
        pure_eq_ok, Unique.exists_iff, tryGetCheckedPsbt] at h
      obtain ⟨-, -, psbt, hpsbt, -, -, -, -, vault, -, refund, -, refund', -, txInfo, -, -, -,
        systemVault, -, systemVault', -, -, t₁, hlock, rfl⟩ := h
      refine .touched ?_
      rw [htouched]
      have hsame : s.blaze.Restamped [] s.blaze := .of_eq rfl rfl rfl
      have hlocked := Bridge.lockIfActivated_restamped hpsbt rfl hsame hlock
      exact hlocked
  | submitRollbackPoll msg =>
      simp only [Bridge.queueCall, Bridge.submitRollbackPoll, bind_eq_ok, ensure_eq_ok, okOr_eq_ok,
        exists_const] at h
      obtain ⟨-, request, -, -, -, votes, -, h⟩ := h
      split_ifs at h
      · obtain rfl := pure_eq_ok.mp h
        exact .same rfl rfl rfl
      · obtain rfl := pure_eq_ok.mp h
        exact .same rfl rfl rfl
  | submitMigrationRequest origin raw =>
      simp only [Bridge.queueCall, Bridge.submitMigrationRequest, bind_eq_ok, ensure_eq_ok,
        Unique.exists_iff] at h
      obtain ⟨-, -, psbt, -, -, -, h⟩ := h
      split at h
      · simp only [bind_eq_ok, ensure_eq_ok, okOr_eq_ok, pure_eq_ok, Unique.exists_iff] at h
        obtain ⟨systemVault, -, address, -, -, rfl⟩ := h
        exact .cleared [] (by simp) rfl
      · cases h
  | submitBumpFeeRequest origin oldTxid new =>
      simp only [Bridge.queueCall, Bridge.submitBumpFeeRequest, bind_eq_ok, ensure_eq_ok, okOr_eq_ok,
        pure_eq_ok, Unique.exists_iff, tryGetCheckedPsbt] at h
      obtain ⟨-, request, -, -, -, oldPsbt, -, newPsbt, hpsbt, -, -, -, -, -, s₁, h₁, s₂, h₂, s₃, h₃,
        rfl⟩ := h
      have hblaze : s₁.blaze = s.blaze := bumpRecords_blaze s₁ h₁
      have hunlock : s.blaze.Restamped (s.lockedBy oldTxid) s₂.blaze := by
        have hunlock := Bridge.unlockIfActivated_restamped s₂ h₂
        simp only [Bridge.lockedBy, hblaze] at hunlock
        exact hunlock
      have hact : s₂.blaze.isActivated = s.blaze.isActivated := by
        rw [Bridge.unlockIfActivated_isActivated s₂ h₂]
        exact congrArg Blaze.isActivated hblaze
      refine .touched ?_
      rw [htouched]
      have hlocked := Bridge.lockIfActivated_restamped hpsbt hact hunlock h₃
      exact hlocked
  | dropPendingRollbackRequest origin txid =>
      simp only [Bridge.queueCall, Bridge.dropPendingRollbackRequest, bind_eq_ok, ensure_eq_ok,
        okOr_eq_ok, exists_const] at h
      obtain ⟨-, -, request, -, -, h⟩ := h
      refine .touched ?_
      rw [htouched]
      have hunlock := Bridge.unlockIfActivated_restamped t h
      exact hunlock

/-! ## The hook -/

omit [LinearOrder AccountId] in
/-- Tolerance is not about coins. -/
lemma Blaze.handleToleranceCounter_restamped (b : Blaze AccountId) (isIncrease : Bool) :
    b.Restamped [] (b.handleToleranceCounter host isIncrease) := by
  simp only [Blaze.handleToleranceCounter]
  split_ifs <;> exact .of_eq rfl rfl rfl

/-- Expired fee rates go before the hook looks at the outbound pool. -/
lemma Bridge.prepare_restamped : s.blaze.Restamped [] (s.prepare v).1.blaze := by
  simp only [Bridge.prepare]
  split_ifs
  · refine ⟨rfl, fun a rate h => ⟨a, ?_⟩, fun k => .inl rfl⟩
    simp only [Blaze.tryFeeRateFinalization, Blaze.liveFeeRates, get_filterKeys] at h
    split_ifs at h
    exact h
  · exact .of_eq rfl rfl rfl

lemma Bridge.prepare_utxos : (s.prepare v).1.blaze.utxos = s.blaze.utxos := by
  simp only [Bridge.prepare]
  split_ifs <;> rfl

omit [LinearOrder AccountId] in
/-- Coins that can be spent are available. -/
lemma Blaze.mem_getUtxos {b : Blaze AccountId} {x : UtxoInfoWithSize} (h : x ∈ b.getUtxos host) :
    ∃ k u, b.utxos.get k = some u ∧ u.status = .available ∧ u.inner = x := by
  simp only [Blaze.getUtxos, List.mem_filterMap] at h
  obtain ⟨⟨k, u⟩, hmem, h⟩ := h
  split_ifs at h with hstatus
  exact ⟨k, u, mem_storageOrder.mp hmem, hstatus, Option.some.inj h⟩

omit [LinearOrder AccountId] in
lemma scoredUtxos_holds {P : UtxoInfoWithSize → Prop} {utxos : List UtxoInfoWithSize}
    {longTermFeeRate feeRate : ℕ} (h : ∀ x ∈ utxos, P x) :
    ∀ x ∈ Bridge.scoredUtxos utxos longTermFeeRate feeRate, P x.utxo := by
  intro x hx
  simp only [Bridge.scoredUtxos, List.mem_filterMap] at hx
  obtain ⟨y, hy, hx⟩ := hx
  split_ifs at hx
  obtain rfl := Option.some.inj hx
  exact h y hy

omit [LinearOrder AccountId] in
/-- What a transaction of the hook is built from. -/
lemma Bridge.planOutbound_build {longTermFeeRate feeRate : ℕ} {psbt : Psbt} {messages : List Bytes}
    {selected : List UtxoInfoWithSize}
    (h : s.planOutbound host longTermFeeRate feeRate = some (.build psbt messages selected)) :
    ∃ requests target strategy,
      filterUnregisteredOutbounds host s.pool s.blaze.outboundPool = some (messages, requests) ∧
      selectCoins (scoredUtxos (s.blaze.getUtxos host) longTermFeeRate feeRate) target
        (u64 (43 * feeRate)) 200000 100000 dustLimit = some (selected, strategy) := by
  simp only [Bridge.planOutbound, Option.bind_eq_bind, Option.pure_def] at h
  split_ifs at h
  · cases h
  obtain ⟨⟨found, requests⟩, hfilter, h⟩ := Option.bind_eq_some_iff.mp h
  dsimp only at h
  split_ifs at h
  · cases h
  obtain ⟨amounts, -, h⟩ := Option.bind_eq_some_iff.mp h
  split_ifs at h
  · cases h
  split at h
  case h_1 => cases h
  case h_2 chosen strategy hselect =>
    obtain ⟨composed, -, h⟩ := Option.bind_eq_some_iff.mp h
    split at h
    · cases h
    · simp only [Option.some.injEq, Plan.build.injEq] at h
      obtain ⟨-, rfl, rfl⟩ := h
      exact ⟨requests, _, strategy, hfilter, hselect⟩

/-- A plan to build is made with fee rates that the relayers agree on. -/
lemma Bridge.plan_build {psbt : Psbt} {messages : List Bytes} {selected : List UtxoInfoWithSize}
    (h : s.plan host v = some (.build psbt messages selected)) :
    ∃ longTermFeeRate feeRate, (s.prepare v).1.planOutbound host longTermFeeRate feeRate =
      some (.build psbt messages selected) := by
  simp only [Bridge.plan] at h
  split at h
  case h_1 => cases h
  case h_2 t longTermFeeRate feeRate hprepare =>
    refine ⟨longTermFeeRate, feeRate, ?_⟩
    rw [hprepare]
    exact h

/-- The hook selects coins that are available. -/
lemma Bridge.plan_selected {psbt : Psbt} {messages : List Bytes} {selected : List UtxoInfoWithSize}
    (h : s.plan host v = some (.build psbt messages selected)) :
    ∀ input ∈ selected, ∃ k u, s.blaze.utxos.get k = some u ∧ u.status = .available ∧
      u.inner = input := by
  obtain ⟨longTermFeeRate, feeRate, h⟩ := plan_build h
  obtain ⟨requests, target, strategy, -, hselect⟩ := planOutbound_build h
  have hselected := selectCoins_holds hselect (scoredUtxos_holds fun x hx => Blaze.mem_getUtxos hx)
  rwa [s.prepare_utxos] at hselected

/-- The hook locks the coins it has selected, or leaves Blaze alone. -/
lemma Bridge.onInitialize_move (h : s.onInitialize host v = some s') :
    BlazeMove host s (.onInitialize v) s'.blaze := by
  obtain ⟨plan, hplan, h⟩ := Option.bind_eq_some_iff.mp h
  have hprepared := s.prepare_restamped (v := v)
  cases plan with
  | idle =>
      obtain rfl := Option.some.inj h
      exact .locked [] hprepared (by simp)
  | fail =>
      obtain rfl := Option.some.inj h
      exact .locked [] (hprepared.trans (Blaze.handleToleranceCounter_restamped _ true)) (by simp)
  | build psbt messages selected =>
      simp only [Bridge.execute, Option.bind_eq_bind, Option.bind_eq_some_iff, Option.pure_def,
        Option.some.injEq, toOption_eq_some] at h
      obtain ⟨parsed, -, b, hlock, rfl⟩ := h
      have hcleared : (s.prepare v).1.blaze.Restamped []
          ((s.prepare v).1.blaze.clearFeeRates.clearOutboundPool messages) := by
        refine ⟨rfl, fun a rate hrate => ?_, fun k => .inl rfl⟩
        cases hrate
      have hlocked := (hprepared.trans hcleared).trans (Blaze.lockUtxos_restamped b hlock)
      have htolerance : b.Restamped [] (b.handleToleranceCounter host false) :=
        b.handleToleranceCounter_restamped false
      have hall := hlocked.trans htolerance
      rw [List.append_nil] at hall
      exact .locked selected hall (plan_selected hplan)

/-- **What a step does to the coins.**  Every step of the network is one of these moves. -/
lemma Bridge.step_blaze {i : Bridge.Step AccountId} (h : s.step host i = some s') :
    BlazeMove host s i s'.blaze := by
  cases i with
  | pool v i =>
      simp only [Bridge.step, Option.bind_eq_bind, Option.bind_eq_some_iff, Option.pure_def,
        Option.some.injEq] at h
      obtain ⟨k, -, pool, -, rfl⟩ := h
      exact .same rfl rfl rfl
  | blaze v call =>
      obtain rfl := Option.some.inj h
      exact commit_induction (P := BlazeMove host s (.blaze v call)) (.same rfl rfl rfl)
        fun b hb => Bridge.blazeCall_move hb
  | queue v call =>
      obtain rfl := Option.some.inj h
      exact commit_induction (P := fun t => BlazeMove host s (.queue v call) t.blaze) (.same rfl rfl rfl)
        fun t ht => Bridge.queueCall_move ht
  | onInitialize v => exact onInitialize_move h
  | replaceAuthority old new =>
      obtain rfl := Option.some.inj h
      exact .renamed old new rfl rfl

end Moves

/-! ## What holds of every coin

The description of a coin never changes, so it is enough that it is right when the coin comes in. -/

section Coins

variable {P : H256 → UtxoInfoWithSize → Prop}

/-- `P` holds of every coin and of the hash under which it is kept. -/
def AllCoins (P : H256 → UtxoInfoWithSize → Prop) (utxos : StorageMap H256 (Blaze.Utxo AccountId)) :
    Prop :=
  ∀ k u, utxos.get k = some u → P k u.inner

lemma AllCoins.of_inner {utxos utxos' : StorageMap H256 (Blaze.Utxo AccountId)} (h : AllCoins P utxos)
    (hinner : ∀ k, (utxos'.get k).map Blaze.Utxo.inner = (utxos.get k).map Blaze.Utxo.inner) :
    AllCoins P utxos' := by
  intro k u hu
  have heq := hinner k
  rw [hu] at heq
  obtain ⟨w, hw, hwu⟩ := Option.map_eq_some_iff.mp heq.symm
  rw [← hwu]
  exact h k w hw

lemma AllCoins.insert {utxos : StorageMap H256 (Blaze.Utxo AccountId)} (h : AllCoins P utxos) {k : H256}
    {u : Blaze.Utxo AccountId} (hu : P k u.inner) : AllCoins P (utxos.insert k u) := by
  intro j w hw
  rw [get_insert] at hw
  split_ifs at hw with hj
  · obtain rfl := Option.some.inj hw
    exact hj ▸ hu
  · exact h j w hw

lemma AllCoins.remove {utxos : StorageMap H256 (Blaze.Utxo AccountId)} (h : AllCoins P utxos) (k : H256) :
    AllCoins P (utxos.remove k) := by
  intro j w hw
  rw [get_remove] at hw
  split_ifs at hw
  exact h j w hw

variable [LinearOrder AccountId] {host : Host AccountId} {getBondedDescriptor : Bytes → Option Descriptor}

/-- `submit_utxos` brings coins of bonded descriptors only. -/
lemma AllCoins.submitUtxos {b : Blaze AccountId} (h : AllCoins P b.utxos) {relayers : Relayers AccountId}
    {authorityId : AccountId} {utxos : List UtxoInfo}
    (hnew : ∀ utxo descriptor inner, getBondedDescriptor utxo.address = some descriptor →
      Blaze.withSize host utxo descriptor = some inner → P (utxo.hash host) inner) :
    Returns (fun b' => AllCoins P b'.utxos)
      (utxos.foldlM (Blaze.submitUtxo host relayers getBondedDescriptor authorityId) b) := by
  refine Blaze.submitUtxos_rule (P := fun c => AllCoins P c.utxos) h ?_ ?_ ?_
  · exact fun c k u hc hu _ _ _ => hc.insert (hc k u hu)
  · exact fun c k u hc hu _ _ => hc.insert (hc k u hu)
  · exact fun c utxo descriptor inner hc hd hinner _ _ => hc.insert (hnew utxo descriptor inner hd hinner)

omit [LinearOrder AccountId] in
/-- **`force_push_utxos`**, after clearing. -/
lemma AllCoins.forcePushUtxos {b : Blaze AccountId} (h : AllCoins P b.utxos) {utxos : List UtxoInfo}
    (hnew : ∀ utxo descriptor inner, getBondedDescriptor utxo.address = some descriptor →
      Blaze.withSize host utxo descriptor = some inner → P (utxo.hash host) inner) :
    AllCoins P (utxos.foldl (Blaze.forcePushUtxo host getBondedDescriptor) b).utxos := by
  refine Blaze.forcePushUtxos_rule (P := fun c => AllCoins P c.utxos) h ?_
  exact fun c utxo descriptor inner hc hd hinner _ => hc.insert (hnew utxo descriptor inner hd hinner)

/-- **A step keeps what holds of every coin**, if it holds of the coins that come in. -/
lemma BlazeMove.allCoins {s : Bridge AccountId} {i : Bridge.Step AccountId} {b : Blaze AccountId}
    (hnew : ∀ utxo descriptor inner, s.pool.getBondedDescriptor host utxo.address = some descriptor →
      Blaze.withSize host utxo descriptor = some inner → P (utxo.hash host) inner)
    (hm : BlazeMove host s i b) (h : AllCoins P s.blaze.utxos) : AllCoins P b.utxos := by
  cases hm with
  | submitted v sub hi hloop =>
      exact h.submitUtxos hnew b hloop
  | rated v sub hi hrate =>
      simp only [Blaze.submitFeeRate, bind_eq_ok, ensure_eq_ok, okOr_eq_ok, pure_eq_ok, exists_const,
        Blaze.verifyAuthority, Blaze.ensureActivation] at hrate
      obtain ⟨-, -, -, -, -, feeRates, -, rfl⟩ := hrate
      exact h
  | touched hstamp => exact h.of_inner hstamp.inner
  | locked selected hstamp havailable => exact h.of_inner hstamp.inner
  | cleared utxos hi heq =>
      rw [heq]
      refine AllCoins.forcePushUtxos ?_ hnew
      refine Blaze.clearUtxos_rule (P := fun c => AllCoins P c.utxos) h ?_ ?_
      · exact fun c k u hc _ _ => hc.remove k
      · exact fun c k u hc _ _ _ => hc.remove k
  | renamed old new hi heq =>
      rw [heq]
      refine h.of_inner fun k => ?_
      simp only [Blaze.replaceAuthority, get_mapVals, Option.map_map]
      congr 1
      funext u
      simp only [Function.comp_apply]
      split_ifs <;> rfl

end Coins

end BifrostNode.Btc
