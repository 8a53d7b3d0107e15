import BifrostNode.Btc.Cargo

/-!
# Single payment

A message of Socket is an order to pay a user, and the transaction of a request pays for the messages in it.
`PaidOnce` says that no two requests have the same order, and that `SocketMessages` knows which one has it.

**Two producers.**  While Blaze is deactivated the authority submits transactions, with messages that are
not in `SocketMessages`.  While it is activated the hook builds them from the outbound pool, and there the
messages are looked up when they are submitted to the pool.  A message that the authority takes later on
stays in the pool, and the hook pays for it once more.

**Otherwise** every order is in one request (`messages_paid_once`), however often the fee is bumped.
-/

namespace BifrostNode.Btc

open Cccp Staking Transition Pool Queue Filing

variable {AccountId : Type}

/-! ## Who has a message -/

/-- The request has the message in it. -/
def Docket.Contains (host : Host AccountId) (d : Docket AccountId) (p : Stage) (txid : H256)
    (m : SocketMessage) : Prop :=
  ∃ r, (d.requests p).get txid = some r ∧
    ∃ b ∈ r.socketMessages, SocketMessage.tryFrom host.codec b = some m

/-- **Single payment.**  At most one request has a message with a sequence, and `SocketMessages` has the
message and the txid of the request. -/
structure Bridge.PaidOnce (host : Host AccountId) (s : Bridge AccountId) : Prop where
  once : ∀ p p' txid txid' m m', s.docket.Contains host p txid m → s.docket.Contains host p' txid' m' →
    sequence m = sequence m' → p = p' ∧ txid = txid'
  recorded : ∀ q txid m, s.queue.socketMessages.get q = some (txid, m) ↔
    sequence m = q ∧ ∃ p, s.docket.Contains host p txid m

/-- The messages of the requests are filed in `SocketMessages`. -/
abbrev Bridge.Filed (host : Host AccountId) (s : Bridge AccountId) : Prop :=
  Filing.Filed (SocketMessage.tryFrom host.codec) sequence Prod.snd s.docket.messages
    s.queue.socketMessages

section Contains

variable {host : Host AccountId} {d d' : Docket AccountId} {s : Bridge AccountId}

lemma Docket.contains_iff {p : Stage} {txid : H256} {m : SocketMessage} :
    d.Contains host p txid m ↔ Holds (SocketMessage.tryFrom host.codec) d.messages (p, txid) m := by
  rw [Docket.Contains, Holds, Docket.messages, Docket.cargo]
  cases (d.requests p).get txid with
  | none => simp
  | some r => simp [PsbtRequest.cargo]

lemma Bridge.paidOnce_iff : s.PaidOnce host ↔ s.Filed host := by
  constructor
  · intro h
    refine ⟨fun k k' m m' hk hk' heq => ?_, fun q t m => ?_⟩
    · have hsame := h.once k.1 k'.1 k.2 k'.2 m m' (Docket.contains_iff.mpr hk)
        (Docket.contains_iff.mpr hk') heq
      exact Prod.ext hsame.1 hsame.2
    · rw [h.recorded]
      constructor
      · rintro ⟨heq, p, hp⟩
        exact ⟨(p, t), rfl, Docket.contains_iff.mp hp, heq⟩
      · rintro ⟨⟨p, t⟩, rfl, hp, heq⟩
        exact ⟨heq, p, Docket.contains_iff.mpr hp⟩
  · intro h
    refine ⟨fun p p' txid txid' m m' hp hp' heq => ?_, fun q txid m => ?_⟩
    · have hsame := h.once (p, txid) (p', txid') m m' (Docket.contains_iff.mp hp)
        (Docket.contains_iff.mp hp') heq
      exact Prod.mk.inj hsame
    · rw [h.registered]
      constructor
      · rintro ⟨⟨p, t⟩, rfl, hp, heq⟩
        exact ⟨heq, p, Docket.contains_iff.mpr hp⟩
      · rintro ⟨heq, p, hp⟩
        exact ⟨(p, txid), rfl, Docket.contains_iff.mp hp, heq⟩

lemma Docket.messages_of_cargo_none {k : Stage × H256} (h : d.cargo k = none) : d.messages k = [] := by
  rw [Docket.messages, h]
  rfl

/-- A request is filled with messages. -/
lemma Docket.messages_update {k : Stage × H256} {type : RequestType} {messages : List Bytes}
    (h : d'.cargo = Function.update d.cargo k (some (type, messages))) :
    d'.messages = Function.update d.messages k messages := by
  funext x
  simp only [Docket.messages, h, Function.update_apply]
  split_ifs <;> rfl

/-- A request that moves on keeps its messages. -/
lemma Docket.messages_move {k k' : Stage × H256}
    (h : d'.cargo = Function.update (Function.update d.cargo k none) k' (d.cargo k)) :
    d'.messages = move d.messages k k' := by
  funext x
  simp only [Docket.messages, move, h, Function.update_apply]
  split_ifs <;> rfl

end Contains

/-! ## What the hook takes -/

variable [LinearOrder AccountId] {host : Host AccountId} {s s' : Bridge AccountId}
  {i : Bridge.Step AccountId}

/-- The messages that the hook would pay for are not in `SocketMessages`, if it builds a transaction. -/
def Bridge.Untaken (host : Host AccountId) (s : Bridge AccountId) (i : Bridge.Step AccountId) : Prop :=
  ∀ v psbt messages selected, i = .onInitialize v →
    s.plan host v = some (.build psbt messages selected) →
      ∀ e ∈ (s.prepare v).1.outboundRequests host, s.queue.socketMessages.get (sequence e.1) = none

instance (host : Host AccountId) (s : Bridge AccountId) (i : Bridge.Step AccountId) :
    Decidable (s.Untaken host i) :=
  decidable_of_iff (∀ x ∈ s.built host i, ∀ e ∈ (s.prepare x.1).1.outboundRequests host,
    s.queue.socketMessages.get (sequence e.1) = none)
    (Bridge.forall_built (P := fun v _ => ∀ e ∈ (s.prepare v).1.outboundRequests host,
      s.queue.socketMessages.get (sequence e.1) = none))

omit [LinearOrder AccountId] in
/-- What `filter_unregistered_outbounds` keeps. -/
lemma filterUnregisteredOutbounds_spec {outboundPool messages : List Bytes}
    {pool : Registration AccountId} {requests : List (SocketMessage × Script)}
    (h : filterUnregisteredOutbounds host pool outboundPool = some (messages, requests)) :
    messages.Sublist outboundPool ∧ ∀ b, b ∈ messages ↔
      b ∈ outboundPool ∧ ∃ e, registeredOutbound host pool b = some (some e) := by
  simp only [filterUnregisteredOutbounds, Option.bind_eq_bind, Option.bind_eq_some_iff,
    Option.pure_def, Option.some.injEq, Prod.mk.injEq] at h
  obtain ⟨found, hfound, rfl, -⟩ := h
  refine ⟨List.filter_sublist, fun b => ?_⟩
  have hmap : outboundPool.map (registeredOutbound host pool) = found.map some := map_eq_of_mapM hfound
  set g := fun b => (registeredOutbound host pool b).getD none with hg
  have hfound' : found = outboundPool.map g := by
    have hgetD : found = (found.map some).map fun o => o.getD none := by simp
    rw [hgetD, ← hmap, List.map_map]
    rfl
  have hsome : ∀ b ∈ outboundPool, registeredOutbound host pool b = some (g b) := by
    intro b hb
    have hmem : registeredOutbound host pool b ∈ found.map some := hmap ▸ List.mem_map_of_mem hb
    obtain ⟨e, -, he⟩ := List.mem_map.mp hmem
    simp only [hg, ← he, Option.getD_some]
  rw [List.mem_filter, decide_eq_true_eq, hfound', ← List.map_prod_left_eq_zip]
  refine and_congr_right fun hb => ?_
  rw [hsome b hb]
  cases hgb : g b with
  | none =>
      simp only [Option.some.injEq, reduceCtorEq, exists_false, iff_false, not_not, List.mem_map,
        List.mem_filter]
      exact ⟨(b, g b), ⟨⟨b, hb, rfl⟩, by rw [hgb]; rfl⟩, rfl⟩
  | some e =>
      simp only [Option.some.injEq, exists_eq', iff_true, List.mem_map, List.mem_filter]
      rintro ⟨_, ⟨⟨b', -, rfl⟩, hnone⟩, rfl⟩
      rw [hgb] at hnone
      cases hnone

/-- **What a transaction of the hook pays for**: the messages of the outbound pool, as they are parsed. -/
lemma Bridge.plan_messages {v : View AccountId} {psbt : Psbt} {messages : List Bytes}
    {selected : List UtxoInfoWithSize} {parsed : List SocketMessage}
    (h : s.plan host v = some (.build psbt messages selected))
    (hparse : Parses (SocketMessage.tryFrom host.codec) messages parsed) :
    messages.Sublist s.blaze.outboundPool ∧
      ∀ m, m ∈ parsed ↔ ∃ e ∈ (s.prepare v).1.outboundRequests host, e.1 = m := by
  obtain ⟨longTermFeeRate, feeRate, h⟩ := Bridge.plan_build h
  obtain ⟨requests, target, strategy, hfilter, -⟩ := Bridge.planOutbound_build h
  obtain ⟨hsub, hmem⟩ := filterUnregisteredOutbounds_spec hfilter
  rw [Bridge.prepare_outboundPool] at hsub
  refine ⟨hsub, fun m => ?_⟩
  have hparsed : m ∈ parsed ↔ ∃ b ∈ messages, SocketMessage.tryFrom host.codec b = some m := by
    have hsome : some m ∈ messages.map (SocketMessage.tryFrom host.codec) ↔ m ∈ parsed := by
      rw [hparse]
      simp
    rw [← hsome, List.mem_map]
  -- a message that is kept is parsed as the request for it says
  have hregistered : ∀ b e, registeredOutbound host (s.prepare v).1.pool b = some (some e) →
      SocketMessage.tryFrom host.codec b = some e.1 := by
    intro b e he
    rw [registeredOutbound] at he
    split at he
    case h_1 => cases he
    case h_2 msg hmsg =>
      obtain ⟨script, -, hscript⟩ := Option.map_eq_some_iff.mp he
      obtain ⟨script', -, rfl⟩ := Option.map_eq_some_iff.mp hscript
      exact hmsg
  rw [hparsed]
  simp only [Bridge.outboundRequests, List.mem_filterMap]
  constructor
  · rintro ⟨b, hb, hm⟩
    obtain ⟨hpool, e, he⟩ := (hmem b).mp hb
    refine ⟨e, ⟨b, hpool, by rw [he]; rfl⟩, ?_⟩
    exact Option.some.inj ((hregistered b e he).symm.trans hm)
  · rintro ⟨e, ⟨b, hpool, he⟩, rfl⟩
    have he : registeredOutbound host (s.prepare v).1.pool b = some (some e) := by
      cases hb : registeredOutbound host (s.prepare v).1.pool b with
      | none => simp [hb] at he
      | some o =>
          rw [hb, Option.getD_some] at he
          rw [he]
    exact ⟨b, (hmem b).mpr ⟨hpool, e, he⟩, hregistered b e he⟩

/-! ## Runs -/

/-- **The invariant of payments**: every message is filed once, and only `Normal` requests carry any. -/
structure PaymentInv (host : Host AccountId) (s : Bridge AccountId) : Prop where
  rollback : RollbackInv s
  filed : s.Filed host
  typed : ∀ k type messages, s.docket.cargo k = some (type, messages) → type ≠ .normal → messages = []
  distinct : s.blaze.Distinct host

/-- Messages stay filed, if the hook takes none that is already filed. -/
lemma PaymentInv.filed_move (hs : PaymentInv host s) (hfresh : s.FreshTxid host i)
    (huntaken : s.Untaken host i) (hm : CargoMove host s i s') : s'.Filed host := by
  have hnil : ∀ {txid : H256} (p : Stage), s.docket.IsNew txid → s.docket.messages (p, txid) = [] :=
    fun p hnew => Docket.messages_of_cargo_none (Docket.cargo_of_isNew hnew p)
  cases hm with
  | kept h hx =>
      have hmessages : s'.docket.messages = s.docket.messages := by
        funext k
        rw [Docket.messages, h, Docket.messages]
      rw [Bridge.Filed, hmessages, hx]
      exact hs.filed
  | built v psbt messages selected parsed hi hplan hparse h hx =>
      obtain ⟨hnew, -⟩ := hfresh v psbt messages selected hi hplan
      obtain ⟨hsub, htaken⟩ := Bridge.plan_messages hplan hparse
      rw [Bridge.Filed, Docket.messages_update h, hx]
      refine hs.filed.fill (hnil .pending hnew) hparse (hs.distinct.keyed hsub hparse) fun m hm => ?_
      obtain ⟨e, he, rfl⟩ := (htaken m).mp hm
      exact huntaken v psbt messages selected hi hplan e he
  | submitted txid messages parsed hnew hparse hnodup hfresh h hx =>
      rw [Bridge.Filed, Docket.messages_update h, hx]
      exact hs.filed.fill (hnil .pending hnew) hparse (keyed_of_nodup hnodup) hfresh
  | opened txid type htype hnew h hx =>
      rw [Bridge.Filed, Docket.messages_update h, hx]
      have hparse : Parses (SocketMessage.tryFrom host.codec) [] [] := rfl
      exact hs.filed.fill (hnil .pending hnew) hparse (fun m hm => (by cases hm)) fun m hm => (by cases hm)
  | handed p p' txid hp hfree h hx =>
      have hne : (p, txid) ≠ (p', txid) := fun heq => hp (Prod.mk.inj heq).1
      rw [Bridge.Filed, Docket.messages_move h, hx]
      exact hs.filed.hand (Docket.messages_of_cargo_none hfree) hne rfl
  | bumped old new type messages hnew hold h hx =>
      have hne : (Stage.executed, old) ≠ (.pending, new) := by simp
      rw [← hold] at h
      have hheld : s.docket.messages (.executed, old) = messages := by
        rw [Docket.messages, hold]
        rfl
      rw [Bridge.Filed, Docket.messages_move h]
      split_ifs at hx with htype
      · obtain ⟨parsed, hparse, hx⟩ := hx
        rw [hx]
        exact hs.filed.relocate (hnil .pending hnew) hne (hheld.symm ▸ hparse)
      · -- there is nothing to rewrite, since only normal requests have messages
        have hparse : Parses (SocketMessage.tryFrom host.codec) (s.docket.messages (.executed, old)) [] := by
          rw [hheld, hs.typed _ type messages hold htype]
          rfl
        rw [hx]
        exact hs.filed.relocate (hnil .pending hnew) hne hparse

/-- Only normal requests have messages. -/
lemma PaymentInv.typed_move (hs : PaymentInv host s) (hm : CargoMove host s i s')
    (k : Stage × H256) (type : RequestType) (messages : List Bytes)
    (hget : s'.docket.cargo k = some (type, messages)) (htype : type ≠ .normal) : messages = [] := by
  cases hm with
  | kept h hx => exact hs.typed k type messages (h ▸ hget) htype
  | built v psbt bytes selected parsed hi hplan hparse h hx =>
      rw [h, Function.update_apply] at hget
      split_ifs at hget
      · cases hget
        exact absurd rfl htype
      · exact hs.typed k type messages hget htype
  | submitted txid bytes parsed hnew hparse hnodup hfresh h hx =>
      rw [h, Function.update_apply] at hget
      split_ifs at hget
      · cases hget
        exact absurd rfl htype
      · exact hs.typed k type messages hget htype
  | opened txid type' htype' hnew h hx =>
      rw [h, Function.update_apply] at hget
      split_ifs at hget
      · cases hget
        rfl
      · exact hs.typed k type messages hget htype
  | handed p p' txid hp hfree h hx =>
      rw [h, Function.update_apply, Function.update_apply] at hget
      split_ifs at hget
      · exact hs.typed _ type messages hget htype
      · exact hs.typed k type messages hget htype
  | bumped old new type' bytes hnew hold h hx =>
      rw [h, Function.update_apply, Function.update_apply] at hget
      split_ifs at hget
      · exact hs.typed _ type messages (hold.trans hget) htype
      · exact hs.typed k type messages hget htype

/-- **The invariant holds in every run** in which the hook takes no message that a request has. -/
lemma BridgeIf.paymentInv
    (h : BridgeIf host (fun s i => s.FreshTxid host i ∧ s.Untaken host i) s) : PaymentInv host s := by
  refine Reachable.invariant ?_ ?_ h
  · rintro s ⟨members, authority, rfl⟩
    have hinit : BridgeIf host (Bridge.FreshTxid host) (.genesis host members authority) :=
      .init ⟨members, authority, rfl⟩
    have hcargo : ∀ k, (Bridge.genesis host members authority).docket.cargo k = none := by
      rintro ⟨p, t⟩
      cases p <;> rfl
    refine ⟨hinit.rollbackInv, ?_, fun k type messages hget => ?_, List.nodup_nil⟩
    · exact Filing.Filed.empty fun k => Docket.messages_of_cargo_none (hcargo k)
    · rw [hcargo k] at hget
      cases hget
  · rintro s i s' hs ⟨hfresh, huntaken⟩ hstep
    have hmove := Bridge.step_cargo hs.rollback hstep
    have hdocket := Bridge.step_docket hstep
    exact ⟨⟨hs.rollback.settled_move hfresh hdocket, hs.rollback.quiet_move hdocket⟩,
      hs.filed_move hfresh huntaken hmove, hs.typed_move hmove, Bridge.step_distinct hstep hs.distinct⟩

/-- **Every order is in one request.**  In a run in which the hook takes no message that a request has, under
a txid that no request has, no two requests ever have messages with one sequence, and `SocketMessages` says
which one has it.  A step in which the hook does take one ends that. -/
theorem messages_paid_once
    (h : BridgeIf host (fun s i => s.FreshTxid host i ∧ s.Untaken host i) s) :
    s.PaidOnce host ∧ ∀ i s', s.FreshTxid host i → ¬ s.Untaken host i → s.step host i = some s' →
      ¬ s'.PaidOnce host := by
  have hs := h.paymentInv
  refine ⟨Bridge.paidOnce_iff.mpr hs.filed, fun i s' hfresh htaken hstep honce => ?_⟩
  rw [Bridge.paidOnce_iff] at honce
  simp only [Bridge.Untaken, not_forall] at htaken
  obtain ⟨v, psbt, messages, selected, rfl, hplan, e, he, hsome⟩ := htaken
  obtain ⟨hnew, -⟩ := hfresh v psbt messages selected rfl hplan
  obtain ⟨parsed, hparse, hcargo, -⟩ := Bridge.onInitialize_built hplan hstep
  obtain ⟨⟨txid, m⟩, hget⟩ := Option.ne_none_iff_exists'.mp hsome
  -- the request that has the message is still there, next to the new one
  obtain ⟨k, -, hk, heq⟩ := (hs.filed.registered (sequence e.1) txid m).mp hget
  have hne : k ≠ (.pending, txidOf host psbt) := by
    rintro rfl
    exact not_holds_of_nil (Docket.messages_of_cargo_none (Docket.cargo_of_isNew hnew .pending)) hk
  have hmem : e.1 ∈ parsed := ((Bridge.plan_messages hplan hparse).2 e.1).mpr ⟨e, he, rfl⟩
  refine hne (honce.once k (.pending, txidOf host psbt) m e.1 ?_ ?_ heq)
  · rw [Docket.messages_update hcargo]
    exact (holds_update_of_ne hne).mpr hk
  · rw [Docket.messages_update hcargo]
    exact hparse.holds_iff.mpr hmem

/-! ## Small runs

A message for user 7 is in the outbound pool when the authority submits a transaction, which pays for that
message or for one of user 6.  Blaze is activated then, and the relayers agree on a fee rate. -/

section Small

def authorityPsbt (coin : H256) (output : TxOut) : Psbt where
  unsignedTx := ⟨2, 1, [⟨⟨coin, 0⟩, [], 0⟩], [output]⟩
  inputs := [⟨some ⟨output.value + 1000, [9]⟩, none, some [1], [], []⟩]

def authorityHost : Host ℕ := { bothHost with
  lib := { bothHost.lib with
    deserialize
      | [1] => some (authorityPsbt 78 ⟨20000, [5]⟩)
      | [2] => some (authorityPsbt 79 ⟨30000, [6]⟩)
      | _ => none } }

def authorityRun (msg : UnsignedPsbtMessage ℕ) : List (Bridge.Step ℕ) :=
  .pool smallView (.requestVault regtestOutlook (.signed 6) [6]) :: (outboundRun 20000).take 9 ++
    [.blaze bothView (.submitOutboundRequests ⟨1, [outboundBytes 20000]⟩),
      .queue bothView (.submitUnsignedPsbt msg),
      .blaze smallView (.setActivation .root true),
      .blaze smallView (.submitFeeRate ⟨1, 1, 2, 5⟩), .blaze smallView (.submitFeeRate ⟨2, 1, 2, 5⟩)]

/-- The request of the authority pays for the other message, and the hook for the one in the pool. -/
theorem messages_paid_once_authority : ∃ s : Bridge ℕ,
    BridgeIf authorityHost (fun s i => s.FreshTxid authorityHost i ∧ s.Untaken authorityHost i) s ∧
    s.queue.socketMessages.get 8 = some (31000, otherMessage) ∧
    s.queue.socketMessages.get 7 = some (99752, outboundMessage 20000) ∧ s.PaidOnce authorityHost := by
  have hrun := smallRunIf_exists authorityHost
    (fun s i => s.FreshTxid authorityHost i ∧ s.Untaken authorityHost i)
    (authorityRun ⟨9, [([6], [otherBytes])], [2]⟩ ++ [.onInitialize smallView])
    (P := fun s => decide (s.queue.socketMessages.get 8 = some (31000, otherMessage) ∧
      s.queue.socketMessages.get 7 = some (99752, outboundMessage 20000)))
    (by decide +kernel)
  obtain ⟨s, hs, hP⟩ := hrun
  obtain ⟨hother, hmessage⟩ := of_decide_eq_true hP
  exact ⟨s, hs, hother, hmessage, (messages_paid_once hs).1⟩

/-- The txid of the transaction that is built. -/
def Plan.txid (host : Host ℕ) : Plan → Option H256
  | .build psbt _ _ => some (txidOf host psbt)
  | .idle | .fail => none

/-- The pending request has the message of user 7 in it. -/
def paysUser (s : Bridge ℕ) (txid : H256) : Bool :=
  (s.queue.pendingRequests.get txid).any fun r => outboundBytes 20000 ∈ r.socketMessages

lemma contains_of_paysUser {s : Bridge ℕ} {txid : H256} (h : paysUser s txid = true) :
    s.docket.Contains authorityHost .pending txid (outboundMessage 20000) := by
  obtain ⟨r, hr, hmem⟩ := (Option.any_eq_true _ _).mp h
  exact ⟨r, hr, outboundBytes 20000, of_decide_eq_true hmem, by decide +kernel⟩

/-- **The hook pays for it once more**, with a transaction that has another txid. -/
theorem message_paid_twice : ∃ s : Bridge ℕ, BridgeIf authorityHost (Bridge.FreshTxid authorityHost) s ∧
    s.docket.Contains authorityHost .pending 21000 (outboundMessage 20000) ∧
    s.docket.Contains authorityHost .pending 99752 (outboundMessage 20000) ∧
    ¬ s.PaidOnce authorityHost := by
  have hrun := smallRun_exists authorityHost (Bridge.FreshTxid authorityHost)
    (authorityRun ⟨9, [([5], [outboundBytes 20000])], [1]⟩)
    (by simp [authorityRun, outboundRun, Bridge.FreshTxid])
    (P := fun s => decide ((s.plan authorityHost smallView).bind (Plan.txid authorityHost) = some 99752) &&
      (s.queue.pendingRequests.get 99752).isNone && (s.queue.finalizedRequests.get 99752).isNone &&
      (s.queue.executedRequests.get 99752).isNone && (s.queue.rollbackRequests.get 99752).isNone &&
      (s.onInitialize authorityHost smallView).any fun s' => paysUser s' 21000 && paysUser s' 99752)
    (by decide +kernel)
  obtain ⟨s, hs, hP⟩ := hrun
  simp only [Bool.and_eq_true, decide_eq_true_eq, Option.isNone_iff_eq_none, Option.any_eq_true] at hP
  obtain ⟨⟨⟨⟨⟨htxid, hp⟩, hf⟩, he⟩, hrb⟩, s', hstep, hold, hnew⟩ := hP
  have hfresh : s.FreshTxid authorityHost (.onInitialize smallView) := by
    intro v psbt messages selected hi hplan
    obtain rfl := Bridge.Step.onInitialize.inj hi
    rw [hplan] at htxid
    rw [show txidOf authorityHost psbt = 99752 from Option.some.inj htxid]
    exact ⟨⟨hp, hf, he⟩, hrb⟩
  have hold := contains_of_paysUser hold
  have hnew := contains_of_paysUser hnew
  refine ⟨s', .step hs hfresh hstep, hold, hnew, fun honce => ?_⟩
  have hsame := (honce.once .pending .pending 21000 99752 _ _ hold hnew rfl).2
  exact absurd hsame (by decide)

end Small

end BifrostNode.Btc
