import BifrostNode.Btc.Outputs
import BifrostNode.Lib.Filing

/-!
# The messages of requests

A request is one of the three maps of the socket queue under its txid, which is its berth, and what matters of
it here is its type and its messages.

**One step.**  `CargoMove` says what a step of the bridge does to that and to `SocketMessages`, which has for
every sequence the message with it and the txid of the request that it is in.

**The outbound pool** is the other place where messages are.  It never has two messages with one sequence.
-/

namespace BifrostNode.Btc

open Cccp Staking Transition Pool Queue Filing

variable {AccountId : Type}

/-! ## Berths -/

namespace Docket

/-- The requests of a map. -/
def requests (d : Docket AccountId) : Stage → StorageMap H256 (PsbtRequest AccountId)
  | .pending => d.pending
  | .finalized => d.finalized
  | .executed => d.executed

end Docket

/-- What signing leaves as it is, and the transaction. -/
def Queue.PsbtRequest.cargo (r : PsbtRequest AccountId) : RequestType × List Bytes :=
  (r.requestType, r.socketMessages)

lemma Queue.PsbtRequest.cargo_replaceAuthority [DecidableEq AccountId] (r : PsbtRequest AccountId)
    (old new : AccountId) : (r.replaceAuthority old new).cargo = r.cargo := rfl

namespace Docket

/-- The type and the messages of a request. -/
def cargo (d : Docket AccountId) (k : Stage × H256) : Option (RequestType × List Bytes) :=
  ((d.requests k.1).get k.2).map PsbtRequest.cargo

/-- The messages of a request, if there is one. -/
def messages (d : Docket AccountId) (k : Stage × H256) : List Bytes := (d.cargo k).elim [] Prod.snd

section Cargo

variable {d : Docket AccountId} {txid : H256} {r : PsbtRequest AccountId}

lemma cargo_of_isNew (h : d.IsNew txid) (p : Stage) : d.cargo (p, txid) = none := by
  cases p with
  | pending => simp [cargo, requests, h.pending]
  | finalized => simp [cargo, requests, h.finalized]
  | executed => simp [cargo, requests, h.executed]

/-- A request gets to be pending. -/
lemma cargo_insert (d : Docket AccountId) (txid : H256) (r : PsbtRequest AccountId) :
    { d with pending := d.pending.insert txid r }.cargo =
      Function.update d.cargo (.pending, txid) (some r.cargo) := by
  funext ⟨p, t⟩
  cases p <;> by_cases ht : t = txid <;> simp [cargo, requests, ht]

/-- A pending request is finalized. -/
lemma cargo_finalize (d : Docket AccountId) (txid : H256) (r : PsbtRequest AccountId) :
    { d with pending := d.pending.remove txid, finalized := d.finalized.insert txid r }.cargo =
      Function.update (Function.update d.cargo (.pending, txid) none) (.finalized, txid)
        (some r.cargo) := by
  funext ⟨p, t⟩
  cases p <;> by_cases ht : t = txid <;> simp [cargo, requests, ht]

/-- A finalized request is executed. -/
lemma cargo_execute (d : Docket AccountId) (txid : H256) (r : PsbtRequest AccountId) :
    { d with finalized := d.finalized.remove txid, executed := d.executed.insert txid r }.cargo =
      Function.update (Function.update d.cargo (.finalized, txid) none) (.executed, txid)
        (some r.cargo) := by
  funext ⟨p, t⟩
  cases p <;> by_cases ht : t = txid <;> simp [cargo, requests, ht]

/-- An executed request is replaced by a pending one. -/
lemma cargo_bump (d : Docket AccountId) (old new : H256) (r : PsbtRequest AccountId) :
    { d with executed := d.executed.remove old, pending := d.pending.insert new r }.cargo =
      Function.update (Function.update d.cargo (.executed, old) none) (.pending, new)
        (some r.cargo) := by
  funext ⟨p, t⟩
  cases p with
  | pending => by_cases ht : t = new <;> simp [cargo, requests, ht]
  | finalized => simp [cargo, requests]
  | executed => by_cases ht : t = old <;> simp [cargo, requests, ht]

/-- Pending requests change, but not in what counts here. -/
lemma cargo_map (d : Docket AccountId) {f : PsbtRequest AccountId → PsbtRequest AccountId}
    (hf : ∀ r, (f r).cargo = r.cargo) : { d with pending := d.pending.mapVals f }.cargo = d.cargo := by
  have hcomp : PsbtRequest.cargo ∘ f = PsbtRequest.cargo := funext hf
  funext ⟨p, t⟩
  cases p with
  | pending => rw [cargo, cargo, requests, requests, StorageMap.get_mapVals, Option.map_map, hcomp]
  | finalized => rfl
  | executed => rfl

/-- Rollback requests are not looked at. -/
lemma cargo_congr {d d' : Docket AccountId} (hp : d'.pending = d.pending)
    (hf : d'.finalized = d.finalized) (he : d'.executed = d.executed) : d'.cargo = d.cargo := by
  funext ⟨p, t⟩
  cases p <;> simp [cargo, requests, hp, hf, he]

end Cargo

end Docket

/-! ## One step -/

/-- The sequence of a message. -/
abbrev sequence (m : SocketMessage) : U256 := m.reqId.sequence

/-- **What a step can do to the messages of requests**: one constructor for each way. -/
inductive CargoMove (host : Host AccountId) [LinearOrder AccountId] (s : Bridge AccountId)
    (i : Bridge.Step AccountId) (s' : Bridge AccountId) : Prop
  | kept (h : s'.docket.cargo = s.docket.cargo)
      (hx : s'.queue.socketMessages = s.queue.socketMessages) : CargoMove host s i s'
  | built (v : View AccountId) (psbt : Psbt) (messages : List Bytes)
      (selected : List UtxoInfoWithSize) (parsed : List SocketMessage) (hi : i = .onInitialize v)
      (hplan : s.plan host v = some (.build psbt messages selected))
      (hparse : Parses (SocketMessage.tryFrom host.codec) messages parsed)
      (h : s'.docket.cargo = Function.update s.docket.cargo (.pending, txidOf host psbt)
        (some (.normal, messages)))
      (hx : s'.queue.socketMessages =
        enter sequence (txidOf host psbt) parsed s.queue.socketMessages) : CargoMove host s i s'
  | submitted (txid : H256) (messages : List Bytes) (parsed : List SocketMessage)
      (hnew : s.docket.IsNew txid)
      (hparse : Parses (SocketMessage.tryFrom host.codec) messages parsed)
      (hnodup : (parsed.map sequence).Nodup)
      (hfresh : ∀ m ∈ parsed, s.queue.socketMessages.get (sequence m) = none)
      (h : s'.docket.cargo = Function.update s.docket.cargo (.pending, txid)
        (some (.normal, messages)))
      (hx : s'.queue.socketMessages = enter sequence txid parsed s.queue.socketMessages) :
      CargoMove host s i s'
  | opened (txid : H256) (type : RequestType) (htype : type ≠ .normal) (hnew : s.docket.IsNew txid)
      (h : s'.docket.cargo = Function.update s.docket.cargo (.pending, txid) (some (type, [])))
      (hx : s'.queue.socketMessages = s.queue.socketMessages) : CargoMove host s i s'
  | handed (p p' : Stage) (txid : H256) (hp : p ≠ p') (hfree : s.docket.cargo (p', txid) = none)
      (h : s'.docket.cargo = Function.update (Function.update s.docket.cargo (p, txid) none)
        (p', txid) (s.docket.cargo (p, txid)))
      (hx : s'.queue.socketMessages = s.queue.socketMessages) : CargoMove host s i s'
  | bumped (old new : H256) (type : RequestType) (messages : List Bytes) (hnew : s.docket.IsNew new)
      (hold : s.docket.cargo (.executed, old) = some (type, messages))
      (h : s'.docket.cargo = Function.update (Function.update s.docket.cargo (.executed, old) none)
        (.pending, new) (some (type, messages)))
      (hx : if type = .normal then ∃ parsed,
          Parses (SocketMessage.tryFrom host.codec) messages parsed ∧
            s'.queue.socketMessages = enter sequence new parsed s.queue.socketMessages
        else s'.queue.socketMessages = s.queue.socketMessages) : CargoMove host s i s'

section Calls

variable [LinearOrder AccountId] {host : Host AccountId} {v : View AccountId}
  {s s' : Bridge AccountId}

omit [LinearOrder AccountId] in
/-- A map that does not fail gives what it is applied to. -/
lemma map_eq_of_mapM {α β : Type} {f : α → Option β} :
    ∀ {as : List α} {bs : List β}, as.mapM f = some bs → Parses f as bs := by
  intro as
  induction as with
  | nil =>
      intro bs h
      obtain rfl : bs = [] := by simpa using h.symm
      rfl
  | cons a as ih =>
      intro bs h
      rw [List.mapM_cons] at h
      simp only [Option.bind_eq_bind, Option.bind_eq_some_iff, Option.pure_def, Option.some.injEq] at h
      obtain ⟨b, hb, bs, hbs, rfl⟩ := h
      rw [Parses, List.map_cons, List.map_cons, hb, ih hbs]

omit [LinearOrder AccountId] in
/-- A loop that fails with one error. -/
lemma mapM_okOr {α β ε : Type} (f : α → Option β) (e : ε) :
    ∀ as : List α, as.mapM (fun a => okOr (f a) e) = okOr (as.mapM f) e := by
  intro as
  induction as with
  | nil => rfl
  | cons a as ih =>
      rw [List.mapM_cons, List.mapM_cons, ih]
      cases f a with
      | none => rfl
      | some b => cases as.mapM f <;> rfl

omit [LinearOrder AccountId] in
/-- A message that is verified is not in `SocketMessages`. -/
lemma SocketQueue.verifySocketMessage_new {q : SocketQueue AccountId} {message : Bytes}
    {m : SocketMessage} (hm : SocketMessage.tryFrom host.codec message = some m)
    (h : q.verifySocketMessage host v message = .ok ()) :
    q.socketMessages.get (sequence m) = none := by
  simp only [SocketQueue.verifySocketMessage, hm, okOr_some, ok_bind, bind_eq_ok, ensure_eq_ok,
    exists_const] at h
  obtain ⟨-, info, -, -, -, -, token, -, -, hnew⟩ := h
  exact StorageMap.not_contains.mp hnew

omit [LinearOrder AccountId] in
/-- The messages that the outputs of a submitted transaction pay for. -/
lemma SocketQueue.Accepted.parses {pool : Registration AccountId} {q : SocketQueue AccountId}
    {psbt : Psbt} {uncheckedOutputs : List (Bytes × List Bytes)} {systemVault : Bytes}
    {msgs : List (SocketMessage × Bytes)} {parts : List (Bytes × List (SocketMessage × Bytes))}
    (h : SocketQueue.Accepted host v pool q psbt uncheckedOutputs systemVault msgs parts) :
    Parses (SocketMessage.tryFrom host.codec) (msgs.map Prod.snd) (msgs.map Prod.fst) ∧
      ∀ m ∈ msgs.map Prod.fst, q.socketMessages.get (sequence m) = none := by
  have hall : ∀ e ∈ msgs, SocketMessage.tryFrom host.codec e.2 = some e.1 ∧
      q.verifySocketMessage host v e.2 = .ok () := by
    intro e he
    rw [h.msgs_eq, List.mem_flatMap] at he
    obtain ⟨part, hpart, he⟩ := he
    obtain ⟨output, -, hchecked⟩ := h.output_of_mem hpart
    have heach := hchecked.each e he
    exact ⟨heach.parsed, heach.verified⟩
  constructor
  · rw [Parses, List.map_map, List.map_map]
    exact List.map_congr_left fun e he => (hall e he).1
  · intro m hm
    obtain ⟨e, he, rfl⟩ := List.mem_map.mp hm
    exact SocketQueue.verifySocketMessage_new (hall e he).1 (hall e he).2

lemma Bridge.submitUnsignedPsbt_cargo {msg : UnsignedPsbtMessage AccountId}
    (h : s.submitUnsignedPsbt host v msg = .ok s') :
    CargoMove host s (.queue v (.submitUnsignedPsbt msg)) s' := by
  simp only [Bridge.submitUnsignedPsbt, bind_eq_ok, ensure_eq_ok, pure_eq_ok, Unique.exists_iff,
    ensureNew_eq_ok] at h
  obtain ⟨-, -, -, psbt, -, -, hnew, -, verified, hverified, rfl⟩ := h
  obtain ⟨systemVault, parts, -, haccepted⟩ := SocketQueue.accepted_of_ok hverified
  obtain ⟨hparse, hfresh⟩ := haccepted.parses
  refine .submitted (txidOf host psbt) (verified.map Prod.snd) _ hnew hparse ?_ hfresh
    (Docket.cargo_insert s.docket _ _) rfl
  rw [List.map_map]
  exact haccepted.sequences

lemma Bridge.submitSignedPsbt_cargo (hs : RollbackInv s) {msg : SignedPsbtMessage AccountId}
    (h : s.submitSignedPsbt host v msg = .ok s') :
    CargoMove host s (.queue v (.submitSignedPsbt msg)) s' := by
  simp only [Bridge.submitSignedPsbt, bind_eq_ok, ensure_eq_ok, okOr_eq_ok, Unique.exists_iff] at h
  obtain ⟨-, unsigned, -, signed, -, r, hr, -, -, combined, -, combined', -, signedPsbts, -, h⟩ := h
  have hget : s.docket.cargo (.pending, txidOf host unsigned) = some r.cargo := congrArg _ hr
  split at h
  · obtain rfl := pure_eq_ok.mp h
    obtain ⟨hfree, -⟩ := Docket.pending_alone (hs.settled (txidOf host unsigned)).length_le hr
    refine .handed .pending .finalized (txidOf host unsigned) (by decide) ?_ ?_ rfl
    · exact congrArg _ hfree
    · rw [hget]
      exact Docket.cargo_finalize s.docket _ _
  · obtain rfl := pure_eq_ok.mp h
    refine .kept ?_ rfl
    refine (Docket.cargo_insert s.docket _ _).trans ?_
    rw [Function.update_eq_self_iff]
    exact hget.symm

lemma Bridge.submitExecutedRequest_cargo (hs : RollbackInv s) {msg : ExecutedPsbtMessage AccountId}
    (h : s.submitExecutedRequest v msg = .ok s') :
    CargoMove host s (.queue v (.submitExecutedRequest msg)) s' := by
  simp only [Bridge.submitExecutedRequest, bind_eq_ok, ensure_eq_ok, okOr_eq_ok, Unique.exists_iff,
    Prod.exists] at h
  obtain ⟨-, r, hr, confirmations, shouldExecute, -, h⟩ := h
  by_cases hexec : shouldExecute = true
  · rw [if_pos hexec] at h
    obtain rfl := pure_eq_ok.mp h
    obtain ⟨-, hfree⟩ := Docket.finalized_alone (hs.settled msg.txid).length_le hr
    have hget : s.docket.cargo (.finalized, msg.txid) = some r.cargo := congrArg _ hr
    refine .handed .finalized .executed msg.txid (by decide) ?_ ?_ rfl
    · exact congrArg _ hfree
    · rw [hget]
      exact Docket.cargo_execute s.docket _ _
  · rw [if_neg hexec] at h
    obtain rfl := pure_eq_ok.mp h
    exact .kept rfl rfl

lemma Bridge.submitRollbackRequest_cargo {origin : Origin AccountId}
    {msg : RollbackPsbtMessage AccountId} (h : s.submitRollbackRequest host v origin msg = .ok s') :
    CargoMove host s (.queue v (.submitRollbackRequest origin msg)) s' := by
  simp only [Bridge.submitRollbackRequest, bind_eq_ok, ensure_eq_ok, okOr_eq_ok, pure_eq_ok,
    Unique.exists_iff] at h
  obtain ⟨-, -, psbt, -, -, -, -, -, vault, -, refund, -, refund', -, txInfo, -, -, -,
    systemVault, -, systemVault', -, -, t, ht, rfl⟩ := h
  obtain ⟨-, hqueue⟩ := lockIfActivated_same t ht
  refine .kept ?_ (by rw [hqueue])
  rw [Bridge.docket, hqueue]
  exact Docket.cargo_congr rfl rfl rfl

lemma Bridge.submitRollbackPoll_cargo (hs : RollbackInv s) {msg : RollbackPollMessage AccountId}
    (h : s.submitRollbackPoll v msg = .ok s') :
    CargoMove host s (.queue v (.submitRollbackPoll msg)) s' := by
  simp only [Bridge.submitRollbackPoll, bind_eq_ok, ensure_eq_ok, okOr_eq_ok, Unique.exists_iff] at h
  obtain ⟨-, rb, hrb, happr, -, votes, -, h⟩ := h
  split_ifs at h
  · obtain rfl := pure_eq_ok.mp h
    -- a record that waits for votes has no request
    have hold := hs.settled msg.txid
    rw [show s.docket.rollback.get msg.txid = some rb from hrb] at hold
    have hnew := Docket.requestsOf_eq_nil.mp (hold.eq_nil (by simpa using happr))
    refine .opened msg.txid .rollback (by decide) hnew ?_ rfl
    refine (Docket.cargo_congr ?_ ?_ ?_).trans (Docket.cargo_insert s.docket msg.txid
      (.new rb.unsignedPsbt [] .rollback)) <;> rfl
  · obtain rfl := pure_eq_ok.mp h
    exact .kept (Docket.cargo_congr rfl rfl rfl) rfl

lemma Bridge.dropPendingRollbackRequest_cargo {origin : Origin AccountId} {txid : H256}
    (h : s.dropPendingRollbackRequest origin txid = .ok s') :
    CargoMove host s (.queue v (.dropPendingRollbackRequest origin txid)) s' := by
  simp only [Bridge.dropPendingRollbackRequest, bind_eq_ok, ensure_eq_ok, okOr_eq_ok,
    Unique.exists_iff] at h
  obtain ⟨-, -, rb, -, -, h⟩ := h
  obtain ⟨-, hqueue⟩ := unlockIfActivated_same s' h
  refine .kept ?_ (by rw [hqueue])
  rw [Bridge.docket, hqueue]
  exact Docket.cargo_congr rfl rfl rfl

lemma Bridge.submitMigrationRequest_cargo {origin : Origin AccountId} {raw : Bytes}
    (h : s.submitMigrationRequest host origin raw = .ok s') :
    CargoMove host s (.queue v (.submitMigrationRequest origin raw)) s' := by
  simp only [Bridge.submitMigrationRequest, bind_eq_ok, ensure_eq_ok, Unique.exists_iff,
    ensureNew_eq_ok] at h
  obtain ⟨-, -, psbt, -, -, hnew, h⟩ := h
  split at h
  · simp only [bind_eq_ok, ensure_eq_ok, okOr_eq_ok, pure_eq_ok, Unique.exists_iff] at h
    obtain ⟨systemVault, -, address, -, -, rfl⟩ := h
    exact .opened (txidOf host psbt) .migration (by decide) hnew (Docket.cargo_insert s.docket _ _) rfl
  · cases h

omit [LinearOrder AccountId] in
/-- What the type of a request has to do with `SocketMessages` in a fee bump. -/
lemma Bridge.bumpRecords_messages {old new : H256} {r : PsbtRequest AccountId} {raw : Bytes}
    {t : Bridge AccountId} (h : s.bumpRecords host old new r raw = .ok t) :
    t.docket.cargo = s.docket.cargo ∧ if r.requestType = .normal then ∃ parsed,
        Parses (SocketMessage.tryFrom host.codec) r.socketMessages parsed ∧
          t.queue.socketMessages = enter sequence new parsed s.queue.socketMessages
      else t.queue.socketMessages = s.queue.socketMessages := by
  rw [Bridge.bumpRecords] at h
  split at h
  case h_1 htype =>
    simp only [bind_eq_ok, pure_eq_ok] at h
    obtain ⟨parsed, hparsed, rfl⟩ := h
    rw [if_pos htype]
    refine ⟨rfl, parsed, ?_, rfl⟩
    rw [mapM_okOr, okOr_eq_ok] at hparsed
    exact map_eq_of_mapM hparsed
  case h_2 htype =>
    obtain rfl := pure_eq_ok.mp h
    rw [if_neg (by simp [htype])]
    exact ⟨rfl, rfl⟩
  case h_3 htype =>
    simp only [bind_eq_ok, okOr_eq_ok, pure_eq_ok] at h
    obtain ⟨rb, -, rfl⟩ := h
    rw [if_neg (by simp [htype])]
    exact ⟨Docket.cargo_congr rfl rfl rfl, rfl⟩

lemma Bridge.submitBumpFeeRequest_cargo {origin : Origin AccountId} {old : H256} {raw : Bytes}
    (h : s.submitBumpFeeRequest host origin old raw = .ok s') :
    CargoMove host s (.queue v (.submitBumpFeeRequest origin old raw)) s' := by
  simp only [Bridge.submitBumpFeeRequest, bind_eq_ok, ensure_eq_ok, okOr_eq_ok, pure_eq_ok,
    Unique.exists_iff, ensureNew_eq_ok] at h
  obtain ⟨-, r, hr, -, -, oldPsbt, -, newPsbt, -, -, -, -, hnew, -, s₁, h₁, s₂, h₂, s₃, h₃, rfl⟩ := h
  obtain ⟨-, hq₂⟩ := unlockIfActivated_same s₂ h₂
  obtain ⟨-, hq₃⟩ := lockIfActivated_same s₃ h₃
  obtain ⟨hcargo, hmessages⟩ := bumpRecords_messages h₁
  have hqueue : s₃.queue = { s₁.queue with
      executedRequests := s₁.queue.executedRequests.remove old } := hq₃.trans hq₂
  refine .bumped old (txidOf host newPsbt) r.requestType r.socketMessages hnew (congrArg _ hr) ?_ ?_
  · rw [← hcargo]
    refine (congrArg Docket.cargo ?_).trans (Docket.cargo_bump s₁.docket old _
      (.new raw r.socketMessages r.requestType))
    simp only [Bridge.docket, Bridge.addPending, hqueue]
    rfl
  · simpa only [Bridge.addPending, hqueue] using hmessages

/-! ## The hook -/

/-- What comes before the plan of the hook leaves the queue alone. -/
lemma Bridge.prepare_queue : (s.prepare v).1.queue = s.queue := by
  simp only [Bridge.prepare]
  split_ifs <;> rfl

/-- What the hook does with a transaction that it has built. -/
lemma Bridge.onInitialize_built {psbt : Psbt} {messages : List Bytes}
    {selected : List UtxoInfoWithSize} (hplan : s.plan host v = some (.build psbt messages selected))
    (h : s.onInitialize host v = some s') :
    ∃ parsed, Parses (SocketMessage.tryFrom host.codec) messages parsed ∧
      s'.docket.cargo = Function.update s.docket.cargo (.pending, txidOf host psbt)
        (some (.normal, messages)) ∧
      s'.queue.socketMessages = enter sequence (txidOf host psbt) parsed s.queue.socketMessages := by
  have hqueue := s.prepare_queue (v := v)
  simp only [Bridge.onInitialize, hplan, Bridge.execute, Option.bind_eq_bind, Option.bind_some,
    Option.bind_eq_some_iff, Option.pure_def, Option.some.injEq] at h
  obtain ⟨parsed, hparsed, blaze, -, rfl⟩ := h
  refine ⟨parsed, map_eq_of_mapM hparsed, ?_, ?_⟩
  · have hdocket : (s.prepare v).1.docket = s.docket := congrArg SocketQueue.docket hqueue
    rw [← hdocket]
    exact Docket.cargo_insert (s.prepare v).1.docket _ _
  · rw [← hqueue]
    rfl

lemma Bridge.onInitialize_cargo (h : s.onInitialize host v = some s') :
    CargoMove host s (.onInitialize v) s' := by
  obtain ⟨plan, hplan, hrun⟩ := Option.bind_eq_some_iff.mp h
  have hqueue := s.prepare_queue (v := v)
  have hdocket : (s.prepare v).1.docket = s.docket := congrArg SocketQueue.docket hqueue
  cases plan with
  | idle =>
      obtain rfl := Option.some.inj hrun
      exact .kept (by rw [hdocket]) (by rw [hqueue])
  | fail =>
      obtain rfl := Option.some.inj hrun
      exact .kept (congrArg Docket.cargo hdocket) (congrArg SocketQueue.socketMessages hqueue)
  | build psbt messages selected =>
      obtain ⟨parsed, hparse, hcargo, hmessages⟩ := Bridge.onInitialize_built hplan h
      exact .built v psbt messages selected parsed rfl hplan hparse hcargo hmessages

/-- **What a step does to the messages of requests.**  While approvals are settled, it is one of these
moves. -/
lemma Bridge.step_cargo (hs : RollbackInv s) {i : Bridge.Step AccountId}
    (h : s.step host i = some s') : CargoMove host s i s' := by
  cases i with
  | pool v i =>
      simp only [Bridge.step, Option.bind_eq_bind, Option.bind_eq_some_iff, Option.pure_def,
        Option.some.injEq] at h
      obtain ⟨k, -, pool, -, rfl⟩ := h
      exact .kept rfl rfl
  | blaze v c =>
      obtain rfl := Option.some.inj h
      exact .kept rfl rfl
  | queue v c =>
      obtain rfl := Option.some.inj h
      refine commit_induction (P := CargoMove host s (.queue v c)) (.kept rfl rfl) ?_
      intro t ht
      have hkept : Returns (fun t => t.docket = s.docket ∧
          t.queue.socketMessages = s.queue.socketMessages) (s.queueCall host v c) →
          CargoMove host s (.queue v c) t :=
        fun hx => .kept (congrArg Docket.cargo (hx t ht).1) (hx t ht).2
      cases c with
      | setAuthority origin new => exact hkept (.bind fun _ => .bind fun _ => .pure ⟨rfl, rfl⟩)
      | setSocket origin new isBitcoin =>
          exact hkept (.bind fun _ => .ite (.bind fun _ => .pure ⟨rfl, rfl⟩)
            (.bind fun _ => .pure ⟨rfl, rfl⟩))
      | setMaxFeeRate origin new =>
          exact hkept (.bind fun _ => .bind fun _ => .bind fun _ => .pure ⟨rfl, rfl⟩)
      | setMaxSocketMessageBytes origin new =>
          exact hkept (.bind fun _ => .bind fun _ => .pure ⟨rfl, rfl⟩)
      | submitUnsignedPsbt msg => exact submitUnsignedPsbt_cargo ht
      | submitSignedPsbt msg => exact submitSignedPsbt_cargo hs ht
      | submitExecutedRequest msg => exact submitExecutedRequest_cargo hs ht
      | submitRollbackRequest origin msg => exact submitRollbackRequest_cargo ht
      | submitRollbackPoll msg => exact submitRollbackPoll_cargo hs ht
      | submitMigrationRequest origin psbt => exact submitMigrationRequest_cargo ht
      | submitBumpFeeRequest origin old new => exact submitBumpFeeRequest_cargo ht
      | dropPendingRollbackRequest origin txid => exact dropPendingRollbackRequest_cargo ht
  | onInitialize v => exact onInitialize_cargo h
  | replaceAuthority old new =>
      obtain rfl := Option.some.inj h
      refine .kept ((Docket.cargo_congr ?_ ?_ ?_).trans
        (Docket.cargo_map s.docket fun r => r.cargo_replaceAuthority old new)) rfl <;> rfl

end Calls

/-! ## The outbound pool -/

section Pool

variable {host : Host AccountId} {b b' : Blaze AccountId}

/-- The sequence of a message of the pool. -/
def pooledSequence (host : Host AccountId) (message : Bytes) : Option U256 :=
  (SocketMessage.tryFrom host.codec message).map sequence

/-- No two messages of the pool have one sequence. -/
def Blaze.Distinct (host : Host AccountId) (b : Blaze AccountId) : Prop :=
  (b.outboundPool.filterMap (pooledSequence host)).Nodup

lemma Blaze.Distinct.sublist (h : b.Distinct host) (hsub : b'.outboundPool.Sublist b.outboundPool) :
    b'.Distinct host := List.Nodup.sublist (hsub.filterMap _) h

lemma Blaze.Distinct.of_eq (h : b.Distinct host) (heq : b'.outboundPool = b.outboundPool) :
    b'.Distinct host := by
  rw [Blaze.Distinct, heq]
  exact h

/-- The sequences of the messages that the hook takes. -/
lemma Blaze.Distinct.keyed (h : b.Distinct host) {messages : List Bytes} {parsed : List SocketMessage}
    (hsub : messages.Sublist b.outboundPool)
    (hparse : Parses (SocketMessage.tryFrom host.codec) messages parsed) : Keyed sequence parsed := by
  refine keyed_of_nodup ?_
  have hmap : messages.filterMap (pooledSequence host) = parsed.map sequence := by
    have hsome : messages.map (pooledSequence host) = (parsed.map sequence).map some := by
      have hcomp : pooledSequence host = Option.map sequence ∘ SocketMessage.tryFrom host.codec := rfl
      rw [hcomp, ← List.map_map, show messages.map (SocketMessage.tryFrom host.codec) = _ from hparse,
        List.map_map, List.map_map]
      rfl
    calc messages.filterMap (pooledSequence host)
        = (messages.map (pooledSequence host)).filterMap id := by rw [List.filterMap_map]; rfl
      _ = parsed.map sequence := by rw [hsome, List.filterMap_map]; simp
  rw [← hmap]
  exact List.Nodup.sublist (hsub.filterMap _) h

/-- A message that is submitted gets a sequence of its own. -/
lemma submitOutboundRequest_distinct {verifySocketMessage : Bytes → Bool} {message : Bytes}
    {pool : List Bytes × List U256}
    (h : pool.2 = pool.1.filterMap (pooledSequence host) ∧ pool.2.Nodup) :
    let pool' := Blaze.submitOutboundRequest host verifySocketMessage pool message
    pool'.2 = pool'.1.filterMap (pooledSequence host) ∧ pool'.2.Nodup := by
  obtain ⟨heq, hnodup⟩ := h
  simp only [Blaze.submitOutboundRequest]
  split
  case isTrue => exact ⟨heq, hnodup⟩
  case isFalse =>
    split
    case h_1 => exact ⟨heq, hnodup⟩
    case h_2 m hm =>
      split_ifs with hmem hverified
      · exact ⟨heq, hnodup⟩
      · have hseq : pooledSequence host message = some m.reqId.sequence := by
          rw [pooledSequence, hm]
          rfl
        refine ⟨?_, ?_⟩
        · rw [List.filterMap_append, ← heq, List.filterMap_cons, hseq]
          rfl
        · rw [List.nodup_append]
          refine ⟨hnodup, List.nodup_singleton _, fun q hq q' hq' => ?_⟩
          rw [List.mem_singleton] at hq'
          rintro rfl
          exact hmem (hq' ▸ hq)
      · exact ⟨heq, hnodup⟩

variable [LinearOrder AccountId] {v : View AccountId} {s s' : Bridge AccountId}

omit [LinearOrder AccountId] in
/-- Messages that are submitted have new sequences. -/
lemma Blaze.submitOutboundRequests_distinct {relayers : Relayers AccountId} {bytes : ℕ}
    {verifySocketMessage : Bytes → Bool} {sub : Blaze.SocketMessagesSubmission AccountId}
    (h : b.Distinct host) : Returns (Blaze.Distinct host)
      (b.submitOutboundRequests host relayers bytes verifySocketMessage sub) := by
  refine .bind fun _ => .bind fun _ => .bind fun _ => .bind fun _ => .pure ?_
  have hloop := List.foldlRecOn (motive := fun pool : List Bytes × List U256 =>
      pool.2 = pool.1.filterMap (pooledSequence host) ∧ pool.2.Nodup) sub.messages
    (Blaze.submitOutboundRequest host verifySocketMessage)
    (b := (b.outboundPool, b.outboundPool.filterMap (pooledSequence host))) ⟨rfl, h⟩
    fun pool hpool message _ => submitOutboundRequest_distinct hpool
  obtain ⟨heq, hnodup⟩ := hloop
  rw [heq] at hnodup
  exact hnodup

/-- No call of Blaze submits a sequence twice. -/
lemma Bridge.blazeCall_distinct {call : Blaze.Call AccountId} (h : s.blaze.Distinct host) :
    Returns (Blaze.Distinct host) (s.blazeCall host v call) := by
  cases call with
  | setActivation origin isActivated => exact .bind fun _ => .bind fun _ => .pure h
  | submitUtxos sub =>
      refine .bind fun _ => .bind fun _ => .bind fun _ => .bind fun _ b hb => ?_
      exact h.of_eq (Blaze.submitUtxos_coinsOnly b hb).outboundPool_eq
  | broadcastPoll sub =>
      refine .bind fun _ => .bind fun _ => .bind fun _ => .bind fun tx => .bind fun _ =>
        .bind fun _ => .ite (fun b hb => ?_) (.pure h)
      exact h.of_eq (Blaze.setStatus_coinsOnly b hb).outboundPool_eq
  | submitFeeRate sub =>
      exact .bind fun _ => .bind fun _ => .bind fun _ => .bind fun _ => .bind fun _ =>
        .bind fun _ => .pure h
  | submitOutboundRequests sub => exact Blaze.submitOutboundRequests_distinct h
  | forcePushUtxos origin utxos =>
      refine .bind fun _ => .bind fun _ => .bind fun _ => .pure ?_
      exact h.of_eq (Blaze.clearUtxos_coinsOnly.trans Blaze.forcePushUtxos_coinsOnly).outboundPool_eq
  | removeOutboundMessages sub =>
      exact .bind fun _ => .bind fun _ => .bind fun _ => .pure (h.sublist List.filter_sublist)

omit [LinearOrder AccountId] in
lemma Bridge.lockIfActivated_outboundPool {txid : H256} {psbt : Psbt} :
    Returns (fun t => t.blaze.outboundPool = s.blaze.outboundPool)
      (s.lockIfActivated host txid psbt) := by
  refine .ite (.bind fun _ => ?_) (.pure rfl)
  intro t h
  simp only [bind_eq_ok, ofBlaze_eq_ok, pure_eq_ok, Blaze.lockUtxos] at h
  obtain ⟨_, ⟨b, hb, rfl⟩, rfl⟩ := h
  exact (Blaze.setStatus_coinsOnly b hb).outboundPool_eq

omit [LinearOrder AccountId] in
lemma Bridge.unlockIfActivated_outboundPool {txid : H256} :
    Returns (fun t => t.blaze.outboundPool = s.blaze.outboundPool) (s.unlockIfActivated txid) := by
  refine .ite ?_ (.pure rfl)
  intro t h
  simp only [bind_eq_ok, ofBlaze_eq_ok, pure_eq_ok, Blaze.unlockUtxos] at h
  obtain ⟨b, ⟨tx, -, hb⟩, rfl⟩ := h
  exact (Blaze.setStatus_coinsOnly b hb).outboundPool_eq

/-- The calls of the socket queue leave the outbound pool alone. -/
lemma Bridge.queueCall_outboundPool {call : Queue.Call AccountId} :
    Returns (fun t => t.blaze.outboundPool = s.blaze.outboundPool) (s.queueCall host v call) := by
  cases call with
  | setAuthority origin new => exact .bind fun _ => .bind fun _ => .pure rfl
  | setSocket origin new isBitcoin =>
      exact .bind fun _ => .ite (.bind fun _ => .pure rfl) (.bind fun _ => .pure rfl)
  | setMaxFeeRate origin new => exact .bind fun _ => .bind fun _ => .bind fun _ => .pure rfl
  | setMaxSocketMessageBytes origin new => exact .bind fun _ => .bind fun _ => .pure rfl
  | submitUnsignedPsbt msg =>
      intro t h
      simp only [Bridge.queueCall, Bridge.submitUnsignedPsbt, bind_eq_ok, ensure_eq_ok, pure_eq_ok,
        Unique.exists_iff] at h
      obtain ⟨-, -, -, psbt, -, -, -, -, verified, -, rfl⟩ := h
      rfl
  | submitSignedPsbt msg =>
      intro t h
      simp only [Bridge.queueCall, Bridge.submitSignedPsbt, bind_eq_ok, ensure_eq_ok, okOr_eq_ok,
        exists_const] at h
      obtain ⟨-, unsigned, -, signed, -, request, -, -, -, combined, -, combined', -, signedPsbts, -,
        h⟩ := h
      split at h
      · obtain rfl := pure_eq_ok.mp h
        rfl
      · obtain rfl := pure_eq_ok.mp h
        rfl
  | submitExecutedRequest msg =>
      refine .bind fun _ => .bind fun _ => .bind fun e => ?_
      exact .ite (.pure rfl) (.pure rfl)
  | submitRollbackRequest origin msg =>
      intro t h
      simp only [Bridge.queueCall, Bridge.submitRollbackRequest, bind_eq_ok, ensure_eq_ok, okOr_eq_ok,
        pure_eq_ok, Unique.exists_iff] at h
      obtain ⟨-, -, psbt, -, -, -, -, -, vault, -, refund, -, refund', -, txInfo, -, -, -,
        systemVault, -, systemVault', -, -, t₁, hlock, rfl⟩ := h
      exact lockIfActivated_outboundPool t₁ hlock
  | submitRollbackPoll msg =>
      refine .bind fun _ => .bind fun _ => .bind fun _ => .bind fun _ => .bind fun _ => ?_
      exact .ite (.pure rfl) (.pure rfl)
  | submitMigrationRequest origin raw =>
      intro t h
      simp only [Bridge.queueCall, Bridge.submitMigrationRequest, bind_eq_ok, ensure_eq_ok,
        Unique.exists_iff] at h
      obtain ⟨-, -, psbt, -, -, -, h⟩ := h
      split at h
      · simp only [bind_eq_ok, ensure_eq_ok, okOr_eq_ok, pure_eq_ok, Unique.exists_iff] at h
        obtain ⟨systemVault, -, address, -, -, rfl⟩ := h
        exact Blaze.clearUtxos_coinsOnly.outboundPool_eq
      · cases h
  | submitBumpFeeRequest origin oldTxid new =>
      intro t h
      simp only [Bridge.queueCall, Bridge.submitBumpFeeRequest, bind_eq_ok, ensure_eq_ok, okOr_eq_ok,
        pure_eq_ok, Unique.exists_iff] at h
      obtain ⟨-, request, -, -, -, oldPsbt, -, newPsbt, -, -, -, -, -, -, s₁, h₁, s₂, h₂, s₃, h₃,
        rfl⟩ := h
      have hlock := lockIfActivated_outboundPool s₃ h₃
      have hunlock := unlockIfActivated_outboundPool s₂ h₂
      have hblaze : s₁.blaze = s.blaze := bumpRecords_blaze s₁ h₁
      exact hlock.trans (hunlock.trans (congrArg Blaze.outboundPool hblaze))
  | dropPendingRollbackRequest origin txid =>
      intro t h
      simp only [Bridge.queueCall, Bridge.dropPendingRollbackRequest, bind_eq_ok, ensure_eq_ok,
        okOr_eq_ok, exists_const] at h
      obtain ⟨-, -, request, -, -, h⟩ := h
      have hunlock := unlockIfActivated_outboundPool t h
      exact hunlock

omit [LinearOrder AccountId] in
lemma Blaze.handleToleranceCounter_outboundPool (b : Blaze AccountId) (isIncrease : Bool) :
    (b.handleToleranceCounter host isIncrease).outboundPool = b.outboundPool := by
  simp only [Blaze.handleToleranceCounter]
  split_ifs <;> rfl

lemma Bridge.prepare_outboundPool : (s.prepare v).1.blaze.outboundPool = s.blaze.outboundPool := by
  simp only [Bridge.prepare]
  split_ifs <;> rfl

/-- The hook puts no message into the outbound pool, and keeps the order of the others. -/
lemma Bridge.onInitialize_outboundPool (h : s.onInitialize host v = some s') :
    s'.blaze.outboundPool.Sublist s.blaze.outboundPool := by
  obtain ⟨plan, -, h⟩ := Option.bind_eq_some_iff.mp h
  have hprepare := s.prepare_outboundPool (v := v)
  cases plan with
  | idle =>
      obtain rfl := Option.some.inj h
      rw [hprepare]
  | fail =>
      obtain rfl := Option.some.inj h
      rw [← hprepare, Blaze.handleToleranceCounter_outboundPool]
  | build psbt messages selected =>
      simp only [Bridge.execute, Option.bind_eq_bind, Option.bind_eq_some_iff, Option.pure_def,
        Option.some.injEq, toOption_eq_some, Blaze.lockUtxos, bind_eq_ok, pure_eq_ok] at h
      obtain ⟨parsed, -, _, ⟨b, hb, rfl⟩, rfl⟩ := h
      have hlocked := (Blaze.setStatus_coinsOnly b hb).outboundPool_eq
      simp only [Blaze.handleToleranceCounter_outboundPool, hlocked, ← hprepare]
      exact List.filter_sublist

/-- Whatever a step puts into the outbound pool has a sequence of its own. -/
lemma Bridge.step_distinct {i : Bridge.Step AccountId} (h : s.step host i = some s')
    (hs : s.blaze.Distinct host) : s'.blaze.Distinct host := by
  cases i with
  | pool v i =>
      simp only [Bridge.step, Option.bind_eq_bind, Option.bind_eq_some_iff, Option.pure_def,
        Option.some.injEq] at h
      obtain ⟨k, -, pool, -, rfl⟩ := h
      exact hs
  | blaze v c =>
      obtain rfl := Option.some.inj h
      exact commit_induction hs (Bridge.blazeCall_distinct hs)
  | queue v c =>
      obtain rfl := Option.some.inj h
      refine commit_induction (P := fun t : Bridge AccountId => t.blaze.Distinct host) hs ?_
      exact fun t ht => hs.of_eq (Bridge.queueCall_outboundPool t ht)
  | onInitialize v => exact hs.sublist (Bridge.onInitialize_outboundPool h)
  | replaceAuthority old new =>
      obtain rfl := Option.some.inj h
      exact hs

end Pool

end BifrostNode.Btc
