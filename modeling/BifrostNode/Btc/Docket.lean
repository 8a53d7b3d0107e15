import BifrostNode.Btc.Bridge

/-!
# What happens to requests

A request goes from one map of the socket queue to the next, and a rollback request is recorded beside
them.  The five maps that say so are the docket.

**One step.**  `DocketMove` says everything that a step of the bridge can do to the docket, with what
was checked before, and `Bridge.step_docket` that it does.  Every property of requests over whole runs
is proved by cases on it.

**The migration** is part of it, since the requests of a migration are recorded in the pool as well.
-/

namespace BifrostNode.Btc

open Cccp Staking Transition Pool Queue

variable {AccountId : Type}

/-- The maps of the queue that have requests in them. -/
@[ext] structure Docket (AccountId : Type) where
  pending : StorageMap H256 (PsbtRequest AccountId)
  finalized : StorageMap H256 (PsbtRequest AccountId)
  executed : StorageMap H256 (PsbtRequest AccountId)
  rollback : StorageMap H256 (RollbackRequest AccountId)
  bonded : StorageMap (H256 × U256) H256

def SocketQueue.docket (s : SocketQueue AccountId) : Docket AccountId :=
  ⟨s.pendingRequests, s.finalizedRequests, s.executedRequests, s.rollbackRequests,
    s.bondedRollbackOutputs⟩

def Bridge.docket (s : Bridge AccountId) : Docket AccountId := s.queue.docket

/-- The maps that a request goes through. -/
inductive Stage
  | pending
  | finalized
  | executed
  deriving DecidableEq

/-- No request has the txid. -/
structure Docket.IsNew (d : Docket AccountId) (txid : H256) : Prop where
  pending : d.pending.get txid = none
  finalized : d.finalized.get txid = none
  executed : d.executed.get txid = none

instance (d : Docket AccountId) (txid : H256) : Decidable (d.IsNew txid) :=
  decidable_of_iff (d.pending.get txid = none ∧ d.finalized.get txid = none ∧
      d.executed.get txid = none)
    ⟨fun ⟨hp, hf, he⟩ => ⟨hp, hf, he⟩, fun h => ⟨h.pending, h.finalized, h.executed⟩⟩

/-- Signing changes neither the type of a request nor what it is to sign. -/
structure Queue.PsbtRequest.SameTerms (r r' : PsbtRequest AccountId) : Prop where
  unsignedPsbt : r'.unsignedPsbt = r.unsignedPsbt
  socketMessages : r'.socketMessages = r.socketMessages
  requestType : r'.requestType = r.requestType

variable [LinearOrder AccountId]

/-- The migration stays where it is. -/
structure SamePhase (p p' : Registration AccountId) : Prop where
  currentRound : p'.currentRound = p.currentRound
  serviceState : p'.serviceState = p.serviceState
  ongoing : p'.ongoingVaultMigration = p.ongoingVaultMigration
  nextVault : p'.systemVault.get (p.currentRound + 1) = p.systemVault.get (p.currentRound + 1)

/-- **What a step can do to the docket**, and to the migration along with it. -/
inductive DocketMove (host : Host AccountId) (s : Bridge AccountId) (i : Bridge.Step AccountId)
    (s' : Bridge AccountId) : Prop
  | pool (v : View AccountId) (j k : Pool.Step AccountId) (hi : i = .pool v j)
      (hseen : j.seen (s.outlook v) = some k) (hstep : s.pool.step host k = some s'.pool)
      (h : s'.docket = s.docket) : DocketMove host s i s'
  | kept (hp : SamePhase s.pool s'.pool) (h : s'.docket = s.docket) : DocketMove host s i s'
  | built (v : View AccountId) (psbt : Psbt) (messages : List Bytes)
      (selected : List UtxoInfoWithSize) (hi : i = .onInitialize v)
      (hplan : s.plan host v = some (.build psbt messages selected))
      (hnormal : s.pool.serviceState = .normal) (hp : SamePhase s.pool s'.pool)
      (h : s'.docket = { s.docket with
        pending := s.docket.pending.insert (txidOf host psbt)
          (.new (host.lib.serialize psbt) messages .normal) }) : DocketMove host s i s'
  | added (txid : H256) (r : PsbtRequest AccountId) (hnormal : s.pool.serviceState = .normal)
      (hnew : s.docket.IsNew txid) (htype : r.requestType = .normal)
      (hroll : s.docket.rollback.get txid = none) (hp : SamePhase s.pool s'.pool)
      (h : s'.docket = { s.docket with pending := s.docket.pending.insert txid r }) :
      DocketMove host s i s'
  | migrated (txid : H256) (r : PsbtRequest AccountId)
      (htransfer : s.pool.serviceState = .utxoTransfer) (hnew : s.docket.IsNew txid)
      (htype : r.requestType = .migration) (hp : s'.pool = s.pool.addMigrationTx txid)
      (h : s'.docket = { s.docket with pending := s.docket.pending.insert txid r }) :
      DocketMove host s i s'
  | signed (txid : H256) (r r' : PsbtRequest AccountId) (hr : s.docket.pending.get txid = some r)
      (hsame : r.SameTerms r') (hp : SamePhase s.pool s'.pool)
      (h : s'.docket = { s.docket with pending := s.docket.pending.insert txid r' }) :
      DocketMove host s i s'
  | finalized (txid : H256) (r r' : PsbtRequest AccountId)
      (hr : s.docket.pending.get txid = some r) (hsame : r.SameTerms r')
      (hp : SamePhase s.pool s'.pool)
      (h : s'.docket = { s.docket with
        pending := s.docket.pending.remove txid
        finalized := s.docket.finalized.insert txid r' }) : DocketMove host s i s'
  | executed (txid : H256) (r : PsbtRequest AccountId) (hr : s.docket.finalized.get txid = some r)
      (hp : s'.pool = if r.requestType = .migration then s.pool.executeMigrationTx txid else s.pool)
      (h : s'.docket = { s.docket with
        finalized := s.docket.finalized.remove txid
        executed := s.docket.executed.insert txid r }) : DocketMove host s i s'
  | requested (txid : H256) (rb : RollbackRequest AccountId)
      (hnormal : s.pool.serviceState = .normal) (hnew : s.docket.IsNew txid)
      (hroll : s.docket.rollback.get txid = none)
      (hbond : s.docket.bonded.get (rb.txid, rb.vout) = none) (happr : rb.isApproved = false)
      (hp : SamePhase s.pool s'.pool)
      (h : s'.docket = { s.docket with
        rollback := s.docket.rollback.insert txid rb
        bonded := s.docket.bonded.insert (rb.txid, rb.vout) txid }) : DocketMove host s i s'
  | polled (txid : H256) (rb : RollbackRequest AccountId) (votes : StorageMap AccountId Bool)
      (hrb : s.docket.rollback.get txid = some rb) (happr : rb.isApproved = false)
      (hp : SamePhase s.pool s'.pool)
      (h : s'.docket = { s.docket with
        rollback := s.docket.rollback.insert txid { rb with votes } }) : DocketMove host s i s'
  | approved (v : View AccountId) (msg : RollbackPollMessage AccountId)
      (rb : RollbackRequest AccountId) (votes : StorageMap AccountId Bool)
      (hi : i = .queue v (.submitRollbackPoll msg))
      (hrb : s.docket.rollback.get msg.txid = some rb) (happr : rb.isApproved = false)
      (hmaj : v.relayers.majority ≤ { rb with votes }.supporters.card)
      (hp : SamePhase s.pool s'.pool)
      (h : s'.docket = { s.docket with
        pending := s.docket.pending.insert msg.txid (.new rb.unsignedPsbt [] .rollback)
        rollback := s.docket.rollback.insert msg.txid { rb with votes, isApproved := true } }) :
      DocketMove host s i s'
  | dropped (v : View AccountId) (txid : H256) (rb : RollbackRequest AccountId)
      (hi : i = .queue v (.dropPendingRollbackRequest .root txid))
      (hnormal : s.pool.serviceState = .normal) (hrb : s.docket.rollback.get txid = some rb)
      (happr : rb.isApproved = false)
      (hunlock : s.blaze.isActivated = true → ∃ blaze, s.blaze.unlockUtxos txid = .ok blaze)
      (hp : SamePhase s.pool s'.pool)
      (h : s'.docket = { s.docket with rollback := s.docket.rollback.remove txid }) :
      DocketMove host s i s'
  | bumped (old new : H256) (r r' : PsbtRequest AccountId)
      (hnormal : s.pool.serviceState = .normal) (hr : s.docket.executed.get old = some r)
      (htype : r.requestType = .normal) (htype' : r'.requestType = .normal)
      (hnew : s.docket.IsNew new) (hroll : s.docket.rollback.get new = none)
      (hp : SamePhase s.pool s'.pool)
      (h : s'.docket = { s.docket with
        executed := s.docket.executed.remove old
        pending := s.docket.pending.insert new r' }) : DocketMove host s i s'
  | remigrated (old new : H256) (r r' : PsbtRequest AccountId)
      (htransfer : s.pool.serviceState = .utxoTransfer) (hr : s.docket.executed.get old = some r)
      (htype : r.requestType = .migration) (htype' : r'.requestType = .migration)
      (hnew : s.docket.IsNew new) (hroll : s.docket.rollback.get new = none)
      (hp : s'.pool = (s.pool.removeMigrationTx old).addMigrationTx new)
      (h : s'.docket = { s.docket with
        executed := s.docket.executed.remove old
        pending := s.docket.pending.insert new r' }) : DocketMove host s i s'
  | rebonded (old new : H256) (r : PsbtRequest AccountId) (rb : RollbackRequest AccountId)
      (raw : Bytes) (messages : List Bytes) (hnormal : s.pool.serviceState = .normal)
      (hr : s.docket.executed.get old = some r) (htype : r.requestType = .rollback)
      (hne : new ≠ old) (hnew : s.docket.IsNew new) (hroll : s.docket.rollback.get new = none)
      (hrb : s.docket.rollback.get old = some rb) (hp : SamePhase s.pool s'.pool)
      (h : s'.docket = { s.docket with
        executed := s.docket.executed.remove old
        pending := s.docket.pending.insert new (.new raw messages .rollback)
        rollback :=
          (s.docket.rollback.remove old).insert new { rb with unsignedPsbt := raw }
        bonded := s.docket.bonded.insert (rb.txid, rb.vout) new }) : DocketMove host s i s'
  | renamed (old new : AccountId) (hp : SamePhase s.pool s'.pool)
      (h : s'.docket = { s.docket with
        pending := s.docket.pending.mapVals fun r => r.replaceAuthority old new
        rollback := s.docket.rollback.mapVals fun r =>
          if r.isApproved then r else r.replaceAuthority old new }) : DocketMove host s i s'

section Calls

variable {host : Host AccountId} {v : View AccountId} {s s' : Bridge AccountId}

/-! ## What the calls share -/

omit [LinearOrder AccountId] in
lemma SamePhase.refl (p : Registration AccountId) : SamePhase p p := ⟨rfl, rfl, rfl, rfl⟩

omit [LinearOrder AccountId] in
lemma SamePhase.of_eq {p p' : Registration AccountId} (h : p' = p) : SamePhase p p' := h ▸ .refl p

omit [LinearOrder AccountId] in
lemma Bridge.ensureNew_eq_ok {txid : H256} {u : Unit} :
    s.ensureNew txid = .ok u ↔ s.docket.IsNew txid := by
  simp only [Bridge.ensureNew, bind_eq_ok, ensure_eq_ok, Unique.exists_iff, StorageMap.contains,
    Bool.not_eq_true', Option.isSome_eq_false_iff, Option.isNone_iff_eq_none]
  exact ⟨fun ⟨hp, hf, he⟩ => ⟨hp, hf, he⟩, fun ⟨hp, hf, he⟩ => ⟨hp, hf, he⟩⟩

omit [LinearOrder AccountId] in
lemma Bridge.ensureNoRollback_eq_ok {txid : H256} {u : Unit} :
    s.ensureNoRollback txid = .ok u ↔ s.docket.rollback.get txid = none := by
  simp only [Bridge.ensureNoRollback, ensure_eq_ok, StorageMap.contains, Bool.not_eq_true',
    Option.isSome_eq_false_iff, Option.isNone_iff_eq_none]
  rfl

lemma ofBlaze_eq_ok {α : Type} {x : Except Blaze.Error α} {a : α} : ofBlaze x = .ok a ↔ x = .ok a := by
  cases x <;> simp [ofBlaze, Except.mapError]

/-- Only Blaze is changed. -/
def Bridge.SameBut (s s' : Bridge AccountId) : Prop := s'.pool = s.pool ∧ s'.queue = s.queue

omit [LinearOrder AccountId] in
lemma Bridge.lockIfActivated_same {txid : H256} {psbt : Psbt} :
    Returns s.SameBut (s.lockIfActivated host txid psbt) :=
  .ite (.bind fun _ => .bind fun _ => .pure ⟨rfl, rfl⟩) (.pure ⟨rfl, rfl⟩)

omit [LinearOrder AccountId] in
lemma Bridge.unlockIfActivated_same {txid : H256} : Returns s.SameBut (s.unlockIfActivated txid) :=
  .ite (.bind fun _ => .pure ⟨rfl, rfl⟩) (.pure ⟨rfl, rfl⟩)

/-! ## The calls -/

lemma Bridge.submitUnsignedPsbt_docket {msg : UnsignedPsbtMessage AccountId}
    (h : s.submitUnsignedPsbt host v msg = .ok s') :
    DocketMove host s (.queue v (.submitUnsignedPsbt msg)) s' := by
  simp only [Bridge.submitUnsignedPsbt, bind_eq_ok, ensure_eq_ok, pure_eq_ok, Unique.exists_iff,
    ensureNew_eq_ok, ensureNoRollback_eq_ok] at h
  obtain ⟨-, -, hnormal, psbt, -, -, hnew, hroll, verified, -, rfl⟩ := h
  exact .added _ _ hnormal hnew rfl hroll (.refl _) rfl

lemma Bridge.submitSignedPsbt_docket {msg : SignedPsbtMessage AccountId}
    (h : s.submitSignedPsbt host v msg = .ok s') :
    DocketMove host s (.queue v (.submitSignedPsbt msg)) s' := by
  simp only [Bridge.submitSignedPsbt, bind_eq_ok, ensure_eq_ok, okOr_eq_ok, Unique.exists_iff] at h
  obtain ⟨-, unsigned, -, signed, -, r, hr, -, -, combined, -, combined', -, signedPsbts, -, h⟩ := h
  split at h
  · obtain rfl := pure_eq_ok.mp h
    refine .finalized _ r _ hr ?_ (.refl _) rfl
    exact ⟨rfl, rfl, rfl⟩
  · obtain rfl := pure_eq_ok.mp h
    refine .signed _ r _ hr ?_ (.refl _) rfl
    exact ⟨rfl, rfl, rfl⟩

lemma Bridge.submitExecutedRequest_docket {msg : ExecutedPsbtMessage AccountId}
    (h : s.submitExecutedRequest v msg = .ok s') :
    DocketMove host s (.queue v (.submitExecutedRequest msg)) s' := by
  simp only [Bridge.submitExecutedRequest, bind_eq_ok, ensure_eq_ok, okOr_eq_ok, Unique.exists_iff,
    Prod.exists] at h
  obtain ⟨-, r, hr, confirmations, shouldExecute, -, h⟩ := h
  by_cases hexec : shouldExecute = true
  · rw [if_pos hexec] at h
    obtain rfl := pure_eq_ok.mp h
    exact .executed _ r hr rfl rfl
  · rw [if_neg hexec] at h
    obtain rfl := pure_eq_ok.mp h
    exact .kept (.refl _) rfl

lemma Bridge.submitRollbackRequest_docket {origin : Origin AccountId}
    {msg : RollbackPsbtMessage AccountId} (h : s.submitRollbackRequest host v origin msg = .ok s') :
    DocketMove host s (.queue v (.submitRollbackRequest origin msg)) s' := by
  simp only [Bridge.submitRollbackRequest, bind_eq_ok, ensure_eq_ok, okOr_eq_ok, pure_eq_ok,
    Unique.exists_iff, ensureNew_eq_ok, ensureNoRollback_eq_ok] at h
  obtain ⟨-, hnormal, psbt, -, -, hnew, hroll, hbond, vault, -, refund, -, refund', -, txInfo, -, -, -,
    systemVault, -, systemVault', -, -, t, ht, rfl⟩ := h
  obtain ⟨hpool, hqueue⟩ := lockIfActivated_same t ht
  have hfree : s.queue.bondedRollbackOutputs.get (msg.txid, msg.vout) = none := by
    simpa [StorageMap.contains] using hbond
  refine .requested _ _ hnormal hnew hroll ?_ rfl (.of_eq hpool) (by rw [Bridge.docket, hqueue]; rfl)
  exact hfree

lemma Bridge.submitRollbackPoll_docket {msg : RollbackPollMessage AccountId}
    (h : s.submitRollbackPoll v msg = .ok s') :
    DocketMove host s (.queue v (.submitRollbackPoll msg)) s' := by
  simp only [Bridge.submitRollbackPoll, bind_eq_ok, ensure_eq_ok, okOr_eq_ok, Unique.exists_iff] at h
  obtain ⟨-, rb, hrb, happr, -, votes, -, h⟩ := h
  have happr : rb.isApproved = false := by simpa using happr
  split_ifs at h with hmaj
  · obtain rfl := pure_eq_ok.mp h
    exact .approved v msg rb votes rfl hrb happr hmaj (.refl _) rfl
  · obtain rfl := pure_eq_ok.mp h
    exact .polled _ rb votes hrb happr (.refl _) rfl

lemma Bridge.dropPendingRollbackRequest_docket {origin : Origin AccountId} {txid : H256}
    (h : s.dropPendingRollbackRequest origin txid = .ok s') :
    DocketMove host s (.queue v (.dropPendingRollbackRequest origin txid)) s' := by
  simp only [Bridge.dropPendingRollbackRequest, bind_eq_ok, ensure_eq_ok, okOr_eq_ok,
    Unique.exists_iff] at h
  obtain ⟨horigin, hnormal, rb, hrb, happr, h⟩ := h
  have happr : rb.isApproved = false := by simpa using happr
  have hroot : origin = .root := by
    cases origin <;> simp_all
  subst hroot
  obtain ⟨hpool, hqueue⟩ := unlockIfActivated_same s' h
  refine .dropped v txid rb rfl hnormal hrb happr (fun hact => ?_) (.of_eq hpool)
    (by rw [Bridge.docket, hqueue]; rfl)
  simp only [Bridge.unlockIfActivated, hact, if_true, bind_eq_ok, ofBlaze_eq_ok] at h
  obtain ⟨blaze, hblaze, -⟩ := h
  exact ⟨blaze, hblaze⟩

lemma Bridge.submitMigrationRequest_docket {origin : Origin AccountId} {raw : Bytes}
    (h : s.submitMigrationRequest host origin raw = .ok s') :
    DocketMove host s (.queue v (.submitMigrationRequest origin raw)) s' := by
  simp only [Bridge.submitMigrationRequest, bind_eq_ok, ensure_eq_ok, Unique.exists_iff,
    ensureNew_eq_ok] at h
  obtain ⟨-, htransfer, psbt, -, -, hnew, h⟩ := h
  split at h
  · simp only [bind_eq_ok, ensure_eq_ok, okOr_eq_ok, pure_eq_ok, Unique.exists_iff] at h
    obtain ⟨systemVault, -, address, -, -, rfl⟩ := h
    exact .migrated _ _ htransfer hnew rfl rfl rfl
  · cases h

/-- `submit_bump_fee_request`, by the type of the request. -/
lemma Bridge.submitBumpFeeRequest_docket {origin : Origin AccountId} {old : H256} {raw : Bytes}
    (h : s.submitBumpFeeRequest host origin old raw = .ok s') :
    DocketMove host s (.queue v (.submitBumpFeeRequest origin old raw)) s' := by
  simp only [Bridge.submitBumpFeeRequest, bind_eq_ok, ensure_eq_ok, okOr_eq_ok, pure_eq_ok,
    Unique.exists_iff, ensureNew_eq_ok, ensureNoRollback_eq_ok] at h
  obtain ⟨-, r, hr, -, hstate, oldPsbt, -, newPsbt, -, hne, -, -, hnew, hroll, s₁, h₁, s₂, h₂, s₃, h₃,
    rfl⟩ := h
  obtain ⟨hp₂, hq₂⟩ := unlockIfActivated_same s₂ h₂
  obtain ⟨hp₃, hq₃⟩ := lockIfActivated_same s₃ h₃
  have hpool : (s₃.addPending (txidOf host newPsbt)
      (.new raw r.socketMessages r.requestType)).pool = s₁.pool := by
    simp only [Bridge.addPending, hp₃, hp₂]
  have hdocket : (s₃.addPending (txidOf host newPsbt)
      (.new raw r.socketMessages r.requestType)).docket = { s₁.docket with
        executed := s₁.docket.executed.remove old
        pending := s₁.docket.pending.insert (txidOf host newPsbt)
          (.new raw r.socketMessages r.requestType) } := by
    simp only [Bridge.docket, Bridge.addPending, hq₃, hq₂]
    rfl
  cases htype : r.requestType with
  | normal =>
      simp only [Bridge.bumpRecords, htype, bind_eq_ok, pure_eq_ok] at h₁
      simp only [htype] at hstate hpool hdocket ⊢
      obtain ⟨messages, -, rfl⟩ := h₁
      refine .bumped old _ r _ hstate hr htype ?_ hnew hroll (.of_eq hpool) hdocket
      rfl
  | migration =>
      simp only [Bridge.bumpRecords, htype, pure_eq_ok] at h₁
      simp only [htype] at hstate hpool hdocket ⊢
      obtain rfl := h₁
      refine .remigrated old _ r _ hstate hr htype ?_ hnew hroll hpool hdocket
      rfl
  | rollback =>
      simp only [Bridge.bumpRecords, htype, bind_eq_ok, okOr_eq_ok, pure_eq_ok] at h₁
      simp only [htype] at hstate hpool hdocket ⊢
      obtain ⟨rb, hrb, rfl⟩ := h₁
      exact .rebonded old _ r rb raw _ hstate hr htype hne hnew hroll hrb (.of_eq hpool) hdocket

/-- The migration stays where it is while the refund addresses change. -/
lemma SamePhase.processSetRefunds (p : Registration AccountId) : SamePhase p p.processSetRefunds := by
  obtain ⟨q, h, heq⟩ := p.processSetRefunds_rule (P := SamePhase p) (.refl p)
    fun q _ _ _ hq _ _ => ⟨hq.currentRound, hq.serviceState, hq.ongoing, hq.nextVault⟩
  rw [heq]
  exact ⟨h.currentRound, h.serviceState, h.ongoing, h.nextVault⟩

/-- The migration stays where it is while an authority is replaced. -/
lemma SamePhase.replaceAuthority (p : Registration AccountId) (old new : AccountId) :
    SamePhase p (p.replaceAuthority old new) := by
  refine ⟨rfl, rfl, rfl, ?_⟩
  have hne : p.currentRound + 1 ≠ p.currentRound := by omega
  simp only [Registration.replaceAuthority]
  split
  · split_ifs
    · rw [StorageMap.get_insert_of_ne _ hne]
    · rfl
  · rfl

/-- What comes before the plan of the hook. -/
lemma Bridge.prepare_same : SamePhase s.pool (s.prepare v).1.pool ∧
    (s.prepare v).1.docket = s.docket := by
  simp only [Bridge.prepare]
  split_ifs
  · exact ⟨.processSetRefunds _, rfl⟩
  · exact ⟨.refl _, rfl⟩

/-- The hook adds the request that it has built, or leaves the docket alone. -/
lemma Bridge.onInitialize_docket (h : s.onInitialize host v = some s') :
    DocketMove host s (.onInitialize v) s' := by
  obtain ⟨plan, hplan, h⟩ := Option.bind_eq_some_iff.mp h
  obtain ⟨hphase, hprepare⟩ := s.prepare_same (v := v)
  cases plan with
  | idle =>
      obtain rfl := Option.some.inj h
      exact .kept hphase hprepare
  | fail =>
      obtain rfl := Option.some.inj h
      exact .kept hphase hprepare
  | build psbt messages selected =>
      have hnormal : s.pool.serviceState = .normal := by
        by_contra hnot
        have hidle : s.prepare v = (s, none) := if_neg fun hc => hnot hc.2
        simp [Bridge.plan, hidle] at hplan
      simp only [Bridge.execute, Option.bind_eq_bind, Option.bind_eq_some_iff, Option.pure_def,
        Option.some.injEq] at h
      obtain ⟨parsed, -, blaze, -, rfl⟩ := h
      refine .built v psbt messages selected rfl hplan hnormal hphase ?_
      rw [← hprepare]
      rfl

/-- **What a step does to the docket.**  Every step of the network is one of these moves. -/
lemma Bridge.step_docket {i : Bridge.Step AccountId} (h : s.step host i = some s') :
    DocketMove host s i s' := by
  cases i with
  | pool v i =>
      simp only [Bridge.step, Option.bind_eq_bind, Option.bind_eq_some_iff, Option.pure_def,
        Option.some.injEq] at h
      obtain ⟨k, hseen, pool, hstep, rfl⟩ := h
      exact .pool v i k rfl hseen hstep rfl
  | blaze v c =>
      obtain rfl := Option.some.inj h
      exact .kept (.refl _) rfl
  | queue v c =>
      obtain rfl := Option.some.inj h
      refine commit_induction (P := DocketMove host s (.queue v c)) (.kept (.refl _) rfl) ?_
      intro t ht
      have hkept : Returns (fun t => t.pool = s.pool ∧ t.docket = s.docket) (s.queueCall host v c) →
          DocketMove host s (.queue v c) t := fun hx => .kept (.of_eq (hx t ht).1) (hx t ht).2
      cases c with
      | setAuthority origin new =>
          exact hkept (.bind fun _ => .bind fun _ => .pure ⟨rfl, rfl⟩)
      | setSocket origin new isBitcoin =>
          exact hkept (.bind fun _ =>
            .ite (.bind fun _ => .pure ⟨rfl, rfl⟩) (.bind fun _ => .pure ⟨rfl, rfl⟩))
      | setMaxFeeRate origin new =>
          exact hkept (.bind fun _ => .bind fun _ => .bind fun _ => .pure ⟨rfl, rfl⟩)
      | setMaxSocketMessageBytes origin new =>
          exact hkept (.bind fun _ => .bind fun _ => .pure ⟨rfl, rfl⟩)
      | submitUnsignedPsbt msg => exact submitUnsignedPsbt_docket ht
      | submitSignedPsbt msg => exact submitSignedPsbt_docket ht
      | submitExecutedRequest msg => exact submitExecutedRequest_docket ht
      | submitRollbackRequest origin msg => exact submitRollbackRequest_docket ht
      | submitRollbackPoll msg => exact submitRollbackPoll_docket ht
      | submitMigrationRequest origin psbt => exact submitMigrationRequest_docket ht
      | submitBumpFeeRequest origin old new => exact submitBumpFeeRequest_docket ht
      | dropPendingRollbackRequest origin txid => exact dropPendingRollbackRequest_docket ht
  | onInitialize v => exact onInitialize_docket h
  | replaceAuthority old new =>
      obtain rfl := Option.some.inj h
      exact .renamed old new (.replaceAuthority _ old new) rfl

end Calls

end BifrostNode.Btc
