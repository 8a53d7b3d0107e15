import BifrostNode.Btc.Rollbacks

/-!
# The journey of a request

A request is submitted or built, signed until it can be finalized, and executed when it has been
broadcast.

* **One way.**  A request only moves on, and what it is to pay stays what it was.  An executed request
  stays for good, unless root bumps its fee: then another one takes its place, which is signed anew.
* **Who moves it on.**  It is executed when the authority says so or, once Blaze is activated, a majority
  of distinct relayers.
* **The key is the txid** of the transaction that is stored, for requests and for rollback requests.

The hook stores what it builds without a look at what is there, so the txid has to be new.
-/

namespace BifrostNode.Btc

open Cccp Staking Transition Pool Queue

variable {AccountId : Type}

/-! ## Stages -/

def Stage.rank : Stage → ℕ
  | .pending => 0
  | .finalized => 1
  | .executed => 2

/-- Where a request is, and what it is. -/
def Docket.find (d : Docket AccountId) (txid : H256) : Option (Stage × PsbtRequest AccountId) :=
  match d.pending.get txid, d.finalized.get txid, d.executed.get txid with
  | some r, _, _ => some (.pending, r)
  | none, some r, _ => some (.finalized, r)
  | none, none, some r => some (.executed, r)
  | none, none, none => none

/-- The step asks for a fee bump of a transaction. -/
def Bridge.Step.Bumps (txid : H256) (i : Bridge.Step AccountId) : Prop :=
  ∃ v raw, i = .queue v (.submitBumpFeeRequest .root txid raw)

/-- **What a step can do to the request under a txid**: it enters, is signed, and moves to the next stage. -/
inductive Passage (i : Bridge.Step AccountId) (txid : H256) :
    Option (Stage × PsbtRequest AccountId) → Option (Stage × PsbtRequest AccountId) → Prop
  | stays (x : Option (Stage × PsbtRequest AccountId)) : Passage i txid x x
  | enters (r : PsbtRequest AccountId) : Passage i txid none (some (.pending, r))
  | signed (r r' : PsbtRequest AccountId) (h : r.SameTerms r') :
      Passage i txid (some (.pending, r)) (some (.pending, r'))
  | finalized (r r' : PsbtRequest AccountId) (h : r.SameTerms r') :
      Passage i txid (some (.pending, r)) (some (.finalized, r'))
  | executed (r : PsbtRequest AccountId) :
      Passage i txid (some (.finalized, r)) (some (.executed, r))
  | bumped (r : PsbtRequest AccountId) (h : i.Bumps txid) : Passage i txid (some (.executed, r)) none

section Find

variable {d : Docket AccountId} {t : H256} {r : PsbtRequest AccountId}

lemma Docket.find_of_pending (h : d.pending.get t = some r) : d.find t = some (.pending, r) := by
  simp only [Docket.find, h]

lemma Docket.find_of_finalized (hp : d.pending.get t = none) (h : d.finalized.get t = some r) :
    d.find t = some (.finalized, r) := by
  simp only [Docket.find, hp, h]

lemma Docket.find_of_executed (hp : d.pending.get t = none) (hf : d.finalized.get t = none) :
    d.find t = (d.executed.get t).map fun r => (.executed, r) := by
  simp only [Docket.find, hp, hf]
  cases d.executed.get t <;> rfl

lemma Docket.IsNew.find (h : d.IsNew t) : d.find t = none := by
  simp only [Docket.find, h.pending, h.finalized, h.executed]

/-- The requests elsewhere. -/
lemma Docket.find_congr {d' : Docket AccountId} (hp : d'.pending.get t = d.pending.get t)
    (hf : d'.finalized.get t = d.finalized.get t) (he : d'.executed.get t = d.executed.get t) :
    d'.find t = d.find t := by
  simp only [Docket.find, hp, hf, he]

lemma Queue.PsbtRequest.SameTerms.refl (r : PsbtRequest AccountId) : r.SameTerms r := ⟨rfl, rfl, rfl⟩

lemma Queue.PsbtRequest.SameTerms.trans {r r₁ r₂ : PsbtRequest AccountId} (h₁ : r.SameTerms r₁)
    (h₂ : r₁.SameTerms r₂) : r.SameTerms r₂ :=
  ⟨h₂.unsignedPsbt.trans h₁.unsignedPsbt, h₂.socketMessages.trans h₁.socketMessages,
    h₂.requestType.trans h₁.requestType⟩

end Find

variable [LinearOrder AccountId]

/-! ## The executed requests -/

/-- Enough confirmations of a broadcast. -/
structure Confirmed (v : View AccountId) (s : Bridge AccountId) (msg : ExecutedPsbtMessage AccountId) :
    Prop where
  authority : s.isQueueAuthority v msg.authorityId = true
  majority : s.blaze.isActivated = true → v.relayers.majority ≤
    (insert msg.authorityId (s.queue.broadcastConfirmations.getD msg.txid ∅).keys).card

/-- **What a step does to the executed requests**: it confirms one, or a fee bump takes one away. -/
inductive ExecutedMove (s : Bridge AccountId) (i : Bridge.Step AccountId) (s' : Bridge AccountId) : Prop
  | kept (h : s'.queue.executedRequests = s.queue.executedRequests)
  | confirmed (v : View AccountId) (msg : ExecutedPsbtMessage AccountId) (r : PsbtRequest AccountId)
      (hi : i = .queue v (.submitExecutedRequest msg)) (hconf : Confirmed v s msg)
      (h : s'.queue.executedRequests = s.queue.executedRequests.insert msg.txid r)
  | bumped (old : H256) (hi : i.Bumps old)
      (h : s'.queue.executedRequests = s.queue.executedRequests.remove old)

section Executed

variable {host : Host AccountId} {v : View AccountId} {s s' : Bridge AccountId}

lemma Bridge.submitExecutedRequest_executed {msg : ExecutedPsbtMessage AccountId}
    (h : s.submitExecutedRequest v msg = .ok s') :
    ExecutedMove s (.queue v (.submitExecutedRequest msg)) s' := by
  simp only [Bridge.submitExecutedRequest, Bridge.confirmBroadcast, bind_eq_ok, ensure_eq_ok,
    okOr_eq_ok, Unique.exists_iff, Prod.exists] at h
  obtain ⟨hauth, r, hr, confirmations, shouldExecute, hconf, h⟩ := h
  by_cases hexec : shouldExecute = true
  · subst hexec
    obtain rfl := pure_eq_ok.mp h
    refine .confirmed v msg r rfl ⟨hauth, fun hact => ?_⟩ rfl
    rw [if_pos hact] at hconf
    simp only [bind_eq_ok, ensure_eq_ok, okOr_eq_ok, Unique.exists_iff] at hconf
    obtain ⟨-, all, hall, hconf⟩ := hconf
    split_ifs at hconf with hmaj
    · rw [StorageMap.tryInsert] at hall
      split_ifs at hall
      obtain rfl := Option.some.inj hall
      exact hmaj
    · cases hconf
  · rw [if_neg hexec] at h
    obtain rfl := pure_eq_ok.mp h
    exact .kept rfl

omit [LinearOrder AccountId] in
/-- What goes with the type of the request leaves the executed requests alone. -/
lemma Bridge.bumpRecords_executed {old new : H256} {r : PsbtRequest AccountId} {raw : Bytes} :
    Returns (fun t => t.queue.executedRequests = s.queue.executedRequests)
      (s.bumpRecords host old new r raw) := by
  rw [Bridge.bumpRecords]
  split
  · exact .bind fun _ => .pure rfl
  · exact .pure rfl
  · exact .bind fun _ => .pure rfl

lemma Bridge.submitBumpFeeRequest_executed {origin : Origin AccountId} {old : H256} {raw : Bytes}
    (h : s.submitBumpFeeRequest host origin old raw = .ok s') :
    ExecutedMove s (.queue v (.submitBumpFeeRequest origin old raw)) s' := by
  simp only [Bridge.submitBumpFeeRequest, bind_eq_ok, ensure_eq_ok, okOr_eq_ok, pure_eq_ok,
    Unique.exists_iff] at h
  obtain ⟨horigin, r, -, -, -, oldPsbt, -, newPsbt, -, -, -, -, -, -, s₁, h₁, s₂, h₂, s₃, h₃, rfl⟩ := h
  have hroot : origin = .root := by
    cases origin <;> simp_all
  subst hroot
  obtain ⟨-, hq₂⟩ := unlockIfActivated_same s₂ h₂
  obtain ⟨-, hq₃⟩ := lockIfActivated_same s₃ h₃
  refine .bumped old ⟨v, raw, rfl⟩ ?_
  rw [← bumpRecords_executed s₁ h₁]
  simp only [Bridge.addPending, hq₃, hq₂]

/-- A call of the socket queue changes the executed requests in one of these ways. -/
lemma Bridge.queueCall_executed {call : Queue.Call AccountId} (h : s.queueCall host v call = .ok s') :
    ExecutedMove s (.queue v call) s' := by
  have hkept : Returns (fun t => t.queue.executedRequests = s.queue.executedRequests)
      (s.queueCall host v call) → ExecutedMove s (.queue v call) s' := fun hx => .kept (hx s' h)
  cases call with
  | setAuthority origin new => exact hkept (.bind fun _ => .bind fun _ => .pure rfl)
  | setSocket origin new isBitcoin =>
      exact hkept (.bind fun _ => .ite (.bind fun _ => .pure rfl) (.bind fun _ => .pure rfl))
  | setMaxFeeRate origin new => exact hkept (.bind fun _ => .bind fun _ => .bind fun _ => .pure rfl)
  | setMaxSocketMessageBytes origin new => exact hkept (.bind fun _ => .bind fun _ => .pure rfl)
  | submitUnsignedPsbt msg =>
      exact hkept (.bind fun _ => .bind fun _ => .bind fun _ => .bind fun _ => .bind fun _ =>
        .bind fun _ => .bind fun _ => .bind fun _ => .pure rfl)
  | submitSignedPsbt msg =>
      simp only [Bridge.queueCall, Bridge.submitSignedPsbt, bind_eq_ok] at h
      obtain ⟨-, -, unsigned, -, signed, -, r, -, -, -, -, -, combined, -, combined', -, signedPsbts, -,
        h⟩ := h
      split at h <;> exact .kept (pure_eq_ok.mp h ▸ rfl)
  | submitExecutedRequest msg => exact submitExecutedRequest_executed h
  | submitRollbackRequest origin msg =>
      simp only [Bridge.queueCall, Bridge.submitRollbackRequest, bind_eq_ok, ensure_eq_ok, okOr_eq_ok,
        pure_eq_ok, Unique.exists_iff] at h
      obtain ⟨-, -, psbt, -, -, -, -, -, vault, -, refund, -, refund', -, txInfo, -, -, -, systemVault,
        -, systemVault', -, -, t, ht, rfl⟩ := h
      obtain ⟨-, hqueue⟩ := lockIfActivated_same t ht
      have hexecuted : t.queue.executedRequests = s.queue.executedRequests := by rw [hqueue]
      exact .kept hexecuted
  | submitRollbackPoll msg =>
      simp only [Bridge.queueCall, Bridge.submitRollbackPoll, bind_eq_ok, ensure_eq_ok, okOr_eq_ok,
        Unique.exists_iff] at h
      obtain ⟨-, request, -, -, -, votes, -, h⟩ := h
      split_ifs at h <;> exact .kept (pure_eq_ok.mp h ▸ rfl)
  | submitMigrationRequest origin raw =>
      simp only [Bridge.queueCall, Bridge.submitMigrationRequest, bind_eq_ok, ensure_eq_ok,
        Unique.exists_iff] at h
      obtain ⟨-, -, psbt, -, -, -, h⟩ := h
      split at h
      · simp only [bind_eq_ok, ensure_eq_ok, okOr_eq_ok, pure_eq_ok, Unique.exists_iff] at h
        obtain ⟨systemVault, -, address, -, -, rfl⟩ := h
        exact .kept rfl
      · cases h
  | submitBumpFeeRequest origin old raw => exact submitBumpFeeRequest_executed h
  | dropPendingRollbackRequest origin txid =>
      simp only [Bridge.queueCall, Bridge.dropPendingRollbackRequest, bind_eq_ok, ensure_eq_ok,
        okOr_eq_ok, Unique.exists_iff] at h
      obtain ⟨-, -, request, -, -, h⟩ := h
      obtain ⟨-, hqueue⟩ := unlockIfActivated_same s' h
      refine .kept ?_
      rw [hqueue]

/-- **Step lemma.**  Every step changes the executed requests in one of these ways. -/
lemma Bridge.step_executed {i : Bridge.Step AccountId} (h : s.step host i = some s') :
    ExecutedMove s i s' := by
  cases i with
  | pool v i =>
      simp only [Bridge.step, Option.bind_eq_bind, Option.bind_eq_some_iff, Option.pure_def,
        Option.some.injEq] at h
      obtain ⟨k, -, pool, -, rfl⟩ := h
      exact .kept rfl
  | blaze v call =>
      obtain rfl := Option.some.inj h
      exact .kept rfl
  | queue v call =>
      obtain rfl := Option.some.inj h
      exact commit_induction (P := ExecutedMove s (.queue v call)) (.kept rfl) fun t ht =>
        queueCall_executed ht
  | onInitialize v =>
      obtain ⟨plan, -, h⟩ := Option.bind_eq_some_iff.mp h
      have hprepare : (s.prepare v).1.queue = s.queue := by
        simp only [Bridge.prepare]
        split_ifs <;> rfl
      refine .kept ?_
      rw [← hprepare]
      cases plan with
      | build psbt messages selected =>
          simp only [Bridge.execute, Option.bind_eq_bind, Option.bind_eq_some_iff, Option.pure_def,
            Option.some.injEq] at h
          obtain ⟨parsed, -, blaze, -, rfl⟩ := h
          rfl
      | _ =>
          obtain rfl := Option.some.inj h
          rfl
  | replaceAuthority old new =>
      obtain rfl := Option.some.inj h
      exact .kept rfl

end Executed

/-! ## Passages -/

section Passages

variable {host : Host AccountId} {s s' : Bridge AccountId} {i : Bridge.Step AccountId} {t : H256}

omit [LinearOrder AccountId] in
/-- A request is filed under a txid that no request has. -/
lemma Passage.added {txid : H256} {r : PsbtRequest AccountId} (hnew : s.docket.IsNew txid)
    (hp : s'.docket.pending = s.docket.pending.insert txid r)
    (hf : s'.docket.finalized = s.docket.finalized) (he : s'.docket.executed = s.docket.executed) :
    Passage i t (s.docket.find t) (s'.docket.find t) := by
  by_cases ht : t = txid
  · subst ht
    have hget : s'.docket.pending.get t = some r := by rw [hp, StorageMap.get_insert_self]
    rw [hnew.find, Docket.find_of_pending hget]
    exact .enters r
  · have hsame : s'.docket.find t = s.docket.find t := by
      refine Docket.find_congr ?_ (by rw [hf]) (by rw [he])
      rw [hp, StorageMap.get_insert_of_ne _ ht]
    rw [hsame]
    exact .stays _

/-- Nothing but a fee bump takes an executed request away. -/
lemma ExecutedMove.bumps (hm : ExecutedMove s i s') {r : PsbtRequest AccountId}
    (hr : s.docket.executed.get t = some r) (hnone : s'.docket.executed.get t = none) : i.Bumps t := by
  replace hr : s.queue.executedRequests.get t = some r := hr
  replace hnone : s'.queue.executedRequests.get t = none := hnone
  cases hm with
  | kept h =>
      rw [h, hr] at hnone
      cases hnone
  | confirmed v msg r' _ _ h =>
      rw [h, StorageMap.get_insert, hr] at hnone
      split_ifs at hnone
  | bumped old hi h =>
      rw [h, StorageMap.get_remove, hr] at hnone
      split_ifs at hnone with heq
      exact heq ▸ hi

/-- An executed request makes way for another one. -/
lemma Passage.replaced (hs : RollbackInv s) (hm : ExecutedMove s i s') {old new : H256}
    {r r' : PsbtRequest AccountId} (hr : s.docket.executed.get old = some r)
    (hnew : s.docket.IsNew new) (hp : s'.docket.pending = s.docket.pending.insert new r')
    (hf : s'.docket.finalized = s.docket.finalized)
    (he : s'.docket.executed = s.docket.executed.remove old) :
    Passage i t (s.docket.find t) (s'.docket.find t) := by
  obtain ⟨hpend, hfin⟩ := Docket.executed_alone (hs.settled old).length_le hr
  have hne : new ≠ old := by
    rintro rfl
    cases hr.symm.trans hnew.executed
  by_cases hold : t = old
  · subst hold
    have hgone : s'.docket.executed.get t = none := by
      rw [he, StorageMap.get_remove, if_pos rfl]
    have hpend' : s'.docket.pending.get t = none := by
      rw [hp, StorageMap.get_insert_of_ne _ hne.symm, hpend]
    rw [Docket.find_of_executed hpend hfin, hr, Docket.find_of_executed hpend' (hf ▸ hfin), hgone]
    exact .bumped r (hm.bumps hr hgone)
  · by_cases ht : t = new
    · subst ht
      have hget : s'.docket.pending.get t = some r' := by rw [hp, StorageMap.get_insert_self]
      rw [hnew.find, Docket.find_of_pending hget]
      exact .enters r'
    · have hsame : s'.docket.find t = s.docket.find t := by
        refine Docket.find_congr ?_ (by rw [hf]) ?_
        · rw [hp, StorageMap.get_insert_of_ne _ ht]
        · rw [he, StorageMap.get_remove, if_neg hold]
      rw [hsame]
      exact .stays _

/-- **The passage of a step**, if the hook builds nothing that is there already. -/
lemma RollbackInv.passage (hs : RollbackInv s) (hfresh : s.FreshTxid host i)
    (h : s.step host i = some s') (t : H256) : Passage i t (s.docket.find t) (s'.docket.find t) := by
  have hkept : s'.docket.find t = s.docket.find t → Passage i t (s.docket.find t) (s'.docket.find t) := by
    intro heq
    rw [heq]
    exact .stays _
  have hexecuted := Bridge.step_executed h
  cases Bridge.step_docket h with
  | pool _ _ _ _ _ _ heq => exact hkept (by rw [heq])
  | kept _ heq => exact hkept (by rw [heq])
  | built v psbt messages selected hi hplan _ _ heq =>
      exact .added (hfresh v psbt messages selected hi hplan).1 (by rw [heq]) (by rw [heq]) (by rw [heq])
  | added txid r _ hnew _ _ _ heq => exact .added hnew (by rw [heq]) (by rw [heq]) (by rw [heq])
  | migrated txid r _ hnew _ _ heq => exact .added hnew (by rw [heq]) (by rw [heq]) (by rw [heq])
  | signed txid r r' hr hterms _ heq =>
      by_cases ht : t = txid
      · subst ht
        have hget : s'.docket.pending.get t = some r' := by rw [heq, StorageMap.get_insert_self]
        rw [Docket.find_of_pending hr, Docket.find_of_pending hget]
        exact .signed r r' hterms
      · refine hkept (Docket.find_congr ?_ (by rw [heq]) (by rw [heq]))
        rw [heq, StorageMap.get_insert_of_ne _ ht]
  | finalized txid r r' hr hterms _ heq =>
      by_cases ht : t = txid
      · subst ht
        have hpend : s'.docket.pending.get t = none := by
          rw [heq, StorageMap.get_remove, if_pos rfl]
        have hget : s'.docket.finalized.get t = some r' := by rw [heq, StorageMap.get_insert_self]
        rw [Docket.find_of_pending hr, Docket.find_of_finalized hpend hget]
        exact .finalized r r' hterms
      · refine hkept (Docket.find_congr ?_ ?_ (by rw [heq]))
        · rw [heq, StorageMap.get_remove, if_neg ht]
        · rw [heq, StorageMap.get_insert_of_ne _ ht]
  | executed txid r hr _ heq =>
      by_cases ht : t = txid
      · subst ht
        obtain ⟨hpend, -⟩ := Docket.finalized_alone (hs.settled t).length_le hr
        have hpend' : s'.docket.pending.get t = none := by rw [heq, hpend]
        have hfin' : s'.docket.finalized.get t = none := by
          rw [heq, StorageMap.get_remove, if_pos rfl]
        rw [Docket.find_of_finalized hpend hr, Docket.find_of_executed hpend' hfin', heq,
          StorageMap.get_insert_self]
        exact .executed r
      · refine hkept (Docket.find_congr (by rw [heq]) ?_ ?_)
        · rw [heq, StorageMap.get_remove, if_neg ht]
        · rw [heq, StorageMap.get_insert_of_ne _ ht]
  | requested _ _ _ _ _ _ _ _ heq => exact hkept (by rw [heq]; rfl)
  | polled _ _ _ _ _ _ heq => exact hkept (by rw [heq]; rfl)
  | approved v msg rb votes _ hrb happr _ _ heq =>
      have hsettled := hs.settled msg.txid
      rw [hrb] at hsettled
      have hnew := Docket.requestsOf_eq_nil.mp (hsettled.eq_nil happr)
      exact .added hnew (by rw [heq]) (by rw [heq]) (by rw [heq])
  | dropped _ _ _ _ _ _ _ _ _ heq => exact hkept (by rw [heq]; rfl)
  | bumped old new r r' _ hr _ _ hnew _ _ heq =>
      exact .replaced hs hexecuted hr hnew (by rw [heq]) (by rw [heq]) (by rw [heq])
  | remigrated old new r r' _ hr _ _ hnew _ _ heq =>
      exact .replaced hs hexecuted hr hnew (by rw [heq]) (by rw [heq]) (by rw [heq])
  | rebonded old new r rb raw messages _ hr _ _ hnew _ _ _ heq =>
      exact .replaced hs hexecuted hr hnew (by rw [heq]) (by rw [heq]) (by rw [heq])
  | renamed old new _ heq =>
      cases hp : s.docket.pending.get t with
      | none =>
          refine hkept (Docket.find_congr ?_ (by rw [heq]) (by rw [heq]))
          rw [heq, StorageMap.get_mapVals, hp, Option.map_none]
      | some r =>
          have hget : s'.docket.pending.get t = some (r.replaceAuthority old new) := by
            rw [heq, StorageMap.get_mapVals, hp, Option.map_some]
          rw [Docket.find_of_pending hp, Docket.find_of_pending hget]
          exact .signed r _ ⟨rfl, rfl, rfl⟩

/-- Whoever moves a request to the executed ones. -/
lemma ExecutedMove.confirmed_by (hm : ExecutedMove s i s') {r : PsbtRequest AccountId}
    (hnone : s.docket.executed.get t = none) (hr : s'.docket.executed.get t = some r) :
    ∃ v msg, i = .queue v (.submitExecutedRequest msg) ∧ msg.txid = t ∧ Confirmed v s msg := by
  replace hnone : s.queue.executedRequests.get t = none := hnone
  replace hr : s'.queue.executedRequests.get t = some r := hr
  cases hm with
  | kept h =>
      rw [h, hnone] at hr
      cases hr
  | confirmed v msg r' hi hconf h =>
      rw [h, StorageMap.get_insert, hnone] at hr
      split_ifs at hr with heq
      exact ⟨v, msg, hi, heq.symm, hconf⟩
  | bumped old _ h =>
      rw [h, StorageMap.get_remove, hnone] at hr
      split_ifs at hr

omit [LinearOrder AccountId] in
/-- **Passages are one way** for a request that makes way for no other. -/
lemma Passage.onward {x y : Option (Stage × PsbtRequest AccountId)} (h : Passage i t x y)
    (hi : ¬ i.Bumps t) {st : Stage} {r : PsbtRequest AccountId} (hx : x = some (st, r)) :
    ∃ st' r', y = some (st', r') ∧ st.rank ≤ st'.rank ∧ r.SameTerms r' ∧
      (st = .executed → st' = .executed ∧ r' = r) := by
  cases h with
  | stays => exact ⟨st, r, hx, le_rfl, .refl r, fun hst => ⟨hst, rfl⟩⟩
  | enters => cases hx
  | signed r₀ r' hterms =>
      cases hx
      exact ⟨_, _, rfl, le_rfl, hterms, fun hst => by cases hst⟩
  | finalized r₀ r' hterms =>
      cases hx
      exact ⟨_, _, rfl, by decide, hterms, fun hst => by cases hst⟩
  | executed r₀ =>
      cases hx
      exact ⟨_, _, rfl, by decide, .refl r, fun hst => by cases hst⟩
  | bumped r₀ hbump => exact absurd hbump hi

/-- **Run lemma.**  Until it is bumped, a request keeps its terms and never goes back a stage. -/
lemma RollbackInv.onward (hs : RollbackInv s) {st : Stage} {r : PsbtRequest AccountId}
    (hfind : s.docket.find t = some (st, r))
    (h : Reachable (fun u => u = s) (Bridge.step host)
      (fun u j => u.FreshTxid host j ∧ ¬ j.Bumps t) s') :
    ∃ st' r', s'.docket.find t = some (st', r') ∧ st.rank ≤ st'.rank ∧ r.SameTerms r' ∧
      (st = .executed → st' = .executed ∧ r' = r) := by
  have hboth : RollbackInv s' ∧ ∃ st' r', s'.docket.find t = some (st', r') ∧
      st.rank ≤ st'.rank ∧ r.SameTerms r' ∧ (st = .executed → st' = .executed ∧ r' = r) := by
    refine Reachable.invariant (P := fun u => RollbackInv u ∧ ∃ st' r',
      u.docket.find t = some (st', r') ∧ st.rank ≤ st'.rank ∧ r.SameTerms r' ∧
        (st = .executed → st' = .executed ∧ r' = r)) (fun u hu => ?_) (fun u j u' hu hj hstep => ?_) h
    · subst hu
      exact ⟨hs, st, r, hfind, le_rfl, .refl r, fun hst => ⟨hst, rfl⟩⟩
    · obtain ⟨hinv, st₁, r₁, hfind₁, hrank, hterms, hlast⟩ := hu
      have hm := Bridge.step_docket hstep
      obtain ⟨st₂, r₂, hfind₂, hrank₂, hterms₂, hlast₂⟩ :=
        (hinv.passage hj.1 hstep t).onward hj.2 hfind₁
      refine ⟨⟨hinv.settled_move hj.1 hm, hinv.quiet_move hm⟩, st₂, r₂, hfind₂, hrank.trans hrank₂,
        hterms.trans hterms₂, fun hst => ?_⟩
      obtain ⟨hst₁, hr₁⟩ := hlast hst
      obtain ⟨hst₂, hr₂⟩ := hlast₂ hst₁
      exact ⟨hst₂, hr₂.trans hr₁⟩
  exact hboth.2

/-- **The life of a request.**  If the hook only builds transactions with a new txid, every txid has at
most one request in every run.  A step moves it one stage on at most and changes neither its type nor
what it is to sign, and only a fee bump that root asks for takes an executed request away.  Only the
authority or a majority of confirmations lets a request be executed.  So as long as root does not bump
its fee, a request never moves back, and stays as it is once it is executed. -/
theorem requests_lifecycle (h : BridgeIf host (Bridge.FreshTxid host) s) :
    (∀ t, (s.docket.requestsOf t).length ≤ 1) ∧
    (∀ i s' t, s.FreshTxid host i → s.step host i = some s' →
      Passage i t (s.docket.find t) (s'.docket.find t)) ∧
    (∀ i s' t r, s.step host i = some s' → s.docket.executed.get t = none →
      s'.docket.executed.get t = some r →
        ∃ v msg, i = .queue v (.submitExecutedRequest msg) ∧ msg.txid = t ∧ Confirmed v s msg) ∧
    ∀ t st r s', s.docket.find t = some (st, r) →
      Reachable (fun u => u = s) (Bridge.step host)
        (fun u j => u.FreshTxid host j ∧ ¬ j.Bumps t) s' →
      ∃ st' r', s'.docket.find t = some (st', r') ∧ st.rank ≤ st'.rank ∧ r.SameTerms r' ∧
        (st = .executed → st' = .executed ∧ r' = r) := by
  have hinv := h.rollbackInv
  refine ⟨fun t => (hinv.settled t).length_le, fun i s' t hfresh hstep => hinv.passage hfresh hstep t,
    fun i s' t r hstep hnone hr => (Bridge.step_executed hstep).confirmed_by hnone hr,
    fun t st r s' hfind hrun => hinv.onward hfind hrun⟩

end Passages

/-! ## Keys -/

section Keys

variable {host : Host AccountId} {v : View AccountId} {s s' : Bridge AccountId} {d : Docket AccountId}
  {t txid : H256} {raw : Bytes}

/-- The bytes are a PSBT of the transaction. -/
def Spells (host : Host AccountId) (raw : Bytes) (txid : H256) : Prop :=
  ∃ psbt, tryGetCheckedPsbt host raw = .ok psbt ∧ txidOf host psbt = txid

/-- What is stored under a txid is the transaction with this txid. -/
structure Docket.Keyed (host : Host AccountId) (d : Docket AccountId) : Prop where
  pending : d.pending.Every fun t r => Spells host r.unsignedPsbt t
  finalized : d.finalized.Every fun t r => Spells host r.unsignedPsbt t
  executed : d.executed.Every fun t r => Spells host r.unsignedPsbt t
  rollback : d.rollback.Every fun t rb => Spells host rb.unsignedPsbt t

/-- What the hook builds can be read back. -/
def Bridge.ReadsBack (host : Host AccountId) (s : Bridge AccountId) (i : Bridge.Step AccountId) : Prop :=
  ∀ v psbt messages selected, i = .onInitialize v →
    s.plan host v = some (.build psbt messages selected) →
      host.lib.deserialize (host.lib.serialize psbt) = some psbt

omit [LinearOrder AccountId] in
lemma Docket.Keyed.addPending (hd : d.Keyed host) {r : PsbtRequest AccountId}
    (hr : Spells host r.unsignedPsbt t) :
    ({ d with pending := d.pending.insert t r } : Docket AccountId).Keyed host :=
  ⟨hd.pending.insert hr, hd.finalized, hd.executed, hd.rollback⟩

/-- `submit_signed_psbt`. -/
lemma Bridge.submitSignedPsbt_keyed {msg : SignedPsbtMessage AccountId} (hs : s.docket.Keyed host) :
    Returns (fun s' => s'.docket.Keyed host) (s.submitSignedPsbt host v msg) := by
  intro s' h
  simp only [Bridge.submitSignedPsbt, bind_eq_ok, ensure_eq_ok, okOr_eq_ok, Unique.exists_iff] at h
  obtain ⟨-, unsigned, -, signed, -, r, hr, -, -, combined, -, combined', -, signedPsbts, -, h⟩ := h
  have hspells : Spells host r.unsignedPsbt (txidOf host unsigned) := hs.pending _ r hr
  split at h
  · obtain rfl := pure_eq_ok.mp h
    exact ⟨hs.pending.remove _, hs.finalized.insert hspells, hs.executed, hs.rollback⟩
  · obtain rfl := pure_eq_ok.mp h
    exact hs.addPending hspells

/-- `submit_bump_fee_request` files its request under the txid of its PSBT. -/
lemma Bridge.submitBumpFeeRequest_keyed {origin : Origin AccountId} {old : H256}
    (hs : s.docket.Keyed host) :
    Returns (fun s' => s'.docket.Keyed host) (s.submitBumpFeeRequest host origin old raw) := by
  intro s' h
  simp only [Bridge.submitBumpFeeRequest, bind_eq_ok, ensure_eq_ok, okOr_eq_ok, pure_eq_ok,
    Unique.exists_iff] at h
  obtain ⟨-, r, hr, -, -, oldPsbt, -, newPsbt, hnew, -, -, -, -, -, s₁, h₁, s₂, h₂, s₃, h₃, rfl⟩ := h
  have hspells : Spells host raw (txidOf host newPsbt) := ⟨newPsbt, hnew, rfl⟩
  have hbumped : s₁.docket.Keyed host := by
    rw [Bridge.bumpRecords] at h₁
    split at h₁
    · simp only [bind_eq_ok, pure_eq_ok] at h₁
      obtain ⟨messages, -, rfl⟩ := h₁
      exact hs
    · obtain rfl := pure_eq_ok.mp h₁
      exact hs
    · simp only [bind_eq_ok, okOr_eq_ok, pure_eq_ok] at h₁
      obtain ⟨rb, hrb, rfl⟩ := h₁
      exact ⟨hs.pending, hs.finalized, hs.executed, (hs.rollback.remove old).insert hspells⟩
  obtain ⟨-, hq₂⟩ := unlockIfActivated_same s₂ h₂
  obtain ⟨-, hq₃⟩ := lockIfActivated_same s₃ h₃
  have hdocket : s₃.docket = { s₁.docket with executed := s₁.docket.executed.remove old } := by
    simp only [Bridge.docket, hq₃, hq₂]
    rfl
  have hremoved : s₃.docket.Keyed host := by
    rw [hdocket]
    exact ⟨hbumped.pending, hbumped.finalized, hbumped.executed.remove old, hbumped.rollback⟩
  exact hremoved.addPending hspells

/-- The calls of the socket queue store a PSBT under the txid of its transaction. -/
lemma Bridge.queueCall_keyed {call : Queue.Call AccountId} (hs : s.docket.Keyed host) :
    Returns (fun s' => s'.docket.Keyed host) (s.queueCall host v call) := by
  cases call with
  | setAuthority origin new => exact .bind fun _ => .bind fun _ => .pure hs
  | setSocket origin new isBitcoin =>
      exact .bind fun _ => .ite (.bind fun _ => .pure hs) (.bind fun _ => .pure hs)
  | setMaxFeeRate origin new => exact .bind fun _ => .bind fun _ => .bind fun _ => .pure hs
  | setMaxSocketMessageBytes origin new => exact .bind fun _ => .bind fun _ => .pure hs
  | submitUnsignedPsbt msg =>
      intro s' h
      simp only [Bridge.queueCall, Bridge.submitUnsignedPsbt, bind_eq_ok, ensure_eq_ok, pure_eq_ok,
        Unique.exists_iff] at h
      obtain ⟨-, -, -, psbt, hpsbt, -, -, -, verified, -, rfl⟩ := h
      have hspells : Spells host msg.psbt (txidOf host psbt) := ⟨psbt, hpsbt, rfl⟩
      exact hs.addPending hspells
  | submitSignedPsbt msg => exact submitSignedPsbt_keyed hs
  | submitExecutedRequest msg =>
      intro s' h
      simp only [Bridge.queueCall, Bridge.submitExecutedRequest, bind_eq_ok, ensure_eq_ok, okOr_eq_ok,
        Unique.exists_iff, Prod.exists] at h
      obtain ⟨-, r, hr, confirmations, shouldExecute, -, h⟩ := h
      by_cases hexec : shouldExecute = true
      · rw [if_pos hexec] at h
        obtain rfl := pure_eq_ok.mp h
        exact ⟨hs.pending, hs.finalized.remove _, hs.executed.insert (hs.finalized _ r hr), hs.rollback⟩
      · rw [if_neg hexec] at h
        obtain rfl := pure_eq_ok.mp h
        exact hs
  | submitRollbackRequest origin msg =>
      intro s' h
      simp only [Bridge.queueCall, Bridge.submitRollbackRequest, bind_eq_ok, ensure_eq_ok, okOr_eq_ok,
        pure_eq_ok, Unique.exists_iff] at h
      obtain ⟨-, -, psbt, hpsbt, -, -, -, -, vault, -, refund, -, refund', -, txInfo, -, -, -,
        systemVault, -, systemVault', -, -, u, hu, rfl⟩ := h
      obtain ⟨-, hqueue⟩ := lockIfActivated_same u hu
      have hu : u.docket.Keyed host := by
        rw [Bridge.docket, hqueue]
        exact hs
      exact ⟨hu.pending, hu.finalized, hu.executed, hu.rollback.insert ⟨psbt, hpsbt, rfl⟩⟩
  | submitRollbackPoll msg =>
      intro s' h
      simp only [Bridge.queueCall, Bridge.submitRollbackPoll, bind_eq_ok, ensure_eq_ok, okOr_eq_ok,
        Unique.exists_iff] at h
      obtain ⟨-, rb, hrb, -, -, votes, -, h⟩ := h
      have hspells : Spells host rb.unsignedPsbt msg.txid := hs.rollback _ rb hrb
      split_ifs at h
      · obtain rfl := pure_eq_ok.mp h
        exact ⟨hs.pending.insert hspells, hs.finalized, hs.executed, hs.rollback.insert hspells⟩
      · obtain rfl := pure_eq_ok.mp h
        exact ⟨hs.pending, hs.finalized, hs.executed, hs.rollback.insert hspells⟩
  | submitMigrationRequest origin raw =>
      intro s' h
      simp only [Bridge.queueCall, Bridge.submitMigrationRequest, bind_eq_ok, ensure_eq_ok,
        Unique.exists_iff] at h
      obtain ⟨-, -, psbt, hpsbt, -, -, h⟩ := h
      split at h
      · simp only [bind_eq_ok, ensure_eq_ok, okOr_eq_ok, pure_eq_ok, Unique.exists_iff] at h
        obtain ⟨systemVault, -, address, -, -, rfl⟩ := h
        have hspells : Spells host raw (txidOf host psbt) := ⟨psbt, hpsbt, rfl⟩
        exact hs.addPending hspells
      · cases h
  | submitBumpFeeRequest origin old raw => exact submitBumpFeeRequest_keyed hs
  | dropPendingRollbackRequest origin txid =>
      intro s' h
      simp only [Bridge.queueCall, Bridge.dropPendingRollbackRequest, bind_eq_ok, ensure_eq_ok,
        okOr_eq_ok, Unique.exists_iff] at h
      obtain ⟨-, -, request, -, -, h⟩ := h
      obtain ⟨-, hqueue⟩ := unlockIfActivated_same s' h
      have hremoved : ({ s.docket with rollback := s.docket.rollback.remove txid } :
          Docket AccountId).Keyed host :=
        ⟨hs.pending, hs.finalized, hs.executed, hs.rollback.remove txid⟩
      rw [Bridge.docket, hqueue]
      exact hremoved

/-- **Step lemma.**  If the hook builds what can be read back, every step keeps the docket keyed. -/
lemma Docket.Keyed.step {i : Bridge.Step AccountId} (hs : s.docket.Keyed host)
    (hreads : s.ReadsBack host i) (h : s.step host i = some s') : s'.docket.Keyed host := by
  cases i with
  | pool v i =>
      simp only [Bridge.step, Option.bind_eq_bind, Option.bind_eq_some_iff, Option.pure_def,
        Option.some.injEq] at h
      obtain ⟨k, -, pool, -, rfl⟩ := h
      exact hs
  | blaze v call =>
      obtain rfl := Option.some.inj h
      exact hs
  | queue v call =>
      obtain rfl := Option.some.inj h
      exact commit_induction (P := fun u : Bridge AccountId => u.docket.Keyed host) hs
        (Bridge.queueCall_keyed hs)
  | onInitialize v =>
      obtain ⟨plan, hplan, h⟩ := Option.bind_eq_some_iff.mp h
      obtain ⟨-, hprepare⟩ := s.prepare_same (v := v)
      have hprepared : (s.prepare v).1.docket.Keyed host := hprepare ▸ hs
      cases plan with
      | build psbt messages selected =>
          simp only [Bridge.execute, Option.bind_eq_bind, Option.bind_eq_some_iff, Option.pure_def,
            Option.some.injEq] at h
          obtain ⟨parsed, -, blaze, -, rfl⟩ := h
          have hspells : Spells host (host.lib.serialize psbt) (txidOf host psbt) :=
            ⟨psbt, okOr_eq_ok.mpr (hreads v psbt messages selected rfl hplan), rfl⟩
          exact hprepared.addPending hspells
      | _ =>
          obtain rfl := Option.some.inj h
          exact hprepared
  | replaceAuthority old new =>
      obtain rfl := Option.some.inj h
      refine ⟨StorageMap.every_mapVals.mpr hs.pending, hs.finalized, hs.executed,
        StorageMap.every_mapVals.mpr fun t rb hrb => ?_⟩
      have hspells : Spells host rb.unsignedPsbt t := hs.rollback t rb hrb
      show Spells host (if rb.isApproved then rb else rb.replaceAuthority old new).unsignedPsbt t
      split_ifs
      · exact hspells
      · exact hspells

/-- **Keys are txids**, if what the hook builds can be read back: in every run, what a request or a
rollback request has signed is a PSBT of the transaction with the txid that it is stored under.  So no
PSBT is stored under two of them. -/
theorem requests_keyed (h : BridgeIf host (Bridge.ReadsBack host) s) :
    (∀ t, ∀ r ∈ s.docket.requestsOf t, Spells host r.unsignedPsbt t) ∧
    (∀ t rb, s.docket.rollback.get t = some rb → Spells host rb.unsignedPsbt t) ∧
    ∀ t t' r r', r ∈ s.docket.requestsOf t → r' ∈ s.docket.requestsOf t' →
      r.unsignedPsbt = r'.unsignedPsbt → t = t' := by
  have hkeyed : s.docket.Keyed host := by
    refine Reachable.invariant (P := fun u => u.docket.Keyed host) (fun u hu => ?_)
      (fun u i u' hu hreads hstep => hu.step hreads hstep) h
    obtain ⟨members, authority, rfl⟩ := hu
    exact ⟨.empty, .empty, .empty, .empty⟩
  have hspells : ∀ t, ∀ r ∈ s.docket.requestsOf t, Spells host r.unsignedPsbt t := by
    intro t r hr
    simp only [Docket.requestsOf, List.mem_append, Option.mem_toList] at hr
    rcases hr with hr | hr | hr
    · exact hkeyed.pending t r hr
    · exact hkeyed.finalized t r hr
    · exact hkeyed.executed t r hr
  refine ⟨hspells, hkeyed.rollback, fun t t' r r' hr hr' heq => ?_⟩
  obtain ⟨psbt, hpsbt, ht⟩ := hspells t r hr
  obtain ⟨psbt', hpsbt', ht'⟩ := hspells t' r' hr'
  rw [heq, hpsbt'] at hpsbt
  obtain rfl := Except.ok.inj hpsbt
  exact ht.symm.trans ht'

end Keys

/-! ## A small run -/

section Small

/-- The request of the small bridge is approved. -/
def journeyStart : List (Bridge.Step ℕ) :=
  smallStart ++ [.queue smallView (.submitRollbackPoll ⟨1, 1990, true⟩),
    .queue smallView (.submitRollbackPoll ⟨2, 1990, true⟩)]

/-- It is signed and broadcast. -/
def journeyEnd : List (Bridge.Step ℕ) :=
  [.queue smallView (.submitSignedPsbt ⟨1, [1, 10], [1, 10, 1]⟩),
    .queue smallView (.submitExecutedRequest ⟨9, 1990⟩)]

/-- The request goes all the way. -/
theorem requests_lifecycle_small : ∃ (s s' : Bridge ℕ) (r : PsbtRequest ℕ) (st' : Stage)
    (r' : PsbtRequest ℕ),
    BridgeIf smallHost (Bridge.FreshTxid smallHost) s ∧
    s.docket.find 1990 = some (.pending, r) ∧ s'.docket.find 1990 = some (st', r') ∧
    s'.queue.executedRequests.contains 1990 = true ∧ r.SameTerms r' := by
  have hrun := smallRun_exists smallHost (Bridge.FreshTxid smallHost) journeyStart
    (by simp [journeyStart, smallStart, Bridge.FreshTxid])
    (P := fun s => (s.docket.find 1990).any (fun x => decide (x.1 = .pending)) &&
      (runSteps (Bridge.step smallHost) s journeyEnd).any fun s' =>
        s'.queue.executedRequests.contains 1990) (by decide +kernel)
  obtain ⟨s, hs, hP⟩ := hrun
  rw [Bool.and_eq_true] at hP
  obtain ⟨⟨st, r⟩, hfind, hst⟩ := (Option.any_eq_true _ _).mp hP.1
  obtain rfl : st = .pending := of_decide_eq_true hst
  obtain ⟨s', hs', hexecuted⟩ := (Option.any_eq_true _ _).mp hP.2
  have hreach : Reachable (fun u => u = s) (Bridge.step smallHost)
      (fun u j => u.FreshTxid smallHost j ∧ ¬ j.Bumps 1990) s' := by
    refine Reachable.runSteps_of (.init rfl) (fun i hi u => ?_) hs'
    simp only [journeyEnd, List.mem_cons, List.not_mem_nil, or_false] at hi
    rcases hi with rfl | rfl
    · simp [Bridge.FreshTxid, Bridge.Step.Bumps]
    · simp [Bridge.FreshTxid, Bridge.Step.Bumps]
  obtain ⟨st', r', hfind', -, hterms, -⟩ :=
    (requests_lifecycle hs).2.2.2 1990 .pending r s' hfind hreach
  exact ⟨s, s', r, st', r', hs, hfind, hfind', hexecuted, hterms⟩

/-- The txid of the request is that of its PSBT. -/
theorem requests_keyed_small : ∃ s : Bridge ℕ, BridgeIf smallHost (Bridge.ReadsBack smallHost) s ∧
    ∃ r ∈ s.docket.requestsOf 1990, r.unsignedPsbt = [1, 10] ∧
      Spells smallHost r.unsignedPsbt 1990 := by
  have hrun := smallRun_exists smallHost (Bridge.ReadsBack smallHost) journeyStart
    (by simp [journeyStart, smallStart, Bridge.ReadsBack])
    (P := fun s => (s.queue.pendingRequests.get 1990).any fun r => decide (r.unsignedPsbt = [1, 10]))
    (by decide +kernel)
  obtain ⟨s, hs, hP⟩ := hrun
  obtain ⟨r, hr, hraw⟩ := (Option.any_eq_true _ _).mp hP
  have hmem : r ∈ s.docket.requestsOf 1990 := List.mem_append_left _ (Option.mem_toList.mpr hr)
  exact ⟨s, hs, r, hmem, of_decide_eq_true hraw, (requests_keyed hs).1 1990 r hmem⟩

end Small

end BifrostNode.Btc
