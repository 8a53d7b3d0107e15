import BifrostNode.Btc.Phases
import BifrostNode.Lib.Pairing

/-!
# Rollback requests

A rollback request waits in `RollbackRequests` until a majority of the relayers votes for it.  From then
on it is a request like others, while its record stays behind for fee bumps.

**Approval.**  Under every txid there is at most one request, and it is a rollback just if there is an
approved record (`Settled`).  During a migration there is nothing left to approve, so that a migration
request cannot take the txid of a rollback that is still to be approved.

**Bonds.**  `BondedRollbackOutputs` is the index of the records by the output that they give back.  It
is one until a pending request is dropped, since the drop does not clear it.
-/

namespace BifrostNode.Btc

open Cccp Staking Transition Pool Queue

variable {AccountId : Type}

/-- The requests under a txid. -/
def Docket.requestsOf (d : Docket AccountId) (txid : H256) : List (PsbtRequest AccountId) :=
  (d.pending.get txid).toList ++ ((d.finalized.get txid).toList ++ (d.executed.get txid).toList)

/-- The requests under a txid agree with its record. -/
def Settled : List (PsbtRequest AccountId) → Option (RollbackRequest AccountId) → Prop
  | rs, none => rs.length ≤ 1 ∧ ∀ r ∈ rs, r.requestType ≠ .rollback
  | rs, some rb =>
      if rb.isApproved then
        ∃ r, rs = [r] ∧ r.requestType = .rollback ∧ r.unsignedPsbt = rb.unsignedPsbt
      else rs = []

/-- **The invariant of approvals**: requests agree with the records, and a migration finds none unapproved. -/
structure RollbackInv (s : Bridge AccountId) : Prop where
  settled : ∀ t, Settled (s.docket.requestsOf t) (s.docket.rollback.get t)
  quiet : s.pool.serviceState ≠ .normal → ∀ t rb, s.docket.rollback.get t = some rb →
    rb.isApproved = true

section Settled

variable {d : Docket AccountId} {t : H256} {rs : List (PsbtRequest AccountId)}
  {record : Option (RollbackRequest AccountId)} {r r' : PsbtRequest AccountId}

lemma Docket.requestsOf_eq_nil : d.requestsOf t = [] ↔ d.IsNew t := by
  simp only [Docket.requestsOf, List.append_eq_nil_iff, Option.toList_eq_nil_iff]
  constructor
  · rintro ⟨hp, hf, he⟩
    exact ⟨hp, hf, he⟩
  · rintro ⟨hp, hf, he⟩
    exact ⟨hp, hf, he⟩

lemma Settled.length_le (h : Settled rs record) : rs.length ≤ 1 := by
  cases record with
  | none => exact h.1
  | some rb =>
      simp only [Settled] at h
      split_ifs at h
      · obtain ⟨r, rfl, -⟩ := h
        simp
      · simp [h]

/-- What is settled about a request and about a record. -/
def Queue.PsbtRequest.terms (r : PsbtRequest AccountId) : RequestType × Bytes :=
  (r.requestType, r.unsignedPsbt)

def Queue.RollbackRequest.terms (rb : RollbackRequest AccountId) : Bool × Bytes :=
  (rb.isApproved, rb.unsignedPsbt)

/-- Nothing else matters. -/
lemma Settled.congr {rs' : List (PsbtRequest AccountId)}
    {record' : Option (RollbackRequest AccountId)} (h : Settled rs record)
    (hrs : rs'.map PsbtRequest.terms = rs.map PsbtRequest.terms)
    (hrec : record'.map RollbackRequest.terms = record.map RollbackRequest.terms) :
    Settled rs' record' := by
  cases record with
  | none =>
      obtain rfl : record' = none := by simpa using hrec
      refine ⟨?_, fun q hq => ?_⟩
      · have hlength := congrArg List.length hrs
        rw [List.length_map, List.length_map] at hlength
        exact hlength ▸ h.1
      · have hmem : q.terms ∈ rs.map PsbtRequest.terms := hrs ▸ List.mem_map_of_mem hq
        obtain ⟨r, hr, heq⟩ := List.mem_map.mp hmem
        have htype : r.requestType = q.requestType := congrArg Prod.fst heq
        exact htype ▸ h.2 r hr
  | some rb =>
      obtain ⟨rb', rfl, hterms⟩ := Option.map_eq_some_iff.mp hrec
      have happr : rb'.isApproved = rb.isApproved := congrArg Prod.fst hterms
      have hpsbt : rb'.unsignedPsbt = rb.unsignedPsbt := congrArg Prod.snd hterms
      simp only [Settled, happr] at h ⊢
      split_ifs at h ⊢
      · obtain ⟨r, rfl, htype, hr⟩ := h
        obtain ⟨r', rfl, heq⟩ := List.map_eq_singleton_iff.mp hrs
        have htype' : r'.requestType = r.requestType := congrArg Prod.fst heq
        have hpsbt' : r'.unsignedPsbt = r.unsignedPsbt := congrArg Prod.snd heq
        exact ⟨r', rfl, htype'.trans htype, by rw [hpsbt', hr, hpsbt]⟩
      · subst h
        simpa using hrs

/-- Signing does not unsettle anything. -/
lemma Settled.sign (h : Settled [r] record) (hsame : r.SameTerms r') : Settled [r'] record := by
  refine h.congr ?_ rfl
  simp [PsbtRequest.terms, hsame.requestType, hsame.unsignedPsbt]

/-- A request of another type has no record. -/
lemma Settled.record_none (h : Settled [r] record) (htype : r.requestType ≠ .rollback) :
    record = none := by
  cases record with
  | none => rfl
  | some rb =>
      simp only [Settled] at h
      split_ifs at h
      obtain ⟨q, hq, hroll, -⟩ := h
      obtain rfl := List.singleton_injective hq
      exact absurd hroll htype

/-- A record without a request is not approved. -/
lemma Settled.pending {rb : RollbackRequest AccountId} (h : Settled [] (some rb)) :
    rb.isApproved = false := by
  simp only [Settled] at h
  split_ifs at h with happr
  · simp at h
  · simpa using happr

/-- A record that is not approved has no request. -/
lemma Settled.eq_nil {rb : RollbackRequest AccountId} (h : Settled rs (some rb))
    (happr : rb.isApproved = false) : rs = [] := by
  simpa [Settled, happr] using h

lemma Docket.pending_alone (h : (d.requestsOf t).length ≤ 1) (hr : d.pending.get t = some r) :
    d.finalized.get t = none ∧ d.executed.get t = none := by
  simp only [Docket.requestsOf, hr, Option.toList_some, List.length_append, List.length_singleton] at h
  cases hf : d.finalized.get t <;> cases he : d.executed.get t <;> simp [hf, he] at h ⊢

lemma Docket.finalized_alone (h : (d.requestsOf t).length ≤ 1) (hr : d.finalized.get t = some r) :
    d.pending.get t = none ∧ d.executed.get t = none := by
  simp only [Docket.requestsOf, hr, Option.toList_some, List.length_append, List.length_singleton] at h
  cases hp : d.pending.get t <;> cases he : d.executed.get t <;> simp [hp, he] at h ⊢

lemma Docket.executed_alone (h : (d.requestsOf t).length ≤ 1) (hr : d.executed.get t = some r) :
    d.pending.get t = none ∧ d.finalized.get t = none := by
  simp only [Docket.requestsOf, hr, Option.toList_some, List.length_append, List.length_singleton] at h
  cases hp : d.pending.get t <;> cases hf : d.finalized.get t <;> simp [hp, hf] at h ⊢

end Settled

section Approval

variable [LinearOrder AccountId] {host : Host AccountId} {s s' : Bridge AccountId}
  {i : Bridge.Step AccountId}

/-- The txid of a transaction that the hook builds differs from every txid that is stored. -/
def Bridge.FreshTxid (host : Host AccountId) (s : Bridge AccountId) (i : Bridge.Step AccountId) :
    Prop :=
  ∀ v psbt messages selected, i = .onInitialize v →
    s.plan host v = some (.build psbt messages selected) →
      s.docket.IsNew (txidOf host psbt) ∧ s.docket.rollback.get (txidOf host psbt) = none

/-- The transaction of the plan. -/
def Plan.psbt : Plan → Option Psbt
  | .build psbt _ _ => some psbt
  | .idle | .fail => none

/-- The transaction that a step of the hook builds, and what it sees. -/
def Bridge.built (host : Host AccountId) (s : Bridge AccountId) :
    Bridge.Step AccountId → Option (View AccountId × Psbt)
  | .onInitialize v => ((s.plan host v).bind Plan.psbt).map (v, ·)
  | _ => none

lemma Bridge.forall_built {host : Host AccountId} {s : Bridge AccountId} {i : Bridge.Step AccountId}
    {P : View AccountId → Psbt → Prop} : (∀ x ∈ s.built host i, P x.1 x.2) ↔
      ∀ v psbt messages selected, i = .onInitialize v →
        s.plan host v = some (.build psbt messages selected) → P v psbt := by
  constructor
  · rintro h v psbt messages selected rfl hplan
    refine h (v, psbt) ?_
    rw [built, hplan]
    rfl
  · intro h x hx
    cases i with
    | onInitialize v =>
        obtain ⟨psbt, hpsbt, rfl⟩ := Option.map_eq_some_iff.mp hx
        obtain ⟨plan, hplan, hbuild⟩ := Option.bind_eq_some_iff.mp hpsbt
        cases plan with
        | build psbt' messages selected =>
            obtain rfl := Option.some.inj hbuild
            exact h v psbt' messages selected rfl hplan
        | _ => cases hbuild
    | _ => cases hx

instance (host : Host AccountId) (s : Bridge AccountId) (i : Bridge.Step AccountId) :
    Decidable (s.FreshTxid host i) :=
  decidable_of_iff (∀ x ∈ s.built host i, s.docket.IsNew (txidOf host x.2) ∧
    s.docket.rollback.get (txidOf host x.2) = none)
    (Bridge.forall_built (P := fun _ psbt => s.docket.IsNew (txidOf host psbt) ∧
      s.docket.rollback.get (txidOf host psbt) = none))

omit [LinearOrder AccountId] in
/-- A new request with a txid that nothing has. -/
lemma RollbackInv.settled_added (hs : RollbackInv s) {txid : H256} {r : PsbtRequest AccountId}
    (hnew : s.docket.IsNew txid) (hroll : s.docket.rollback.get txid = none)
    (htype : r.requestType ≠ .rollback)
    (h : s'.docket = { s.docket with pending := s.docket.pending.insert txid r }) (t : H256) :
    Settled (s'.docket.requestsOf t) (s'.docket.rollback.get t) := by
  rw [h]
  by_cases ht : t = txid
  · subst ht
    simp [Docket.requestsOf, hnew.finalized, hnew.executed, hroll, Settled, htype]
  · simpa [Docket.requestsOf, ht] using hs.settled t

omit [LinearOrder AccountId] in
/-- A request that is replaced by another one, under another txid. -/
lemma RollbackInv.settled_replaced (hs : RollbackInv s) {old new : H256}
    {r r' : PsbtRequest AccountId} (hr : s.docket.executed.get old = some r)
    (htype : r.requestType ≠ .rollback) (htype' : r'.requestType ≠ .rollback)
    (hnew : s.docket.IsNew new) (hroll : s.docket.rollback.get new = none)
    (h : s'.docket = { s.docket with
      executed := s.docket.executed.remove old
      pending := s.docket.pending.insert new r' }) (t : H256) :
    Settled (s'.docket.requestsOf t) (s'.docket.rollback.get t) := by
  have hne : new ≠ old := by
    rintro rfl
    rw [hnew.executed] at hr
    cases hr
  have hold := hs.settled old
  obtain ⟨hp, hf⟩ := Docket.executed_alone hold.length_le hr
  have hnone : s.docket.rollback.get old = none := by
    refine Settled.record_none (r := r) ?_ htype
    simpa [Docket.requestsOf, hp, hf, hr] using hold
  rw [h]
  by_cases ht : t = new
  · subst ht
    simp [Docket.requestsOf, hnew.finalized, hnew.executed, hne, hroll, Settled, htype']
  · by_cases ht' : t = old
    · subst ht'
      simp [Docket.requestsOf, hp, hf, ht, hnone, Settled]
    · simpa [Docket.requestsOf, ht, ht'] using hs.settled t

/-- A step keeps requests and records in agreement. -/
lemma RollbackInv.settled_move (hs : RollbackInv s) (hfresh : s.FreshTxid host i)
    (hm : DocketMove host s i s') (t : H256) :
    Settled (s'.docket.requestsOf t) (s'.docket.rollback.get t) := by
  cases hm with
  | pool v j k hi hseen hstep h => exact h ▸ hs.settled t
  | kept hp h => exact h ▸ hs.settled t
  | built v psbt messages selected hi hplan hnormal hp h =>
      obtain ⟨hnew, hroll⟩ := hfresh v psbt messages selected hi hplan
      exact hs.settled_added hnew hroll (by simp [PsbtRequest.new]) h t
  | added txid r hnormal hnew htype hroll hp h =>
      exact hs.settled_added hnew hroll (by simp [htype]) h t
  | migrated txid r htransfer hnew htype hp h =>
      -- a record would be approved by now, and then there would be a request
      have hroll : s.docket.rollback.get txid = none := by
        cases hrb : s.docket.rollback.get txid with
        | none => rfl
        | some rb =>
            have happr := hs.quiet (by simp [htransfer]) txid rb hrb
            have hsettled := hs.settled txid
            rw [Docket.requestsOf_eq_nil.mpr hnew, hrb] at hsettled
            simp [hsettled.pending] at happr
      exact hs.settled_added hnew hroll (by simp [htype]) h t
  | signed txid r r' hr hsame hp h =>
      have hold := hs.settled txid
      obtain ⟨hf, he⟩ := Docket.pending_alone hold.length_le hr
      rw [h]
      by_cases ht : t = txid
      · subst ht
        have hone : Settled [r] (s.docket.rollback.get t) := by
          simpa [Docket.requestsOf, hr, hf, he] using hold
        simpa [Docket.requestsOf, hf, he] using hone.sign hsame
      · simpa [Docket.requestsOf, ht] using hs.settled t
  | finalized txid r r' hr hsame hp h =>
      have hold := hs.settled txid
      obtain ⟨hf, he⟩ := Docket.pending_alone hold.length_le hr
      rw [h]
      by_cases ht : t = txid
      · subst ht
        have hone : Settled [r] (s.docket.rollback.get t) := by
          simpa [Docket.requestsOf, hr, hf, he] using hold
        simpa [Docket.requestsOf, he] using hone.sign hsame
      · simpa [Docket.requestsOf, ht] using hs.settled t
  | executed txid r hr hp h =>
      have hold := hs.settled txid
      obtain ⟨hpend, he⟩ := Docket.finalized_alone hold.length_le hr
      rw [h]
      by_cases ht : t = txid
      · subst ht
        have hone : Settled [r] (s.docket.rollback.get t) := by
          simpa [Docket.requestsOf, hr, hpend, he] using hold
        simpa [Docket.requestsOf, hpend] using hone
      · simpa [Docket.requestsOf, ht] using hs.settled t
  | requested txid rb hnormal hnew hroll hbond happr hp h =>
      rw [h]
      by_cases ht : t = txid
      · subst ht
        simp [Docket.requestsOf, hnew.pending, hnew.finalized, hnew.executed, Settled, happr]
      · simpa [Docket.requestsOf, ht] using hs.settled t
  | polled txid rb votes hrb happr hp h =>
      rw [h]
      by_cases ht : t = txid
      · subst ht
        have hold := hs.settled t
        rw [hrb] at hold
        have hnew := Docket.requestsOf_eq_nil.mp (hold.eq_nil happr)
        simp [Docket.requestsOf, hnew.pending, hnew.finalized, hnew.executed, Settled, happr]
      · simpa [Docket.requestsOf, ht] using hs.settled t
  | approved v msg rb votes hi hrb happr hmaj hp h =>
      rw [h]
      by_cases ht : t = msg.txid
      · subst ht
        have hold := hs.settled msg.txid
        rw [hrb] at hold
        have hnew := Docket.requestsOf_eq_nil.mp (hold.eq_nil happr)
        simp [Docket.requestsOf, hnew.finalized, hnew.executed, Settled, PsbtRequest.new]
      · simpa [Docket.requestsOf, ht] using hs.settled t
  | dropped v txid rb hi hnormal hrb happr hunlock hp h =>
      rw [h]
      by_cases ht : t = txid
      · subst ht
        have hold := hs.settled t
        rw [hrb] at hold
        have hnew := Docket.requestsOf_eq_nil.mp (hold.eq_nil happr)
        simp [Docket.requestsOf, hnew.pending, hnew.finalized, hnew.executed, Settled]
      · simpa [Docket.requestsOf, ht] using hs.settled t
  | bumped old new r r' hnormal hr htype htype' hnew hroll hp h =>
      exact hs.settled_replaced hr (by simp [htype]) (by simp [htype']) hnew hroll h t
  | remigrated old new r r' htransfer hr htype htype' hnew hroll hp h =>
      exact hs.settled_replaced hr (by simp [htype]) (by simp [htype']) hnew hroll h t
  | rebonded old new r rb raw messages hnormal hr htype hne hnew hroll hrb hp h =>
      have hold := hs.settled old
      obtain ⟨hpend, hf⟩ := Docket.executed_alone hold.length_le hr
      have happr : rb.isApproved = true := by
        by_contra hnot
        rw [hrb] at hold
        have hgone := hold.eq_nil (by simpa using hnot)
        simp [Docket.requestsOf, hr] at hgone
      rw [h]
      by_cases ht : t = new
      · subst ht
        simp [Docket.requestsOf, hnew.finalized, hnew.executed, hne, Settled, happr,
          PsbtRequest.new]
      · by_cases ht' : t = old
        · subst ht'
          simp [Docket.requestsOf, hpend, hf, ht, Settled]
        · simpa [Docket.requestsOf, ht, ht'] using hs.settled t
  | renamed old new hp h =>
      rw [h]
      refine (hs.settled t).congr ?_ ?_
      · cases hpend : s.docket.pending.get t with
        | none => simp [Docket.requestsOf, hpend]
        | some r =>
            simp [Docket.requestsOf, hpend, PsbtRequest.terms, PsbtRequest.replaceAuthority]
      · cases hrb : s.docket.rollback.get t with
        | none => simp [hrb]
        | some rb =>
            simp only [StorageMap.get_mapVals, hrb, Option.map_some]
            split_ifs <;> rfl

/-- Nothing is left to approve during a migration. -/
lemma RollbackInv.quiet_move (hs : RollbackInv s) (hm : DocketMove host s i s')
    (hstate : s'.pool.serviceState ≠ .normal) (t : H256) (rb : RollbackRequest AccountId)
    (hget : s'.docket.rollback.get t = some rb) : rb.isApproved = true := by
  rcases hm.serviceState with hsame | ⟨hdocket, hready⟩
  · rw [hsame] at hstate
    have hquiet := hs.quiet hstate
    cases hm with
    | pool v j k hi hseen hstep h => exact hquiet t rb (by rwa [h] at hget)
    | kept hp h => exact hquiet t rb (by rwa [h] at hget)
    | built v psbt messages selected hi hplan hnormal hp h => exact absurd hnormal hstate
    | added txid r hnormal hnew htype hroll hp h => exact absurd hnormal hstate
    | migrated txid r htransfer hnew htype hp h => exact hquiet t rb (by rwa [h] at hget)
    | signed txid r r' hr hsame hp h => exact hquiet t rb (by rwa [h] at hget)
    | finalized txid r r' hr hsame hp h => exact hquiet t rb (by rwa [h] at hget)
    | executed txid r hr hp h => exact hquiet t rb (by rwa [h] at hget)
    | requested txid rb' hnormal hnew hroll hbond happr hp h => exact absurd hnormal hstate
    | polled txid rb' votes hrb happr hp h => simp [hquiet txid rb' hrb] at happr
    | approved v msg rb' votes hi hrb happr hmaj hp h => simp [hquiet msg.txid rb' hrb] at happr
    | dropped v txid rb' hi hnormal hrb happr hunlock hp h => exact absurd hnormal hstate
    | bumped old new r r' hnormal hr htype htype' hnew hroll hp h => exact absurd hnormal hstate
    | remigrated old new r r' htransfer hr htype htype' hnew hroll hp h =>
        exact hquiet t rb (by rwa [h] at hget)
    | rebonded old new r rb' raw messages hnormal hr htype hne hnew hroll hrb hp h =>
        exact absurd hnormal hstate
    | renamed old new hp h =>
        rw [h] at hget
        obtain ⟨rb', hrb', rfl⟩ := Option.map_eq_some_iff.mp hget
        have happr := hquiet t rb' hrb'
        rw [if_pos happr]
        exact happr
  · rw [hdocket] at hget
    by_cases hnormal : s.pool.serviceState = .normal
    · have hall := hready hnormal
      simp only [SocketQueue.isReadyForMigrate, Bool.and_eq_true, List.all_eq_true] at hall
      exact hall.2 (t, rb) (StorageMap.mem_toList.mpr hget)
    · exact hs.quiet hnormal t rb hget

/-- **Run lemma.**  The invariant of approvals holds in every run with fresh txids. -/
lemma BridgeIf.rollbackInv (h : BridgeIf host (Bridge.FreshTxid host) s) : RollbackInv s := by
  refine Reachable.invariant ?_ ?_ h
  · rintro s ⟨members, authority, rfl⟩
    exact ⟨fun t => ⟨by simp [Docket.requestsOf, Bridge.docket, SocketQueue.docket, Bridge.genesis,
      SocketQueue.genesis], by simp [Docket.requestsOf, Bridge.docket, SocketQueue.docket,
      Bridge.genesis, SocketQueue.genesis]⟩, fun hstate => absurd rfl hstate⟩
  · intro s i s' hs hfresh hstep
    have hm := Bridge.step_docket hstep
    exact ⟨hs.settled_move hfresh hm, hs.quiet_move hm⟩

/-- The request was approved before, perhaps with an earlier transaction. -/
def Bridge.WasApproved (s : Bridge AccountId) (rb' : RollbackRequest AccountId) : Prop :=
  ∃ t rb, s.queue.rollbackRequests.get t = some rb ∧ rb.isApproved = true ∧
    rb' = { rb with unsignedPsbt := rb'.unsignedPsbt }

/-- The step is a vote for a request that is not approved yet, and a majority of the relayers has voted
for it then. -/
def Bridge.GetsApproved (s : Bridge AccountId) (i : Bridge.Step AccountId) (t : H256)
    (rb' : RollbackRequest AccountId) : Prop :=
  ∃ v msg rb, i = .queue v (.submitRollbackPoll msg) ∧ msg.txid = t ∧
    s.queue.rollbackRequests.get t = some rb ∧ rb.isApproved = false ∧
      v.relayers.majority ≤ rb'.supporters.card

/-- **How a request gets approved**: it was, or the majority of the relayers has just voted for it. -/
lemma DocketMove.approval (hm : DocketMove host s i s') {t : H256} {rb' : RollbackRequest AccountId}
    (hget : s'.docket.rollback.get t = some rb') (happr' : rb'.isApproved = true) :
    s.WasApproved rb' ∨ s.GetsApproved i t rb' := by
  have hbefore : s.docket.rollback.get t = some rb' → s.WasApproved rb' ∨ s.GetsApproved i t rb' :=
    fun hold => .inl ⟨t, rb', hold, happr', rfl⟩
  cases hm with
  | pool v j k hi hseen hstep h => exact hbefore (by rwa [h] at hget)
  | kept hp h => exact hbefore (by rwa [h] at hget)
  | built v psbt messages selected hi hplan hnormal hp h => exact hbefore (by rwa [h] at hget)
  | added txid r hnormal hnew htype hroll hp h => exact hbefore (by rwa [h] at hget)
  | migrated txid r htransfer hnew htype hp h => exact hbefore (by rwa [h] at hget)
  | signed txid r r' hr hsame hp h => exact hbefore (by rwa [h] at hget)
  | finalized txid r r' hr hsame hp h => exact hbefore (by rwa [h] at hget)
  | executed txid r hr hp h => exact hbefore (by rwa [h] at hget)
  | requested txid rb hnormal hnew hroll hbond happr hp h =>
      rw [h] at hget
      by_cases ht : t = txid
      · subst ht
        obtain rfl := Option.some.inj ((StorageMap.get_insert_self _ _ _).symm.trans hget)
        simp [happr] at happr'
      · exact hbefore (by rwa [StorageMap.get_insert_of_ne _ ht] at hget)
  | polled txid rb votes hrb happr hp h =>
      rw [h] at hget
      by_cases ht : t = txid
      · subst ht
        obtain rfl := Option.some.inj ((StorageMap.get_insert_self _ _ _).symm.trans hget)
        simp [happr] at happr'
      · exact hbefore (by rwa [StorageMap.get_insert_of_ne _ ht] at hget)
  | approved v msg rb votes hi hrb happr hmaj hp h =>
      rw [h] at hget
      by_cases ht : t = msg.txid
      · subst ht
        obtain rfl := Option.some.inj ((StorageMap.get_insert_self _ _ _).symm.trans hget)
        exact .inr ⟨v, msg, rb, hi, rfl, hrb, happr, hmaj⟩
      · exact hbefore (by rwa [StorageMap.get_insert_of_ne _ ht] at hget)
  | dropped v txid rb hi hnormal hrb happr hunlock hp h =>
      rw [h, StorageMap.get_remove] at hget
      split_ifs at hget
      exact hbefore hget
  | bumped old new r r' hnormal hr htype htype' hnew hroll hp h => exact hbefore (by rwa [h] at hget)
  | remigrated old new r r' htransfer hr htype htype' hnew hroll hp h =>
      exact hbefore (by rwa [h] at hget)
  | rebonded old new r rb raw messages hnormal hr htype hne hnew hroll hrb hp h =>
      rw [h] at hget
      by_cases ht : t = new
      · subst ht
        obtain rfl := Option.some.inj ((StorageMap.get_insert_self _ _ _).symm.trans hget)
        exact .inl ⟨old, rb, hrb, happr', rfl⟩
      · rw [StorageMap.get_insert_of_ne _ ht, StorageMap.get_remove] at hget
        split_ifs at hget
        exact hbefore hget
  | renamed old new hp h =>
      rw [h] at hget
      obtain ⟨rb, hrb, rfl⟩ := Option.map_eq_some_iff.mp hget
      by_cases happr : rb.isApproved = true
      · rw [if_pos happr]
        exact .inl ⟨t, rb, hrb, happr, rfl⟩
      · rw [if_neg happr] at happr'
        exact absurd happr' happr

/-! ## Fee bumps -/

omit [LinearOrder AccountId] in
lemma Queue.tryPsbtFeeVerification_throws {maxFeeRate : ℕ} {psbt : Psbt} :
    Throws (· ≠ .requestDNE) (tryPsbtFeeVerification host maxFeeRate psbt) := by
  refine .bind (.of_okOr (by decide)) fun _ => .bind (.bind (.of_ensure (by decide)) fun _ =>
    .bind (.mapM (fun _ => ?_) _) fun _ => .pure) fun _ => .of_ensure (by decide)
  exact .bind (.of_okOr (by decide)) fun _ => .of_okOr (by decide)

omit [LinearOrder AccountId] in
lemma Queue.outputAddress_throws {output : TxOut} :
    Throws (· ≠ .requestDNE) (outputAddress host output) :=
  .bind (.of_okOr (by decide)) fun _ => .of_okOr (by decide)

omit [LinearOrder AccountId] in
lemma Queue.verifyBumpedOutput_throws {requestType : RequestType} {systemVault : Bytes}
    {oldOutputs : StorageMap Bytes ℕ} {feeDiff : ℕ} {output : TxOut} :
    Throws (· ≠ .requestDNE)
      (verifyBumpedOutput host requestType systemVault oldOutputs feeDiff output) := by
  refine .bind outputAddress_throws fun address => ?_
  cases oldOutputs.get address with
  | none => exact .bind (.of_ensure (by decide)) fun _ => .of_ensure (by decide)
  | some amount =>
      refine .bind (.of_okOr (by decide)) fun _ => ?_
      cases requestType <;> exact .of_ensure (by decide)

lemma Queue.tryBumpFeePsbtVerification_throws {pool : Registration AccountId} {old new : Psbt}
    {requestType : RequestType} :
    Throws (· ≠ .requestDNE) (tryBumpFeePsbtVerification host pool old new requestType) := by
  refine .bind (.of_okOr (by decide)) fun _ => .bind (.of_ensure (by decide)) fun _ =>
    .bind (.of_ensure (by decide)) fun _ => .bind (.of_okOr (by decide)) fun _ =>
    .bind (.of_okOr (by decide)) fun _ => .bind (.of_ensure (by decide)) fun _ =>
    .bind (.foldlM (fun _ _ => ?_) _ _) fun _ => .forM (fun _ => verifyBumpedOutput_throws) _
  exact .bind outputAddress_throws fun _ => .pure

lemma ofBlaze_throws {α : Type} {x : Except Blaze.Error α} :
    Throws (· ≠ .requestDNE) (ofBlaze x) := by
  intro e he
  cases x with
  | error e' =>
      obtain rfl := Except.error.inj he
      simp
  | ok a => cases he

/-- **A fee bump finds the record of a rollback**: `RequestDNE` is none of its errors. -/
lemma Bridge.submitBumpFeeRequest_throws {origin : Origin AccountId} {old : H256} {new : Bytes}
    {r : PsbtRequest AccountId} (hr : s.queue.executedRequests.get old = some r)
    (hrb : r.requestType = .rollback → ∃ rb, s.queue.rollbackRequests.get old = some rb) :
    Throws (· ≠ .requestDNE) (s.submitBumpFeeRequest host origin old new) := by
  have hrecords : ∀ newTxid, Throws (· ≠ .requestDNE) (s.bumpRecords host old newTxid r new) := by
    intro newTxid
    cases htype : r.requestType with
    | normal =>
        simp only [Bridge.bumpRecords, htype]
        exact .bind (.mapM (fun _ => .of_okOr (by decide)) _) fun _ => .pure
    | migration =>
        simp only [Bridge.bumpRecords, htype]
        exact .pure
    | rollback =>
        obtain ⟨rb, hrb⟩ := hrb htype
        simp only [Bridge.bumpRecords, htype, hrb, okOr_some]
        exact .pure
  simp only [Bridge.submitBumpFeeRequest, hr, okOr_some, ok_bind]
  refine .bind (.of_ensure (by decide)) fun _ => .bind (.of_ensure (by decide)) fun _ =>
    .bind (.of_ensure (by decide)) fun _ => .bind (.of_okOr (by decide)) fun _ =>
    .bind (.of_okOr (by decide)) fun _ => .bind (.of_ensure (by decide)) fun _ =>
    .bind tryPsbtFeeVerification_throws fun _ =>
    .bind tryBumpFeePsbtVerification_throws fun _ =>
    .bind (.bind (.of_ensure (by decide)) fun _ => .bind (.of_ensure (by decide)) fun _ =>
      .of_ensure (by decide)) fun _ =>
    .bind (.of_ensure (by decide)) fun _ => .bind (hrecords _) fun _ => ?_
  refine .bind (.ite (.bind ofBlaze_throws fun _ => .pure) .pure) fun _ => .bind (.ite ?_ .pure)
    fun _ => .pure
  exact .bind ofBlaze_throws fun _ => .bind ofBlaze_throws fun _ => .pure

/-! ## Results -/

/-- **Rollbacks and their approval.**  The txid of a transaction built by the hook is new.  Then in every
run there is exactly one request of type rollback under a txid just if there is an approved record, and
the two have the same PSBT.  A request gets approved only by the vote that makes a majority.  A fee bump
of an executed rollback finds its record. -/
theorem rollback_approval (h : BridgeIf host (Bridge.FreshTxid host) s) :
    (∀ t, ((s.docket.requestsOf t).filter fun r => r.requestType = .rollback).length = 1 ↔
      ∃ rb, s.queue.rollbackRequests.get t = some rb ∧ rb.isApproved = true) ∧
    (∀ t r rb, r ∈ s.docket.requestsOf t → r.requestType = .rollback →
      s.queue.rollbackRequests.get t = some rb → rb.isApproved = true →
        r.unsignedPsbt = rb.unsignedPsbt) ∧
    (∀ i s' t rb', s.step host i = some s' → s'.queue.rollbackRequests.get t = some rb' →
      rb'.isApproved = true → s.WasApproved rb' ∨ s.GetsApproved i t rb') ∧
    ∀ origin old new r, s.queue.executedRequests.get old = some r → r.requestType = .rollback →
      s.submitBumpFeeRequest host origin old new ≠ .error .requestDNE := by
  have hinv := h.rollbackInv
  have hone : ∀ t rb, s.docket.rollback.get t = some rb → rb.isApproved = true →
      ∃ r, s.docket.requestsOf t = [r] ∧ r.requestType = .rollback ∧
        r.unsignedPsbt = rb.unsignedPsbt := by
    intro t rb hrb happr
    have hsettled := hinv.settled t
    rw [hrb] at hsettled
    simpa [Settled, happr] using hsettled
  have hrecord : ∀ t r, r ∈ s.docket.requestsOf t → r.requestType = .rollback →
      ∃ rb, s.docket.rollback.get t = some rb ∧ rb.isApproved = true := by
    intro t r hr htype
    have hsettled := hinv.settled t
    cases hrb : s.docket.rollback.get t with
    | none =>
        rw [hrb] at hsettled
        exact absurd htype (hsettled.2 r hr)
    | some rb =>
        refine ⟨rb, rfl, ?_⟩
        by_contra hnot
        rw [hrb] at hsettled
        rw [hsettled.eq_nil (by simpa using hnot)] at hr
        cases hr
  refine ⟨fun t => ⟨fun hlen => ?_, ?_⟩, ?_, ?_, ?_⟩
  · obtain ⟨r, hr⟩ := List.length_eq_one_iff.mp hlen
    have hmem : r ∈ (s.docket.requestsOf t).filter fun r => r.requestType = .rollback := by
      simp [hr]
    obtain ⟨hr, htype⟩ := List.mem_filter.mp hmem
    exact hrecord t r hr (of_decide_eq_true htype)
  · rintro ⟨rb, hrb, happr⟩
    obtain ⟨r, heq, htype, -⟩ := hone t rb hrb happr
    simp [heq, htype]
  · intro t r rb hr htype hrb happr
    obtain ⟨r', heq, -, hpsbt⟩ := hone t rb hrb happr
    obtain rfl : r = r' := by simpa [heq] using hr
    exact hpsbt
  · intro i s' t rb' hstep hget happr
    exact (Bridge.step_docket hstep).approval hget happr
  · intro origin old new r hr htype herr
    refine Bridge.submitBumpFeeRequest_throws hr (fun _ => ?_) _ herr rfl
    have hmem : r ∈ s.docket.requestsOf old := by
      have hget : s.docket.executed.get old = some r := hr
      simp [Docket.requestsOf, hget]
    obtain ⟨rb, hrb, -⟩ := hrecord old r hmem htype
    exact ⟨rb, hrb⟩

end Approval

/-! ## Bonds -/

section Bonds

/-- The output that the request under a txid gives back. -/
def Docket.outputOf (d : Docket AccountId) (p : H256) : Option (H256 × U256) :=
  (d.rollback.get p).map fun rb => (rb.txid, rb.vout)

/-- **The index is right**: an output is bonded to the request that gives it back. -/
def Bridge.Bonded (s : Bridge AccountId) : Prop :=
  ∀ t v p, s.queue.bondedRollbackOutputs.get (t, v) = some p ↔
    ∃ rb, s.queue.rollbackRequests.get p = some rb ∧ rb.txid = t ∧ rb.vout = v

/-- The coins that a transaction has locked can be unlocked. -/
def Blaze.CanUnlock (s : Blaze AccountId) (txid : H256) : Prop :=
  ∃ tx, s.pendingTxs.get txid = some tx ∧ ∀ input ∈ tx.inputs, s.utxos.contains input.hash = true

/-- The step drops a pending request: root does it, in the normal state, to a request that is there and
not approved, and its coins can be unlocked if Blaze is activated. -/
def Bridge.Drops (s : Bridge AccountId) : Bridge.Step AccountId → Prop
  | .queue _ (.dropPendingRollbackRequest origin txid) =>
      origin = .root ∧ s.pool.serviceState = .normal ∧
        (∃ rb, s.queue.rollbackRequests.get txid = some rb ∧ rb.isApproved = false) ∧
        (s.blaze.isActivated = true → s.blaze.CanUnlock txid)
  | _ => False

variable {s s' : Bridge AccountId}

lemma Bridge.bonded_iff : s.Bonded ↔ Inverse s.docket.outputOf s.docket.bonded.get := by
  have hout : ∀ p t v, s.docket.outputOf p = some (t, v) ↔
      ∃ rb, s.queue.rollbackRequests.get p = some rb ∧ rb.txid = t ∧ rb.vout = v := by
    intro p t v
    simp only [Docket.outputOf, Option.map_eq_some_iff, Prod.mk.injEq]
    rfl
  constructor
  · rintro h p ⟨t, v⟩
    rw [hout, ← h t v p]
    rfl
  · intro h t v p
    rw [← hout, h p (t, v)]
    rfl

variable [LinearOrder AccountId] {host : Host AccountId} {i : Bridge.Step AccountId}

omit [LinearOrder AccountId] in
/-- Coins that were unlocked were there. -/
lemma Blaze.setStatus_contains {status : Blaze.UtxoStatus} :
    ∀ {inputs : List UtxoInfoWithSize} {b b' : Blaze AccountId}, b.setStatus status inputs = .ok b' →
      ∀ input ∈ inputs, b.utxos.contains input.hash = true := by
  intro inputs
  induction inputs with
  | nil => simp
  | cons x inputs ih =>
      intro b b' h
      simp only [Blaze.setStatus, List.foldlM_cons, bind_eq_ok, okOr_eq_ok, pure_eq_ok] at h
      obtain ⟨-, ⟨utxo, hx, rfl⟩, h⟩ := h
      have hx' : b.utxos.contains x.hash = true := by simp [StorageMap.contains, hx]
      intro input hmem
      rcases List.mem_cons.mp hmem with rfl | hmem
      · exact hx'
      · have hrest := ih h input hmem
        by_cases hne : input.hash = x.hash
        · rw [hne]
          exact hx'
        · simpa [StorageMap.contains, hne] using hrest

omit [LinearOrder AccountId] in
lemma Blaze.canUnlock {b b' : Blaze AccountId} {txid : H256} (h : b.unlockUtxos txid = .ok b') :
    b.CanUnlock txid := by
  simp only [Blaze.unlockUtxos, bind_eq_ok, okOr_eq_ok] at h
  obtain ⟨tx, htx, h⟩ := h
  exact ⟨tx, htx, fun input hi => Blaze.setStatus_contains h input hi⟩

omit [LinearOrder AccountId] in
/-- A drop that succeeds is one that meets the conditions. -/
lemma DocketMove.drops {v : View AccountId} {txid : H256} {rb : RollbackRequest AccountId}
    (hnormal : s.pool.serviceState = .normal) (hrb : s.docket.rollback.get txid = some rb)
    (happr : rb.isApproved = false)
    (hunlock : s.blaze.isActivated = true → ∃ blaze, s.blaze.unlockUtxos txid = .ok blaze) :
    s.Drops (.queue v (.dropPendingRollbackRequest .root txid)) := by
  refine ⟨rfl, hnormal, ⟨rb, hrb, happr⟩, fun hact => ?_⟩
  obtain ⟨blaze, hblaze⟩ := hunlock hact
  exact Blaze.canUnlock hblaze

omit [LinearOrder AccountId] in
/-- Coins that are there can be unlocked. -/
lemma Blaze.exists_setStatus {status : Blaze.UtxoStatus} :
    ∀ {inputs : List UtxoInfoWithSize} {b : Blaze AccountId},
      (∀ input ∈ inputs, b.utxos.contains input.hash = true) →
        ∃ b', b.setStatus status inputs = .ok b' := by
  intro inputs
  induction inputs with
  | nil => exact fun {b} _ => ⟨b, rfl⟩
  | cons x inputs ih =>
      intro b h
      obtain ⟨utxo, hx⟩ := Option.isSome_iff_exists.mp (h x List.mem_cons_self)
      have hrest : ∀ input ∈ inputs,
          (b.utxos.insert x.hash { utxo with status }).contains input.hash = true := by
        intro input hmem
        by_cases hne : input.hash = x.hash
        · simp [StorageMap.contains, hne]
        · simpa [StorageMap.contains, hne] using h input (List.mem_cons_of_mem _ hmem)
      obtain ⟨b', hb'⟩ := ih (b := { b with
        utxos := b.utxos.insert x.hash { utxo with status } }) hrest
      refine ⟨b', ?_⟩
      simp only [Blaze.setStatus, List.foldlM_cons, hx, okOr_some, ok_bind]
      exact hb'

omit [LinearOrder AccountId] in
/-- A drop that meets the conditions succeeds. -/
lemma Bridge.dropPendingRollbackRequest_of (s : Bridge AccountId) {txid : H256}
    {rb : RollbackRequest AccountId} (hnormal : s.pool.serviceState = .normal)
    (hrb : s.queue.rollbackRequests.get txid = some rb) (happr : rb.isApproved = false)
    (hunlock : s.blaze.isActivated = true → s.blaze.CanUnlock txid) :
    ∃ t, s.dropPendingRollbackRequest .root txid = .ok t ∧
      t.queue.rollbackRequests = s.queue.rollbackRequests.remove txid ∧
      t.queue.bondedRollbackOutputs = s.queue.bondedRollbackOutputs := by
  have hdrop : s.dropPendingRollbackRequest .root txid = ({ s with queue := { s.queue with
      rollbackRequests := s.queue.rollbackRequests.remove txid } } :
        Bridge AccountId).unlockIfActivated txid := by
    simp [Bridge.dropPendingRollbackRequest, hnormal, hrb, happr, ensure_pos]
  have hok : ∃ t, s.dropPendingRollbackRequest .root txid = .ok t := by
    rw [hdrop, Bridge.unlockIfActivated]
    split_ifs with hact
    · obtain ⟨tx, htx, hall⟩ := hunlock hact
      have hset : ∃ b', Blaze.setStatus { s.blaze with
          pendingTxs := s.blaze.pendingTxs.remove txid } .available tx.inputs = .ok b' :=
        Blaze.exists_setStatus hall
      obtain ⟨b', hb'⟩ := hset
      exact ⟨_, by simp only [Blaze.unlockUtxos, htx, okOr_some, ok_bind, hb']; rfl⟩
    · exact ⟨_, rfl⟩
  obtain ⟨t, ht⟩ := hok
  have hsame := Bridge.unlockIfActivated_same t (hdrop ▸ ht)
  refine ⟨t, ht, ?_, ?_⟩ <;> rw [hsame.2]

omit [LinearOrder AccountId] in
/-- A record that is written again gives back the same output. -/
lemma Docket.outputOf_insert {d d' : Docket AccountId} {p : H256}
    {rb rb' : RollbackRequest AccountId} (h : d'.rollback = d.rollback.insert p rb')
    (hrb : d.rollback.get p = some rb) (htxid : rb'.txid = rb.txid) (hvout : rb'.vout = rb.vout) :
    d'.outputOf = d.outputOf := by
  funext q
  by_cases hq : q = p
  · subst hq
    simp [Docket.outputOf, h, hrb, htxid, hvout]
  · simp [Docket.outputOf, h, hq]

/-- **Step lemma.**  A step that does not drop a request keeps the index right. -/
lemma Bridge.bonded_move (hs : s.Bonded) (hm : DocketMove host s i s') (hdrop : ¬ s.Drops i) :
    s'.Bonded := by
  rw [Bridge.bonded_iff] at hs ⊢
  cases hm with
  | pool v j k hi hseen hstep h => exact h ▸ hs
  | kept hp h => exact h ▸ hs
  | built v psbt messages selected hi hplan hnormal hp h => exact h ▸ hs
  | added txid r hnormal hnew htype hroll hp h => exact h ▸ hs
  | migrated txid r htransfer hnew htype hp h => exact h ▸ hs
  | signed txid r r' hr hsame hp h => exact h ▸ hs
  | finalized txid r r' hr hsame hp h => exact h ▸ hs
  | executed txid r hr hp h => exact h ▸ hs
  | requested txid rb hnormal hnew hroll hbond happr hp h =>
      have hleft : s'.docket.outputOf =
          Function.update s.docket.outputOf txid (some (rb.txid, rb.vout)) := by
        funext q
        by_cases hq : q = txid
        · subst hq
          simp [h, Docket.outputOf]
        · simp [h, Docket.outputOf, hq]
      rw [hleft, h]
      exact hs.add (by simp [Docket.outputOf, hroll]) hbond
  | polled txid rb votes hrb happr hp h =>
      have hrec : s'.docket.rollback = s.docket.rollback.insert txid { rb with votes } := by rw [h]
      rw [Docket.outputOf_insert hrec hrb rfl rfl, h]
      exact hs
  | approved v msg rb votes hi hrb happr hmaj hp h =>
      have hrec : s'.docket.rollback =
          s.docket.rollback.insert msg.txid { rb with votes, isApproved := true } := by rw [h]
      rw [Docket.outputOf_insert hrec hrb rfl rfl, h]
      exact hs
  | dropped v txid rb hi hnormal hrb happr hunlock hp h =>
      subst hi
      exact absurd (DocketMove.drops hnormal hrb happr hunlock) hdrop
  | bumped old new r r' hnormal hr htype htype' hnew hroll hp h => exact h ▸ hs
  | remigrated old new r r' htransfer hr htype htype' hnew hroll hp h => exact h ▸ hs
  | rebonded old new r rb raw messages hnormal hr htype hne hnew hroll hrb hp h =>
      -- the pair of the old transaction is removed, and that of the new one is added
      have hold : s.docket.outputOf old = some (rb.txid, rb.vout) := by simp [Docket.outputOf, hrb]
      have hleft : s'.docket.outputOf = Function.update (Function.update s.docket.outputOf old none)
          new (some (rb.txid, rb.vout)) := by
        funext q
        by_cases hq : q = new
        · subst hq
          simp [h, Docket.outputOf]
        · by_cases hq' : q = old
          · subst hq'
            simp [h, Docket.outputOf, hq]
          · simp [h, Docket.outputOf, hq, hq']
      have hright : s'.docket.bonded.get = Function.update
          (Function.update s.docket.bonded.get (rb.txid, rb.vout) none) (rb.txid, rb.vout)
          (some new) := by
        rw [Function.update_idem, h]
        rfl
      rw [hleft, hright]
      refine (hs.remove hold).add ?_ (Function.update_self _ _ _)
      rw [Function.update_of_ne hne]
      simp [Docket.outputOf, hroll]
  | renamed old new hp h =>
      have hleft : s'.docket.outputOf = s.docket.outputOf := by
        funext q
        cases hq : s.docket.rollback.get q with
        | none => simp [h, Docket.outputOf, hq]
        | some rb =>
            simp only [h, Docket.outputOf, StorageMap.get_mapVals, hq, Option.map_some]
            split_ifs <;> rfl
      rw [hleft, h]
      exact hs

/-- **After a drop the index is wrong**: the output is still bonded to the request that is gone. -/
lemma Bridge.not_bonded_of_drops (hs : s.Bonded) (hdrop : s.Drops i) (h : s.step host i = some s') :
    ¬ s'.Bonded := by
  cases i with
  | queue v c =>
      cases c with
      | dropPendingRollbackRequest origin txid =>
          obtain ⟨rfl, hnormal, ⟨rb, hrb, happr⟩, hunlock⟩ := hdrop
          obtain ⟨t, ht, hgone, hkept⟩ := s.dropPendingRollbackRequest_of hnormal hrb happr hunlock
          obtain rfl := Option.some.inj h
          simp only [Bridge.queueCall, ht, commit]
          intro hbonded
          have hbond : t.queue.bondedRollbackOutputs.get (rb.txid, rb.vout) = some txid := by
            rw [hkept]
            exact (hs _ _ _).mpr ⟨rb, hrb, rfl, rfl⟩
          obtain ⟨rb', hrb', -⟩ := (hbonded _ _ _).mp hbond
          rw [hgone, StorageMap.get_remove_self] at hrb'
          cases hrb'
      | _ => exact hdrop.elim
  | _ => exact hdrop.elim

/-- **Outputs and the requests that give them back.**  In every run in which no pending request is
dropped, an output is bonded just to the request that gives it back, and no two requests give back the
same output.  A drop ends that. -/
theorem rollback_outputs_bonded (h : BridgeIf host (fun s i => ¬ s.Drops i) s) :
    s.Bonded ∧
    (∀ p p' rb rb', s.queue.rollbackRequests.get p = some rb →
      s.queue.rollbackRequests.get p' = some rb' → rb.txid = rb'.txid → rb.vout = rb'.vout → p = p') ∧
    ∀ i s', s.Drops i → s.step host i = some s' → ¬ s'.Bonded := by
  have hbonded : s.Bonded := by
    refine Reachable.invariant (P := Bridge.Bonded) ?_ ?_ h
    · rintro s ⟨members, authority, rfl⟩ t v p
      simp [Bridge.genesis, SocketQueue.genesis]
    · intro s i s' hs hdrop hstep
      exact Bridge.bonded_move hs (Bridge.step_docket hstep) hdrop
  refine ⟨hbonded, ?_, ?_⟩
  · intro p p' rb rb' hp hp' htxid hvout
    have hb := (hbonded rb.txid rb.vout p).mpr ⟨rb, hp, rfl, rfl⟩
    have hb' := (hbonded rb.txid rb.vout p').mpr ⟨rb', hp', htxid.symm, hvout.symm⟩
    exact Option.some.inj (hb.symm.trans hb')
  · intro i s' hdrop hstep
    exact Bridge.not_bonded_of_drops hbonded hdrop hstep

end Bonds

/-! ## A small bridge

A PSBT is two bytes, which of the coins it spends and its fee.  It takes a coin of 1000 and gives the
rest back to the address `[5]`.  User 7 has that address, and the relayers are the accounts up to 3. -/

section Small

def smallPsbt (coin fee : UInt8) : Psbt where
  unsignedTx :=
    ⟨2, coin.toNat, [⟨⟨Fin.ofNat _ coin.toNat, 0⟩, [], 0⟩], [⟨1000 - fee.toNat, [5]⟩]⟩
  inputs := [⟨some ⟨1000, [9]⟩, none, some [1], [], []⟩]

def smallHost : Host ℕ := { regtest with
  lib := { regtestLibrary with
    serialize := fun psbt =>
      [.ofNat psbt.unsignedTx.lockTime, .ofNat (1000 - (psbt.unsignedTx.output.map TxOut.value).sum)]
    deserialize
      | coin :: fee :: _ => some (smallPsbt coin fee)
      | _ => none
    computeTxid := fun tx => Fin.ofNat _ (1000 * tx.lockTime + (tx.output.map TxOut.value).sum)
    combine := fun _ signed => some signed
    finalize := fun combined => some combined
    instructions := fun _ => [.op 0x51, .pushBytes, .op 0x51, .op 0xae] } }

def smallView : View ℕ where
  relayers := ⟨fun a => a ≤ 3, 2⟩
  executives := [1, 2]
  getRequest _ _ _ := none
  getTxInfo _ _ _ := some (some ⟨0⟩)
  now := 1

/-- A vault for user 7, the system vault, and a request to give back an output. -/
def smallStart : List (Bridge.Step ℕ) :=
  [.pool smallView (.requestVault regtestOutlook (.signed 7) [5]),
    .pool smallView (.submitVaultKey regtestOutlook ⟨1, 7, [20], 1⟩),
    .pool smallView (.submitVaultKey regtestOutlook ⟨2, 7, [10], 1⟩),
    .pool smallView (.requestSystemVault regtestOutlook .root false),
    .pool smallView (.submitSystemVaultKey regtestOutlook ⟨1, 256, [30], 1⟩),
    .pool smallView (.submitSystemVaultKey regtestOutlook ⟨2, 256, [40], 1⟩),
    .queue smallView (.setAuthority .root 9), .queue smallView (.setSocket .root 8 true),
    .queue smallView (.submitRollbackRequest .root ⟨7, 77, 0, 1000, [1, 10]⟩)]

/-! User 7 has the address `[1, 10, 20]` and gets its payments to `[5]`.  The requests of the Socket contract
are in the form in which the ABI writes them, and hashes are those of these bytes. -/

/-- The token of the chain. -/
def outboundToken : U256 := 0x30000000300000bfccb4e4f67b33eebfc17c82cf6e8c0b56d269aeb79

def outboundMessage (amount : U256) : SocketMessage where
  reqId := ⟨[0, 0, 11, 252], 0, 7⟩
  status := 5
  insCode := ⟨[0, 0, 39, 20], [0, 0, 0, 0, 0, 0, 0, 0, 0, 0, 0, 0, 0, 0, 0, 3]⟩
  params := ⟨word outboundToken.val, word outboundToken.val, 0xa1, 7, amount, []⟩

def outboundRequestBytes (amount : U256) : Bytes :=
  [0x20, 10004 * 2 ^ 224, 3 * 2 ^ 128, 3 * 32, outboundToken.val, outboundToken.val, 0xa1, 7,
    amount.val, 6 * 32, 0].flatMap word

def outboundBytes (amount : U256) : Bytes :=
  [0x20, 3068 * 2 ^ 224, 0, 7, 5, 10004 * 2 ^ 224, 3 * 2 ^ 128, 7 * 32, outboundToken.val,
    outboundToken.val, 0xa1, 7, amount.val, 6 * 32, 0].flatMap word

/-- The coin of user 7. -/
def outboundCoin : UtxoInfo := ⟨77, 0, 100000, [1, 10, 20]⟩

def outboundHash (bytes : Bytes) : H256 :=
  if bytes = outboundRequestBytes 20000 then
    0x276df8c70d410b2c562ab2ac1c0901f3cc767b935bf004df31a7f4579a11e3ab
  else if bytes = outboundRequestBytes 0x10000000000000000 then
    0x0775603538d7d389c72f658e3922a38fd375013e5a5b5db3c0c2af40962166a0
  else if bytes = outboundCoin.encode then
    0x8488fb8189ccbe3c0e6439f2ffb573785235a1cf8e5d53a1a88396110ebfe932
  else 0

/-- The codec and the hash, on what the messages need of them. -/
def outboundCodec : Codec where
  decode _ bytes :=
    ([20000, 0x10000000000000000].find? fun amount => bytes = outboundBytes amount).map fun amount =>
      let m := outboundMessage amount
      [.tuple [.tuple m.reqId.tokens, .uint m.status, .tuple m.insCode.tokens,
        .tuple m.params.tokens]]
  encode
    | [.tuple [_, _, _, .tuple [_, _, _, _, .uint amount, _]]] => outboundBytes amount
    | [.tuple [_, .tuple [_, _, _, _, .uint amount, _]]] => outboundRequestBytes amount
    | _ => [3068 * 2 ^ 224, 0, 7].flatMap word
  keccak256 := outboundHash

def outboundHost : Host ℕ := { smallHost with
  codec := outboundCodec
  lib := { smallHost.lib with
    scriptPubkey := fun address => address.take 40
    descriptorFromStr := fun text => some ⟨text, [9], [1], []⟩ } }

/-- The Socket contract has accepted the request. -/
def outboundView (amount : U256) : View ℕ := { smallView with
  getRequest := fun _ _ _ => some (some ⟨5, outboundHash (outboundRequestBytes amount)⟩) }

/-! User 6 has the next request, and gets its payments to `[6]`. -/

def otherMessage : SocketMessage where
  reqId := ⟨[0, 0, 11, 252], 0, 8⟩
  status := 5
  insCode := ⟨[0, 0, 39, 20], [0, 0, 0, 0, 0, 0, 0, 0, 0, 0, 0, 0, 0, 0, 0, 3]⟩
  params := ⟨word outboundToken.val, word outboundToken.val, 0xa1, 6, 30000, []⟩

def otherReqId : Bytes := [3068 * 2 ^ 224, 0, 8].flatMap word

def otherRequestBytes : Bytes :=
  [0x20, 10004 * 2 ^ 224, 3 * 2 ^ 128, 3 * 32, outboundToken.val, outboundToken.val, 0xa1, 6, 30000,
    6 * 32, 0].flatMap word

def otherBytes : Bytes :=
  [0x20, 3068 * 2 ^ 224, 0, 8, 5, 10004 * 2 ^ 224, 3 * 2 ^ 128, 7 * 32, outboundToken.val,
    outboundToken.val, 0xa1, 6, 30000, 6 * 32, 0].flatMap word

def otherHash : H256 := 0x0bb4130364233881cadb3df45ce27b5b2339932196d6b9438e1095aceafdad57

/-- The codec and the hash, on what both messages need of them. -/
def bothCodec : Codec where
  decode types bytes :=
    if bytes = otherBytes then
      let m := otherMessage
      some [.tuple [.tuple m.reqId.tokens, .uint m.status, .tuple m.insCode.tokens,
        .tuple m.params.tokens]]
    else outboundCodec.decode types bytes
  encode
    | [_, _, .uint 8] => otherReqId
    | [.tuple [.tuple [_, _, .uint 8], _, _, _]] => otherBytes
    | [.tuple [_, .tuple [_, _, _, .address 6, _, _]]] => otherRequestBytes
    | tokens => outboundCodec.encode tokens
  keccak256 bytes := if bytes = otherRequestBytes then otherHash else outboundHash bytes

def bothHost : Host ℕ := { outboundHost with codec := bothCodec }

/-- The Socket contract has accepted both requests. -/
def bothView : View ℕ := { smallView with
  getRequest := fun caller socket reqId =>
    if reqId = otherReqId then some (some ⟨5, otherHash⟩)
    else (outboundView 20000).getRequest caller socket reqId }

/-- There is a coin, the relayers agree on a fee rate, and the request gets into the outbound pool. -/
def outboundRun (amount : U256) : List (Bridge.Step ℕ) :=
  [.pool smallView (.requestVault regtestOutlook (.signed 7) [5]),
    .pool smallView (.submitVaultKey regtestOutlook ⟨1, 7, [20], 1⟩),
    .pool smallView (.submitVaultKey regtestOutlook ⟨2, 7, [10], 1⟩),
    .pool smallView (.requestSystemVault regtestOutlook .root false),
    .pool smallView (.submitSystemVaultKey regtestOutlook ⟨1, 256, [30], 1⟩),
    .pool smallView (.submitSystemVaultKey regtestOutlook ⟨2, 256, [40], 1⟩),
    .queue smallView (.setAuthority .root 9), .queue smallView (.setSocket .root 8 false),
    .blaze smallView (.forcePushUtxos .root [outboundCoin]),
    .blaze smallView (.setActivation .root true),
    .blaze smallView (.submitFeeRate ⟨1, 1, 2, 5⟩), .blaze smallView (.submitFeeRate ⟨2, 1, 2, 5⟩),
    .blaze (outboundView amount) (.submitOutboundRequests ⟨1, [outboundBytes amount]⟩)]

/-- What a run shows, it shows of a reachable state. -/
lemma smallRun_exists (host : Host ℕ) (cond : Bridge ℕ → Bridge.Step ℕ → Prop)
    (steps : List (Bridge.Step ℕ)) (hcond : ∀ i ∈ steps, ∀ s, cond s i) {P : Bridge ℕ → Bool}
    (h : (runSteps (Bridge.step host) (.genesis host [1, 2] none) steps).any P = true) :
    ∃ s, BridgeIf host cond s ∧ P s = true := by
  obtain ⟨s, hs, hP⟩ := (Option.any_eq_true _ _).mp h
  exact ⟨s, Reachable.runSteps_of (.init ⟨_, _, rfl⟩) hcond hs, hP⟩

lemma smallRunIf_exists (host : Host ℕ) (cond : Bridge ℕ → Bridge.Step ℕ → Prop)
    [∀ s i, Decidable (cond s i)] (steps : List (Bridge.Step ℕ)) {P : Bridge ℕ → Bool}
    (h : (runSteps (checked (Bridge.step host) cond) (.genesis host [1, 2] none) steps).any P = true) :
    ∃ s, BridgeIf host cond s ∧ P s = true := by
  obtain ⟨s, hs, hP⟩ := (Option.any_eq_true _ _).mp h
  exact ⟨s, .runChecked (.init ⟨_, _, rfl⟩) hs, hP⟩

/-- The call fails with the error. -/
def failsWith (x : Except Queue.Error (Bridge ℕ)) (e : Queue.Error) : Bool :=
  match x with
  | .ok _ => false
  | .error e' => e' = e

lemma failsWith_iff {x : Except Queue.Error (Bridge ℕ)} {e : Queue.Error} :
    failsWith x e = true ↔ x = .error e := by
  cases x <;> simp [failsWith]

/-- The hook builds a transaction, and then Blaze is off.  Two of three relayers vote for a request, it
is signed and broadcast, and its fee is bumped. -/
theorem rollback_approval_small : ∃ s : Bridge ℕ,
    BridgeIf outboundHost (Bridge.FreshTxid outboundHost) s ∧
    (s.queue.pendingRequests.get 99752).isSome ∧
    (∃ r, s.queue.executedRequests.get 1990 = some r ∧ r.requestType = .rollback) ∧
    (∃ rb, s.queue.rollbackRequests.get 1990 = some rb ∧ rb.isApproved = true) ∧
    s.submitBumpFeeRequest outboundHost .root 1990 [1, 20] ≠ .error .requestDNE := by
  have hrun := smallRunIf_exists outboundHost (Bridge.FreshTxid outboundHost)
    (outboundRun 20000 ++ [.onInitialize smallView, .blaze smallView (.setActivation .root false),
      .queue smallView (.setSocket .root 8 true),
      .queue smallView (.submitRollbackRequest .root ⟨7, 78, 0, 1000, [1, 10]⟩),
      .queue smallView (.submitRollbackPoll ⟨1, 1990, true⟩),
      .queue smallView (.submitRollbackPoll ⟨2, 1990, true⟩),
      .queue smallView (.submitSignedPsbt ⟨1, [1, 10], [1, 10, 1]⟩),
      .queue smallView (.submitExecutedRequest ⟨9, 1990⟩)])
    (P := fun s => (s.queue.pendingRequests.get 99752).isSome &&
      (s.queue.executedRequests.get 1990).any fun r => r.requestType = .rollback)
    (by decide +kernel)
  obtain ⟨s, hs, hP⟩ := hrun
  obtain ⟨hbuilt, hP⟩ := Bool.and_eq_true_iff.mp hP
  obtain ⟨r, hr, htype⟩ := (Option.any_eq_true _ _).mp hP
  have htype : r.requestType = .rollback := of_decide_eq_true htype
  have hall := rollback_approval hs
  refine ⟨s, hs, hbuilt, ⟨r, hr, htype⟩, (hall.1 1990).mp ?_, hall.2.2.2 _ _ _ r hr htype⟩
  have hsettled := (hs.rollbackInv).settled 1990
  have hget : s.docket.executed.get 1990 = some r := hr
  obtain ⟨hpend, hfin⟩ := Docket.executed_alone hsettled.length_le hget
  simp [Docket.requestsOf, hpend, hfin, hget, htype]

/-- The output of the request is bonded to it. -/
theorem rollback_outputs_bonded_small : ∃ s : Bridge ℕ,
    BridgeIf smallHost (fun s i => ¬ s.Drops i) s ∧
    s.queue.bondedRollbackOutputs.get (77, 0) = some 1990 ∧
    ∃ rb, s.queue.rollbackRequests.get 1990 = some rb ∧ rb.txid = 77 ∧ rb.vout = 0 := by
  have hrun := smallRun_exists smallHost (fun s i => ¬ s.Drops i) smallStart
    (by simp [smallStart, Bridge.Drops])
    (P := fun s => s.queue.bondedRollbackOutputs.get (77, 0) = some 1990) (by decide +kernel)
  obtain ⟨s, hs, hP⟩ := hrun
  have hbond : s.queue.bondedRollbackOutputs.get (77, 0) = some 1990 := of_decide_eq_true hP
  exact ⟨s, hs, hbond, ((rollback_outputs_bonded hs).1 77 0 1990).mp hbond⟩

/-- **A dropped request keeps its output.**  The request of user 7 is dropped.  Its output stays bonded to
it, and another request for the output is rejected. -/
theorem dropped_output_stays_bonded : ∃ s : Bridge ℕ, BridgeIf smallHost anyStep s ∧
    s.queue.bondedRollbackOutputs.get (77, 0) = some 1990 ∧
    s.queue.rollbackRequests.get 1990 = none ∧ ¬ s.Bonded ∧
    s.submitRollbackRequest smallHost smallView .root ⟨7, 77, 0, 1000, [2, 10]⟩ =
      .error .requestAlreadyExists := by
  have hrun := smallRun_exists smallHost anyStep
    (smallStart ++ [.queue smallView (.dropPendingRollbackRequest .root 1990)])
    (fun _ _ _ => trivial)
    (P := fun s => decide (s.queue.bondedRollbackOutputs.get (77, 0) = some 1990) &&
      (s.queue.rollbackRequests.get 1990).isNone &&
      failsWith (s.submitRollbackRequest smallHost smallView .root ⟨7, 77, 0, 1000, [2, 10]⟩)
        .requestAlreadyExists) (by decide +kernel)
  obtain ⟨s, hs, hP⟩ := hrun
  simp only [Bool.and_eq_true, decide_eq_true_eq, Option.isNone_iff_eq_none, failsWith_iff] at hP
  obtain ⟨⟨hbond, hgone⟩, hfail⟩ := hP
  refine ⟨s, hs, hbond, hgone, fun hbonded => ?_, hfail⟩
  obtain ⟨rb, hrb, -⟩ := (hbonded _ _ _).mp hbond
  rw [hgone] at hrb
  cases hrb

end Small

end BifrostNode.Btc
