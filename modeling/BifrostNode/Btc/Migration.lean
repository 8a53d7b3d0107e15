import BifrostNode.Btc.Rollbacks

/-!
# Quiet during a migration

**Requests.**  A migration starts with nothing pending or finalized, and from then on there are only
requests of the migration itself.  Those that wait are recorded as not executed.

**Vaults.**  Funds move only once the next system vault has an address, so the next round starts with
one.
-/

namespace BifrostNode.Btc

open Cccp Staking Transition Pool Queue

variable {AccountId : Type} [LinearOrder AccountId]

/-- A request waits to be signed or to be executed. -/
def Docket.Waits (d : Docket AccountId) (t : H256) (r : PsbtRequest AccountId) : Prop :=
  d.pending.get t = some r ∨ d.finalized.get t = some r

/-- What is left to do while the service is not normal. -/
structure Bridge.Quiet (s : Bridge AccountId) : Prop where
  waits : ∀ t r, s.docket.Waits t r → r.requestType = .migration ∧
    s.pool.ongoingVaultMigration.get t = some false ∧ s.docket.executed.get t = none
  apart : ∀ t, s.docket.pending.get t = none ∨ s.docket.finalized.get t = none
  rollback : ∀ t rb, s.docket.rollback.get t = some rb → rb.isApproved = true

/-- **The invariant** of the migration. -/
structure Bridge.MigrationInv (s : Bridge AccountId) : Prop where
  idle : s.pool.serviceState = .normal → ∀ t, s.pool.ongoingVaultMigration.get t = none
  quiet : s.pool.serviceState ≠ .normal → s.Quiet
  executed : ∀ t, s.pool.ongoingVaultMigration.get t = some true →
    ∃ r, s.docket.executed.get t = some r ∧ r.requestType = .migration
  vault : s.pool.serviceState = .utxoTransfer →
    ∃ address, s.pool.getSystemVault (s.pool.currentRound + 1) = some address

section Steps

variable {host : Host AccountId} {s s' : Bridge AccountId} {i : Bridge.Step AccountId}

omit [LinearOrder AccountId] in
lemma SamePhase.getSystemVault {p p' : Registration AccountId} (h : SamePhase p p') :
    p'.getSystemVault (p'.currentRound + 1) = p.getSystemVault (p.currentRound + 1) := by
  simp only [Registration.getSystemVault, h.currentRound, h.nextVault]

omit [LinearOrder AccountId] in
/-- In the normal state there is nothing but an empty record to keep. -/
lemma Bridge.MigrationInv.of_normal (hs : s.MigrationInv) (hnormal : s.pool.serviceState = .normal)
    (hp : SamePhase s.pool s'.pool) : s'.MigrationInv := by
  have hnormal' : s'.pool.serviceState = .normal := hp.serviceState.trans hnormal
  have hidle : ∀ t, s'.pool.ongoingVaultMigration.get t = none := by
    rw [hp.ongoing]
    exact hs.idle hnormal
  refine ⟨fun _ => hidle, fun h => absurd hnormal' h, fun t ht => ?_, fun h => ?_⟩
  · simp [hidle t] at ht
  · simp [hnormal'] at h

omit [LinearOrder AccountId] in
/-- A step that keeps the phase and what is executed has to keep only the quiet. -/
lemma Bridge.MigrationInv.of_quiet (hs : s.MigrationInv) (hp : SamePhase s.pool s'.pool)
    (he : s'.docket.executed = s.docket.executed)
    (hq : s.pool.serviceState ≠ .normal → s.Quiet → s'.Quiet) : s'.MigrationInv where
  idle h := by
    rw [hp.ongoing]
    exact hs.idle (hp.serviceState ▸ h)
  quiet h := by
    have hstate : s.pool.serviceState ≠ .normal := hp.serviceState ▸ h
    exact hq hstate (hs.quiet hstate)
  executed t ht := by
    rw [he]
    rw [hp.ongoing] at ht
    exact hs.executed t ht
  vault h := by
    rw [hp.getSystemVault]
    exact hs.vault (hp.serviceState ▸ h)

omit [LinearOrder AccountId] in
lemma Bridge.Quiet.of_eq (h : s.Quiet) (hd : s'.docket = s.docket)
    (ho : s'.pool.ongoingVaultMigration = s.pool.ongoingVaultMigration) : s'.Quiet where
  waits := by
    rw [hd, ho]
    exact h.waits
  apart := by
    rw [hd]
    exact h.apart
  rollback := by
    rw [hd]
    exact h.rollback

omit [LinearOrder AccountId] in
/-- A queue that is ready is quiet. -/
lemma Bridge.quiet_of_ready (h : s.queue.isReadyForMigrate = true) : s.Quiet := by
  simp only [SocketQueue.isReadyForMigrate, Bool.and_eq_true, List.isEmpty_iff, List.all_eq_true] at h
  obtain ⟨⟨hp, hf⟩, hr⟩ := h
  have hpending : ∀ t, s.docket.pending.get t = none := StorageMap.get_of_toList_nil hp
  have hfinalized : ∀ t, s.docket.finalized.get t = none := StorageMap.get_of_toList_nil hf
  refine ⟨?_, fun t => .inl (hpending t), ?_⟩
  · rintro t r (h | h)
    · simp [hpending t] at h
    · simp [hfinalized t] at h
  · intro t rb hrb
    exact hr (t, rb) (StorageMap.mem_toList.mpr hrb)

/-- A step of the pool keeps the invariant of the migration. -/
lemma Bridge.MigrationInv.pool_move (hs : s.MigrationInv) {v : View AccountId}
    (hm : PhaseMove (s.outlook v) s.pool s'.pool) (hd : s'.docket = s.docket) : s'.MigrationInv := by
  cases hm with
  | kept hp => exact hs.of_quiet hp (by rw [hd]) fun _ hq => hq.of_eq hd hp.ongoing
  | vaults hstate hr hserv hm =>
      refine ⟨fun h => ?_, fun h => ?_, ?_, fun h => absurd (hserv ▸ h) hstate⟩
      · rw [hm]
        exact hs.idle (hserv ▸ h)
      · exact (hs.quiet (hserv ▸ h)).of_eq hd hm
      · rw [hm, hd]
        exact hs.executed
  | started hready hstate hp =>
      have hidle := hs.idle hstate
      refine ⟨fun h => ?_, fun _ => ?_, fun t ht => ?_, fun h => ?_⟩
      · simp [hp] at h
      · exact (Bridge.quiet_of_ready hready).of_eq hd (by rw [hp])
      · simp [hp, hidle t] at ht
      · simp [hp] at h
  | prepared hstate hr hserv hm =>
      refine ⟨fun h => ?_, fun _ => ?_, ?_, fun h => ?_⟩
      · simp [hserv] at h
      · exact (hs.quiet (by simp [hstate])).of_eq hd hm
      · rw [hm, hd]
        exact hs.executed
      · simp [hserv] at h
  | generated vault a hstate hr hserv hm hvault ha =>
      refine ⟨fun h => ?_, fun _ => ?_, ?_, fun _ => ⟨a, ?_⟩⟩
      · simp [hserv] at h
      · exact (hs.quiet (by simp [hstate])).of_eq hd hm
      · rw [hm, hd]
        exact hs.executed
      · rw [Registration.getSystemVault, hr, hvault]
        exact ha
  | ended hstate hsome hall hp =>
      refine ⟨fun _ t => ?_, fun h => ?_, fun t ht => ?_, fun h => ?_⟩
      · simp [hp]
      · simp [hp] at h
      · simp [hp] at ht
      · simp [hp] at h

omit [LinearOrder AccountId] in
/-- A new request of the migration is not executed yet. -/
lemma Bridge.MigrationInv.add_get (hs : s.MigrationInv) {txid : H256}
    (hnew : s.docket.executed.get txid = none) (t : H256) :
    (s.pool.addMigrationTx txid).ongoingVaultMigration.get t =
      if t = txid then some false else s.pool.ongoingVaultMigration.get t := by
  rw [Registration.addMigrationTx]
  split_ifs with hc ht ht
  · subst ht
    obtain ⟨b, hb⟩ := Option.isSome_iff_exists.mp hc
    cases b with
    | false => exact hb
    | true =>
        obtain ⟨r, hr, -⟩ := hs.executed t hb
        simp [hnew] at hr
  · rfl
  · subst ht
    exact StorageMap.get_insert_self _ _ _
  · exact StorageMap.get_insert_of_ne _ ht _

omit [LinearOrder AccountId] in
lemma addMigrationTx_frame (p : Registration AccountId) (txid : H256) :
    (p.addMigrationTx txid).serviceState = p.serviceState ∧
      (p.addMigrationTx txid).currentRound = p.currentRound ∧
      (p.addMigrationTx txid).systemVault = p.systemVault := by
  rw [Registration.addMigrationTx]
  split_ifs <;> exact ⟨rfl, rfl, rfl⟩

omit [LinearOrder AccountId] in
/-- A request of the migration comes in. -/
lemma Bridge.MigrationInv.add (hs : s.MigrationInv) {txid : H256} {r : PsbtRequest AccountId}
    (htransfer : s.pool.serviceState = .utxoTransfer) (hnew : s.docket.IsNew txid)
    (htype : r.requestType = .migration) (hp : s'.pool = s.pool.addMigrationTx txid)
    (h : s'.docket = { s.docket with pending := s.docket.pending.insert txid r }) :
    s'.MigrationInv := by
  obtain ⟨hserv, hround, hvaults⟩ := addMigrationTx_frame s.pool txid
  have hq := hs.quiet (by simp [htransfer])
  have hget := hs.add_get hnew.executed
  refine ⟨fun hn => ?_, fun _ => ⟨?_, ?_, ?_⟩, fun t ht => ?_, fun _ => ?_⟩
  · simp [hp, hserv, htransfer] at hn
  · intro t r' hw
    rw [hp, hget t, h]
    rw [h] at hw
    by_cases ht : t = txid
    · subst ht
      have hr' : r' = r := by
        rcases hw with hw | hw
        · simpa [eq_comm] using hw
        · simp [hnew.finalized] at hw
      subst hr'
      exact ⟨htype, by simp, hnew.executed⟩
    · have hw : s.docket.Waits t r' := by
        simpa [Docket.Waits, StorageMap.get_insert_of_ne _ ht] using hw
      simpa [ht] using hq.waits t r' hw
  · intro t
    rw [h]
    by_cases ht : t = txid
    · subst ht
      exact .inr hnew.finalized
    · simpa [StorageMap.get_insert_of_ne _ ht] using hq.apart t
  · rw [h]
    exact hq.rollback
  · rw [hp, hget t] at ht
    rw [h]
    by_cases heq : t = txid
    · simp [heq] at ht
    · rw [if_neg heq] at ht
      exact hs.executed t ht
  · rw [hp, Registration.getSystemVault, hvaults, hround]
    exact hs.vault htransfer

omit [LinearOrder AccountId] in
/-- An executed request of the migration is taken back. -/
lemma Bridge.MigrationInv.takeBack (hs : s.MigrationInv) {txid : H256} {r : PsbtRequest AccountId}
    (htransfer : s.pool.serviceState = .utxoTransfer) (hr : s.docket.executed.get txid = some r)
    (hp : s'.pool = s.pool.removeMigrationTx txid)
    (h : s'.docket = { s.docket with executed := s.docket.executed.remove txid }) :
    s'.MigrationInv := by
  have hq := hs.quiet (by simp [htransfer])
  refine ⟨fun hn => ?_, fun _ => ⟨?_, ?_, ?_⟩, fun t ht => ?_, fun _ => ?_⟩
  · simp [hp, Registration.removeMigrationTx, htransfer] at hn
  · intro t r' hw
    rw [h] at hw ⊢
    obtain ⟨htype, hfalse, hnone⟩ := hq.waits t r' hw
    have hne : t ≠ txid := by
      rintro rfl
      simp [hr] at hnone
    rw [hp]
    simp [Registration.removeMigrationTx, StorageMap.get_remove_of_ne _ hne, htype, hfalse, hnone]
  · rw [h]
    exact hq.apart
  · rw [h]
    exact hq.rollback
  · rw [hp] at ht
    have hne : t ≠ txid := by
      rintro rfl
      simp [Registration.removeMigrationTx] at ht
    rw [h]
    simp only [Registration.removeMigrationTx, StorageMap.get_remove_of_ne _ hne] at ht ⊢
    exact hs.executed t ht
  · rw [hp]
    exact hs.vault htransfer

omit [LinearOrder AccountId] in
/-- A request is executed. -/
lemma Bridge.MigrationInv.execute (hs : s.MigrationInv) {txid : H256} {r : PsbtRequest AccountId}
    (hr : s.docket.finalized.get txid = some r)
    (hp : s'.pool = if r.requestType = .migration then s.pool.executeMigrationTx txid else s.pool)
    (h : s'.docket = { s.docket with
      finalized := s.docket.finalized.remove txid
      executed := s.docket.executed.insert txid r }) : s'.MigrationInv := by
  by_cases hnormal : s.pool.serviceState = .normal
  · have hpool : s'.pool = s.pool := by
      rw [hp]
      simp [Registration.executeMigrationTx, StorageMap.contains, hs.idle hnormal txid]
    exact hs.of_normal hnormal (.of_eq hpool)
  have hq := hs.quiet hnormal
  obtain ⟨htype, hfalse, hnone⟩ := hq.waits txid r (.inr hr)
  have hpending : s.docket.pending.get txid = none := (hq.apart txid).resolve_right (by simp [hr])
  have hpool : s'.pool = { s.pool with
      ongoingVaultMigration := s.pool.ongoingVaultMigration.insert txid true } := by
    rw [hp]
    simp [htype, Registration.executeMigrationTx, StorageMap.contains, hfalse]
  refine ⟨fun hn => ?_, fun _ => ⟨?_, ?_, ?_⟩, fun t ht => ?_, fun ht => ?_⟩
  · rw [hpool] at hn
    exact absurd hn hnormal
  · intro t r' hw
    rw [h] at hw ⊢
    have hne : t ≠ txid := by
      rintro rfl
      simp [Docket.Waits, hpending] at hw
    have hw : s.docket.Waits t r' := by
      simpa [Docket.Waits, StorageMap.get_remove_of_ne _ hne] using hw
    rw [hpool]
    simpa [StorageMap.get_insert_of_ne _ hne] using hq.waits t r' hw
  · intro t
    rw [h]
    by_cases ht : t = txid
    · subst ht
      exact .inl hpending
    · simpa [StorageMap.get_remove_of_ne _ ht] using hq.apart t
  · rw [h]
    exact hq.rollback
  · rw [h]
    by_cases heq : t = txid
    · subst heq
      exact ⟨r, StorageMap.get_insert_self _ _ _, htype⟩
    · rw [hpool] at ht
      simp only [StorageMap.get_insert_of_ne _ heq] at ht ⊢
      exact hs.executed t ht
  · rw [hpool] at ht ⊢
    exact hs.vault ht

/-- **Step lemma.**  Every move of the docket keeps the invariant of the migration. -/
lemma Bridge.MigrationInv.move (hs : s.MigrationInv) (hm : DocketMove host s i s') :
    s'.MigrationInv := by
  cases hm with
  | pool v j k hi hseen hstep h => exact hs.pool_move (Pool.Registration.step_phase hseen hstep) h
  | kept hp h => exact hs.of_quiet hp (by rw [h]) fun _ hq => hq.of_eq h hp.ongoing
  | built v psbt messages selected hi hplan hnormal hp h => exact hs.of_normal hnormal hp
  | added txid r hnormal hnew htype hroll hp h => exact hs.of_normal hnormal hp
  | requested txid rb hnormal hnew hroll hbond happr hp h => exact hs.of_normal hnormal hp
  | dropped v txid rb hi hnormal hrb happr hunlock hp h => exact hs.of_normal hnormal hp
  | bumped old new r r' hnormal hr htype htype' hnew hroll hp h => exact hs.of_normal hnormal hp
  | rebonded old new r rb raw messages hnormal hr htype hne hnew hroll hrb hp h =>
      exact hs.of_normal hnormal hp
  | migrated txid r htransfer hnew htype hp h => exact hs.add htransfer hnew htype hp h
  | signed txid r r' hr hsame hp h =>
      refine hs.of_quiet hp (by rw [h]) fun _ hq => ⟨?_, ?_, ?_⟩
      · intro t q hw
        rw [h] at hw ⊢
        rw [hp.ongoing]
        by_cases ht : t = txid
        · subst ht
          obtain ⟨htype, hrest⟩ := hq.waits t r (.inl hr)
          refine ⟨?_, hrest⟩
          rcases hw with hw | hw
          · have hq' : r' = q := by simpa using hw
            rw [← hq', hsame.requestType, htype]
          · exact (hq.waits t q (.inr hw)).1
        · have hw : s.docket.Waits t q := by
            simpa [Docket.Waits, StorageMap.get_insert_of_ne _ ht] using hw
          exact hq.waits t q hw
      · intro t
        rw [h]
        by_cases ht : t = txid
        · subst ht
          exact .inr ((hq.apart t).resolve_left (by simp [hr]))
        · simpa [StorageMap.get_insert_of_ne _ ht] using hq.apart t
      · rw [h]
        exact hq.rollback
  | finalized txid r r' hr hsame hp h =>
      refine hs.of_quiet hp (by rw [h]) fun _ hq => ⟨?_, ?_, ?_⟩
      · intro t q hw
        rw [h] at hw ⊢
        rw [hp.ongoing]
        by_cases ht : t = txid
        · subst ht
          obtain ⟨htype, hrest⟩ := hq.waits t r (.inl hr)
          have hq' : r' = q := by simpa [Docket.Waits] using hw
          exact ⟨by rw [← hq', hsame.requestType, htype], hrest⟩
        · have hw : s.docket.Waits t q := by
            simpa [Docket.Waits, StorageMap.get_insert_of_ne _ ht, StorageMap.get_remove_of_ne _ ht]
              using hw
          exact hq.waits t q hw
      · intro t
        rw [h]
        by_cases ht : t = txid
        · subst ht
          exact .inl (StorageMap.get_remove_self _ _)
        · simpa [StorageMap.get_insert_of_ne _ ht, StorageMap.get_remove_of_ne _ ht] using hq.apart t
      · rw [h]
        exact hq.rollback
  | executed txid r hr hp h => exact hs.execute hr hp h
  | polled txid rb votes hrb happr hp h =>
      refine hs.of_quiet hp (by rw [h]) fun _ hq => ?_
      have happr' := hq.rollback txid rb hrb
      simp [happr] at happr'
  | approved v msg rb votes hi hrb happr hmaj hp h =>
      refine hs.of_quiet hp (by rw [h]) fun _ hq => ?_
      have happr' := hq.rollback msg.txid rb hrb
      simp [happr] at happr'
  | remigrated old new r r' htransfer hr htype htype' hnew hroll hp h =>
      have hback : Bridge.MigrationInv { s with
          pool := s.pool.removeMigrationTx old
          queue := { s.queue with executedRequests := s.queue.executedRequests.remove old } } :=
        hs.takeBack htransfer hr rfl rfl
      refine hback.add htransfer ⟨hnew.pending, hnew.finalized, ?_⟩ htype' hp h
      have hne : new ≠ old := by
        rintro rfl
        simp [hnew.executed] at hr
      exact (StorageMap.get_remove_of_ne _ hne).trans hnew.executed
  | renamed old new hp h =>
      refine hs.of_quiet hp (by rw [h]) fun _ hq => ⟨?_, ?_, ?_⟩
      · intro t q hw
        rw [h] at hw ⊢
        rw [hp.ongoing]
        rcases hw with hw | hw
        · simp only [StorageMap.get_mapVals, Option.map_eq_some_iff] at hw
          obtain ⟨q', hq', rfl⟩ := hw
          exact hq.waits t q' (.inl hq')
        · exact hq.waits t q (.inr hw)
      · intro t
        rw [h]
        simpa [StorageMap.get_mapVals] using hq.apart t
      · intro t rb hrb
        rw [h] at hrb
        simp only [StorageMap.get_mapVals, Option.map_eq_some_iff] at hrb
        obtain ⟨rb', hrb', rfl⟩ := hrb
        rw [if_pos (hq.rollback t rb' hrb')]
        exact hq.rollback t rb' hrb'

/-- **Run lemma.**  The invariant of the migration holds in every run. -/
lemma BridgeIf.migrationInv (h : BridgeIf host anyStep s) : s.MigrationInv := by
  refine Reachable.invariant (P := Bridge.MigrationInv) ?_ ?_ h
  · rintro s ⟨members, authority, rfl⟩
    refine ⟨fun _ t => rfl, fun hstate => absurd rfl hstate, fun t ht => ?_, fun hstate => ?_⟩
    · simp [Bridge.genesis, Registration.genesis] at ht
    · simp [Bridge.genesis, Registration.genesis] at hstate
  · intro s i s' hs _ hstep
    exact hs.move (Bridge.step_docket hstep)

/-- A migration ends with everything executed. -/
lemma Bridge.MigrationInv.ends (hs : s.MigrationInv) (hm : DocketMove host s i s')
    (htransfer : s.pool.serviceState = .utxoTransfer) (hnormal : s'.pool.serviceState = .normal) :
    (∀ t r, ¬ s.docket.Waits t r) ∧
      (∃ t, s.pool.ongoingVaultMigration.get t = some true) ∧
      s'.pool.getSystemVault s'.pool.currentRound =
        s.pool.getSystemVault (s.pool.currentRound + 1) := by
  rcases hm.phase with hsame | ⟨v, hphase, -⟩
  · rw [htransfer, hnormal] at hsame
    cases hsame
  cases hphase with
  | kept hp =>
      have hsame := hp.serviceState
      rw [htransfer, hnormal] at hsame
      cases hsame
  | vaults hstate _ _ _ => exact absurd htransfer hstate
  | started _ hstate _ => simp [htransfer] at hstate
  | prepared hstate _ _ _ => simp [htransfer] at hstate
  | generated _ _ hstate _ _ _ _ _ => simp [htransfer] at hstate
  | ended hstate hsome hall hp =>
      refine ⟨?_, ?_, ?_⟩
      · intro t r hw
        have hfalse := (hs.quiet (by simp [htransfer])).waits t r hw
        have htrue := hall (t, false) (StorageMap.mem_toList.mpr hfalse.2.1)
        simp at htrue
      · obtain ⟨⟨t, b⟩, hmem⟩ := List.exists_mem_of_ne_nil _ hsome
        have hb : b = true := hall _ hmem
        subst hb
        exact ⟨t, StorageMap.mem_toList.mp hmem⟩
      · rw [hp]
        rfl

/-- **Quiet during a migration.**  In every run, while the service state is not normal, every request that
is pending or finalized is one of the migration and is recorded as not executed, and every rollback
request is approved.  Funds move only to a system vault that is generated.  The migration ends only when
nothing waits and something was executed, and then the round has its system vault. -/
theorem migration_quiescence (h : BridgeIf host anyStep s) :
    (s.pool.serviceState ≠ .normal →
      (∀ t r, s.queue.pendingRequests.get t = some r ∨ s.queue.finalizedRequests.get t = some r →
        r.requestType = .migration ∧ s.pool.ongoingVaultMigration.get t = some false) ∧
      ∀ t rb, s.queue.rollbackRequests.get t = some rb → rb.isApproved = true) ∧
    (s.pool.serviceState = .utxoTransfer → ∃ vault address,
      s.pool.systemVault.get (s.pool.currentRound + 1) = some vault ∧
        vault.address = .generated address) ∧
    ∀ i s', s.step host i = some s' → s.pool.serviceState = .utxoTransfer →
      s'.pool.serviceState = .normal →
        (∀ t, s.queue.pendingRequests.get t = none ∧ s.queue.finalizedRequests.get t = none) ∧
        (∃ t r, s.queue.executedRequests.get t = some r ∧ r.requestType = .migration ∧
          s.pool.ongoingVaultMigration.get t = some true) ∧
        (s'.pool.getSystemVault s'.pool.currentRound).isSome = true := by
  have hinv := h.migrationInv
  refine ⟨fun hstate => ⟨fun t r hw => ?_, (hinv.quiet hstate).rollback⟩, fun hstate => ?_, ?_⟩
  · obtain ⟨htype, hfalse, -⟩ := (hinv.quiet hstate).waits t r hw
    exact ⟨htype, hfalse⟩
  · obtain ⟨address, haddress⟩ := hinv.vault hstate
    obtain ⟨vault, hvault, hgen⟩ := Option.bind_eq_some_iff.mp haddress
    refine ⟨vault, address, hvault, ?_⟩
    cases ha : vault.address <;> simp_all [MultiSigAccount.generated]
  · intro i s' hstep htransfer hnormal
    obtain ⟨hwaits, ⟨t, ht⟩, hsystem⟩ := hinv.ends (Bridge.step_docket hstep) htransfer hnormal
    obtain ⟨r, hr, htype⟩ := hinv.executed t ht
    obtain ⟨address, haddress⟩ := hinv.vault htransfer
    refine ⟨fun t => ⟨?_, ?_⟩, ⟨t, r, hr, htype, ht⟩, by rw [hsystem, haddress]; rfl⟩
    · by_contra hsome
      obtain ⟨r, hr⟩ := Option.ne_none_iff_exists'.mp hsome
      exact hwaits t r (.inl hr)
    · by_contra hsome
      obtain ⟨r, hr⟩ := Option.ne_none_iff_exists'.mp hsome
      exact hwaits t r (.inr hr)

end Steps

/-! ## A small migration -/

/-- The small bridge, with PSBTs that pay to the vault with the keys `[50]` and `[60]`. -/
def movingHost : Host ℕ := { smallHost with
  lib := { smallHost.lib with
    deserialize
      | coin :: fee :: _ => some { smallPsbt coin fee with
          unsignedTx := { (smallPsbt coin fee).unsignedTx with
            output := [⟨1000 - fee.toNat, [1, 50, 60]⟩] } }
      | _ => none } }

/-- The next vault is generated, and the funds are moved. -/
def movingRun : List (Bridge.Step ℕ) :=
  [.queue smallView (.setAuthority .root 9),
    .pool smallView (.migrationControl regtestOutlook .root),
    .pool smallView (.migrationControl regtestOutlook .root),
    .pool smallView (.submitSystemVaultKey regtestOutlook ⟨1, 256, [50], 2⟩),
    .pool smallView (.submitSystemVaultKey regtestOutlook ⟨2, 256, [60], 2⟩),
    .queue smallView (.submitMigrationRequest .root [1, 10]),
    .queue smallView (.submitSignedPsbt ⟨1, [1, 10], [1, 10, 1]⟩),
    .queue smallView (.submitExecutedRequest ⟨9, 1990⟩)]

/-- The small migration ends. -/
theorem migration_quiescence_moving : ∃ s s' : Bridge ℕ, BridgeIf movingHost anyStep s ∧
    s.pool.serviceState = .utxoTransfer ∧
    s.step movingHost (.pool smallView (.migrationControl regtestOutlook .root)) = some s' ∧
    s'.pool.serviceState = .normal ∧ (s'.pool.getSystemVault s'.pool.currentRound).isSome = true := by
  have hrun := smallRun_exists movingHost anyStep movingRun (fun _ _ _ => trivial)
    (P := fun s => s.pool.serviceState = .utxoTransfer &&
      s.pool.ongoingVaultMigration.toList = [(1990, true)]) (by decide +kernel)
  obtain ⟨s, hs, hP⟩ := hrun
  simp only [Bool.and_eq_true, decide_eq_true_eq] at hP
  obtain ⟨htransfer, hongoing⟩ := hP
  have hcall : s.pool.migrationControl (s.outlook smallView) .root = .ok { s.pool with
      currentRound := s.pool.currentRound + 1
      serviceState := .normal
      ongoingVaultMigration := ∅ } := by
    simp [Registration.migrationControl, htransfer, hongoing, ensure_pos]
  have hstep : s.step movingHost (.pool smallView (.migrationControl regtestOutlook .root)) =
      some { s with pool := { s.pool with
        currentRound := s.pool.currentRound + 1
        serviceState := .normal
        ongoingVaultMigration := ∅ } } := by
    simp [Bridge.step, Pool.Step.seen, Registration.step, hcall, commit]
  obtain ⟨-, -, hends⟩ := migration_quiescence hs
  exact ⟨s, _, hs, htransfer, hstep, rfl, (hends _ _ hstep htransfer rfl).2.2⟩

end BifrostNode.Btc
