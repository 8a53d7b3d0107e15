import BifrostNode.Btc.Docket

/-!
# The phases of a migration

**One step of the pool.**  `PhaseMove` says when the service state changes: the migration starts when
the queue is ready, its next vault is requested and generated, and it ends when everything that was
ongoing is executed.

**Service state.**  Outside the pool nothing changes the service state, and the pool leaves the normal
one only with a queue that has nothing left to do (`Bridge.step_serviceState`).
-/

namespace BifrostNode.Btc

open Cccp Staking Transition Pool Queue

variable {AccountId : Type} [LinearOrder AccountId]

/-- **What a step of the pool can do to the migration**: one constructor for each change of its phase. -/
inductive PhaseMove (o : Pool.Outlook AccountId) (p p' : Registration AccountId) : Prop
  | kept (h : SamePhase p p') : PhaseMove o p p'
  | vaults (hstate : p.serviceState ≠ .utxoTransfer) (hr : p'.currentRound = p.currentRound)
      (hs : p'.serviceState = p.serviceState)
      (hm : p'.ongoingVaultMigration = p.ongoingVaultMigration) : PhaseMove o p p'
  | started (hready : o.isReadyForMigrate = true) (hstate : p.serviceState = .normal)
      (h : p' = { p with serviceState := .setExecutiveMembers }) : PhaseMove o p p'
  | prepared (hstate : p.serviceState = .setExecutiveMembers)
      (hr : p'.currentRound = p.currentRound) (hs : p'.serviceState = .prepareNextSystemVault)
      (hm : p'.ongoingVaultMigration = p.ongoingVaultMigration) : PhaseMove o p p'
  | generated (vault : MultiSigAccount AccountId) (a : Bytes)
      (hstate : p.serviceState = .prepareNextSystemVault) (hr : p'.currentRound = p.currentRound)
      (hs : p'.serviceState = .utxoTransfer)
      (hm : p'.ongoingVaultMigration = p.ongoingVaultMigration)
      (hvault : p'.systemVault.get (p.currentRound + 1) = some vault)
      (ha : vault.generated = some a) : PhaseMove o p p'
  | ended (hstate : p.serviceState = .utxoTransfer) (hsome : p.ongoingVaultMigration.toList ≠ [])
      (hall : ∀ e ∈ p.ongoingVaultMigration.toList, e.2 = true)
      (h : p' = { p with
        currentRound := p.currentRound + 1
        serviceState := .normal
        ongoingVaultMigration := ∅ }) : PhaseMove o p p'

namespace Pool

variable {host : Host AccountId} {o : Pool.Outlook AccountId} {p p' : Registration AccountId}

/-- Vaults, their indexes and the keys for them may change. -/
structure SameStage (p p' : Registration AccountId) : Prop where
  currentRound : p'.currentRound = p.currentRound
  serviceState : p'.serviceState = p.serviceState
  ongoing : p'.ongoingVaultMigration = p.ongoingVaultMigration

omit [LinearOrder AccountId] in
lemma SameStage.moves (h : SameStage p p') (hstate : p.serviceState ≠ .utxoTransfer) :
    PhaseMove o p p' := .vaults hstate h.currentRound h.serviceState h.ongoing

omit [LinearOrder AccountId] in
lemma SameStage.of_normal (h : SameStage p p') (hstate : p.serviceState = .normal) :
    PhaseMove o p p' := h.moves (by simp [hstate])

/-- A bonded vault has an address. -/
lemma Registration.tryBondVaultAddress_stage {vault vault' : MultiSigAccount AccountId}
    {refundAddress : Bytes} {who : AccountId} {round : ℕ}
    (h : p.tryBondVaultAddress host o vault refundAddress who round = .ok (vault', p')) :
    SameStage p p' ∧ ∃ a, vault'.generated = some a := by
  simp only [Registration.tryBondVaultAddress, bind_eq_ok, ensure_eq_ok, pure_eq_ok, exists_const,
    Prod.exists, Prod.mk.injEq] at h
  obtain ⟨a, d, -, -, -, rfl, rfl⟩ := h
  exact ⟨⟨rfl, rfl, rfl⟩, a, rfl⟩

/-- A vault that has all its keys has an address. -/
lemma Registration.addKey_stage {vault vault' : MultiSigAccount AccountId} {authorityId : AccountId}
    {pubKey refundAddress : Bytes} {who : AccountId} {round : ℕ}
    (h : p.addKey host o vault authorityId pubKey refundAddress who round = .ok (vault', p')) :
    SameStage p p' ∧ (vault'.isKeyGenerationReady = true → ∃ a, vault'.generated = some a) := by
  simp only [Registration.addKey, bind_eq_ok, ensure_eq_ok, okOr_eq_ok, exists_const] at h
  obtain ⟨-, -, -, -, -, pubKeys, -, h⟩ := h
  split_ifs at h with hready
  · obtain ⟨hstage, ha⟩ := tryBondVaultAddress_stage h
    exact ⟨hstage, fun _ => ha⟩
  · simp only [pure_eq_ok, Prod.mk.injEq] at h
    obtain ⟨rfl, rfl⟩ := h
    exact ⟨⟨rfl, rfl, rfl⟩, fun hready' => absurd hready' hready⟩

lemma Registration.requestVault_phase {origin : Origin AccountId} {refundAddress : Bytes} :
    Returns (PhaseMove o p) (p.requestVault host o origin refundAddress) := by
  intro p' h
  simp only [Registration.requestVault, bind_eq_ok, ensure_eq_ok, pure_eq_ok, exists_const,
    Prod.exists] at h
  obtain ⟨hnormal, who, -, address, -, -, -, vault, p₁, htake, rfl⟩ := h
  obtain ⟨-, -, keys, rfl⟩ := takePreSubmitted_eq_ok htake
  refine SameStage.of_normal ?_ hnormal
  split_ifs
  · cases hbond : ({ p with preSubmittedPubKeys := keys } :
        Registration AccountId).tryBondVaultAddress host o vault address who p.currentRound with
    | error e => exact ⟨rfl, rfl, rfl⟩
    | ok q =>
        obtain ⟨vault', p₂⟩ := q
        obtain ⟨hstage, -⟩ := tryBondVaultAddress_stage hbond
        exact ⟨hstage.currentRound, hstage.serviceState, hstage.ongoing⟩
  · exact ⟨rfl, rfl, rfl⟩

omit [LinearOrder AccountId] in
lemma Registration.requestSystemVault_stage {origin : Origin AccountId} {migrationPrepare : Bool}
    (h : p.requestSystemVault o origin migrationPrepare = .ok p') :
    SameStage p p' ∧ p.serviceState ≠ .utxoTransfer := by
  simp only [Registration.requestSystemVault, bind_eq_ok, ensure_eq_ok, pure_eq_ok, exists_const] at h
  obtain ⟨-, hstate, -, rfl⟩ := h
  refine ⟨⟨rfl, rfl, rfl⟩, ?_⟩
  rcases hstate with hstate | hstate <;> simp [hstate]

lemma Registration.submitVaultKey_phase {sub : VaultKeySubmission AccountId} :
    Returns (PhaseMove o p) (p.submitVaultKey host o sub) := by
  intro p' h
  simp only [Registration.submitVaultKey, bind_eq_ok, ensure_eq_ok, okOr_eq_ok, pure_eq_ok,
    Unique.exists_iff, Prod.exists] at h
  obtain ⟨-, hnormal, -, target, -, vault, p₁, hadd, rfl⟩ := h
  obtain ⟨hstage, -⟩ := addKey_stage hadd
  exact SameStage.of_normal ⟨hstage.currentRound, hstage.serviceState, hstage.ongoing⟩ hnormal

/-- **The next vault is generated**, or the key was for the vault of this round. -/
lemma Registration.submitSystemVaultKey_phase {sub : VaultKeySubmission AccountId} :
    Returns (PhaseMove o p) (p.submitSystemVaultKey host o sub) := by
  intro p' h
  simp only [Registration.submitSystemVaultKey, bind_eq_ok, ensure_eq_ok, okOr_eq_ok, pure_eq_ok,
    Unique.exists_iff, Prod.exists] at h
  obtain ⟨-, round, hround, -, -, systemVault, -, vault, p₁, hadd, rfl⟩ := h
  obtain ⟨hstage, hgen⟩ := addKey_stage hadd
  have hstate : p.serviceState ≠ .utxoTransfer := by
    intro htransfer
    simp [systemVaultRound, htransfer] at hround
  by_cases hmove : vault.isKeyGenerationReady = true ∧ p₁.serviceState = .prepareNextSystemVault
  · obtain ⟨hready, hprepare⟩ := hmove
    obtain ⟨a, ha⟩ := hgen hready
    rw [hstage.serviceState] at hprepare
    have hnext : round = p.currentRound + 1 := by
      simpa [systemVaultRound, hprepare, eq_comm] using hround
    subst hnext
    refine .generated vault a hprepare hstage.currentRound ?_ hstage.ongoing
      (StorageMap.get_insert_self _ _ _) ha
    simp [hready, hstage.serviceState, hprepare]
  · refine SameStage.moves ⟨hstage.currentRound, ?_, hstage.ongoing⟩ hstate
    show (if vault.isKeyGenerationReady = true ∧ p₁.serviceState = .prepareNextSystemVault then
      MigrationSequence.utxoTransfer else p₁.serviceState) = p.serviceState
    rw [if_neg hmove, hstage.serviceState]

lemma Registration.clearVault_phase {origin : Origin AccountId} {vaultAddress : Bytes} :
    Returns (PhaseMove o p) (p.clearVault host origin vaultAddress) := by
  intro p' h
  simp only [Registration.clearVault, bind_eq_ok, ensure_eq_ok, okOr_eq_ok, exists_const] at h
  obtain ⟨-, hnormal, address, -, who, -, h⟩ := h
  refine SameStage.of_normal ?_ hnormal
  split_ifs at h <;> simp only [bind_eq_ok, okOr_eq_ok, pure_eq_ok] at h
  · obtain ⟨vault, -, _, rfl, rfl⟩ := h
    exact ⟨rfl, rfl, rfl⟩
  · obtain ⟨target, -, _, rfl, rfl⟩ := h
    exact ⟨rfl, rfl, rfl⟩

omit [LinearOrder AccountId] in
/-- `migration_control` starts a migration or ends it, or prepares the next vault. -/
lemma Registration.migrationControl_phase {origin : Origin AccountId} :
    Returns (PhaseMove o p) (p.migrationControl o origin) := by
  intro p' h
  simp only [Registration.migrationControl, bind_eq_ok, ensure_eq_ok, exists_const] at h
  obtain ⟨-, h⟩ := h
  split at h
  · rename_i hstate
    simp only [bind_eq_ok, ensure_eq_ok, pure_eq_ok, exists_const] at h
    exact .started h.1 hstate h.2.symm
  · rename_i hstate
    obtain ⟨hstage, -⟩ := requestSystemVault_stage h
    exact .prepared hstate hstage.currentRound hstage.serviceState hstage.ongoing
  · cases h
  · rename_i hstate
    simp only [bind_eq_ok, ensure_eq_ok, pure_eq_ok, exists_const] at h
    exact .ended hstate h.1.1 h.1.2 h.2.symm

lemma Registration.approveSetRefunds_phase {approval : SetRefundsApproval AccountId} :
    Returns (PhaseMove o p) (p.approveSetRefunds o approval) := by
  intro p' h
  have hloop : Returns (SamePhase p) (p.approveSetRefunds o approval) := by
    refine .bind fun _ => .bind fun _ => .bind fun _ => .bind fun _ => ?_
    refine Returns.foldlM (fun q e hq => ?_) (.refl p)
    intro q' hq'
    simp only [approveSetRefund, bind_eq_ok, okOr_eq_ok, ensure_eq_ok, exists_const] at hq'
    obtain ⟨pending, -, -, hq'⟩ := hq'
    split_ifs at hq' <;> simp only [bind_eq_ok, okOr_eq_ok, pure_eq_ok, exists_eq_left'] at hq'
    · subst hq'
      exact ⟨hq.currentRound, hq.serviceState, hq.ongoing, hq.nextVault⟩
    · obtain ⟨target, -, rfl⟩ := hq'
      exact ⟨hq.currentRound, hq.serviceState, hq.ongoing, hq.nextVault⟩
  exact .kept (hloop p' h)

/-- **What a step of the pool does to the migration.**  Every step is one of these changes. -/
lemma Registration.step_phase {j k : Step AccountId} (hseen : j.seen o = some k)
    (h : p.step host k = some p') : PhaseMove o p p' := by
  -- every call leaves the old state when it fails
  have hcall : ∀ {x : Except Error (Registration AccountId)}, some (commit p x) = some p' →
      Returns (PhaseMove o p) x → PhaseMove o p p' := by
    intro x heq hx
    obtain rfl := Option.some.inj heq
    exact commit_induction (P := PhaseMove o p) (.kept (.refl p)) hx
  cases j with
  | requestVault o' origin refundAddress =>
      obtain rfl := Option.some.inj hseen
      exact hcall h requestVault_phase
  | requestSystemVault o' origin prepare =>
      obtain rfl := Option.some.inj hseen
      refine hcall h fun q hq => ?_
      obtain ⟨hstage, hstate⟩ := requestSystemVault_stage hq
      exact hstage.moves hstate
  | submitVaultKey o' sub =>
      obtain rfl := Option.some.inj hseen
      exact hcall h submitVaultKey_phase
  | submitSystemVaultKey o' sub =>
      obtain rfl := Option.some.inj hseen
      exact hcall h submitSystemVaultKey_phase
  | vaultKeyPresubmission o' sub =>
      obtain rfl := Option.some.inj hseen
      exact hcall h (.bind fun _ => .bind fun _ => .bind fun _ => .bind fun _ => .bind fun _ =>
        .bind fun _ => .pure (.kept ⟨rfl, rfl, rfl, rfl⟩))
  | migrationControl o' origin =>
      obtain rfl := Option.some.inj hseen
      exact hcall h migrationControl_phase
  | approveSetRefunds o' approval =>
      obtain rfl := Option.some.inj hseen
      exact hcall h approveSetRefunds_phase
  | requestSetRefund origin new =>
      obtain rfl := Option.some.inj hseen
      exact hcall h (.bind fun _ => .bind fun _ => .bind fun _ => .bind fun _ => .bind fun _ =>
        .bind fun _ => .bind fun _ => .pure (.kept ⟨rfl, rfl, rfl, rfl⟩))
  | clearVault origin vaultAddress =>
      obtain rfl := Option.some.inj hseen
      exact hcall h clearVault_phase
  | dropPreviousRound origin round =>
      obtain rfl := Option.some.inj hseen
      refine hcall h fun q hq => ?_
      simp only [dropPreviousRound, bind_eq_ok, ensure_eq_ok, pure_eq_ok, exists_const] at hq
      obtain ⟨-, hnormal, -, rfl⟩ := hq
      exact SameStage.of_normal ⟨rfl, rfl, rfl⟩ hnormal
  | setMaxPresubmission origin max =>
      obtain rfl := Option.some.inj hseen
      exact hcall h (.bind fun _ => .bind fun _ => .pure (.kept ⟨rfl, rfl, rfl, rfl⟩))
  | setMultiSigRatio origin new =>
      obtain rfl := Option.some.inj hseen
      exact hcall h (.bind fun _ => .bind fun _ => .bind fun _ =>
        .pure (.kept ⟨rfl, rfl, rfl, rfl⟩))
  | changeMembersSorted new =>
      obtain rfl := Option.some.inj hseen
      obtain rfl := Option.some.inj h
      exact .kept ⟨rfl, rfl, rfl, rfl⟩
  | _ => cases hseen

end Pool

/-! ## The bridge -/

variable {host : Host AccountId} {s s' : Bridge AccountId} {i : Bridge.Step AccountId}

/-- Only a step of the pool changes the service state. -/
lemma DocketMove.phase (hm : DocketMove host s i s') :
    s'.pool.serviceState = s.pool.serviceState ∨
      ∃ v, PhaseMove (s.outlook v) s.pool s'.pool ∧ s'.docket = s.docket := by
  cases hm with
  | pool v j k hi hseen hstep h => exact .inr ⟨v, Pool.Registration.step_phase hseen hstep, h⟩
  | migrated txid r htransfer hnew htype hp h =>
      refine .inl ?_
      rw [hp, Pool.Registration.addMigrationTx]
      split_ifs <;> rfl
  | executed txid r hr hp h =>
      refine .inl ?_
      rw [hp]
      split_ifs
      · rw [Pool.Registration.executeMigrationTx]
        split_ifs <;> rfl
      · rfl
  | remigrated old new r r' htransfer hr htype htype' hnew hroll hp h =>
      refine .inl ?_
      rw [hp, Pool.Registration.addMigrationTx]
      split_ifs <;> rfl
  | kept hp | built _ _ _ _ _ _ _ hp | added _ _ _ _ _ _ hp | signed _ _ _ _ _ hp
  | finalized _ _ _ _ _ hp | requested _ _ _ _ _ _ _ hp | polled _ _ _ _ _ hp
  | approved _ _ _ _ _ _ _ _ hp | dropped _ _ _ _ _ _ _ _ hp | bumped _ _ _ _ _ _ _ _ _ _ hp
  | rebonded _ _ _ _ _ _ _ _ _ _ _ _ _ hp | renamed _ _ hp => exact .inl hp.serviceState

/-- **The service state** changes only by a step of the pool, which leaves the normal state only with a
queue that is ready. -/
lemma DocketMove.serviceState (hm : DocketMove host s i s') :
    s'.pool.serviceState = s.pool.serviceState ∨
      (s'.docket = s.docket ∧
        (s.pool.serviceState = .normal → s.queue.isReadyForMigrate = true)) := by
  rcases hm.phase with hsame | ⟨v, hphase, h⟩
  · exact .inl hsame
  · cases hphase with
    | kept hp => exact .inl hp.serviceState
    | vaults hstate hr hs hm => exact .inl hs
    | started hready hstate hp => exact .inr ⟨h, fun _ => hready⟩
    | prepared hstate hr hs hm => exact .inr ⟨h, fun hnormal => by simp [hnormal] at hstate⟩
    | generated vault a hstate hr hs hm hvault ha =>
        exact .inr ⟨h, fun hnormal => by simp [hnormal] at hstate⟩
    | ended hstate hsome hall hp => exact .inr ⟨h, fun hnormal => by simp [hnormal] at hstate⟩

end BifrostNode.Btc
