import BifrostNode.Staking.Safety
import BifrostNode.Staking.Turns

/-!
# Stashes and controllers

A stash account has one controller, and the controllers are the candidates.  A change of the
controller is requested in one round and applied in the next one, while candidates come and go; what
`Pending` says of the requests is enough for none of them to hit a candidate.

**No panics.**  The hooks read the record and the lists of candidates as if they were always there,
and they are.
-/

namespace BifrostNode.Staking

open Transition

variable {AccountId R : Type} [LinearOrder AccountId]

/-! ## Controller changes -/

section Changes

variable {cfg : Config AccountId} {rm : RelayManager AccountId R} {s : State AccountId R}

/-- The state in which a step calls `handle_delayed_controller_sets`. -/
def State.renaming (cfg : Config AccountId) (rm : RelayManager AccountId R)
    (s : State AccountId R) : Step AccountId R → Option (State AccountId R)
  | .newSession now newIndex sessionValidators hasKeys =>
      let s := s.enterSession now newIndex sessionValidators
      if s.round.shouldUpdate now then
        (s.selectForRound cfg rm (s.round.updateRound s.session now)
          ((s.computeTopCandidates cfg).1.filter hasKeys)
          ((s.computeTopCandidates cfg).2.filter hasKeys)).map fun (validatorCount, t) =>
            (t.startRound rm (s.round.updateRound s.session now)
              validatorCount).handleDelayedCommissionSets (s.now + 1)
      else none
  | _ => none

/-- None of the changes that `handle_delayed_controller_sets` applies overwrites a candidate: its new
account is free when its turn comes. -/
def State.NoneOverwritten (rm : RelayManager AccountId R) (s : State AccountId R) (now : ℕ) : Prop :=
  ∀ before c after, s.delayedControllerSets.getD (now - 1) [] = before ++ c :: after →
    (before.foldl (State.applyControllerSet rm now) { s with
      delayedControllerSets := s.delayedControllerSets.remove (now - 1) }).ledger.candidateInfo.get
      c.new = none

/-- The new accounts of pending changes are free, each after the changes before it. -/
lemma Pending.free_after {now : ℕ} {c : DelayedControllerSet AccountId}
    {after : List (DelayedControllerSet AccountId)} :
    ∀ {before : List (DelayedControllerSet AccountId)} {s : State AccountId R},
      LedgerInv cfg s.ledger → Pending s.ledger (before ++ c :: after) →
      (before.foldl (State.applyControllerSet rm now) s).ledger.candidateInfo.get c.new = none := by
  intro before
  induction before with
  | nil =>
      intro s _ hp
      exact hp.unused c List.mem_cons_self
  | cons b before ih =>
      intro s hl hp
      obtain ⟨m, top, bottom, hm, hren, hbal⟩ := State.applyControllerSet_renamed hl hp
      exact ih (hbal.inv hl) (hp.tail hren)

lemma StateInv.noneOverwritten {t : State AccountId R} (hs : StateInv cfg s)
    (hquiet : Quiet cfg s.ledger t.ledger)
    (hsets : t.delayedControllerSets = s.delayedControllerSets) :
    t.NoneOverwritten rm (s.now + 1) := by
  intro before c after hcs
  have hpending : Pending t.ledger (before ++ c :: after) := by
    rw [← hcs, hsets, Nat.add_sub_cancel]
    exact hs.pending.steady hquiet.steady
  exact Pending.free_after (s := { t with
    delayedControllerSets := t.delayedControllerSets.remove (s.now + 1 - 1) })
    (hquiet.preserves.inv hs.ledger) hpending

/-- What happens in a round change before the controller changes. -/
lemma State.renaming_quiet {i : Step AccountId R} {t : State AccountId R}
    (h : s.renaming cfg rm i = some t) :
    Quiet cfg s.ledger t.ledger ∧ t.delayedControllerSets = s.delayedControllerSets := by
  cases i with
  | newSession now newIndex validators hasKeys =>
      simp only [State.renaming] at h
      split_ifs at h
      rw [Option.map_eq_some_iff] at h
      obtain ⟨⟨count, s₁⟩, h₁, rfl⟩ := h
      have hprep := State.selectForRound_prepares h₁
      have henter : Quiet cfg s.ledger (s.enterSession now newIndex validators).ledger :=
        s.ledger.computeProductivity_quiet s.selection.productivityPerBlock validators
      refine ⟨(henter.trans hprep.quiet).trans ?_, hprep.sets⟩
      refine Quiet.foldl_modifyCandidate (fun c m => ?_) _ s₁.ledger
      exact ⟨rfl, rfl, rfl, rfl, rfl, rfl, rfl, rfl, rfl, fun _ h => Or.inl h, fun hlv => hlv⟩
  | _ => cases h

end Changes

/-! ## No panics -/

section Panics

variable {cfg : Config AccountId} {rm : RelayManager AccountId R} {s : State AccountId R}

/-- `refresh_total_snapshot` finds the lists of every candidate. -/
lemma LedgerInv.totalSnapshot_isSome (h : LedgerInv cfg s.ledger) : s.totalSnapshot.isSome := by
  refine foldlM_isSome (P := fun _ => True) (fun e he acc _ => ?_) trivial
  obtain ⟨top, bottom, htop, hbottom, -⟩ := h.books.board e.1 e.2 (StorageMap.mem_toList.mp he)
  exact ⟨_, by simp only [State.snapshotCandidate, htop, hbottom]; rfl, trivial⟩

/-- `collect_validator_snapshot` finds the record and the top list of every candidate. -/
lemma State.collectValidatorSnapshot_isSome (now : ℕ) {validators : List AccountId}
    (h : LedgerInv cfg s.ledger)
    (hcand : ∀ v ∈ validators, (s.ledger.candidateInfo.get v).isSome) :
    (s.collectValidatorSnapshot now validators).isSome := by
  refine foldlM_isSome (P := fun acc => LedgerInv cfg acc.2.ledger ∧
    ∀ v ∈ validators, (acc.2.ledger.candidateInfo.get v).isSome) (fun v hv acc hacc => ?_) ⟨h, hcand⟩
  obtain ⟨m, hm⟩ := Option.isSome_iff_exists.mp (hacc.2 v hv)
  obtain ⟨top, bottom, htop, -, -⟩ := hacc.1.books.board v m hm
  refine ⟨_, by simp only [State.countSnapshot, hm, htop]; rfl, ?_, fun w hw => ?_⟩
  · have hquiet : Quiet cfg acc.2.ledger (acc.2.selectCandidate now v m top).ledger :=
      Quiet.putCandidate hm
        ⟨rfl, rfl, rfl, rfl, rfl, rfl, rfl, rfl, rfl, fun _ h => Or.inl h, fun hlv => hlv⟩
    exact hquiet.preserves.inv hacc.1
  · show ((acc.2.ledger.candidateInfo.insert v (m.setIsSelected true)).get w).isSome
    rw [StorageMap.get_insert]
    split_ifs
    · rfl
    · exact hacc.2 w hw

lemma State.updateTopCandidates_isSome (now : ℕ) {full basic : List AccountId}
    (h : LedgerInv cfg s.ledger)
    (hcand : ∀ v ∈ full ++ basic, (s.ledger.candidateInfo.get v).isSome) :
    (s.updateTopCandidates rm now full basic).isSome := by
  obtain ⟨⟨⟨n₁, k₁, v₁⟩, s₁⟩, h₁⟩ := Option.isSome_iff_exists.mp
    (State.collectValidatorSnapshot_isSome now h
      fun v hv => hcand v (List.mem_append_left basic hv))
  have hprep : Prepares cfg s s₁ := State.collectValidatorSnapshot_prepares h₁
  have hcand₁ : ∀ v ∈ basic, (s₁.ledger.candidateInfo.get v).isSome := by
    intro v hv
    obtain ⟨m, hm⟩ := Option.isSome_iff_exists.mp (hcand v (List.mem_append_right full hv))
    obtain ⟨m', hm', -⟩ := hprep.quiet.steady.present v m hm
    exact Option.isSome_iff_exists.mpr ⟨m', hm'⟩
  obtain ⟨⟨⟨n₂, k₂, v₂⟩, s₂⟩, h₂⟩ := Option.isSome_iff_exists.mp
    (State.collectValidatorSnapshot_isSome now (hprep.quiet.preserves.inv h) hcand₁)
  simp [State.updateTopCandidates, h₁, h₂]

omit [LinearOrder AccountId] in
/-- The candidates of a selection have records. -/
lemma Qualified.isSome {l : Ledger AccountId} {full basic : List AccountId}
    (h : Qualified l full basic) : ∀ v ∈ full ++ basic, (l.candidateInfo.get v).isSome := by
  intro v hv
  rcases List.mem_append.mp hv with hv | hv
  · obtain ⟨x, hx, -⟩ := h.full_tier v hv
    obtain ⟨m, hm, -⟩ := Option.map_eq_some_iff.mp hx
    exact Option.isSome_iff_exists.mpr ⟨m, hm⟩
  · obtain ⟨x, hx, -⟩ := h.basic_tier v hv
    obtain ⟨m, hm, -⟩ := Option.map_eq_some_iff.mp hx
    exact Option.isSome_iff_exists.mpr ⟨m, hm⟩

/-- **`new_session`** does not panic. -/
lemma State.newSession_isSome (h : LedgerInv cfg s.ledger) (now newIndex : ℕ)
    (validators : List AccountId) (hasKeys : AccountId → Bool) :
    (s.newSession cfg rm now newIndex validators hasKeys).isSome := by
  have henter : Quiet cfg s.ledger (s.enterSession now newIndex validators).ledger :=
    s.ledger.computeProductivity_quiet s.selection.productivityPerBlock validators
  have hl := henter.preserves.inv h
  generalize hs₁ : s.enterSession now newIndex validators = s₁ at hl
  have hround : (s₁.tryNewRound cfg rm now hasKeys).isSome := by
    rw [State.tryNewRound]
    split_ifs
    · let s₂ : State AccountId R := { s₁ with
        relay := rm.handleDelayedRelayerSets (rm.refreshRound s₁.relay (s₁.now + 1)) (s₁.now + 1)
        ledger := s₁.ledger.resetCandidateStates }
      have hl₂ : LedgerInv cfg s₂.ledger := s₁.ledger.resetCandidateStates_quiet.preserves.inv hl
      have hcand := (State.computeTopCandidates_qualified cfg s₁ hasKeys).isSome
      have hsome : ((s₂.prepareStakingPayouts cfg (s₁.now + 1)).updateTopCandidates rm (s₁.now + 1)
          ((s₁.computeTopCandidates cfg).1.filter hasKeys)
          ((s₁.computeTopCandidates cfg).2.filter hasKeys)).isSome := by
        rw [← State.prepareStakingPayouts_ledger cfg s₂ (s₁.now + 1)] at hl₂
        refine State.updateTopCandidates_isSome _ hl₂ fun v hv => ?_
        rw [State.prepareStakingPayouts_ledger]
        show ((s₁.ledger.candidateInfo.mapVals _).get v).isSome
        rw [StorageMap.get_mapVals, Option.isSome_map]
        exact hcand v hv
      obtain ⟨⟨⟨n, k, v⟩, s₃⟩, h₃⟩ := Option.isSome_iff_exists.mp hsome
      have hselect : s₁.selectForRound cfg rm (s₁.round.updateRound s₁.session now)
          ((s₁.computeTopCandidates cfg).1.filter hasKeys)
          ((s₁.computeTopCandidates cfg).2.filter hasKeys) = some (n, s₃) := by
        rw [State.selectForRound]
        exact Option.bind_eq_some_iff.mpr ⟨_, h₃, rfl⟩
      rw [State.newRound, hselect]
      rfl
    · rfl
  obtain ⟨s₂, h₂⟩ := Option.isSome_iff_exists.mp hround
  simp [State.newSession, hs₁, h₂]

/-- **`on_offence`** does not panic: only candidates are punished. -/
lemma State.onOffence_isSome (s : State AccountId R) (offenders : List (AccountId × Perbill))
    (slashSession : ℕ) : (s.onOffence cfg rm offenders slashSession).isSome := by
  refine foldlM_isSome (P := fun _ => True) (fun details _ t _ => ?_) trivial
  cases hm : t.ledger.candidateInfo.get details.1 with
  | none => exact ⟨t, by simp only [State.offend, hm], trivial⟩
  | some m =>
      refine ⟨(t.offend cfg rm slashSession details).get ?_, (Option.some_get _).symm, trivial⟩
      simp only [State.offend, hm]
      split_ifs
      · rfl
      · simp [State.kickoutValidator, State.slashReservedBonds, Ledger.removeFromCandidatePool, hm,
          State.putCandidate, State.withLedger]
      · rfl

/-- **The genesis build** fails only where it asserts that an account can pay. -/
lemma GenesisConfig.build_isSome {g : GenesisConfig AccountId R} {s₁ s₂ : State AccountId R}
    (h₁ : joinAll cfg rm (g.blank cfg) 0 g.candidates = some s₁)
    (h₂ : nominateAll cfg s₁ ∅ ∅ g.nominations = some s₂) : (g.build cfg rm).isSome := by
  let p : State AccountId R := s₂.withParams { s₂.params with
    maxTotalSelected :=
      cfg.defaultMaxSelectedFullCandidates + cfg.defaultMaxSelectedBasicCandidates
    maxFullSelected := cfg.defaultMaxSelectedFullCandidates
    maxBasicSelected := cfg.defaultMaxSelectedBasicCandidates
    storageCacheLifetime := cfg.storageCacheLifetimeInRounds }
  have hl : LedgerInv cfg p.ledger := (GenesisConfig.nominated_founded h₁ h₂).inv
  have hq := State.computeTopCandidates_qualified cfg p fun _ => true
  simp only [List.filter_true] at hq
  have hsome : (p.updateTopCandidates rm 1 (p.computeTopCandidates cfg).1
      (p.computeTopCandidates cfg).2).isSome := State.updateTopCandidates_isSome 1 hl hq.isSome
  obtain ⟨⟨⟨n, k, v⟩, s₃⟩, h₃⟩ := Option.isSome_iff_exists.mp hsome
  simp only [GenesisConfig.build, h₁, h₂, Option.bind_eq_bind, Option.bind_some]
  exact Option.isSome_iff_exists.mpr ⟨_, Option.bind_eq_some_iff.mpr ⟨_, h₃, rfl⟩⟩

end Panics

/-! ## Runs -/

section Runs

variable {cfg : Config AccountId} {rm : RelayManager AccountId R} {s : State AccountId R}

/-- **Stashes and controllers correspond**, in every run: candidates and only they have lists, no
pending controller change overwrites a candidate, and the hooks find every record they expect. -/
theorem controllers_sound (h : ReachableIf cfg rm anyStep s) :
    (∀ stash c, s.ledger.bondedStash.get stash = some c ↔
      ∃ m, s.ledger.candidateInfo.get c = some m ∧ m.stash = stash) ∧
    (∀ c, ((s.ledger.topNominations.get c).isSome ↔ (s.ledger.candidateInfo.get c).isSome) ∧
      ((s.ledger.bottomNominations.get c).isSome ↔ (s.ledger.candidateInfo.get c).isSome)) ∧
    (s.NoneOverwritten rm (s.now + 1) ∧ ∀ i t, s.renaming cfg rm i = some t →
      t.NoneOverwritten rm (s.now + 1)) ∧
    s.totalSnapshot.isSome ∧
    (∀ now newIndex validators hasKeys,
      (s.newSession cfg rm now newIndex validators hasKeys).isSome) ∧
    (∀ offenders slashSession, (s.onOffence cfg rm offenders slashSession).isSome) ∧
    ∀ (g : GenesisConfig AccountId R) (s₁ s₂ : State AccountId R),
      GenesisConfig.joinAll cfg rm (g.blank cfg) 0 g.candidates = some s₁ →
      GenesisConfig.nominateAll cfg s₁ ∅ ∅ g.nominations = some s₂ → (g.build cfg rm).isSome := by
  have hs := h.inv
  refine ⟨hs.ledger.books.stash_iff, fun c => ?_, ⟨hs.noneOverwritten (.refl _) rfl, ?_⟩,
    hs.ledger.totalSnapshot_isSome, State.newSession_isSome hs.ledger, State.onOffence_isSome s,
    fun g s₁ s₂ => GenesisConfig.build_isSome⟩
  · cases hm : s.ledger.candidateInfo.get c with
    | none =>
        obtain ⟨htop, hbottom⟩ := hs.ledger.books.no_board c hm
        simp [htop, hbottom]
    | some m =>
        obtain ⟨top, bottom, htop, hbottom, -⟩ := hs.ledger.books.board c m hm
        simp [htop, hbottom]
  · intro i t ht
    obtain ⟨hquiet, hsets⟩ := State.renaming_quiet ht
    exact hs.noneOverwritten hquiet hsets

/-- Both controllers are about to change. -/
theorem controllers_sound_devnet : ∃ s : State ℕ Unit,
    ReachableIf devnet devnetRelays anyStep s ∧
    s.controllerSets.map DelayedControllerSet.new = [4, 14] ∧
    s.NoneOverwritten devnetRelays (s.now + 1) := by
  have hrun : (devnetRun [.call (.signed 1) (.setController 4),
      .call (.signed 11) (.setController 14)]).any (fun s =>
        decide (s.controllerSets.map DelayedControllerSet.new = [4, 14])) = true := by decide
  obtain ⟨s, hs, hsets⟩ := devnetRun_exists hrun
  exact ⟨s, hs, of_decide_eq_true hsets, (controllers_sound hs).2.2.1.1⟩

end Runs

end BifrostNode.Staking
