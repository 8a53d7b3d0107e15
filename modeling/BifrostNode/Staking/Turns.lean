import BifrostNode.Staking.StepSpec
import BifrostNode.Staking.RosterSpec

/-!
# What a step does to the roster

The standing of the candidates, the pool and the selected set change in eight ways only.  A step of
the pallet is a sequence of such turns: most are one turn, an offence report is one for each offender,
and a new round is the selection and one turn for each controller change.

The two turns that take a candidate out of the selected set carry a condition, so that a property of
runs that needs it can ask for it.
-/

namespace BifrostNode.Staking

open Transition

variable {AccountId R : Type} [LinearOrder AccountId]

/-- The selected set after `c` has been taken out of it. -/
structure Dropped (s s' : State AccountId R) (c : AccountId) (tier : TierType) (count : ℕ) :
    Prop where
  selected : s'.selection.selectedCandidates = s.selection.selectedCandidates.erase c
  full : s'.selection.selectedFullCandidates =
    if tier = .full then s.selection.selectedFullCandidates.erase c
    else s.selection.selectedFullCandidates
  basic : s'.selection.selectedBasicCandidates =
    if tier = .full then s.selection.selectedBasicCandidates
    else s.selection.selectedBasicCandidates.erase c
  majority : s'.selection.majority = count
  cachedMajority : s'.selection.cachedMajority.get s.now = some count
  cachedSelected : s'.selection.cachedSelectedCandidates.get s.now =
    some s'.selection.selectedCandidates

/-- Two lists of candidates of the pool, one for each kind. -/
structure Qualified (l : Ledger AccountId) (full basic : List AccountId) : Prop where
  pool : ∀ c ∈ full ++ basic, (l.candidatePool.get c).isSome
  full_tier : ∀ c ∈ full, ∃ x, l.standing c = some x ∧ x.2.2 = .full
  basic_tier : ∀ c ∈ basic, ∃ x, l.standing c = some x ∧ x.2.2 ≠ .full

/-- The selection of a new round, among the candidates of the pool. -/
structure Chosen (s s' : State AccountId R) (full basic : List AccountId) : Prop where
  now : s'.now = s.now + 1
  standing : ∀ c, s'.ledger.standing c = (s.ledger.standing c).map fun x =>
    (x.1, decide (c ∈ full ++ basic), x.2.2)
  qualified : Qualified s.ledger full basic
  selected : s'.selection.selectedCandidates = (full ++ basic).toFinset
  full_eq : s'.selection.selectedFullCandidates = full.toFinset
  basic_eq : s'.selection.selectedBasicCandidates = basic.toFinset
  majority : s'.selection.majority = s'.selection.computeMajority
  cachedMajority : s'.selection.cachedMajority.get s'.now = some s'.selection.majority
  cachedSelected : s'.selection.cachedSelectedCandidates.get s'.now =
    some s'.selection.selectedCandidates

/-- **Everyone is where it was selected for**: the selected set consists of candidates that are marked
as selected, and the part it is in tells the tier. -/
structure Fitting (s : State AccountId R) : Prop where
  mem_iff : ∀ c, c ∈ s.selection.selectedCandidates ↔ ∃ x, s.ledger.standing c = some x ∧ x.2.1 = true
  full_iff : ∀ c, c ∈ s.selection.selectedFullCandidates ↔
    ∃ x, s.ledger.standing c = some x ∧ x.2.1 = true ∧ x.2.2 = .full
  basic_iff : ∀ c, c ∈ s.selection.selectedBasicCandidates ↔
    ∃ x, s.ledger.standing c = some x ∧ x.2.1 = true ∧ x.2.2 ≠ .full

/-- **One turn**: what one operation does to the candidates and to who is selected. -/
inductive Turn (cfg : Config AccountId) (off kick : State AccountId R → AccountId → Prop)
    (s s' : State AccountId R) : Prop
  /-- Stakes move, or nothing at all. -/
  | stakes (hroll : OnRoll s.ledger s'.ledger) (hsel : s'.selection = s.selection)
      (hnow : s'.now = s.now)
  /-- Somebody joins. -/
  | joined {c : AccountId} {tier : TierType} (hfree : s.ledger.standing c = none)
      (hstand : s'.ledger.standing = Function.update s.ledger.standing c (some (.active, false, tier)))
      (hpool : s.ledger.PoolAgrees → s'.ledger.PoolAgrees) (hsel : s'.selection = s.selection)
      (hnow : s'.now = s.now)
  /-- A candidate changes its status or its tier, and stays selected if it is. -/
  | moved {c : AccountId} {old new : ValidatorStatus} {sel : Bool} {tier tier' : TierType}
      (hold : s.ledger.standing c = some (old, sel, tier))
      (hstand : s'.ledger.standing = Function.update s.ledger.standing c (some (new, sel, tier')))
      (hleaving : ∀ w, new = .leaving w → old = .leaving w ∨ w = s.now + cfg.leaveCandidatesDelay)
      (hpool : s.ledger.PoolAgrees → s'.ledger.PoolAgrees) (hsel : s'.selection = s.selection)
      (hnow : s'.now = s.now)
  /-- A candidate goes offline: the majority is that of the old set. -/
  | offline {c : AccountId} {sel : Bool} {tier : TierType} (hoff : off s c)
      (hold : s.ledger.standing c = some (.active, sel, tier))
      (hstand : s'.ledger.standing = Function.update s.ledger.standing c (some (.idle, false, tier)))
      (hpool : s.ledger.PoolAgrees → s'.ledger.PoolAgrees)
      (hdrop : Dropped s s' c tier s.selection.computeMajority) (hnow : s'.now = s.now)
  /-- A candidate is kicked out: the majority is that of the new set. -/
  | kicked {c : AccountId} {old : ValidatorStatus} {sel : Bool} {tier : TierType} (hkick : kick s c)
      (hold : s.ledger.standing c = some (old, sel, tier))
      (hstand : s'.ledger.standing =
        Function.update s.ledger.standing c (some (.kickedOut, false, tier)))
      (hpool : s.ledger.PoolAgrees → s'.ledger.PoolAgrees)
      (hdrop : Dropped s s' c tier s'.selection.computeMajority) (hnow : s'.now = s.now)
  /-- A candidate is gone. -/
  | left {c : AccountId} {w : ℕ} {sel : Bool} {tier : TierType}
      (hold : s.ledger.standing c = some (.leaving w, sel, tier)) (hdue : w ≤ s.now)
      (hstand : s'.ledger.standing = Function.update s.ledger.standing c none)
      (hpool : s.ledger.PoolAgrees → s'.ledger.PoolAgrees) (hsel : s'.selection = s.selection)
      (hnow : s'.now = s.now)
  /-- A round begins. -/
  | chosen {full basic : List AccountId} (hpool : s.ledger.PoolAgrees → s'.ledger.PoolAgrees)
      (hchosen : Chosen s s' full basic)
  /-- A controller changes, in the round that has just begun. -/
  | renamed {old new : AccountId} {status : ValidatorStatus} {sel : Bool} {tier : TierType}
      (hold : s.ledger.standing old = some (status, sel, tier))
      (hfree : s.ledger.standing new = none) (hfit : Fitting s)
      (hstand : ∀ k, s'.ledger.standing k = if k = new then some (status, sel, tier)
        else if k = old then none else s.ledger.standing k)
      (hpool : s.ledger.PoolAgrees → s'.ledger.PoolAgrees)
      (hsel : s'.selection = if sel then s.selection.replaceFromSelectedCandidates s.now old new tier
        else s.selection)
      (hnow : s'.now = s.now)

/-- A sequence of turns. -/
abbrev Turns (cfg : Config AccountId) (off kick : State AccountId R → AccountId → Prop) :
    State AccountId R → State AccountId R → Prop := Relation.ReflTransGen (Turn cfg off kick)

/-! ## Sets -/

namespace Selection

variable (sel : Selection AccountId) (c : AccountId) (tier : TierType)

@[simp] lemma remove_selected : (sel.removeFromSelectedCandidates c tier).selectedCandidates =
    sel.selectedCandidates.erase c := by
  simp only [removeFromSelectedCandidates]
  split_ifs <;> rfl

@[simp] lemma remove_full : (sel.removeFromSelectedCandidates c tier).selectedFullCandidates =
    if tier = .full then sel.selectedFullCandidates.erase c else sel.selectedFullCandidates := by
  simp only [removeFromSelectedCandidates]
  split_ifs <;> rfl

@[simp] lemma remove_basic : (sel.removeFromSelectedCandidates c tier).selectedBasicCandidates =
    if tier = .full then sel.selectedBasicCandidates
    else sel.selectedBasicCandidates.erase c := by
  simp only [removeFromSelectedCandidates]
  split_ifs <;> rfl

@[simp] lemma remove_majority : (sel.removeFromSelectedCandidates c tier).majority =
    sel.majority := by
  simp only [removeFromSelectedCandidates]
  split_ifs <;> rfl

@[simp] lemma remove_cachedMajority : (sel.removeFromSelectedCandidates c tier).cachedMajority =
    sel.cachedMajority := by
  simp only [removeFromSelectedCandidates]
  split_ifs <;> rfl

@[simp] lemma remove_cachedSelected :
    (sel.removeFromSelectedCandidates c tier).cachedSelectedCandidates =
      sel.cachedSelectedCandidates := by
  simp only [removeFromSelectedCandidates]
  split_ifs <;> rfl

@[simp] lemma replace_selected (now : ℕ) (new : AccountId) :
    (sel.replaceFromSelectedCandidates now c new tier).selectedCandidates =
      insert new (sel.selectedCandidates.erase c) := by
  simp only [replaceFromSelectedCandidates, addToSelectedCandidates,
    refreshLatestCachedSelectedCandidates]
  split_ifs <;> exact congrArg (insert new) (sel.remove_selected c tier)

@[simp] lemma replace_full (now : ℕ) (new : AccountId) :
    (sel.replaceFromSelectedCandidates now c new tier).selectedFullCandidates =
      if tier = .full then insert new (sel.selectedFullCandidates.erase c)
      else sel.selectedFullCandidates := by
  simp only [replaceFromSelectedCandidates, addToSelectedCandidates,
    refreshLatestCachedSelectedCandidates]
  split_ifs with htier
  · exact congrArg (insert new) ((sel.remove_full c tier).trans (if_pos htier))
  · exact (sel.remove_full c tier).trans (if_neg htier)

@[simp] lemma replace_basic (now : ℕ) (new : AccountId) :
    (sel.replaceFromSelectedCandidates now c new tier).selectedBasicCandidates =
      if tier = .full then sel.selectedBasicCandidates
      else insert new (sel.selectedBasicCandidates.erase c) := by
  simp only [replaceFromSelectedCandidates, addToSelectedCandidates,
    refreshLatestCachedSelectedCandidates]
  split_ifs with htier
  · exact (sel.remove_basic c tier).trans (if_pos htier)
  · exact congrArg (insert new) ((sel.remove_basic c tier).trans (if_neg htier))

/-- The majority does not depend on names. -/
@[simp] lemma replace_majority (now : ℕ) (new : AccountId) :
    (sel.replaceFromSelectedCandidates now c new tier).majority = sel.majority ∧
      (sel.replaceFromSelectedCandidates now c new tier).cachedMajority = sel.cachedMajority := by
  simp only [replaceFromSelectedCandidates, addToSelectedCandidates,
    refreshLatestCachedSelectedCandidates]
  split_ifs <;> exact ⟨sel.remove_majority c tier, sel.remove_cachedMajority c tier⟩

@[simp] lemma replace_cachedSelected (now : ℕ) (new : AccountId) :
    (sel.replaceFromSelectedCandidates now c new tier).cachedSelectedCandidates.get now =
      some (sel.replaceFromSelectedCandidates now c new tier).selectedCandidates :=
  StorageMap.get_insert_self _ _ _

end Selection

/-! ## Routine calls -/

/-- The calls that work on stakes, on requests, on the commissions and the controllers to come, or on
the parameters. -/
def Call.isRoutine : Call AccountId → Bool
  | .joinCandidates _ _ _ _ | .executeLeaveCandidates _ | .setValidatorTier _ _ _
  | .scheduleLeaveCandidates _ | .cancelLeaveCandidates _ | .goOnline | .goOffline => false
  | _ => true

/-- **A routine call** leaves alone who is a candidate and in what standing, and everything that turns
on rounds. -/
structure Routine (cfg : Config AccountId) (s s' : State AccountId R) : Prop where
  terms : OnTerms cfg s.ledger s'.ledger
  stashes : LedgerInv cfg s.ledger → s'.ledger.bondedStash = s.ledger.bondedStash
  selection : s'.selection = s.selection
  now : s'.now = s.now
  rewards : s'.rewards = s.rewards
  offences : s'.offences = s.offences
  relay : s'.relay = s.relay

section Routine

variable {cfg : Config AccountId} {rm : RelayManager AccountId R} {s s' : State AccountId R}
  {who : AccountId} {origin : Origin AccountId}

/-- A call on the ledger. -/
lemma Routine.onLedger {fresh exact : Prop} {r : Except Error (Ledger AccountId)}
    (hr : Returns (OnTerms cfg s.ledger) r)
    (hkeeps : ∀ l, r = .ok l → Preserves cfg fresh exact s.ledger l) (h : s.onLedger r = .ok s') :
    Routine cfg s s' := by
  cases r with
  | error e => cases h
  | ok l =>
      obtain rfl := Except.ok.inj h
      exact ⟨hr l rfl, fun hl => ((hkeeps l rfl).steady hl).stashes, rfl, rfl, rfl, rfl, rfl⟩

omit [LinearOrder AccountId] in
/-- The ledger is not touched. -/
lemma Routine.of_eq (hl : s'.ledger = s.ledger) (hsel : s'.selection = s.selection)
    (hnow : s'.now = s.now) (hrew : s'.rewards = s.rewards) (hoff : s'.offences = s.offences)
    (hrelay : s'.relay = s.relay) : Routine cfg s s' :=
  ⟨hl ▸ .refl _, fun _ => by rw [hl], hsel, hnow, hrew, hoff, hrelay⟩

omit [LinearOrder AccountId] in
lemma Idle.routine (h : Idle s s') : Routine cfg s s' :=
  .of_eq h.ledger h.selection h.now h.rewards h.offences h.relay

lemma State.setController_routine (new : AccountId) :
    Returns (Routine cfg s) (s.setController who new) :=
  .bind fun _ => .bind fun _ => .bind fun _ => .bind fun _ => .bind fun _ => .bind fun _ =>
    .bind fun _ => .pure (.of_eq rfl rfl rfl rfl rfl rfl)

lemma State.cancelControllerSet_routine :
    Returns (Routine cfg s) (s.cancelControllerSet who) :=
  .bind fun _ => .bind fun _ => .pure (.of_eq rfl rfl rfl rfl rfl rfl)

/-- **Every routine call** with a signed origin. -/
lemma State.signed_routine {call : Call AccountId} (hcall : call.isRoutine = true)
    (h : s.signed cfg rm who call = .ok s') : Routine cfg s s' := by
  cases call with
  | setController new => exact State.setController_routine new s' h
  | cancelControllerSet => exact State.cancelControllerSet_routine s' h
  | setValidatorCommission new => exact (State.setValidatorCommission_idle new s' h).routine
  | cancelValidatorCommissionSet => exact (State.cancelValidatorCommissionSet_idle s' h).routine
  | setCandidateRewardDst dst =>
      exact .onLedger (Ledger.setCandidateRewardDst_onTerms cfg dst)
        (fun _ => Ledger.setCandidateRewardDst_preserves) h
  | candidateBondMore more =>
      exact .onLedger (Ledger.candidateBondMore_onTerms cfg more)
        (fun _ => Ledger.candidateBondMore_preserves) h
  | scheduleCandidateBondLess less =>
      exact .onLedger (Ledger.scheduleCandidateBondLess_onTerms s.now less)
        (fun _ => Ledger.scheduleCandidateBondLess_preserves) h
  | executeCandidateBondLess =>
      exact .onLedger (Ledger.executeCandidateBondLess_onTerms cfg s.now)
        (fun _ => Ledger.executeCandidateBondLess_preserves) h
  | cancelCandidateBondLess =>
      exact .onLedger (Ledger.cancelCandidateBondLess_onTerms cfg)
        (fun _ => Ledger.cancelCandidateBondLess_preserves) h
  | nominate candidate amount i j =>
      exact .onLedger (Ledger.nominate_onTerms amount i j) (fun _ => Ledger.nominate_preserves) h
  | executeLeaveNominators count =>
      exact .onLedger (Ledger.executeLeaveNominators_onTerms s.now count)
        (fun _ => Ledger.executeLeaveNominators_preserves) h
  | nominatorBondMore candidate more =>
      exact .onLedger (Ledger.nominatorBondMore_onTerms more)
        (fun _ => Ledger.nominatorBondMore_preserves) h
  | executeNominationRequest candidate =>
      exact .onLedger (Ledger.executeNominationRequest_onTerms s.now)
        (fun _ => Ledger.executeNominationRequest_preserves) h
  | setNominatorRewardDst dst =>
      exact .onLedger (Ledger.setNominatorRewardDst_onTerms cfg dst)
        (fun _ => Ledger.setNominatorRewardDst_preserves) h
  | scheduleLeaveNominators =>
      exact .onLedger (Ledger.scheduleLeaveNominators_onTerms cfg s.now)
        (fun _ => Ledger.scheduleLeaveNominators_preserves) h
  | cancelLeaveNominators =>
      exact .onLedger (Ledger.cancelLeaveNominators_onTerms cfg)
        (fun _ => Ledger.cancelLeaveNominators_preserves) h
  | scheduleRevokeNomination validator =>
      exact .onLedger (Ledger.scheduleRevokeNomination_onTerms s.now)
        (fun _ => Ledger.scheduleRevokeNomination_preserves) h
  | scheduleNominatorBondLess candidate less =>
      exact .onLedger (Ledger.scheduleNominatorBondLess_onTerms s.now less)
        (fun _ => Ledger.scheduleNominatorBondLess_preserves) h
  | cancelNominationRequest candidate =>
      exact .onLedger (Ledger.cancelNominationRequest_onTerms cfg)
        (fun _ => Ledger.cancelNominationRequest_preserves) h
  | joinCandidates controller relayer bond count => cases hcall
  | executeLeaveCandidates count => cases hcall
  | setValidatorTier more new relayer => cases hcall
  | scheduleLeaveCandidates count => cases hcall
  | cancelLeaveCandidates count => cases hcall
  | goOnline => cases hcall
  | goOffline => cases hcall
  | _ => cases h

/-- Every call but those about candidates is routine. -/
lemma State.dispatch_routine {call : Call AccountId} (hcall : call.isRoutine = true)
    (h : s.dispatch cfg rm origin call = .ok s') : Routine cfg s s' := by
  cases call with
  | setStakingExpectations x => exact (State.setStakingExpectations_idle x _ h).routine
  | setInflation x => exact (State.setInflation_idle x _ h).routine
  | setMaxFullSelected x => exact (State.setMaxFullSelected_idle x _ h).routine
  | setMaxBasicSelected x => exact (State.setMaxBasicSelected_idle x _ h).routine
  | setDefaultValidatorCommission x tier =>
      exact (State.setDefaultValidatorCommission_idle x tier _ h).routine
  | setMaxValidatorCommission x tier =>
      exact (State.setMaxValidatorCommission_idle x tier _ h).routine
  | setBlocksPerRound x => exact (State.setBlocksPerRound_idle x _ h).routine
  | setStorageCacheLifetime x => exact (State.setStorageCacheLifetime_idle x _ h).routine
  | _ =>
      obtain ⟨who, -, hsigned⟩ := bind_eq_ok.mp h
      exact State.signed_routine hcall hsigned

/-- The calls that are not routine need a signed origin. -/
lemma State.signed_of_dispatch {call : Call AccountId} (h : s.dispatch cfg rm origin call = .ok s')
    (hcall : call.isRoutine = false) :
    ∃ who, origin = .signed who ∧ s.signed cfg rm who call = .ok s' := by
  cases call with
  | joinCandidates _ _ _ _ | executeLeaveCandidates _ | setValidatorTier _ _ _
  | scheduleLeaveCandidates _ | cancelLeaveCandidates _ | goOnline | goOffline =>
      obtain ⟨who, hwho, hsigned⟩ := bind_eq_ok.mp h
      exact ⟨who, ensureSigned_eq_ok hwho, hsigned⟩
  | _ => cases hcall

end Routine

/-! ## Calls -/

section Calls

variable {cfg : Config AccountId} {rm : RelayManager AccountId R} {s s' : State AccountId R}
  {off kick : State AccountId R → AccountId → Prop} {who : AccountId} {origin : Origin AccountId}

/-- A record is put in. -/
lemma Ledger.standing_insert {l : Ledger AccountId} {c : AccountId}
    {m : CandidateMetadata AccountId} {info : StorageMap AccountId (CandidateMetadata AccountId)}
    (h : info = l.candidateInfo.insert c m) :
    (fun k => (info.get k).map CandidateMetadata.standing) =
      Function.update l.standing c (some m.standing) := by
  funext k
  simp only [h, StorageMap.get_insert, Function.update_apply, Ledger.standing]
  split_ifs <;> rfl

/-- A record and its entry in the pool are rewritten together. -/
lemma Ledger.PoolAgrees.put {l l' : Ledger AccountId} {c : AccountId}
    {m : CandidateMetadata AccountId} (h : l.PoolAgrees)
    (hinfo : l'.candidateInfo = l.candidateInfo.insert c m)
    (hother : ∀ k, k ≠ c → l'.candidatePool.get k = l.candidatePool.get k)
    (hself : l'.candidatePool.get c = m.entry) : l'.PoolAgrees := by
  intro k
  rw [hinfo, StorageMap.get_insert]
  split_ifs with hk
  · rw [hk, hself, Option.bind_some]
  · rw [hother k hk]
    exact h k

/-- Who joins is active and not selected. -/
lemma State.joinCandidates_joins {controller : AccountId} {relayer : Option AccountId}
    {bond count : ℕ} (h : s.joinCandidates cfg rm who controller relayer bond count = .ok s') :
    ∃ tier, s.ledger.standing controller = none ∧
      s'.ledger.standing = Function.update s.ledger.standing controller (some (.active, false, tier)) ∧
      (s.ledger.PoolAgrees → s'.ledger.PoolAgrees) ∧ s'.selection = s.selection ∧
      s'.now = s.now := by
  simp only [State.joinCandidates, Ledger.join, Ledger.tryInsertPool, bind_eq_ok, ensure_eq_ok,
    pure_eq_ok, exists_const] at h
  obtain ⟨-, hfree, -, -, -, -, -, currency, -, relay, -, l, ⟨l₁, ⟨-, rfl⟩, rfl⟩, rfl⟩ := h
  refine ⟨_, ?_, Ledger.standing_insert rfl,
    fun hpool => hpool.put (c := controller) rfl (fun k hk => ?_) ?_, rfl, rfl⟩
  · rw [Ledger.standing, Option.isNone_iff_eq_none.mp hfree, Option.map_none]
  · exact StorageMap.get_insert_of_ne _ hk _
  · exact StorageMap.get_insert_self _ _ _

lemma State.joinCandidates_turn {controller : AccountId} {relayer : Option AccountId}
    {bond count : ℕ} (h : s.joinCandidates cfg rm who controller relayer bond count = .ok s') :
    Turn cfg off kick s s' := by
  obtain ⟨tier, hfree, hstand, hpool, hsel, hnow⟩ := State.joinCandidates_joins h
  exact .joined hfree hstand hpool hsel hnow

/-- A candidate enters or leaves the pool together with its status. -/
lemma Turn.of_status {c : AccountId} {m m' : CandidateMetadata AccountId}
    (hm : s.ledger.candidateInfo.get c = some m)
    (hinfo : s'.ledger.candidateInfo = s.ledger.candidateInfo.insert c m')
    (hother : ∀ k, k ≠ c → s'.ledger.candidatePool.get k = s.ledger.candidatePool.get k)
    (hself : s.ledger.PoolAgrees → s'.ledger.candidatePool.get c = m'.entry)
    (hkept : m'.isSelected = m.isSelected)
    (hleaving : ∀ w, m'.status = .leaving w →
      m.status = .leaving w ∨ w = s.now + cfg.leaveCandidatesDelay)
    (hsel : s'.selection = s.selection) (hnow : s'.now = s.now) : Turn cfg off kick s s' := by
  have hold : s.ledger.standing c = some (m.status, m.isSelected, m.tier) := by
    rw [Ledger.standing, hm]
    rfl
  have hstand : s'.ledger.standing =
      Function.update s.ledger.standing c (some (m'.status, m.isSelected, m'.tier)) := by
    rw [← hkept]
    exact Ledger.standing_insert hinfo
  exact .moved hold hstand hleaving (fun hpool => hpool.put hinfo hother (hself hpool)) hsel hnow

lemma State.scheduleLeaveCandidates_turn {count : ℕ}
    (h : s.scheduleLeaveCandidates cfg who count = .ok s') : Turn cfg off kick s s' := by
  simp only [State.scheduleLeaveCandidates, Ledger.removeFromCandidatePool,
    CandidateMetadata.scheduleLeave, bind_eq_ok, okOr_eq_ok, ensure_eq_ok, pure_eq_ok,
    exists_const] at h
  obtain ⟨m, hm, -, -, -, ⟨⟩, -, m', ⟨-, -, rfl⟩, rfl⟩ := h
  refine .of_status hm rfl (fun k hk => ?_) (fun _ => ?_) rfl (fun w hw => Or.inr ?_) rfl rfl
  · exact StorageMap.get_remove_of_ne _ hk
  · exact StorageMap.get_remove_self _ _
  · exact (ValidatorStatus.leaving.inj hw).symm

lemma State.cancelLeaveCandidates_turn {count : ℕ}
    (h : s.cancelLeaveCandidates who count = .ok s') : Turn cfg off kick s s' := by
  simp only [State.cancelLeaveCandidates, Ledger.tryInsertPool, bind_eq_ok, okOr_eq_ok,
    ensure_eq_ok, pure_eq_ok, exists_const] at h
  obtain ⟨m, hm, -, -, l, ⟨-, rfl⟩, rfl⟩ := h
  refine .of_status hm rfl (fun k hk => ?_) (fun _ => ?_) rfl (fun w hw => by cases hw) rfl rfl
  · exact StorageMap.get_insert_of_ne _ hk _
  · exact StorageMap.get_insert_self _ _ _

lemma State.goOnline_turn (h : s.goOnline who = .ok s') : Turn cfg off kick s s' := by
  simp only [State.goOnline, Ledger.tryInsertPool, bind_eq_ok, okOr_eq_ok, ensure_eq_ok,
    pure_eq_ok, exists_const] at h
  obtain ⟨m, hm, -, -, l, ⟨-, rfl⟩, rfl⟩ := h
  refine .of_status hm rfl (fun k hk => ?_) (fun _ => ?_) rfl (fun w hw => by cases hw) rfl rfl
  · exact StorageMap.get_insert_of_ne _ hk _
  · exact StorageMap.get_insert_self _ _ _

/-- `go_offline` is one turn. -/
lemma State.goOffline_turn (hoff : off s who) (h : s.goOffline rm who = .ok s') :
    Turn cfg off kick s s' := by
  simp only [State.goOffline, Ledger.removeFromCandidatePool, bind_eq_ok, okOr_eq_ok, ensure_eq_ok,
    pure_eq_ok, exists_const] at h
  obtain ⟨m, hm, hactive, ⟨⟩, -, rfl⟩ := h
  have hold : s.ledger.standing who = some (.active, m.isSelected, m.tier) := by
    have hstatus : m.status = .active := of_decide_eq_true hactive
    rw [Ledger.standing, hm, ← hstatus]
    rfl
  refine .offline hoff hold (Ledger.standing_insert rfl) (fun hpool => hpool.put (c := who) rfl
    (fun k hk => ?_) ?_) ?_ rfl
  · exact StorageMap.get_remove_of_ne _ hk
  · exact StorageMap.get_remove_self _ _
  · refine ⟨?_, ?_, ?_, ?_, ?_, ?_⟩
    · exact Selection.remove_selected _ _ _
    · exact Selection.remove_full _ _ _
    · exact Selection.remove_basic _ _ _
    · exact Selection.remove_majority _ _ _
    · simp only [State.putCandidate, State.withLedger, Selection.remove_cachedMajority]
      exact StorageMap.get_insert_self _ _ _
    · simp only [State.putCandidate, State.withLedger, Selection.remove_cachedSelected,
        Selection.remove_selected]
      exact StorageMap.get_insert_self _ _ _

/-- `execute_leave_candidates` is one turn. -/
lemma State.executeLeaveCandidates_turn {count : ℕ}
    (h : s.executeLeaveCandidates rm who count = .ok s') : Turn cfg off kick s s' := by
  simp only [State.executeLeaveCandidates, bind_eq_ok, ensure_eq_ok, pure_eq_ok, exists_const,
    Prod.exists] at h
  obtain ⟨controller, m, hbd, -, ⟨⟩, hcan, l, hleave, rfl⟩ := h
  obtain ⟨-, hm⟩ := Ledger.bonded_spec hbd
  obtain ⟨hinfo, -, hpool⟩ := Ledger.executeLeave_frame hleave
  cases hstatus : m.status with
  | leaving w =>
      simp only [CandidateMetadata.canLeave, hstatus, ensure_eq_ok] at hcan
      have hold : s.ledger.standing controller = some (.leaving w, m.isSelected, m.tier) := by
        rw [Ledger.standing, hm, ← hstatus]
        rfl
      refine .left hold hcan ?_ (fun hagree k => ?_) rfl rfl
      · funext k
        simp only [Ledger.standing, hinfo, StorageMap.get_remove, Function.update_apply]
        split_ifs <;> rfl
      · have hk := hagree k
        simp only [hpool, hinfo, StorageMap.get_remove]
        split_ifs with hc
        · rw [hc, hm, Option.bind_some, CandidateMetadata.entry, CandidateMetadata.isActive,
            hstatus] at hk
          rw [hc, hk]
          rfl
        · exact hk
  | active => simp [CandidateMetadata.canLeave, hstatus] at hcan
  | idle => simp [CandidateMetadata.canLeave, hstatus] at hcan
  | kickedOut => simp [CandidateMetadata.canLeave, hstatus] at hcan

/-- What `set_validator_tier` rewrites. -/
lemma State.setValidatorTier_rewrites {more : ℕ} {new : TierType} {relayer : Option AccountId}
    (h : s.setValidatorTier cfg rm who more new relayer = .ok s') :
    ∃ controller m m', s.ledger.candidateInfo.get controller = some m ∧ m'.status = m.status ∧
      m'.isSelected = m.isSelected ∧
      s'.ledger.candidateInfo = s.ledger.candidateInfo.insert controller m' ∧
      s'.ledger.candidatePool = (s.ledger.updateActive controller m'.votingPower).candidatePool ∧
      s'.selection = s.selection ∧ s'.now = s.now := by
  simp only [State.setValidatorTier, bind_eq_ok, ensure_eq_ok, pure_eq_ok, exists_const,
    Prod.exists] at h
  obtain ⟨controller, m, hbd, -, m', l, relay, hmore, rfl⟩ := h
  have hbond := State.bondForTier_ok hmore
  simp only [CandidateMetadata.bondMore, bind_eq_ok, pure_eq_ok, Prod.mk.injEq] at hbond
  obtain ⟨currency, -, rfl, rfl⟩ := hbond
  refine ⟨controller, m, _, (Ledger.bonded_spec hbd).2, ?_, ?_,
    Ledger.updateActive_candidateInfo _ _ _, ?_, rfl, rfl⟩
  · rfl
  · rfl
  · show (Ledger.updateActive _ _ _).candidatePool = _
    simp only [Ledger.updateActive_candidatePool]
    rfl

/-- `set_validator_tier` is one turn. -/
lemma State.setValidatorTier_turn {more : ℕ} {new : TierType} {relayer : Option AccountId}
    (h : s.setValidatorTier cfg rm who more new relayer = .ok s') : Turn cfg off kick s s' := by
  obtain ⟨controller, m, m', hm, hstatus, hkept, hinfo, hpool, hsel, hnow⟩ :=
    State.setValidatorTier_rewrites h
  -- the pool follows the voting power, which does not depend on the tier
  have hfollow : Follows controller s.ledger { m with tier := m'.tier }
      (s.ledger.updateActive controller m'.votingPower) m' := by
    refine Follows.updateActive m' ?_
    rw [CandidateMetadata.standing, hstatus, hkept]
    rfl
  refine .of_status hm hinfo (fun k hk => ?_) (fun hagree => ?_) hkept
    (fun w hw => Or.inl (hstatus ▸ hw)) hsel hnow
  · rw [hpool]
    exact hfollow.other k hk
  · have hentry := hagree controller
    rw [hm] at hentry
    rw [hpool]
    exact hfollow.self hentry

lemma Routine.turn (h : Routine cfg s s') : Turn cfg off kick s s' :=
  .stakes h.terms.toOnRoll h.selection h.now

end Calls

/-! ## Hooks -/

section Hooks

variable {cfg : Config AccountId} {rm : RelayManager AccountId R} {s s' : State AccountId R}
  {off kick : State AccountId R → AccountId → Prop}

/-- A candidate is rewritten without its standing and its voting power. -/
lemma OnRoll.modifyCandidate {f : CandidateMetadata AccountId → CandidateMetadata AccountId}
    (hf : ∀ m, (f m).standing = m.standing ∧ (f m).votingPower = m.votingPower)
    (l : Ledger AccountId) (c : AccountId) : OnRoll l (l.modifyCandidate c f) := by
  rw [Ledger.modifyCandidate]
  cases hc : l.candidateInfo.get c with
  | none => exact .refl l
  | some m => exact .write hc (.of_eq rfl rfl (hf m).1 (hf m).2 : Follows c l m l (f m)) rfl rfl

lemma OnRoll.foldl_modifyCandidate {ι : Type} {who : ι → AccountId}
    {f : ι → CandidateMetadata AccountId → CandidateMetadata AccountId}
    (hf : ∀ i m, (f i m).standing = m.standing ∧ (f i m).votingPower = m.votingPower) :
    ∀ (is : List ι) (l : Ledger AccountId),
      OnRoll l (is.foldl (fun l i => l.modifyCandidate (who i) (f i)) l) := by
  intro is
  induction is with
  | nil => exact .refl
  | cons i is ih =>
      intro l
      exact (OnRoll.modifyCandidate (hf i) l (who i)).trans (ih _)

/-- `on_initialize` pays. -/
lemma State.onInitialize_turn {n : ℕ} {drained : Option AccountId} {paid : Option (AccountId × ℕ)}
    (h : s.onInitialize cfg n drained = some (paid, s')) : Turn cfg off kick s s' := by
  rcases State.onInitialize_cases h with ⟨snapshot, -, hpay⟩
  cases hpay with
  | idle => exact .stakes (.refl _) rfl rfl
  | closed => exact .stakes (.refl _) rfl rfl
  | lost => exact .stakes (.refl _) rfl rfl
  | paid _ _ _ hl => exact .stakes (Ledger.payValidator_onTerms hl).toOnRoll rfl rfl

lemma State.noteAuthor_onRoll (s : State AccountId R) (author : AccountId) :
    OnRoll s.ledger (s.noteAuthor author).ledger := by
  refine OnRoll.modifyCandidate (fun m => ?_) _ _
  exact ⟨rfl, rfl⟩

lemma State.noteAuthor_turn (author : AccountId) : Turn cfg off kick s (s.noteAuthor author) :=
  .stakes (s.noteAuthor_onRoll author) rfl rfl

/-! ### Offences -/

/-- The next offence of a validator is one too many. -/
def Offences.condemns (o : Offences AccountId) (who : AccountId) (tier : TierType) : Bool :=
  o.isOffenceActive && (o.validatorOffences.get who).any fun info =>
    o.isOffenceCountExceeds (info.offenceCount + 1) tier

lemma Offences.condemns_of_slashed {o o' : Offences AccountId} {cur cur' : Currency AccountId}
    {who stash : AccountId} {tier : TierType} {offence : Offence} {amount : ℕ}
    (h : o.tryHandleOffence cur who stash tier offence = ((true, amount), o', cur')) :
    o.condemns who tier = true := by
  simp only [Offences.tryHandleOffence, Offences.handleOffence] at h
  rw [Offences.condemns]
  split_ifs at h with hactive
  · cases hwho : o.validatorOffences.get who with
    | none => simp [hwho] at h
    | some info =>
        simp only [hwho] at h
        split_ifs at h with hexceeds
        · simp [hactive, hexceeds]
        · simp at h
  · simp at h

/-- An offender is kicked out when it is a candidate that has not been kicked out before, and the
offence is one too many. -/
def State.kicks (s : State AccountId R) (who : AccountId) : Prop :=
  ∃ m, s.ledger.candidateInfo.get who = some m ∧ m.isKickedOut = false ∧
    s.offences.condemns who m.tier = true

instance (s : State AccountId R) (who : AccountId) : Decidable (s.kicks who) :=
  inferInstanceAs (Decidable (∃ m ∈ s.ledger.candidateInfo.get who, m.isKickedOut = false ∧
    s.offences.condemns who m.tier = true))

/-- Whoever is punished is taken out of the selected set. -/
lemma State.punished_dropped (s : State AccountId R) (who : AccountId)
    (m : CandidateMetadata AccountId) (amount : ℕ) (offences : Offences AccountId)
    (currency : Currency AccountId) :
    Dropped s (s.punished cfg rm who m amount offences currency) who m.tier
      (s.punished cfg rm who m amount offences currency).selection.computeMajority := by
  refine ⟨?_, ?_, ?_, ?_, ?_, ?_⟩
  · exact Selection.remove_selected _ _ _
  · exact Selection.remove_full _ _ _
  · exact Selection.remove_basic _ _ _
  · rfl
  · exact StorageMap.get_insert_self _ _ _
  · exact StorageMap.get_insert_self _ _ _

/-- One offender is one turn. -/
lemma State.offend_turn {slashSession : ℕ} {details : AccountId × Perbill}
    (hkick : s.kicks details.1 → kick s details.1)
    (h : s.offend cfg rm slashSession details = some s') : Turn cfg off kick s s' := by
  obtain ⟨who, fraction⟩ := details
  cases State.offend_cases h with
  | ignored _ => exact .stakes (.refl _) rfl rfl
  | recorded _ _ _ => exact .stakes (.of_eq rfl rfl) rfl rfl
  | @punished m amount _ _ hm hkicked hres =>
      have hcond : s.kicks who :=
        ⟨m, hm, hkicked, Offences.condemns_of_slashed hres⟩
      obtain ⟨request, hm', -⟩ := State.slashed_eq cfg m.kickOut amount
      have hold : s.ledger.standing who = some (m.status, m.isSelected, m.tier) := by
        rw [Ledger.standing, hm]
        rfl
      have hstand : (State.slashed cfg m.kickOut amount).standing =
          (.kickedOut, false, m.tier) := by
        rw [hm']
        rfl
      have hentry : (State.slashed cfg m.kickOut amount).entry = none := by
        rw [hm']
        rfl
      refine .kicked (hkick hcond) hold ?_ (fun hpool => hpool.put (c := who)
        rfl (fun k hk => ?_) ?_) ?_ rfl
      · rw [← hstand]
        exact Ledger.standing_insert rfl
      · exact StorageMap.get_remove_of_ne _ hk
      · rw [hentry]
        exact StorageMap.get_remove_self _ _
      · exact s.punished_dropped who m amount _ _

/-- `on_offence` is a sequence of turns, one for each offender. -/
lemma State.onOffence_turns {offenders : List (AccountId × Perbill)} {slashSession : ℕ}
    (hkick : LoopIf (fun t details => t.kicks details.1 → kick t details.1)
      (State.offend cfg rm slashSession) s offenders)
    (h : s.onOffence cfg rm offenders slashSession = some s') : Turns cfg off kick s s' :=
  hkick.invariant (P := Turns cfg off kick s)
    (fun _ _ _ ht hcond hstep => ht.tail (State.offend_turn hcond hstep)) h .refl

/-! ### The selection -/

/-- Some candidates are marked as selected, and nothing else changes on the roster. -/
structure Marks (validators : List AccountId) (s s' : State AccountId R) : Prop where
  standing : ∀ c, s'.ledger.standing c = (s.ledger.standing c).map fun x =>
    (x.1, x.2.1 || decide (c ∈ validators), x.2.2)
  pool : s.ledger.PoolAgrees → s'.ledger.PoolAgrees
  selection : s'.selection = s.selection
  round : s'.round = s.round

lemma Marks.nil (s : State AccountId R) : Marks [] s s where
  standing c := by
    simp only [List.not_mem_nil, decide_false, Bool.or_false, Prod.mk.eta, Option.map_id']
  pool := id
  selection := rfl
  round := rfl

/-- The loop that takes the snapshots of the selected candidates. -/
lemma State.countSnapshot_marks {now : ℕ} :
    ∀ {validators : List AccountId} {acc acc' : (ℕ × ℕ × ℕ) × State AccountId R},
      validators.foldlM (State.countSnapshot now) acc = some acc' →
      Marks validators acc.2 acc'.2 := by
  intro validators
  induction validators with
  | nil =>
      intro acc acc' h
      obtain rfl : acc = acc' := by simpa using h
      exact .nil _
  | cons v rest ih =>
      intro acc acc' h
      rw [List.foldlM_cons] at h
      obtain ⟨acc₁, h₁, h⟩ := Option.bind_eq_some_iff.mp h
      simp only [State.countSnapshot, Option.bind_eq_bind, Option.bind_eq_some_iff,
        Option.pure_def, Option.some.injEq] at h₁
      obtain ⟨m, hm, top, -, rfl⟩ := h₁
      have hrest := ih h
      have hmark : (acc.2.selectCandidate now v m top).ledger.standing =
          Function.update acc.2.ledger.standing v (some (m.status, true, m.tier)) :=
        Ledger.standing_insert rfl
      refine ⟨fun c => ?_, fun hpool => hrest.pool ?_, hrest.selection, hrest.round⟩
      · rw [hrest.standing, hmark, Function.update_apply]
        split_ifs with hc
        · subst hc
          simp [Ledger.standing, hm, CandidateMetadata.standing]
        · simp only [List.mem_cons, hc, false_or]
      · refine hpool.put (c := v) rfl (fun k _ => rfl) ?_
        have hentry := hpool v
        rw [hm] at hentry
        exact hentry

/-- `update_top_candidates` marks those who are chosen, and selects them. -/
lemma State.updateTopCandidates_marks {now : ℕ} {full basic : List AccountId}
    {counts : ℕ × ℕ × ℕ} (h : s.updateTopCandidates rm now full basic = some (counts, s')) :
    (∀ c, s'.ledger.standing c = (s.ledger.standing c).map fun x =>
        (x.1, x.2.1 || decide (c ∈ full ++ basic), x.2.2)) ∧
      (s.ledger.PoolAgrees → s'.ledger.PoolAgrees) ∧ s'.round = s.round ∧
      s'.selection = ({ s.selection with
        selectedCandidates := (full ++ basic).toFinset
        selectedFullCandidates := full.toFinset
        selectedBasicCandidates := basic.toFinset } :
          Selection AccountId).refreshCachedSelectedCandidates s'.params.storageCacheLifetime now
        (full ++ basic).toFinset := by
  simp only [State.updateTopCandidates, Option.bind_eq_bind, Option.bind_eq_some_iff,
    Option.pure_def, Option.some.injEq, Prod.exists, Prod.mk.injEq] at h
  obtain ⟨c₁, c₂, c₃, s₁, h₁, d₁, d₂, d₃, s₂, h₂, -, rfl⟩ := h
  have hfull := State.countSnapshot_marks h₁
  have hbasic := State.countSnapshot_marks h₂
  refine ⟨fun c => ?_, fun hpool => hbasic.pool (hfull.pool hpool),
    hbasic.round.trans hfull.round, ?_⟩
  · refine (hbasic.standing c).trans ?_
    rw [hfull.standing c, Option.map_map]
    congr 1
    funext x
    simp [Bool.or_assoc]
  · have hsel : s₂.selection = s.selection := hbasic.selection.trans hfull.selection
    rw [hsel]

/-- Who is selected is in the pool, and of the right kind. -/
lemma Ledger.getTopNCandidates_qualified {l : Ledger AccountId} {full : Bool} {n least : ℕ}
    {c : AccountId} (h : c ∈ getTopNCandidates (l.qualified cfg full) n least) :
    (l.candidatePool.get c).isSome ∧
      ∃ m, l.candidateInfo.get c = some m ∧ decide (m.tier = .full) = full := by
  rw [getTopNCandidates, List.mem_insertionSort, List.mem_map] at h
  obtain ⟨b, hb, rfl⟩ := h
  have hb' := List.mem_of_mem_filter (List.mem_of_mem_take hb)
  rw [qualified, List.mem_filter] at hb'
  obtain ⟨hpool, hkind⟩ := hb'
  rw [getSortedCandidates, (RankedList.sortDesc_perm _ _).mem_iff, List.mem_map] at hpool
  obtain ⟨p, hp, rfl⟩ := hpool
  refine ⟨Option.isSome_iff_exists.mpr ⟨p.2, StorageMap.mem_toList.mp hp⟩, ?_⟩
  cases hm : l.candidateInfo.get p.1 with
  | none => simp [hm] at hkind
  | some m =>
      simp only [hm, Bool.and_eq_true, beq_iff_eq] at hkind
      exact ⟨m, rfl, hkind.1⟩

/-- `compute_top_candidates`, and of those the ones with session keys. -/
lemma State.computeTopCandidates_qualified (cfg : Config AccountId) (s : State AccountId R)
    (hasKeys : AccountId → Bool) :
    Qualified s.ledger ((s.computeTopCandidates cfg).1.filter hasKeys)
      ((s.computeTopCandidates cfg).2.filter hasKeys) := by
  have hkind : ∀ {full : Bool} {n least : ℕ} {c : AccountId},
      c ∈ (Ledger.getTopNCandidates (s.ledger.qualified cfg full) n least).filter hasKeys →
      (s.ledger.candidatePool.get c).isSome ∧
        ∃ x, s.ledger.standing c = some x ∧ decide (x.2.2 = .full) = full := by
    intro full n least c hc
    obtain ⟨hpool, m, hm, htier⟩ :=
      Ledger.getTopNCandidates_qualified (List.mem_of_mem_filter hc)
    exact ⟨hpool, m.standing, by rw [Ledger.standing, hm]; rfl, htier⟩
  refine ⟨fun c hc => ?_, fun c hc => ?_, fun c hc => ?_⟩
  · rcases List.mem_append.mp hc with hc | hc
    · exact (hkind hc).1
    · exact (hkind hc).1
  · obtain ⟨-, x, hx, htier⟩ := hkind hc
    exact ⟨x, hx, of_decide_eq_true htier⟩
  · obtain ⟨-, x, hx, htier⟩ := hkind hc
    exact ⟨x, hx, of_decide_eq_false htier⟩

omit [LinearOrder AccountId] in
lemma State.prepareStakingPayouts_ledger (cfg : Config AccountId) (s : State AccountId R) (now : ℕ) :
    (s.prepareStakingPayouts cfg now).ledger = s.ledger := by
  rw [State.prepareStakingPayouts]
  dsimp only
  split_ifs <;> rfl

omit [LinearOrder AccountId] in
lemma Ledger.standing_resetCandidateStates (l : Ledger AccountId) (c : AccountId) :
    l.resetCandidateStates.standing c = (l.standing c).map fun x => (x.1, false, x.2.2) := by
  simp only [Ledger.standing, Ledger.resetCandidateStates, StorageMap.get_mapVals, Option.map_map]
  rfl

omit [LinearOrder AccountId] in
lemma Ledger.PoolAgrees.reset {l : Ledger AccountId} (h : l.PoolAgrees) :
    l.resetCandidateStates.PoolAgrees := by
  intro c
  simp only [Ledger.resetCandidateStates, StorageMap.get_mapVals, h c, Option.bind_map]
  rfl

/-- **The selection of a new round**, up to the controller changes. -/
lemma State.selectForRound_chosen {round : RoundInfo} {full basic : List AccountId} {count : ℕ}
    {s₁ : State AccountId R} (hround : round.currentRoundIndex = s.now + 1)
    (hq : Qualified s.ledger full basic)
    (h : s.selectForRound cfg rm round full basic = some (count, s₁)) {s₃ : State AccountId R}
    (h₃ : s₃ = (s₁.startRound rm round count).handleDelayedCommissionSets
      round.currentRoundIndex) :
    (s.ledger.PoolAgrees → s₃.ledger.PoolAgrees) ∧ Chosen s s₃ full basic := by
  subst h₃
  simp only [State.selectForRound, Option.bind_eq_bind, Option.bind_eq_some_iff, Option.pure_def,
    Option.some.injEq, Prod.exists, Prod.mk.injEq] at h
  obtain ⟨validators, nominations, stake, s₂, h₂, -, rfl⟩ := h
  obtain ⟨hstand, hpool, -, hsel⟩ := State.updateTopCandidates_marks h₂
  simp only [State.prepareStakingPayouts_ledger] at hstand hpool
  have hcom : OnRoll s₂.ledger ((s₂.startRound rm round count).handleDelayedCommissionSets
      round.currentRoundIndex).ledger := by
    refine OnRoll.foldl_modifyCandidate (fun c m => ?_) _ s₂.ledger
    exact ⟨rfl, rfl⟩
  refine ⟨fun hagree => hcom.pool (hpool hagree.reset),
    hround, fun c => ?_, hq, ?_, ?_, ?_, ?_, ?_, ?_⟩
  · rw [hcom.standing, hstand c, Ledger.standing_resetCandidateStates, Option.map_map]
    congr 1
  · show s₂.selection.selectedCandidates = _
    rw [hsel]
    rfl
  · show s₂.selection.selectedFullCandidates = _
    rw [hsel]
    rfl
  · show s₂.selection.selectedBasicCandidates = _
    rw [hsel]
    rfl
  · rfl
  · exact StorageMap.get_insert_self _ _ _
  · show s₂.selection.cachedSelectedCandidates.get _ = some s₂.selection.selectedCandidates
    rw [hsel]
    exact StorageMap.get_insert_self _ _ _

/-- After the selection everyone is where it was selected for. -/
lemma Qualified.fitting {l : Ledger AccountId} {full basic : List AccountId}
    (h : Qualified l full basic)
    (hmarks : ∀ c, s'.ledger.standing c = (l.standing c).map fun x =>
      (x.1, decide (c ∈ full ++ basic), x.2.2))
    (hselected : s'.selection.selectedCandidates = (full ++ basic).toFinset)
    (hfull_eq : s'.selection.selectedFullCandidates = full.toFinset)
    (hbasic_eq : s'.selection.selectedBasicCandidates = basic.toFinset) : Fitting s' := by
  have hstand : ∀ c x, l.standing c = some x →
      s'.ledger.standing c = some (x.1, decide (c ∈ full ++ basic), x.2.2) := by
    intro c x hx
    rw [hmarks, hx]
    rfl
  have hself : ∀ {c x}, s'.ledger.standing c = some x → x.2.1 = true →
      (c ∈ full ∧ x.2.2 = .full) ∨ (c ∈ basic ∧ x.2.2 ≠ .full) := by
    intro c x hx hsel
    rw [hmarks, Option.map_eq_some_iff] at hx
    obtain ⟨y, hy, rfl⟩ := hx
    rcases List.mem_append.mp (of_decide_eq_true hsel) with hc | hc
    · obtain ⟨z, hz, htier⟩ := h.full_tier c hc
      obtain rfl := Option.some.inj (hy.symm.trans hz)
      exact Or.inl ⟨hc, htier⟩
    · obtain ⟨z, hz, htier⟩ := h.basic_tier c hc
      obtain rfl := Option.some.inj (hy.symm.trans hz)
      exact Or.inr ⟨hc, htier⟩
  have hfull : ∀ {c}, c ∈ full → ∃ x, s'.ledger.standing c = some x ∧ x.2.1 = true ∧ x.2.2 = .full := by
    intro c hc
    obtain ⟨x, hx, htier⟩ := h.full_tier c hc
    exact ⟨_, hstand c x hx, decide_eq_true (List.mem_append_left _ hc), htier⟩
  have hbasic : ∀ {c}, c ∈ basic →
      ∃ x, s'.ledger.standing c = some x ∧ x.2.1 = true ∧ x.2.2 ≠ .full := by
    intro c hc
    obtain ⟨x, hx, htier⟩ := h.basic_tier c hc
    exact ⟨_, hstand c x hx, decide_eq_true (List.mem_append_right _ hc), htier⟩
  refine ⟨fun c => ?_, fun c => ?_, fun c => ?_⟩
  · rw [hselected, List.mem_toFinset]
    constructor
    · intro hc
      rcases List.mem_append.mp hc with hc | hc
      · obtain ⟨x, hx, hsel, -⟩ := hfull hc
        exact ⟨x, hx, hsel⟩
      · obtain ⟨x, hx, hsel, -⟩ := hbasic hc
        exact ⟨x, hx, hsel⟩
    · rintro ⟨x, hx, hsel⟩
      rcases hself hx hsel with ⟨hc, -⟩ | ⟨hc, -⟩
      · exact List.mem_append_left _ hc
      · exact List.mem_append_right _ hc
  · rw [hfull_eq, List.mem_toFinset]
    refine ⟨hfull, ?_⟩
    rintro ⟨x, hx, hsel, htier⟩
    rcases hself hx hsel with ⟨hc, -⟩ | ⟨-, hne⟩
    · exact hc
    · exact absurd htier hne
  · rw [hbasic_eq, List.mem_toFinset]
    refine ⟨hbasic, ?_⟩
    rintro ⟨x, hx, hsel, htier⟩
    rcases hself hx hsel with ⟨-, hfull⟩ | ⟨hc, -⟩
    · exact absurd hfull htier
    · exact hc

lemma Chosen.fitting {full basic : List AccountId} (h : Chosen s s' full basic) : Fitting s' :=
  h.qualified.fitting h.standing h.selected h.full_eq h.basic_eq

/-! ### Controller changes -/

lemma Ledger.replaceNominatorNominations_pool (old new : AccountId) :
    ∀ (ns : List AccountId) (l : Ledger AccountId),
      (l.replaceNominatorNominations ns old new).candidatePool = l.candidatePool := by
  intro ns
  induction ns with
  | nil => exact fun _ => rfl
  | cons n ns ih =>
      intro l
      rw [replaceNominatorNominations, List.foldl_cons, ← replaceNominatorNominations, ih]
      split <;> rfl

lemma Ledger.replaceController_pool (l : Ledger AccountId) (c : DelayedControllerSet AccountId)
    (m : CandidateMetadata AccountId) :
    (l.replaceController c m).candidatePool = l.candidatePool.moveKey c.old c.new id := by
  simp only [replaceController]
  split <;> split <;> simp only [replaceNominatorNominations_pool]

/-- A set that is told by the standing follows a renamed candidate. -/
lemma mem_iff_of_renamed {P : ValidatorStatus × Bool × TierType → Prop} [DecidablePred P]
    {f f' : AccountId → Option (ValidatorStatus × Bool × TierType)} {set set' : Finset AccountId}
    {old new : AccountId} {x : ValidatorStatus × Bool × TierType}
    (hset : ∀ c, c ∈ set ↔ ∃ x, f c = some x ∧ P x) (hold : f old = some x) (hfree : f new = none)
    (hf : ∀ k, f' k = if k = new then some x else if k = old then none else f k)
    (hset' : set' = if P x then insert new (set.erase old) else set) (c : AccountId) :
    c ∈ set' ↔ ∃ x, f' c = some x ∧ P x := by
  have hne : old ≠ new := by
    rintro rfl
    rw [hold] at hfree
    cases hfree
  have hnew : new ∉ set := by
    rw [hset, hfree]
    simp
  have hx : old ∈ set ↔ P x := by
    rw [hset, hold]
    simp
  rw [hf]
  split_ifs with h₁ h₂
  · subst h₁
    rw [hset']
    split_ifs with hp
    · simp [hp]
    · simp [hp, hnew]
  · subst h₂
    rw [hset']
    split_ifs with hp
    · simp [hne]
    · simp [hp, hx]
  · rw [hset', ← hset]
    split_ifs with hp
    · simp [h₁, h₂]
    · rfl

/-- Everyone stays where it was selected for when a controller changes. -/
lemma Fitting.renamed {old new : AccountId} {status : ValidatorStatus} {sel : Bool} {tier : TierType}
    (h : Fitting s) (hold : s.ledger.standing old = some (status, sel, tier))
    (hfree : s.ledger.standing new = none)
    (hstand : ∀ k, s'.ledger.standing k = if k = new then some (status, sel, tier)
      else if k = old then none else s.ledger.standing k)
    (hsel : s'.selection = if sel then s.selection.replaceFromSelectedCandidates s.now old new tier
      else s.selection) : Fitting s' := by
  refine ⟨mem_iff_of_renamed h.mem_iff hold hfree hstand ?_,
    mem_iff_of_renamed h.full_iff hold hfree hstand ?_,
    mem_iff_of_renamed h.basic_iff hold hfree hstand ?_⟩
  · rw [hsel]
    cases sel <;> simp
  · rw [hsel]
    cases sel <;> simp
  · rw [hsel]
    cases sel <;> simp

/-- One controller change is one turn. -/
lemma State.applyControllerSet_turn {now : ℕ} {c : DelayedControllerSet AccountId}
    {m : CandidateMetadata AccountId} (hm : s.ledger.candidateInfo.get c.old = some m)
    (hfree : s.ledger.candidateInfo.get c.new = none)
    (hinfo : (s.applyControllerSet rm now c).ledger.candidateInfo =
      (s.ledger.candidateInfo.remove c.old).insert c.new m) (hfit : Fitting s) :
    Turn cfg off kick s (s.applyControllerSet rm now c) ∧
      Fitting (s.applyControllerSet rm now c) := by
  have hold : s.ledger.standing c.old = some (m.status, m.isSelected, m.tier) := by
    rw [Ledger.standing, hm]
    rfl
  have hnew : s.ledger.standing c.new = none := by
    rw [Ledger.standing, hfree]
    rfl
  have hstand : ∀ k, (s.applyControllerSet rm now c).ledger.standing k =
      if k = c.new then some (m.status, m.isSelected, m.tier)
      else if k = c.old then none else s.ledger.standing k := by
    intro k
    simp only [Ledger.standing, hinfo, StorageMap.get_insert, StorageMap.get_remove]
    split_ifs <;> rfl
  have hsel : (s.applyControllerSet rm now c).selection =
      if m.isSelected then
        s.selection.replaceFromSelectedCandidates s.now c.old c.new m.tier
      else s.selection := by
    simp only [State.applyControllerSet, hm]
  have hnow : (s.applyControllerSet rm now c).now = s.now := by
    simp only [State.applyControllerSet, hm]
    rfl
  refine ⟨.renamed hold hnew hfit hstand (fun hagree k => ?_) hsel hnow,
    hfit.renamed hold hnew hstand hsel⟩
  have hpool : (s.applyControllerSet rm now c).ledger.candidatePool =
      s.ledger.candidatePool.moveKey c.old c.new id := by
    simp only [State.applyControllerSet, hm, Ledger.replaceController_pool]
  have hpnew : s.ledger.candidatePool.get c.new = none := by
    rw [hagree, hfree]
    rfl
  rw [hpool, StorageMap.get_moveKey _ _ hpnew, hinfo, StorageMap.get_insert, StorageMap.get_remove]
  split_ifs
  · rw [hagree, hm, Option.map_id, id]
  · rfl
  · exact hagree k

/-- The controller changes of a round are a sequence of turns, one for each change. -/
lemma State.applyControllerSets_turns {now : ℕ} :
    ∀ {cs : List (DelayedControllerSet AccountId)} {s : State AccountId R},
      LedgerInv cfg s.ledger → Pending s.ledger cs → Fitting s →
      Turns cfg off kick s (cs.foldl (State.applyControllerSet rm now) s) := by
  intro cs
  induction cs with
  | nil =>
      intro s _ _ _
      exact .refl
  | cons c cs ih =>
      intro s hl hp hfit
      obtain ⟨m, top, bottom, hm, hren, hbal⟩ := State.applyControllerSet_renamed hl hp
      have hnew := hp.unused c List.mem_cons_self
      obtain ⟨hturn, hfit'⟩ := State.applyControllerSet_turn hm hnew hren.info_eq hfit
      exact .head hturn (ih (hbal.inv hl) (hp.tail hren) hfit')

/-- **The state before the controller changes of a round**, and what is to be changed in it. -/
lemma State.selectForRound_midway {now count : ℕ} {full basic : List AccountId}
    {s₁ s₃ : State AccountId R} (hs : StateInv cfg s) (hq : Qualified s.ledger full basic)
    (h₁ : s.selectForRound cfg rm (s.round.updateRound s.session now) full basic = some (count, s₁))
    (h₃ : s₃ = (s₁.startRound rm (s.round.updateRound s.session now)
      count).handleDelayedCommissionSets (s.now + 1)) :
    LedgerInv cfg s₃.ledger ∧
      Pending s₃.ledger (s₃.delayedControllerSets.getD (s.now + 1 - 1) []) ∧
      (s.ledger.PoolAgrees → s₃.ledger.PoolAgrees) ∧ Chosen s s₃ full basic := by
  have hquiet := State.selectForRound_quiet h₁ h₃
  refine ⟨hquiet.preserves.inv hs.ledger, ?_, State.selectForRound_chosen rfl hq h₁ h₃⟩
  have hsets : s₃.delayedControllerSets = s.delayedControllerSets := by
    subst h₃
    exact (State.selectForRound_prepares h₁).sets
  rw [hsets, Nat.add_sub_cancel]
  exact hs.pending.steady hquiet.steady

/-- `new_round` is a sequence of turns: the choice first, then the controller changes. -/
lemma State.newRound_turns {now : ℕ} {full basic : List AccountId} (hs : StateInv cfg s)
    (hq : Qualified s.ledger full basic) (h : s.newRound cfg rm now full basic = some s') :
    Turns cfg off kick s s' := by
  simp only [State.newRound, Option.map_eq_some_iff, Prod.exists] at h
  obtain ⟨count, s₁, h₁, rfl⟩ := h
  let s₃ : State AccountId R := (s₁.startRound rm (s.round.updateRound s.session now)
    count).handleDelayedCommissionSets (s.now + 1)
  obtain ⟨hinv, hpending, hpool, hchosen⟩ := State.selectForRound_midway hs hq h₁ rfl
  let s₄ : State AccountId R :=
    { s₃ with delayedControllerSets := s₃.delayedControllerSets.remove (s.now + 1 - 1) }
  have hfit : Fitting s₄ :=
    ⟨hchosen.fitting.mem_iff, hchosen.fitting.full_iff, hchosen.fitting.basic_iff⟩
  have hselect : Turn cfg off kick s s₃ := .chosen hpool hchosen
  have htake : Turn cfg off kick s₃ s₄ := .stakes (.refl _) rfl rfl
  exact .head hselect (.head htake (State.applyControllerSets_turns (s := s₄) hinv hpending hfit))

/-- The first half of `new_session` leaves everyone on the roll. -/
lemma State.enterSession_onRoll (s : State AccountId R) (now newIndex : ℕ)
    (validators : List AccountId) :
    OnRoll s.ledger (s.enterSession now newIndex validators).ledger := by
  refine OnRoll.foldl_modifyCandidate (fun _ m => ?_) validators s.ledger
  split_ifs
  · exact ⟨rfl, rfl⟩
  · exact ⟨rfl, rfl⟩

/-- `new_session` is a sequence of turns, with those of `new_round` at the end of a round. -/
lemma State.newSession_turns {now newIndex : ℕ} {validators : List AccountId}
    {hasKeys : AccountId → Bool} {out : Option (List AccountId)} (hs : StateInv cfg s)
    (h : s.newSession cfg rm now newIndex validators hasKeys = some (out, s')) :
    Turns cfg off kick s s' := by
  simp only [State.newSession, State.tryNewRound, Option.bind_eq_bind, Option.bind_eq_some_iff,
    Option.pure_def, Option.some.injEq, Prod.mk.injEq] at h
  obtain ⟨s₁, h₁, -, rfl⟩ := h
  have henter : Turn cfg off kick s (s.enterSession now newIndex validators) :=
    .stakes (s.enterSession_onRoll now newIndex validators) rfl rfl
  have hround : Turns cfg off kick (s.enterSession now newIndex validators) s₁ := by
    split_ifs at h₁
    · exact State.newRound_turns ((s.enterSession_keeps now newIndex validators).inv hs)
        (State.computeTopCandidates_qualified cfg _ hasKeys) h₁
    · obtain rfl := Option.some.inj h₁
      exact .refl
  exact .head henter (hround.tail (.stakes (.refl _) rfl rfl))

end Hooks

/-! ## Steps -/

section Steps

variable {cfg : Config AccountId} {rm : RelayManager AccountId R} {s s' : State AccountId R}
  {off kick : State AccountId R → AccountId → Prop}

/-- Whoever goes offline in the step meets `off`, and whoever is kicked out in it meets `kick`. -/
def Step.Drops (cfg : Config AccountId) (rm : RelayManager AccountId R)
    (off kick : State AccountId R → AccountId → Prop) (s : State AccountId R) :
    Step AccountId R → Prop
  | .call (.signed c) .goOffline => off s c
  | .onOffence offenders slashSession =>
      LoopIf (fun t details => t.kicks details.1 → kick t details.1)
        (State.offend cfg rm slashSession) s offenders
  | _ => True

/-- A call is one turn. -/
lemma State.dispatch_turn {origin : Origin AccountId} {call : Call AccountId}
    (hcond : (Step.call origin call : Step AccountId R).Drops cfg rm off kick s)
    (h : s.dispatch cfg rm origin call = .ok s') : Turn cfg off kick s s' := by
  have hsigned := State.signed_of_dispatch h
  cases call with
  | joinCandidates controller relayer bond count =>
      obtain ⟨who, -, hcall⟩ := hsigned rfl
      exact State.joinCandidates_turn hcall
  | executeLeaveCandidates count =>
      obtain ⟨who, -, hcall⟩ := hsigned rfl
      exact State.executeLeaveCandidates_turn hcall
  | setValidatorTier more new relayer =>
      obtain ⟨who, -, hcall⟩ := hsigned rfl
      exact State.setValidatorTier_turn hcall
  | scheduleLeaveCandidates count =>
      obtain ⟨who, -, hcall⟩ := hsigned rfl
      exact State.scheduleLeaveCandidates_turn hcall
  | cancelLeaveCandidates count =>
      obtain ⟨who, -, hcall⟩ := hsigned rfl
      exact State.cancelLeaveCandidates_turn hcall
  | goOnline =>
      obtain ⟨who, -, hcall⟩ := hsigned rfl
      exact State.goOnline_turn hcall
  | goOffline =>
      obtain ⟨who, rfl, hcall⟩ := hsigned rfl
      exact State.goOffline_turn hcond hcall
  | _ => exact (State.dispatch_routine rfl h).turn

/-- **Every step** is a sequence of turns. -/
theorem State.step_turns {step : Step AccountId R} (hs : StateInv cfg s)
    (hcond : step.Drops cfg rm off kick s) (h : s.step cfg rm step = some s') :
    Turns cfg off kick s s' := by
  cases step with
  | call origin call =>
      obtain rfl := Option.some.inj h
      exact commit_induction (P := Turns cfg off kick s) .refl
        fun _ ht => .single (State.dispatch_turn hcond ht)
  | onInitialize n drained =>
      obtain ⟨⟨paid, s₁⟩, h₁, rfl⟩ := Option.map_eq_some_iff.mp h
      exact .single (State.onInitialize_turn h₁)
  | noteAuthor author =>
      obtain rfl := Option.some.inj h
      exact .single (State.noteAuthor_turn author)
  | newSession now newIndex validators hasKeys =>
      obtain ⟨⟨out, s₁⟩, h₁, rfl⟩ := Option.map_eq_some_iff.mp h
      exact State.newSession_turns hs h₁
  | onOffence offenders slashSession => exact State.onOffence_turns hcond h
  | endSession =>
      obtain rfl := Option.some.inj h
      exact .single (.stakes (.refl _) rfl rfl)
  | balances free others =>
      obtain rfl := Option.some.inj h
      exact .single (.stakes (.of_eq rfl rfl) rfl rfl)
  | relay state =>
      obtain rfl := Option.some.inj h
      exact .single (.stakes (.refl _) rfl rfl)
  | offenceSettings isOffenceActive isSlashActive expiration full basic =>
      obtain rfl := Option.some.inj h
      exact .single (.stakes (.refl _) rfl rfl)

end Steps

end BifrostNode.Staking
