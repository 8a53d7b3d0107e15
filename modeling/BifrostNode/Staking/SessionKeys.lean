import BifrostNode.Staking.Roster

/-!
# Session keys of the validators

`new_session` hands the selected candidates to the session pallet.  At a round change it first drops the
candidates without session keys, then starts the round, and the round change still renames the
controllers that asked for it.  So a validator of the new round can have the keys of its old account
only.
-/

namespace BifrostNode.Staking

open Transition

variable {AccountId R : Type} [LinearOrder AccountId] {cfg : Config AccountId}
  {rm : RelayManager AccountId R} {s s' : State AccountId R}

/-! ## Who is selected after the controller changes -/

/-- **The selected set after one controller change** has the new account in the place of the old one. -/
lemma State.applyControllerSet_selected {now : ℕ} {c : DelayedControllerSet AccountId}
    {m : CandidateMetadata AccountId} (hm : s.ledger.candidateInfo.get c.old = some m)
    (hfit : Fitting s) (v : AccountId) :
    v ∈ (s.applyControllerSet rm now c).selection.selectedCandidates ↔
      (v ∈ s.selection.selectedCandidates ∧ v ≠ c.old) ∨
        (c.old ∈ s.selection.selectedCandidates ∧ v = c.new) := by
  have hold : c.old ∈ s.selection.selectedCandidates ↔ m.isSelected = true := by
    rw [hfit.mem_iff, Ledger.standing, hm]
    simp [CandidateMetadata.standing]
  have hsel : (s.applyControllerSet rm now c).selection =
      if m.isSelected then s.selection.replaceFromSelectedCandidates s.now c.old c.new m.tier
      else s.selection := by
    simp only [State.applyControllerSet, hm]
  rw [hsel]
  split_ifs with hmark
  · rw [Selection.replace_selected, Finset.mem_insert, Finset.mem_erase]
    simp only [hold, hmark, true_and]
    tauto
  · have hne : ∀ {v}, v ∈ s.selection.selectedCandidates → v ≠ c.old := by
      rintro v hv rfl
      exact hmark (hold.mp hv)
    simp only [hold, hmark, Bool.false_eq_true, false_and, or_false]
    exact ⟨fun hv => ⟨hv, hne hv⟩, fun hv => hv.1⟩

/-- **The selected set after the controller changes of a round.**  Nobody takes the name that another
one gives up. -/
lemma State.applyControllerSets_selected {now : ℕ} :
    ∀ {cs : List (DelayedControllerSet AccountId)} {s : State AccountId R},
      LedgerInv cfg s.ledger → Pending s.ledger cs → Fitting s → ∀ v,
      (v ∈ (cs.foldl (State.applyControllerSet rm now) s).selection.selectedCandidates ↔
        (v ∈ s.selection.selectedCandidates ∧ ∀ c ∈ cs, v ≠ c.old) ∨
          ∃ c ∈ cs, c.old ∈ s.selection.selectedCandidates ∧ v = c.new) := by
  intro cs
  induction cs with
  | nil =>
      intro s _ _ _ v
      simp
  | cons c cs ih =>
      intro s hl hp hfit v
      obtain ⟨m, top, bottom, hm, hren, hbal⟩ := State.applyControllerSet_renamed hl hp
      have hnew := hp.unused c List.mem_cons_self
      obtain ⟨-, hfit'⟩ : Turn cfg (fun _ _ => True) (fun _ _ => True) s
          (s.applyControllerSet rm now c) ∧ Fitting (s.applyControllerSet rm now c) :=
        State.applyControllerSet_turn hm hnew hren.info_eq hfit
      have hold : ∀ d ∈ cs, d.old ≠ c.old ∧ d.old ≠ c.new := by
        intro d hd
        refine ⟨fun heq => ?_, fun heq => ?_⟩
        · have hnodup := hp.olds
          rw [List.map_cons, List.nodup_cons] at hnodup
          exact hnodup.1 (heq ▸ List.mem_map_of_mem hd)
        · obtain ⟨m', hm', -⟩ := hp.staying d (List.mem_cons_of_mem _ hd)
          rw [heq, hnew] at hm'
          cases hm'
      have hkept : ∀ d ∈ cs, (d.old ∈ (s.applyControllerSet rm now c).selection.selectedCandidates ↔
          d.old ∈ s.selection.selectedCandidates) := by
        intro d hd
        rw [State.applyControllerSet_selected hm hfit]
        simp [(hold d hd).1, (hold d hd).2]
      rw [List.foldl_cons, ih (hbal.inv hl) (hp.tail hren) hfit',
        State.applyControllerSet_selected hm hfit]
      simp only [List.forall_mem_cons, List.exists_mem_cons_iff]
      constructor
      · rintro (⟨⟨hv, hne⟩ | ⟨hc, rfl⟩, hrest⟩ | ⟨d, hd, hmem, rfl⟩)
        · exact Or.inl ⟨hv, hne, hrest⟩
        · exact Or.inr (Or.inl ⟨hc, rfl⟩)
        · exact Or.inr (Or.inr ⟨d, hd, (hkept d hd).mp hmem, rfl⟩)
      · rintro (⟨hv, hne, hrest⟩ | ⟨hc, rfl⟩ | ⟨d, hd, hmem, rfl⟩)
        · exact Or.inl ⟨Or.inl ⟨hv, hne⟩, hrest⟩
        · exact Or.inl ⟨Or.inr ⟨hc, rfl⟩, fun d hd => (hold d hd).2.symm⟩
        · exact Or.inr ⟨d, hd, (hkept d hd).mpr hmem, rfl⟩

/-- **The selected set after `new_round`**: the chosen candidates, under the new names of those that
changed. -/
lemma State.newRound_selected {now : ℕ} {full basic : List AccountId} (hs : StateInv cfg s)
    (hq : Qualified s.ledger full basic) (h : s.newRound cfg rm now full basic = some s')
    (v : AccountId) :
    v ∈ s'.selection.selectedCandidates ↔
      (v ∈ full ++ basic ∧ ∀ c ∈ s.controllerSets, v ≠ c.old) ∨
        ∃ c ∈ s.controllerSets, c.old ∈ full ++ basic ∧ v = c.new := by
  simp only [State.newRound, Option.map_eq_some_iff, Prod.exists] at h
  obtain ⟨count, s₁, h₁, rfl⟩ := h
  let s₃ : State AccountId R := (s₁.startRound rm (s.round.updateRound s.session now)
    count).handleDelayedCommissionSets (s.now + 1)
  obtain ⟨hinv, hpending, -, hchosen⟩ := State.selectForRound_midway hs hq h₁ rfl
  let s₄ : State AccountId R :=
    { s₃ with delayedControllerSets := s₃.delayedControllerSets.remove (s.now + 1 - 1) }
  have hfit : Fitting s₄ :=
    ⟨hchosen.fitting.mem_iff, hchosen.fitting.full_iff, hchosen.fitting.basic_iff⟩
  have hsets : s₃.delayedControllerSets.getD (s.now + 1 - 1) [] = s.controllerSets := by
    have hprep : Prepares cfg s s₁ := State.selectForRound_prepares h₁
    have hsame : s₃.delayedControllerSets = s.delayedControllerSets := hprep.sets
    rw [hsame, Nat.add_sub_cancel]
    rfl
  have hmem : ∀ v, v ∈ s₄.selection.selectedCandidates ↔ v ∈ full ++ basic := by
    intro v
    show v ∈ s₃.selection.selectedCandidates ↔ _
    rw [hchosen.selected, List.mem_toFinset]
  show v ∈ ((s₃.delayedControllerSets.getD (s.now + 1 - 1) []).foldl
    (State.applyControllerSet rm (s.now + 1)) s₄).selection.selectedCandidates ↔ _
  rw [State.applyControllerSets_selected (s := s₄) hinv hpending hfit, hsets]
  simp only [hmem]

/-! ## Session keys -/

/-- The selection looks at the pool, and at tier and bond of its candidates. -/
lemma Ledger.qualified_congr {l l' : Ledger AccountId} (hpool : l'.candidatePool = l.candidatePool)
    (hinfo : ∀ c, (l'.candidateInfo.get c).map (fun m => (m.tier, m.bond)) =
      (l.candidateInfo.get c).map fun m => (m.tier, m.bond)) (full : Bool) :
    l'.qualified cfg full = l.qualified cfg full := by
  rw [qualified, qualified, getSortedCandidates, getSortedCandidates, hpool]
  refine List.filter_congr fun b _ => ?_
  have hb := hinfo b.owner
  cases h : l.candidateInfo.get b.owner with
  | none =>
      rw [h, Option.map_none, Option.map_eq_none_iff] at hb
      rw [hb]
  | some m =>
      rw [h, Option.map_some, Option.map_eq_some_iff] at hb
      obtain ⟨m', hm', heq⟩ := hb
      rw [Prod.mk.injEq] at heq
      simp only [hm', heq.1, heq.2]

/-- A record is rewritten without its tier and bond. -/
lemma Ledger.modifyCandidate_kept {f : CandidateMetadata AccountId → CandidateMetadata AccountId}
    (hf : ∀ m, (f m).tier = m.tier ∧ (f m).bond = m.bond) (l : Ledger AccountId) (v c : AccountId) :
    ((l.modifyCandidate v f).candidateInfo.get c).map (fun m => (m.tier, m.bond)) =
      (l.candidateInfo.get c).map fun m => (m.tier, m.bond) := by
  rw [modifyCandidate]
  cases hv : l.candidateInfo.get v with
  | none => rfl
  | some m =>
      simp only [StorageMap.get_insert]
      split_ifs with hc
      · rw [hc, hv, Option.map_some, Option.map_some, (hf m).1, (hf m).2]
      · rfl

/-- The end of a session does not change who is to be selected. -/
lemma State.computeTopCandidates_enterSession (s : State AccountId R) (now newIndex : ℕ)
    (validators : List AccountId) :
    (s.enterSession now newIndex validators).computeTopCandidates cfg =
      s.computeTopCandidates cfg := by
  have hkept : ∀ (vs : List AccountId) (l : Ledger AccountId) (p : Perbill),
      (l.computeProductivity p vs).candidatePool = l.candidatePool ∧
      ∀ c, ((l.computeProductivity p vs).candidateInfo.get c).map (fun m => (m.tier, m.bond)) =
        (l.candidateInfo.get c).map fun m => (m.tier, m.bond) := by
    intro vs
    induction vs with
    | nil => exact fun _ _ => ⟨rfl, fun _ => rfl⟩
    | cons v vs ih =>
        intro l p
        rw [Ledger.computeProductivity, List.foldl_cons, ← Ledger.computeProductivity]
        obtain ⟨hpool, hinfo⟩ := ih (l.modifyCandidate v fun state =>
          if state.productivityStatus = .idle then state.decrementProductivity p else state) p
        refine ⟨hpool.trans ?_, fun c => (hinfo c).trans ?_⟩
        · rw [Ledger.modifyCandidate]
          split <;> rfl
        · refine Ledger.modifyCandidate_kept (fun m => ?_) l v c
          split_ifs <;> exact ⟨rfl, rfl⟩
  obtain ⟨hpool, hinfo⟩ := hkept validators s.ledger s.selection.productivityPerBlock
  have hledger : ∀ full, Ledger.qualified cfg
      (s.enterSession now newIndex validators).ledger full =
      Ledger.qualified cfg s.ledger full := fun full => Ledger.qualified_congr hpool hinfo full
  simp only [State.computeTopCandidates]
  rw [hledger, hledger]
  rfl

/-- **Session keys.**  At a round change, all validators that are handed to the session pallet have
session keys exactly when every selected candidate that changes its controller in it has session keys
under the new one. -/
theorem validators_have_keys_iff {now newIndex : ℕ} {sessionValidators : List AccountId}
    {hasKeys : AccountId → Bool} {out : Option (List AccountId)}
    (h : ReachableIf cfg rm anyStep s) (hround : s.round.shouldUpdate now = true)
    (hnew : s.newSession cfg rm now newIndex sessionValidators hasKeys = some (out, s')) :
    (∀ validators, out = some validators → ∀ v ∈ validators, hasKeys v = true) ↔
      ∀ c ∈ s.controllerSets,
        c.old ∈ (s.computeTopCandidates cfg).1 ++ (s.computeTopCandidates cfg).2 →
        hasKeys c.old = true → hasKeys c.new = true := by
  simp only [State.newSession, Option.bind_eq_bind, Option.bind_eq_some_iff, Option.pure_def,
    Option.some.injEq, Prod.mk.injEq] at hnew
  obtain ⟨s₁, h₁, hout, rfl⟩ := hnew
  have hdue : (s.enterSession now newIndex sessionValidators).round.shouldUpdate now = true := hround
  rw [State.tryNewRound, if_pos hdue] at h₁
  have hinv := (s.enterSession_keeps now newIndex sessionValidators).inv h.inv
  have hq := State.computeTopCandidates_qualified cfg
    (s.enterSession now newIndex sessionValidators) hasKeys
  have hsel := State.newRound_selected hinv hq h₁
  rw [State.computeTopCandidates_enterSession, ← List.filter_append] at hsel
  simp only [List.mem_filter] at hsel
  have hall : (∀ validators, out = some validators → ∀ v ∈ validators, hasKeys v = true) ↔
      ∀ v ∈ s₁.selection.selectedCandidates, hasKeys v = true := by
    rw [← hout]
    constructor
    · intro hkeys v hv
      split_ifs at hkeys with hempty
      · have hnil := List.isEmpty_iff.mp hempty.1
        have hmem := StorageMap.mem_ascending.mpr hv
        rw [hnil] at hmem
        exact absurd hmem List.not_mem_nil
      · exact hkeys _ rfl v (StorageMap.mem_ascending.mpr hv)
    · intro hkeys validators hvs v hv
      split_ifs at hvs
      obtain rfl := Option.some.inj hvs
      exact hkeys v (StorageMap.mem_ascending.mp hv)
  rw [hall]
  constructor
  · intro hkeys c hc htop hold
    exact hkeys c.new ((hsel c.new).mpr (Or.inr ⟨c, hc, ⟨htop, hold⟩, rfl⟩))
  · intro hcond v hv
    rcases (hsel v).mp hv with ⟨⟨-, hkey⟩, -⟩ | ⟨c, hc, ⟨htop, hold⟩, rfl⟩
    · exact hkey
    · exact hcond c hc htop hold

/-- The new controller of a validator has session keys, like the old one and the other validator, and
nobody else has. -/
theorem validators_have_keys_devnet : ∃ s s' : State ℕ Unit, ∃ out,
    ReachableIf devnet devnetRelays anyStep s ∧ s.round.shouldUpdate 20 = true ∧
    s.newSession devnet devnetRelays 20 2 [] (fun v => decide (v ∈ [2, 4, 12])) = some (out, s') ∧
    out = some [4, 12] ∧
    ∀ validators, out = some validators → ∀ v ∈ validators, decide (v ∈ [2, 4, 12]) = true := by
  have hrun : (devnetRun [.call (.signed 1) (.setController 4)]).any (fun s =>
      decide (s.round.shouldUpdate 20 = true ∧ ∀ c ∈ s.controllerSets, c.new = 4) &&
        (s.newSession devnet devnetRelays 20 2 [] fun v => decide (v ∈ [2, 4, 12])).any fun p =>
          decide (p.1 = some [4, 12])) = true := by decide
  obtain ⟨s, hs, hP⟩ := devnetRun_exists hrun
  rw [Bool.and_eq_true] at hP
  obtain ⟨hround, hnames⟩ := of_decide_eq_true hP.1
  obtain ⟨⟨out, s'⟩, hnew, hout⟩ := (Option.any_eq_true _ _).mp hP.2
  refine ⟨s, s', out, hs, hround, hnew, of_decide_eq_true hout,
    (validators_have_keys_iff hs hround hnew).mpr fun c hc _ _ => ?_⟩
  rw [hnames c hc]
  rfl

/-- A validator changes its controller to an account without session keys, and is a validator of the
next round. -/
theorem validator_without_keys : ∃ s s' : State ℕ Unit, ∃ out,
    ReachableIf devnet devnetRelays anyStep s ∧ s.round.shouldUpdate 20 = true ∧
    s.newSession devnet devnetRelays 20 2 [] (fun v => decide (v ≠ 4)) = some (out, s') ∧
    ¬ ∀ validators, out = some validators → ∀ v ∈ validators, decide (v ≠ 4) = true := by
  have hrun : (devnetRun [.call (.signed 1) (.setController 4)]).any (fun s =>
      s.round.shouldUpdate 20 &&
        (s.newSession devnet devnetRelays 20 2 [] fun v => decide (v ≠ 4)).any fun p =>
          decide (p.1 = some [4, 12])) = true := by decide
  obtain ⟨s, hs, hP⟩ := devnetRun_exists hrun
  rw [Bool.and_eq_true] at hP
  obtain ⟨⟨out, s'⟩, hnew, hout⟩ := (Option.any_eq_true _ _).mp hP.2
  refine ⟨s, s', out, hs, hP.1, hnew, fun hall => ?_⟩
  have hfour := hall [4, 12] (of_decide_eq_true hout) 4 List.mem_cons_self
  cases hfour

end BifrostNode.Staking
