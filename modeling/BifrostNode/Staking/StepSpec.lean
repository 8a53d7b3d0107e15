import BifrostNode.Staking.Machine
import BifrostNode.Staking.HookSpec

/-!
# Every step keeps the books

The invariant of the whole state is that of the ledger together with what the pending controller
changes rely on: each of them names the controller of its stash, who is not leaving, and an account
that is not a candidate.

**The step lemma** `State.step_keeps` goes through all calls and hooks.  Every step keeps the
invariant; the two conditions of `BifrostNode/Staking/NominatorSpec.lean` are the only ones that the
properties about amounts need.
-/

namespace BifrostNode.Staking

open Transition RankedList

variable {AccountId R : Type} [LinearOrder AccountId]

/-- **Pending controller changes.**  Each names the controller of its stash, who is not leaving, and
an account that is not a candidate; no account occurs twice on either side. -/
structure Pending (l : Ledger AccountId) (cs : List (DelayedControllerSet AccountId)) : Prop where
  stash : ∀ c ∈ cs, l.bondedStash.get c.stash = some c.old
  staying : ∀ c ∈ cs, ∃ m, l.candidateInfo.get c.old = some m ∧ m.isLeaving = false
  unused : ∀ c ∈ cs, l.candidateInfo.get c.new = none
  olds : (cs.map DelayedControllerSet.old).Nodup
  news : (cs.map DelayedControllerSet.new).Nodup

/-- **The invariant of the state**: that of the ledger, and pending controller changes that do not clash. -/
structure StateInv (cfg : Config AccountId) (s : State AccountId R) : Prop where
  ledger : LedgerInv cfg s.ledger
  pending : Pending s.ledger s.controllerSets
  later : ∀ r, s.now < r → s.delayedControllerSets.get r = none

/-- What a step keeps. -/
structure Keeps (cfg : Config AccountId) (fresh exact : Prop) (s s' : State AccountId R) : Prop where
  inv : StateInv cfg s → StateInv cfg s'
  balanced : StateInv cfg s → Balanced cfg fresh exact s.ledger s'.ledger

section Pending

variable {l l' : Ledger AccountId} {cs : List (DelayedControllerSet AccountId)}
  {c : DelayedControllerSet AccountId} {who : AccountId} {m : CandidateMetadata AccountId}

omit [LinearOrder AccountId] in
lemma Pending.nil (l : Ledger AccountId) : Pending l [] :=
  ⟨by simp, by simp, by simp, List.nodup_nil, List.nodup_nil⟩

omit [LinearOrder AccountId] in
lemma Pending.steady (h : Pending l cs) (hl : Steady l l') : Pending l' cs where
  stash := hl.stashes ▸ h.stash
  staying c hc := by
    obtain ⟨m, hm, hleaving⟩ := h.staying c hc
    obtain ⟨m', hm', hm''⟩ := hl.present c.old m hm
    exact ⟨m', hm', hm'' hleaving⟩
  unused c hc := hl.absent c.new (h.unused c hc)
  olds := h.olds
  news := h.news

omit [LinearOrder AccountId] in
/-- Requests can be withdrawn. -/
lemma Pending.sublist {cs' : List (DelayedControllerSet AccountId)} (h : Pending l cs)
    (hsub : cs'.Sublist cs) : Pending l cs' where
  stash c hc := h.stash c (hsub.subset hc)
  staying c hc := h.staying c (hsub.subset hc)
  unused c hc := h.unused c (hsub.subset hc)
  olds := h.olds.sublist (hsub.map _)
  news := h.news.sublist (hsub.map _)

omit [LinearOrder AccountId] in
/-- A new request may be added for an account that has none. -/
lemma Pending.concat (h : Pending l cs) (hstash : l.bondedStash.get c.stash = some c.old)
    (hm : l.candidateInfo.get c.old = some m) (hstay : m.isLeaving = false)
    (hnew : l.candidateInfo.get c.new = none)
    (hfree : ∀ x ∈ cs, x.old ≠ c.old ∧ x.new ≠ c.new) : Pending l (cs ++ [c]) where
  stash x hx := by
    rcases List.mem_append.mp hx with hx | hx
    · exact h.stash x hx
    · exact List.mem_singleton.mp hx ▸ hstash
  staying x hx := by
    rcases List.mem_append.mp hx with hx | hx
    · exact h.staying x hx
    · exact List.mem_singleton.mp hx ▸ ⟨m, hm, hstay⟩
  unused x hx := by
    rcases List.mem_append.mp hx with hx | hx
    · exact h.unused x hx
    · exact List.mem_singleton.mp hx ▸ hnew
  olds := by
    rw [List.map_append, List.map_singleton, ← List.concat_eq_append]
    refine h.olds.concat fun hc => ?_
    obtain ⟨x, hx, hxc⟩ := List.mem_map.mp hc
    exact (hfree x hx).1 hxc
  news := by
    rw [List.map_append, List.map_singleton, ← List.concat_eq_append]
    refine h.news.concat fun hc => ?_
    obtain ⟨x, hx, hxc⟩ := List.mem_map.mp hc
    exact (hfree x hx).2 hxc

omit [LinearOrder AccountId] in
/-- The candidates of pending changes are not leaving. -/
lemma Pending.ne_old (h : Pending l cs) (hc : c ∈ cs) (hm : l.candidateInfo.get who = some m)
    (hleaving : m.isLeaving = true) : c.old ≠ who := by
  rintro rfl
  obtain ⟨m', hm', hno⟩ := h.staying c hc
  rw [hm] at hm'
  obtain rfl := Option.some.inj hm'
  rw [hleaving] at hno
  cases hno

/-- After the first change has been applied, the others are still in order. -/
lemma Pending.tail {top bottom : Nominations AccountId} (h : Pending l (c :: cs))
    (hl : Renamed l l' c.stash c.old c.new m top bottom) : Pending l' cs := by
  have holds := List.nodup_cons.mp h.olds
  have hnews := List.nodup_cons.mp h.news
  have hne : ∀ x ∈ cs, x.old ≠ c.old := fun x hx hxc =>
    holds.1 (List.mem_map.mpr ⟨x, hx, hxc⟩)
  refine ⟨fun x hx => ?_, fun x hx => ?_, fun x hx => ?_, holds.2, hnews.2⟩
  · have hxs := h.stash x (List.mem_cons_of_mem _ hx)
    have hstash : x.stash ≠ c.stash := by
      intro hxc
      rw [hxc, h.stash c List.mem_cons_self] at hxs
      exact hne x hx (Option.some.inj hxs).symm
    rw [hl.stash_eq, StorageMap.get_insert_of_ne _ hstash, hxs]
  · obtain ⟨m', hm', hstay⟩ := h.staying x (List.mem_cons_of_mem _ hx)
    have hnew : x.old ≠ c.new := by
      intro hxc
      rw [hxc, h.unused c List.mem_cons_self] at hm'
      cases hm'
    refine ⟨m', ?_, hstay⟩
    rw [hl.info_eq, StorageMap.get_insert_of_ne _ hnew, StorageMap.get_remove_of_ne _ (hne x hx),
      hm']
  · have hnew : x.new ≠ c.new := fun hxc => hnews.1 (List.mem_map.mpr ⟨x, hx, hxc⟩)
    rw [hl.info_eq, StorageMap.get_insert_of_ne _ hnew, StorageMap.get_remove]
    split_ifs
    · rfl
    · exact h.unused x (List.mem_cons_of_mem _ hx)

end Pending

section Keeps

variable {cfg : Config AccountId} {fresh exact : Prop} {s s' s₁ : State AccountId R}

/-- A step that leaves the candidates where they are, the round and the pending changes. -/
lemma Keeps.of_preserves (h : Preserves cfg fresh exact s.ledger s'.ledger)
    (hsets : s'.delayedControllerSets = s.delayedControllerSets) (hnow : s'.now = s.now) :
    Keeps cfg fresh exact s s' := by
  refine ⟨fun hs => ?_, fun _ => h.toBalanced⟩
  have hsteady := h.steady hs.ledger
  have heq : s'.controllerSets = s.controllerSets := by
    rw [State.controllerSets, State.controllerSets, hsets, hnow]
  refine ⟨h.inv hs.ledger, heq ▸ hs.pending.steady hsteady, ?_⟩
  rw [hnow, hsets]
  exact hs.later

lemma Keeps.refl (s : State AccountId R) : Keeps cfg fresh exact s s :=
  .of_preserves (.refl _) rfl rfl

lemma Keeps.weaken (h : Keeps cfg True True s s') : Keeps cfg fresh exact s s' :=
  ⟨h.inv, fun hs => (h.balanced hs).weaken⟩

lemma Keeps.trans (h₁ : Keeps cfg True True s s₁) (h₂ : Keeps cfg True True s₁ s') :
    Keeps cfg True True s s' :=
  ⟨fun hs => h₂.inv (h₁.inv hs), fun hs => (h₁.balanced hs).trans (h₂.balanced (h₁.inv hs))⟩

/-- A step that does not touch the ledger. -/
lemma Keeps.of_eq (hl : s'.ledger = s.ledger)
    (hsets : s'.delayedControllerSets = s.delayedControllerSets) (hnow : s'.now = s.now) :
    Keeps cfg fresh exact s s' :=
  .of_preserves (hl ▸ .refl _) hsets hnow

/-- A call on the ledger. -/
lemma Keeps.onLedger {r : Except Error (Ledger AccountId)}
    (hr : ∀ l', r = .ok l' → Preserves cfg fresh exact s.ledger l')
    (h : s.onLedger r = .ok s') : Keeps cfg fresh exact s s' := by
  cases r with
  | error e => cases h
  | ok l' =>
      obtain rfl := Except.ok.inj h
      exact .of_preserves (hr l' rfl) rfl rfl

end Keeps

/-! ## Calls of candidates -/

section Candidates

variable {cfg : Config AccountId} {rm : RelayManager AccountId R} {s s' : State AccountId R}
  {who : AccountId}

/-- **`join_candidates`.**  The new controller is not the new account of a pending change. -/
lemma State.joinCandidates_keeps {controller : AccountId} {relayer : Option AccountId}
    {bond count : ℕ} (h : s.joinCandidates cfg rm who controller relayer bond count = .ok s') :
    Keeps cfg True True s s' := by
  simp only [State.joinCandidates, bind_eq_ok, ensure_eq_ok, pure_eq_ok, exists_const] at h
  obtain ⟨hstash, hctl, hnew, -, -, -, -, currency, hcur, relay, -, l, hl, rfl⟩ := h
  replace hstash : s.ledger.bondedStash.get who = none := by simpa using hstash
  replace hctl : s.ledger.candidateInfo.get controller = none := by simpa using hctl
  have hbal : Balanced cfg True True s.ledger l := Ledger.join_balanced hctl hstash hcur hl
  simp only [Ledger.join, Ledger.tryInsertPool, bind_eq_ok, ensure_eq_ok, pure_eq_ok,
    exists_const] at hl
  obtain ⟨-, ⟨-, rfl⟩, rfl⟩ := hl
  refine ⟨fun hs => ⟨hbal.inv hs.ledger, ⟨?_, ?_, ?_, hs.pending.olds, hs.pending.news⟩, hs.later⟩,
    fun _ => hbal⟩
  · intro c hc
    have hold := hs.pending.stash c hc
    have hne : c.stash ≠ who := by
      rintro rfl
      rw [hstash] at hold
      cases hold
    exact (StorageMap.get_insert_of_ne _ hne _).trans hold
  · intro c hc
    obtain ⟨m, hm, hleaving⟩ := hs.pending.staying c hc
    have hne : c.old ≠ controller := by
      rintro rfl
      rw [hctl] at hm
      cases hm
    exact ⟨m, (StorageMap.get_insert_of_ne _ hne _).trans hm, hleaving⟩
  · intro c hc
    have hne : c.new ≠ controller := by
      rintro rfl
      simp only [Bool.not_eq_true', List.any_eq_false, decide_eq_true_eq] at hnew
      exact hnew c hc rfl
    exact (StorageMap.get_insert_of_ne _ hne _).trans (hs.pending.unused c hc)

/-- **`schedule_leave_candidates`.**  A candidate with a pending change cannot start to leave. -/
lemma State.scheduleLeaveCandidates_keeps {count : ℕ}
    (h : s.scheduleLeaveCandidates cfg who count = .ok s') : Keeps cfg True True s s' := by
  simp only [State.scheduleLeaveCandidates, CandidateMetadata.scheduleLeave, bind_eq_ok,
    okOr_eq_ok, ensure_eq_ok, pure_eq_ok, exists_const] at h
  obtain ⟨m, hm, hreq, -, -, -, m', ⟨-, -, rfl⟩, rfl⟩ := h
  replace hreq : ∀ c ∈ s.controllerSets, c.old ≠ who := by
    intro c hc hold
    simp only [State.isControllerSetRequested, Bool.not_eq_true', List.any_eq_false,
      decide_eq_true_eq] at hreq
    exact hreq c hc hold
  have hbal : Balanced cfg True True s.ledger (((s.withLedger
      (s.ledger.removeFromCandidatePool who).2).putCandidate who
      { m with status := .leaving (s.now + cfg.leaveCandidatesDelay) }).ledger) := by
    refine Balanced.rebond hm (fun hl => ?_) rfl rfl rfl rfl rfl rfl (fun _ a => ?_) ?_
    · exact ⟨rfl, rfl, rfl, rfl, rfl, rfl, rfl, rfl, fun r hr => hl.books.request_lt who m r hm hr⟩
    · simp [State.putCandidate, State.withLedger, Ledger.removeFromCandidatePool]
    · simp [State.putCandidate, State.withLedger, Ledger.removeFromCandidatePool]
  refine ⟨fun hs => ⟨hbal.inv hs.ledger,
    ⟨hs.pending.stash, ?_, ?_, hs.pending.olds, hs.pending.news⟩, hs.later⟩, fun _ => hbal⟩
  · intro c hc
    obtain ⟨m', hm', hleaving⟩ := hs.pending.staying c hc
    exact ⟨m', (StorageMap.get_insert_of_ne _ (hreq c hc) _).trans hm', hleaving⟩
  · intro c hc
    have hnone := hs.pending.unused c hc
    have hne : c.new ≠ who := by
      rintro rfl
      rw [hm] at hnone
      cases hnone
    exact (StorageMap.get_insert_of_ne _ hne _).trans hnone

/-- **`execute_leave_candidates`.**  Whoever leaves has no pending change. -/
lemma State.executeLeaveCandidates_keeps {count : ℕ}
    (h : s.executeLeaveCandidates rm who count = .ok s') : Keeps cfg True True s s' := by
  simp only [State.executeLeaveCandidates, bind_eq_ok, ensure_eq_ok, pure_eq_ok, exists_const,
    Prod.exists] at h
  obtain ⟨controller, m, hbd, -, ⟨⟩, hleave, l, hl, rfl⟩ := h
  have hbal : Balanced cfg True True s.ledger l := Ledger.executeLeave_balanced hbd hl
  obtain ⟨hinfo, hstashes, -⟩ := Ledger.executeLeave_frame hl
  obtain ⟨hsc, hc⟩ := Ledger.bonded_spec hbd
  have hleaving : m.isLeaving = true := by
    simp only [CandidateMetadata.canLeave] at hleave
    rw [CandidateMetadata.isLeaving]
    cases hst : m.status with
    | leaving w => rfl
    | active => rw [hst] at hleave; cases hleave
    | kickedOut => rw [hst] at hleave; cases hleave
    | idle => rw [hst] at hleave; cases hleave
  refine ⟨fun hs => ⟨hbal.inv hs.ledger, ⟨?_, ?_, ?_, hs.pending.olds, hs.pending.news⟩, hs.later⟩,
    fun _ => hbal⟩
  · intro c hcs
    have hne : c.stash ≠ who := by
      rintro rfl
      have hold := hs.pending.stash c hcs
      rw [hsc] at hold
      exact hs.pending.ne_old hcs hc hleaving (Option.some.inj hold).symm
    show l.bondedStash.get c.stash = some c.old
    rw [hstashes, StorageMap.get_remove_of_ne _ hne]
    exact hs.pending.stash c hcs
  · intro c hcs
    obtain ⟨m', hm', hno⟩ := hs.pending.staying c hcs
    refine ⟨m', ?_, hno⟩
    show l.candidateInfo.get c.old = some m'
    rw [hinfo, StorageMap.get_remove_of_ne _ (hs.pending.ne_old hcs hc hleaving), hm']
  · intro c hcs
    show l.candidateInfo.get c.new = none
    rw [hinfo, StorageMap.get_remove]
    split_ifs
    · rfl
    · exact hs.pending.unused c hcs

/-- The calls that put a candidate into the pool or take it out, and rewrite its status. -/
lemma Keeps.status {pool : StorageMap AccountId ℕ} {m m' : CandidateMetadata AccountId}
    (hm : s.ledger.candidateInfo.get who = some m) (hsame : m.SameStake m')
    (hl : s'.ledger = { s.ledger with
      candidatePool := pool
      candidateInfo := s.ledger.candidateInfo.insert who m' })
    (hsets : s'.delayedControllerSets = s.delayedControllerSets) (hnow : s'.now = s.now) :
    Keeps cfg True True s s' := by
  have hquiet : Quiet cfg s.ledger s'.ledger := by
    rw [hl]
    exact (Quiet.putCandidate hm hsame).trans (.of_eq rfl rfl rfl rfl rfl rfl rfl rfl)
  exact .of_preserves hquiet.preserves hsets hnow

omit [LinearOrder AccountId] in
lemma CandidateMetadata.sameStake_goOnline (m : CandidateMetadata AccountId) :
    m.SameStake m.goOnline :=
  ⟨rfl, rfl, rfl, rfl, rfl, rfl, rfl, rfl, rfl, fun _ h => Or.inl h, fun _ => rfl⟩

omit [LinearOrder AccountId] in
lemma CandidateMetadata.sameStake_goOffline (m : CandidateMetadata AccountId) :
    m.SameStake m.goOffline :=
  ⟨rfl, rfl, rfl, rfl, rfl, rfl, rfl, rfl, rfl, fun _ h => Or.inl h, fun _ => rfl⟩

lemma State.cancelLeaveCandidates_keeps {count : ℕ}
    (h : s.cancelLeaveCandidates who count = .ok s') : Keeps cfg True True s s' := by
  simp only [State.cancelLeaveCandidates, Ledger.tryInsertPool, bind_eq_ok, okOr_eq_ok,
    ensure_eq_ok, pure_eq_ok, exists_const] at h
  obtain ⟨m, hm, -, -, l, ⟨-, rfl⟩, rfl⟩ := h
  exact .status hm m.sameStake_goOnline rfl rfl rfl

lemma State.goOnline_keeps (h : s.goOnline who = .ok s') : Keeps cfg True True s s' := by
  simp only [State.goOnline, Ledger.tryInsertPool, bind_eq_ok, okOr_eq_ok, ensure_eq_ok,
    pure_eq_ok, exists_const] at h
  obtain ⟨m, hm, -, -, l, ⟨-, rfl⟩, rfl⟩ := h
  exact .status hm m.sameStake_goOnline rfl rfl rfl

lemma State.goOffline_keeps (h : s.goOffline rm who = .ok s') : Keeps cfg True True s s' := by
  simp only [State.goOffline, bind_eq_ok, okOr_eq_ok, ensure_eq_ok, pure_eq_ok,
    exists_const] at h
  obtain ⟨m, hm, -, -, rfl⟩ := h
  exact .status hm m.sameStake_goOffline rfl rfl rfl

/-- **`set_controller`** adds a pending change. -/
lemma State.setController_keeps {new : AccountId} (h : s.setController who new = .ok s') :
    Keeps cfg True True s s' := by
  simp only [State.setController, bind_eq_ok, ensure_eq_ok, pure_eq_ok, exists_const,
    Prod.exists] at h
  obtain ⟨old, m, hbd, -, hcand, hstay, -, hfree, -, rfl⟩ := h
  obtain ⟨hsc, hm⟩ := Ledger.bonded_spec hbd
  simp only [Bool.not_eq_true', List.any_eq_false, decide_eq_true_eq, not_or] at hfree
  have hnone : s.ledger.candidateInfo.get new = none := by
    simpa [Ledger.isCandidate] using hcand
  refine ⟨fun hs => ?_, fun _ => (Preserves.refl _).toBalanced⟩
  refine ⟨hs.ledger, ?_, ?_⟩
  · have hsets := hs.pending.concat (c := ⟨who, old, new⟩) hsc hm (by simpa using hstay) hnone hfree
    simpa [State.controllerSets, State.now, StorageMap.getD] using hsets
  · intro r hr
    exact (StorageMap.get_insert_of_ne _ (ne_of_gt hr) _).trans (hs.later r hr)

/-- **`cancel_controller_set`** takes one away. -/
lemma State.cancelControllerSet_keeps (h : s.cancelControllerSet who = .ok s') :
    Keeps cfg True True s s' := by
  simp only [State.cancelControllerSet, bind_eq_ok, ensure_eq_ok, pure_eq_ok, exists_const] at h
  obtain ⟨-, -, rfl⟩ := h
  refine ⟨fun hs => ⟨hs.ledger, ?_, ?_⟩, fun _ => (Preserves.refl _).toBalanced⟩
  · have hsets := hs.pending.sublist (List.filter_sublist (p := fun c => c.old ≠ who))
    simpa [State.controllerSets, State.now, StorageMap.getD] using hsets
  · intro r hr
    exact (StorageMap.get_insert_of_ne _ (ne_of_gt hr) _).trans (hs.later r hr)

/-- What becomes of the metadata when a candidate changes its tier. -/
lemma State.bondForTier_ok {controller : AccountId} {m m' : CandidateMetadata AccountId}
    {l : Ledger AccountId} {relay : R} {more : ℕ} {new : TierType} {relayer : Option AccountId}
    (h : s.bondForTier cfg rm who controller m more new relayer = .ok ((m', l), relay)) :
    m.bondMore s.ledger who more = .ok (m', l) := by
  cases relayer with
  | none =>
      simp only [State.bondForTier, bind_eq_ok, ensure_eq_ok, pure_eq_ok, exists_const,
        Prod.mk.injEq] at h
      obtain ⟨-, -, bonded, hmore, rfl, -⟩ := h
      exact hmore
  | some relayer =>
      simp only [State.bondForTier, bind_eq_ok, ensure_eq_ok, pure_eq_ok, exists_const,
        Prod.mk.injEq] at h
      obtain ⟨-, -, -, bonded, hmore, relay', -, rfl, -⟩ := h
      exact hmore

/-- What `set_validator_tier` leaves behind. -/
lemma State.setValidatorTier_ok {more : ℕ} {new : TierType} {relayer : Option AccountId}
    (h : s.setValidatorTier cfg rm who more new relayer = .ok s') :
    ∃ controller m m' m'' l, s.ledger.bonded who = .ok (controller, m) ∧
      m.bondMore s.ledger who more = .ok (m', l) ∧ m'.SameStake m'' ∧
      s'.ledger = ({ l with candidateInfo := l.candidateInfo.insert controller m'' } :
        Ledger AccountId).updateActive controller m''.votingPower ∧
      s'.delayedControllerSets = s.delayedControllerSets ∧ s'.now = s.now ∧
      s'.rewards = s.rewards := by
  simp only [State.setValidatorTier, bind_eq_ok, ensure_eq_ok, pure_eq_ok, exists_const,
    Prod.exists] at h
  obtain ⟨controller, m, hbd, -, m', l, relay, hmore, rfl⟩ := h
  refine ⟨controller, m, m', _, l, hbd, State.bondForTier_ok hmore, ?_, rfl, rfl, rfl, rfl⟩
  exact ⟨rfl, rfl, rfl, rfl, rfl, rfl, rfl, rfl, rfl, fun _ h => Or.inl h, fun hlv => hlv⟩

lemma State.setValidatorTier_stashes {more : ℕ} {new : TierType} {relayer : Option AccountId}
    (h : s.setValidatorTier cfg rm who more new relayer = .ok s') :
    s'.ledger.bondedStash = s.ledger.bondedStash := by
  obtain ⟨controller, m, m', m'', l, -, hmore, -, hl', -⟩ := State.setValidatorTier_ok h
  simp only [CandidateMetadata.bondMore, bind_eq_ok, pure_eq_ok, Prod.mk.injEq] at hmore
  obtain ⟨currency, -, -, rfl⟩ := hmore
  rw [hl', Ledger.updateActive_bondedStash]

lemma State.setValidatorTier_keeps {more : ℕ} {new : TierType} {relayer : Option AccountId}
    (h : s.setValidatorTier cfg rm who more new relayer = .ok s') : Keeps cfg True True s s' := by
  obtain ⟨controller, m, m', m'', l, hbd, hmore, hsame, hl', hsets, hnow, -⟩ :=
    State.setValidatorTier_ok h
  obtain ⟨-, hm⟩ := Ledger.bonded_spec hbd
  refine Keeps.of_preserves (Preserves.of_inv fun hl => ?_) hsets hnow
  obtain rfl := hl.books.stash_of_bonded hbd
  rw [hl']
  refine CandidateMetadata.bondMore_preserves hm (Quiet.sameStake_refl m) hmore hsame
    ?_ ?_ ?_ ?_ ?_ ?_ ?_ ?_ <;> simp

end Candidates

/-! ## Governance -/

section Governance

variable {cfg : Config AccountId} {rm : RelayManager AccountId R} {s s' : State AccountId R}
  {who : AccountId} {origin : Origin AccountId}

/-- The step has nothing to do with stake, rounds, rewards or the selected set. -/
structure Idle (s s' : State AccountId R) : Prop where
  ledger : s'.ledger = s.ledger
  sets : s'.delayedControllerSets = s.delayedControllerSets
  now : s'.now = s.now
  rewards : s'.rewards = s.rewards
  selection : s'.selection = s.selection
  offences : s'.offences = s.offences
  relay : s'.relay = s.relay

lemma Idle.keeps {fresh exact : Prop} (h : Idle s s') : Keeps cfg fresh exact s s' :=
  .of_eq h.ledger h.sets h.now

lemma State.setValidatorCommission_idle (new : Perbill) :
    Returns (Idle s) (s.setValidatorCommission who new) :=
  .bind fun _ => .bind fun _ => .bind fun _ => .bind fun _ => .bind fun _ => .bind fun _ =>
    .pure ⟨rfl, rfl, rfl, rfl, rfl, rfl, rfl⟩

lemma State.cancelValidatorCommissionSet_idle :
    Returns (Idle s) (s.cancelValidatorCommissionSet who) :=
  .bind fun _ => .bind fun _ => .pure ⟨rfl, rfl, rfl, rfl, rfl, rfl, rfl⟩

omit [LinearOrder AccountId] in
/-- Parameters have nothing to do with the books. -/
lemma State.withParams_idle (s : State AccountId R) (p : Params) :
    Idle s (s.withParams p) := ⟨rfl, rfl, rfl, rfl, rfl, rfl, rfl⟩

omit [LinearOrder AccountId] in
lemma State.setStakingExpectations_idle (expectations : Range ℕ) :
    Returns (Idle s) (s.setStakingExpectations cfg origin expectations) :=
  .bind fun _ => .bind fun _ => .bind fun _ => .pure (s.withParams_idle _)

omit [LinearOrder AccountId] in
lemma State.setInflation_idle (schedule : Range Perbill) :
    Returns (Idle s) (s.setInflation cfg origin schedule) :=
  .bind fun _ => .bind fun _ => .bind fun _ => .bind fun _ => .pure (s.withParams_idle _)

omit [LinearOrder AccountId] in
lemma State.setMaxFullSelected_idle (new : ℕ) :
    Returns (Idle s) (s.setMaxFullSelected origin new) :=
  .bind fun _ => .bind fun _ => .bind fun _ => .bind fun _ => .pure (s.withParams_idle _)

omit [LinearOrder AccountId] in
lemma State.setMaxBasicSelected_idle (new : ℕ) :
    Returns (Idle s) (s.setMaxBasicSelected origin new) :=
  .bind fun _ => .bind fun _ => .bind fun _ => .bind fun _ => .pure (s.withParams_idle _)

omit [LinearOrder AccountId] in
lemma State.setDefaultValidatorCommission_idle (new : Perbill) (tier : TierType) :
    Returns (Idle s) (s.setDefaultValidatorCommission origin new tier) := by
  have hdone : ∀ p, Returns (Idle s)
      (pure (s.withParams p) : Except Error (State AccountId R)) :=
    fun p => .pure (s.withParams_idle p)
  refine .bind fun _ => .ite (.bind fun _ => .bind fun _ => .ite ?_ ?_) (.ite ?_ ?_)
  · exact .bind fun _ => .bind fun _ => hdone _
  · exact hdone _
  · exact .bind fun _ => .bind fun _ => hdone _
  · exact hdone _

omit [LinearOrder AccountId] in
lemma State.setMaxValidatorCommission_idle (new : Perbill) (tier : TierType) :
    Returns (Idle s) (s.setMaxValidatorCommission origin new tier) := by
  have hdone : ∀ p, Returns (Idle s)
      (pure (s.withParams p) : Except Error (State AccountId R)) :=
    fun p => .pure (s.withParams_idle p)
  refine .bind fun _ => .ite (.bind fun _ => .ite ?_ ?_) (.ite ?_ ?_)
  · exact .bind fun _ => hdone _
  · exact hdone _
  · exact .bind fun _ => hdone _
  · exact hdone _

omit [LinearOrder AccountId] in
lemma State.setBlocksPerRound_idle (new : ℕ) :
    Returns (Idle s) (s.setBlocksPerRound cfg origin new) :=
  .bind fun _ => .bind fun _ => .bind fun _ => .bind fun _ => .bind fun _ => .bind fun _ =>
    .pure ⟨rfl, rfl, rfl, rfl, rfl, rfl, rfl⟩

omit [LinearOrder AccountId] in
lemma State.setStorageCacheLifetime_idle (new : ℕ) :
    Returns (Idle s) (s.setStorageCacheLifetime origin new) :=
  .bind fun _ => .bind fun _ => .bind fun _ => .pure (s.withParams_idle _)

end Governance

/-! ## Hooks -/

section Hooks

variable {cfg : Config AccountId} {rm : RelayManager AccountId R} {s s' : State AccountId R}

/-- **`on_initialize`.**  The payments keep the books. -/
lemma State.onInitialize_keeps {n : ℕ} {drained : Option AccountId} {paid : Option (AccountId × ℕ)}
    (h : s.onInitialize cfg n drained = some (paid, s')) : Keeps cfg True True s s' := by
  rcases State.onInitialize_cases h with ⟨snapshot, -, hpay⟩
  cases hpay with
  | idle => exact .of_eq rfl rfl rfl
  | closed => exact .of_eq rfl rfl rfl
  | lost => exact .of_eq rfl rfl rfl
  | paid _ _ _ hl => exact .of_preserves (Ledger.payValidator_preserves hl) rfl rfl

/-- `note_author` moves no stake. -/
lemma State.noteAuthor_quiet (author : AccountId) :
    Quiet cfg s.ledger (s.noteAuthor author).ledger := by
  refine Quiet.modifyCandidate (fun m => ?_) _ _
  exact ⟨rfl, rfl, rfl, rfl, rfl, rfl, rfl, rfl, rfl, fun _ h => Or.inl h, fun hlv => hlv⟩

lemma State.noteAuthor_keeps (author : AccountId) :
    Keeps cfg True True s (s.noteAuthor author) :=
  .of_preserves (State.noteAuthor_quiet author).preserves rfl rfl

/-! ### A new round -/

/-- What a hook that starts a round has done before it applies the controller changes. -/
structure Prepares (cfg : Config AccountId) (s s' : State AccountId R) : Prop where
  quiet : Quiet cfg s.ledger s'.ledger
  sets : s'.delayedControllerSets = s.delayedControllerSets
  round : s'.round = s.round
  offences : s'.offences = s.offences

lemma Prepares.refl (s : State AccountId R) : Prepares cfg s s := ⟨.refl _, rfl, rfl, rfl⟩

lemma Prepares.trans {s₁ : State AccountId R} (h₁ : Prepares cfg s s₁) (h₂ : Prepares cfg s₁ s') :
    Prepares cfg s s' :=
  ⟨h₁.quiet.trans h₂.quiet, h₂.sets.trans h₁.sets, h₂.round.trans h₁.round,
    h₂.offences.trans h₁.offences⟩

/-- The loop that takes the snapshots of the selected candidates. -/
lemma State.collectValidatorSnapshot_prepares {now : ℕ} {validators : List AccountId}
    {counts : ℕ × ℕ × ℕ} (h : s.collectValidatorSnapshot now validators = some (counts, s')) :
    Prepares cfg s s' := by
  refine foldlM_invariant (P := fun acc => Prepares cfg s acc.2) (fun acc v acc' hacc hv => ?_) h
    (.refl s)
  simp only [State.countSnapshot, Option.bind_eq_bind, Option.bind_eq_some_iff, Option.pure_def,
    Option.some.injEq] at hv
  obtain ⟨m, hm, top, -, rfl⟩ := hv
  refine hacc.trans ⟨Quiet.putCandidate hm ?_, rfl, rfl, rfl⟩
  exact ⟨rfl, rfl, rfl, rfl, rfl, rfl, rfl, rfl, rfl, fun _ h => Or.inl h, fun hlv => hlv⟩

lemma State.updateTopCandidates_prepares {now : ℕ} {full basic : List AccountId}
    {counts : ℕ × ℕ × ℕ} (h : s.updateTopCandidates rm now full basic = some (counts, s')) :
    Prepares cfg s s' := by
  simp only [State.updateTopCandidates, Option.bind_eq_bind, Option.bind_eq_some_iff,
    Option.pure_def, Option.some.injEq, Prod.exists, Prod.mk.injEq] at h
  obtain ⟨c₁, c₂, c₃, s₁, h₁, d₁, d₂, d₃, s₂, h₂, -, rfl⟩ := h
  exact (State.collectValidatorSnapshot_prepares h₁).trans
    ((State.collectValidatorSnapshot_prepares h₂).trans ⟨.refl _, rfl, rfl, rfl⟩)

lemma State.prepareStakingPayouts_prepares (now : ℕ) :
    Prepares cfg s (s.prepareStakingPayouts cfg now) := by
  rw [State.prepareStakingPayouts]
  dsimp only
  split_ifs
  · exact .refl s
  · exact .refl s
  · exact ⟨.refl _, rfl, rfl, rfl⟩

lemma State.selectForRound_prepares {round : RoundInfo} {full basic : List AccountId} {count : ℕ}
    (h : s.selectForRound cfg rm round full basic = some (count, s')) : Prepares cfg s s' := by
  simp only [State.selectForRound, Option.bind_eq_bind, Option.bind_eq_some_iff, Option.pure_def,
    Option.some.injEq, Prod.exists, Prod.mk.injEq] at h
  obtain ⟨validators, nominations, stake, s₁, h₁, -, rfl⟩ := h
  let s₀ : State AccountId R := { s with
    relay := rm.handleDelayedRelayerSets (rm.refreshRound s.relay round.currentRoundIndex)
      round.currentRoundIndex
    ledger := s.ledger.resetCandidateStates }
  have hreset : Prepares cfg s s₀ := ⟨s.ledger.resetCandidateStates_quiet, rfl, rfl, rfl⟩
  exact hreset.trans ((s₀.prepareStakingPayouts_prepares _).trans
    (State.updateTopCandidates_prepares h₁))

/-- **One controller change**, of those that are pending. -/
lemma State.applyControllerSet_renamed {now : ℕ} {c : DelayedControllerSet AccountId}
    {cs : List (DelayedControllerSet AccountId)} (hl : LedgerInv cfg s.ledger)
    (hp : Pending s.ledger (c :: cs)) :
    ∃ m top bottom, s.ledger.candidateInfo.get c.old = some m ∧
      Renamed s.ledger (s.applyControllerSet rm now c).ledger c.stash c.old c.new m top bottom ∧
      Balanced cfg True True s.ledger (s.applyControllerSet rm now c).ledger := by
  obtain ⟨m, hm, hstash⟩ := (hl.books.stash_iff _ _).mp (hp.stash c List.mem_cons_self)
  obtain ⟨top, bottom, htop, hbottom, hv⟩ := hl.books.board c.old m hm
  have hren : Renamed s.ledger (s.applyControllerSet rm now c).ledger c.stash c.old c.new m top
      bottom := by
    simp only [State.applyControllerSet, hm]
    exact Ledger.replaceController_spec htop hbottom hv.tiers.nodup
  exact ⟨m, top, bottom, hm, hren,
    hren.balanced hm (hp.unused c List.mem_cons_self) hstash htop hbottom⟩

/-- **The controller changes of a round**, one after the other. -/
lemma State.applyControllerSets_balanced {now : ℕ} :
    ∀ {cs : List (DelayedControllerSet AccountId)} {s : State AccountId R},
      LedgerInv cfg s.ledger → Pending s.ledger cs →
      Balanced cfg True True s.ledger (cs.foldl (State.applyControllerSet rm now) s).ledger ∧
      (cs.foldl (State.applyControllerSet rm now) s).delayedControllerSets =
        s.delayedControllerSets ∧
      (cs.foldl (State.applyControllerSet rm now) s).now = s.now := by
  intro cs
  induction cs with
  | nil =>
      intro s _ _
      exact ⟨(Preserves.refl _).toBalanced, rfl, rfl⟩
  | cons c cs ih =>
      intro s hl hp
      obtain ⟨m, top, bottom, hm, hren, hbal⟩ := State.applyControllerSet_renamed hl hp
      have hframe : (s.applyControllerSet rm now c).delayedControllerSets =
          s.delayedControllerSets ∧ (s.applyControllerSet rm now c).now = s.now := by
        simp only [State.applyControllerSet, hm]
        exact ⟨rfl, rfl⟩
      obtain ⟨hrest, hsets, hnow⟩ := ih (hbal.inv hl) (hp.tail hren)
      exact ⟨hbal.trans hrest, hsets.trans hframe.1, hnow.trans hframe.2⟩

/-- **The end of `new_round`.**  The changes of the round that ends are applied in the next one,
in which nothing is pending yet. -/
lemma State.handleDelayedControllerSets_keeps {s₁ : State AccountId R}
    (hquiet : Quiet cfg s.ledger s₁.ledger)
    (hsets : s₁.delayedControllerSets = s.delayedControllerSets) (hnow : s₁.now = s.now + 1) :
    Keeps cfg True True s (s₁.handleDelayedControllerSets rm (s.now + 1)) := by
  let s₂ : State AccountId R :=
    { s₁ with delayedControllerSets := s₁.delayedControllerSets.remove (s.now + 1 - 1) }
  have happlied : StateInv cfg s →
      Balanced cfg True True s₂.ledger (s₁.handleDelayedControllerSets rm (s.now + 1)).ledger ∧
      (s₁.handleDelayedControllerSets rm (s.now + 1)).delayedControllerSets =
        s₂.delayedControllerSets ∧
      (s₁.handleDelayedControllerSets rm (s.now + 1)).now = s₂.now := by
    intro hs
    have hp : Pending s₂.ledger (s₁.delayedControllerSets.getD (s.now + 1 - 1) []) := by
      rw [hsets, Nat.add_sub_cancel]
      exact hs.pending.steady hquiet.steady
    exact State.applyControllerSets_balanced (hquiet.preserves.inv hs.ledger) hp
  have hbal : StateInv cfg s → Balanced cfg True True s.ledger
      (s₁.handleDelayedControllerSets rm (s.now + 1)).ledger :=
    fun hs => hquiet.preserves.toBalanced.trans (happlied hs).1
  refine ⟨fun hs => ?_, hbal⟩
  obtain ⟨-, hsets', hnow'⟩ := happlied hs
  replace hnow' : (s₁.handleDelayedControllerSets rm (s.now + 1)).now = s.now + 1 :=
    hnow'.trans hnow
  have hlater : ∀ r, s.now < r →
      (s₁.handleDelayedControllerSets rm (s.now + 1)).delayedControllerSets.get r = none := by
    intro r hr
    rw [hsets']
    show (s₁.delayedControllerSets.remove (s.now + 1 - 1)).get r = none
    rw [hsets, StorageMap.get_remove_of_ne _ (by omega)]
    exact hs.later r hr
  refine ⟨(hbal hs).inv hs.ledger, ?_, fun r hr => hlater r (by omega)⟩
  have hnil : (s₁.handleDelayedControllerSets rm (s.now + 1)).controllerSets = [] := by
    rw [State.controllerSets, hnow', StorageMap.getD, hlater _ (Nat.lt_succ_self _)]
    rfl
  rw [hnil]
  exact .nil _

/-- Until the controller changes of a round, no stake moves. -/
lemma State.selectForRound_quiet {round : RoundInfo} {full basic : List AccountId} {count now : ℕ}
    {s₁ s₃ : State AccountId R} (h₁ : s.selectForRound cfg rm round full basic = some (count, s₁))
    (h₃ : s₃ = (s₁.startRound rm round count).handleDelayedCommissionSets now) :
    Quiet cfg s.ledger s₃.ledger := by
  subst h₃
  refine (State.selectForRound_prepares h₁).quiet.trans
    (Quiet.foldl_modifyCandidate (fun c m => ?_) _ s₁.ledger)
  exact ⟨rfl, rfl, rfl, rfl, rfl, rfl, rfl, rfl, rfl, fun _ h => Or.inl h, fun hlv => hlv⟩

/-- `new_round` keeps the invariant and the balances. -/
lemma State.newRound_keeps {now : ℕ} {full basic : List AccountId}
    (h : s.newRound cfg rm now full basic = some s') : Keeps cfg True True s s' := by
  simp only [State.newRound, Option.map_eq_some_iff, Prod.exists] at h
  obtain ⟨validators, s₁, h₁, rfl⟩ := h
  exact State.handleDelayedControllerSets_keeps (State.selectForRound_quiet h₁ rfl)
    (State.selectForRound_prepares h₁).sets rfl

/-- The first half of `new_session`. -/
lemma State.enterSession_keeps (s : State AccountId R) (now newIndex : ℕ)
    (validators : List AccountId) :
    Keeps cfg True True s (s.enterSession now newIndex validators) :=
  .of_preserves (s.ledger.computeProductivity_quiet _ _).preserves rfl rfl

/-- `new_session` keeps the invariant and the balances, also at the end of a round. -/
lemma State.newSession_keeps {now newIndex : ℕ} {validators : List AccountId}
    {hasKeys : AccountId → Bool} {out : Option (List AccountId)}
    (h : s.newSession cfg rm now newIndex validators hasKeys = some (out, s')) :
    Keeps cfg True True s s' := by
  simp only [State.newSession, State.tryNewRound, Option.bind_eq_bind, Option.bind_eq_some_iff,
    Option.pure_def, Option.some.injEq, Prod.mk.injEq] at h
  obtain ⟨s₁, h₁, -, rfl⟩ := h
  have hround : Keeps cfg True True (s.enterSession now newIndex validators) s₁ := by
    split_ifs at h₁
    · exact State.newRound_keeps h₁
    · obtain rfl := Option.some.inj h₁
      exact .refl _
  exact (s.enterSession_keeps now newIndex validators).trans (hround.trans (.of_eq rfl rfl rfl))

/-! ### Offences -/

/-- An offence takes nothing, or it takes at most the self-bond out of the reserve. -/
lemma Offences.tryHandleOffence_spec {o o' : Offences AccountId} {cur cur' : Currency AccountId}
    {who stash : AccountId} {tier : TierType} {offence : Offence} {isSlashed : Bool} {amount : ℕ}
    (h : o.tryHandleOffence cur who stash tier offence = ((isSlashed, amount), o', cur')) :
    amount ≤ offence.selfBond ∧ (isSlashed = false → cur' = cur) ∧
      ∀ a, cur'.reserved a = cur.reserved a - if a = stash then amount else 0 := by
  have hnothing : ∀ {b : Bool} {x : Offences AccountId},
      ((b, 0), x, cur) = ((isSlashed, amount), o', cur') →
      amount ≤ offence.selfBond ∧ (isSlashed = false → cur' = cur) ∧
        ∀ a, cur'.reserved a = cur.reserved a - if a = stash then amount else 0 := by
    intro b x hx
    simp only [Prod.mk.injEq] at hx
    obtain ⟨⟨-, rfl⟩, -, rfl⟩ := hx
    simp
  simp only [Offences.tryHandleOffence, Offences.handleOffence] at h
  split_ifs at h
  · cases hwho : o.validatorOffences.get who with
    | none =>
        rw [hwho] at h
        exact hnothing h
    | some offences =>
        simp only [hwho, Offences.trySlash] at h
        split_ifs at h
        · simp only [Prod.mk.injEq] at h
          obtain ⟨⟨rfl, rfl⟩, -, rfl⟩ := h
          exact ⟨Perbill.mul_le _ _, by simp, fun a => by simp⟩
        · exact hnothing h
        · exact hnothing h
  · exact hnothing h

omit [LinearOrder AccountId] in
/-- What a slash leaves: a pending decrease stays only if it leaves something of the bond. -/
lemma State.slashed_eq (cfg : Config AccountId) (m : CandidateMetadata AccountId) (amount : ℕ) :
    ∃ request : Option CandidateBondLessRequest,
      State.slashed cfg m amount = { m with
        bond := m.bond - amount
        votingPower := m.votingPower - amount
        request := request } ∧
      ∀ r, request = some r → r.amount < m.bond - amount := by
  cases hreq : m.request with
  | none =>
      refine ⟨none, ?_, by simp⟩
      simp [State.slashed, CandidateMetadata.slashBond, CandidateMetadata.slashVotingPower, hreq]
  | some r =>
      by_cases hcut : m.bond - amount ≤ r.amount ∨
          m.bond - amount - r.amount < CandidateMetadata.minCandidateStk cfg m.tier
      · refine ⟨none, ?_, by simp⟩
        simp only [State.slashed, CandidateMetadata.slashBond, CandidateMetadata.slashVotingPower,
          hreq, if_pos hcut]
      · refine ⟨some r, ?_, fun r' hr' => ?_⟩
        · simp only [State.slashed, CandidateMetadata.slashBond,
            CandidateMetadata.slashVotingPower, hreq, if_neg hcut]
        · obtain rfl := Option.some.inj hr'
          exact Nat.lt_of_not_le fun hle => hcut (Or.inl hle)

/-- The record that an offence of a validator leaves, as the pallet reports it. -/
def State.offence (s : State AccountId R) (m : CandidateMetadata AccountId) (slashSession : ℕ)
    (fraction : Perbill) : Offence :=
  ⟨s.now, slashSession, m.bond, fraction.mul m.bond, fraction.mul m.bond, 0, fraction⟩

/-- The state after `kickout_validator` and `slash_reserved_bonds`. -/
def State.punished (cfg : Config AccountId) (rm : RelayManager AccountId R) (s : State AccountId R)
    (who : AccountId) (m : CandidateMetadata AccountId) (amount : ℕ)
    (offences : Offences AccountId) (currency : Currency AccountId) : State AccountId R :=
  let sel := (s.selection.removeFromSelectedCandidates who m.tier)
    |>.refreshLatestCachedSelectedCandidates s.now
  { s with
    offences := offences
    ledger := { s.ledger with
      currency := currency
      total := s.ledger.total - amount
      candidatePool := s.ledger.candidatePool.remove who
      candidateInfo := s.ledger.candidateInfo.insert who (State.slashed cfg m.kickOut amount) }
    selection :=
      ({ sel with majority := sel.computeMajority } : Selection AccountId).refreshLatestCachedMajority
        s.now
    relay := if m.tier = .full then rm.kickoutRelayer s.relay who else s.relay }

/-- **What happens to one offender**: one constructor for each path of the source. -/
inductive OffendStep (cfg : Config AccountId) (rm : RelayManager AccountId R) (s : State AccountId R)
    (slashSession : ℕ) (who : AccountId) (fraction : Perbill) : State AccountId R → Prop
  /-- It is not a candidate, or has been kicked out before. -/
  | ignored (h : ∀ m, s.ledger.candidateInfo.get who = some m → m.isKickedOut = true) :
      OffendStep cfg rm s slashSession who fraction s
  /-- The offence is recorded, if offences are. -/
  | recorded {m : CandidateMetadata AccountId} {amount : ℕ} {offences : Offences AccountId}
      {currency : Currency AccountId} (hm : s.ledger.candidateInfo.get who = some m)
      (hkicked : m.isKickedOut = false)
      (hres : s.offences.tryHandleOffence s.ledger.currency who m.stash m.tier
        (s.offence m slashSession fraction) = ((false, amount), offences, currency)) :
      OffendStep cfg rm s slashSession who fraction
        { s with offences := offences, ledger := { s.ledger with currency := currency } }
  /-- It is kicked out and slashed. -/
  | punished {m : CandidateMetadata AccountId} {amount : ℕ} {offences : Offences AccountId}
      {currency : Currency AccountId} (hm : s.ledger.candidateInfo.get who = some m)
      (hkicked : m.isKickedOut = false)
      (hres : s.offences.tryHandleOffence s.ledger.currency who m.stash m.tier
        (s.offence m slashSession fraction) = ((true, amount), offences, currency)) :
      OffendStep cfg rm s slashSession who fraction
        (s.punished cfg rm who m amount offences currency)

/-- **One offender**, taken apart. -/
lemma State.offend_cases {slashSession : ℕ} {details : AccountId × Perbill}
    (h : s.offend cfg rm slashSession details = some s') :
    OffendStep cfg rm s slashSession details.1 details.2 s' := by
  obtain ⟨who, fraction⟩ := details
  simp only [State.offend] at h
  cases hm : s.ledger.candidateInfo.get who with
  | none =>
      simp only [hm, Option.some.injEq] at h
      exact h ▸ .ignored fun m hm' => by rw [hm] at hm'; cases hm'
  | some m =>
      rcases hres : s.offences.tryHandleOffence s.ledger.currency who m.stash m.tier
        (s.offence m slashSession fraction) with ⟨⟨isSlashed, amount⟩, offences, currency⟩
      have hres' := hres
      rw [State.offence] at hres'
      simp only [hm, hres'] at h
      cases hkicked : m.isKickedOut with
      | true =>
          rw [hkicked, if_pos rfl] at h
          refine Option.some.inj h ▸ .ignored fun m' hm' => ?_
          obtain rfl := Option.some.inj (hm.symm.trans hm')
          exact hkicked
      | false =>
          rw [hkicked, if_neg Bool.false_ne_true] at h
          cases isSlashed with
          | false => exact Option.some.inj h ▸ .recorded hm hkicked hres
          | true =>
              simp only [if_true, State.kickoutValidator, State.slashReservedBonds,
                Ledger.removeFromCandidatePool, hm, Option.bind_eq_bind, Option.bind_some,
                Option.pure_def, State.putCandidate, State.withLedger,
                StorageMap.get_insert_self, StorageMap.insert_insert, Option.some.injEq] at h
              exact h ▸ .punished hm hkicked hres

/-- One offender: the invariant and the balances are kept on each path. -/
lemma State.offend_keeps {slashSession : ℕ} {details : AccountId × Perbill}
    (h : s.offend cfg rm slashSession details = some s') : Keeps cfg True True s s' := by
  cases State.offend_cases h with
  | ignored _ => exact .refl s
  | recorded _ _ hres =>
      obtain rfl := (Offences.tryHandleOffence_spec hres).2.1 rfl
      exact .of_eq rfl rfl rfl
  | @punished m amount _ _ hm _ hres =>
      obtain ⟨hle, -, hreserved⟩ := Offences.tryHandleOffence_spec hres
      replace hle : amount ≤ m.bond := hle
      refine .of_preserves (.of_inv fun hl => ?_) rfl rfl
      obtain ⟨top, bottom, -, -, hv⟩ := hl.books.board _ m hm
      obtain ⟨request, hm', hrequest⟩ := State.slashed_eq cfg m.kickOut amount
      have hrebond : m.Rebond (State.slashed cfg m.kickOut amount) := by
        have hvp := hv.votingPower_eq
        rw [hm']
        refine ⟨rfl, ?_, rfl, rfl, rfl, rfl, rfl, rfl, hrequest⟩
        simp only [CandidateMetadata.kickOut]
        omega
      have hbond : (State.slashed cfg m.kickOut amount).bond = m.bond - amount := by
        rw [hm']
        rfl
      have hdown : (State.slashed cfg m.kickOut amount).bond - m.bond = 0 := by omega
      have hup : m.bond - (State.slashed cfg m.kickOut amount).bond = amount := by omega
      have hstay : (State.slashed cfg m.kickOut amount).isLeaving = false := by
        rw [hm']
        rfl
      refine ⟨Balanced.rebond hm (fun _ => hrebond) ?_ rfl rfl rfl rfl rfl (fun _ a => ?_) ?_,
        fun _ => Steady.insert hm ?_ rfl fun _ => hstay⟩
      · rfl
      · simp [State.punished, hreserved, hdown, hup]
      · simp [State.punished, hdown, hup]
      · rfl

/-- `on_offence` keeps the invariant and the balances. -/
lemma State.onOffence_keeps {offenders : List (AccountId × Perbill)} {slashSession : ℕ}
    (h : s.onOffence cfg rm offenders slashSession = some s') : Keeps cfg True True s s' :=
  foldlM_invariant (P := Keeps cfg True True s)
    (fun _ _ _ ht hstep => ht.trans (State.offend_keeps hstep)) h (.refl s)

end Hooks

/-! ## Steps -/

section Steps

variable {cfg : Config AccountId} {rm : RelayManager AccountId R} {s s' : State AccountId R}

/-- A revoke request that the step executes is for all of the nomination. -/
def Step.Fresh (cfg : Config AccountId) (s : State AccountId R) : Step AccountId R → Prop
  | .call (.signed n) (.executeNominationRequest c) => s.ledger.FreshRequest cfg s.now n c
  | _ => True

/-- A decrease request that the step executes is not about a nomination in the bottom list. -/
def Step.Top (cfg : Config AccountId) (s : State AccountId R) : Step AccountId R → Prop
  | .call (.signed n) (.executeNominationRequest c) => s.ledger.TopRequest cfg s.now n c
  | _ => True

instance (cfg : Config AccountId) (s : State AccountId R) (i : Step AccountId R) :
    Decidable (i.Fresh cfg s) := by
  unfold Step.Fresh
  split <;> infer_instance

instance (cfg : Config AccountId) (s : State AccountId R) (i : Step AccountId R) :
    Decidable (i.Top cfg s) := by
  unfold Step.Top
  split <;> infer_instance

/-- **A signed call** keeps the invariant, and the amounts under the condition on its requests. -/
lemma State.signed_keeps {who : AccountId} {call : Call AccountId}
    (h : s.signed cfg rm who call = .ok s') :
    Keeps cfg (Step.Fresh cfg s (.call (.signed who) call : Step AccountId R))
      (Step.Top cfg s (.call (.signed who) call : Step AccountId R)) s s' := by
  cases call with
  | setValidatorCommission new => exact (State.setValidatorCommission_idle new _ h).keeps
  | cancelValidatorCommissionSet => exact (State.cancelValidatorCommissionSet_idle _ h).keeps
  | setValidatorTier more new relayer => exact (State.setValidatorTier_keeps h).weaken
  | joinCandidates controller relayer bond count => exact (State.joinCandidates_keeps h).weaken
  | scheduleLeaveCandidates count => exact (State.scheduleLeaveCandidates_keeps h).weaken
  | executeLeaveCandidates count => exact (State.executeLeaveCandidates_keeps h).weaken
  | cancelLeaveCandidates count => exact (State.cancelLeaveCandidates_keeps h).weaken
  | setController new => exact (State.setController_keeps h).weaken
  | cancelControllerSet => exact (State.cancelControllerSet_keeps h).weaken
  | goOffline => exact (State.goOffline_keeps h).weaken
  | goOnline => exact (State.goOnline_keeps h).weaken
  | setCandidateRewardDst dst =>
      exact .onLedger (fun _ hl => (Ledger.setCandidateRewardDst_preserves hl).weaken) h
  | setNominatorRewardDst dst =>
      exact .onLedger (fun _ hl => (Ledger.setNominatorRewardDst_preserves hl).weaken) h
  | candidateBondMore more =>
      exact .onLedger (fun _ hl => (Ledger.candidateBondMore_preserves hl).weaken) h
  | scheduleCandidateBondLess less =>
      exact .onLedger (fun _ hl => (Ledger.scheduleCandidateBondLess_preserves hl).weaken) h
  | executeCandidateBondLess =>
      exact .onLedger (fun _ hl => (Ledger.executeCandidateBondLess_preserves hl).weaken) h
  | cancelCandidateBondLess =>
      exact .onLedger (fun _ hl => (Ledger.cancelCandidateBondLess_preserves hl).weaken) h
  | nominate candidate amount i j =>
      exact .onLedger (fun _ hl => (Ledger.nominate_preserves hl).weaken) h
  | scheduleLeaveNominators =>
      exact .onLedger (fun _ hl => (Ledger.scheduleLeaveNominators_preserves hl).weaken) h
  | executeLeaveNominators count =>
      exact .onLedger (fun _ hl => (Ledger.executeLeaveNominators_preserves hl).weaken) h
  | cancelLeaveNominators =>
      exact .onLedger (fun _ hl => (Ledger.cancelLeaveNominators_preserves hl).weaken) h
  | scheduleRevokeNomination validator =>
      exact .onLedger (fun _ hl => (Ledger.scheduleRevokeNomination_preserves hl).weaken) h
  | nominatorBondMore candidate more =>
      exact .onLedger (fun _ hl => (Ledger.nominatorBondMore_preserves hl).weaken) h
  | scheduleNominatorBondLess candidate less =>
      exact .onLedger (fun _ hl => (Ledger.scheduleNominatorBondLess_preserves hl).weaken) h
  | cancelNominationRequest candidate =>
      exact .onLedger (fun _ hl => (Ledger.cancelNominationRequest_preserves hl).weaken) h
  -- the one call that needs something for the amounts
  | executeNominationRequest candidate =>
      exact .onLedger (fun _ hl => Ledger.executeNominationRequest_preserves hl) h
  | _ => cases h

omit [LinearOrder AccountId] in
lemma ensureSigned_eq_ok {origin : Origin AccountId} {who : AccountId}
    (h : ensureSigned origin = .ok who) : origin = .signed who := by
  cases origin with
  | signed who' => exact congrArg _ (Except.ok.inj h)
  | root => cases h
  | none => cases h

/-- **Every call** keeps the invariant, and the amounts under the condition on its requests. -/
lemma State.dispatch_keeps {origin : Origin AccountId} {call : Call AccountId}
    (h : s.dispatch cfg rm origin call = .ok s') :
    Keeps cfg (Step.Fresh cfg s (.call origin call : Step AccountId R))
      (Step.Top cfg s (.call origin call : Step AccountId R)) s s' := by
  cases call with
  | setStakingExpectations x => exact (State.setStakingExpectations_idle x _ h).keeps
  | setInflation x => exact (State.setInflation_idle x _ h).keeps
  | setMaxFullSelected x => exact (State.setMaxFullSelected_idle x _ h).keeps
  | setMaxBasicSelected x => exact (State.setMaxBasicSelected_idle x _ h).keeps
  | setDefaultValidatorCommission x tier =>
      exact (State.setDefaultValidatorCommission_idle x tier _ h).keeps
  | setMaxValidatorCommission x tier =>
      exact (State.setMaxValidatorCommission_idle x tier _ h).keeps
  | setBlocksPerRound x => exact (State.setBlocksPerRound_idle x _ h).keeps
  | setStorageCacheLifetime x => exact (State.setStorageCacheLifetime_idle x _ h).keeps
  | _ =>
      obtain ⟨who, hwho, hcall⟩ := bind_eq_ok.mp h
      obtain rfl := ensureSigned_eq_ok hwho
      exact State.signed_keeps hcall

/-- **Step lemma.**  Every step keeps the invariant, and the amounts under the condition on its requests. -/
theorem State.step_keeps {step : Step AccountId R} (h : s.step cfg rm step = some s') :
    Keeps cfg (step.Fresh cfg s) (step.Top cfg s) s s' := by
  cases step with
  | call origin call =>
      obtain rfl := Option.some.inj h
      exact commit_induction (P := Keeps cfg _ _ s) (.refl s) fun _ ht => State.dispatch_keeps ht
  | onInitialize n drained =>
      obtain ⟨⟨paid, s₁⟩, h₁, rfl⟩ := Option.map_eq_some_iff.mp h
      exact (State.onInitialize_keeps h₁).weaken
  | noteAuthor author =>
      obtain rfl := Option.some.inj h
      exact (State.noteAuthor_keeps author).weaken
  | endSession =>
      obtain rfl := Option.some.inj h
      exact .of_eq rfl rfl rfl
  | newSession now newIndex validators hasKeys =>
      obtain ⟨⟨out, s₁⟩, h₁, rfl⟩ := Option.map_eq_some_iff.mp h
      exact (State.newSession_keeps h₁).weaken
  | onOffence offenders slashSession => exact (State.onOffence_keeps h).weaken
  | balances free others =>
      obtain rfl := Option.some.inj h
      have hquiet : Quiet cfg s.ledger { s.ledger with
          currency := { s.ledger.currency with free := free, others := others } } :=
        .of_eq rfl rfl rfl rfl rfl rfl rfl rfl
      exact .of_preserves hquiet.preserves.weaken rfl rfl
  | relay state =>
      obtain rfl := Option.some.inj h
      exact .of_eq rfl rfl rfl
  | offenceSettings isOffenceActive isSlashActive expiration full basic =>
      obtain rfl := Option.some.inj h
      exact .of_eq rfl rfl rfl

end Steps

end BifrostNode.Staking
