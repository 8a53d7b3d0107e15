import BifrostNode.Staking.Roster

/-!
# Roles and pending decreases in every reachable state

* **Roles.**  `nominate` and `join_candidates` keep nominators and candidates apart; a controller change
  looks at the candidates only, and the account it names may become a nominator before the round ends.
  Nobody is both as long as no change that is applied names a nominator.
* **Pending decreases.**  A decrease of a self-bond is checked against the minimum of the tier when it is
  scheduled, and again after a slash.  A change of tier looks at the whole bond, so it is the one call
  that can leave a decrease that the new tier does not allow.
-/

namespace BifrostNode.Staking

open Transition

variable {AccountId R : Type} [LinearOrder AccountId]

/-! ## Terms that stay as they are -/

/-- What a candidate has agreed to: its tier, its self-bond and the decrease that is pending. -/
def CandidateMetadata.terms (m : CandidateMetadata AccountId) :
    TierType × ℕ × Option CandidateBondLessRequest :=
  (m.tier, m.bond, m.request)

/-- The terms of a candidate. -/
def Ledger.terms (l : Ledger AccountId) (c : AccountId) :
    Option (TierType × ℕ × Option CandidateBondLessRequest) :=
  (l.candidateInfo.get c).map CandidateMetadata.terms

/-- Nobody's terms change, and the nominators are the same. -/
structure SameTerms (l l' : Ledger AccountId) : Prop where
  terms : l'.terms = l.terms
  nominators : l'.nominatorState = l.nominatorState

section Same

variable {cfg : Config AccountId} {l l' l₁ : Ledger AccountId} {c : AccountId}
  {m m' : CandidateMetadata AccountId}

omit [LinearOrder AccountId] in
lemma CandidateMetadata.Covered.congr (h : m.Covered cfg) (ht : m'.terms = m.terms) :
    m'.Covered cfg := by
  simp only [CandidateMetadata.terms, Prod.mk.injEq] at ht
  obtain ⟨htier, hbond, hreq⟩ := ht
  exact h.of_le htier (Or.inr hreq) hbond.ge

namespace SameTerms

omit [LinearOrder AccountId] in
lemma refl (l : Ledger AccountId) : SameTerms l l := ⟨rfl, rfl⟩

omit [LinearOrder AccountId] in
lemma trans (h₁ : SameTerms l l₁) (h₂ : SameTerms l₁ l') : SameTerms l l' :=
  ⟨h₂.terms.trans h₁.terms, h₂.nominators.trans h₁.nominators⟩

omit [LinearOrder AccountId] in
lemma of_eq (hinfo : l'.candidateInfo = l.candidateInfo)
    (hnom : l'.nominatorState = l.nominatorState) : SameTerms l l' := by
  refine ⟨?_, hnom⟩
  funext c
  rw [Ledger.terms, hinfo, Ledger.terms]

omit [LinearOrder AccountId] in
lemma covered (h : SameTerms l l') (hl : l.Covered cfg) : l'.Covered cfg := by
  intro c m' hm'
  have hterms := congrFun h.terms c
  rw [Ledger.terms, hm', Option.map_some, Ledger.terms, eq_comm, Option.map_eq_some_iff] at hterms
  obtain ⟨m, hm, heq⟩ := hterms
  exact (hl c m hm).congr heq.symm

omit [LinearOrder AccountId] in
lemma apart (h : SameTerms l l') (hl : l.Apart) : l'.Apart := by
  intro n st hst
  obtain ⟨hid, hfree⟩ := hl n st (h.nominators ▸ hst)
  have hterms := congrFun h.terms n
  rw [Ledger.terms, Ledger.terms, hfree, Option.map_none] at hterms
  exact ⟨hid, Option.map_eq_none_iff.mp hterms⟩

/-- A candidate is rewritten on the same terms. -/
lemma put (hc : l.candidateInfo.get c = some m)
    (hinfo : l'.candidateInfo = l.candidateInfo.insert c m')
    (hnom : l'.nominatorState = l.nominatorState) (ht : m'.terms = m.terms) : SameTerms l l' := by
  refine ⟨?_, hnom⟩
  funext k
  simp only [Ledger.terms, hinfo, StorageMap.get_insert]
  split_ifs with hk
  · rw [hk, hc, Option.map_some, Option.map_some, ht]
  · rfl

lemma modifyCandidate {f : CandidateMetadata AccountId → CandidateMetadata AccountId}
    (hf : ∀ m, (f m).terms = m.terms) (l : Ledger AccountId) (c : AccountId) :
    SameTerms l (l.modifyCandidate c f) := by
  rw [Ledger.modifyCandidate]
  cases hc : l.candidateInfo.get c with
  | none => exact .refl l
  | some m => exact .put hc rfl rfl (hf m)

lemma foldl_modifyCandidate {ι : Type} {who : ι → AccountId}
    {f : ι → CandidateMetadata AccountId → CandidateMetadata AccountId}
    (hf : ∀ i m, (f i m).terms = m.terms) :
    ∀ (is : List ι) (l : Ledger AccountId),
      SameTerms l (is.foldl (fun l i => l.modifyCandidate (who i) (f i)) l) := by
  intro is
  induction is with
  | nil => exact .refl
  | cons i is ih =>
      intro l
      exact (SameTerms.modifyCandidate (hf i) l (who i)).trans (ih _)

end SameTerms

end Same

/-- **What a step upholds.**  Decreases stay covered if `whole` holds, and nobody is both a nominator
and a candidate if `unclaimed` does. -/
structure Upholds (cfg : Config AccountId) (whole unclaimed : Prop) (l l' : Ledger AccountId) :
    Prop where
  covered : whole → l.Covered cfg → l'.Covered cfg
  apart : unclaimed → l.Apart → l'.Apart

section Upholds

variable {cfg : Config AccountId} {whole unclaimed : Prop} {l l' l₁ : Ledger AccountId}

omit [LinearOrder AccountId] in
lemma Upholds.trans (h₁ : Upholds cfg whole unclaimed l l₁) (h₂ : Upholds cfg whole unclaimed l₁ l') :
    Upholds cfg whole unclaimed l l' :=
  ⟨fun hw h => h₂.covered hw (h₁.covered hw h), fun hu h => h₂.apart hu (h₁.apart hu h)⟩

omit [LinearOrder AccountId] in
lemma SameTerms.upholds (h : SameTerms l l') : Upholds cfg whole unclaimed l l' :=
  ⟨fun _ => h.covered, fun _ => h.apart⟩

omit [LinearOrder AccountId] in
lemma OnTerms.upholds (h : OnTerms cfg l l') : Upholds cfg whole unclaimed l l' :=
  ⟨fun _ => h.covered, fun _ => h.apart⟩

end Upholds

/-! ## Calls -/

section Calls

variable {cfg : Config AccountId} {rm : RelayManager AccountId R} {s s' : State AccountId R}
  {whole unclaimed : Prop} {who : AccountId} {origin : Origin AccountId}

omit [LinearOrder AccountId] in
/-- The records are old ones. -/
lemma Ledger.Covered.of_old {l l' : Ledger AccountId} (h : l.Covered cfg)
    (hold : ∀ c m, l'.candidateInfo.get c = some m → ∃ k, l.candidateInfo.get k = some m) :
    l'.Covered cfg := by
  intro c m hm
  obtain ⟨k, hk⟩ := hold c m hm
  exact h k m hk

/-- **`join_candidates`.**  A new candidate has no pending decrease and is not a nominator. -/
lemma State.joinCandidates_upholds {controller : AccountId} {relayer : Option AccountId}
    {bond count : ℕ} (h : s.joinCandidates cfg rm who controller relayer bond count = .ok s') :
    Upholds cfg whole unclaimed s.ledger s'.ledger := by
  simp only [State.joinCandidates, Ledger.join, Ledger.tryInsertPool, bind_eq_ok, ensure_eq_ok,
    pure_eq_ok, exists_const] at h
  obtain ⟨-, -, -, hnom, -, -, -, currency, -, relay, -, l, ⟨l₁, ⟨-, rfl⟩, rfl⟩, rfl⟩ := h
  refine ⟨fun _ hl c m hm => ?_, fun _ hl n st hst => ?_⟩
  · rw [StorageMap.get_insert] at hm
    by_cases hc : c = controller
    · rw [if_pos hc] at hm
      obtain rfl := Option.some.inj hm
      intro r hr
      cases hr
    · rw [if_neg hc] at hm
      exact hl c m hm
  · obtain ⟨hid, hfree⟩ := hl n st hst
    have hne : n ≠ controller := by
      rintro rfl
      rw [Ledger.isNominator, hst] at hnom
      cases hnom
    exact ⟨hid, (StorageMap.get_insert_of_ne _ hne _).trans hfree⟩

/-- Whoever gets a stake back was a nominator before. -/
lemma Ledger.returnStake_admits {l₀ : Ledger AccountId} {c : AccountId} (l : Ledger AccountId)
    (x : Bond AccountId) (hl : l₀.Admits l.nominatorState) :
    Returns (fun l' => l₀.Admits l'.nominatorState) (returnStake c l x) := by
  intro l' h
  simp only [returnStake, bind_eq_ok, okOr_eq_ok] at h
  obtain ⟨st, hst, h⟩ := h
  split at h
  · obtain rfl := Except.ok.inj h
    exact hl
  · split_ifs at h
    · obtain rfl := Except.ok.inj h
      exact hl.remove _
    · obtain rfl := Except.ok.inj h
      exact hl.put hst (st.dropNomination_id c)

/-- `execute_leave_candidates` takes a candidate away, and with it whatever it had asked for. -/
lemma State.executeLeaveCandidates_upholds {count : ℕ}
    (h : s.executeLeaveCandidates rm who count = .ok s') :
    Upholds cfg whole unclaimed s.ledger s'.ledger := by
  simp only [State.executeLeaveCandidates, bind_eq_ok, ensure_eq_ok, pure_eq_ok, exists_const,
    Prod.exists] at h
  obtain ⟨controller, m, -, -, ⟨⟩, -, l, hleave, rfl⟩ := h
  have hinfo := (Ledger.executeLeave_frame hleave).1
  simp only [Ledger.executeLeave, bind_eq_ok, okOr_eq_ok, pure_eq_ok] at hleave
  obtain ⟨top, -, l₁, h₁, bottom, -, l₂, h₂, rfl⟩ := hleave
  refine ⟨fun _ hl => hl.of_old fun c m hm => ⟨c, ?_⟩, fun _ hl n st hst => ?_⟩
  · rw [hinfo, StorageMap.get_remove] at hm
    split_ifs at hm
    exact hm
  · -- first the top list, then the bottom list
    have hloop : ∀ l x, s.ledger.Admits l.nominatorState →
        Returns (fun l' => s.ledger.Admits l'.nominatorState) (Ledger.returnStake controller l x) :=
      Ledger.returnStake_admits
    have htop : s.ledger.Admits l₁.nominatorState := by
      refine Returns.foldlM hloop ?_ l₁ h₁
      exact hl
    have hboth : s.ledger.Admits l₂.nominatorState := by
      refine Returns.foldlM hloop ?_ l₂ h₂
      exact htop
    obtain ⟨hid, hfree⟩ := hboth n st hst
    refine ⟨hid, ?_⟩
    rw [hinfo, StorageMap.get_remove]
    split_ifs
    · rfl
    · exact hfree

/-- What a change of tier leaves of the terms: more bond, another tier, the same request. -/
lemma State.setValidatorTier_terms {more : ℕ} {new : TierType} {relayer : Option AccountId}
    (h : s.setValidatorTier cfg rm who more new relayer = .ok s') :
    ∃ controller m m', s.ledger.bondedStash.get who = some controller ∧
      s.ledger.candidateInfo.get controller = some m ∧
      m'.terms = (new, m.bond + more, m.request) ∧
      s'.ledger.candidateInfo = s.ledger.candidateInfo.insert controller m' ∧
      s'.ledger.nominatorState = s.ledger.nominatorState := by
  simp only [State.setValidatorTier, bind_eq_ok, ensure_eq_ok, pure_eq_ok, exists_const,
    Prod.exists] at h
  obtain ⟨controller, m, hbd, -, m', l, relay, hmore, rfl⟩ := h
  have hbond := State.bondForTier_ok hmore
  simp only [CandidateMetadata.bondMore, bind_eq_ok, pure_eq_ok, Prod.mk.injEq] at hbond
  obtain ⟨currency, -, rfl, rfl⟩ := hbond
  obtain ⟨hstash, hm⟩ := Ledger.bonded_spec hbd
  exact ⟨controller, m, _, hstash, hm, rfl, Ledger.updateActive_candidateInfo _ _ _,
    Ledger.updateActive_nominatorState _ _ _⟩

/-- A change of tier leaves what the new tier asks for, after the decrease that is pending. -/
def State.TierAllows (cfg : Config AccountId) (s : State AccountId R) (stash : AccountId)
    (more : ℕ) (new : TierType) : Prop :=
  ∀ c m r, s.ledger.bondedStash.get stash = some c → s.ledger.candidateInfo.get c = some m →
    m.request = some r → CandidateMetadata.minCandidateStk cfg new ≤ m.bond + more - r.amount

/-- `set_validator_tier` leaves decreases covered, if the new tier allows the one that is pending. -/
lemma State.setValidatorTier_upholds {more : ℕ} {new : TierType} {relayer : Option AccountId}
    (hw : whole → s.TierAllows cfg who more new)
    (h : s.setValidatorTier cfg rm who more new relayer = .ok s') :
    Upholds cfg whole unclaimed s.ledger s'.ledger := by
  obtain ⟨controller, m, m', hstash, hm, hterms, hinfo, hnom⟩ := State.setValidatorTier_terms h
  simp only [CandidateMetadata.terms, Prod.mk.injEq] at hterms
  obtain ⟨htier, hbond, hreq⟩ := hterms
  refine ⟨fun hwhole hl c mc hc => ?_, fun _ hl n st hst => ?_⟩
  · rw [hinfo, StorageMap.get_insert] at hc
    split_ifs at hc
    · obtain rfl := Option.some.inj hc
      intro r hr
      rw [hreq] at hr
      obtain ⟨hlt, -⟩ := hl controller m hm r hr
      rw [hbond, htier]
      exact ⟨by omega, hw hwhole controller m r hstash hm hr⟩
    · exact hl c mc hc
  · obtain ⟨hid, hfree⟩ := hl n st (hnom ▸ hst)
    have hne : n ≠ controller := by
      rintro rfl
      rw [hm] at hfree
      cases hfree
    rw [hinfo, StorageMap.get_insert_of_ne _ hne]
    exact ⟨hid, hfree⟩

omit [LinearOrder AccountId] in
lemma Routine.upholds (h : Routine cfg s s') : Upholds cfg whole unclaimed s.ledger s'.ledger :=
  h.terms.upholds

lemma State.scheduleLeaveCandidates_terms {count : ℕ}
    (h : s.scheduleLeaveCandidates cfg who count = .ok s') : SameTerms s.ledger s'.ledger := by
  simp only [State.scheduleLeaveCandidates, CandidateMetadata.scheduleLeave, bind_eq_ok,
    okOr_eq_ok, ensure_eq_ok, pure_eq_ok, exists_const] at h
  obtain ⟨m, hm, -, -, -, -, m', ⟨-, -, rfl⟩, rfl⟩ := h
  exact .put hm rfl rfl rfl

lemma State.cancelLeaveCandidates_terms {count : ℕ}
    (h : s.cancelLeaveCandidates who count = .ok s') : SameTerms s.ledger s'.ledger := by
  simp only [State.cancelLeaveCandidates, Ledger.tryInsertPool, bind_eq_ok, okOr_eq_ok,
    ensure_eq_ok, pure_eq_ok, exists_const] at h
  obtain ⟨m, hm, -, -, l, ⟨-, rfl⟩, rfl⟩ := h
  exact .put hm rfl rfl rfl

lemma State.goOnline_terms (h : s.goOnline who = .ok s') : SameTerms s.ledger s'.ledger := by
  simp only [State.goOnline, Ledger.tryInsertPool, bind_eq_ok, okOr_eq_ok, ensure_eq_ok,
    pure_eq_ok, exists_const] at h
  obtain ⟨m, hm, -, -, l, ⟨-, rfl⟩, rfl⟩ := h
  exact .put hm rfl rfl rfl

lemma State.goOffline_terms (h : s.goOffline rm who = .ok s') : SameTerms s.ledger s'.ledger := by
  simp only [State.goOffline, Ledger.removeFromCandidatePool, bind_eq_ok, okOr_eq_ok, ensure_eq_ok,
    pure_eq_ok, exists_const] at h
  obtain ⟨m, hm, -, ⟨⟩, -, rfl⟩ := h
  exact .put hm rfl rfl rfl

end Calls

/-! ## Hooks -/

section Hooks

variable {cfg : Config AccountId} {rm : RelayManager AccountId R} {s s' : State AccountId R}
  {whole unclaimed : Prop}

/-- `on_initialize` only adds to self-bonds. -/
lemma State.onInitialize_upholds {n : ℕ} {drained : Option AccountId}
    {paid : Option (AccountId × ℕ)} (h : s.onInitialize cfg n drained = some (paid, s')) :
    Upholds cfg whole unclaimed s.ledger s'.ledger := by
  rcases State.onInitialize_cases h with ⟨snapshot, -, hpay⟩
  cases hpay with
  | idle => exact (SameTerms.refl _).upholds
  | closed => exact (SameTerms.refl _).upholds
  | lost => exact (SameTerms.refl _).upholds
  | paid _ _ _ hl => exact (Ledger.payValidator_onTerms hl).upholds

lemma State.noteAuthor_terms (s : State AccountId R) (author : AccountId) :
    SameTerms s.ledger (s.noteAuthor author).ledger := by
  refine SameTerms.modifyCandidate (fun m => ?_) _ _
  rfl

omit [LinearOrder AccountId] in
/-- A slash drops a decrease that the smaller bond does not cover. -/
lemma State.slashed_covered (cfg : Config AccountId) (m : CandidateMetadata AccountId)
    (amount : ℕ) : (State.slashed cfg m amount).Covered cfg := by
  rw [State.slashed]
  generalize (m.slashBond amount).slashVotingPower amount = m'
  intro r hr
  cases hreq : m'.request with
  | none =>
      simp only [hreq] at hr
      cases hr
  | some q =>
      simp only [hreq] at hr ⊢
      split_ifs at hr ⊢ with hcut
      obtain rfl := Option.some.inj (hreq.symm.trans hr)
      rw [not_or, not_le, not_lt] at hcut
      exact hcut

/-- An offender that loses bond keeps no decrease that the rest does not cover. -/
lemma State.offend_upholds {slashSession : ℕ} {details : AccountId × Perbill}
    (h : s.offend cfg rm slashSession details = some s') :
    Upholds cfg whole unclaimed s.ledger s'.ledger := by
  obtain ⟨who, fraction⟩ := details
  cases State.offend_cases h with
  | ignored _ => exact (SameTerms.refl _).upholds
  | recorded _ _ _ =>
      refine SameTerms.upholds ?_
      exact .of_eq rfl rfl
  | @punished m amount _ _ hm _ _ =>
      refine ⟨fun _ hl c mc hc => ?_, fun _ hl n st hst => ?_⟩
      · rw [State.punished, StorageMap.get_insert] at hc
        split_ifs at hc
        · obtain rfl := Option.some.inj hc
          exact State.slashed_covered cfg m.kickOut amount
        · exact hl c mc hc
      · obtain ⟨hid, hfree⟩ := hl n st hst
        have hne : n ≠ who := by
          rintro rfl
          rw [hm] at hfree
          cases hfree
        exact ⟨hid, (StorageMap.get_insert_of_ne _ hne _).trans hfree⟩

/-! ### A new round -/

lemma State.enterSession_terms (s : State AccountId R) (now newIndex : ℕ)
    (validators : List AccountId) :
    SameTerms s.ledger (s.enterSession now newIndex validators).ledger := by
  refine SameTerms.foldl_modifyCandidate (fun _ m => ?_) validators s.ledger
  split_ifs
  · rfl
  · rfl

/-- The loop that takes the snapshots of the selected candidates. -/
lemma State.collectValidatorSnapshot_terms {now : ℕ} {validators : List AccountId}
    {counts : ℕ × ℕ × ℕ} (h : s.collectValidatorSnapshot now validators = some (counts, s')) :
    SameTerms s.ledger s'.ledger := by
  refine foldlM_invariant (P := fun acc => SameTerms s.ledger acc.2.ledger)
    (fun acc v acc' hacc hv => ?_) h (.refl _)
  simp only [State.countSnapshot, Option.bind_eq_bind, Option.bind_eq_some_iff, Option.pure_def,
    Option.some.injEq] at hv
  obtain ⟨m, hm, top, -, rfl⟩ := hv
  exact hacc.trans (.put hm rfl rfl rfl)

lemma State.updateTopCandidates_terms {now : ℕ} {full basic : List AccountId} {counts : ℕ × ℕ × ℕ}
    (h : s.updateTopCandidates rm now full basic = some (counts, s')) :
    SameTerms s.ledger s'.ledger := by
  simp only [State.updateTopCandidates, Option.bind_eq_bind, Option.bind_eq_some_iff,
    Option.pure_def, Option.some.injEq, Prod.exists, Prod.mk.injEq] at h
  obtain ⟨_, _, _, s₁, h₁, _, _, _, s₂, h₂, -, rfl⟩ := h
  have hbasic := State.collectValidatorSnapshot_terms h₂
  exact (State.collectValidatorSnapshot_terms h₁).trans (hbasic.trans (.of_eq rfl rfl))

/-- The selection of a new round, up to the controller changes. -/
lemma State.selectForRound_terms {round : RoundInfo} {full basic : List AccountId} {count : ℕ}
    (h : s.selectForRound cfg rm round full basic = some (count, s')) :
    SameTerms s.ledger s'.ledger := by
  simp only [State.selectForRound, Option.bind_eq_bind, Option.bind_eq_some_iff, Option.pure_def,
    Option.some.injEq, Prod.exists, Prod.mk.injEq] at h
  obtain ⟨_, _, _, s₁, h₁, -, rfl⟩ := h
  have hreset : SameTerms s.ledger s.ledger.resetCandidateStates := by
    refine ⟨?_, rfl⟩
    funext c
    simp only [Ledger.terms, Ledger.resetCandidateStates, StorageMap.get_mapVals, Option.map_map]
    rfl
  have hselect := State.updateTopCandidates_terms h₁
  rw [State.prepareStakingPayouts_ledger] at hselect
  exact hreset.trans hselect

/-- No change that is pending names a nominator. -/
def Unclaimed (l : Ledger AccountId) (cs : List (DelayedControllerSet AccountId)) : Prop :=
  ∀ c ∈ cs, l.nominatorState.get c.new = none

instance (l : Ledger AccountId) (cs : List (DelayedControllerSet AccountId)) :
    Decidable (Unclaimed l cs) :=
  inferInstanceAs (Decidable (∀ c ∈ cs, l.nominatorState.get c.new = none))

/-- **One controller change** leaves nobody both a nominator and a candidate, if the new account is no
nominator. -/
lemma Renamed.upholds {l l' : Ledger AccountId} {stash old new : AccountId}
    {m : CandidateMetadata AccountId} {top bottom : Nominations AccountId}
    (h : Renamed l l' stash old new m top bottom) (hm : l.candidateInfo.get old = some m) :
    Upholds cfg whole (l.nominatorState.get new = none) l l' := by
  refine ⟨fun _ hl => hl.of_old fun c mc hc => ?_, fun hnew hl n st' hst' => ?_⟩
  · rw [h.info_eq, StorageMap.get_insert, StorageMap.get_remove] at hc
    split_ifs at hc
    · obtain rfl := Option.some.inj hc
      exact ⟨old, hm⟩
    · exact ⟨c, hc⟩
  · have hold : ∃ st, l.nominatorState.get n = some st ∧ st'.id = st.id := by
      rw [h.nominator_eq] at hst'
      split_ifs at hst'
      · obtain ⟨st, hst, rfl⟩ := Option.map_eq_some_iff.mp hst'
        exact ⟨st, hst, rfl⟩
      · exact ⟨st', hst', rfl⟩
    obtain ⟨st, hst, hid⟩ := hold
    obtain ⟨hkey, hfree⟩ := hl n st hst
    have hne : n ≠ new := by
      rintro rfl
      rw [hst] at hnew
      cases hnew
    refine ⟨hid.trans hkey, ?_⟩
    rw [h.info_eq, StorageMap.get_insert_of_ne _ hne, StorageMap.get_remove]
    split_ifs
    · rfl
    · exact hfree

/-- **The controller changes of a round** uphold the terms, if nobody has taken up a new account. -/
lemma State.applyControllerSets_upholds {now : ℕ} :
    ∀ {cs : List (DelayedControllerSet AccountId)} {s : State AccountId R},
      LedgerInv cfg s.ledger → Pending s.ledger cs →
      Upholds cfg whole (Unclaimed s.ledger cs) s.ledger
        (cs.foldl (State.applyControllerSet rm now) s).ledger := by
  intro cs
  induction cs with
  | nil =>
      intro s _ _
      exact (SameTerms.refl _).upholds
  | cons c cs ih =>
      intro s hl hp
      obtain ⟨m, top, bottom, hm, hren, hbal⟩ := State.applyControllerSet_renamed hl hp
      have hhead : Upholds cfg whole (s.ledger.nominatorState.get c.new = none) s.ledger
          (s.applyControllerSet rm now c).ledger := hren.upholds hm
      have hrest := ih (hbal.inv hl) (hp.tail hren)
      refine ⟨fun hw h => hrest.covered hw (hhead.covered hw h), fun hu h => ?_⟩
      refine hrest.apart (fun x hx => ?_) (hhead.apart (hu c List.mem_cons_self) h)
      rw [hren.nominator_eq, hu x (List.mem_cons_of_mem _ hx), Option.map_none, ite_self]

/-- `new_round` upholds the terms, if nobody has taken up a new account. -/
lemma State.newRound_upholds {now : ℕ} {full basic : List AccountId} (hs : StateInv cfg s)
    (hq : Qualified s.ledger full basic) (h : s.newRound cfg rm now full basic = some s') :
    Upholds cfg whole (Unclaimed s.ledger s.controllerSets) s.ledger s'.ledger := by
  simp only [State.newRound, Option.map_eq_some_iff, Prod.exists] at h
  obtain ⟨count, s₁, h₁, rfl⟩ := h
  let s₃ : State AccountId R := (s₁.startRound rm (s.round.updateRound s.session now)
    count).handleDelayedCommissionSets (s.now + 1)
  obtain ⟨hinv, hpending, -, -⟩ := State.selectForRound_midway hs hq h₁ rfl
  let s₄ : State AccountId R :=
    { s₃ with delayedControllerSets := s₃.delayedControllerSets.remove (s.now + 1 - 1) }
  have hcommissions : SameTerms s₁.ledger s₃.ledger := by
    refine SameTerms.foldl_modifyCandidate (fun c m => ?_) _ s₁.ledger
    rfl
  have hsame : SameTerms s.ledger s₄.ledger :=
    (State.selectForRound_terms h₁).trans hcommissions
  have hsets : s₃.delayedControllerSets.getD (s.now + 1 - 1) [] = s.controllerSets := by
    rw [Nat.add_sub_cancel]
    exact congrArg (fun sets => StorageMap.getD sets s.now [])
      (State.selectForRound_prepares h₁).sets
  have happlied := @State.applyControllerSets_upholds _ _ _ cfg rm whole (s.now + 1) _ s₄ hinv
    hpending
  refine ⟨fun hw hl => happlied.covered hw (hsame.covered hl), fun hu hl => ?_⟩
  refine happlied.apart (fun c hc => ?_) (hsame.apart hl)
  rw [hsame.nominators]
  exact hu c (hsets ▸ hc)

/-- `new_session` upholds the terms, if at the end of a round nobody has taken up a new account. -/
lemma State.newSession_upholds {now newIndex : ℕ} {validators : List AccountId}
    {hasKeys : AccountId → Bool} {out : Option (List AccountId)} (hs : StateInv cfg s)
    (hu : unclaimed → (s.enterSession now newIndex validators).round.shouldUpdate now = true →
      Unclaimed s.ledger s.controllerSets)
    (h : s.newSession cfg rm now newIndex validators hasKeys = some (out, s')) :
    Upholds cfg whole unclaimed s.ledger s'.ledger := by
  simp only [State.newSession, State.tryNewRound, Option.bind_eq_bind, Option.bind_eq_some_iff,
    Option.pure_def, Option.some.injEq, Prod.mk.injEq] at h
  obtain ⟨s₁, h₁, -, rfl⟩ := h
  have henter := s.enterSession_terms now newIndex validators
  split_ifs at h₁ with hdue
  · have hround := @State.newRound_upholds _ _ _ cfg rm _ s₁ whole now _ _
      ((s.enterSession_keeps now newIndex validators).inv hs)
      (State.computeTopCandidates_qualified cfg _ hasKeys) h₁
    refine ⟨fun hw hl => hround.covered hw (henter.covered hl), fun h hl => ?_⟩
    refine hround.apart (fun c hc => ?_) (henter.apart hl)
    rw [henter.nominators]
    exact hu h hdue c hc
  · obtain rfl := Option.some.inj h₁
    exact henter.upholds

end Hooks

/-! ## Runs -/

section Runs

variable {cfg : Config AccountId} {rm : RelayManager AccountId R} {s s' : State AccountId R}

/-- No step changes a tier to one that does not allow the decrease that is pending. -/
def Step.LeavesCovered (cfg : Config AccountId) (rm : RelayManager AccountId R)
    (s : State AccountId R) : Step AccountId R → Prop
  | .call (.signed stash) (.setValidatorTier more new relayer) =>
      ∀ s', s.setValidatorTier cfg rm stash more new relayer = .ok s' →
        s.TierAllows cfg stash more new
  | _ => True

/-- No step applies a controller change that names a nominator. -/
def Step.LeavesApart (s : State AccountId R) : Step AccountId R → Prop
  | .newSession now newIndex validators _ =>
      (s.enterSession now newIndex validators).round.shouldUpdate now = true →
        Unclaimed s.ledger s.controllerSets
  | _ => True

instance (s : State AccountId R) : DecidablePred (Step.LeavesApart s)
  | .newSession _ _ _ _ => inferInstanceAs (Decidable (_ → Unclaimed s.ledger s.controllerSets))
  | .call _ _ | .onInitialize _ _ | .noteAuthor _ | .endSession | .onOffence _ _ | .balances _ _
  | .relay _ | .offenceSettings _ _ _ _ _ => .isTrue trivial

/-- **Every call** upholds the terms under its condition. -/
lemma State.dispatch_upholds {origin : Origin AccountId} {call : Call AccountId}
    (h : s.dispatch cfg rm origin call = .ok s') :
    Upholds cfg (Step.LeavesCovered cfg rm s (.call origin call))
      (Step.LeavesApart s (.call origin call)) s.ledger s'.ledger := by
  have hsigned := State.signed_of_dispatch h
  cases call with
  | joinCandidates controller relayer bond count =>
      obtain ⟨who, -, hcall⟩ := hsigned rfl
      exact State.joinCandidates_upholds hcall
  | executeLeaveCandidates count =>
      obtain ⟨who, -, hcall⟩ := hsigned rfl
      exact State.executeLeaveCandidates_upholds hcall
  | setValidatorTier more new relayer =>
      obtain ⟨who, rfl, hcall⟩ := hsigned rfl
      exact State.setValidatorTier_upholds (fun hw => hw s' hcall) hcall
  | scheduleLeaveCandidates count =>
      obtain ⟨who, -, hcall⟩ := hsigned rfl
      exact (State.scheduleLeaveCandidates_terms hcall).upholds
  | cancelLeaveCandidates count =>
      obtain ⟨who, -, hcall⟩ := hsigned rfl
      exact (State.cancelLeaveCandidates_terms hcall).upholds
  | goOnline =>
      obtain ⟨who, -, hcall⟩ := hsigned rfl
      exact (State.goOnline_terms hcall).upholds
  | goOffline =>
      obtain ⟨who, -, hcall⟩ := hsigned rfl
      exact (State.goOffline_terms hcall).upholds
  | _ => exact (State.dispatch_routine rfl h).upholds

/-- **Step lemma.**  Every step upholds the terms under its condition. -/
theorem State.step_upholds {step : Step AccountId R} (hs : StateInv cfg s)
    (h : s.step cfg rm step = some s') :
    Upholds cfg (step.LeavesCovered cfg rm s) (step.LeavesApart s) s.ledger s'.ledger := by
  cases step with
  | call origin call =>
      obtain rfl := Option.some.inj h
      exact commit_induction (P := fun t => Upholds cfg _ _ s.ledger t.ledger)
        (SameTerms.refl _).upholds fun _ ht => State.dispatch_upholds ht
  | onInitialize n drained =>
      obtain ⟨⟨paid, s₁⟩, h₁, rfl⟩ := Option.map_eq_some_iff.mp h
      exact State.onInitialize_upholds h₁
  | noteAuthor author =>
      obtain rfl := Option.some.inj h
      exact (s.noteAuthor_terms author).upholds
  | newSession now newIndex validators hasKeys =>
      obtain ⟨⟨out, s₁⟩, h₁, rfl⟩ := Option.map_eq_some_iff.mp h
      exact State.newSession_upholds hs (fun hu => hu) h₁
  | onOffence offenders slashSession =>
      exact foldlM_invariant (P := fun t => Upholds cfg _ _ s.ledger t.ledger)
        (fun _ _ _ ht hstep => ht.trans (State.offend_upholds hstep)) h
        (SameTerms.refl _).upholds
  | endSession =>
      obtain rfl := Option.some.inj h
      exact (SameTerms.refl _).upholds
  | balances free others =>
      obtain rfl := Option.some.inj h
      refine SameTerms.upholds ?_
      exact .of_eq rfl rfl
  | relay state =>
      obtain rfl := Option.some.inj h
      exact (SameTerms.refl _).upholds
  | offenceSettings isOffenceActive isSlashActive expiration full basic =>
      obtain rfl := Option.some.inj h
      exact (SameTerms.refl _).upholds

/-- **Genesis.**  Nobody has asked for a decrease, and the candidates are no nominators. -/
lemma IsGenesis.terms (h : IsGenesis cfg rm s) : s.ledger.Covered cfg ∧ s.ledger.Apart := by
  obtain ⟨g, hg⟩ := h
  simp only [GenesisConfig.build, Option.bind_eq_bind, Option.bind_eq_some_iff, Option.pure_def,
    Option.some.injEq, Prod.exists] at hg
  obtain ⟨s₁, h₁, s₂, h₂, validators, nominations, stake, s₃, h₃, rfl⟩ := hg
  have hblank : (g.blank cfg).ledger.Covered cfg ∧ (g.blank cfg).ledger.Apart :=
    ⟨fun c m hm => (by cases hm), fun n st hst => (by cases hst)⟩
  have hjoined : s₁.ledger.Covered cfg ∧ s₁.ledger.Apart := by
    refine GenesisConfig.joinAll_invariant
      (P := fun t => t.ledger.Covered cfg ∧ t.ledger.Apart)
      (fun t _ _ _ _ _ t' ht hjoin => ?_) h₁ hblank
    have hup : Upholds cfg True True t.ledger t'.ledger := State.joinCandidates_upholds hjoin
    exact ⟨hup.covered trivial ht.1, hup.apart trivial ht.2⟩
  have hnominated : s₂.ledger.Covered cfg ∧ s₂.ledger.Apart := by
    refine GenesisConfig.nominateAll_invariant
      (P := fun t => t.ledger.Covered cfg ∧ t.ledger.Apart)
      (fun t _ _ amount i j l ht hnom => ?_) h₂ hjoined
    have hterms : OnTerms cfg t.ledger l := Ledger.nominate_onTerms amount i j l hnom
    exact ⟨hterms.covered ht.1, hterms.apart ht.2⟩
  have hsame := State.updateTopCandidates_terms h₃
  exact ⟨hsame.covered hnominated.1, hsame.apart hnominated.2⟩

lemma ReachableIf.covered
    (h : ReachableIf cfg rm (fun s i => Step.LeavesCovered cfg rm s i) s) : s.ledger.Covered cfg := by
  have hboth : StateInv cfg s ∧ s.ledger.Covered cfg := by
    refine Reachable.invariant (P := fun t => StateInv cfg t ∧ t.ledger.Covered cfg)
      (fun t ht => ?_) (fun t i t' ht hc hs => ?_) h
    · exact ⟨.of_empty ht.founded.inv ht.founded.sets, ht.terms.1⟩
    · exact ⟨(State.step_keeps hs).inv ht.1, (State.step_upholds ht.1 hs).covered hc ht.2⟩
  exact hboth.2

lemma ReachableIf.apart (h : ReachableIf cfg rm (fun s i => Step.LeavesApart s i) s) :
    s.ledger.Apart := by
  have hboth : StateInv cfg s ∧ s.ledger.Apart := by
    refine Reachable.invariant (P := fun t => StateInv cfg t ∧ t.ledger.Apart)
      (fun t ht => ?_) (fun t i t' ht hc hs => ?_) h
    · exact ⟨.of_empty ht.founded.inv ht.founded.sets, ht.terms.2⟩
    · exact ⟨(State.step_keeps hs).inv ht.1, (State.step_upholds ht.1 hs).apart hc ht.2⟩
  exact hboth.2

/-! ### Nominators and candidates -/

/-- **Nobody is both a nominator and a candidate**, along runs in which no round begins with a
controller change that names a nominator. -/
theorem roles_apart (h : ReachableIf cfg rm (fun s i => Step.LeavesApart s i) s) (a : AccountId) :
    ¬ ((s.ledger.nominatorState.get a).isSome ∧ (s.ledger.candidateInfo.get a).isSome) := by
  rintro ⟨hnom, hcand⟩
  obtain ⟨st, hst⟩ := Option.isSome_iff_exists.mp hnom
  rw [(h.apart a st hst).2] at hcand
  cases hcand

/-- A stash gets a new controller that nominates nobody. -/
theorem roles_apart_devnet : ∃ s : State ℕ Unit,
    ReachableIf devnet devnetRelays (fun s i => Step.LeavesApart s i) s ∧
    (s.ledger.nominatorState.get 5).isSome ∧ (s.ledger.candidateInfo.get 4).isSome ∧
    ¬ (s.ledger.candidateInfo.get 5).isSome := by
  have hrun : (devnetRunIf (fun s i => Step.LeavesApart s i) [.call (.signed 1) (.setController 4),
      .newSession 20 2 [2, 12] fun _ => true]).any (fun s =>
      (s.ledger.nominatorState.get 5).isSome && (s.ledger.candidateInfo.get 4).isSome) = true := by
    decide +kernel
  obtain ⟨s, hs, hboth⟩ := devnetRunIf_exists hrun
  obtain ⟨hnom, hnew⟩ := Bool.and_eq_true_iff.mp hboth
  exact ⟨s, hs, hnom, hnew, fun hcand => roles_apart hs 5 ⟨hnom, hcand⟩⟩

/-- A stash names a nominator as its new controller. -/
theorem roles_meet : ∃ s : State ℕ Unit, ReachableIf devnet devnetRelays anyStep s ∧ ∃ a,
    (s.ledger.nominatorState.get a).isSome ∧ (s.ledger.candidateInfo.get a).isSome := by
  have hrun : (devnetRun [.call (.signed 1) (.setController 5),
      .newSession 20 2 [2, 12] fun _ => true]).any (fun s =>
        (s.ledger.nominatorState.get 5).isSome && (s.ledger.candidateInfo.get 5).isSome) =
      true := by
    decide +kernel
  obtain ⟨s, hs, hboth⟩ := devnetRun_exists hrun
  exact ⟨s, hs, 5, Bool.and_eq_true_iff.mp hboth⟩

/-! ### Pending decreases -/

/-- What the execution of a pending decrease does to the record of the candidate. -/
lemma Ledger.executeCandidateBondLess_record {l l' : Ledger AccountId} {now : ℕ}
    {stash : AccountId} (h : l.executeCandidateBondLess now stash = .ok l') :
    ∃ c m r, l.bondedStash.get stash = some c ∧ l.candidateInfo.get c = some m ∧
      m.request = some r ∧ l'.candidateInfo.get c = some (m.lessBond r.amount) := by
  simp only [executeCandidateBondLess, CandidateMetadata.executeBondLess, bind_eq_ok, okOr_eq_ok,
    ensure_eq_ok, pure_eq_ok, exists_const, Prod.exists, Prod.mk.injEq] at h
  obtain ⟨controller, m, hb, m', l₁, ⟨request, hreq, -, rfl, rfl⟩, rfl⟩ := h
  obtain ⟨hstash, hm⟩ := bonded_spec hb
  exact ⟨controller, m, request, hstash, hm, hreq, StorageMap.get_insert_self _ _ _⟩

/-- **A pending decrease can always be executed**, along runs in which no change of tier asks for more
than the decrease leaves: it is smaller than the bond, it leaves what the tier asks for, and whenever
it is executed exactly that much goes. -/
theorem requests_covered (h : ReachableIf cfg rm (fun s i => Step.LeavesCovered cfg rm s i) s)
    {c : AccountId} {m : CandidateMetadata AccountId} {q : CandidateBondLessRequest}
    (hm : s.ledger.candidateInfo.get c = some m) (hq : m.request = some q) :
    q.amount < m.bond ∧ CandidateMetadata.minCandidateStk cfg m.tier ≤ m.bond - q.amount ∧
      ∀ l, s.ledger.executeCandidateBondLess s.now m.stash = .ok l →
        ∃ m', l.candidateInfo.get c = some m' ∧ m'.bond + q.amount = m.bond ∧
          m'.votingPower + q.amount = m.votingPower ∧
          CandidateMetadata.minCandidateStk cfg m'.tier ≤ m'.bond := by
  have hcov := h.covered c m hm q hq
  have hbooks := (ReachableIf.inv h).ledger.books
  refine ⟨hcov.1, hcov.2, fun l hl => ?_⟩
  obtain ⟨k, mk, r, hstash, hk, hr, hl'⟩ := Ledger.executeCandidateBondLess_record hl
  -- the stash has one controller
  have hkc : k = c := Option.some.inj (hstash.symm.trans ((hbooks.stash_iff _ _).mpr ⟨m, hm, rfl⟩))
  subst hkc
  obtain rfl := Option.some.inj (hm.symm.trans hk)
  obtain rfl := Option.some.inj (hq.symm.trans hr)
  obtain ⟨top, bottom, -, -, hv⟩ := hbooks.board k m hm
  have hpower := hv.votingPower_eq
  have hlt := hcov.1
  refine ⟨m.lessBond q.amount, hl', ?_, ?_, hcov.2⟩
  · simp only [CandidateMetadata.lessBond]
    omega
  · simp only [CandidateMetadata.lessBond]
    omega

/-- A full node bonds more and takes back a part of it. -/
theorem requests_covered_devnet : ∃ (s : State ℕ Unit) (m : CandidateMetadata ℕ)
    (q : CandidateBondLessRequest),
    ReachableIf devnet devnetRelays (fun s i => Step.LeavesCovered devnet devnetRelays s i) s ∧
    s.ledger.candidateInfo.get 2 = some m ∧ m.request = some q ∧ q.amount = 400 ∧
    CandidateMetadata.minCandidateStk devnet m.tier ≤ m.bond - q.amount := by
  let steps : List (Step ℕ Unit) := [.call (.signed 1) (.candidateBondMore 500),
    .call (.signed 2) (.scheduleCandidateBondLess 400)]
  have hrun : (devnetRun steps).any (fun s => (s.ledger.candidateInfo.get 2).any fun m =>
      m.request.any fun q => decide (q.amount = 400)) = true := by decide +kernel
  obtain ⟨s, hs, hm⟩ := (Option.any_eq_true _ _).mp hrun
  obtain ⟨m, hm, hq⟩ := (Option.any_eq_true _ _).mp hm
  obtain ⟨q, hq, hamount⟩ := (Option.any_eq_true _ _).mp hq
  obtain ⟨s₀, h₀, hsteps⟩ := Option.bind_eq_some_iff.mp hs
  have hreach : ReachableIf devnet devnetRelays
      (fun s i => Step.LeavesCovered devnet devnetRelays s i) s := by
    refine Reachable.runSteps_of (.init ⟨devnetGenesis, h₀⟩) (fun i hi t => ?_) hsteps
    rcases List.mem_cons.mp hi with rfl | hi
    · exact trivial
    · obtain rfl := List.mem_singleton.mp hi
      exact trivial
  exact ⟨s, m, q, hreach, hm, hq, of_decide_eq_true hamount, (requests_covered hreach hm hq).2.1⟩

/-- A full node becomes a basic node, schedules a decrease that a basic node may make, and becomes a
full node again. -/
theorem requests_uncovered : ∃ s : State ℕ Unit, ReachableIf devnet devnetRelays anyStep s ∧
    ∃ c m q, s.ledger.candidateInfo.get c = some m ∧ m.request = some q ∧
      ¬ CandidateMetadata.minCandidateStk devnet m.tier ≤ m.bond - q.amount := by
  have hrun : (devnetRun [.call (.signed 1) (.setValidatorTier 0 .basic none),
      .call (.signed 2) (.scheduleCandidateBondLess 400),
      .call (.signed 1) (.setValidatorTier 0 .full (some 3))]).any (fun s =>
        (s.ledger.candidateInfo.get 2).any fun m => m.request.any fun q =>
          decide (¬ CandidateMetadata.minCandidateStk devnet m.tier ≤ m.bond - q.amount)) =
      true := by
    decide +kernel
  obtain ⟨s, hs, hm⟩ := devnetRun_exists hrun
  obtain ⟨m, hm, hq⟩ := (Option.any_eq_true _ _).mp hm
  obtain ⟨q, hq, hlow⟩ := (Option.any_eq_true _ _).mp hq
  exact ⟨s, hs, 2, m, q, hm, hq, of_decide_eq_true hlow⟩

end Runs

end BifrostNode.Staking
