import BifrostNode.Staking.Turns

/-!
# What a step asks of the relay manager

`bfc-staking` calls the relay manager in eight ways only.  A `Shift` is one of them, with what the
roster says about the candidate it is called for: its tier before and after, and the full nodes that
are selected.  A step of the pallet is a sequence of shifts, for any relay manager.

Leaving the relayers carries a condition, so that a property of runs that needs it can ask for it.
-/

namespace BifrostNode.Staking

open Transition

variable {AccountId R : Type} [LinearOrder AccountId]

/-- The tier of a candidate. -/
def Ledger.tier (l : Ledger AccountId) (c : AccountId) : Option TierType :=
  (l.candidateInfo.get c).map CandidateMetadata.tier

/-- The shift leaves the tiers, the selected full nodes and the round as they are. -/
structure Still (s s' : State AccountId R) : Prop where
  tier : s'.ledger.tier = s.ledger.tier
  full : s'.selection.selectedFullCandidates = s.selection.selectedFullCandidates
  now : s'.now = s.now

/-- The shift changes the tier of one candidate. -/
structure Retiers (c : AccountId) (tier : Option TierType) (s s' : State AccountId R) : Prop where
  tier : s'.ledger.tier = Function.update s.ledger.tier c tier
  full : s'.selection.selectedFullCandidates = s.selection.selectedFullCandidates
  now : s'.now = s.now

/-- **One shift**: a call of the relay manager, with what goes with it in the ledger. -/
inductive Shift (rm : RelayManager AccountId R) (leave : State AccountId R → AccountId → Prop)
    (s s' : State AccountId R) : Prop
  /-- The relay manager is not called. -/
  | idle (hstill : Still s s') (hrelay : s'.relay = s.relay)
  /-- A candidate joins, or a basic node becomes a full node. -/
  | joined (c : AccountId) (relayer : Option AccountId) (hold : s.ledger.tier c ≠ some .full)
      (htier : Retiers c (some (if relayer.isSome then .full else .basic)) s s')
      (hrelay : State.joinedRelay rm s.relay relayer c = .ok s'.relay)
  /-- A candidate is gone, or a full node becomes a basic node. -/
  | left (c : AccountId) (tier : Option TierType) (hleave : leave s c) (hne : tier ≠ some .full)
      (htier : Retiers c tier s s') (hrelay : s'.relay = rm.leaveRelayers s.relay c)
  /-- A candidate is taken out of the selected set. -/
  | dropped (c : AccountId) (htier : s'.ledger.tier = s.ledger.tier)
      (hfull : s'.selection.selectedFullCandidates =
        if s.ledger.tier c = some .full then s.selection.selectedFullCandidates.erase c
        else s.selection.selectedFullCandidates)
      (hrelay : s'.relay =
        if s.ledger.tier c = some .full then rm.kickoutRelayer s.relay c else s.relay)
      (hnow : s'.now = s.now)
  /-- A session ends. -/
  | heartbeats (hstill : Still s s') (hrelay : s'.relay = rm.collectHeartbeats s.relay)
  /-- A round begins. -/
  | chosen (full : List AccountId) (htier : s'.ledger.tier = s.ledger.tier)
      (hkind : ∀ c ∈ full, s.ledger.tier c = some .full)
      (hfull : s'.selection.selectedFullCandidates = full.toFinset) (hnow : s'.now = s.now + 1)
      (hrelay : s'.relay = rm.refreshMajority (rm.refreshSelectedRelayers
        (rm.handleDelayedRelayerSets (rm.refreshRound s.relay s'.now) s'.now) s'.now full) s'.now)
  /-- A controller changes, in the round that has just begun. -/
  | renamed {old new : AccountId} {tier : TierType} (hold : s.ledger.tier old = some tier)
      (hfree : s.ledger.tier new = none)
      (htier : ∀ k, s'.ledger.tier k =
        if k = new then some tier else if k = old then none else s.ledger.tier k)
      (hfull : s'.selection.selectedFullCandidates =
        if old ∈ s.selection.selectedFullCandidates then
          insert new (s.selection.selectedFullCandidates.erase old)
        else s.selection.selectedFullCandidates)
      (hrelay : s'.relay =
        if tier = .full then rm.replaceBondedController s.relay old new else s.relay)
      (hnow : s'.now = s.now)

/-- A sequence of shifts. -/
abbrev Shifts (rm : RelayManager AccountId R) (leave : State AccountId R → AccountId → Prop) :
    State AccountId R → State AccountId R → Prop := Relation.ReflTransGen (Shift rm leave)

/-! ## Tiers -/

omit [LinearOrder AccountId] in
lemma Ledger.tier_eq_standing (l : Ledger AccountId) (c : AccountId) :
    l.tier c = (l.standing c).map fun x => x.2.2 := by
  rw [tier, standing, Option.map_map]
  rfl

omit [LinearOrder AccountId] in
lemma Ledger.tier_congr {l l' : Ledger AccountId} (h : l'.standing = l.standing) :
    l'.tier = l.tier := by
  funext c
  rw [tier_eq_standing, h, tier_eq_standing]

omit [LinearOrder AccountId] in
lemma Ledger.tier_of_get {l : Ledger AccountId} {c : AccountId} {m : CandidateMetadata AccountId}
    (h : l.candidateInfo.get c = some m) : l.tier c = some m.tier := by
  rw [tier, h, Option.map_some]

/-- A record is put in. -/
lemma Ledger.tier_insert {l l' : Ledger AccountId} {c : AccountId} {m : CandidateMetadata AccountId}
    {t : TierType} (h : l'.candidateInfo = l.candidateInfo.insert c m) (ht : m.tier = t) :
    l'.tier = Function.update l.tier c (some t) := by
  subst ht
  funext k
  simp only [tier, h, StorageMap.get_insert, Function.update_apply]
  split_ifs <;> rfl

/-- A record is rewritten without its tier. -/
lemma Ledger.tier_rewrite {l l' : Ledger AccountId} {c : AccountId}
    {m m' : CandidateMetadata AccountId} (hm : l.candidateInfo.get c = some m)
    (h : l'.candidateInfo = l.candidateInfo.insert c m') (htier : m'.tier = m.tier) :
    l'.tier = l.tier := by
  rw [tier_insert h htier, ← tier_of_get hm, Function.update_eq_self]

/-! ## Calls -/

section Calls

variable {cfg : Config AccountId} {rm : RelayManager AccountId R} {s s' : State AccountId R}
  {leave : State AccountId R → AccountId → Prop} {who : AccountId} {origin : Origin AccountId}

/-- `join_candidates` is one shift. -/
lemma State.joinCandidates_shift {controller : AccountId} {relayer : Option AccountId}
    {bond count : ℕ} (h : s.joinCandidates cfg rm who controller relayer bond count = .ok s') :
    Shift rm leave s s' := by
  simp only [State.joinCandidates, Ledger.join, Ledger.tryInsertPool, bind_eq_ok, ensure_eq_ok,
    pure_eq_ok, exists_const] at h
  obtain ⟨-, hfree, -, -, -, -, -, currency, -, relay, hrelay, l, ⟨l₁, ⟨-, rfl⟩, rfl⟩, rfl⟩ := h
  refine .joined controller relayer ?_ ⟨Ledger.tier_insert rfl rfl, rfl, rfl⟩ hrelay
  rw [Ledger.tier, Option.isNone_iff_eq_none.mp hfree]
  simp

/-- `execute_leave_candidates` is one shift. -/
lemma State.executeLeaveCandidates_shift {count : ℕ}
    (hleave : ∀ c, s.ledger.bondedStash.get who = some c → leave s c)
    (h : s.executeLeaveCandidates rm who count = .ok s') : Shift rm leave s s' := by
  simp only [State.executeLeaveCandidates, bind_eq_ok, ensure_eq_ok, pure_eq_ok, exists_const,
    Prod.exists] at h
  obtain ⟨controller, m, hbd, -, ⟨⟩, -, l, hexec, rfl⟩ := h
  obtain ⟨hstash, -⟩ := Ledger.bonded_spec hbd
  obtain ⟨hinfo, -, -⟩ := Ledger.executeLeave_frame hexec
  refine .left controller none (hleave controller hstash) (by simp)
    ⟨?_, rfl, rfl⟩ rfl
  funext k
  simp only [Ledger.tier, hinfo, StorageMap.get_remove, Function.update_apply]
  split_ifs <;> rfl

/-- `set_validator_tier` is one shift. -/
lemma State.setValidatorTier_shift {more : ℕ} {new : TierType} {relayer : Option AccountId}
    (hleave : relayer = none → ∀ c, s.ledger.bondedStash.get who = some c → leave s c)
    (h : s.setValidatorTier cfg rm who more new relayer = .ok s') : Shift rm leave s s' := by
  simp only [State.setValidatorTier, bind_eq_ok, ensure_eq_ok, pure_eq_ok, exists_const,
    Prod.exists] at h
  obtain ⟨controller, m, hbd, hne, m', l, relay, hmore, rfl⟩ := h
  obtain ⟨hstash, hm⟩ := Ledger.bonded_spec hbd
  have hbond := State.bondForTier_ok hmore
  simp only [CandidateMetadata.bondMore, bind_eq_ok, pure_eq_ok, Prod.mk.injEq] at hbond
  obtain ⟨currency, -, rfl, rfl⟩ := hbond
  have htier : ∀ {x : CandidateMetadata AccountId} {t : State AccountId R},
      t.ledger.candidateInfo = s.ledger.candidateInfo → x.tier = new →
      ((t.putCandidate controller x).ledger.updateActive controller x.votingPower).tier =
        Function.update s.ledger.tier controller (some new) := by
    intro x t ht hx
    refine Ledger.tier_insert ((Ledger.updateActive_candidateInfo _ _ _).trans ?_) hx
    exact congrArg (fun info => info.insert controller x) ht
  cases relayer with
  | some r =>
      simp only [State.bondForTier, bind_eq_ok, ensure_eq_ok, pure_eq_ok, exists_const,
        Prod.mk.injEq] at hmore
      obtain ⟨hnew, -, -, -, -, relay', hjoin, -, rfl⟩ := hmore
      refine .joined controller (some r) ?_ ⟨?_, rfl, rfl⟩ hjoin
      · rw [Ledger.tier_of_get hm, ← hnew]
        simpa using hne
      · rw [Option.isSome_some, if_pos rfl, ← hnew]
        exact htier rfl rfl
  | none =>
      simp only [State.bondForTier, bind_eq_ok, ensure_eq_ok, pure_eq_ok, exists_const,
        Prod.mk.injEq] at hmore
      obtain ⟨hnew, -, -, -, -, rfl⟩ := hmore
      refine .left controller (some new) (hleave rfl controller hstash) ?_
        ⟨?_, rfl, rfl⟩ rfl
      · rw [hnew]
        simp
      · exact htier rfl rfl

/-- `go_offline` is one shift. -/
lemma State.goOffline_shift (h : s.goOffline rm who = .ok s') : Shift rm leave s s' := by
  simp only [State.goOffline, Ledger.removeFromCandidatePool, bind_eq_ok, okOr_eq_ok, ensure_eq_ok,
    pure_eq_ok, exists_const] at h
  obtain ⟨m, hm, -, ⟨⟩, -, rfl⟩ := h
  have htier : s.ledger.tier who = some .full ↔ m.tier = .full := by
    rw [Ledger.tier_of_get hm, Option.some.injEq]
  refine .dropped who (Ledger.tier_rewrite hm rfl rfl) ?_ ?_ rfl
  · simp only [htier]
    exact Selection.remove_full _ _ _
  · simp only [htier]
    rfl

/-- A record is rewritten without its tier. -/
lemma Shift.of_put {c : AccountId} {m m' : CandidateMetadata AccountId}
    (hm : s.ledger.candidateInfo.get c = some m)
    (hinfo : s'.ledger.candidateInfo = s.ledger.candidateInfo.insert c m')
    (htier : m'.tier = m.tier) (hsel : s'.selection = s.selection) (hnow : s'.now = s.now)
    (hrelay : s'.relay = s.relay) : Shift rm leave s s' :=
  .idle ⟨Ledger.tier_rewrite hm hinfo htier, by rw [hsel], hnow⟩ hrelay

lemma State.scheduleLeaveCandidates_shift {count : ℕ}
    (h : s.scheduleLeaveCandidates cfg who count = .ok s') : Shift rm leave s s' := by
  simp only [State.scheduleLeaveCandidates, Ledger.removeFromCandidatePool,
    CandidateMetadata.scheduleLeave, bind_eq_ok, okOr_eq_ok, ensure_eq_ok, pure_eq_ok,
    exists_const] at h
  obtain ⟨m, hm, -, -, -, ⟨⟩, -, m', ⟨-, -, rfl⟩, rfl⟩ := h
  exact .of_put hm rfl rfl rfl rfl rfl

lemma State.cancelLeaveCandidates_shift {count : ℕ}
    (h : s.cancelLeaveCandidates who count = .ok s') : Shift rm leave s s' := by
  simp only [State.cancelLeaveCandidates, Ledger.tryInsertPool, bind_eq_ok, okOr_eq_ok,
    ensure_eq_ok, pure_eq_ok, exists_const] at h
  obtain ⟨m, hm, -, -, l, ⟨-, rfl⟩, rfl⟩ := h
  exact .of_put hm rfl rfl rfl rfl rfl

lemma State.goOnline_shift (h : s.goOnline who = .ok s') : Shift rm leave s s' := by
  simp only [State.goOnline, Ledger.tryInsertPool, bind_eq_ok, okOr_eq_ok, ensure_eq_ok,
    pure_eq_ok, exists_const] at h
  obtain ⟨m, hm, -, -, l, ⟨-, rfl⟩, rfl⟩ := h
  exact .of_put hm rfl rfl rfl rfl rfl

lemma Routine.shift (h : Routine cfg s s') : Shift rm leave s s' := by
  refine .idle ⟨Ledger.tier_congr h.terms.standing, ?_, h.now⟩ h.relay
  rw [h.selection]

end Calls

/-! ## Hooks -/

section Hooks

variable {cfg : Config AccountId} {rm : RelayManager AccountId R} {s s' : State AccountId R}
  {leave : State AccountId R → AccountId → Prop}

/-- `on_initialize` pays. -/
lemma State.onInitialize_shift {n : ℕ} {drained : Option AccountId} {paid : Option (AccountId × ℕ)}
    (h : s.onInitialize cfg n drained = some (paid, s')) : Shift rm leave s s' := by
  rcases State.onInitialize_cases h with ⟨snapshot, -, hpay⟩
  cases hpay with
  | idle => exact .idle ⟨rfl, rfl, rfl⟩ rfl
  | closed => exact .idle ⟨rfl, rfl, rfl⟩ rfl
  | lost => exact .idle ⟨rfl, rfl, rfl⟩ rfl
  | paid _ _ _ hl =>
      exact .idle ⟨Ledger.tier_congr (Ledger.payValidator_onTerms hl).standing, rfl, rfl⟩ rfl

lemma State.noteAuthor_shift (author : AccountId) : Shift rm leave s (s.noteAuthor author) := by
  have hroll : OnRoll s.ledger (s.noteAuthor author).ledger := by
    refine OnRoll.modifyCandidate (fun m => ?_) _ _
    exact ⟨rfl, rfl⟩
  exact .idle ⟨Ledger.tier_congr hroll.standing, rfl, rfl⟩ rfl

/-- One offender is one shift: it is dropped, or the relay manager is not called. -/
lemma State.offend_shift {slashSession : ℕ} {details : AccountId × Perbill}
    (h : s.offend cfg rm slashSession details = some s') : Shift rm leave s s' := by
  obtain ⟨who, fraction⟩ := details
  cases State.offend_cases h with
  | ignored _ => exact .idle ⟨rfl, rfl, rfl⟩ rfl
  | recorded _ _ _ => exact .idle ⟨rfl, rfl, rfl⟩ rfl
  | @punished m amount _ _ hm _ _ =>
      obtain ⟨request, hm', -⟩ := State.slashed_eq cfg m.kickOut amount
      have hkept : (State.slashed cfg m.kickOut amount).tier = m.tier := by
        rw [hm']
        rfl
      have htier : s.ledger.tier who = some .full ↔ m.tier = .full := by
        rw [Ledger.tier_of_get hm, Option.some.injEq]
      refine .dropped who ?_ ?_ ?_ rfl
      · exact Ledger.tier_rewrite hm rfl hkept
      · simp only [htier]
        exact Selection.remove_full _ _ _
      · simp only [htier]
        rfl

/-- `on_offence` is a sequence of shifts, one for each offender. -/
lemma State.onOffence_shifts {offenders : List (AccountId × Perbill)} {slashSession : ℕ}
    (h : s.onOffence cfg rm offenders slashSession = some s') : Shifts rm leave s s' :=
  foldlM_invariant (P := Shifts rm leave s)
    (fun _ _ _ ht hstep => ht.tail (State.offend_shift hstep)) h .refl

/-! ### Rounds -/

/-- The loop that takes the snapshots of the selected candidates. -/
lemma State.collectValidatorSnapshot_relay {now : ℕ} {validators : List AccountId}
    {counts : ℕ × ℕ × ℕ} (h : s.collectValidatorSnapshot now validators = some (counts, s')) :
    s'.relay = s.relay := by
  refine foldlM_invariant (P := fun acc => acc.2.relay = s.relay) (fun acc v acc' hacc hv => ?_) h
    rfl
  simp only [State.countSnapshot, Option.bind_eq_bind, Option.bind_eq_some_iff, Option.pure_def,
    Option.some.injEq] at hv
  obtain ⟨m, -, top, -, rfl⟩ := hv
  exact hacc

lemma State.updateTopCandidates_relay {now : ℕ} {full basic : List AccountId}
    {counts : ℕ × ℕ × ℕ} (h : s.updateTopCandidates rm now full basic = some (counts, s')) :
    s'.relay = rm.refreshSelectedRelayers s.relay now full := by
  simp only [State.updateTopCandidates, Option.bind_eq_bind, Option.bind_eq_some_iff,
    Option.pure_def, Option.some.injEq, Prod.exists, Prod.mk.injEq] at h
  obtain ⟨c₁, c₂, c₃, s₁, h₁, d₁, d₂, d₃, s₂, h₂, -, rfl⟩ := h
  have hrelay : s₂.relay = s.relay :=
    (State.collectValidatorSnapshot_relay h₂).trans (State.collectValidatorSnapshot_relay h₁)
  exact congrArg (fun r => rm.refreshSelectedRelayers r now full) hrelay

omit [LinearOrder AccountId] in
lemma State.prepareStakingPayouts_relay (cfg : Config AccountId) (s : State AccountId R) (now : ℕ) :
    (s.prepareStakingPayouts cfg now).relay = s.relay := by
  rw [State.prepareStakingPayouts]
  dsimp only
  split_ifs <;> rfl

lemma State.selectForRound_relay {round : RoundInfo} {full basic : List AccountId} {count : ℕ}
    (h : s.selectForRound cfg rm round full basic = some (count, s')) :
    s'.relay = rm.refreshSelectedRelayers (rm.handleDelayedRelayerSets
      (rm.refreshRound s.relay round.currentRoundIndex) round.currentRoundIndex)
      round.currentRoundIndex full := by
  simp only [State.selectForRound, Option.bind_eq_bind, Option.bind_eq_some_iff, Option.pure_def,
    Option.some.injEq, Prod.exists, Prod.mk.injEq] at h
  obtain ⟨validators, nominations, stake, s₁, h₁, -, rfl⟩ := h
  rw [State.updateTopCandidates_relay h₁, State.prepareStakingPayouts_relay]

/-- One controller change is one shift. -/
lemma State.applyControllerSet_shift {now : ℕ} {c : DelayedControllerSet AccountId}
    {m : CandidateMetadata AccountId} (hm : s.ledger.candidateInfo.get c.old = some m)
    (hfree : s.ledger.candidateInfo.get c.new = none)
    (hinfo : (s.applyControllerSet rm now c).ledger.candidateInfo =
      (s.ledger.candidateInfo.remove c.old).insert c.new m) (hfit : Fitting s) :
    Shift rm leave s (s.applyControllerSet rm now c) := by
  have hnew : s.ledger.tier c.new = none := by
    rw [Ledger.tier, hfree]
    rfl
  refine .renamed (Ledger.tier_of_get hm) hnew (fun k => ?_) ?_ ?_ ?_
  · simp only [Ledger.tier, hinfo, StorageMap.get_insert, StorageMap.get_remove]
    split_ifs <;> rfl
  · -- the part of the selected set tells the tier
    have hmem : c.old ∈ s.selection.selectedFullCandidates ↔
        m.isSelected = true ∧ m.tier = .full := by
      rw [hfit.full_iff, Ledger.standing, hm]
      simp [CandidateMetadata.standing]
    simp only [State.applyControllerSet, hm, hmem]
    by_cases hsel : m.isSelected = true
    · simp only [hsel, if_true, Selection.replace_full, true_and]
    · simp only [hsel]
      rfl
  · simp only [State.applyControllerSet, hm]
  · simp only [State.applyControllerSet, hm]
    rfl

/-- The controller changes of a round are a sequence of shifts, one for each change. -/
lemma State.applyControllerSets_shifts {now : ℕ} :
    ∀ {cs : List (DelayedControllerSet AccountId)} {s : State AccountId R},
      LedgerInv cfg s.ledger → Pending s.ledger cs → Fitting s →
      Shifts rm leave s (cs.foldl (State.applyControllerSet rm now) s) := by
  intro cs
  induction cs with
  | nil =>
      intro s _ _ _
      exact .refl
  | cons c cs ih =>
      intro s hl hp hfit
      obtain ⟨m, top, bottom, hm, hren, hbal⟩ := State.applyControllerSet_renamed hl hp
      have hnew := hp.unused c List.mem_cons_self
      obtain ⟨-, hfit'⟩ : Turn cfg (fun _ _ => True) (fun _ _ => True) s
          (s.applyControllerSet rm now c) ∧ Fitting (s.applyControllerSet rm now c) :=
        State.applyControllerSet_turn hm hnew hren.info_eq hfit
      exact .head (State.applyControllerSet_shift hm hnew hren.info_eq hfit)
        (ih (hbal.inv hl) (hp.tail hren) hfit')

/-- `new_round` is a sequence of shifts: the choice first, then the controller changes. -/
lemma State.newRound_shifts {now : ℕ} {full basic : List AccountId} (hs : StateInv cfg s)
    (hq : Qualified s.ledger full basic) (h : s.newRound cfg rm now full basic = some s') :
    Shifts rm leave s s' := by
  simp only [State.newRound, Option.map_eq_some_iff, Prod.exists] at h
  obtain ⟨count, s₁, h₁, rfl⟩ := h
  let s₃ : State AccountId R := (s₁.startRound rm (s.round.updateRound s.session now)
    count).handleDelayedCommissionSets (s.now + 1)
  obtain ⟨hinv, hpending, -, hchosen⟩ := State.selectForRound_midway hs hq h₁ rfl
  let s₄ : State AccountId R :=
    { s₃ with delayedControllerSets := s₃.delayedControllerSets.remove (s.now + 1 - 1) }
  have hfit : Fitting s₄ :=
    ⟨hchosen.fitting.mem_iff, hchosen.fitting.full_iff, hchosen.fitting.basic_iff⟩
  have hselect : Shift rm leave s s₄ := by
    refine .chosen full ?_ (fun c hc => ?_) hchosen.full_eq hchosen.now ?_
    · funext c
      show s₃.ledger.tier c = s.ledger.tier c
      rw [Ledger.tier_eq_standing, hchosen.standing, Option.map_map, Ledger.tier_eq_standing]
      rfl
    · obtain ⟨x, hx, hfull⟩ := hq.full_tier c hc
      rw [Ledger.tier_eq_standing, hx, Option.map_some, hfull]
    · exact congrArg (fun r => rm.refreshMajority r (s.now + 1)) (State.selectForRound_relay h₁)
  exact .head hselect (State.applyControllerSets_shifts (s := s₄) hinv hpending hfit)

/-- `new_session` is a sequence of shifts, with those of `new_round` at the end of a round. -/
lemma State.newSession_shifts {now newIndex : ℕ} {validators : List AccountId}
    {hasKeys : AccountId → Bool} {out : Option (List AccountId)} (hs : StateInv cfg s)
    (h : s.newSession cfg rm now newIndex validators hasKeys = some (out, s')) :
    Shifts rm leave s s' := by
  simp only [State.newSession, State.tryNewRound, Option.bind_eq_bind, Option.bind_eq_some_iff,
    Option.pure_def, Option.some.injEq, Prod.mk.injEq] at h
  obtain ⟨s₁, h₁, -, rfl⟩ := h
  have hroll := State.enterSession_onRoll s now newIndex validators
  have henter : Shift rm leave s (s.enterSession now newIndex validators) :=
    .idle ⟨Ledger.tier_congr hroll.standing, rfl, rfl⟩ rfl
  have hround : Shifts rm leave (s.enterSession now newIndex validators) s₁ := by
    split_ifs at h₁
    · exact State.newRound_shifts ((State.enterSession_keeps s now newIndex validators).inv hs)
        (State.computeTopCandidates_qualified cfg _ hasKeys) h₁
    · obtain rfl := Option.some.inj h₁
      exact .refl
  exact .head henter (hround.tail (.idle ⟨rfl, rfl, rfl⟩ rfl))

end Hooks

/-! ## Steps -/

section Steps

variable {cfg : Config AccountId} {rm : RelayManager AccountId R} {s s' : State AccountId R}
  {leave : State AccountId R → AccountId → Prop}

/-- Whoever leaves the relayers in the step, because it exits or becomes a basic node, meets
`leave`. -/
def Step.Leaves (leave : State AccountId R → AccountId → Prop) (s : State AccountId R) :
    Step AccountId R → Prop
  | .call (.signed stash) (.executeLeaveCandidates _) =>
      ∀ c, s.ledger.bondedStash.get stash = some c → leave s c
  | .call (.signed stash) (.setValidatorTier _ _ none) =>
      ∀ c, s.ledger.bondedStash.get stash = some c → leave s c
  | _ => True

/-- A call is one shift. -/
lemma State.dispatch_shift {origin : Origin AccountId} {call : Call AccountId}
    (hcond : (Step.call origin call : Step AccountId R).Leaves leave s)
    (h : s.dispatch cfg rm origin call = .ok s') : Shift rm leave s s' := by
  have hsigned := State.signed_of_dispatch h
  cases call with
  | joinCandidates controller relayer bond count =>
      obtain ⟨who, -, hcall⟩ := hsigned rfl
      exact State.joinCandidates_shift hcall
  | executeLeaveCandidates count =>
      obtain ⟨who, rfl, hcall⟩ := hsigned rfl
      exact State.executeLeaveCandidates_shift hcond hcall
  | setValidatorTier more new relayer =>
      obtain ⟨who, rfl, hcall⟩ := hsigned rfl
      refine State.setValidatorTier_shift (fun hnone => ?_) hcall
      subst hnone
      exact hcond
  | scheduleLeaveCandidates count =>
      obtain ⟨who, -, hcall⟩ := hsigned rfl
      exact State.scheduleLeaveCandidates_shift hcall
  | cancelLeaveCandidates count =>
      obtain ⟨who, -, hcall⟩ := hsigned rfl
      exact State.cancelLeaveCandidates_shift hcall
  | goOnline =>
      obtain ⟨who, -, hcall⟩ := hsigned rfl
      exact State.goOnline_shift hcall
  | goOffline =>
      obtain ⟨who, -, hcall⟩ := hsigned rfl
      exact State.goOffline_shift hcall
  | _ => exact (State.dispatch_routine rfl h).shift

/-- **Every step but those of the relay manager** is a sequence of shifts. -/
theorem State.step_shifts {step : Step AccountId R} (hs : StateInv cfg s)
    (hcond : step.Leaves leave s) (hrelay : ∀ state, step ≠ .relay state)
    (h : s.step cfg rm step = some s') : Shifts rm leave s s' := by
  cases step with
  | call origin call =>
      obtain rfl := Option.some.inj h
      exact commit_induction (P := Shifts rm leave s) .refl
        fun _ ht => .single (State.dispatch_shift hcond ht)
  | onInitialize n drained =>
      obtain ⟨⟨paid, s₁⟩, h₁, rfl⟩ := Option.map_eq_some_iff.mp h
      exact .single (State.onInitialize_shift h₁)
  | noteAuthor author =>
      obtain rfl := Option.some.inj h
      exact .single (State.noteAuthor_shift author)
  | newSession now newIndex validators hasKeys =>
      obtain ⟨⟨out, s₁⟩, h₁, rfl⟩ := Option.map_eq_some_iff.mp h
      exact State.newSession_shifts hs h₁
  | onOffence offenders slashSession => exact State.onOffence_shifts h
  | endSession =>
      obtain rfl := Option.some.inj h
      exact .single (.heartbeats ⟨rfl, rfl, rfl⟩ rfl)
  | balances free others =>
      obtain rfl := Option.some.inj h
      exact .single (.idle ⟨rfl, rfl, rfl⟩ rfl)
  | relay state => exact absurd rfl (hrelay state)
  | offenceSettings isOffenceActive isSlashActive expiration full basic =>
      obtain rfl := Option.some.inj h
      exact .single (.idle ⟨rfl, rfl, rfl⟩ rfl)

end Steps

end BifrostNode.Staking
