import BifrostNode.Staking.Roster

/-!
# The top candidates

**The choice.**  `compute_top_candidates` sorts the pool by voting power, takes of each tier those who
have bonded enough and have enough voting power, and keeps as many as the round has places.  What it
reads of the pool is the voting power in the records, because the pool repeats them.

**The bound.**  The pool is bounded (`Enrolled`): whoever enters it is counted, and a controller change
moves an entry.  The chosen sets are parts of it, so that none of the conversions of
`update_top_candidates` into a bounded set fails, whatever the numbers of places are.
-/

namespace BifrostNode.Staking

open Transition

variable {AccountId R : Type} [LinearOrder AccountId]

/-! ## The size of a map -/

section Size

variable {K V : Type} [DecidableEq K] {m : StorageMap K V} {n : ℕ}

/-- A key that is new needs room. -/
lemma card_insert_le {k : K} {v : V} (hroom : (m.get k).isSome = true ∨ m.keys.card < n)
    (hle : m.keys.card ≤ n) : (m.insert k v).keys.card ≤ n := by
  show (insert k m.keys).card ≤ n
  rcases hroom with hmem | hlt
  · rw [Finset.insert_eq_self.mpr ((m.mem_keys k).mpr hmem)]
    exact hle
  · exact (Finset.card_insert_le k m.keys).trans hlt

lemma card_remove_le (k : K) : (m.remove k).keys.card ≤ m.keys.card := Finset.card_erase_le

/-- A key that moves needs no room. -/
lemma card_moveKey_le (old new : K) (f : V → V) : (m.moveKey old new f).keys.card ≤ m.keys.card := by
  cases h : m.get old with
  | none => rw [StorageMap.moveKey, h]
  | some v =>
      have hold : old ∈ m.keys := (m.mem_keys old).mpr (by rw [h]; rfl)
      rw [StorageMap.moveKey, h]
      refine (Finset.card_insert_le new (m.keys.erase old)).trans ?_
      rw [Finset.card_erase_add_one hold]

end Size

/-! ## Who is enrolled -/

/-- **The pool is bounded**, and every candidate is of one of the two tiers. -/
structure Enrolled (l : Ledger AccountId) : Prop where
  fits : l.candidatePool.keys.card ≤ maxAuthorities
  tiered : ∀ c x, l.standing c = some x → x.2.2 ≠ .all

section Ledgers

variable {l l' : Ledger AccountId} {c : AccountId} {m m' : CandidateMetadata AccountId}

omit [LinearOrder AccountId] in
/-- The pool has the active candidates. -/
lemma Ledger.PoolAgrees.mem_keys (h : l.PoolAgrees) (c : AccountId) :
    c ∈ l.candidatePool.keys ↔ ∃ x, l.standing c = some x ∧ x.1 = .active := by
  rw [l.candidatePool.mem_keys, h c, Ledger.standing]
  cases hm : l.candidateInfo.get c with
  | none => simp
  | some m =>
      rw [Option.bind_some, CandidateMetadata.entry]
      by_cases hactive : m.status = .active
      · simp [CandidateMetadata.isActive, CandidateMetadata.standing, hactive]
      · simp [CandidateMetadata.isActive, CandidateMetadata.standing, hactive]

omit [LinearOrder AccountId] in
/-- Nobody becomes active, and nobody changes its tier. -/
lemma Enrolled.fewer (he : Enrolled l) (hp : l.PoolAgrees) (hp' : l'.PoolAgrees)
    (h : ∀ c x', l'.standing c = some x' →
      ∃ x, l.standing c = some x ∧ (x'.1 = .active → x.1 = .active) ∧ x'.2.2 = x.2.2) :
    Enrolled l' := by
  refine ⟨(Finset.card_le_card fun c hc => ?_).trans he.fits, fun c x' hx' => ?_⟩
  · obtain ⟨x', hx', hactive⟩ := (hp'.mem_keys c).mp hc
    obtain ⟨x, hx, himp, -⟩ := h c x' hx'
    exact (hp.mem_keys c).mpr ⟨x, hx, himp hactive⟩
  · obtain ⟨x, hx, -, htier⟩ := h c x' hx'
    rw [htier]
    exact he.tiered c x hx

omit [LinearOrder AccountId] in
lemma Enrolled.roll (he : Enrolled l) (hp : l.PoolAgrees) (h : OnRoll l l') : Enrolled l' := by
  refine he.fewer hp (h.pool hp) fun c x' hx' => ?_
  rw [h.standing] at hx'
  exact ⟨x', hx', id, rfl⟩

/-- A record is put in, and the pool still fits. -/
lemma Enrolled.put (he : Enrolled l) (hinfo : l'.candidateInfo = l.candidateInfo.insert c m')
    (htier : m'.tier ≠ .all) (hfits : l'.candidatePool.keys.card ≤ maxAuthorities) :
    Enrolled l' := by
  refine ⟨hfits, fun k x hx => ?_⟩
  rw [Ledger.standing, hinfo, StorageMap.get_insert] at hx
  split_ifs at hx
  · obtain rfl := Option.some.inj hx
    exact htier
  · exact he.tiered k x hx

/-- A record is rewritten without its tier. -/
lemma Enrolled.rewrite (he : Enrolled l) (hm : l.candidateInfo.get c = some m)
    (hinfo : l'.candidateInfo = l.candidateInfo.insert c m') (htier : m'.tier = m.tier)
    (hfits : l'.candidatePool.keys.card ≤ maxAuthorities) : Enrolled l' := by
  have hstand : l.standing c = some m.standing := by
    rw [Ledger.standing, hm]
    rfl
  refine he.put hinfo ?_ hfits
  rw [htier]
  exact he.tiered c m.standing hstand

end Ledgers

/-! ## Calls -/

section Calls

variable {cfg : Config AccountId} {rm : RelayManager AccountId R} {s s' : State AccountId R}
  {who : AccountId} {origin : Origin AccountId}

/-- Who joins is counted. -/
lemma State.joinCandidates_enrolled {controller : AccountId} {relayer : Option AccountId}
    {bond count : ℕ} (he : Enrolled s.ledger)
    (h : s.joinCandidates cfg rm who controller relayer bond count = .ok s') :
    Enrolled s'.ledger := by
  simp only [State.joinCandidates, Ledger.join, Ledger.tryInsertPool, bind_eq_ok, ensure_eq_ok,
    pure_eq_ok, exists_const] at h
  obtain ⟨-, -, -, -, -, -, -, currency, -, relay, -, l, ⟨l₁, ⟨hroom, rfl⟩, rfl⟩, rfl⟩ := h
  refine he.put (c := controller) rfl ?_ (card_insert_le hroom he.fits)
  show (if relayer.isSome then TierType.full else .basic) ≠ .all
  split_ifs <;> decide

lemma State.cancelLeaveCandidates_enrolled {count : ℕ} (he : Enrolled s.ledger)
    (h : s.cancelLeaveCandidates who count = .ok s') : Enrolled s'.ledger := by
  simp only [State.cancelLeaveCandidates, Ledger.tryInsertPool, bind_eq_ok, okOr_eq_ok,
    ensure_eq_ok, pure_eq_ok, exists_const] at h
  obtain ⟨m, hm, -, -, l, ⟨hroom, rfl⟩, rfl⟩ := h
  exact he.rewrite hm rfl rfl (card_insert_le hroom he.fits)

lemma State.goOnline_enrolled (he : Enrolled s.ledger) (h : s.goOnline who = .ok s') :
    Enrolled s'.ledger := by
  simp only [State.goOnline, Ledger.tryInsertPool, bind_eq_ok, okOr_eq_ok, ensure_eq_ok,
    pure_eq_ok, exists_const] at h
  obtain ⟨m, hm, -, -, l, ⟨hroom, rfl⟩, rfl⟩ := h
  exact he.rewrite hm rfl rfl (card_insert_le hroom he.fits)

lemma State.scheduleLeaveCandidates_enrolled {count : ℕ} (he : Enrolled s.ledger)
    (h : s.scheduleLeaveCandidates cfg who count = .ok s') : Enrolled s'.ledger := by
  simp only [State.scheduleLeaveCandidates, Ledger.removeFromCandidatePool,
    CandidateMetadata.scheduleLeave, bind_eq_ok, okOr_eq_ok, ensure_eq_ok, pure_eq_ok,
    exists_const] at h
  obtain ⟨m, hm, -, -, -, ⟨⟩, -, m', ⟨-, -, rfl⟩, rfl⟩ := h
  exact he.rewrite hm rfl rfl ((card_remove_le who).trans he.fits)

lemma State.goOffline_enrolled (he : Enrolled s.ledger) (h : s.goOffline rm who = .ok s') :
    Enrolled s'.ledger := by
  simp only [State.goOffline, Ledger.removeFromCandidatePool, bind_eq_ok, okOr_eq_ok, ensure_eq_ok,
    pure_eq_ok, exists_const] at h
  obtain ⟨m, hm, -, ⟨⟩, -, rfl⟩ := h
  exact he.rewrite hm rfl rfl ((card_remove_le who).trans he.fits)

/-- Who leaves is not in the pool any more. -/
lemma State.executeLeaveCandidates_enrolled {count : ℕ} (he : Enrolled s.ledger)
    (h : s.executeLeaveCandidates rm who count = .ok s') : Enrolled s'.ledger := by
  simp only [State.executeLeaveCandidates, bind_eq_ok, ensure_eq_ok, pure_eq_ok, exists_const,
    Prod.exists] at h
  obtain ⟨controller, m, -, -, ⟨⟩, -, l, hleave, rfl⟩ := h
  obtain ⟨hinfo, -, hpool⟩ := Ledger.executeLeave_frame hleave
  refine ⟨?_, fun k x hx => he.tiered k x ?_⟩
  · show l.candidatePool.keys.card ≤ maxAuthorities
    rw [hpool]
    exact he.fits
  · rw [Ledger.standing, hinfo, StorageMap.get_remove] at hx
    split_ifs at hx
    · cases hx
    · exact hx

/-- The new tier is one of the two. -/
lemma State.bondForTier_tier {controller : AccountId} {m : CandidateMetadata AccountId}
    {p : (CandidateMetadata AccountId × Ledger AccountId) × R} {more : ℕ} {new : TierType}
    {relayer : Option AccountId}
    (h : s.bondForTier cfg rm who controller m more new relayer = .ok p) : new ≠ .all := by
  cases relayer with
  | none =>
      simp only [State.bondForTier, bind_eq_ok, ensure_eq_ok, exists_const] at h
      rw [h.1]
      decide
  | some relayer =>
      simp only [State.bondForTier, bind_eq_ok, ensure_eq_ok, exists_const] at h
      rw [h.1]
      decide

lemma State.setValidatorTier_enrolled {more : ℕ} {new : TierType} {relayer : Option AccountId}
    (he : Enrolled s.ledger) (h : s.setValidatorTier cfg rm who more new relayer = .ok s') :
    Enrolled s'.ledger := by
  simp only [State.setValidatorTier, bind_eq_ok, ensure_eq_ok, pure_eq_ok, exists_const,
    Prod.exists] at h
  obtain ⟨controller, m, hbd, -, m', l, relay, hmore, rfl⟩ := h
  have htier : new ≠ .all := State.bondForTier_tier hmore
  have hbond := State.bondForTier_ok hmore
  simp only [CandidateMetadata.bondMore, bind_eq_ok, pure_eq_ok, Prod.mk.injEq] at hbond
  obtain ⟨currency, -, rfl, rfl⟩ := hbond
  refine he.put (Ledger.updateActive_candidateInfo _ _ _) htier ?_
  show (Ledger.updateActive _ _ _).candidatePool.keys.card ≤ _
  rw [Ledger.updateActive_candidatePool]
  split_ifs with hmem
  · exact card_insert_le (.inl hmem) he.fits
  · exact he.fits

/-- No call overfills the pool. -/
lemma State.dispatch_enrolled {call : Call AccountId} (he : Enrolled s.ledger)
    (hp : s.ledger.PoolAgrees) (h : s.dispatch cfg rm origin call = .ok s') :
    Enrolled s'.ledger := by
  have hsigned := State.signed_of_dispatch h
  cases call with
  | joinCandidates controller relayer bond count =>
      obtain ⟨who, -, hcall⟩ := hsigned rfl
      exact State.joinCandidates_enrolled he hcall
  | executeLeaveCandidates count =>
      obtain ⟨who, -, hcall⟩ := hsigned rfl
      exact State.executeLeaveCandidates_enrolled he hcall
  | setValidatorTier more new relayer =>
      obtain ⟨who, -, hcall⟩ := hsigned rfl
      exact State.setValidatorTier_enrolled he hcall
  | scheduleLeaveCandidates count =>
      obtain ⟨who, -, hcall⟩ := hsigned rfl
      exact State.scheduleLeaveCandidates_enrolled he hcall
  | cancelLeaveCandidates count =>
      obtain ⟨who, -, hcall⟩ := hsigned rfl
      exact State.cancelLeaveCandidates_enrolled he hcall
  | goOnline =>
      obtain ⟨who, -, hcall⟩ := hsigned rfl
      exact State.goOnline_enrolled he hcall
  | goOffline =>
      obtain ⟨who, -, hcall⟩ := hsigned rfl
      exact State.goOffline_enrolled he hcall
  | _ => exact he.roll hp (State.dispatch_routine rfl h).terms.toOnRoll

end Calls

/-! ## Hooks -/

section Hooks

variable {cfg : Config AccountId} {rm : RelayManager AccountId R} {s s' : State AccountId R}

/-- An offender may leave the pool, and nobody enters it. -/
lemma State.offend_enrolled {slashSession : ℕ} {details : AccountId × Perbill}
    (he : Enrolled s.ledger) (h : s.offend cfg rm slashSession details = some s') :
    Enrolled s'.ledger := by
  obtain ⟨who, fraction⟩ := details
  cases State.offend_cases h with
  | ignored _ => exact he
  | recorded _ _ _ => exact ⟨he.fits, he.tiered⟩
  | @punished m amount _ _ hm hkicked hres =>
      obtain ⟨request, hm', -⟩ := State.slashed_eq cfg m.kickOut amount
      have htier : (State.slashed cfg m.kickOut amount).tier = m.tier := by
        rw [hm']
        rfl
      exact he.rewrite hm rfl htier ((card_remove_le who).trans he.fits)

/-- **One controller change**: the entry of the pool moves. -/
lemma State.applyControllerSet_enrolled {now : ℕ} {c : DelayedControllerSet AccountId}
    {m : CandidateMetadata AccountId} (he : Enrolled s.ledger)
    (hm : s.ledger.candidateInfo.get c.old = some m)
    (hinfo : (s.applyControllerSet rm now c).ledger.candidateInfo =
      (s.ledger.candidateInfo.remove c.old).insert c.new m) :
    Enrolled (s.applyControllerSet rm now c).ledger := by
  refine ⟨?_, fun k x hx => ?_⟩
  · rw [State.applyControllerSet, hm]
    dsimp only
    rw [Ledger.replaceController_pool]
    exact (card_moveKey_le _ _ _).trans he.fits
  · rw [Ledger.standing, hinfo, StorageMap.get_insert, StorageMap.get_remove] at hx
    split_ifs at hx
    · exact he.tiered c.old x (by rw [Ledger.standing, hm]; exact hx)
    · cases hx
    · exact he.tiered k x hx

lemma State.applyControllerSets_enrolled {now : ℕ} :
    ∀ {cs : List (DelayedControllerSet AccountId)} {s : State AccountId R},
      LedgerInv cfg s.ledger → Pending s.ledger cs → Enrolled s.ledger →
      Enrolled (cs.foldl (State.applyControllerSet rm now) s).ledger := by
  intro cs
  induction cs with
  | nil => exact fun _ _ he => he
  | cons c cs ih =>
      intro s hl hp he
      obtain ⟨m, top, bottom, hm, hren, hbal⟩ := State.applyControllerSet_renamed hl hp
      exact ih (hbal.inv hl) (hp.tail hren) (State.applyControllerSet_enrolled he hm hren.info_eq)

/-- `new_round` renames in the pool, and nobody enters it. -/
lemma State.newRound_enrolled {now : ℕ} {full basic : List AccountId} (hs : StateInv cfg s)
    (hp : s.ledger.PoolAgrees) (he : Enrolled s.ledger) (hq : Qualified s.ledger full basic)
    (h : s.newRound cfg rm now full basic = some s') : Enrolled s'.ledger := by
  simp only [State.newRound, Option.map_eq_some_iff, Prod.exists] at h
  obtain ⟨count, s₁, h₁, rfl⟩ := h
  obtain ⟨hinv, hpending, hpool, hchosen⟩ := State.selectForRound_midway hs hq h₁ rfl
  refine State.applyControllerSets_enrolled hinv hpending ?_
  -- the selection marks candidates, which changes neither their status nor their tier
  refine he.fewer hp (hpool hp) fun c x' hx' => ?_
  obtain ⟨x, hx, rfl⟩ := Option.map_eq_some_iff.mp ((hchosen.standing c).symm.trans hx')
  exact ⟨x, hx, id, rfl⟩

/-- `new_session` does not overfill the pool. -/
lemma State.newSession_enrolled {now newIndex : ℕ} {validators : List AccountId}
    {hasKeys : AccountId → Bool} {out : Option (List AccountId)} (hs : StateInv cfg s)
    (hp : s.ledger.PoolAgrees) (he : Enrolled s.ledger)
    (h : s.newSession cfg rm now newIndex validators hasKeys = some (out, s')) :
    Enrolled s'.ledger := by
  simp only [State.newSession, State.tryNewRound, Option.bind_eq_bind, Option.bind_eq_some_iff,
    Option.pure_def, Option.some.injEq, Prod.mk.injEq] at h
  obtain ⟨s₁, h₁, -, rfl⟩ := h
  have hroll := s.enterSession_onRoll now newIndex validators
  have henter : Enrolled (s.enterSession now newIndex validators).ledger := he.roll hp hroll
  show Enrolled s₁.ledger
  split_ifs at h₁
  · exact State.newRound_enrolled ((s.enterSession_keeps now newIndex validators).inv hs)
      (hroll.pool hp) henter (State.computeTopCandidates_qualified cfg _ hasKeys) h₁
  · obtain rfl := Option.some.inj h₁
    exact henter

/-- **Step lemma.**  No step overfills the pool. -/
lemma State.step_enrolled {i : Step AccountId R} (hs : StateInv cfg s) (hp : s.ledger.PoolAgrees)
    (he : Enrolled s.ledger) (h : s.step cfg rm i = some s') : Enrolled s'.ledger := by
  cases i with
  | call origin call =>
      obtain rfl := Option.some.inj h
      exact commit_induction (P := fun t : State AccountId R => Enrolled t.ledger) he
        fun _ ht => State.dispatch_enrolled he hp ht
  | onInitialize n drained =>
      obtain ⟨⟨paid, s₁⟩, h₁, rfl⟩ := Option.map_eq_some_iff.mp h
      rcases State.onInitialize_cases h₁ with ⟨snapshot, -, hpay⟩
      cases hpay with
      | idle => exact he
      | closed => exact he
      | lost => exact he
      | paid _ _ _ hl => exact he.roll hp (Ledger.payValidator_onTerms hl).toOnRoll
  | noteAuthor author =>
      obtain rfl := Option.some.inj h
      exact he.roll hp (s.noteAuthor_onRoll author)
  | newSession now newIndex validators hasKeys =>
      obtain ⟨⟨out, s₁⟩, h₁, rfl⟩ := Option.map_eq_some_iff.mp h
      exact State.newSession_enrolled hs hp he h₁
  | onOffence offenders slashSession =>
      exact foldlM_invariant (P := fun t : State AccountId R => Enrolled t.ledger)
        (fun t _ _ ht hoff => State.offend_enrolled ht hoff) h he
  | endSession =>
      obtain rfl := Option.some.inj h
      exact he
  | balances free others =>
      obtain rfl := Option.some.inj h
      exact ⟨he.fits, he.tiered⟩
  | relay state =>
      obtain rfl := Option.some.inj h
      exact he
  | offenceSettings isOffenceActive isSlashActive expiration full basic =>
      obtain rfl := Option.some.inj h
      exact he

end Hooks

/-! ## When the top candidates are chosen -/

/-- **The states in which the top candidates are chosen**: in the genesis build, whatever the parameters
are set to, and when a session begins. -/
inductive Choosing (cfg : Config AccountId) (rm : RelayManager AccountId R) :
    State AccountId R → Prop
  | genesis {g : GenesisConfig AccountId R} {s₁ s₂ : State AccountId R} (p : Params)
      (hjoin : GenesisConfig.joinAll cfg rm (g.blank cfg) 0 g.candidates = some s₁)
      (hnominate : GenesisConfig.nominateAll cfg s₁ ∅ ∅ g.nominations = some s₂) :
      Choosing cfg rm (s₂.withParams p)
  | reached {s : State AccountId R} (h : ReachableIf cfg rm anyStep s) : Choosing cfg rm s
  | session {s : State AccountId R} (h : ReachableIf cfg rm anyStep s) (now newIndex : ℕ)
      (validators : List AccountId) : Choosing cfg rm (s.enterSession now newIndex validators)

section Runs

variable {cfg : Config AccountId} {rm : RelayManager AccountId R} {s : State AccountId R}
  {cond : State AccountId R → Step AccountId R → Prop}

/-- Before the first selection. -/
lemma GenesisConfig.nominated_enrolled {g : GenesisConfig AccountId R} {s₁ s₂ : State AccountId R}
    (hjoin : joinAll cfg rm (g.blank cfg) 0 g.candidates = some s₁)
    (hnominate : nominateAll cfg s₁ ∅ ∅ g.nominations = some s₂) :
    s₂.ledger.PoolAgrees ∧ Enrolled s₂.ledger := by
  have hblank : (g.blank cfg).ledger.PoolAgrees ∧ Enrolled (g.blank cfg).ledger :=
    ⟨fun _ => rfl, Nat.zero_le _, fun c x hx => by cases hx⟩
  have hjoined : s₁.ledger.PoolAgrees ∧ Enrolled s₁.ledger := by
    refine joinAll_invariant (P := fun t => t.ledger.PoolAgrees ∧ Enrolled t.ledger)
      (fun t _ _ _ _ _ t' ht hcall => ?_) hjoin hblank
    obtain ⟨tier, -, -, hpool, -, -⟩ := State.joinCandidates_joins hcall
    exact ⟨hpool ht.1, State.joinCandidates_enrolled ht.2 hcall⟩
  refine nominateAll_invariant (P := fun t => t.ledger.PoolAgrees ∧ Enrolled t.ledger)
    (fun t _ _ amount i j l ht hcall => ?_) hnominate hjoined
  have hroll : OnTerms cfg t.ledger l := Ledger.nominate_onTerms amount i j l hcall
  exact ⟨hroll.pool ht.1, ht.2.roll ht.1 hroll.toOnRoll⟩

/-- **Genesis.**  The pool is not overfilled by the genesis build. -/
lemma IsGenesis.enrolled (h : IsGenesis cfg rm s) : Enrolled s.ledger := by
  have hpool := h.firstRound.pool
  obtain ⟨g, hg⟩ := h
  simp only [GenesisConfig.build, Option.bind_eq_bind, Option.bind_eq_some_iff, Option.pure_def,
    Option.some.injEq, Prod.exists] at hg
  obtain ⟨s₁, h₁, s₂, h₂, validators, nominations, stake, s₃, h₃, rfl⟩ := hg
  obtain ⟨hagree, he⟩ := GenesisConfig.nominated_enrolled h₁ h₂
  obtain ⟨hstand, -⟩ := State.updateTopCandidates_marks h₃
  refine he.fewer hagree hpool fun c x' hx' => ?_
  obtain ⟨x, hx, rfl⟩ := Option.map_eq_some_iff.mp ((hstand c).symm.trans hx')
  exact ⟨x, hx, id, rfl⟩

/-- **In every run** the pool is bounded. -/
lemma ReachableIf.enrolled (h : ReachableIf cfg rm cond s) : Enrolled s.ledger := by
  have hall : StateInv cfg s ∧ s.ledger.PoolAgrees ∧ Enrolled s.ledger := by
    refine Reachable.invariant
      (P := fun t => StateInv cfg t ∧ t.ledger.PoolAgrees ∧ Enrolled t.ledger)
      (fun t ht => ?_) (fun t i t' ht _ hs => ?_) h
    · exact ⟨.of_empty ht.founded.inv ht.founded.sets, ht.firstRound.pool, ht.enrolled⟩
    · have hdrops : i.Drops cfg rm (fun _ _ => True) (fun _ _ => True) t :=
        Step.drops_of (fun _ _ => trivial) fun offenders _ _ =>
          .of_forall (fun _ _ _ => trivial) offenders t
      have hpool : t'.ledger.PoolAgrees :=
        (State.step_turns ht.1 hdrops hs).keeps (P := fun t => t.ledger.PoolAgrees)
          (fun _ _ hagree hturn => hturn.pool hagree) ht.2.1
      exact ⟨(State.step_keeps hs).inv ht.1, hpool, State.step_enrolled ht.1 ht.2.1 ht.2.2 hs⟩
  exact hall.2.2

lemma Choosing.sound (h : Choosing cfg rm s) : s.ledger.PoolAgrees ∧ Enrolled s.ledger := by
  cases h with
  | genesis p hjoin hnominate =>
      obtain ⟨hpool, he⟩ := GenesisConfig.nominated_enrolled hjoin hnominate
      exact ⟨hpool, he⟩
  | reached h => exact ⟨h.poolAgrees, h.enrolled⟩
  | @session t h now newIndex validators =>
      have hroll := t.enterSession_onRoll now newIndex validators
      exact ⟨hroll.pool h.poolAgrees, h.enrolled.roll h.poolAgrees hroll⟩

end Runs

/-! ## The choice -/

section Choice

variable {cfg : Config AccountId} {l : Ledger AccountId}

/-- The least voting power of a validator. -/
def CandidateMetadata.minValidatorStk (cfg : Config AccountId) (tier : TierType) : ℕ :=
  if tier = .full then cfg.minFullValidatorStk else cfg.minBasicValidatorStk

/-- **Who can be chosen**: the active candidates of the tier with enough self-bond and voting power. -/
structure CandidateMetadata.Eligible (cfg : Config AccountId) (tier : TierType)
    (m : CandidateMetadata AccountId) : Prop where
  active : m.status = .active
  tier_eq : m.tier = tier
  bond : minCandidateStk cfg tier ≤ m.bond
  votingPower : minValidatorStk cfg tier ≤ m.votingPower

/-- **The top candidates** of a tier, at most `max` of them. -/
structure TopCandidates (cfg : Config AccountId) (l : Ledger AccountId) (tier : TierType) (max : ℕ)
    (chosen : List AccountId) : Prop where
  nodup : chosen.Nodup
  sorted : chosen.Pairwise (· ≤ ·)
  length_le : chosen.length ≤ max
  eligible : ∀ c ∈ chosen, ∃ m, l.candidateInfo.get c = some m ∧ m.Eligible cfg tier
  best : ∀ c m, l.candidateInfo.get c = some m → m.Eligible cfg tier → c ∉ chosen →
    chosen.length = max ∧ ∀ d ∈ chosen, ∀ m', l.candidateInfo.get d = some m' →
      m.votingPower ≤ m'.votingPower

/-- The tier of the two halves of `compute_top_candidates`. -/
def tierOf (full : Bool) : TierType := if full then .full else .basic

/-- Those that `get_top_n_candidates` keeps the first of. -/
def Ledger.contenders (cfg : Config AccountId) (l : Ledger AccountId) (full : Bool) :
    List (Bond AccountId) :=
  (l.qualified cfg full).filter fun x =>
    CandidateMetadata.minValidatorStk cfg (tierOf full) ≤ x.amount

lemma Ledger.mem_getSortedCandidates {b : Bond AccountId} :
    b ∈ l.getSortedCandidates ↔ l.candidatePool.get b.owner = some b.amount := by
  rw [getSortedCandidates, (RankedList.sortDesc_perm _ _).mem_iff, List.mem_map]
  constructor
  · rintro ⟨p, hp, rfl⟩
    exact StorageMap.mem_toList.mp hp
  · intro h
    exact ⟨(b.owner, b.amount), StorageMap.mem_toList.mpr h, rfl⟩

/-- **The contenders are those who can be chosen**, each with its voting power. -/
lemma Ledger.mem_contenders (hp : l.PoolAgrees) (he : Enrolled l) {full : Bool}
    {b : Bond AccountId} : b ∈ l.contenders cfg full ↔
      ∃ m, l.candidateInfo.get b.owner = some m ∧ m.Eligible cfg (tierOf full) ∧
        b.amount = m.votingPower := by
  have hentry := hp b.owner
  rw [contenders, List.mem_filter, qualified, List.mem_filter, mem_getSortedCandidates, hentry]
  cases hm : l.candidateInfo.get b.owner with
  | none => simp
  | some m =>
      have htier : m.tier ≠ .all := by
        refine he.tiered b.owner m.standing ?_
        rw [standing, hm]
        rfl
      have hkind : (decide (m.tier = .full) == full) = true ↔ m.tier = tierOf full := by
        cases full <;> cases ht : m.tier <;> simp_all [tierOf]
      have hpool : m.entry = some b.amount ↔ m.status = .active ∧ b.amount = m.votingPower := by
        rw [CandidateMetadata.entry, CandidateMetadata.isActive]
        by_cases hactive : m.status = .active <;> simp [hactive, eq_comm]
      simp only [Option.bind_some, hpool, Bool.and_eq_true, hkind, decide_eq_true_eq,
        Option.some.injEq, exists_eq_left']
      constructor
      · rintro ⟨⟨⟨hactive, hamount⟩, hkind, hbond⟩, hvp⟩
        exact ⟨⟨hactive, hkind, hkind ▸ hbond, hamount ▸ hvp⟩, hamount⟩
      · rintro ⟨⟨hactive, hkind, hbond, hvp⟩, hamount⟩
        exact ⟨⟨⟨hactive, hamount⟩, hkind, hkind.symm ▸ hbond⟩, hamount.symm ▸ hvp⟩

/-- No owner is listed twice. -/
lemma Ledger.nodup_contenders (full : Bool) :
    ((l.contenders cfg full).map Bond.owner).Nodup := by
  have hsorted : (l.getSortedCandidates.map Bond.owner).Nodup := by
    rw [getSortedCandidates, ((RankedList.sortDesc_perm _ _).map _).nodup_iff, List.map_map]
    exact l.candidatePool.nodup_keys_toList
  have hsub : (l.contenders cfg full).Sublist l.getSortedCandidates :=
    List.filter_sublist.trans List.filter_sublist
  exact (hsub.map Bond.owner).nodup hsorted

lemma Ledger.desc_contenders (full : Bool) :
    RankedList.Desc Bond.amount (l.contenders cfg full) :=
  ((RankedList.desc_sortDesc _ _).filter _).filter _

/-- `get_top_n_candidates` takes the candidates with the most voting power of their tier. -/
lemma Ledger.topCandidates (hp : l.PoolAgrees) (he : Enrolled l) (full : Bool) (n : ℕ) :
    TopCandidates cfg l (tierOf full) n
      ((((l.contenders cfg full).take n).map Bond.owner).insertionSort (· ≤ ·)) := by
  have hperm := List.perm_insertionSort (· ≤ ·) (((l.contenders cfg full).take n).map Bond.owner)
  have hmem : ∀ c, c ∈ (((l.contenders cfg full).take n).map Bond.owner).insertionSort (· ≤ ·) ↔
      ∃ b ∈ (l.contenders cfg full).take n, b.owner = c := by
    intro c
    rw [hperm.mem_iff, List.mem_map]
  have hlength : ((((l.contenders cfg full).take n).map Bond.owner).insertionSort (· ≤ ·)).length =
      ((l.contenders cfg full).take n).length := by
    rw [hperm.length_eq, List.length_map]
  refine ⟨?_, List.pairwise_insertionSort _ _, ?_, fun c hc => ?_, fun c m hm helig hc => ?_⟩
  · refine hperm.nodup_iff.mpr ?_
    exact ((List.take_sublist n _).map Bond.owner).nodup (nodup_contenders full)
  · rw [hlength]
    exact List.length_take_le n _
  · obtain ⟨b, hb, rfl⟩ := (hmem c).mp hc
    obtain ⟨m, hm, helig, -⟩ := (mem_contenders hp he).mp (List.mem_of_mem_take hb)
    exact ⟨m, hm, helig⟩
  · -- whoever can be chosen is a contender, and comes after the first `n`
    have hcont : (⟨c, m.votingPower⟩ : Bond AccountId) ∈ l.contenders cfg full :=
      (mem_contenders hp he).mpr ⟨m, hm, helig, rfl⟩
    have hdrop : (⟨c, m.votingPower⟩ : Bond AccountId) ∈ (l.contenders cfg full).drop n := by
      rw [← List.take_append_drop n (l.contenders cfg full), List.mem_append] at hcont
      exact hcont.resolve_left fun htake => hc ((hmem c).mpr ⟨_, htake, rfl⟩)
    refine ⟨hlength.trans (RankedList.length_take_of_mem_drop hdrop), fun d hd m' hm' => ?_⟩
    obtain ⟨b, hb, rfl⟩ := (hmem d).mp hd
    obtain ⟨m₁, hm₁, -, hamount⟩ := (mem_contenders hp he).mp (List.mem_of_mem_take hb)
    obtain rfl := Option.some.inj (hm₁.symm.trans hm')
    rw [← hamount]
    exact (desc_contenders full).drop_le hb hdrop

/-- Whoever is chosen is in the pool. -/
lemma TopCandidates.mem_keys (hp : l.PoolAgrees) {tier : TierType} {max : ℕ} {chosen : List AccountId}
    (h : TopCandidates cfg l tier max chosen) {c : AccountId} (hc : c ∈ chosen) :
    c ∈ l.candidatePool.keys := by
  obtain ⟨m, hm, helig⟩ := h.eligible c hc
  refine (hp.mem_keys c).mpr ⟨m.standing, ?_, helig.active⟩
  rw [Ledger.standing, hm]
  rfl

/-- Nobody is chosen for two tiers. -/
lemma TopCandidates.disjoint {tier tier' : TierType} {max max' : ℕ} {chosen chosen' : List AccountId}
    (h : TopCandidates cfg l tier max chosen) (h' : TopCandidates cfg l tier' max' chosen')
    (hne : tier ≠ tier') : chosen.Disjoint chosen' := by
  intro c hc hc'
  obtain ⟨m, hm, helig⟩ := h.eligible c hc
  obtain ⟨m', hm', helig'⟩ := h'.eligible c hc'
  obtain rfl := Option.some.inj (hm.symm.trans hm')
  exact hne (helig.tier_eq.symm.trans helig'.tier_eq)

end Choice

/-! ## The bounded sets -/

/-- `BoundedBTreeSet::try_from`. -/
def boundedSet (l : List AccountId) : Option (Finset AccountId) :=
  if l.toFinset.card ≤ maxAuthorities then some l.toFinset else none

/-- The three conversions of `update_top_candidates`, each of which is expected to succeed: the selected
candidates, the full nodes and the basic nodes. -/
def selectedSets (full basic : List AccountId) :
    Option (Finset AccountId × Finset AccountId × Finset AccountId) := do
  let selected ← boundedSet (full ++ basic)
  let full ← boundedSet full
  let basic ← boundedSet basic
  return (selected, full, basic)

/-- All candidates are of the pool, so that they fit. -/
lemma selectedSets_eq {l : Ledger AccountId} {full basic : List AccountId}
    (hfits : l.candidatePool.keys.card ≤ maxAuthorities)
    (hmem : ∀ c ∈ full ++ basic, c ∈ l.candidatePool.keys) :
    selectedSets full basic = some ((full ++ basic).toFinset, full.toFinset, basic.toFinset) := by
  have hbounded : ∀ part : List AccountId, (∀ c ∈ part, c ∈ full ++ basic) →
      boundedSet part = some part.toFinset := by
    intro part hpart
    refine if_pos ((Finset.card_le_card fun c hc => ?_).trans hfits)
    exact hmem c (hpart c (List.mem_toFinset.mp hc))
  rw [selectedSets, hbounded _ fun c hc => hc,
    hbounded full fun c hc => List.mem_append_left _ hc,
    hbounded basic fun c hc => List.mem_append_right _ hc]
  rfl

/-! ## Results -/

section Results

variable {cfg : Config AccountId} {rm : RelayManager AccountId R} {s : State AccountId R}

/-- **The choice is right whenever it is made**: the two lists are the top candidates of the two tiers
and have nobody in common, and whoever of them has session keys fits into the bounded sets, which are
what `update_top_candidates` then writes. -/
theorem topCandidates_chosen (h : Choosing cfg rm s) :
    TopCandidates cfg s.ledger .full s.params.maxFullSelected (s.computeTopCandidates cfg).1 ∧
    TopCandidates cfg s.ledger .basic s.params.maxBasicSelected (s.computeTopCandidates cfg).2 ∧
    (s.computeTopCandidates cfg).1.Disjoint (s.computeTopCandidates cfg).2 ∧
    ((s.computeTopCandidates cfg).1 ++ (s.computeTopCandidates cfg).2).length ≤ maxAuthorities ∧
    ∀ hasKeys : AccountId → Bool, ∃ sets,
      selectedSets ((s.computeTopCandidates cfg).1.filter hasKeys)
        ((s.computeTopCandidates cfg).2.filter hasKeys) = some sets ∧
      ∀ (t t' : State AccountId R) (now : ℕ) (counts : ℕ × ℕ × ℕ),
        t.updateTopCandidates rm now ((s.computeTopCandidates cfg).1.filter hasKeys)
          ((s.computeTopCandidates cfg).2.filter hasKeys) = some (counts, t') →
        sets = (t'.selection.selectedCandidates, t'.selection.selectedFullCandidates,
          t'.selection.selectedBasicCandidates) := by
  obtain ⟨hp, he⟩ := h.sound
  have hfull : TopCandidates cfg s.ledger .full s.params.maxFullSelected
      (s.computeTopCandidates cfg).1 := Ledger.topCandidates hp he true s.params.maxFullSelected
  have hbasic : TopCandidates cfg s.ledger .basic s.params.maxBasicSelected
      (s.computeTopCandidates cfg).2 := Ledger.topCandidates hp he false s.params.maxBasicSelected
  have hdisjoint := hfull.disjoint hbasic (by decide)
  have hmem : ∀ c ∈ (s.computeTopCandidates cfg).1 ++ (s.computeTopCandidates cfg).2,
      c ∈ s.ledger.candidatePool.keys := by
    intro c hc
    rcases List.mem_append.mp hc with hc | hc
    · exact hfull.mem_keys hp hc
    · exact hbasic.mem_keys hp hc
  refine ⟨hfull, hbasic, hdisjoint, ?_, fun hasKeys => ?_⟩
  · have hnodup := List.nodup_append'.mpr ⟨hfull.nodup, hbasic.nodup, hdisjoint⟩
    rw [← List.toFinset_card_of_nodup hnodup]
    refine (Finset.card_le_card fun c hc => ?_).trans he.fits
    exact hmem c (List.mem_toFinset.mp hc)
  · have hkept : ∀ c ∈ (s.computeTopCandidates cfg).1.filter hasKeys ++
        (s.computeTopCandidates cfg).2.filter hasKeys, c ∈ s.ledger.candidatePool.keys := by
      intro c hc
      rw [← List.filter_append] at hc
      exact hmem c (List.mem_of_mem_filter hc)
    refine ⟨_, selectedSets_eq he.fits hkept, fun t t' now counts hupdate => ?_⟩
    obtain ⟨-, -, -, hsel⟩ := State.updateTopCandidates_marks hupdate
    rw [hsel]
    rfl

/-- There is one place for the two full nodes, and the one with more voting power is chosen. -/
theorem topCandidates_chosen_devnet : ∃ s : State ℕ Unit,
    ReachableIf devnet devnetRelays anyStep s ∧ s.ledger.candidatePool.keys = {2, 12} ∧
    (s.computeTopCandidates devnet).1 = [2] ∧
    TopCandidates devnet s.ledger .full s.params.maxFullSelected [2] := by
  have hrun : (devnetRun [.call .root (.setMaxFullSelected 1)]).any (fun s =>
      decide (s.ledger.candidatePool.keys = {2, 12} ∧ (s.computeTopCandidates devnet).1 = [2])) =
        true := by decide
  obtain ⟨s, hs, hP⟩ := devnetRun_exists hrun
  obtain ⟨hpool, hchosen⟩ := of_decide_eq_true hP
  have htop := (topCandidates_chosen (.reached hs)).1
  rw [hchosen] at htop
  exact ⟨s, hs, hpool, hchosen, htop⟩

end Results

end BifrostNode.Staking
