import BifrostNode.Staking.Turns
import BifrostNode.Staking.Safety

/-!
# The roster in every reachable state

* **The pool** repeats the voting power of the active candidates, in all runs.
* **The selected set** consists of the candidates that are marked as selected, in all runs: a
  candidate that leaves has been out of the set for a round.
* **The majority** is that of the selected set as long as nobody leaves an even set by going offline.
* **The two parts** of the selected set make it up as long as whoever is taken out of it still has
  the tier it was selected with.
* **Accounts.**  A stash has one controller, a candidate has its two lists, no pending controller
  change hits a candidate, and so no hook can panic on a missing record.
-/

namespace BifrostNode.Staking

open Transition

variable {AccountId R : Type} [LinearOrder AccountId]

/-! ## Genesis -/

section Genesis

variable {cfg : Config AccountId} {rm : RelayManager AccountId R} {s : State AccountId R}

/-- Before the first selection. -/
structure Unselected (s : State AccountId R) : Prop where
  pool : s.ledger.PoolAgrees
  fresh : ∀ c x, s.ledger.standing c = some x → x.1 = .active ∧ x.2.1 = false

lemma GenesisConfig.nominated_unselected {g : GenesisConfig AccountId R}
    {s₁ s₂ : State AccountId R} (h₁ : joinAll cfg rm (g.blank cfg) 0 g.candidates = some s₁)
    (h₂ : nominateAll cfg s₁ ∅ ∅ g.nominations = some s₂) : Unselected s₂ := by
  have hblank : Unselected (g.blank cfg) := ⟨fun _ => rfl, fun c x hx => by cases hx⟩
  have hjoined : Unselected s₁ := by
    refine joinAll_invariant (fun s _ controller _ _ _ s' hs hjoin => ?_) h₁ hblank
    obtain ⟨tier, -, hstand, hpool, -, -⟩ := State.joinCandidates_joins hjoin
    refine ⟨hpool hs.pool, fun c x hx => ?_⟩
    rw [hstand, Function.update_apply] at hx
    split_ifs at hx
    · obtain rfl := Option.some.inj hx
      exact ⟨rfl, rfl⟩
    · exact hs.fresh c x hx
  refine nominateAll_invariant (fun s _ _ amount i j l hs hnom => ?_) h₂ hjoined
  have hroll : OnTerms cfg s.ledger l := Ledger.nominate_onTerms amount i j l hnom
  refine ⟨hroll.pool hs.pool, fun c x hx => hs.fresh c x ?_⟩
  rw [← hroll.standing]
  exact hx

/-- What the genesis build leaves on the roster. -/
structure FirstRound (s : State AccountId R) : Prop where
  pool : s.ledger.PoolAgrees
  fitting : Fitting s
  active : ∀ c x, s.ledger.standing c = some x → x.1 = .active
  majority : s.selection.majority = s.selection.computeMajority
  cachedMajority : s.selection.cachedMajority.get s.now = some s.selection.majority
  cachedSelected : s.selection.cachedSelectedCandidates.get s.now =
    some s.selection.selectedCandidates

/-- **Genesis.**  The genesis build leaves a roster in order. -/
lemma IsGenesis.firstRound (h : IsGenesis cfg rm s) : FirstRound s := by
  obtain ⟨g, hg⟩ := h
  simp only [GenesisConfig.build, Option.bind_eq_bind, Option.bind_eq_some_iff, Option.pure_def,
    Option.some.injEq, Prod.exists] at hg
  obtain ⟨s₁, h₁, s₂, h₂, validators, nominations, stake, s₃, h₃, rfl⟩ := hg
  have hun : Unselected s₂ := GenesisConfig.nominated_unselected h₁ h₂
  obtain ⟨hstand, hpool, -, hsel⟩ := State.updateTopCandidates_marks h₃
  let p : State AccountId R := s₂.withParams { s₂.params with
    maxTotalSelected :=
      cfg.defaultMaxSelectedFullCandidates + cfg.defaultMaxSelectedBasicCandidates
    maxFullSelected := cfg.defaultMaxSelectedFullCandidates
    maxBasicSelected := cfg.defaultMaxSelectedBasicCandidates
    storageCacheLifetime := cfg.storageCacheLifetimeInRounds }
  have hq := State.computeTopCandidates_qualified cfg p fun _ => true
  simp only [List.filter_true] at hq
  -- nobody was marked before
  have hmarks : ∀ c, s₃.ledger.standing c = (p.ledger.standing c).map fun x =>
      (x.1, decide (c ∈ (p.computeTopCandidates cfg).1 ++ (p.computeTopCandidates cfg).2),
        x.2.2) := by
    intro c
    refine (hstand c).trans (Option.map_congr fun x hx => ?_)
    rw [(hun.fresh c x hx).2, Bool.false_or]
  have hfit : Fitting s₃ :=
    hq.fitting hmarks (by rw [hsel]; rfl) (by rw [hsel]; rfl) (by rw [hsel]; rfl)
  refine ⟨hpool hun.pool, ⟨hfit.mem_iff, hfit.full_iff, hfit.basic_iff⟩, fun c x hx => ?_, rfl, ?_,
    ?_⟩
  · replace hx : s₃.ledger.standing c = some x := hx
    rw [hmarks, Option.map_eq_some_iff] at hx
    obtain ⟨y, hy, rfl⟩ := hx
    exact (hun.fresh c y hy).1
  · exact StorageMap.get_insert_self _ _ _
  · show s₃.selection.cachedSelectedCandidates.get 1 = some s₃.selection.selectedCandidates
    rw [hsel]
    exact StorageMap.get_insert_self _ _ _

end Genesis

/-! ## Runs -/

section Runs

variable {cfg : Config AccountId} {rm : RelayManager AccountId R} {s : State AccountId R}
  {cond : State AccountId R → Step AccountId R → Prop}
  {off kick : State AccountId R → AccountId → Prop}

lemma Turns.keeps {P : State AccountId R → Prop} {t t' : State AccountId R}
    (hturn : ∀ t t', P t → Turn cfg off kick t t' → P t') (h : Turns cfg off kick t t')
    (ht : P t) : P t' := by
  induction h with
  | refl => exact ht
  | tail _ hlast ih => exact hturn _ _ ih hlast

/-- **Induction over turns.**  What the genesis build establishes and every turn keeps holds in every
run. -/
lemma ReachableIf.of_turns {P : State AccountId R → Prop} (h0 : ∀ t, IsGenesis cfg rm t → P t)
    (hturn : ∀ t t', P t → Turn cfg off kick t t' → P t')
    (hcond : ∀ t i, cond t i → Step.Drops cfg rm off kick t i) (h : ReachableIf cfg rm cond s) :
    P s := by
  have hboth : StateInv cfg s ∧ P s := by
    refine Reachable.invariant (P := fun t => StateInv cfg t ∧ P t) (fun t ht => ?_)
      (fun t i t' ht hc hs => ?_) h
    · exact ⟨.of_empty ht.founded.inv ht.founded.sets, h0 t ht⟩
    · exact ⟨(State.step_keeps hs).inv ht.1,
        (State.step_turns ht.1 (hcond t i hc) hs).keeps hturn ht.2⟩
  exact hboth.2

/-- The two steps that take somebody out of the selected set. -/
lemma Step.drops_of {t : State AccountId R} {i : Step AccountId R}
    (hoff : ∀ c, i = .call (.signed c) .goOffline → off t c)
    (hkick : ∀ offenders slashSession, i = .onOffence offenders slashSession →
      LoopIf (fun t details => t.kicks details.1 → kick t details.1)
        (State.offend cfg rm slashSession) t offenders) : Step.Drops cfg rm off kick t i := by
  cases i with
  | call origin c =>
      cases origin with
      | signed who =>
          cases c with
          | goOffline => exact hoff who rfl
          | _ => exact trivial
      | root => exact trivial
      | none => exact trivial
  | onOffence offenders slashSession => exact hkick offenders slashSession rfl
  | _ => exact trivial

/-! ### The pool -/

lemma Turn.pool {t t' : State AccountId R} (h : Turn cfg off kick t t')
    (ht : t.ledger.PoolAgrees) : t'.ledger.PoolAgrees := by
  cases h with
  | stakes hroll _ _ => exact hroll.pool ht
  | joined _ _ hpool _ _ => exact hpool ht
  | moved _ _ _ hpool _ _ => exact hpool ht
  | offline _ _ _ hpool _ _ => exact hpool ht
  | kicked _ _ _ hpool _ _ => exact hpool ht
  | left _ _ _ hpool _ _ => exact hpool ht
  | chosen hpool _ => exact hpool ht
  | renamed _ _ _ _ hpool _ _ => exact hpool ht

lemma ReachableIf.poolAgrees (h : ReachableIf cfg rm cond s) : s.ledger.PoolAgrees := by
  have hturn : ∀ t t' : State AccountId R, t.ledger.PoolAgrees →
      Turn cfg (fun _ _ => True) (fun _ _ => True) t t' → t'.ledger.PoolAgrees :=
    fun _ _ ht hturn => hturn.pool ht
  refine h.of_turns (fun _ ht => ht.firstRound.pool) hturn fun t i _ => ?_
  exact Step.drops_of (fun _ _ => trivial) fun offenders _ _ =>
    .of_forall (fun _ _ _ => trivial) offenders t

/-- **The pool repeats the records**, in every run: it holds exactly the active candidates, each with
its voting power. -/
theorem candidate_pool_agrees (h : ReachableIf cfg rm anyStep s) (c : AccountId) :
    ((s.ledger.candidatePool.get c).isSome ↔
      ∃ m, s.ledger.candidateInfo.get c = some m ∧ m.status = .active) ∧
    ∀ m, s.ledger.candidateInfo.get c = some m → m.status = .active →
      s.ledger.candidatePool.get c = some m.votingPower := by
  have hentry := h.poolAgrees c
  cases hm : s.ledger.candidateInfo.get c with
  | none =>
      rw [hm, Option.bind_none] at hentry
      simp [hentry]
  | some m =>
      rw [hm, Option.bind_some, CandidateMetadata.entry, CandidateMetadata.isActive] at hentry
      by_cases hactive : m.status = .active
      · simp [hentry, hactive]
      · simp [hentry, hactive]

/-- One of the two first validators goes offline, and only the other one is in the pool. -/
theorem candidate_pool_agrees_devnet : ∃ s : State ℕ Unit,
    ReachableIf devnet devnetRelays anyStep s ∧
    (∃ m, s.ledger.candidateInfo.get 2 = some m ∧ m.status = .active) ∧
    (s.ledger.candidatePool.get 2).isSome ∧
    (∃ m, s.ledger.candidateInfo.get 12 = some m ∧ m.status = .idle) ∧
    ¬ (s.ledger.candidatePool.get 12).isSome := by
  have hrun : (devnetRun [.call (.signed 12) .goOffline]).any (fun s =>
      ((s.ledger.candidateInfo.get 2).any fun m => decide (m.status = .active)) &&
        (s.ledger.candidateInfo.get 12).any fun m => decide (m.status = .idle)) = true := by decide
  obtain ⟨s, hs, hP⟩ := devnetRun_exists hrun
  obtain ⟨hactive, hidle⟩ := Bool.and_eq_true_iff.mp hP
  obtain ⟨m, hm, hstatus⟩ := (Option.any_eq_true _ _).mp hactive
  obtain ⟨m', hm', hstatus'⟩ := (Option.any_eq_true _ _).mp hidle
  have hactive : ∃ m, s.ledger.candidateInfo.get 2 = some m ∧ m.status = .active :=
    ⟨m, hm, of_decide_eq_true hstatus⟩
  refine ⟨s, hs, hactive, (candidate_pool_agrees hs 2).1.mpr hactive,
    ⟨m', hm', of_decide_eq_true hstatus'⟩, fun hpool => ?_⟩
  obtain ⟨m₀, hm₀, hstatus₀⟩ := (candidate_pool_agrees hs 12).1.mp hpool
  obtain rfl : m₀ = m' := Option.some.inj (hm₀.symm.trans hm')
  rw [hstatus₀] at hstatus'
  cases of_decide_eq_true hstatus'

/-! ### The majority -/

/-- The majority and the two caches say what the selected set says. -/
structure MajorityAgrees (s : State AccountId R) : Prop where
  majority : s.selection.majority = s.selection.selectedCandidates.card / 2 + 1
  cachedMajority : s.selection.cachedMajority.get s.now = some s.selection.majority
  cachedSelected : s.selection.cachedSelectedCandidates.get s.now =
    some s.selection.selectedCandidates

omit [LinearOrder AccountId] in
lemma MajorityAgrees.of_eq {t t' : State AccountId R} (h : MajorityAgrees t)
    (hsel : t'.selection = t.selection) (hnow : t'.now = t.now) : MajorityAgrees t' := by
  refine ⟨?_, ?_, ?_⟩
  · rw [hsel]
    exact h.majority
  · rw [hsel, hnow]
    exact h.cachedMajority
  · rw [hsel, hnow]
    exact h.cachedSelected

/-- Going offline takes a candidate out of an odd set, if out of any. -/
def LeavesOdd (t : State AccountId R) (c : AccountId) : Prop :=
  ∀ x, t.ledger.standing c = some x → x.1 = .active → c ∈ t.selection.selectedCandidates →
    Odd t.selection.selectedCandidates.card

instance (t : State AccountId R) (c : AccountId) : Decidable (LeavesOdd t c) :=
  inferInstanceAs (Decidable (∀ x ∈ t.ledger.standing c, x.1 = .active →
    c ∈ t.selection.selectedCandidates → Odd t.selection.selectedCandidates.card))

/-- An odd set has the majority of the set with one element less. -/
lemma card_erase_majority {set : Finset AccountId} {c : AccountId}
    (h : c ∈ set → Odd set.card) : set.card / 2 + 1 = (set.erase c).card / 2 + 1 := by
  by_cases hc : c ∈ set
  · obtain ⟨k, hk⟩ := h hc
    rw [Finset.card_erase_of_mem hc]
    omega
  · rw [Finset.erase_eq_of_notMem hc]

lemma Turn.majority {t t' : State AccountId R} (h : Turn cfg LeavesOdd kick t t')
    (ht : MajorityAgrees t) : MajorityAgrees t' := by
  cases h with
  | stakes _ hsel hnow => exact ht.of_eq hsel hnow
  | joined _ _ _ hsel hnow => exact ht.of_eq hsel hnow
  | moved _ _ _ _ hsel hnow => exact ht.of_eq hsel hnow
  | left _ _ _ _ hsel hnow => exact ht.of_eq hsel hnow
  | @offline c sel tier hoff hold _ _ hdrop hnow =>
      refine ⟨?_, ?_, ?_⟩
      · rw [hdrop.majority, hdrop.selected]
        exact card_erase_majority (hoff _ hold rfl)
      · rw [hnow, hdrop.cachedMajority, hdrop.majority]
      · rw [hnow]
        exact hdrop.cachedSelected
  | kicked _ _ _ _ hdrop hnow =>
      refine ⟨hdrop.majority, ?_, ?_⟩
      · rw [hnow, hdrop.cachedMajority, hdrop.majority]
      · rw [hnow]
        exact hdrop.cachedSelected
  | chosen _ hchosen => exact ⟨hchosen.majority, hchosen.cachedMajority, hchosen.cachedSelected⟩
  | @renamed old new status sel tier hold hfree hfit _ _ hsel hnow =>
      cases sel with
      | false => exact ht.of_eq hsel hnow
      | true =>
          -- one name for another
          have hmem : old ∈ t.selection.selectedCandidates := (hfit.mem_iff old).mpr ⟨_, hold, rfl⟩
          have hnew : new ∉ t.selection.selectedCandidates := by
            rw [hfit.mem_iff, hfree]
            simp
          have hcard : (insert new (t.selection.selectedCandidates.erase old)).card =
              t.selection.selectedCandidates.card := by
            rw [Finset.card_insert_of_notMem (fun h => hnew (Finset.mem_of_mem_erase h)),
              Finset.card_erase_add_one hmem]
          rw [if_pos rfl] at hsel
          refine ⟨?_, ?_, ?_⟩
          · rw [hsel, Selection.replace_selected, hcard, (Selection.replace_majority ..).1]
            exact ht.majority
          · rw [hsel, hnow, (Selection.replace_majority ..).1, (Selection.replace_majority ..).2]
            exact ht.cachedMajority
          · rw [hsel, hnow]
            exact Selection.replace_cachedSelected ..

/-- A selected candidate goes offline only while the selected set is odd. -/
def Step.KeepsMajority (s : State AccountId R) : Step AccountId R → Prop
  | .call (.signed c) .goOffline => LeavesOdd s c
  | _ => True

/-- The account that goes offline by a call. -/
def Call.goesOffline : Origin AccountId → Call AccountId → Option AccountId
  | .signed c, .goOffline => some c
  | _, _ => none

omit [LinearOrder AccountId] in
lemma Step.keepsMajority_call {s : State AccountId R} {origin : Origin AccountId}
    {call : Call AccountId} : (∀ c ∈ call.goesOffline origin, LeavesOdd s c) ↔
      (Step.call origin call : Step AccountId R).KeepsMajority s := by
  cases origin <;> cases call <;> simp [Call.goesOffline, Step.KeepsMajority]

instance (s : State AccountId R) : DecidablePred (Step.KeepsMajority s)
  | .call _ _ => decidable_of_iff _ Step.keepsMajority_call
  | .onInitialize _ _ | .noteAuthor _ | .endSession | .newSession _ _ _ _ | .onOffence _ _
  | .balances _ _ | .relay _ | .offenceSettings _ _ _ _ _ => .isTrue trivial

/-- **The majority is that of the selected set**, along runs in which selected candidates go offline
only while the selected set is odd. -/
theorem majority_agrees (h : ReachableIf cfg rm (fun s i => Step.KeepsMajority s i) s) :
    s.selection.majority = s.selection.selectedCandidates.card / 2 + 1 ∧
      s.selection.cachedMajority.get s.now = some s.selection.majority ∧
      s.selection.cachedSelectedCandidates.get s.now = some s.selection.selectedCandidates := by
  have hturn : ∀ t t' : State AccountId R, MajorityAgrees t →
      Turn cfg LeavesOdd (fun _ _ => True) t t' → MajorityAgrees t' :=
    fun _ _ ht hturn => hturn.majority ht
  have hagrees : MajorityAgrees s := by
    refine h.of_turns (fun t ht => ?_) hturn fun t i hi => ?_
    · exact ⟨ht.firstRound.majority, ht.firstRound.cachedMajority, ht.firstRound.cachedSelected⟩
    · refine Step.drops_of (fun c hc => ?_) fun offenders _ _ =>
        .of_forall (fun _ _ _ => trivial) offenders t
      subst hc
      exact hi
  exact ⟨hagrees.majority, hagrees.cachedMajority, hagrees.cachedSelected⟩

/-- A third validator joins and one of the three goes offline: two are enough all the time. -/
theorem majority_agrees_devnet : ∃ s : State ℕ Unit,
    ReachableIf devnet devnetRelays (fun s i => Step.KeepsMajority s i) s ∧
    s.selection.selectedCandidates = {2, 22} ∧ s.selection.majority = 2 := by
  have hrun : (devnetRunIf (fun s i => Step.KeepsMajority s i)
      [.call (.signed 21) (.joinCandidates 22 (some 23) 1000 2), .newSession 20 2 [] (fun _ => true),
        .call (.signed 12) .goOffline]).any (fun s =>
      decide (s.selection.selectedCandidates = {2, 22})) = true := by decide
  obtain ⟨s, hs, hmem⟩ := devnetRunIf_exists hrun
  have hmem := of_decide_eq_true hmem
  refine ⟨s, hs, hmem, ?_⟩
  rw [(majority_agrees hs).1, hmem]
  rfl

/-- One of the two first validators goes offline: the majority is still that of two. -/
theorem majority_disagrees : ∃ s : State ℕ Unit, ReachableIf devnet devnetRelays anyStep s ∧
    ¬ (s.selection.majority = s.selection.selectedCandidates.card / 2 + 1 ∧
      s.selection.cachedMajority.get s.now = some s.selection.majority ∧
      s.selection.cachedSelectedCandidates.get s.now = some s.selection.selectedCandidates) := by
  have hrun : (devnetRun [.call (.signed 2) .goOffline]).any (fun s =>
      decide (s.selection.majority ≠ s.selection.selectedCandidates.card / 2 + 1)) = true := by
    decide
  obtain ⟨s, hs, hne⟩ := devnetRun_exists hrun
  exact ⟨s, hs, fun hall => of_decide_eq_true hne hall.1⟩

/-! ### The selected set -/

/-- The selected set consists of the candidates that are marked as selected, and a selected candidate
that leaves will not be gone in this round. -/
structure SelectedAgrees (s : State AccountId R) : Prop where
  mem_iff : ∀ c, c ∈ s.selection.selectedCandidates ↔ ∃ x, s.ledger.standing c = some x ∧ x.2.1 = true
  leaving : ∀ c w tier, s.ledger.standing c = some (.leaving w, true, tier) → s.now < w

/-- One candidate changes its standing and the selected set follows. -/
lemma mem_iff_of_update {f f' : AccountId → Option (ValidatorStatus × Bool × TierType)}
    {set set' : Finset AccountId} {c : AccountId} {y : Option (ValidatorStatus × Bool × TierType)}
    (hset : ∀ k, k ∈ set ↔ ∃ x, f k = some x ∧ x.2.1 = true) (hf : f' = Function.update f c y)
    (hother : ∀ k, k ≠ c → (k ∈ set' ↔ k ∈ set))
    (hself : c ∈ set' ↔ ∃ x, y = some x ∧ x.2.1 = true) (k : AccountId) :
    k ∈ set' ↔ ∃ x, f' k = some x ∧ x.2.1 = true := by
  rw [hf, Function.update_apply]
  split_ifs with hk
  · subst hk
    exact hself
  · rw [hother k hk]
    exact hset k

/-- A candidate is taken out of the selected set and marked so. -/
lemma SelectedAgrees.dropped {t t' : State AccountId R} {c : AccountId} {status : ValidatorStatus}
    {tier : TierType} {count : ℕ} (ht : SelectedAgrees t)
    (hstand : t'.ledger.standing = Function.update t.ledger.standing c (some (status, false, tier)))
    (hdrop : Dropped t t' c tier count) (hnow : t'.now = t.now) : SelectedAgrees t' := by
  refine ⟨mem_iff_of_update ht.mem_iff hstand (fun k hk => ?_) ?_, fun k w tier' hk => ?_⟩
  · rw [hdrop.selected, Finset.mem_erase, and_iff_right hk]
  · rw [hdrop.selected]
    simp
  · rw [hstand, Function.update_apply] at hk
    rw [hnow]
    split_ifs at hk
    · cases hk
    · exact ht.leaving k w tier' hk

lemma Turn.selected {t t' : State AccountId R} (hdelay : 1 ≤ cfg.leaveCandidatesDelay)
    (h : Turn cfg off kick t t') (hpool : t.ledger.PoolAgrees) (ht : SelectedAgrees t) :
    SelectedAgrees t' := by
  cases h with
  | stakes hroll hsel hnow =>
      refine ⟨fun c => ?_, fun c w tier hc => ?_⟩
      · rw [hsel, hroll.standing]
        exact ht.mem_iff c
      · rw [hroll.standing] at hc
        rw [hnow]
        exact ht.leaving c w tier hc
  | @joined c tier hfree hstand _ hsel hnow =>
      refine ⟨mem_iff_of_update ht.mem_iff hstand (fun k _ => by rw [hsel]) ?_,
        fun k w tier' hk => ?_⟩
      · rw [hsel, ht.mem_iff, hfree]
        simp
      · rw [hstand, Function.update_apply] at hk
        rw [hnow]
        split_ifs at hk
        · cases hk
        · exact ht.leaving k w tier' hk
  | @moved c old new sel tier tier' hold hstand hleaving _ hsel hnow =>
      refine ⟨mem_iff_of_update ht.mem_iff hstand (fun k _ => by rw [hsel]) ?_,
        fun k w tier'' hk => ?_⟩
      · rw [hsel, ht.mem_iff, hold]
        simp
      · rw [hstand, Function.update_apply] at hk
        rw [hnow]
        split_ifs at hk with hkc
        · simp only [Option.some.injEq, Prod.mk.injEq] at hk
          obtain ⟨hw, hs, -⟩ := hk
          rcases hleaving w hw with hw' | hw'
          · rw [hw', hs] at hold
            exact ht.leaving c w tier hold
          · omega
        · exact ht.leaving k w tier'' hk
  | offline _ _ hstand _ hdrop hnow => exact ht.dropped hstand hdrop hnow
  | kicked _ _ hstand _ hdrop hnow => exact ht.dropped hstand hdrop hnow
  | @left c w sel tier hold hdue hstand _ hsel hnow =>
      -- a selected candidate cannot be due
      have hunselected : sel = false := by
        cases sel with
        | false => rfl
        | true => exact absurd (ht.leaving c w tier hold) (by omega)
      refine ⟨mem_iff_of_update ht.mem_iff hstand (fun k _ => by rw [hsel]) ?_,
        fun k w' tier' hk => ?_⟩
      · rw [hsel, ht.mem_iff, hold, hunselected]
        simp
      · rw [hstand, Function.update_apply] at hk
        rw [hnow]
        split_ifs at hk
        exact ht.leaving k w' tier' hk
  | @chosen full basic _ hchosen =>
      refine ⟨hchosen.fitting.mem_iff, fun c w tier hc => ?_⟩
      -- who is in the pool is active
      rw [hchosen.standing, Option.map_eq_some_iff] at hc
      obtain ⟨x, hx, hxc⟩ := hc
      simp only [Prod.mk.injEq, decide_eq_true_eq] at hxc
      obtain ⟨hstatus, hmem, -⟩ := hxc
      have hin := hchosen.qualified.pool c hmem
      rw [Ledger.standing, Option.map_eq_some_iff] at hx
      obtain ⟨m, hm, rfl⟩ := hx
      replace hstatus : m.status = .leaving w := hstatus
      rw [hpool, hm, Option.bind_some, CandidateMetadata.entry, CandidateMetadata.isActive,
        hstatus] at hin
      cases hin
  | renamed hold hfree hfit hstand _ hsel hnow =>
      refine ⟨(hfit.renamed hold hfree hstand hsel).mem_iff, fun k w tier' hk => ?_⟩
      rw [hstand] at hk
      rw [hnow]
      split_ifs at hk
      · exact ht.leaving _ w tier' (hold.trans hk)
      · exact ht.leaving k w tier' hk

/-! ### The two parts -/

/-- The full and the basic part make up the selected set. -/
structure Parts (s : State AccountId R) : Prop where
  selected : s.selection.selectedCandidates =
    s.selection.selectedFullCandidates ∪ s.selection.selectedBasicCandidates
  disjoint : Disjoint s.selection.selectedFullCandidates s.selection.selectedBasicCandidates

lemma Parts.of_eq {t t' : State AccountId R} (h : Parts t)
    (hsel : t'.selection = t.selection) : Parts t' :=
  ⟨hsel ▸ h.selected, hsel ▸ h.disjoint⟩

lemma Fitting.parts {t : State AccountId R} (h : Fitting t) : Parts t := by
  refine ⟨?_, ?_⟩
  · ext c
    rw [Finset.mem_union, h.mem_iff, h.full_iff, h.basic_iff]
    constructor
    · rintro ⟨x, hx, hsel⟩
      by_cases htier : x.2.2 = .full
      · exact Or.inl ⟨x, hx, hsel, htier⟩
      · exact Or.inr ⟨x, hx, hsel, htier⟩
    · rintro (⟨x, hx, hsel, -⟩ | ⟨x, hx, hsel, -⟩)
      · exact ⟨x, hx, hsel⟩
      · exact ⟨x, hx, hsel⟩
  · rw [Finset.disjoint_left]
    intro c hfull hbasic
    obtain ⟨x, hx, -, htier⟩ := (h.full_iff c).mp hfull
    obtain ⟨y, hy, -, hne⟩ := (h.basic_iff c).mp hbasic
    obtain rfl := Option.some.inj (hx.symm.trans hy)
    exact hne htier

/-- A selected candidate is in the part that its tier tells. -/
def InItsPart (t : State AccountId R) (c : AccountId) : Prop :=
  ∀ x, t.ledger.standing c = some x → c ∈ t.selection.selectedCandidates →
    (x.2.2 = .full ↔ c ∈ t.selection.selectedFullCandidates)

instance (t : State AccountId R) (c : AccountId) : Decidable (InItsPart t c) :=
  inferInstanceAs (Decidable (∀ x ∈ t.ledger.standing c, c ∈ t.selection.selectedCandidates →
    (x.2.2 = .full ↔ c ∈ t.selection.selectedFullCandidates)))

/-- A candidate is taken out of the part it is in. -/
lemma Parts.dropped {t t' : State AccountId R} {c : AccountId}
    {x : ValidatorStatus × Bool × TierType} {count : ℕ} (ht : Parts t) (hpart : InItsPart t c)
    (hx : t.ledger.standing c = some x) (hdrop : Dropped t t' c x.2.2 count) : Parts t' := by
  have htier : c ∈ t.selection.selectedFullCandidates → x.2.2 = .full := by
    intro hc
    exact (hpart x hx (ht.selected ▸ Finset.mem_union_left _ hc)).mpr hc
  have hbasic : c ∈ t.selection.selectedBasicCandidates → x.2.2 ≠ .full := by
    intro hc hfull
    have hmem := (hpart x hx (ht.selected ▸ Finset.mem_union_right _ hc)).mp hfull
    exact Finset.disjoint_left.mp ht.disjoint hmem hc
  -- whichever part the tier names, the other one does not have the candidate
  have hfull_eq : t'.selection.selectedFullCandidates =
      t.selection.selectedFullCandidates.erase c := by
    rw [hdrop.full]
    split_ifs with hfull
    · rfl
    · exact (Finset.erase_eq_of_notMem fun hc => hfull (htier hc)).symm
  have hbasic_eq : t'.selection.selectedBasicCandidates =
      t.selection.selectedBasicCandidates.erase c := by
    rw [hdrop.basic]
    split_ifs with hfull
    · exact (Finset.erase_eq_of_notMem fun hc => hbasic hc hfull).symm
    · rfl
  refine ⟨?_, ?_⟩
  · rw [hdrop.selected, hfull_eq, hbasic_eq, ht.selected, Finset.erase_union_distrib]
  · rw [hfull_eq, hbasic_eq]
    exact ht.disjoint.mono (Finset.erase_subset _ _) (Finset.erase_subset _ _)

/-- Whoever goes offline is in its part. -/
def OfflineInPart (t : State AccountId R) (c : AccountId) : Prop :=
  (∃ x, t.ledger.standing c = some x ∧ x.1 = .active) → InItsPart t c

instance (t : State AccountId R) (c : AccountId) : Decidable (OfflineInPart t c) :=
  inferInstanceAs (Decidable ((∃ x ∈ t.ledger.standing c, x.1 = .active) → InItsPart t c))

lemma Turn.parts {t t' : State AccountId R} (h : Turn cfg OfflineInPart InItsPart t t')
    (ht : Parts t) : Parts t' := by
  cases h with
  | stakes _ hsel _ => exact ht.of_eq hsel
  | joined _ _ _ hsel _ => exact ht.of_eq hsel
  | moved _ _ _ _ hsel _ => exact ht.of_eq hsel
  | left _ _ _ _ hsel _ => exact ht.of_eq hsel
  | offline hoff hold _ _ hdrop _ => exact ht.dropped (hoff ⟨_, hold, rfl⟩) hold hdrop
  | kicked hkick hold _ _ hdrop _ => exact ht.dropped hkick hold hdrop
  | chosen _ hchosen => exact hchosen.fitting.parts
  | renamed hold hfree hfit hstand _ hsel _ => exact (hfit.renamed hold hfree hstand hsel).parts

/-- Whoever goes offline or is kicked out is in the part that its tier tells. -/
def Step.KeepsParts (cfg : Config AccountId) (rm : RelayManager AccountId R)
    (s : State AccountId R) : Step AccountId R → Prop
  | .call (.signed c) .goOffline => OfflineInPart s c
  | .onOffence offenders slashSession =>
      LoopIf (fun t details => t.kicks details.1 → InItsPart t details.1)
        (State.offend cfg rm slashSession) s offenders
  | _ => True

lemma Step.keepsParts_call {cfg : Config AccountId} {rm : RelayManager AccountId R}
    {s : State AccountId R} {origin : Origin AccountId} {call : Call AccountId} :
    (∀ c ∈ call.goesOffline origin, OfflineInPart s c) ↔
      (Step.call origin call : Step AccountId R).KeepsParts cfg rm s := by
  cases origin <;> cases call <;> simp [Call.goesOffline, Step.KeepsParts]

instance (cfg : Config AccountId) (rm : RelayManager AccountId R) (s : State AccountId R) :
    DecidablePred (Step.KeepsParts cfg rm s)
  | .call _ _ => decidable_of_iff _ Step.keepsParts_call
  | .onOffence _ _ => inferInstanceAs (Decidable (LoopIf ..))
  | .onInitialize _ _ | .noteAuthor _ | .endSession | .newSession _ _ _ _ | .balances _ _ | .relay _
  | .offenceSettings _ _ _ _ _ => .isTrue trivial

/-- **The selected set and its parts**, along runs in which whoever goes offline or is kicked out is
in the part that its tier tells. -/
theorem selected_parts (hdelay : 1 ≤ cfg.leaveCandidatesDelay)
    (h : ReachableIf cfg rm (fun s i => Step.KeepsParts cfg rm s i) s) :
    s.selection.selectedCandidates =
        s.selection.selectedFullCandidates ∪ s.selection.selectedBasicCandidates ∧
      Disjoint s.selection.selectedFullCandidates s.selection.selectedBasicCandidates ∧
      ∀ c m, s.ledger.candidateInfo.get c = some m →
        (m.isSelected = true ↔ c ∈ s.selection.selectedCandidates) := by
  have hturn : ∀ t t' : State AccountId R,
      t.ledger.PoolAgrees ∧ SelectedAgrees t ∧ Parts t → Turn cfg OfflineInPart InItsPart t t' →
      t'.ledger.PoolAgrees ∧ SelectedAgrees t' ∧ Parts t' :=
    fun _ _ ht hturn => ⟨hturn.pool ht.1, hturn.selected hdelay ht.1 ht.2.1, hturn.parts ht.2.2⟩
  obtain ⟨-, hsel, hparts⟩ : s.ledger.PoolAgrees ∧ SelectedAgrees s ∧ Parts s := by
    refine h.of_turns (fun t ht => ?_) hturn fun t i hi => ?_
    · have hfirst := ht.firstRound
      refine ⟨hfirst.pool, ⟨hfirst.fitting.mem_iff, fun c w tier hc => ?_⟩, hfirst.fitting.parts⟩
      cases hfirst.active c _ hc
    · refine Step.drops_of (fun c hc => ?_) fun offenders slashSession hi' => ?_
      · subst hc
        exact hi
      · subst hi'
        exact hi
  refine ⟨hparts.selected, hparts.disjoint, fun c m hm => ?_⟩
  rw [hsel.mem_iff, Ledger.standing, hm]
  simp [CandidateMetadata.standing]

/-- A full node goes offline, and the other one is kicked out for its offence. -/
theorem selected_parts_devnet : 1 ≤ devnet.leaveCandidatesDelay ∧ ∃ s : State ℕ Unit,
    ReachableIf devnet devnetRelays (fun s i => Step.KeepsParts devnet devnetRelays s i) s ∧
    s.selection.selectedFullCandidates = {22} ∧
    Disjoint s.selection.selectedFullCandidates s.selection.selectedBasicCandidates := by
  have hrun : (devnetRunIf (fun s i => Step.KeepsParts devnet devnetRelays s i)
      [.call (.signed 21) (.joinCandidates 22 (some 23) 1000 2), .newSession 20 2 [] (fun _ => true),
        .call (.signed 12) .goOffline,
        .onOffence (List.replicate 4 (2, .fromPercent 1)) 2]).any (fun s =>
      decide (s.selection.selectedFullCandidates = {22})) = true := by decide
  obtain ⟨s, hs, hfull⟩ := devnetRunIf_exists hrun
  exact ⟨by decide, s, hs, of_decide_eq_true hfull, (selected_parts (by decide) hs).2.1⟩

/-- A full node that has become a basic node in the middle of the round goes offline, and stays in
the full part. -/
theorem selected_parts_differ : ∃ s : State ℕ Unit, ReachableIf devnet devnetRelays anyStep s ∧
    ¬ (s.selection.selectedCandidates =
        s.selection.selectedFullCandidates ∪ s.selection.selectedBasicCandidates ∧
      Disjoint s.selection.selectedFullCandidates s.selection.selectedBasicCandidates ∧
      ∀ c m, s.ledger.candidateInfo.get c = some m →
        (m.isSelected = true ↔ c ∈ s.selection.selectedCandidates)) := by
  have hrun : (devnetRun [.call (.signed 1) (.setValidatorTier 0 .basic none),
      .call (.signed 2) .goOffline]).any (fun s => decide (s.selection.selectedCandidates ≠
        s.selection.selectedFullCandidates ∪ s.selection.selectedBasicCandidates)) = true := by
    decide
  obtain ⟨s, hs, hne⟩ := devnetRun_exists hrun
  exact ⟨s, hs, fun hall => of_decide_eq_true hne hall.1⟩

end Runs

end BifrostNode.Staking
