import BifrostNode.Staking.StepSpec

/-!
# What holds in every reachable state

The genesis build establishes the invariant, every step keeps it, so it holds along every run.  The
results about the two sides of the nominations hold in all runs; those about amounts hold in the
runs whose steps meet `Step.Fresh` and `Step.Top`, and fail in others.
-/

namespace BifrostNode.Staking

open Transition RankedList

variable {AccountId R : Type} [LinearOrder AccountId]

/-! ## Genesis -/

section Genesis

variable {cfg : Config AccountId} {rm : RelayManager AccountId R}

/-- A state on the way through the genesis build: nothing is pending. -/
structure Founded (cfg : Config AccountId) (s : State AccountId R) : Prop where
  inv : LedgerInv cfg s.ledger
  solvent : s.ledger.Solvent
  bottomExact : s.ledger.BottomExact
  total : s.ledger.TotalAgrees
  sets : s.delayedControllerSets = ∅

omit [LinearOrder AccountId] in
/-- With nothing pending, the invariant of the state is that of the ledger. -/
lemma StateInv.of_empty {s : State AccountId R} (hl : LedgerInv cfg s.ledger)
    (hsets : s.delayedControllerSets = ∅) : StateInv cfg s := by
  have hnil : s.controllerSets = [] := by
    rw [State.controllerSets, hsets]
    rfl
  refine ⟨hl, hnil ▸ .nil _, fun r _ => ?_⟩
  rw [hsets]
  rfl

lemma Founded.keeps {s s' : State AccountId R} (h : Founded cfg s) (hk : Keeps cfg True True s s')
    (hsets : s'.delayedControllerSets = s.delayedControllerSets) : Founded cfg s' := by
  have hs : StateInv cfg s := .of_empty h.inv h.sets
  have hbal := hk.balanced hs
  exact ⟨hbal.inv h.inv, hbal.solvent trivial h.inv h.solvent,
    hbal.bottomExact trivial h.inv h.bottomExact, hbal.total trivial h.inv h.bottomExact h.total,
    hsets.trans h.sets⟩

/-- The storage before any candidate has joined. -/
lemma GenesisConfig.blank_founded (g : GenesisConfig AccountId R) : Founded cfg (g.blank cfg) where
  inv := by
    refine ⟨⟨?_, ?_, ?_, ?_, ?_⟩, ?_, ?_⟩
    · intro c m hc
      cases hc
    · exact fun _ _ => ⟨rfl, rfl⟩
    · intro s c
      constructor
      · intro h
        cases h
      · rintro ⟨m, hm, -⟩
        cases hm
    · intro c m r hc
      cases hc
    · intro n c a
      constructor
      · intro h
        cases h
      · intro h
        cases h
    · intro n st hn
      cases hn
    · intro w hw
      cases hw
  solvent _ := rfl
  bottomExact c bottom h := by cases h
  total := rfl
  sets := rfl

lemma State.joinCandidates_sets {s : State AccountId R} {stash controller : AccountId}
    {relayer : Option AccountId} {bond count : ℕ} :
    Returns (fun s' => s'.delayedControllerSets = s.delayedControllerSets)
      (s.joinCandidates cfg rm stash controller relayer bond count) :=
  .bind fun _ => .bind fun _ => .bind fun _ => .bind fun _ => .bind fun _ => .bind fun _ =>
    .bind fun _ => .bind fun _ => .bind fun _ => .bind fun _ => .pure rfl

/-- What every candidate that joins keeps, the loop over the initial candidates keeps. -/
lemma GenesisConfig.joinAll_invariant {P : State AccountId R → Prop}
    (hstep : ∀ s stash controller relayer bond count s', P s →
      s.joinCandidates cfg rm stash controller relayer bond count = .ok s' → P s') :
    ∀ {entries : List (AccountId × AccountId × AccountId × ℕ)} {s s' : State AccountId R} {k : ℕ},
      joinAll cfg rm s k entries = some s' → P s → P s' := by
  intro entries
  induction entries with
  | nil =>
      intro s s' k h hs
      obtain rfl := Option.some.inj h
      exact hs
  | cons entry rest ih =>
      obtain ⟨stash, controller, relayer, balance⟩ := entry
      intro s s' k h hs
      simp only [joinAll] at h
      split_ifs at h
      cases hjoin : s.joinCandidates cfg rm stash controller (some relayer) balance (k + 1) with
      | ok s₁ =>
          rw [hjoin] at h
          exact ih h (hstep s stash controller (some relayer) balance (k + 1) s₁ hs hjoin)
      | error e =>
          rw [hjoin] at h
          exact ih h hs

/-- What every nomination keeps, the loop over the initial nominations keeps. -/
lemma GenesisConfig.nominateAll_invariant {P : State AccountId R → Prop}
    (hstep : ∀ s nominator target amount i j l, P s →
      Ledger.nominate cfg s.ledger nominator target amount i j = .ok l → P (s.withLedger l)) :
    ∀ {entries : List (AccountId × AccountId × ℕ)} {s s' : State AccountId R}
      {v n : StorageMap AccountId ℕ}, nominateAll cfg s v n entries = some s' → P s → P s' := by
  intro entries
  induction entries with
  | nil =>
      intro s s' v n h hs
      obtain rfl := Option.some.inj h
      exact hs
  | cons entry rest ih =>
      obtain ⟨nominator, target, balance⟩ := entry
      intro s s' v n h hs
      simp only [nominateAll] at h
      split_ifs at h
      cases hnom : s.ledger.nominate cfg nominator target balance (v.getD target 0)
          (n.getD nominator 0) with
      | ok l =>
          rw [hnom] at h
          exact ih h (hstep s nominator target balance _ _ l hs hnom)
      | error e =>
          rw [hnom] at h
          exact ih h hs

/-- The first candidates and their nominations. -/
lemma GenesisConfig.nominated_founded {g : GenesisConfig AccountId R} {s₁ s₂ : State AccountId R}
    (h₁ : joinAll cfg rm (g.blank cfg) 0 g.candidates = some s₁)
    (h₂ : nominateAll cfg s₁ ∅ ∅ g.nominations = some s₂) : Founded cfg s₂ := by
  have hjoined : Founded cfg s₁ := joinAll_invariant (fun _ _ _ _ _ _ s' hs hjoin =>
    hs.keeps (State.joinCandidates_keeps hjoin) (State.joinCandidates_sets s' hjoin)) h₁
    (blank_founded g)
  refine nominateAll_invariant (fun s _ _ _ _ _ l hs hnom => ?_) h₂ hjoined
  have hkeeps : Keeps cfg True True s (s.withLedger l) :=
    .of_preserves (Ledger.nominate_preserves hnom) rfl rfl
  exact hs.keeps hkeeps rfl

/-- **Genesis.**  The genesis build ends with everything in order and nothing pending. -/
lemma IsGenesis.founded {s : State AccountId R} (h : IsGenesis cfg rm s) : Founded cfg s := by
  obtain ⟨g, hg⟩ := h
  simp only [GenesisConfig.build, Option.bind_eq_bind, Option.bind_eq_some_iff, Option.pure_def,
    Option.some.injEq, Prod.exists] at hg
  obtain ⟨s₁, h₁, s₂, h₂, validators, nominations, stake, s₃, h₃, rfl⟩ := hg
  have hfound : Founded cfg s₂ := GenesisConfig.nominated_founded h₁ h₂
  have hprep : Prepares cfg _ s₃ := State.updateTopCandidates_prepares h₃
  have hkeeps : Keeps cfg True True s₂ s₃ :=
    .of_preserves hprep.quiet.preserves hprep.sets (congrArg RoundInfo.currentRoundIndex hprep.round)
  have hlast := hfound.keeps hkeeps hprep.sets
  exact ⟨hlast.inv, hlast.solvent, hlast.bottomExact, hlast.total, hlast.sets⟩

end Genesis

/-! ## Runs -/

section Runs

variable {cfg : Config AccountId} {rm : RelayManager AccountId R} {s : State AccountId R}
  {cond : State AccountId R → Step AccountId R → Prop}

/-- The invariant holds in every state of every run. -/
theorem ReachableIf.inv (h : ReachableIf cfg rm cond s) : StateInv cfg s :=
  Reachable.invariant (fun _ h0 => .of_empty h0.founded.inv h0.founded.sets)
    (fun _ _ _ hs _ hstep => (State.step_keeps hstep).inv hs) h

/-- A property that genesis establishes and the steps keep that keep the books. -/
lemma ReachableIf.of_keeps {Q : State AccountId R → Prop} (h0 : ∀ t, Founded cfg t → Q t)
    (hstep : ∀ t i t', StateInv cfg t → cond t i → Keeps cfg (Step.Fresh cfg t i) (Step.Top cfg t i) t t' →
      Q t → Q t') (h : ReachableIf cfg rm cond s) : Q s := by
  have hboth : StateInv cfg s ∧ Q s := by
    refine Reachable.invariant (P := fun t => StateInv cfg t ∧ Q t) (fun t ht => ?_)
      (fun t i t' ht hc hs => ?_) h
    · exact ⟨.of_empty ht.founded.inv ht.founded.sets, h0 t ht.founded⟩
    · have hk := State.step_keeps hs
      exact ⟨hk.inv ht.1, hstep t i t' ht.1 hc hk ht.2⟩
  exact hboth.2

/-- Solvency holds along runs that execute fresh requests only. -/
lemma ReachableIf.solvent (hcond : ∀ s i, cond s i → Step.Fresh cfg s i)
    (h : ReachableIf cfg rm cond s) : s.ledger.Solvent :=
  h.of_keeps (fun _ ht => ht.solvent) fun t i _ ht hc hk hs =>
    (hk.balanced ht).solvent (hcond t i hc) ht.ledger hs

/-- What is reserved is at least what is staked, in every run. -/
lemma ReachableIf.backed (h : ReachableIf cfg rm cond s) : s.ledger.Backed :=
  h.of_keeps (fun _ ht a => (ht.solvent a).ge) fun _ _ _ ht _ hk hb =>
    (hk.balanced ht).backed ht.ledger hb

/-- The cached totals of the bottom lists are right along runs that decrease top nominations
only. -/
lemma ReachableIf.bottomExact (hcond : ∀ s i, cond s i → Step.Top cfg s i)
    (h : ReachableIf cfg rm cond s) : s.ledger.BottomExact :=
  h.of_keeps (fun _ ht => ht.bottomExact) fun t i _ ht hc hk hb =>
    (hk.balanced ht).bottomExact (hcond t i hc) ht.ledger hb

/-- The total follows along runs that do both. -/
lemma ReachableIf.total (hfresh : ∀ s i, cond s i → Step.Fresh cfg s i)
    (htop : ∀ s i, cond s i → Step.Top cfg s i) (h : ReachableIf cfg rm cond s) :
    s.ledger.BottomExact ∧ s.ledger.TotalAgrees := by
  refine h.of_keeps (Q := fun t => t.ledger.BottomExact ∧ t.ledger.TotalAgrees)
    (fun _ ht => ⟨ht.bottomExact, ht.total⟩) fun t i t' ht hc hk hq => ?_
  have hbal := hk.balanced ht
  exact ⟨hbal.bottomExact (htop t i hc) ht.ledger hq.1,
    hbal.total (hfresh t i hc) ht.ledger hq.1 hq.2⟩

/-- The total is at least what is staked along runs that decrease top nominations only. -/
lemma ReachableIf.covers (htop : ∀ s i, cond s i → Step.Top cfg s i) (h : ReachableIf cfg rm cond s) :
    s.ledger.BottomExact ∧ s.ledger.TotalCovers := by
  refine h.of_keeps (Q := fun t => t.ledger.BottomExact ∧ t.ledger.TotalCovers)
    (fun _ ht => ⟨ht.bottomExact, Nat.le_of_eq ht.total.symm⟩) fun t i t' ht hc hk hq => ?_
  have hbal := hk.balanced ht
  exact ⟨hbal.bottomExact (htop t i hc) ht.ledger hq.1, hbal.covers ht.ledger hq.1 hq.2⟩

end Runs

/-! ## The two sides of the nominations -/

section Nominations

variable {cfg : Config AccountId} {rm : RelayManager AccountId R} {s : State AccountId R}

/-- **The lists of a candidate are in order** and its metadata agrees with them. -/
theorem nominations_ordered (h : ReachableIf cfg rm anyStep s) {c : AccountId}
    {m : CandidateMetadata AccountId} (hc : s.ledger.candidateInfo.get c = some m) :
    ∃ top bottom, s.ledger.topNominations.get c = some top ∧
      s.ledger.bottomNominations.get c = some bottom ∧
      top.nominations.Pairwise (fun x y => y.amount ≤ x.amount) ∧
      bottom.nominations.Pairwise (fun x y => y.amount ≤ x.amount) ∧
      top.nominations.length ≤ cfg.maxTopNominationsPerCandidate ∧
      bottom.nominations.length ≤ cfg.maxBottomNominationsPerCandidate ∧
      (bottom.nominations ≠ [] →
        top.nominations.length = cfg.maxTopNominationsPerCandidate) ∧
      (∀ x ∈ top.nominations.getLast?, ∀ y ∈ bottom.nominations.head?, y.amount ≤ x.amount) ∧
      ((top.nominations ++ bottom.nominations).map Bond.owner).Nodup ∧
      m.lowestTopNominationAmount = top.lowestNominationAmount ∧
      m.highestBottomNominationAmount = bottom.highestNominationAmount ∧
      m.lowestBottomNominationAmount = bottom.lowestNominationAmount ∧
      m.topCapacity = top.topCapacity cfg ∧ m.bottomCapacity = bottom.bottomCapacity cfg ∧
      m.nominationCount = top.nominations.length + bottom.nominations.length ∧
      m.votingPower = m.bond + (top.nominations.map Bond.amount).sum := by
  obtain ⟨top, bottom, htop, hbottom, hv⟩ := h.inv.ledger.books.board c m hc
  refine ⟨top, bottom, htop, hbottom, hv.tiers.top_desc, hv.tiers.bottom_desc, hv.tiers.top_le,
    hv.tiers.bottom_le, hv.tiers.full, fun x hx y hy => ?_, hv.tiers.nodup, hv.lowestTop_eq,
    hv.highestBottom_eq, hv.lowestBottom_eq, hv.topCapacity_eq, hv.bottomCapacity_eq, hv.count_eq,
    hv.votingPower_eq⟩
  exact hv.tiers.order y (List.mem_of_mem_head? hy) x (List.mem_of_getLast? hx)

/-- A third nominator of the candidate finds the top list full. -/
def thirdNominator : List (Step ℕ Unit) := [.call (.signed 7) (.nominate 2 30 2 0)]

/-- The third nomination is in the bottom list, and no larger than those of the full top list. -/
theorem nominations_ordered_devnet : ∃ s : State ℕ Unit, ReachableIf devnet devnetRelays anyStep s ∧
    ∃ m top bottom, s.ledger.candidateInfo.get 2 = some m ∧
      s.ledger.topNominations.get 2 = some top ∧ s.ledger.bottomNominations.get 2 = some bottom ∧
      bottom.nominations ≠ [] ∧ top.nominations.length = devnet.maxTopNominationsPerCandidate ∧
      (∀ x ∈ top.nominations.getLast?, ∀ y ∈ bottom.nominations.head?, y.amount ≤ x.amount) ∧
      m.votingPower = m.bond + (top.nominations.map Bond.amount).sum := by
  have hrun : (devnetRun thirdNominator).any (fun s => (s.ledger.candidateInfo.get 2).isSome &&
      (s.ledger.bottomNominations.get 2).any fun bottom => !bottom.nominations.isEmpty) = true := by
    decide
  obtain ⟨s, hs, hP⟩ := devnetRun_exists hrun
  obtain ⟨hsome, hany⟩ := Bool.and_eq_true_iff.mp hP
  obtain ⟨m, hm⟩ := Option.isSome_iff_exists.mp hsome
  obtain ⟨bottom, hbottom, hne⟩ := (Option.any_eq_true _ _).mp hany
  have hne : bottom.nominations ≠ [] := by simpa using hne
  obtain ⟨top, bottom', htop, hbottom', -, -, -, -, hfull, horder, hrest⟩ := nominations_ordered hs hm
  obtain rfl : bottom' = bottom := Option.some.inj (hbottom'.symm.trans hbottom)
  exact ⟨s, hs, m, top, bottom', hm, htop, hbottom, hne, hfull hne, horder,
    hrest.2.2.2.2.2.2.2⟩

omit [LinearOrder AccountId] in
lemma Ledger.portfolio_eq_some {l : Ledger AccountId} {n c : AccountId} {a : ℕ} :
    (l.portfolio n).get c = some a ↔
      ∃ st, l.nominatorState.get n = some st ∧ st.nominations.get c = some a := by
  rw [Ledger.portfolio]
  cases l.nominatorState.get n with
  | none =>
      constructor
      · intro h
        cases h
      · rintro ⟨st, hst, -⟩
        cases hst
  | some st => simp

/-- A bond on a board is the only one of its owner. -/
lemma Books.mem_bonds_iff {l : Ledger AccountId} {P : AccountId → StorageMap AccountId ℕ}
    (hb : Books cfg l P) {n c : AccountId} {a : ℕ} : (⟨n, a⟩ : Bond AccountId) ∈ l.bonds c ↔
      (l.bonds c).filter (fun x => x.owner = n) = [⟨n, a⟩] := by
  have hnodup : ((l.bonds c).map Bond.owner).Nodup := by
    cases hc : l.candidateInfo.get c with
    | none =>
        obtain ⟨htop, hbottom⟩ := hb.no_board c hc
        simp [Ledger.bonds, htop, hbottom]
    | some m =>
        obtain ⟨top, bottom, htop, hbottom, hv⟩ := hb.board c m hc
        rw [Ledger.bonds_eq htop hbottom]
        exact hv.tiers.nodup
  exact (Leaderboard.filter_owner_eq_singleton hnodup ⟨n, a⟩).symm

/-- **The two sides agree.**  A nominator's record names a candidate with an amount exactly when one
bond of the nominator, with that amount, is on the board of the candidate.  Leaving a candidate with
the amount of the record then succeeds, and the only errors that were ever logged are rewards that
could not be compounded because there was no such nomination or because the reserve failed. -/
theorem nominations_agree (h : ReachableIf cfg rm anyStep s) :
    (∀ n c a, (∃ st, s.ledger.nominatorState.get n = some st ∧ st.nominations.get c = some a) ↔
      (s.ledger.bonds c).filter (fun x => x.owner = n) = [⟨n, a⟩]) ∧
    (∀ n st c a, s.ledger.nominatorState.get n = some st → st.nominations.get c = some a →
      ∃ l', s.ledger.nominatorLeavesCandidate cfg c n a = .ok l') ∧
    ∀ w ∈ s.ledger.warnings, ∃ n c nomination error,
      w = .compounding n c nomination error ∧ (nomination = none ∨ error = .currency) := by
  have hl := h.inv.ledger
  refine ⟨fun n c a => ?_, fun n st c a hst ha => ?_, fun w hw => ?_⟩
  · rw [← Ledger.portfolio_eq_some, hl.books.agree]
    exact hl.books.mem_bonds_iff
  · refine Ledger.nominatorLeavesCandidate_ok hl.books ?_
    rw [Ledger.portfolio_of_some hst]
    exact ha
  · have hbenign := hl.benign w hw
    cases w with
    | nominatorLeaving n c e => exact absurd hbenign id
    | compounding n c nomination e => exact ⟨n, c, nomination, e, rfl, hbenign⟩

/-- The nomination in the bottom list is where the record of its nominator says. -/
theorem nominations_agree_devnet : ∃ s : State ℕ Unit, ReachableIf devnet devnetRelays anyStep s ∧
    (∃ st, s.ledger.nominatorState.get 7 = some st ∧ st.nominations.get 2 = some 30) ∧
    (s.ledger.bonds 2).filter (fun x => x.owner = 7) = [⟨7, 30⟩] := by
  have hrun : (devnetRun thirdNominator).any (fun s => ((s.ledger.nominatorState.get 7).bind fun st =>
      st.nominations.get 2) == some 30) = true := by decide
  obtain ⟨s, hs, hnom⟩ := devnetRun_exists hrun
  have hst := Option.bind_eq_some_iff.mp (eq_of_beq hnom)
  exact ⟨s, hs, hst, ((nominations_agree hs).1 7 2 30).mp hst⟩

/-- **The record of a nominator** adds up. -/
theorem nominator_valid (h : ReachableIf cfg rm anyStep s) {n : AccountId}
    {st : Nominator AccountId} (hn : s.ledger.nominatorState.get n = some st) :
    st.total = st.nominations.sum (fun _ a => a) ∧
      (∀ c a, st.nominations.get c = some a → cfg.minNomination ≤ a) ∧
      (∀ c r, st.requests.requests.get c = some r →
        r.validator = c ∧ ∃ a, st.nominations.get c = some a ∧ r.amount ≤ a) ∧
      st.requests.lessTotal = st.requests.requests.sum (fun _ r => r.amount) ∧
      st.requests.revocationsCount = st.requests.requests.count (fun r => r.action = .revoke) ∧
      st.requests.lessTotal ≤ st.total := by
  have hv := h.inv.ledger.records n st hn
  exact ⟨hv.total_eq, hv.min_le, fun c r hr => ⟨hv.request_key c r hr, hv.request_le c r hr⟩,
    hv.lessTotal_eq, hv.revocations_eq, hv.lessTotal_le⟩

/-- A nominator of the small network that wants to decrease its nomination. -/
theorem nominator_valid_devnet : ∃ s : State ℕ Unit, ReachableIf devnet devnetRelays anyStep s ∧
    ∃ st, s.ledger.nominatorState.get 5 = some st ∧ st.requests.lessTotal = 30 ∧
      st.requests.lessTotal ≤ st.total := by
  have hrun : (devnetRun [.call (.signed 5) (.scheduleNominatorBondLess 2 30)]).any (fun s =>
      ((s.ledger.nominatorState.get 5).map fun st => st.requests.lessTotal) == some 30) = true := by
    decide
  obtain ⟨s, hs, hless⟩ := devnetRun_exists hrun
  obtain ⟨st, hst, hless⟩ := Option.map_eq_some_iff.mp (eq_of_beq hless)
  exact ⟨s, hs, st, hst, hless, (nominator_valid hs hst).2.2.2.2.2⟩

end Nominations

/-! ## Amounts -/

section Amounts

variable {cfg : Config AccountId} {rm : RelayManager AccountId R} {s : State AccountId R}

/-- **Solvency.**  Along runs that execute a revoke request only while it is for all of the
nomination, the pallet holds reserved exactly the self-bonds and the nominations. -/
theorem reserved_eq_staked (h : ReachableIf cfg rm (fun s i => Step.Fresh cfg s i) s) (a : AccountId) :
    s.ledger.currency.reserved a =
      (s.ledger.candidateInfo.sum fun _ m => if m.stash = a then m.bond else 0) +
        (s.ledger.nominatorState.get a).elim 0 fun st => st.nominations.sum fun _ x => x := by
  have hsolvent := h.solvent (fun _ _ hc => hc) a
  rw [hsolvent, Ledger.selfBonded, Ledger.nominated, Ledger.portfolio]
  congr 1
  cases s.ledger.nominatorState.get a <;> rfl

/-- Nominator 5 revokes a second nomination in full, and nominator 6 decreases its nomination, which is
in the top list. -/
def freshRequests : List (Step ℕ Unit) :=
  [.call (.signed 5) (.nominate 12 40 0 1),
    .call (.signed 5) (.scheduleRevokeNomination 12),
    .call (.signed 6) (.scheduleNominatorBondLess 2 20),
    .newSession 20 2 [] (fun _ => true),
    .call (.signed 5) (.executeNominationRequest 12),
    .call (.signed 6) (.executeNominationRequest 2)]

/-- Nominator 5 has got back what it revoked, and has reserved its other nomination. -/
theorem reserved_eq_staked_devnet : ∃ s : State ℕ Unit,
    ReachableIf devnet devnetRelays (fun s i => Step.Fresh devnet s i) s ∧
    s.ledger.currency.reserved 5 = 100 ∧
    (s.ledger.candidateInfo.sum fun _ m => if m.stash = 5 then m.bond else 0) +
      ((s.ledger.nominatorState.get 5).elim 0 fun st => st.nominations.sum fun _ x => x) = 100 := by
  have hrun : (devnetRunIf (fun s i => Step.Fresh devnet s i) freshRequests).any (fun s =>
      s.ledger.currency.reserved 5 == 100) = true := by decide
  obtain ⟨s, hs, hres⟩ := devnetRunIf_exists hrun
  exact ⟨s, hs, eq_of_beq hres, (reserved_eq_staked hs 5).symm.trans (eq_of_beq hres)⟩

/-- A nominator schedules the revocation of a nomination, bonds more on it, and executes the
request in the next round. -/
def staleRevoke : List (Step ℕ Unit) :=
  [.call (.signed 5) (.scheduleRevokeNomination 2),
    .call (.signed 5) (.nominatorBondMore 2 50),
    .newSession 20 2 [] (fun _ => true),
    .call (.signed 5) (.executeNominationRequest 2)]

/-- What was bonded after the request was made stays reserved, although nothing is staked. -/
theorem reserved_ne_staked : ∃ s : State ℕ Unit, ReachableIf devnet devnetRelays anyStep s ∧
    ¬ ∀ a, s.ledger.currency.reserved a =
      (s.ledger.candidateInfo.sum fun _ m => if m.stash = a then m.bond else 0) +
        (s.ledger.nominatorState.get a).elim 0 fun st => st.nominations.sum fun _ x => x := by
  have hrun : (devnetRun staleRevoke).any (fun s => decide (s.ledger.currency.reserved 5 ≠
      (s.ledger.candidateInfo.sum fun _ m => if m.stash = 5 then m.bond else 0) +
        (s.ledger.nominatorState.get 5).elim 0 fun st => st.nominations.sum fun _ x => x)) =
          true := by decide
  obtain ⟨s, hs, hne⟩ := devnetRun_exists hrun
  exact ⟨s, hs, fun hall => of_decide_eq_true hne (hall 5)⟩

/-- **The cached totals** of both lists, along runs that execute a decrease request only for a
nomination in the top list. -/
theorem nominations_total_eq (h : ReachableIf cfg rm (fun s i => Step.Top cfg s i) s) (c : AccountId) :
    (∀ top, s.ledger.topNominations.get c = some top →
      top.total = (top.nominations.map Bond.amount).sum) ∧
    ∀ bottom, s.ledger.bottomNominations.get c = some bottom →
      bottom.total = (bottom.nominations.map Bond.amount).sum := by
  refine ⟨fun top htop => ?_, fun bottom hbottom => h.bottomExact (fun _ _ hc => hc) c bottom hbottom⟩
  have hb := h.inv.ledger.books
  cases hc : s.ledger.candidateInfo.get c with
  | none =>
      rw [(hb.no_board c hc).1] at htop
      cases htop
  | some m =>
      obtain ⟨top', bottom, htop', -, hv⟩ := hb.board c m hc
      obtain rfl : top' = top := Option.some.inj (htop'.symm.trans htop)
      exact hv.top_exact

/-- A third nominator ends up in the bottom list, and nominator 6 decreases its nomination in the top
list. -/
def topDecrease : List (Step ℕ Unit) :=
  [.call (.signed 7) (.nominate 2 30 2 0),
    .call (.signed 6) (.scheduleNominatorBondLess 2 10),
    .newSession 20 2 [] (fun _ => true),
    .call (.signed 6) (.executeNominationRequest 2)]

/-- The decrease has gone from the cached total of the top list. -/
theorem nominations_total_eq_devnet : ∃ s : State ℕ Unit,
    ReachableIf devnet devnetRelays (fun s i => Step.Top devnet s i) s ∧
    ∃ top, s.ledger.topNominations.get 2 = some top ∧ top.total = 140 ∧
      (top.nominations.map Bond.amount).sum = 140 := by
  have hrun : (devnetRunIf (fun s i => Step.Top devnet s i) topDecrease).any (fun s =>
      ((s.ledger.topNominations.get 2).map fun top => top.total) == some 140) = true := by decide
  obtain ⟨s, hs, htotal⟩ := devnetRunIf_exists hrun
  obtain ⟨top, htop, htotal⟩ := Option.map_eq_some_iff.mp (eq_of_beq htotal)
  exact ⟨s, hs, top, htop, htotal, ((nominations_total_eq hs 2).1 top htop).symm.trans htotal⟩

/-- A third nominator ends up in the bottom list and decreases its nomination. -/
def bottomDecrease : List (Step ℕ Unit) :=
  [.call (.signed 7) (.nominate 2 30 2 0),
    .call (.signed 7) (.scheduleNominatorBondLess 2 10),
    .newSession 20 2 [] (fun _ => true),
    .call (.signed 7) (.executeNominationRequest 2)]

/-- The cached total of the bottom list does not follow. -/
theorem nominations_total_ne : ∃ s : State ℕ Unit, ReachableIf devnet devnetRelays anyStep s ∧
    ∃ bottom, s.ledger.bottomNominations.get 2 = some bottom ∧
      bottom.total ≠ (bottom.nominations.map Bond.amount).sum := by
  have hrun : (devnetRun bottomDecrease).any (fun s => (s.ledger.bottomNominations.get 2).any
      fun bottom => decide (bottom.total ≠ (bottom.nominations.map Bond.amount).sum)) = true := by
    decide
  obtain ⟨s, hs, hne⟩ := devnetRun_exists hrun
  obtain ⟨bottom, hbottom, hne⟩ := (Option.any_eq_true _ _).mp hne
  exact ⟨s, hs, bottom, hbottom, of_decide_eq_true hne⟩

/-! ### The total -/

/-- The loop of `refresh_total_snapshot`: with right cached totals, every candidate adds its
backing. -/
lemma State.snapshotCandidates_spec (hb : Books cfg s.ledger s.ledger.portfolio)
    (he : s.ledger.BottomExact) :
    ∀ {entries : List (AccountId × CandidateMetadata AccountId)} (acc : TotalSnapshot),
      (∀ e ∈ entries, s.ledger.candidateInfo.get e.1 = some e.2) →
      ∃ snapshot, entries.foldlM s.snapshotCandidate acc = some snapshot ∧
        snapshot.totalStake =
          acc.totalStake + (entries.map fun e => s.ledger.backing e.1 e.2).sum := by
  intro entries
  induction entries with
  | nil =>
      intro acc _
      exact ⟨acc, rfl, rfl⟩
  | cons e entries ih =>
      intro acc hmem
      obtain ⟨c, m⟩ := e
      obtain ⟨top, bottom, htop, hbottom, hv⟩ := hb.board c m (hmem _ List.mem_cons_self)
      have hbacking : s.ledger.backing c m = m.bond + top.total + bottom.total := by
        rw [Ledger.backing, Ledger.bonds_eq htop hbottom, List.map_append, List.sum_append,
          hv.top_exact, he c bottom hbottom, Nominations.sum, Nominations.sum, Nat.add_assoc]
      obtain ⟨snapshot, hfold, hstake⟩ := ih
        (acc.addCandidate (decide (c ∈ s.selection.selectedCandidates)) m top bottom)
        fun e he => hmem e (List.mem_cons_of_mem _ he)
      refine ⟨snapshot, ?_, ?_⟩
      · simpa [State.snapshotCandidate, htop, hbottom] using hfold
      · rw [hstake, List.map_cons, List.sum_cons, hbacking, TotalSnapshot.addCandidate]
        dsimp only
        omega

/-- **The total** is the sum of all stakes, and so is the total stake of the snapshot that every
block takes, along runs that do neither. -/
theorem total_eq_staked
    (h : ReachableIf cfg rm (fun s i => Step.Fresh cfg s i ∧ Step.Top cfg s i) s) :
    s.ledger.total = (s.ledger.candidateInfo.sum fun c m =>
        m.bond + ((s.ledger.bonds c).map Bond.amount).sum) ∧
      ∃ snapshot, s.totalSnapshot = some snapshot ∧ snapshot.totalStake = s.ledger.total := by
  obtain ⟨hbottom, htotal⟩ := h.total (fun _ _ hc => hc.1) fun _ _ hc => hc.2
  refine ⟨htotal, ?_⟩
  obtain ⟨snapshot, hsnap, hstake⟩ := State.snapshotCandidates_spec h.inv.ledger.books hbottom
    TotalSnapshot.default fun e he => StorageMap.mem_toList.mp he
  refine ⟨snapshot, hsnap, ?_⟩
  rw [hstake, StorageMap.sum_toList, htotal]
  exact Nat.zero_add _

/-- After the revocation and the decrease the total is what is staked. -/
theorem total_eq_staked_devnet : ∃ s : State ℕ Unit,
    ReachableIf devnet devnetRelays (fun s i => Step.Fresh devnet s i ∧ Step.Top devnet s i) s ∧
    s.ledger.total = 2130 ∧ (s.ledger.candidateInfo.sum fun c m =>
      m.bond + ((s.ledger.bonds c).map Bond.amount).sum) = 2130 := by
  have hrun : (devnetRunIf (fun s i => Step.Fresh devnet s i ∧ Step.Top devnet s i)
      freshRequests).any (fun s => s.ledger.total == 2130) = true := by decide
  obtain ⟨s, hs, htotal⟩ := devnetRunIf_exists hrun
  exact ⟨s, hs, eq_of_beq htotal, (total_eq_staked hs).1.symm.trans (eq_of_beq htotal)⟩

/-- A stale revocation takes too little out of the total, and a decrease in the bottom list leaves
the snapshot behind. -/
theorem total_ne_staked :
    (∃ s : State ℕ Unit, ReachableIf devnet devnetRelays anyStep s ∧
      s.ledger.total ≠ s.ledger.candidateInfo.sum fun c m =>
        m.bond + ((s.ledger.bonds c).map Bond.amount).sum) ∧
    ∃ s : State ℕ Unit, ReachableIf devnet devnetRelays anyStep s ∧
      ∃ snapshot, s.totalSnapshot = some snapshot ∧ snapshot.totalStake ≠ s.ledger.total := by
  have hstale : (devnetRun staleRevoke).any (fun s => decide (s.ledger.total ≠
      s.ledger.candidateInfo.sum fun c m => m.bond + ((s.ledger.bonds c).map Bond.amount).sum)) =
        true := by decide
  have hbottom : (devnetRun bottomDecrease).any (fun s => s.totalSnapshot.any fun snapshot =>
      decide (snapshot.totalStake ≠ s.ledger.total)) = true := by decide
  obtain ⟨s, hs, hne⟩ := devnetRun_exists hstale
  obtain ⟨t, ht, hsnap⟩ := devnetRun_exists hbottom
  obtain ⟨snapshot, hsome, hdiff⟩ := (Option.any_eq_true _ _).mp hsnap
  exact ⟨⟨s, hs, of_decide_eq_true hne⟩, t, ht, snapshot, hsome, of_decide_eq_true hdiff⟩

end Amounts

end BifrostNode.Staking
