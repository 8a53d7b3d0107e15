import BifrostNode.Relay.Manager
import BifrostNode.Staking.Controllers
import BifrostNode.Staking.Roster

/-!
# What a controller change renames

`handle_delayed_controller_sets` moves a candidate from its old account to a new one, storage item by
storage item.  `Faithful` says what a renaming is: whatever was under the old account is under the new
one, and nothing else is.  `Carried` says what has to be absent for the moves of the pallet to be one.

**Left behind.**  The tokens that a nominator was awarded per candidate, the cached selections of
earlier rounds, the snapshots of the rounds that are still to be paid, their points from two rounds ago
on, and the record of offences stay under the old account.

**Absent entries.**  `AwardedPts` and `AtStake` are value queries, and the pallet writes the default
under the new account where there was nothing under the old one, so they are compared by what they read
as.
-/

namespace BifrostNode.Relay

open Staking Transition

variable {AccountId R Q : Type} [LinearOrder AccountId]

/-! ## Renaming -/

/-- The record of a nominator in which every map calls the candidate by its new account. -/
def renameCandidate (old new : AccountId) (st : Nominator AccountId) : Nominator AccountId :=
  { st with
    nominations := st.nominations.rename old new fun a => a
    initialNominations := st.initialNominations.rename old new fun a => a
    awardedTokensPerCandidate := st.awardedTokensPerCandidate.rename old new fun a => a
    requests := { st.requests with
      requests := st.requests.requests.rename old new fun r => { r with validator := new } } }

/-- What is read under an account once the account `old` is called `new`. -/
def readRenamed {V : Type} (old new : AccountId) (absent : V) (read : AccountId → V)
    (a : AccountId) : V :=
  if a = new then read old else if a = old then absent else read a

/-- **A faithful renaming** of the ledger: the records, the lists and the nominators. -/
structure RenamesLedger (old new : AccountId) (l l' : Ledger AccountId) : Prop where
  info : l'.candidateInfo = l.candidateInfo.rename old new id
  stash : l'.bondedStash = l.bondedStash.mapVals fun c => if c = old then new else c
  pool : l'.candidatePool = l.candidatePool.rename old new id
  top : l'.topNominations = l.topNominations.rename old new id
  bottom : l'.bottomNominations = l.bottomNominations.rename old new id
  nominators : l'.nominatorState = l.nominatorState.mapVals (renameCandidate old new)

/-- A faithful renaming of the selected sets. -/
structure RenamesSelection (old new : AccountId) (sel sel' : Selection AccountId) : Prop where
  selected : sel'.selectedCandidates = StorageMap.renameIn old new sel.selectedCandidates
  full : sel'.selectedFullCandidates = StorageMap.renameIn old new sel.selectedFullCandidates
  basic : sel'.selectedBasicCandidates = StorageMap.renameIn old new sel.selectedBasicCandidates
  cached : sel'.cachedSelectedCandidates =
    sel.cachedSelectedCandidates.mapVals (StorageMap.renameIn old new)

/-- A faithful renaming of what the rounds that are not yet paid out are paid from. -/
structure RenamesRewards (cfg : Config AccountId) (now : ℕ) (old new : AccountId)
    (s s' : State AccountId R) : Prop where
  points : ∀ r, now ≤ r + cfg.rewardPaymentDelay → ∀ a, s'.rewards.awardedPts.getD (r, a) 0 =
    readRenamed old new 0 (fun a => s.rewards.awardedPts.getD (r, a) 0) a
  stakes : ∀ r, now ≤ r + cfg.rewardPaymentDelay → ∀ a,
    s'.snapshot r a = readRenamed old new .default (s.snapshot r) a

/-- A faithful renaming of a bond: the relayer stays, and its record names the new controller. -/
structure RenamesBond (old new : AccountId) (b b' : Relayers AccountId Q) : Prop where
  bond : b'.bondedController = b.bondedController.rename old new id
  record : ∀ relayer state, b.bondedController.get old = some relayer →
    b.relayerState.get relayer = some state →
    b'.relayerState.get relayer = some { state with controller := new }

/-- **A faithful renaming** of everything that is kept for a controller. -/
structure Faithful (cfg : Config AccountId) (now : ℕ) (old new : AccountId)
    (s s' : State AccountId (Relayers AccountId Q)) : Prop where
  ledger : RenamesLedger old new s.ledger s'.ledger
  selection : RenamesSelection old new s.selection s'.selection
  rewards : RenamesRewards cfg now old new s s'
  bond : RenamesBond old new s.relay s'.relay
  offences : s'.offences.validatorOffences = s.offences.validatorOffences.rename old new id

/-- **Nothing is left behind**, and nothing was left under the new account. -/
structure Carried (cfg : Config AccountId) (now : ℕ) (old new : AccountId)
    (s : State AccountId (Relayers AccountId Q)) : Prop where
  awarded : ∀ n st, s.ledger.nominatorState.get n = some st →
    st.awardedTokensPerCandidate.get old = none ∧ st.awardedTokensPerCandidate.get new = none
  initial : ∀ n st, s.ledger.nominatorState.get n = some st →
    (st.nominations.get old = none → st.initialNominations.get old = none) ∧
    (st.initialNominations.get old = none → st.initialNominations.get new = none)
  cached : ∀ r set, s.selection.cachedSelectedCandidates.get r = some set → r ≠ now →
    old ∉ set ∧ new ∉ set
  points : ∀ r, now ≤ r + cfg.rewardPaymentDelay → r ≠ now → r + 1 ≠ now →
    s.rewards.awardedPts.getD (r, old) 0 = 0 ∧ s.rewards.awardedPts.getD (r, new) 0 = 0
  stakes : ∀ r, now ≤ r + cfg.rewardPaymentDelay → r ≠ now →
    s.snapshot r old = .default ∧ s.snapshot r new = .default
  bond : (s.relay.bondedController.get old = none → s.relay.bondedController.get new = none) ∧
    ∀ m, s.ledger.candidateInfo.get old = some m → m.tier ≠ .full →
      s.relay.bondedController.get old = none
  offences : s.offences.validatorOffences.get old = none ∧
    s.offences.validatorOffences.get new = none

/-! ## Between two changes -/

section Midway

variable {cfg : Config AccountId} {rm : RelayManager AccountId R} {s t : State AccountId R}
  {c : DelayedControllerSet AccountId} {cs : List (DelayedControllerSet AccountId)}

/-- The state before one of the changes of a round, with what is still to be changed. -/
structure Midway (cfg : Config AccountId) (s : State AccountId R)
    (cs : List (DelayedControllerSet AccountId)) : Prop where
  inv : LedgerInv cfg s.ledger
  pending : Pending s.ledger cs
  pool : s.ledger.PoolAgrees
  fitting : Fitting s
  cached : s.selection.cachedSelectedCandidates.get s.now = some s.selection.selectedCandidates

lemma Midway.next (h : Midway cfg s (c :: cs)) (rm : RelayManager AccountId R) (now : ℕ) :
    Midway cfg (s.applyControllerSet rm now c) cs ∧ (s.applyControllerSet rm now c).now = s.now := by
  obtain ⟨m, top, bottom, hm, hren, hbal⟩ : ∃ m top bottom,
      s.ledger.candidateInfo.get c.old = some m ∧
      Renamed s.ledger (s.applyControllerSet rm now c).ledger c.stash c.old c.new m top bottom ∧
      Balanced cfg True True s.ledger (s.applyControllerSet rm now c).ledger :=
    State.applyControllerSet_renamed h.inv h.pending
  obtain ⟨hturn, hfit⟩ : Turn cfg (fun _ _ => True) (fun _ _ => True) s
        (s.applyControllerSet rm now c) ∧ Fitting (s.applyControllerSet rm now c) :=
    State.applyControllerSet_turn hm (h.pending.unused c List.mem_cons_self) hren.info_eq h.fitting
  have hnow : (s.applyControllerSet rm now c).now = s.now := by
    simp only [State.applyControllerSet, hm]
    rfl
  refine ⟨⟨hbal.inv h.inv, h.pending.tail hren, hturn.pool h.pool, hfit, ?_⟩, hnow⟩
  rw [hnow]
  simp only [State.applyControllerSet, hm]
  split_ifs
  · exact Selection.replace_cachedSelected _ _ _ _ _
  · exact h.cached

/-- **Run lemma.**  After some of the changes of a round the state is midway with the others, in the same
round. -/
lemma Midway.after (rm : RelayManager AccountId R) (now : ℕ) :
    ∀ {before : List (DelayedControllerSet AccountId)} {s : State AccountId R},
      Midway cfg s (before ++ cs) →
      Midway cfg (before.foldl (State.applyControllerSet rm now) s) cs ∧
        (before.foldl (State.applyControllerSet rm now) s).now = s.now := by
  intro before
  induction before with
  | nil =>
      intro s h
      exact ⟨h, rfl⟩
  | cons b before ih =>
      intro s h
      obtain ⟨hnext, hnow⟩ := h.next rm now
      obtain ⟨hafter, hsame⟩ := ih hnext
      exact ⟨hafter, hsame.trans hnow⟩

/-- The changes of a round begin in such a state. -/
lemma State.renaming_midway {i : Step AccountId R} (hs : StateInv cfg s)
    (hpool : s.ledger.PoolAgrees) (h : s.renaming cfg rm i = some t) :
    Midway cfg { t with delayedControllerSets := t.delayedControllerSets.remove (s.now + 1 - 1) }
      (t.delayedControllerSets.getD (s.now + 1 - 1) []) ∧ t.now = s.now + 1 := by
  obtain ⟨hquiet, hsets⟩ := State.renaming_quiet h
  have hpending : Pending t.ledger (t.delayedControllerSets.getD (s.now + 1 - 1) []) := by
    rw [hsets, Nat.add_sub_cancel]
    exact hs.pending.steady hquiet.steady
  cases i with
  | newSession block newIndex validators hasKeys =>
      simp only [State.renaming] at h
      split_ifs at h
      rw [Option.map_eq_some_iff] at h
      obtain ⟨⟨count, s₁⟩, h₁, rfl⟩ := h
      have hroll := s.enterSession_onRoll block newIndex validators
      obtain ⟨hkeep, hchosen⟩ := State.selectForRound_chosen rfl
        (State.computeTopCandidates_qualified cfg _ hasKeys) h₁ rfl
      have hfit := hchosen.fitting
      exact ⟨⟨hquiet.preserves.inv hs.ledger, hpending, hkeep (hroll.pool hpool),
        ⟨hfit.mem_iff, hfit.full_iff, hfit.basic_iff⟩, hchosen.cachedSelected⟩, hchosen.now⟩
  | _ => cases h

end Midway

/-! ## One item at a time -/

section Items

variable {cfg : Config AccountId} {l : Ledger AccountId} {old new : AccountId}

/-- What is left alone is renamed if it reads as absent under both names. -/
lemma eq_readRenamed_iff {V : Type} {absent : V} {read : AccountId → V} (hne : old ≠ new) :
    (∀ a, read a = readRenamed old new absent read a) ↔ read old = absent ∧ read new = absent := by
  constructor
  · intro h
    have hold : read old = absent := by
      have := h old
      rwa [readRenamed, if_neg hne, if_pos rfl] at this
    refine ⟨hold, ?_⟩
    have := h new
    rwa [readRenamed, if_pos rfl, hold] at this
  · rintro ⟨hold, hnew⟩ a
    rw [readRenamed]
    split_ifs with h₁ h₂
    · rw [h₁, hnew, hold]
    · rw [h₂, hold]
    · rfl

/-- The pallet renames the record of a nominator of the candidate, but for what it was awarded. -/
lemma renamed_eq_renameCandidate_iff {st : Nominator AccountId} (hne : old ≠ new)
    (hnom : st.nominations.get new = none) (hreq : st.requests.requests.get new = none) :
    st.renamed old new = renameCandidate old new st ↔
      (st.initialNominations.get old = none → st.initialNominations.get new = none) ∧
      st.awardedTokensPerCandidate.get old = none ∧ st.awardedTokensPerCandidate.get new = none := by
  simp only [Nominator.renamed, Nominator.replaceNominations, Nominator.replaceRequests,
    renameCandidate, Nominator.mk.injEq, PendingNominationRequests.mk.injEq, true_and, and_true,
    StorageMap.moveKey_eq_rename_iff hne, StorageMap.eq_rename_iff hne, hnom, hreq, implies_true]

/-- The record of anyone else is left alone. -/
lemma eq_renameCandidate_iff {st : Nominator AccountId} (hne : old ≠ new)
    (hnom : st.nominations.get old = none ∧ st.nominations.get new = none)
    (hreq : st.requests.requests.get old = none ∧ st.requests.requests.get new = none) :
    st = renameCandidate old new st ↔
      (st.initialNominations.get old = none ∧ st.initialNominations.get new = none) ∧
      st.awardedTokensPerCandidate.get old = none ∧ st.awardedTokensPerCandidate.get new = none := by
  obtain ⟨id, nominations, initial, total, ⟨revocations, requests, less⟩, status, dst, awarded,
    perCandidate⟩ := st
  simp only [renameCandidate, Nominator.mk.injEq, PendingNominationRequests.mk.injEq, true_and,
    and_true, StorageMap.eq_rename_iff hne] at hnom hreq ⊢
  simp only [hnom, hreq, and_self, true_and]

/-- **The ledger** as a whole is renamed exactly if the other records of the nominators have nothing to
rename. -/
lemma replaceController_renames_iff {c : DelayedControllerSet AccountId}
    {m : CandidateMetadata AccountId} (hl : LedgerInv cfg l) (hpool : l.PoolAgrees)
    (hm : l.candidateInfo.get c.old = some m) (hstash : m.stash = c.stash)
    (hfree : l.candidateInfo.get c.new = none) :
    RenamesLedger c.old c.new l (l.replaceController c m) ↔
      ∀ n st, l.nominatorState.get n = some st →
        ((st.nominations.get c.old = none → st.initialNominations.get c.old = none) ∧
          (st.initialNominations.get c.old = none → st.initialNominations.get c.new = none)) ∧
        st.awardedTokensPerCandidate.get c.old = none ∧
        st.awardedTokensPerCandidate.get c.new = none := by
  have hne : c.old ≠ c.new := by
    intro heq
    rw [← heq, hm] at hfree
    cases hfree
  obtain ⟨top, bottom, htop, hbottom, hv⟩ := hl.books.board c.old m hm
  have hren : Renamed l (l.replaceController c m) c.stash c.old c.new m top bottom :=
    Ledger.replaceController_spec htop hbottom hv.tiers.nodup
  obtain ⟨hnt, hnb⟩ := hl.books.no_board c.new hfree
  -- whoever is in the lists of the candidate nominates it, and nobody nominates the new account
  have hnom : ∀ n st, l.nominatorState.get n = some st → ∀ k a,
      st.nominations.get k = some a ↔ (⟨n, a⟩ : Bond AccountId) ∈ l.bonds k := by
    intro n st hst k a
    have hagree := hl.books.agree n k a
    rw [Ledger.portfolio, hst] at hagree
    exact hagree
  have hnew : ∀ n st, l.nominatorState.get n = some st → st.nominations.get c.new = none := by
    intro n st hst
    rw [Option.eq_none_iff_forall_ne_some]
    intro a ha
    rw [hnom n st hst] at ha
    simp [Ledger.bonds, hnt, hnb] at ha
  have howner : ∀ n st, l.nominatorState.get n = some st →
      (n ∈ (top.nominations ++ bottom.nominations).map Bond.owner ↔
        st.nominations.get c.old ≠ none) := by
    intro n st hst
    rw [← Ledger.bonds_eq htop hbottom, Option.ne_none_iff_exists']
    simp only [hnom n st hst, List.mem_map]
    constructor
    · rintro ⟨b, hb, rfl⟩
      exact ⟨b.amount, hb⟩
    · rintro ⟨a, ha⟩
      exact ⟨_, ha, rfl⟩
  have hreq : ∀ n st k, l.nominatorState.get n = some st → st.nominations.get k = none →
      st.requests.requests.get k = none := by
    intro n st k hst hk
    rw [Option.eq_none_iff_forall_ne_some]
    intro r hr
    obtain ⟨a, ha, -⟩ := (hl.records n st hst).request_le k r hr
    rw [hk] at ha
    cases ha
  have hone : ∀ n st, l.nominatorState.get n = some st →
      ((l.replaceController c m).nominatorState.get n = some (renameCandidate c.old c.new st) ↔
        ((st.nominations.get c.old = none → st.initialNominations.get c.old = none) ∧
          (st.initialNominations.get c.old = none → st.initialNominations.get c.new = none)) ∧
        st.awardedTokensPerCandidate.get c.old = none ∧
        st.awardedTokensPerCandidate.get c.new = none) := by
    intro n st hst
    rw [hren.nominator_eq, hst]
    by_cases hn : st.nominations.get c.old = none
    · rw [if_neg (mt (howner n st hst).mp (not_not.mpr hn)), Option.some.injEq,
        eq_renameCandidate_iff hne ⟨hn, hnew n st hst⟩
          ⟨hreq n st _ hst hn, hreq n st _ hst (hnew n st hst)⟩]
      simp only [hn, forall_const]
      tauto
    · rw [if_pos ((howner n st hst).mpr hn), Option.map_some, Option.some.injEq,
        renamed_eq_renameCandidate_iff hne (hnew n st hst) (hreq n st _ hst (hnew n st hst))]
      simp only [hn, IsEmpty.forall_iff, true_and]
  constructor
  · intro h n st hst
    rw [← hone n st hst, h.nominators, StorageMap.get_mapVals, hst, Option.map_some]
  · intro h
    refine ⟨?_, ?_, ?_, ?_, ?_, ?_⟩
    · rw [hren.info_eq, StorageMap.rename, hm]
      rfl
    · rw [hren.stash_eq]
      ext1 k
      rw [StorageMap.get_insert, StorageMap.get_mapVals]
      split_ifs with hk
      · rw [hk, (hl.books.stash_iff _ _).mpr ⟨m, hm, hstash⟩, Option.map_some, if_pos rfl]
      · cases hk' : l.bondedStash.get k with
        | none => rfl
        | some d =>
            have hd : d ≠ c.old := by
              rintro rfl
              obtain ⟨m', hm', hs'⟩ := (hl.books.stash_iff _ _).mp hk'
              rw [hm] at hm'
              exact hk (by rw [← hs', ← hstash, Option.some.inj hm'])
            rw [Option.map_some, if_neg hd]
    · rw [Ledger.replaceController_pool, StorageMap.moveKey_eq_rename_iff hne]
      intro _
      rw [hpool, hfree]
      rfl
    · rw [hren.top_eq, StorageMap.rename, htop]
      rfl
    · rw [hren.bottom_eq, StorageMap.rename, hbottom]
      rfl
    · ext1 n
      cases hst : l.nominatorState.get n with
      | none => rw [hren.nominator_eq, StorageMap.get_mapVals, hst]; simp
      | some st => rw [(hone n st hst).mpr (h n st hst), StorageMap.get_mapVals, hst]; rfl

/-- **The selected sets** are renamed exactly if no other cached round has one of the names. -/
lemma selection_renames_iff {s : State AccountId R} {m : CandidateMetadata AccountId} (hne : old ≠ new)
    (hm : s.ledger.candidateInfo.get old = some m) (hfree : s.ledger.candidateInfo.get new = none)
    (hfit : Fitting s)
    (hcached : s.selection.cachedSelectedCandidates.get s.now = some s.selection.selectedCandidates) :
    RenamesSelection old new s.selection
        (if m.isSelected then s.selection.replaceFromSelectedCandidates s.now old new m.tier
          else s.selection) ↔
      ∀ r set, s.selection.cachedSelectedCandidates.get r = some set → r ≠ s.now →
        old ∉ set ∧ new ∉ set := by
  have hold : s.ledger.standing old = some (m.status, m.isSelected, m.tier) := by
    rw [Ledger.standing, hm]
    rfl
  have hnew : s.ledger.standing new = none := by
    rw [Ledger.standing, hfree]
    rfl
  have hsel : old ∈ s.selection.selectedCandidates ↔ m.isSelected = true := by
    simp [hfit.mem_iff, hold]
  have hfull : old ∈ s.selection.selectedFullCandidates ↔ m.isSelected = true ∧ m.tier = .full := by
    simp [hfit.full_iff, hold]
  have hbasic : old ∈ s.selection.selectedBasicCandidates ↔
      m.isSelected = true ∧ m.tier ≠ .full := by
    simp [hfit.basic_iff, hold]
  have hnsel : new ∉ s.selection.selectedCandidates := by simp [hfit.mem_iff, hnew]
  have hnfull : new ∉ s.selection.selectedFullCandidates := by simp [hfit.full_iff, hnew]
  have hnbasic : new ∉ s.selection.selectedBasicCandidates := by simp [hfit.basic_iff, hnew]
  -- the cached sets of the other rounds are left alone
  have hcache : ∀ cache : StorageMap ℕ (Finset AccountId),
      cache.get s.now = some (StorageMap.renameIn old new s.selection.selectedCandidates) →
      (∀ r, r ≠ s.now → cache.get r = s.selection.cachedSelectedCandidates.get r) →
      (cache = s.selection.cachedSelectedCandidates.mapVals (StorageMap.renameIn old new) ↔
        ∀ r set, s.selection.cachedSelectedCandidates.get r = some set → r ≠ s.now →
          old ∉ set ∧ new ∉ set) := by
    intro cache hnow hother
    constructor
    · intro h r set hr hne'
      have hget := hother r hne'
      rw [h, StorageMap.get_mapVals, hr, Option.map_some, Option.some.injEq] at hget
      exact (StorageMap.eq_renameIn_iff hne).mp hget.symm
    · intro h
      ext1 r
      rw [StorageMap.get_mapVals]
      by_cases hr : r = s.now
      · rw [hr, hnow, hcached, Option.map_some]
      · rw [hother r hr]
        cases hget : s.selection.cachedSelectedCandidates.get r with
        | none => rfl
        | some set => rw [Option.map_some, ← (StorageMap.eq_renameIn_iff hne).mpr (h r set hget hr)]
  by_cases hs : m.isSelected = true
  · rw [if_pos hs]
    have hset : (s.selection.replaceFromSelectedCandidates s.now old new m.tier).selectedCandidates =
        StorageMap.renameIn old new s.selection.selectedCandidates := by
      rw [Selection.replace_selected, StorageMap.renameIn, if_pos (hsel.mpr hs)]
    have hiff := hcache
      (s.selection.replaceFromSelectedCandidates s.now old new m.tier).cachedSelectedCandidates
      (by rw [Selection.replace_cachedSelected, hset]) fun r hr => by
        simp only [Selection.replaceFromSelectedCandidates, Selection.addToSelectedCandidates,
          Selection.removeFromSelectedCandidates, Selection.refreshLatestCachedSelectedCandidates]
        split_ifs <;> exact StorageMap.get_insert_of_ne _ hr _
    refine ⟨fun h => hiff.mp h.cached, fun h => ⟨hset, ?_, ?_, hiff.mpr h⟩⟩
    · rw [Selection.replace_full]
      split_ifs with ht
      · rw [StorageMap.renameIn, if_pos (hfull.mpr ⟨hs, ht⟩)]
      · rw [← (StorageMap.eq_renameIn_iff hne).mpr ⟨fun h => ht (hfull.mp h).2, hnfull⟩]
    · rw [Selection.replace_basic]
      split_ifs with ht
      · rw [← (StorageMap.eq_renameIn_iff hne).mpr ⟨fun h => (hbasic.mp h).2 ht, hnbasic⟩]
      · rw [StorageMap.renameIn, if_pos (hbasic.mpr ⟨hs, ht⟩)]
  · rw [if_neg hs]
    have hset : s.selection.selectedCandidates =
        StorageMap.renameIn old new s.selection.selectedCandidates :=
      (StorageMap.eq_renameIn_iff hne).mpr ⟨fun h => hs (hsel.mp h), hnsel⟩
    have hiff := hcache s.selection.cachedSelectedCandidates (by rw [hcached, ← hset])
      fun _ _ => rfl
    refine ⟨fun h => hiff.mp h.cached, fun h => ⟨hset, ?_, ?_, hiff.mpr h⟩⟩
    · exact (StorageMap.eq_renameIn_iff hne).mpr ⟨fun h => hs (hfull.mp h).1, hnfull⟩
    · exact (StorageMap.eq_renameIn_iff hne).mpr ⟨fun h => hs (hbasic.mp h).1, hnbasic⟩

/-- The points of the round that begins and of the one before it are moved. -/
lemma moveRewards_points (s : State AccountId R) {now : ℕ} (hnow : 1 ≤ now) (r : ℕ) (a : AccountId) :
    (s.moveRewards now old new).rewards.awardedPts.getD (r, a) 0 =
      if r = now ∨ r + 1 = now then
        readRenamed old new 0 (fun a => s.rewards.awardedPts.getD (r, a) 0) a
      else s.rewards.awardedPts.getD (r, a) 0 := by
  have hne : now ≠ now - 1 := by omega
  have hprev : r + 1 = now ↔ r = now - 1 := by omega
  simp only [State.moveRewards, readRenamed, StorageMap.getD, StorageMap.get_insert,
    StorageMap.get_remove, Prod.mk.injEq, hprev]
  by_cases h₁ : r = now
  · subst h₁
    simp only [hne, true_and, false_and, if_false, true_or, if_true]
    split_ifs <;> rfl
  · by_cases h₂ : r = now - 1
    · subst h₂
      simp only [hne.symm, true_and, false_and, if_false, or_true, if_true]
      split_ifs <;> rfl
    · simp only [h₁, h₂, false_and, if_false, or_false]

/-- The snapshot of the round that begins is moved. -/
lemma moveRewards_snapshot (s : State AccountId R) (now r : ℕ) (a : AccountId) :
    (s.moveRewards now old new).snapshot r a =
      if r = now then readRenamed old new .default (s.snapshot r) a else s.snapshot r a := by
  simp only [State.moveRewards, State.snapshot, readRenamed, StorageMap.getD, StorageMap.get_insert,
    StorageMap.get_remove, Prod.mk.injEq]
  by_cases hr : r = now
  · subst hr
    simp only [true_and, if_true]
    split_ifs <;> rfl
  · simp only [hr, false_and, if_false]

/-- **The rewards** are renamed exactly if points and snapshots of the other unpaid rounds have neither
name. -/
lemma rewards_rename_iff {s s' : State AccountId R} {now : ℕ} (hne : old ≠ new) (hnow : 1 ≤ now)
    (hs' : s'.rewards = (s.moveRewards now old new).rewards) :
    RenamesRewards cfg now old new s s' ↔
      (∀ r, now ≤ r + cfg.rewardPaymentDelay → r ≠ now → r + 1 ≠ now →
        s.rewards.awardedPts.getD (r, old) 0 = 0 ∧ s.rewards.awardedPts.getD (r, new) 0 = 0) ∧
      ∀ r, now ≤ r + cfg.rewardPaymentDelay → r ≠ now →
        s.snapshot r old = .default ∧ s.snapshot r new = .default := by
  have hpoints : ∀ r, (∀ a, s'.rewards.awardedPts.getD (r, a) 0 =
      readRenamed old new 0 (fun a => s.rewards.awardedPts.getD (r, a) 0) a) ↔
      (r ≠ now → r + 1 ≠ now → s.rewards.awardedPts.getD (r, old) 0 = 0 ∧
        s.rewards.awardedPts.getD (r, new) 0 = 0) := by
    intro r
    simp only [hs', moveRewards_points s hnow]
    by_cases hr : r = now ∨ r + 1 = now
    · simp only [if_pos hr, implies_true, true_iff]
      intro h₁ h₂
      exact absurd hr (not_or.mpr ⟨h₁, h₂⟩)
    · simp only [if_neg hr]
      rw [not_or] at hr
      simp only [ne_eq, hr, not_false_eq_true, forall_const]
      exact eq_readRenamed_iff hne
  have hstakes : ∀ r, (∀ a, s'.snapshot r a = readRenamed old new .default (s.snapshot r) a) ↔
      (r ≠ now → s.snapshot r old = .default ∧ s.snapshot r new = .default) := by
    intro r
    have hsnap : ∀ a, s'.snapshot r a = (s.moveRewards now old new).snapshot r a := by
      intro a
      rw [State.snapshot, State.snapshot, hs']
    simp only [hsnap, moveRewards_snapshot]
    by_cases hr : r = now
    · simp only [hr, if_true, implies_true, ne_eq, not_true_eq_false, IsEmpty.forall_iff]
    · simp only [ne_eq, hr, if_false, not_false_eq_true, forall_const]
      exact eq_readRenamed_iff hne
  constructor
  · intro h
    exact ⟨fun r hr => (hpoints r).mp (h.points r hr), fun r hr => (hstakes r).mp (h.stakes r hr)⟩
  · intro h
    exact ⟨fun r hr => (hpoints r).mpr (h.1 r hr), fun r hr => (hstakes r).mpr (h.2 r hr)⟩

/-- **The bond** is renamed exactly if the new account has none of its own and only full nodes have one. -/
lemma bond_renames_iff (b : Relayers AccountId Q) (tier : TierType) (hne : old ≠ new) :
    RenamesBond old new b (if tier = .full then b.replaceBondedController old new else b) ↔
      (b.bondedController.get old = none → b.bondedController.get new = none) ∧
      (tier ≠ .full → b.bondedController.get old = none) := by
  by_cases ht : tier = .full
  · have hmove : (b.replaceBondedController old new).bondedController =
        b.bondedController.moveKey old new id := by
      rw [Relayers.replaceBondedController, StorageMap.moveKey]
      cases hold : b.bondedController.get old with
      | none => rfl
      | some relayer =>
          simp only [Relayers.removeFromRelayerPool, Relayers.modifyRelayer]
          split <;> rfl
    rw [if_pos ht]
    constructor
    · intro h
      refine ⟨?_, fun hne' => absurd ht hne'⟩
      rw [← StorageMap.moveKey_eq_rename_iff (f := id) hne, ← hmove, h.bond]
    · intro h
      refine ⟨?_, fun relayer state hold hstate => ?_⟩
      · rw [hmove, StorageMap.moveKey_eq_rename_iff hne]
        exact h.1
      · simp only [Relayers.replaceBondedController, hold, Relayers.removeFromRelayerPool,
          Relayers.modifyRelayer, hstate]
        exact StorageMap.get_insert_self _ _ _
  · rw [if_neg ht]
    constructor
    · intro h
      obtain ⟨hold, hnew⟩ := (StorageMap.eq_rename_iff hne).mp h.bond
      exact ⟨fun _ => hnew, fun _ => hold⟩
    · intro h
      have hold := h.2 ht
      refine ⟨(StorageMap.eq_rename_iff hne).mpr ⟨hold, h.1 hold⟩, fun relayer state hold' => ?_⟩
      rw [hold] at hold'
      cases hold'

end Items

/-! ## Runs -/

section Runs

variable {cfg : Config AccountId} {replaceAuthority : Q → AccountId → AccountId → Q}
  {s t : State AccountId (Relayers AccountId Q)}

/-- **One change**, of those that are pending. -/
lemma Midway.faithful_iff {s : State AccountId (Relayers AccountId Q)}
    {c : DelayedControllerSet AccountId} {cs : List (DelayedControllerSet AccountId)}
    (h : Midway cfg s (c :: cs)) (hnow : 1 ≤ s.now) :
    Faithful cfg s.now c.old c.new s
        (s.applyControllerSet (Relayers.manager replaceAuthority) s.now c) ↔
      Carried cfg s.now c.old c.new s := by
  obtain ⟨m, hm, hstash⟩ := (h.inv.books.stash_iff _ _).mp (h.pending.stash c List.mem_cons_self)
  have hfree := h.pending.unused c List.mem_cons_self
  have hne : c.old ≠ c.new := by
    intro heq
    rw [← heq, hm] at hfree
    cases hfree
  have hledger := replaceController_renames_iff h.inv h.pool hm hstash hfree
  have hselection := selection_renames_iff hne hm hfree h.fitting h.cached
  have hbond := bond_renames_iff s.relay m.tier hne
  have heq : s.applyControllerSet (Relayers.manager replaceAuthority) s.now c =
      { s.moveRewards s.now c.old c.new with
        ledger := s.ledger.replaceController c m
        selection :=
          if m.isSelected then
            s.selection.replaceFromSelectedCandidates s.now c.old c.new m.tier
          else s.selection
        relay :=
          if m.tier = .full then s.relay.replaceBondedController c.old c.new else s.relay } := by
    simp only [State.applyControllerSet, hm]
    rfl
  generalize hs' : s.applyControllerSet (Relayers.manager replaceAuthority) s.now c = s' at heq
  have hrewards : RenamesRewards cfg s.now c.old c.new s s' ↔ _ :=
    rewards_rename_iff hne hnow (by rw [heq])
  subst heq
  constructor
  · intro hf
    have hl := hledger.mp hf.ledger
    have hr := hrewards.mp hf.rewards
    have hb := hbond.mp hf.bond
    refine ⟨fun n st hst => (hl n st hst).2, fun n st hst => (hl n st hst).1,
      hselection.mp hf.selection, hr.1, hr.2, ⟨hb.1, fun m' hm' => ?_⟩,
      (StorageMap.eq_rename_iff hne).mp hf.offences⟩
    rw [hm] at hm'
    rw [← Option.some.inj hm']
    exact hb.2
  · intro hc
    exact ⟨hledger.mpr fun n st hst => ⟨hc.initial n st hst, hc.awarded n st hst⟩,
      hselection.mpr hc.cached, hrewards.mpr ⟨hc.points, hc.stakes⟩,
      hbond.mpr ⟨hc.bond.1, hc.bond.2 m hm⟩, (StorageMap.eq_rename_iff hne).mpr hc.offences⟩

/-- **Controller changes rename**, in every run: each request that a round change applies turns the
state it finds into the renamed one exactly if nothing is left behind. -/
theorem controllers_renamed
    (h : ReachableIf cfg (Relayers.manager replaceAuthority) anyStep s)
    {i : Step AccountId (Relayers AccountId Q)}
    (ht : s.renaming cfg (Relayers.manager replaceAuthority) i = some t)
    {before after : List (DelayedControllerSet AccountId)} {c : DelayedControllerSet AccountId}
    (hcs : t.delayedControllerSets.getD (s.now + 1 - 1) [] = before ++ c :: after)
    {u : State AccountId (Relayers AccountId Q)}
    (hu : u = before.foldl (State.applyControllerSet (Relayers.manager replaceAuthority) (s.now + 1))
      { t with delayedControllerSets := t.delayedControllerSets.remove (s.now + 1 - 1) }) :
    Faithful cfg (s.now + 1) c.old c.new u
        (u.applyControllerSet (Relayers.manager replaceAuthority) (s.now + 1) c) ↔
      Carried cfg (s.now + 1) c.old c.new u := by
  obtain ⟨hmid, hnow⟩ := State.renaming_midway h.inv h.poolAgrees ht
  rw [hcs] at hmid
  obtain ⟨hafter, hsame⟩ := hmid.after (Relayers.manager replaceAuthority) (s.now + 1)
  rw [← hu] at hafter hsame
  have hnow' : u.now = s.now + 1 := hsame.trans hnow
  rw [← hnow']
  exact hafter.faithful_iff (by omega)

/-- A network whose relayers are those of the pallet. -/
def relays : RelayManager ℕ (Relayers ℕ Unit) := Relayers.manager fun _ _ _ => ()

def relayGenesis : GenesisConfig ℕ (Relayers ℕ Unit) where
  candidates := devnetGenesis.candidates
  nominations := devnetGenesis.nominations
  inflationConfig := devnetGenesis.inflationConfig
  free := devnetGenesis.free
  others := devnetGenesis.others
  relay := Relayers.genesis 4 false .zero [] ()
  offences := devnetGenesis.offences

/-- The first round change. -/
def secondRound : Step ℕ (Relayers ℕ Unit) := .newSession 20 2 [] fun _ => true

/-- A run with one request that the next round change applies, and what holds there. -/
lemma relayGenesis_renaming (steps : List (Step ℕ (Relayers ℕ Unit))) (c : DelayedControllerSet ℕ)
    (P : State ℕ (Relayers ℕ Unit) → Bool)
    (h : ((relayGenesis.build devnet relays).bind fun s =>
        runSteps (State.step devnet relays) s steps).any (fun s =>
      decide (s.now = 1) && (s.renaming devnet relays secondRound).any fun t =>
        decide ((t.delayedControllerSets.getD 1 []).map (fun d => (d.stash, d.old, d.new)) =
          [(c.stash, c.old, c.new)]) &&
          P { t with delayedControllerSets := t.delayedControllerSets.remove 1 }) = true) :
    ∃ s t u, ReachableIf devnet relays anyStep s ∧ s.now = 1 ∧
      s.renaming devnet relays secondRound = some t ∧ t.delayedControllerSets.getD 1 [] = [c] ∧
      u = { t with delayedControllerSets := t.delayedControllerSets.remove 1 } ∧ P u = true := by
  obtain ⟨s, hs, h⟩ := (Option.any_eq_true _ _).mp h
  obtain ⟨s₀, h₀, hs⟩ := Option.bind_eq_some_iff.mp hs
  rw [Bool.and_eq_true, decide_eq_true_eq] at h
  obtain ⟨t, ht, hP⟩ := (Option.any_eq_true _ _).mp h.2
  rw [Bool.and_eq_true, decide_eq_true_eq] at hP
  obtain ⟨d, hd, hnames⟩ := List.map_eq_singleton_iff.mp hP.1
  simp only [Prod.mk.injEq] at hnames
  have hdc : d = c := by
    cases d
    cases c
    simpa using hnames
  exact ⟨s, t, _, Reachable.runSteps (.init ⟨relayGenesis, h₀⟩) hs, h.1, ht, hdc ▸ hd, rfl, hP.2⟩

/-- A candidate that has just joined, whose controller changes before it is first selected, is
renamed. -/
theorem controllers_renamed_devnet : ∃ s t u : State ℕ (Relayers ℕ Unit),
    ReachableIf devnet relays anyStep s ∧ s.now = 1 ∧
    s.renaming devnet relays secondRound = some t ∧
    t.delayedControllerSets.getD 1 [] = [⟨21, 22, 24⟩] ∧
    u = { t with delayedControllerSets := t.delayedControllerSets.remove 1 } ∧
    Faithful devnet 2 22 24 u (u.applyControllerSet relays 2 ⟨21, 22, 24⟩) := by
  obtain ⟨s, t, u, hs, hnow, ht, hc, hu, hP⟩ := relayGenesis_renaming
    [.call (.signed 21) (.joinCandidates 22 (some 23) 1000 10),
      .call (.signed 21) (.setController 24)] ⟨21, 22, 24⟩
    (fun u => decide (
      (∀ e ∈ u.ledger.nominatorState.toList,
        (e.2.awardedTokensPerCandidate.get 22 = none ∧
          e.2.awardedTokensPerCandidate.get 24 = none) ∧
        e.2.initialNominations.get 22 = none ∧ e.2.initialNominations.get 24 = none) ∧
      (∀ e ∈ u.selection.cachedSelectedCandidates.toList, e.1 ≠ 2 → 22 ∉ e.2 ∧ 24 ∉ e.2) ∧
      (∀ k ∈ u.rewards.awardedPts.keys, k.2 ≠ 22 ∧ k.2 ≠ 24) ∧
      (∀ k ∈ u.rewards.atStake.keys, k.1 ≠ 2 → k.2 ≠ 22 ∧ k.2 ≠ 24) ∧
      (u.ledger.candidateInfo.get 22).all (fun m => m.tier = .full) = true ∧
      u.relay.bondedController.get 24 = none ∧
      u.offences.validatorOffences.get 22 = none ∧
      u.offences.validatorOffences.get 24 = none)) (by decide)
  obtain ⟨hnom, hcached, hpts, hstake, htier, hbond, hoff⟩ := of_decide_eq_true hP
  have habsent : ∀ {V : Type} {m : StorageMap (ℕ × ℕ) V} {k : ℕ × ℕ} (d : V), k ∉ m.keys →
      m.getD k d = d := by
    intro V m k d hk
    rw [m.mem_keys, Bool.not_eq_true, Option.isSome_eq_false_iff, Option.isNone_iff_eq_none] at hk
    rw [StorageMap.getD, hk]
    rfl
  have hcarried : Carried devnet 2 22 24 u := by
    refine ⟨fun n st hst => (hnom (n, st) (StorageMap.mem_toList.mpr hst)).1, fun n st hst => ?_,
      fun r set hr => hcached (r, set) (StorageMap.mem_toList.mpr hr), fun r _ _ _ => ⟨?_, ?_⟩,
      fun r _ hr => ⟨?_, ?_⟩, ⟨fun _ => hbond, fun m hm htier' => ?_⟩, hoff⟩
    · obtain ⟨-, h₁, h₂⟩ := hnom (n, st) (StorageMap.mem_toList.mpr hst)
      exact ⟨fun _ => h₁, fun _ => h₂⟩
    · exact habsent 0 fun hk => (hpts _ hk).1 rfl
    · exact habsent 0 fun hk => (hpts _ hk).2 rfl
    · exact habsent _ fun hk => (hstake _ hk hr).1 rfl
    · exact habsent _ fun hk => (hstake _ hk hr).2 rfl
    · rw [hm] at htier
      exact absurd (of_decide_eq_true htier) htier'
  have hcs : t.delayedControllerSets.getD (s.now + 1 - 1) [] =
      [] ++ (⟨21, 22, 24⟩ : DelayedControllerSet ℕ) :: [] := by
    rw [hnow]
    exact hc
  have hiff : Faithful devnet (s.now + 1) 22 24 u
      (u.applyControllerSet relays (s.now + 1) ⟨21, 22, 24⟩) ↔ Carried devnet (s.now + 1) 22 24 u :=
    controllers_renamed hs ht hcs (by rw [hnow]; exact hu)
  rw [hnow] at hiff
  exact ⟨s, t, u, hs, hnow, ht, hc, hu, hiff.mpr hcarried⟩

/-- A validator of the first round changes its controller: the snapshot that it is to be paid from in
the second round stays under the old one. -/
theorem controllers_not_renamed : ∃ s t u : State ℕ (Relayers ℕ Unit),
    ReachableIf devnet relays anyStep s ∧ s.now = 1 ∧
    s.renaming devnet relays secondRound = some t ∧
    t.delayedControllerSets.getD 1 [] = [⟨1, 2, 4⟩] ∧
    u = { t with delayedControllerSets := t.delayedControllerSets.remove 1 } ∧
    ¬ Faithful devnet 2 2 4 u (u.applyControllerSet relays 2 ⟨1, 2, 4⟩) := by
  obtain ⟨s, t, u, hs, hnow, ht, hc, hu, hP⟩ := relayGenesis_renaming
    [.call (.signed 1) (.setController 4)] ⟨1, 2, 4⟩
    (fun u => decide ((u.applyControllerSet relays 2 ⟨1, 2, 4⟩).snapshot 1 4 ≠ u.snapshot 1 2))
    (by decide)
  refine ⟨s, t, u, hs, hnow, ht, hc, hu, fun hf => ?_⟩
  exact of_decide_eq_true hP (hf.rewards.stakes 1 (by decide) 4)

end Runs

end BifrostNode.Relay
