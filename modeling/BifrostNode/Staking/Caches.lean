import BifrostNode.Lib.Windows
import BifrostNode.Staking.Roster
import BifrostNode.Staking.PastRewards

/-!
# The cached rounds

`CachedSelectedCandidates` and `CachedMajority` tell the other parts of the node who validated in a past
round, and by what majority.  They are written by a new round, by a candidate that goes offline or is
kicked out, and by a controller change, and a full cache gives up its oldest round.

A run is watched, and what every round ended with is noted: **the two caches are a window of what is
noted**, without gaps, up to the present round, and never longer than the longest lifetime that was set.
A candidate that goes offline makes a full cache give up a round although no round is added, so the
window can be shorter than the lifetime.
-/

namespace BifrostNode.Staking

open Function Transition
open StorageMap (Recent Window)

/-! ## A full cache -/

namespace Selection

variable {V : Type} {log : ℕ → V} {first stop now bound lifetime : ℕ} {cache : StorageMap ℕ V}

/-- A full cache gives up its oldest round. -/
lemma popFirst_window (h : Window log first stop cache) (hlt : first < stop) :
    Window log (if lifetime ≤ stop - first then first + 1 else first) stop
      (popFirst cache lifetime) := by
  obtain ⟨rest, hhead⟩ := h.head hlt
  rw [popFirst, h.card, hhead]
  split_ifs
  · exact h.drop
  · exact h

/-- The present round is written again. -/
lemma popFirst_rewrite (h : Recent log now bound cache) (v : V) :
    Recent (update log now v) now bound ((popFirst cache lifetime).insert now v) := by
  obtain ⟨first, hle, hlt, hwindow⟩ := h
  have hpopped : Window log _ (now + 1) (popFirst cache lifetime) :=
    popFirst_window hwindow (Nat.lt_succ_of_le hle)
  split_ifs at hpopped with hfull
  · rcases Nat.lt_or_ge first now with hbefore | hlast
    · exact ⟨first + 1, hbefore, by omega, hpopped.rewrite hbefore v⟩
    · -- nothing but the present round was cached
      obtain rfl : first = now := by omega
      refine ⟨first, le_rfl, by omega, fun r => ?_⟩
      rw [StorageMap.get_insert, hpopped r, update_apply]
      split_ifs <;> first | rfl | omega
  · exact ⟨first, hle, hlt, hpopped.rewrite hle v⟩

/-- The next round is written. -/
lemma popFirst_push (h : Recent log now bound cache) (hle : lifetime ≤ bound) (v : V) :
    Recent (update log (now + 1) v) (now + 1) bound
      ((popFirst cache lifetime).insert (now + 1) v) := by
  obtain ⟨first, hfirst, hlt, hwindow⟩ := h
  have hpopped : Window log _ (now + 1) (popFirst cache lifetime) :=
    popFirst_window hwindow (Nat.lt_succ_of_le hfirst)
  split_ifs at hpopped with hfull
  · exact ⟨first + 1, by omega, by omega, hpopped.push (by omega) v⟩
  · exact ⟨first, by omega, by omega, hpopped.push (by omega) v⟩

/-- Nothing is added. -/
lemma get_of_popFirst {k : ℕ} {v : V} (h : (popFirst cache lifetime).get k = some v) :
    cache.get k = some v := by
  rw [popFirst] at h
  split_ifs at h
  · split at h
    · rw [StorageMap.get_remove] at h
      split_ifs at h
      exact h
    · exact h
  · exact h

lemma popFirst_empty : popFirst (∅ : StorageMap ℕ V) lifetime = ∅ := by
  rw [popFirst]
  simp [StorageMap.ascending_eq_sort]

end Selection

/-! ## What is noted -/

/-- What every round ended with, and the longest lifetime of the caches. -/
structure Annals (AccountId : Type) where
  selected : ℕ → Finset AccountId
  majority : ℕ → ℕ
  longest : ℕ

variable {AccountId R : Type} [LinearOrder AccountId]

/-- The state is noted. -/
def Annals.note (s : State AccountId R) (a : Annals AccountId) : Annals AccountId where
  selected := update a.selected s.now s.selection.selectedCandidates
  majority := update a.majority s.now s.selection.majority
  longest := max a.longest s.params.storageCacheLifetime

/-- **The caches are a window of what is noted**, up to the present round. -/
structure CachesKept (s : State AccountId R) (a : Annals AccountId) : Prop where
  selected : Recent a.selected s.now a.longest s.selection.cachedSelectedCandidates
  majority : Recent a.majority s.now a.longest s.selection.cachedMajority
  latestSelected : a.selected s.now = s.selection.selectedCandidates
  latestMajority : a.majority s.now = s.selection.majority
  lifetime : s.params.storageCacheLifetime ≤ a.longest

section Kept

variable {cfg : Config AccountId} {rm : RelayManager AccountId R} {s s' s₁ : State AccountId R}
  {a : Annals AccountId} {who : AccountId} {origin : Origin AccountId}

omit [LinearOrder AccountId] in
/-- Only the last note about a round counts. -/
lemma Annals.note_note (hnow : s'.now = s.now) (hparams : s'.params = s.params) :
    (a.note s).note s' = a.note s' := by
  simp only [Annals.note, hnow, hparams, update_idem, max_assoc, max_self]

namespace CachesKept

omit [LinearOrder AccountId] in
/-- The two caches are written in a round. -/
lemma noted
    (hselected : Recent (update a.selected s'.now s'.selection.selectedCandidates) s'.now
      (max a.longest s'.params.storageCacheLifetime) s'.selection.cachedSelectedCandidates)
    (hmajority : Recent (update a.majority s'.now s'.selection.majority) s'.now
      (max a.longest s'.params.storageCacheLifetime) s'.selection.cachedMajority) :
    CachesKept s' (a.note s') :=
  ⟨hselected, hmajority, update_self .., update_self .., le_max_right _ _⟩

omit [LinearOrder AccountId] in
/-- The caches are left alone. -/
lemma quiet (h : CachesKept s a) (hsel : s'.selection = s.selection) (hnow : s'.now = s.now) :
    CachesKept s' (a.note s') := by
  refine noted ?_ ?_
  · rw [hsel, hnow, ← h.latestSelected, update_eq_self]
    exact h.selected.mono (le_max_left _ _)
  · rw [hsel, hnow, ← h.latestMajority, update_eq_self]
    exact h.majority.mono (le_max_left _ _)

/-! ### The writes -/

/-- A controller change writes the caches of the round again. -/
lemma applyControllerSet {now : ℕ} {c : DelayedControllerSet AccountId} (h : CachesKept s a) :
    CachesKept (s.applyControllerSet rm now c) (a.note (s.applyControllerSet rm now c)) := by
  have hnow : (s.applyControllerSet rm now c).now = s.now := by
    rw [State.applyControllerSet]
    split <;> rfl
  cases hm : s.ledger.candidateInfo.get c.old with
  | none => exact h.quiet (by rw [State.applyControllerSet, hm]) hnow
  | some m =>
      have hsel : (s.applyControllerSet rm now c).selection = if m.isSelected then
          s.selection.replaceFromSelectedCandidates s.now c.old c.new m.tier else s.selection := by
        rw [State.applyControllerSet, hm]
      split_ifs at hsel with hselected
      · refine noted ?_ ?_
        · -- the selected set of the round is written again
          rw [hsel, hnow]
          refine Recent.mono ?_ (le_max_left _ _)
          have hrewrite := h.selected.rewrite
            (s.selection.replaceFromSelectedCandidates s.now c.old c.new m.tier).selectedCandidates
          simp only [Selection.replaceFromSelectedCandidates, Selection.addToSelectedCandidates,
            Selection.refreshLatestCachedSelectedCandidates] at hrewrite ⊢
          split_ifs at hrewrite ⊢
          · simpa only [Selection.remove_cachedSelected] using hrewrite
          · simpa only [Selection.remove_cachedSelected] using hrewrite
        · rw [hsel, hnow, (Selection.replace_majority ..).1, (Selection.replace_majority ..).2,
            ← h.latestMajority, update_eq_self]
          exact h.majority.mono (le_max_left _ _)
      · exact h.quiet hsel hnow

/-- So do the controller changes of a round, one after the other. -/
lemma applyControllerSets {now : ℕ} {cs : List (DelayedControllerSet AccountId)}
    (h : CachesKept s (a.note s)) :
    CachesKept (cs.foldl (State.applyControllerSet rm now) s)
      (a.note (cs.foldl (State.applyControllerSet rm now) s)) := by
  induction cs generalizing s with
  | nil => exact h
  | cons c cs ih =>
      refine ih ?_
      have hone : CachesKept (s.applyControllerSet rm now c)
          ((a.note s).note (s.applyControllerSet rm now c)) := h.applyControllerSet
      rw [Annals.note_note] at hone
      · exact hone
      · rw [State.applyControllerSet]
        split <;> rfl
      · rw [State.applyControllerSet]
        split <;> rfl

/-- `go_offline` writes the caches of the round again, or leaves them alone. -/
lemma goOffline (h : CachesKept s a) (hcall : s.goOffline rm who = .ok s') :
    CachesKept s' (a.note s') := by
  simp only [State.goOffline, Ledger.removeFromCandidatePool, bind_eq_ok, okOr_eq_ok, ensure_eq_ok,
    pure_eq_ok, exists_const] at hcall
  obtain ⟨m, -, -, ⟨⟩, -, rfl⟩ := hcall
  refine noted ?_ ?_
  · simp only [State.putCandidate, State.withLedger, Selection.remove_cachedSelected,
      Selection.remove_selected]
    exact (Selection.popFirst_rewrite h.selected _).mono (le_max_left _ _)
  · simp only [State.putCandidate, State.withLedger, Selection.remove_cachedMajority,
      Selection.remove_majority]
    exact (h.majority.rewrite _).mono (le_max_left _ _)

/-- An offender goes from the caches of the present round only. -/
lemma offend {slashSession : ℕ} {details : AccountId × Perbill} (h : CachesKept s a)
    (hoffend : s.offend cfg rm slashSession details = some s') : CachesKept s' (a.note s') := by
  cases State.offend_cases hoffend with
  | ignored _ => exact h.quiet rfl rfl
  | recorded _ _ _ => exact h.quiet rfl rfl
  | @punished m _ _ _ _ _ _ =>
      refine noted ?_ ?_
      · refine Recent.mono ?_ (le_max_left _ _)
        have hrewrite := h.selected.rewrite
          (s.selection.removeFromSelectedCandidates details.1 m.tier).selectedCandidates
        rw [← Selection.remove_cachedSelected s.selection details.1 m.tier] at hrewrite
        exact hrewrite
      · refine Recent.mono ?_ (le_max_left _ _)
        have hrewrite := h.majority.rewrite
          (s.selection.removeFromSelectedCandidates details.1 m.tier).computeMajority
        rw [← Selection.remove_cachedMajority s.selection details.1 m.tier] at hrewrite
        exact hrewrite

/-- `on_offence` keeps the caches, as each offender does. -/
lemma onOffence {offenders : List (AccountId × Perbill)} {slashSession : ℕ}
    (h : CachesKept s (a.note s)) (hstep : s.onOffence cfg rm offenders slashSession = some s') :
    CachesKept s' (a.note s') := by
  induction offenders generalizing s with
  | nil =>
      obtain rfl : s = s' := by simpa [State.onOffence] using hstep
      exact h
  | cons o offenders ih =>
      rw [State.onOffence, List.foldlM_cons] at hstep
      obtain ⟨s₁, h₁, hstep⟩ := Option.bind_eq_some_iff.mp hstep
      refine ih ?_ hstep
      have hone : CachesKept s₁ ((a.note s).note s₁) := h.offend h₁
      have hframe : s₁.now = s.now ∧ s₁.params = s.params := by
        cases State.offend_cases h₁ with
        | ignored _ => exact ⟨rfl, rfl⟩
        | recorded _ _ _ => exact ⟨rfl, rfl⟩
        | punished _ _ _ => exact ⟨rfl, rfl⟩
      rw [Annals.note_note hframe.1 hframe.2] at hone
      exact hone

/-- The selection of a new round, up to the controller changes. -/
lemma select {round : RoundInfo} {full basic : List AccountId} {count : ℕ} (h : CachesKept s a)
    (hround : round.currentRoundIndex = s.now + 1)
    (hselect : s.selectForRound cfg rm round full basic = some (count, s₁))
    (hs' : s' = (s₁.startRound rm round count).handleDelayedCommissionSets round.currentRoundIndex) :
    CachesKept s' (a.note s') := by
  subst hs'
  simp only [State.selectForRound, Option.bind_eq_bind, Option.bind_eq_some_iff, Option.pure_def,
    Option.some.injEq, Prod.exists, Prod.mk.injEq] at hselect
  obtain ⟨validators, nominations, stake, s₂, h₂, -, rfl⟩ := hselect
  obtain ⟨-, -, -, hsel⟩ := State.updateTopCandidates_marks h₂
  have hparams : s₂.params = s.params := by
    simp only [State.updateTopCandidates, Option.bind_eq_bind, Option.bind_eq_some_iff,
      Option.pure_def, Option.some.injEq, Prod.exists, Prod.mk.injEq] at h₂
    obtain ⟨c₁, c₂, c₃, t₁, ht₁, d₁, d₂, d₃, t₂, ht₂, -, rfl⟩ := h₂
    refine (State.collectValidatorSnapshot_staked ht₂).2.trans
      ((State.collectValidatorSnapshot_staked ht₁).2.trans ?_)
    rw [State.prepareStakingPayouts]
    split_ifs <;> rfl
  have hsame : ∀ {r : ℕ} {t : State AccountId R}, (t.prepareStakingPayouts cfg r).selection =
      t.selection := by
    intro r t
    rw [State.prepareStakingPayouts]
    split_ifs <;> rfl
  rw [hsame, hparams, hround] at hsel
  have hnow : ((s₂.startRound rm round count).handleDelayedCommissionSets
      round.currentRoundIndex).now = s.now + 1 := hround
  have hlife : ((s₂.startRound rm round count).handleDelayedCommissionSets
      round.currentRoundIndex).params = s.params := hparams
  refine noted ?_ ?_
  · rw [hnow, hlife]
    refine Recent.mono ?_ (le_max_left _ _)
    show Recent (update _ _ s₂.selection.selectedCandidates) _ _
      s₂.selection.cachedSelectedCandidates
    rw [hsel]
    exact Selection.popFirst_push h.selected h.lifetime _
  · rw [hnow, hlife]
    refine Recent.mono ?_ (le_max_left _ _)
    show Recent (update _ _ s₂.selection.computeMajority) _ _
      ((Selection.popFirst s₂.selection.cachedMajority s₂.params.storageCacheLifetime).insert
        round.currentRoundIndex s₂.selection.computeMajority)
    rw [hround, hparams]
    have hold : s₂.selection.cachedMajority = s.selection.cachedMajority := by
      rw [hsel]
      rfl
    rw [hold]
    exact Selection.popFirst_push h.majority h.lifetime _

/-- `new_session` adds the new round, if one begins. -/
lemma newSession {now newIndex : ℕ} {validators : List AccountId} {hasKeys : AccountId → Bool}
    {out : Option (List AccountId)} (h : CachesKept s a)
    (hstep : s.newSession cfg rm now newIndex validators hasKeys = some (out, s')) :
    CachesKept s' (a.note s') := by
  simp only [State.newSession, State.tryNewRound, Option.bind_eq_bind, Option.bind_eq_some_iff,
    Option.pure_def, Option.some.injEq, Prod.mk.injEq] at hstep
  obtain ⟨s₁, h₁, -, rfl⟩ := hstep
  split_ifs at h₁
  · simp only [State.newRound, Option.map_eq_some_iff, Prod.exists] at h₁
    obtain ⟨count, s₂, h₂, rfl⟩ := h₁
    let s₀ : State AccountId R := s.enterSession now newIndex validators
    let s₃ : State AccountId R := (s₂.startRound rm (s₀.round.updateRound s₀.session now)
      count).handleDelayedCommissionSets (s₀.now + 1)
    have henter : CachesKept s₀ a := ⟨h.selected, h.majority, h.latestSelected, h.latestMajority,
      h.lifetime⟩
    have hselect : CachesKept s₃ (a.note s₃) := henter.select rfl h₂ rfl
    let s₄ : State AccountId R :=
      { s₃ with delayedControllerSets := s₃.delayedControllerSets.remove (s₀.now + 1 - 1) }
    have hready : CachesKept s₄ (a.note s₄) := ⟨hselect.selected, hselect.majority,
      hselect.latestSelected, hselect.latestMajority, hselect.lifetime⟩
    have hround : CachesKept (s₂.enterRound rm (s₀.round.updateRound s₀.session now) count)
        (a.note (s₂.enterRound rm (s₀.round.updateRound s₀.session now) count)) :=
      hready.applyControllerSets
    exact ⟨hround.selected, hround.majority, hround.latestSelected, hround.latestMajority,
      hround.lifetime⟩
  · obtain rfl := Option.some.inj h₁
    exact h.quiet rfl rfl

end CachesKept

/-! ### Every step -/

/-- Only `go_offline` touches the caches, of the calls. -/
lemma State.dispatch_selection {call : Call AccountId} (hcall : call ≠ .goOffline)
    (h : s.dispatch cfg rm origin call = .ok s') : s'.selection = s.selection ∧ s'.now = s.now := by
  have hsigned := State.signed_of_dispatch h
  cases call with
  | joinCandidates controller relayer bond count =>
      obtain ⟨who, -, hjoin⟩ := hsigned rfl
      obtain ⟨tier, -, -, -, hsel, hnow⟩ := State.joinCandidates_joins hjoin
      exact ⟨hsel, hnow⟩
  | executeLeaveCandidates count =>
      obtain ⟨who, -, hleave⟩ := hsigned rfl
      simp only [State.signed, State.executeLeaveCandidates, bind_eq_ok, ensure_eq_ok, pure_eq_ok,
        exists_const, Prod.exists] at hleave
      obtain ⟨-, -, -, -, -, -, l, -, rfl⟩ := hleave
      exact ⟨rfl, rfl⟩
  | setValidatorTier more new relayer =>
      obtain ⟨who, -, htier⟩ := hsigned rfl
      obtain ⟨-, -, -, -, -, -, -, -, hsel, hnow⟩ := State.setValidatorTier_rewrites htier
      exact ⟨hsel, hnow⟩
  | scheduleLeaveCandidates count =>
      obtain ⟨who, -, hleave⟩ := hsigned rfl
      simp only [State.signed, State.scheduleLeaveCandidates, bind_eq_ok, ensure_eq_ok, pure_eq_ok,
        exists_const] at hleave
      obtain ⟨-, -, -, -, -, -, -, m, -, rfl⟩ := hleave
      exact ⟨rfl, rfl⟩
  | cancelLeaveCandidates count =>
      obtain ⟨who, -, hleave⟩ := hsigned rfl
      simp only [State.signed, State.cancelLeaveCandidates, bind_eq_ok, ensure_eq_ok, pure_eq_ok,
        exists_const] at hleave
      obtain ⟨-, -, -, -, l, -, rfl⟩ := hleave
      exact ⟨rfl, rfl⟩
  | goOnline =>
      obtain ⟨who, -, honline⟩ := hsigned rfl
      simp only [State.signed, State.goOnline, bind_eq_ok, ensure_eq_ok, pure_eq_ok,
        exists_const] at honline
      obtain ⟨-, -, -, -, l, -, rfl⟩ := honline
      exact ⟨rfl, rfl⟩
  | goOffline => exact absurd rfl hcall
  | _ =>
      have hroutine := State.dispatch_routine rfl h
      exact ⟨hroutine.selection, hroutine.now⟩

/-- **Step lemma.**  After a step the caches are a window of what has been noted with the new state. -/
lemma CachesKept.step {i : Step AccountId R} (h : CachesKept s a)
    (hstep : s.step cfg rm i = some s') : CachesKept s' (a.note s') := by
  cases i with
  | call origin call =>
      obtain rfl := Option.some.inj hstep
      refine commit_induction (P := fun t : State AccountId R => CachesKept t (a.note t))
        (h.quiet rfl rfl) fun t ht => ?_
      by_cases hcall : call = .goOffline
      · subst hcall
        obtain ⟨who, -, hoffline⟩ := State.signed_of_dispatch ht rfl
        exact h.goOffline hoffline
      · obtain ⟨hsel, hnow⟩ := State.dispatch_selection hcall ht
        exact h.quiet hsel hnow
  | newSession now newIndex validators hasKeys =>
      obtain ⟨⟨out, s₁⟩, h₁, rfl⟩ := Option.map_eq_some_iff.mp hstep
      exact h.newSession h₁
  | onOffence offenders slashSession =>
      have hself : CachesKept s (a.note s) := h.quiet rfl rfl
      exact hself.onOffence hstep
  | onInitialize n drained =>
      obtain ⟨⟨paid, s₁⟩, h₁, rfl⟩ := Option.map_eq_some_iff.mp hstep
      rcases State.onInitialize_cases h₁ with ⟨snapshot, -, hpay⟩
      cases hpay with
      | idle => exact h.quiet rfl rfl
      | closed => exact h.quiet rfl rfl
      | lost => exact h.quiet rfl rfl
      | paid _ _ _ _ => exact h.quiet rfl rfl
  | noteAuthor author =>
      obtain rfl := Option.some.inj hstep
      exact h.quiet rfl rfl
  | endSession =>
      obtain rfl := Option.some.inj hstep
      exact h.quiet rfl rfl
  | balances free others =>
      obtain rfl := Option.some.inj hstep
      exact h.quiet rfl rfl
  | relay state =>
      obtain rfl := Option.some.inj hstep
      exact h.quiet rfl rfl
  | offenceSettings isOffenceActive isSlashActive expiration full basic =>
      obtain rfl := Option.some.inj hstep
      exact h.quiet rfl rfl

end Kept

/-! ## Runs -/

/-- The annals when the first round begins. -/
def Annals.opened (s : State AccountId R) : Annals AccountId :=
  Annals.note s ⟨fun _ => ∅, fun _ => 0, 1⟩

/-- The watched runs: every state is noted. -/
def RoundsWatched (cfg : Config AccountId) (rm : RelayManager AccountId R)
    (x : State AccountId R × Annals AccountId) : Prop :=
  Reachable (fun x => IsGenesis cfg rm x.1 ∧ x.2 = Annals.opened x.1)
    (watched (State.step cfg rm) fun _ _ s' a => a.note s') anyStep x

section Runs

variable {cfg : Config AccountId} {rm : RelayManager AccountId R} {s : State AccountId R}
  {x : State AccountId R × Annals AccountId}

/-- **Genesis.**  The caches hold the first round only. -/
lemma IsGenesis.cachesKept (h : IsGenesis cfg rm s) : CachesKept s (Annals.opened s) := by
  obtain ⟨g, hg⟩ := h
  simp only [GenesisConfig.build, Option.bind_eq_bind, Option.bind_eq_some_iff, Option.pure_def,
    Option.some.injEq, Prod.exists] at hg
  obtain ⟨s₁, h₁, s₂, h₂, validators, nominations, stake, s₃, h₃, rfl⟩ := hg
  obtain ⟨-, -, -, hsel⟩ := State.updateTopCandidates_marks h₃
  have hblank : s₂.selection.cachedSelectedCandidates = ∅ := by
    have hjoined : s₁.selection.cachedSelectedCandidates = ∅ := by
      refine GenesisConfig.joinAll_invariant
        (P := fun t : State AccountId R => t.selection.cachedSelectedCandidates = ∅)
        (fun t _ _ _ _ _ t' ht hjoin => ?_) h₁ rfl
      obtain ⟨tier, -, -, -, hsame, -⟩ := State.joinCandidates_joins hjoin
      rw [hsame]
      exact ht
    exact GenesisConfig.nominateAll_invariant
      (P := fun t : State AccountId R => t.selection.cachedSelectedCandidates = ∅)
      (fun _ _ _ _ _ _ _ ht _ => ht) h₂ hjoined
  refine CachesKept.noted ?_ ?_
  · rw [hsel]
    show Recent _ 1 (max 1 _) ((Selection.popFirst s₂.selection.cachedSelectedCandidates _).insert 1 _)
    rw [hblank, Selection.popFirst_empty]
    exact .single _ (update_self ..) (lt_max_of_lt_left Nat.one_pos)
  · exact .single _ (update_self ..) (lt_max_of_lt_left Nat.one_pos)

/-- **The cached rounds are what happened.**  In every watched run both caches hold an unbroken sequence
of rounds that ends with the present one, under each of them what that round ended with, and at most as
many as the longest lifetime that was ever set. -/
theorem cached_rounds (h : RoundsWatched cfg rm x) :
    Recent x.2.selected x.1.now x.2.longest x.1.selection.cachedSelectedCandidates ∧
      Recent x.2.majority x.1.now x.2.longest x.1.selection.cachedMajority ∧
      x.2.selected x.1.now = x.1.selection.selectedCandidates ∧
      x.2.majority x.1.now = x.1.selection.majority := by
  have hkept : CachesKept x.1 x.2 := by
    refine Reachable.invariant
      (P := fun x : State AccountId R × Annals AccountId => CachesKept x.1 x.2)
      (fun y hy => ?_) (fun y i y' hy _ hstep => ?_) h
    · rw [hy.2]
      exact hy.1.cachesKept
    · obtain ⟨hs, hnote⟩ := watched_eq_some hstep
      rw [hnote]
      exact hy.step hs
  exact ⟨hkept.selected, hkept.majority, hkept.latestSelected, hkept.latestMajority⟩

/-- A validator goes offline in the first round.  In the second one the cache tells who was left. -/
theorem cached_rounds_devnet : ∃ x : State ℕ Unit × Annals ℕ, RoundsWatched devnet devnetRelays x ∧
    x.1.now = 2 ∧ x.1.selection.cachedSelectedCandidates.get 1 = some (x.2.selected 1) ∧
    x.2.selected 1 = {12} := by
  have hrun : (devnetGenesis.build devnet devnetRelays).any (fun s =>
      (runSteps (watched (State.step devnet devnetRelays) fun _ _ s' a => a.note s')
        (s, Annals.opened s) [.call (.signed 2) .goOffline,
          .newSession 20 2 [] fun _ => true]).any fun x =>
        decide (x.1.now = 2 ∧ x.2.selected 1 = {12}) &&
          (x.1.selection.cachedSelectedCandidates.get 1).isSome) = true := by decide
  obtain ⟨s, hs, hP⟩ := (Option.any_eq_true _ _).mp hrun
  obtain ⟨x, hx, hP⟩ := (Option.any_eq_true _ _).mp hP
  rw [Bool.and_eq_true, decide_eq_true_eq] at hP
  obtain ⟨⟨hnow, hselected⟩, hsome⟩ := hP
  have hwatched : RoundsWatched devnet devnetRelays x := .runSteps (.init ⟨⟨devnetGenesis, hs⟩, rfl⟩) hx
  obtain ⟨v, hv⟩ := Option.isSome_iff_exists.mp hsome
  obtain ⟨-, rfl⟩ := (cached_rounds hwatched).1.get_eq hv
  exact ⟨x, hwatched, hnow, hv, hselected⟩

end Runs

end BifrostNode.Staking
