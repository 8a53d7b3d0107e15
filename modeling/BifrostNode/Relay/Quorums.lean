import BifrostNode.Lib.Ballots
import BifrostNode.Relay.Archive

/-!
# What contracts are told about past rounds

Contracts check signatures of relayers against the precompile of the relay manager: whether a list of
addresses was selected in a round, and how many of them are a majority of that round.

**Answers stand.**  Once a round is over, the precompile says the same about it for as long as it says
anything.  About the relayers that a round began with it says the same from the beginning.
**Quorums meet.**  So two lists that are accepted as a majority of one round, at whatever times, share a
relayer.
-/

namespace BifrostNode.Relay

open Staking Transition
open StorageMap (Forgets)

variable {AccountId Q : Type} [LinearOrder AccountId]

/-! ## The precompile -/

/-- Why a call of the precompile is reverted. -/
inductive Revert
  | custom (text : String)
  | readOutOfBounds (what : String)
  deriving DecidableEq

namespace Precompile

variable (s : Relayers AccountId Q)

/-- The addresses without order, unless one is there twice. -/
def uniqueRelayers (relayers : List AccountId) : Except Revert (Finset AccountId) := do
  ensure (relayers.toFinset.card = relayers.length) (.custom "Duplicate relayer address received")
  return relayers.toFinset

/-- `dedup_sort_validate`. -/
def dedupSortValidate (relayers : List AccountId) (isComplete : Bool) (validate : AccountId → Bool) :
    Except Revert Bool := do
  let unique ← uniqueRelayers relayers
  if isComplete ∧ s.selectedRelayers.card ≠ unique.card then return false
  return decide (∀ relayer ∈ unique, validate relayer)

/-- `is_relayers`. -/
def isRelayers (relayers : List AccountId) : Except Revert Bool :=
  dedupSortValidate s relayers false s.isRelayer

/-- `is_selected_relayers`. -/
def isSelectedRelayers (relayers : List AccountId) (isInitial : Bool) : Except Revert Bool :=
  dedupSortValidate s relayers false (s.isSelectedRelayer · isInitial)

/-- `is_complete_selected_relayers`.  The number is compared with that of the relayers that are left. -/
def isCompleteSelectedRelayers (relayers : List AccountId) (isInitial : Bool) : Except Revert Bool :=
  dedupSortValidate s relayers true (s.isSelectedRelayer · isInitial)

/-- `get_previous_selected_relayers`. -/
def getPreviousSelectedRelayers (roundIndex : ℕ) (isInitial : Bool) :
    Except Revert (Finset AccountId) :=
  okOr ((if isInitial then s.cachedInitialSelectedRelayers else s.cachedSelectedRelayers).get roundIndex)
    (.readOutOfBounds "round_index")

/-- `is_previous_selected_relayer`. -/
def isPreviousSelectedRelayer (roundIndex : ℕ) (relayer : AccountId) (isInitial : Bool) :
    Except Revert Bool := do
  let previous ← getPreviousSelectedRelayers s roundIndex isInitial
  return decide (relayer ∈ previous)

/-- `is_previous_selected_relayers`. -/
def isPreviousSelectedRelayers (roundIndex : ℕ) (relayers : List AccountId) (isInitial : Bool) :
    Except Revert Bool := do
  let _ ← uniqueRelayers relayers
  let previous ← getPreviousSelectedRelayers s roundIndex isInitial
  if previous = ∅ then return false
  return decide (∀ relayer ∈ relayers, relayer ∈ previous)

/-- `previous_selected_relayers`. -/
def previousSelectedRelayers (roundIndex : ℕ) (isInitial : Bool) : Except Revert (List AccountId) := do
  let previous ← getPreviousSelectedRelayers s roundIndex isInitial
  return StorageMap.ascending previous

/-- `majority`. -/
def majority (isInitial : Bool) : ℕ := if isInitial then s.initialMajority else s.majority

/-- `previous_majority`. -/
def previousMajority (roundIndex : ℕ) (isInitial : Bool) : Except Revert ℕ :=
  okOr ((if isInitial then s.cachedInitialMajority else s.cachedMajority).get roundIndex)
    (.readOutOfBounds "round_index")

section Answers

variable {s} {s' : Relayers AccountId Q} {relayers : List AccountId} {roundIndex : ℕ} {isInitial : Bool}

omit [LinearOrder AccountId] in
lemma toFinset_card_eq_length [DecidableEq AccountId] :
    relayers.toFinset.card = relayers.length ↔ relayers.Nodup := by
  have h := Multiset.toFinset_card_eq_card_iff_nodup (m := (relayers : Multiset AccountId))
  rwa [Multiset.coe_card, Multiset.coe_nodup] at h

lemma uniqueRelayers_eq_ok {set : Finset AccountId} :
    uniqueRelayers relayers = .ok set ↔ relayers.Nodup ∧ relayers.toFinset = set := by
  simp only [uniqueRelayers, bind_eq_ok, ensure_eq_ok, pure_eq_ok, exists_const,
    toFinset_card_eq_length]

/-- The list was selected in the round. -/
lemma isPreviousSelectedRelayers_eq_ok {b : Bool} :
    isPreviousSelectedRelayers s roundIndex relayers isInitial = .ok b ↔
      relayers.Nodup ∧ ∃ set, getPreviousSelectedRelayers s roundIndex isInitial = .ok set ∧
        b = decide (set ≠ ∅ ∧ relayers.toFinset ⊆ set) := by
  have hsub : ∀ set : Finset AccountId, relayers.toFinset ⊆ set ↔ ∀ a ∈ relayers, a ∈ set := by
    intro set
    simp only [Finset.subset_iff, List.mem_toFinset]
  simp only [isPreviousSelectedRelayers, bind_eq_ok, uniqueRelayers_eq_ok, hsub]
  constructor
  · rintro ⟨_, ⟨hnodup, -⟩, set, hset, h⟩
    refine ⟨hnodup, set, hset, ?_⟩
    split_ifs at h with hempty
    · rw [pure_eq_ok] at h
      simp [← h, hempty]
    · rw [pure_eq_ok] at h
      rw [← h]
      simp [hempty]
  · rintro ⟨hnodup, set, hset, rfl⟩
    refine ⟨_, ⟨hnodup, rfl⟩, set, hset, ?_⟩
    split_ifs with hempty
    · simp [hempty]
    · simp [hempty]

end Answers

end Precompile

/-! ## Later answers -/

/-- The archive is at most forgotten, but for the present round. -/
structure Remembers (s s' : Relayers AccountId Q) : Prop where
  round : s.round ≤ s'.round
  selected : Forgets s.round s.cachedSelectedRelayers s'.cachedSelectedRelayers
  majority : Forgets s.round s.cachedMajority s'.cachedMajority
  initial : Forgets (s.round + 1) s.cachedInitialSelectedRelayers s'.cachedInitialSelectedRelayers
  initialMajority : Forgets (s.round + 1) s.cachedInitialMajority s'.cachedInitialMajority

namespace Remembers

variable {s s' s₁ : Relayers AccountId Q}

omit [LinearOrder AccountId] in
lemma trans (h₁ : Remembers s s₁) (h₂ : Remembers s₁ s') : Remembers s s' where
  round := h₁.round.trans h₂.round
  selected := h₁.selected.trans h₂.selected h₁.round
  majority := h₁.majority.trans h₂.majority h₁.round
  initial := h₁.initial.trans h₂.initial (Nat.succ_le_succ h₁.round)
  initialMajority := h₁.initialMajority.trans h₂.initialMajority (Nat.succ_le_succ h₁.round)

omit [LinearOrder AccountId] in
lemma of_same (h : s.SameArchive s') : Remembers s s' := by
  constructor
  · exact h.round.ge
  · rw [h.selected]
    exact .refl _ _
  · rw [h.majority]
    exact .refl _ _
  · rw [h.initial]
    exact .refl _ _
  · rw [h.initialMajority]
    exact .refl _ _

omit [LinearOrder AccountId] in
lemma refl (s : Relayers AccountId Q) : Remembers s s := .of_same (.refl s)

/-- **`kickout_relayer`** is about the present round. -/
lemma kickoutRelayer (s : Relayers AccountId Q) (controller : AccountId) :
    Remembers s (s.kickoutRelayer controller) := by
  rw [Relayers.kickoutRelayer]
  cases hc : s.bondedController.get controller with
  | none => exact .refl s
  | some relayer =>
      obtain ⟨m, hframe⟩ := Relayers.modifyRelayer_frame s relayer .kickOut
      simp only [hframe]
      split_ifs
      · exact ⟨le_rfl, .insert _ _ le_rfl _, .insert _ _ le_rfl _, .refl _ _, .refl _ _⟩
      · exact .of_same ⟨rfl, rfl, rfl, rfl, rfl, rfl, rfl, rfl⟩

/-- **A round begins**, and is written. -/
lemma enter (s : Relayers AccountId Q) (replaceAuthority : Q → AccountId → AccountId → Q)
    (full : List AccountId) :
    Remembers s ((((s.refreshRound (s.round + 1)).handleDelayedRelayerSets replaceAuthority
      (s.round + 1)).refreshSelectedRelayers (s.round + 1) full).refreshMajority (s.round + 1)) := by
  let s₁ : Relayers AccountId Q :=
    (s.refreshRound (s.round + 1)).handleDelayedRelayerSets replaceAuthority (s.round + 1)
  have hrew : Relayers.Rewritten (s.refreshRound (s.round + 1)) s₁ := .handleDelayedRelayerSets _ _ _
  have hsame : Relayers.SameArchive s₁ (s₁.refreshRelayerPool.selectRelayers full).2 :=
    .selecting s₁ full
  have hround : (s₁.refreshRelayerPool.selectRelayers full).2.round = s.round + 1 :=
    hsame.round.trans hrew.round
  have hselected : (s₁.refreshRelayerPool.selectRelayers full).2.cachedSelectedRelayers =
      s.cachedSelectedRelayers ∨ ∃ w,
        (s₁.refreshRelayerPool.selectRelayers full).2.cachedSelectedRelayers =
          s.cachedSelectedRelayers.insert (s.round + 1) w := by
    rw [hsame.selected]
    exact hrew.selected
  have hpast : ∀ {V : Type} {m m' : StorageMap ℕ V} {lifetime stop : ℕ} (v : V),
      (m' = m ∨ ∃ w, m' = m.insert (s.round + 1) w) → stop ≤ s.round + 1 →
      Forgets stop m ((Selection.popFirst m' lifetime).insert (s.round + 1) v) := by
    intro V m m' lifetime stop v hm' hstop k hk w hw
    rw [StorageMap.get_insert_of_ne _ (by omega)] at hw
    exact Relayers.get_of_rewritten hm' (by omega) hw
  constructor
  · exact (Nat.le_succ _).trans hround.ge
  · exact hpast _ hselected (Nat.le_succ _)
  · exact hpast _ (Or.inl (hsame.majority.trans hrew.majority)) (Nat.le_succ _)
  · exact hpast _ (Or.inl (hsame.initial.trans hrew.initial)) le_rfl
  · exact hpast _ (Or.inl (hsame.initialMajority.trans hrew.initialMajority)) le_rfl

end Remembers

section Network

variable {cfg : Config AccountId} {replaceAuthority : Q → AccountId → AccountId → Q}
  {s s' : State AccountId (Option (Relayers AccountId Q))}
  {leave : State AccountId (Relayers AccountId Q) → AccountId → Prop}
  {t t' : State AccountId (Relayers AccountId Q)} {r r' : Relayers AccountId Q}

/-- **What staking asks for** leaves the past alone. -/
lemma Shift.remembers (hround : t.relay.round = t.now)
    (h : Shift (Relayers.manager replaceAuthority) leave t t') : Remembers t.relay t'.relay := by
  cases h with
  | idle _ hrelay => exact hrelay ▸ .refl _
  | joined c relayer _ _ hrelay =>
      rcases Relayers.manager_joined hrelay with hsame | ⟨x, -, hjoin⟩
      · exact hsame ▸ .refl _
      · obtain ⟨-, -, -, -, heq⟩ := Relayers.joinRelayers_ok hjoin
        rw [heq]
        exact .of_same ⟨rfl, rfl, rfl, rfl, rfl, rfl, rfl, rfl⟩
  | left c _ _ _ _ hrelay => exact hrelay ▸ .of_same (.leaveRelayers t.relay c)
  | dropped c _ _ hrelay _ =>
      rw [hrelay]
      split_ifs
      · exact .kickoutRelayer t.relay c
      · exact .refl _
  | heartbeats _ hrelay => exact hrelay ▸ .of_same (.collectHeartbeats t.relay)
  | chosen full _ _ _ hnow hrelay =>
      rw [hnow, ← hround] at hrelay
      exact hrelay ▸ .enter t.relay replaceAuthority full
  | @renamed old new tier _ _ _ _ hrelay _ =>
      rw [hrelay]
      split_ifs
      · exact .of_same (.replaceBondedController t.relay old new)
      · exact .refl _

/-- **A run** from a state that was reached. -/
lemma NetworkIf.remembers (h : NetworkIf cfg replaceAuthority anyStep s) (hr : s.relay = some r)
    (hrun : Reachable (fun t => t = s) (networkStep cfg replaceAuthority) anyStep s') :
    NetworkIf cfg replaceAuthority anyStep s' ∧ ∃ r', s'.relay = some r' ∧ Remembers r r' := by
  refine Reachable.invariant (P := fun t => NetworkIf cfg replaceAuthority anyStep t ∧
    ∃ r', t.relay = some r' ∧ Remembers r r') ?_ ?_ hrun
  · rintro t rfl
    exact ⟨h, r, hr, .refl r⟩
  · rintro t i t' ⟨hreach, r₁, hr₁, hpast⟩ hi hstep
    obtain ⟨r₂, htied, hround⟩ := hreach.tied
    obtain rfl := Option.some.inj (hr₁.symm.trans htied.relay)
    exact ⟨.step hreach hi hstep, networkStep_keeps (fun ht hact => ht.trans (.of_same (.act hact)))
      (fun ht _ hround hshift => ht.trans (Shift.remembers hround hshift)) hreach.staking.inv hstep htied
      hround hpast⟩

/-! ## Quorums -/

/-- The list is accepted as a majority of the round. -/
def Quorum (r : Relayers AccountId Q) (roundIndex : ℕ) (isInitial : Bool) (relayers : List AccountId) :
    Prop :=
  Precompile.isPreviousSelectedRelayers r roundIndex relayers isInitial = .ok true ∧
    ∃ n, Precompile.previousMajority r roundIndex isInitial = .ok n ∧ n ≤ relayers.length

/-- The answers about a round are what they were. -/
structure SameAnswers (r r' : Relayers AccountId Q) (roundIndex : ℕ) (isInitial : Bool) : Prop where
  selected : ∀ set, Precompile.getPreviousSelectedRelayers r' roundIndex isInitial = .ok set →
    Precompile.getPreviousSelectedRelayers r roundIndex isInitial = .ok set
  majority : ∀ n, Precompile.previousMajority r' roundIndex isInitial = .ok n →
    Precompile.previousMajority r roundIndex isInitial = .ok n

omit [LinearOrder AccountId] in
lemma Remembers.sameAnswers {roundIndex : ℕ} {isInitial : Bool} (h : Remembers r r')
    (hpast : roundIndex < r.round ∨ isInitial = true ∧ roundIndex ≤ r.round) :
    SameAnswers r r' roundIndex isInitial := by
  cases isInitial with
  | true =>
      have hlt : roundIndex < r.round + 1 := by omega
      exact ⟨fun set hset => okOr_eq_ok.mpr (h.initial _ hlt _ (okOr_eq_ok.mp hset)),
        fun n hn => okOr_eq_ok.mpr (h.initialMajority _ hlt _ (okOr_eq_ok.mp hn))⟩
  | false =>
      have hlt : roundIndex < r.round := by simpa using hpast
      exact ⟨fun set hset => okOr_eq_ok.mpr (h.selected _ hlt _ (okOr_eq_ok.mp hset)),
        fun n hn => okOr_eq_ok.mpr (h.majority _ hlt _ (okOr_eq_ok.mp hn))⟩

omit [LinearOrder AccountId] in
/-- A majority is that of the relayers. -/
lemma Relayers.Archived.quorum {roundIndex : ℕ} {isInitial : Bool} (h : r.Archived)
    {set : Finset AccountId} {n : ℕ}
    (hset : Precompile.getPreviousSelectedRelayers r roundIndex isInitial = .ok set)
    (hn : Precompile.previousMajority r roundIndex isInitial = .ok n) : n = set.card / 2 + 1 := by
  cases isInitial with
  | true => exact h.initialMajorities roundIndex set n (okOr_eq_ok.mp hset) (okOr_eq_ok.mp hn)
  | false => exact h.majorities roundIndex set n (okOr_eq_ok.mp hset) (okOr_eq_ok.mp hn)

/-- **Quorums meet.**  In every run of the network, what the precompile says about a round that is over,
or about the relayers that a round began with, it has said since, and two lists that are accepted as
majorities of such a round, at whatever times, share a relayer. -/
theorem quorums_meet {roundIndex : ℕ} {isInitial : Bool}
    (h : NetworkIf cfg replaceAuthority anyStep s) (hr : s.relay = some r)
    (hpast : roundIndex < r.round ∨ isInitial = true ∧ roundIndex ≤ r.round)
    (hrun : Reachable (fun t => t = s) (networkStep cfg replaceAuthority) anyStep s') :
    ∃ r', s'.relay = some r' ∧
      (∀ relayers b, Precompile.isPreviousSelectedRelayers r' roundIndex relayers isInitial = .ok b →
        Precompile.isPreviousSelectedRelayers r roundIndex relayers isInitial = .ok b) ∧
      (∀ n, Precompile.previousMajority r' roundIndex isInitial = .ok n →
        Precompile.previousMajority r roundIndex isInitial = .ok n) ∧
      ∀ relayers relayers', Quorum r roundIndex isInitial relayers →
        Quorum r' roundIndex isInitial relayers' → ∃ a ∈ relayers, a ∈ relayers' := by
  obtain ⟨-, r', hr', hremembers⟩ := h.remembers hr hrun
  have hsame := hremembers.sameAnswers hpast
  obtain ⟨r₁, hr₁, -, harchived⟩ := h.archived
  obtain rfl := Option.some.inj (hr.symm.trans hr₁)
  refine ⟨r', hr', fun relayers b hb => ?_, hsame.majority, ?_⟩
  · obtain ⟨hnodup, set, hset, rfl⟩ := Precompile.isPreviousSelectedRelayers_eq_ok.mp hb
    exact Precompile.isPreviousSelectedRelayers_eq_ok.mpr ⟨hnodup, set, hsame.selected set hset, rfl⟩
  · rintro relayers relayers' ⟨haccepted, n, hn, hlen⟩ ⟨haccepted', n', hn', hlen'⟩
    obtain ⟨hnodup, set, hset, hsub⟩ := Precompile.isPreviousSelectedRelayers_eq_ok.mp haccepted
    obtain ⟨hnodup', set', hset', hsub'⟩ := Precompile.isPreviousSelectedRelayers_eq_ok.mp haccepted'
    obtain rfl : set = set' := Except.ok.inj (hset.symm.trans (hsame.selected set' hset'))
    obtain rfl : n = n' := Except.ok.inj (hn.symm.trans (hsame.majority n' hn'))
    have hmajority := harchived.quorum hset hn
    have hsub : relayers.toFinset ⊆ set := (of_decide_eq_true hsub.symm).2
    have hsub' : relayers'.toFinset ⊆ set := (of_decide_eq_true hsub'.symm).2
    exact Ballots.majorities_meet hnodup hnodup' hsub hsub' (hmajority ▸ hlen) (hmajority ▸ hlen')

/-- One of the two first relayers is kicked out.  Contracts are told of both in the next round as well. -/
theorem quorums_meet_devnet : ∃ (s s' : State ℕ (Option (Relayers ℕ Unit))) (r r' : Relayers ℕ Unit),
    NetworkIf devnet bridgeless anyStep s ∧ s.relay = some r ∧ s'.relay = some r' ∧
    r.round = 1 ∧ r'.round = 2 ∧ r.selectedRelayers = {13} ∧ Quorum r 1 true [3, 13] ∧
    Quorum r' 1 true [13, 3] ∧ ∃ a ∈ [3, 13], a ∈ [13, 3] := by
  have hrun : ((networkGenesis.build devnet (Strict.manager bridgeless)).bind fun s =>
      runSteps (checked (networkStep devnet bridgeless) anyStep) s
        [.call (.signed 2) .goOffline]).any (fun s =>
        (s.relay.any fun r => decide (r.round = 1 ∧ r.selectedRelayers = {13} ∧
          Precompile.isPreviousSelectedRelayers r 1 [3, 13] true = .ok true ∧
          Precompile.previousMajority r 1 true = .ok 2)) &&
        (networkStep devnet bridgeless s (.newSession 20 2 [] fun _ => true)).any fun s' =>
          s'.relay.any fun r' => decide (r'.round = 2 ∧
            Precompile.isPreviousSelectedRelayers r' 1 [13, 3] true = .ok true ∧
            Precompile.previousMajority r' 1 true = .ok 2)) = true := by decide
  obtain ⟨s, hs, hP⟩ := networkRun_exists hrun
  rw [Bool.and_eq_true, Option.any_eq_true, Option.any_eq_true] at hP
  obtain ⟨⟨r, hr, hnow⟩, s', hstep, hP⟩ := hP
  obtain ⟨r₁, hr₁, hlater⟩ := (Option.any_eq_true _ _).mp hP
  obtain ⟨hround, hselected, haccepted, hmajority⟩ := of_decide_eq_true hnow
  obtain ⟨hround', haccepted', hmajority'⟩ := of_decide_eq_true hlater
  have hreach : Reachable (fun t => t = s) (networkStep devnet bridgeless) anyStep s' :=
    .step (.init rfl) trivial hstep
  obtain ⟨r', hr', -, -, hmeet⟩ := quorums_meet hs hr
    (.inr ⟨rfl, hround.ge⟩ : 1 < r.round ∨ true = true ∧ 1 ≤ r.round) hreach
  obtain rfl := Option.some.inj (hr'.symm.trans hr₁)
  have hquorum : Quorum r 1 true [3, 13] := ⟨haccepted, 2, hmajority, le_rfl⟩
  have hquorum' : Quorum r' 1 true [13, 3] := ⟨haccepted', 2, hmajority', le_rfl⟩
  exact ⟨s, s', r, r', hs, hr, hr', hround, hround', hselected, hquorum, hquorum',
    hmeet _ _ hquorum hquorum'⟩

end Network

end BifrostNode.Relay
