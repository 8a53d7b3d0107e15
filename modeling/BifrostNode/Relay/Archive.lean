import BifrostNode.Relay.Authorities
import BifrostNode.Staking.Caches

/-!
# What the relay manager remembers

The relay manager caches four things for the past rounds: the relayers that were selected and their
majority, each as the round began and as it went on.  They are forgotten one by one and written in
several places, so the rounds that one of them remembers need not be those that another one does.

**Without gaps.**  Each cache holds an unbroken sequence of rounds that ends with the present one.
**In agreement.**  For a round that two caches remember, a majority is that of the relayers, and the
relayers are among those that the round began with.
-/

namespace BifrostNode.Relay

open Staking Transition
open StorageMap (Recent Unbroken Agree)

variable {AccountId Q : Type} [LinearOrder AccountId]

/-! ## Caches -/

namespace Relayers

/-- The number is the majority of the set. -/
def MajorityOf (set : Finset AccountId) (n : ℕ) : Prop := n = set.card / 2 + 1

/-- **The archive is in order**: no round is missing, the latest entries are current, and the caches match. -/
structure Archived (s : Relayers AccountId Q) : Prop where
  selected : Unbroken s.round s.cachedSelectedRelayers
  initial : Unbroken s.round s.cachedInitialSelectedRelayers
  majority : Unbroken s.round s.cachedMajority
  initialMajority : Unbroken s.round s.cachedInitialMajority
  latestInitial : s.cachedInitialSelectedRelayers.get s.round = some s.initialSelectedRelayers
  latestMajority : s.cachedInitialMajority.get s.round = some s.initialMajority
  below : s.selectedRelayers ⊆ s.initialSelectedRelayers
  majorities : Agree MajorityOf s.cachedSelectedRelayers s.cachedMajority
  initialMajorities : Agree MajorityOf s.cachedInitialSelectedRelayers s.cachedInitialMajority
  among : Agree (· ⊆ ·) s.cachedSelectedRelayers s.cachedInitialSelectedRelayers

/-- Nothing of the archive changes. -/
structure SameArchive (s s' : Relayers AccountId Q) : Prop where
  round : s'.round = s.round
  selectedNow : s'.selectedRelayers = s.selectedRelayers
  initialNow : s'.initialSelectedRelayers = s.initialSelectedRelayers
  initialMajorityNow : s'.initialMajority = s.initialMajority
  selected : s'.cachedSelectedRelayers = s.cachedSelectedRelayers
  initial : s'.cachedInitialSelectedRelayers = s.cachedInitialSelectedRelayers
  majority : s'.cachedMajority = s.cachedMajority
  initialMajority : s'.cachedInitialMajority = s.cachedInitialMajority

section Same

variable {s s' s₁ : Relayers AccountId Q} {relayer controller old new : AccountId}

namespace SameArchive

omit [LinearOrder AccountId] in
lemma refl (s : Relayers AccountId Q) : SameArchive s s := ⟨rfl, rfl, rfl, rfl, rfl, rfl, rfl, rfl⟩

omit [LinearOrder AccountId] in
lemma trans (h₁ : SameArchive s s₁) (h₂ : SameArchive s₁ s') : SameArchive s s' :=
  ⟨h₂.round.trans h₁.round, h₂.selectedNow.trans h₁.selectedNow, h₂.initialNow.trans h₁.initialNow,
    h₂.initialMajorityNow.trans h₁.initialMajorityNow, h₂.selected.trans h₁.selected,
    h₂.initial.trans h₁.initial, h₂.majority.trans h₁.majority,
    h₂.initialMajority.trans h₁.initialMajority⟩

lemma modifyRelayer (s : Relayers AccountId Q) (relayer : AccountId)
    (f : RelayerMetadata AccountId → RelayerMetadata AccountId) :
    SameArchive s (s.modifyRelayer relayer f) := by
  obtain ⟨m, hm⟩ := modifyRelayer_frame s relayer f
  rw [hm]
  exact ⟨rfl, rfl, rfl, rfl, rfl, rfl, rfl, rfl⟩

lemma leaveRelayers (s : Relayers AccountId Q) (controller : AccountId) :
    SameArchive s (s.leaveRelayers controller) := by
  rw [Relayers.leaveRelayers]
  split
  · exact .refl s
  · exact ⟨rfl, rfl, rfl, rfl, rfl, rfl, rfl, rfl⟩

lemma replaceBondedController (s : Relayers AccountId Q) (old new : AccountId) :
    SameArchive s (s.replaceBondedController old new) := by
  rw [Relayers.replaceBondedController]
  split
  · exact .refl s
  · rename_i relayer _
    have hbond : SameArchive s { s with
        bondedController := (s.bondedController.remove old).insert new relayer } :=
      ⟨rfl, rfl, rfl, rfl, rfl, rfl, rfl, rfl⟩
    refine (hbond.trans (modifyRelayer _ relayer fun state => { state with controller := new })).trans ?_
    exact ⟨rfl, rfl, rfl, rfl, rfl, rfl, rfl, rfl⟩

lemma replaceMember (s : Relayers AccountId Q) (old new : AccountId) :
    SameArchive s (s.replaceMember old new) := by
  by_cases hmember : old ∈ s.members ∧ new ∉ s.members
  · rw [Relayers.replaceMember, if_pos hmember]
    exact ⟨rfl, rfl, rfl, rfl, rfl, rfl, rfl, rfl⟩
  · rw [Relayers.replaceMember, if_neg hmember]
    exact .refl s

lemma collectHeartbeats (s : Relayers AccountId Q) : SameArchive s s.collectHeartbeats := by
  have hloop : SameArchive s (s.validators.foldl heartbeatTurn s) := by
    refine List.foldlRecOn (motive := SameArchive s) s.validators _ (.refl s) fun t ht c _ => ?_
    obtain ⟨m, hm⟩ := heartbeatTurn_frame t c
    rw [hm]
    exact ht.trans ⟨rfl, rfl, rfl, rfl, rfl, rfl, rfl, rfl⟩
  exact hloop.trans ⟨rfl, rfl, rfl, rfl, rfl, rfl, rfl, rfl⟩

/-- The pool and the loop of `refresh_selected_relayers`. -/
lemma selecting (s : Relayers AccountId Q) (controllers : List AccountId) :
    SameArchive s (s.refreshRelayerPool.selectRelayers controllers).2 := by
  obtain ⟨m, hframe⟩ := refreshRelayerPool_frame s
  have hpool : SameArchive s s.refreshRelayerPool := by
    rw [hframe]
    exact ⟨rfl, rfl, rfl, rfl, rfl, rfl, rfl, rfl⟩
  have hchosen : SameArchive s.refreshRelayerPool (s.refreshRelayerPool.selectRelayers controllers).2 :=
    selectRelayers_keeps (P := fun acc => SameArchive s.refreshRelayerPool acc.2) (.refl _)
      (fun _ t relayer ht => ht.trans (modifyRelayer t relayer _)) controllers
  exact hpool.trans hchosen

end SameArchive

omit [LinearOrder AccountId] in
lemma Archived.same (h : Archived s) (hsame : SameArchive s s') : Archived s' := by
  constructor
  · rw [hsame.round, hsame.selected]
    exact h.selected
  · rw [hsame.round, hsame.initial]
    exact h.initial
  · rw [hsame.round, hsame.majority]
    exact h.majority
  · rw [hsame.round, hsame.initialMajority]
    exact h.initialMajority
  · rw [hsame.round, hsame.initial, hsame.initialNow]
    exact h.latestInitial
  · rw [hsame.round, hsame.initialMajority, hsame.initialMajorityNow]
    exact h.latestMajority
  · rw [hsame.selectedNow, hsame.initialNow]
    exact h.below
  · rw [hsame.selected, hsame.majority]
    exact h.majorities
  · rw [hsame.initial, hsame.initialMajority]
    exact h.initialMajorities
  · rw [hsame.selected, hsame.initial]
    exact h.among

/-- **`kickout_relayer`** writes the present round again. -/
lemma Archived.kickoutRelayer (h : Archived s) (controller : AccountId) :
    Archived (s.kickoutRelayer controller) := by
  rw [Relayers.kickoutRelayer]
  cases hc : s.bondedController.get controller with
  | none => exact h
  | some relayer =>
      obtain ⟨m, hframe⟩ := modifyRelayer_frame s relayer .kickOut
      simp only [hframe]
      split_ifs
      · have hsub : s.selectedRelayers.erase relayer ⊆ s.initialSelectedRelayers :=
          (Finset.erase_subset _ _).trans h.below
        constructor
        · exact h.selected.rewrite _
        · exact h.initial
        · exact h.majority.rewrite _
        · exact h.initialMajority
        · exact h.latestInitial
        · exact h.latestMajority
        · exact hsub
        · exact .insert (fun j v w _ => h.majorities j v w) rfl
        · exact h.initialMajorities
        · refine h.among.insert_left fun w hw => ?_
          replace hw : s.cachedInitialSelectedRelayers.get s.round = some w := hw
          obtain rfl := Option.some.inj (h.latestInitial.symm.trans hw)
          exact hsub
      · exact h.same ⟨rfl, rfl, rfl, rfl, rfl, rfl, rfl, rfl⟩

/-! ### A new round -/

/-- At most the selected relayers of the present round are cached. -/
structure Rewritten (s s' : Relayers AccountId Q) : Prop where
  round : s'.round = s.round
  selected : s'.cachedSelectedRelayers = s.cachedSelectedRelayers ∨
    ∃ v, s'.cachedSelectedRelayers = s.cachedSelectedRelayers.insert s.round v
  initial : s'.cachedInitialSelectedRelayers = s.cachedInitialSelectedRelayers
  majority : s'.cachedMajority = s.cachedMajority
  initialMajority : s'.cachedInitialMajority = s.cachedInitialMajority

namespace Rewritten

omit [LinearOrder AccountId] in
lemma refl (s : Relayers AccountId Q) : Rewritten s s := ⟨rfl, Or.inl rfl, rfl, rfl, rfl⟩

omit [LinearOrder AccountId] in
lemma of_same (h : SameArchive s s') : Rewritten s s' :=
  ⟨h.round, Or.inl h.selected, h.initial, h.majority, h.initialMajority⟩

omit [LinearOrder AccountId] in
lemma trans (h₁ : Rewritten s s₁) (h₂ : Rewritten s₁ s') : Rewritten s s' := by
  refine ⟨h₂.round.trans h₁.round, ?_, h₂.initial.trans h₁.initial, h₂.majority.trans h₁.majority,
    h₂.initialMajority.trans h₁.initialMajority⟩
  rcases h₂.selected with h₂ | ⟨v, h₂⟩
  · rw [h₂]
    exact h₁.selected
  · rw [h₂, h₁.round]
    rcases h₁.selected with h₁ | ⟨w, h₁⟩
    · exact Or.inr ⟨v, by rw [h₁]⟩
    · exact Or.inr ⟨v, by rw [h₁, StorageMap.insert_insert]⟩

lemma replaceSelectedRelayers (s : Relayers AccountId Q) (old new : AccountId) :
    Rewritten s (s.replaceSelectedRelayers old new) := by
  rw [Relayers.replaceSelectedRelayers]
  split_ifs
  · exact ⟨rfl, Or.inr ⟨_, rfl⟩, rfl, rfl, rfl⟩
  · exact .refl s

lemma replaceBondedRelayer (s : Relayers AccountId Q) (old new : AccountId) :
    Rewritten s (s.replaceBondedRelayer old new).2 := by
  rw [Relayers.replaceBondedRelayer]
  split
  · exact .refl s
  · refine Rewritten.trans ?_ (replaceSelectedRelayers _ old new)
    rw [Relayers.replaceRelayerPool]
    dsimp only
    split
    · exact ⟨rfl, Or.inl rfl, rfl, rfl, rfl⟩
    · exact ⟨rfl, Or.inl rfl, rfl, rfl, rfl⟩

/-- One request. -/
lemma applyRelayerSet (replaceAuthority : Q → AccountId → AccountId → Q) (s : Relayers AccountId Q)
    (x : DelayedRelayerSet AccountId) : Rewritten s (s.applyRelayerSet replaceAuthority x) := by
  have hbonded := replaceBondedRelayer s x.old x.new
  rw [Relayers.applyRelayerSet]
  dsimp only
  split
  · have hqueues : SameArchive (s.replaceBondedRelayer x.old x.new).2
        { (s.replaceBondedRelayer x.old x.new).2 with
          queues := replaceAuthority (s.replaceBondedRelayer x.old x.new).2.queues x.old x.new } :=
      ⟨rfl, rfl, rfl, rfl, rfl, rfl, rfl, rfl⟩
    exact hbonded.trans (.of_same (hqueues.trans (.replaceMember _ x.old x.new)))
  · exact hbonded

/-- `handle_delayed_relayer_sets` rewrites the selected relayers of the present round at most. -/
lemma handleDelayedRelayerSets (replaceAuthority : Q → AccountId → AccountId → Q)
    (s : Relayers AccountId Q) (now : ℕ) :
    Rewritten s (s.handleDelayedRelayerSets replaceAuthority now) := by
  have hloop : ∀ (xs : List (DelayedRelayerSet AccountId)) (t : Relayers AccountId Q),
      Rewritten t (xs.foldl (Relayers.applyRelayerSet replaceAuthority) t) := by
    intro xs
    induction xs with
    | nil => exact .refl
    | cons x xs ih => exact fun t => (applyRelayerSet replaceAuthority t x).trans (ih _)
  refine Rewritten.trans ?_ (hloop _ _)
  exact ⟨rfl, Or.inl rfl, rfl, rfl, rfl⟩

end Rewritten

/-- A cache in which the next round may already have been written is full, and the next round is
written. -/
lemma unbroken_of_rewritten {V : Type} {now lifetime : ℕ} {m m' : StorageMap ℕ V}
    (h : Unbroken now m) (hm' : m' = m ∨ ∃ w, m' = m.insert (now + 1) w) (v : V) :
    Unbroken (now + 1) ((Selection.popFirst m' lifetime).insert (now + 1) v) := by
  rcases hm' with rfl | ⟨w, rfl⟩
  · obtain ⟨log, bound, h⟩ := h
    exact ⟨_, max bound lifetime,
      Selection.popFirst_push (h.mono (le_max_left _ _)) (le_max_right _ _) v⟩
  · obtain ⟨log, bound, h⟩ := h.push w
    exact ⟨_, _, Selection.popFirst_rewrite h v⟩

/-- For the past rounds it has what it had. -/
lemma get_of_rewritten {V : Type} {j k lifetime : ℕ} {v : V} {m m' : StorageMap ℕ V}
    (hm' : m' = m ∨ ∃ w, m' = m.insert k w) (hj : j ≠ k)
    (h : (Selection.popFirst m' lifetime).get j = some v) : m.get j = some v := by
  have hget := Selection.get_of_popFirst h
  rcases hm' with rfl | ⟨w, rfl⟩
  · exact hget
  · rw [StorageMap.get_insert_of_ne _ hj] at hget
    exact hget

/-- **A round begins.**  The requests of the last round are carried out, and relayers are selected and
counted. -/
lemma Archived.enter (h : Archived s) (replaceAuthority : Q → AccountId → AccountId → Q) {now : ℕ}
    (hnow : now = s.round + 1) (full : List AccountId) :
    Archived ((((s.refreshRound now).handleDelayedRelayerSets replaceAuthority
      now).refreshSelectedRelayers now full).refreshMajority now) := by
  subst hnow
  let s₁ : Relayers AccountId Q :=
    (s.refreshRound (s.round + 1)).handleDelayedRelayerSets replaceAuthority (s.round + 1)
  have hrew : Rewritten (s.refreshRound (s.round + 1)) s₁ := .handleDelayedRelayerSets _ _ _
  have hsame : SameArchive s₁ (s₁.refreshRelayerPool.selectRelayers full).2 := .selecting s₁ full
  have hround : (s₁.refreshRelayerPool.selectRelayers full).2.round = s.round + 1 :=
    hsame.round.trans hrew.round
  have hselected : (s₁.refreshRelayerPool.selectRelayers full).2.cachedSelectedRelayers =
      s.cachedSelectedRelayers ∨ ∃ w,
        (s₁.refreshRelayerPool.selectRelayers full).2.cachedSelectedRelayers =
          s.cachedSelectedRelayers.insert (s.round + 1) w := by
    rw [hsame.selected]
    exact hrew.selected
  have hinitial : (s₁.refreshRelayerPool.selectRelayers full).2.cachedInitialSelectedRelayers =
      s.cachedInitialSelectedRelayers := hsame.initial.trans hrew.initial
  have hmajority : (s₁.refreshRelayerPool.selectRelayers full).2.cachedMajority =
      s.cachedMajority := hsame.majority.trans hrew.majority
  have hinitialMajority : (s₁.refreshRelayerPool.selectRelayers full).2.cachedInitialMajority =
      s.cachedInitialMajority := hsame.initialMajority.trans hrew.initialMajority
  have hmajorityBefore : Unbroken s.round (s₁.refreshRelayerPool.selectRelayers full).2.cachedMajority :=
    hmajority ▸ h.majority
  have hinitialBefore : Unbroken s.round
      (s₁.refreshRelayerPool.selectRelayers full).2.cachedInitialSelectedRelayers :=
    hinitial ▸ h.initial
  have hinitialMajorityBefore : Unbroken s.round
      (s₁.refreshRelayerPool.selectRelayers full).2.cachedInitialMajority :=
    hinitialMajority ▸ h.initialMajority
  have hround' : ((s₁.refreshSelectedRelayers (s.round + 1) full).refreshMajority
      (s.round + 1)).round = s.round + 1 := hround
  constructor
  · rw [hround']
    exact unbroken_of_rewritten h.selected hselected _
  · rw [hround']
    exact unbroken_of_rewritten hinitialBefore (Or.inl rfl) _
  · rw [hround']
    exact unbroken_of_rewritten hmajorityBefore (Or.inl rfl) _
  · rw [hround']
    exact unbroken_of_rewritten hinitialMajorityBefore (Or.inl rfl) _
  · rw [hround']
    exact StorageMap.get_insert_self _ _ _
  · rw [hround']
    exact StorageMap.get_insert_self _ _ _
  · exact Finset.Subset.refl _
  · refine .insert (fun j v w hj hv hw => h.majorities j v w ?_ ?_) rfl
    · exact get_of_rewritten hselected hj hv
    · exact get_of_rewritten (Or.inl hmajority) hj hw
  · refine .insert (fun j v w hj hv hw => h.initialMajorities j v w ?_ ?_) rfl
    · exact get_of_rewritten (Or.inl hinitial) hj hv
    · exact get_of_rewritten (Or.inl hinitialMajority) hj hw
  · refine .insert (fun j v w hj hv hw => h.among j v w ?_ ?_) (Finset.Subset.refl _)
    · exact get_of_rewritten hselected hj hv
    · exact get_of_rewritten (Or.inl hinitial) hj hw

/-! ### Other acts -/

/-- Nothing is cached. -/
structure Unfilled (s : Relayers AccountId Q) : Prop where
  selected : s.cachedSelectedRelayers = ∅
  initial : s.cachedInitialSelectedRelayers = ∅
  majority : s.cachedMajority = ∅
  initialMajority : s.cachedInitialMajority = ∅

/-- The first selection. -/
lemma Unfilled.archived (h : Unfilled s) (full : List AccountId) :
    Archived (((s.refreshSelectedRelayers 1 full).refreshMajority 1).refreshRound 1) := by
  have hsame : SameArchive s (s.refreshRelayerPool.selectRelayers full).2 := .selecting s full
  have hselected := hsame.selected.trans h.selected
  have hinitial := hsame.initial.trans h.initial
  have hmajority := hsame.majority.trans h.majority
  have hinitialMajority := hsame.initialMajority.trans h.initialMajority
  have hnone : ∀ {V W : Type} {R : V → W → Prop} {v : V} {w : W}, R v w →
      Agree R ((∅ : StorageMap ℕ V).insert 1 v) ((∅ : StorageMap ℕ W).insert 1 w) :=
    fun hR => .insert (fun _ _ _ _ hv _ => by cases hv) hR
  simp only [refreshSelectedRelayers, refreshMajority, refreshCachedSelectedRelayers, refreshRound,
    hselected, hinitial, hmajority, hinitialMajority, Selection.popFirst_empty]
  constructor
  · exact .single _
  · exact .single _
  · exact .single _
  · exact .single _
  · exact StorageMap.get_insert_self _ _ _
  · exact StorageMap.get_insert_self _ _ _
  · exact Finset.Subset.refl _
  · exact hnone rfl
  · exact hnone rfl
  · exact hnone (Finset.Subset.refl _)

/-- **Whatever the relay manager does by itself** leaves the archive alone. -/
lemma SameArchive.act {a : Act AccountId Q} (hact : s.act a = some s') : SameArchive s s' := by
  cases a with
  | setStorageCacheLifetime origin n =>
      obtain rfl := Option.some.inj hact
      refine commit_induction (P := fun t : Relayers AccountId Q => SameArchive s t) (.refl s)
        fun t ht => ?_
      simp only [setStorageCacheLifetime, bind_eq_ok, ensure_eq_ok, pure_eq_ok, exists_const] at ht
      obtain ⟨-, -, -, rfl⟩ := ht
      exact ⟨rfl, rfl, rfl, rfl, rfl, rfl, rfl, rfl⟩
  | setHeartbeatOffenceActivation origin b =>
      obtain rfl := Option.some.inj hact
      refine commit_induction (P := fun t : Relayers AccountId Q => SameArchive s t) (.refl s)
        fun t ht => ?_
      simp only [setHeartbeatOffenceActivation, bind_eq_ok, ensure_eq_ok, pure_eq_ok,
        exists_const] at ht
      obtain ⟨-, -, rfl⟩ := ht
      exact ⟨rfl, rfl, rfl, rfl, rfl, rfl, rfl, rfl⟩
  | setHeartbeatSlashFraction origin p =>
      obtain rfl := Option.some.inj hact
      refine commit_induction (P := fun t : Relayers AccountId Q => SameArchive s t) (.refl s)
        fun t ht => ?_
      simp only [setHeartbeatSlashFraction, bind_eq_ok, ensure_eq_ok, pure_eq_ok, exists_const] at ht
      obtain ⟨-, -, rfl⟩ := ht
      exact ⟨rfl, rfl, rfl, rfl, rfl, rfl, rfl, rfl⟩
  | setRelayer origin n =>
      obtain rfl := Option.some.inj hact
      refine commit_induction (P := fun t : Relayers AccountId Q => SameArchive s t) (.refl s)
        fun t ht => ?_
      obtain ⟨who, -, ht⟩ := bind_eq_ok.mp ht
      simp only [setRelayer, addToRelayerSets, bind_eq_ok, okOr_eq_ok, ensure_eq_ok, pure_eq_ok,
        exists_const] at ht
      obtain ⟨-, -, -, -, -, -, -, -, rfl⟩ := ht
      exact ⟨rfl, rfl, rfl, rfl, rfl, rfl, rfl, rfl⟩
  | cancelRelayerSet origin =>
      obtain rfl := Option.some.inj hact
      refine commit_induction (P := fun t : Relayers AccountId Q => SameArchive s t) (.refl s)
        fun t ht => ?_
      obtain ⟨who, -, ht⟩ := bind_eq_ok.mp ht
      simp only [cancelRelayerSet, bind_eq_ok, okOr_eq_ok, ensure_eq_ok, pure_eq_ok,
        exists_const] at ht
      obtain ⟨-, -, -, rfl⟩ := ht
      exact ⟨rfl, rfl, rfl, rfl, rfl, rfl, rfl, rfl⟩
  | heartbeat origin versions =>
      refine commit_induction (P := fun o : Option (Relayers AccountId Q) => ∀ t, o = some t →
        SameArchive s t) (fun t ht => Option.some.inj ht ▸ .refl s) (fun o ho t hot => ?_) s' hact
      obtain ⟨who, -, ho⟩ := bind_eq_ok.mp ho
      rw [Strict.heartbeat] at ho
      simp only [bind_eq_ok, ensure_eq_ok, exists_const] at ho
      obtain ⟨-, -, ho⟩ := ho
      split_ifs at ho
      · rw [pure_eq_ok] at ho
        rw [hot] at ho
        exact Option.some.inj ho ▸ .refl s
      · rw [pure_eq_ok, hot, Strict.modifyRelayer, Option.map_eq_some_iff] at ho
        obtain ⟨m, -, rfl⟩ := ho
        exact ⟨rfl, rfl, rfl, rfl, rfl, rfl, rfl, rfl⟩
  | membership members prime =>
      obtain rfl := Option.some.inj hact
      exact ⟨rfl, rfl, rfl, rfl, rfl, rfl, rfl, rfl⟩
  | session validators index =>
      obtain rfl := Option.some.inj hact
      exact ⟨rfl, rfl, rfl, rfl, rfl, rfl, rfl, rfl⟩
  | bridge queues =>
      obtain rfl := Option.some.inj hact
      exact ⟨rfl, rfl, rfl, rfl, rfl, rfl, rfl, rfl⟩

end Same

end Relayers

/-! ## The network -/

section Network

variable {cfg : Config AccountId} {replaceAuthority : Q → AccountId → AccountId → Q}
  {s s' : State AccountId (Option (Relayers AccountId Q))}
  {leave : State AccountId (Relayers AccountId Q) → AccountId → Prop}
  {t t' : State AccountId (Relayers AccountId Q)} {r r' : Relayers AccountId Q}

/-- **What staking asks for** keeps the archive in order. -/
lemma Shift.archived (ht : t.relay.Archived) (hround : t.relay.round = t.now)
    (h : Shift (Relayers.manager replaceAuthority) leave t t') : t'.relay.Archived := by
  cases h with
  | idle _ hrelay => exact hrelay ▸ ht
  | joined c relayer _ _ hrelay =>
      rcases Relayers.manager_joined hrelay with hsame | ⟨x, -, hjoin⟩
      · exact hsame ▸ ht
      · obtain ⟨-, -, -, -, heq⟩ := Relayers.joinRelayers_ok hjoin
        rw [heq]
        exact ht.same ⟨rfl, rfl, rfl, rfl, rfl, rfl, rfl, rfl⟩
  | left c _ _ _ _ hrelay => exact hrelay ▸ ht.same (.leaveRelayers t.relay c)
  | dropped c _ _ hrelay _ =>
      rw [hrelay]
      split_ifs
      · exact ht.kickoutRelayer c
      · exact ht
  | heartbeats _ hrelay => exact hrelay ▸ ht.same (.collectHeartbeats t.relay)
  | chosen full _ _ _ hnow hrelay =>
      exact hrelay ▸ ht.enter replaceAuthority (hnow.trans (congrArg (· + 1) hround.symm)) full
  | @renamed old new tier _ _ _ _ hrelay _ =>
      rw [hrelay]
      split_ifs
      · exact ht.same (.replaceBondedController t.relay old new)
      · exact ht

/-- Who joins brings nothing to remember. -/
lemma Relayers.Unfilled.joined {stash controller : AccountId} {relayer : Option AccountId}
    {bond count : ℕ} (hblank : r.Unfilled) (hr : s.relay = some r) (hr' : s'.relay = some r')
    (h : s.joinCandidates cfg (Strict.manager replaceAuthority) stash controller relayer bond count =
      .ok s') : r'.Unfilled := by
  simp only [State.joinCandidates, Ledger.join, Ledger.tryInsertPool, bind_eq_ok, ensure_eq_ok,
    pure_eq_ok, exists_const] at h
  obtain ⟨-, -, -, -, -, -, -, currency, -, relay, hrelay, l, ⟨l₁, ⟨-, rfl⟩, rfl⟩, rfl⟩ := h
  replace hr' : relay = some r' := hr'
  rw [hr'] at hrelay
  cases relayer with
  | none =>
      rw [State.joinedRelay, pure_eq_ok, hr] at hrelay
      exact Option.some.inj hrelay ▸ hblank
  | some x =>
      rw [State.joinedRelay, hr] at hrelay
      simp only [Strict.manager, bind_eq_ok, okOr_eq_ok, pure_eq_ok, Option.some.injEq] at hrelay
      obtain ⟨_, rfl, r₁, hjoin, rfl⟩ := hrelay
      cases hres : r.joinRelayers x controller with
      | error e =>
          rw [hres] at hjoin
          cases hjoin
      | ok r₂ =>
          rw [hres] at hjoin
          obtain rfl : r₂ = r₁ := Except.ok.inj hjoin
          obtain ⟨-, -, -, -, heq⟩ := Relayers.joinRelayers_ok hres
          rw [heq]
          exact ⟨hblank.selected, hblank.initial, hblank.majority, hblank.initialMajority⟩

/-- **Genesis** selects the first relayers, with nothing in the caches. -/
lemma IsNetworkGenesis.opens (h : IsNetworkGenesis cfg replaceAuthority s) :
    ∃ r full, r.Unfilled ∧ Bonds r ∧
      s.relay = some (((r.refreshSelectedRelayers 1 full).refreshMajority 1).refreshRound 1) := by
  obtain ⟨g, ⟨lifetime, isActive, fraction, members, queues, hrelay⟩, hg⟩ := h
  simp only [GenesisConfig.build, Option.bind_eq_bind, Option.bind_eq_some_iff, Option.pure_def,
    Option.some.injEq, Prod.exists] at hg
  obtain ⟨s₁, h₁, s₂, h₂, validators, nominations, stake, s₃, h₃, rfl⟩ := hg
  let P (t : State AccountId (Option (Relayers AccountId Q))) : Prop :=
    ∃ r, Tied t r ∧ r.round = 0 ∧ r.Unfilled
  have hblank : P (g.blank cfg) :=
    ⟨_, ⟨hrelay, Relayers.genesis_inv lifetime isActive fraction members queues,
      fun c hc => absurd rfl hc⟩, rfl, rfl, rfl, rfl, rfl⟩
  have hjoined : P s₁ := by
    refine GenesisConfig.joinAll_invariant (P := P) (fun t _ c _ _ _ t' ht hjoin => ?_) h₁ hblank
    obtain ⟨r, htied, hround, hr⟩ := ht
    obtain ⟨-, -, -, -, -, hnow⟩ := State.joinCandidates_joins hjoin
    have hshift : Shift (Strict.manager replaceAuthority) (unlessPanicked fun _ _ => True) t t' :=
      State.joinCandidates_shift hjoin
    obtain ⟨r', htied', hround', -⟩ := Shift.tied hshift htied fun hne => absurd hnow hne
    rw [if_pos hnow, hround] at hround'
    exact ⟨r', htied', hround', hr.joined htied.relay htied'.relay hjoin⟩
  have hnominated : P s₂ := by
    refine GenesisConfig.nominateAll_invariant (P := P) (fun t _ _ amount i j l ht hnom => ?_) h₂
      hjoined
    obtain ⟨r, htied, hround, hr⟩ := ht
    refine ⟨r, ⟨htied.relay, htied.inv, fun c hc => ?_⟩, hround, hr⟩
    have hroll : OnTerms cfg t.ledger l := Ledger.nominate_onTerms amount i j l hnom
    show l.tier c = _
    rw [Ledger.tier_congr hroll.standing]
    exact htied.full c hc
  obtain ⟨r₀, htied, -, hr⟩ := hnominated
  let p : State AccountId (Option (Relayers AccountId Q)) := s₂.withParams { s₂.params with
    maxTotalSelected :=
      cfg.defaultMaxSelectedFullCandidates + cfg.defaultMaxSelectedBasicCandidates
    maxFullSelected := cfg.defaultMaxSelectedFullCandidates
    maxBasicSelected := cfg.defaultMaxSelectedBasicCandidates
    storageCacheLifetime := cfg.storageCacheLifetimeInRounds }
  have hrelay₃ : s₃.relay =
      some (r₀.refreshSelectedRelayers 1 (p.computeTopCandidates cfg).1) := by
    rw [State.updateTopCandidates_relay h₃]
    show s₂.relay.bind (Strict.refreshSelectedRelayers · 1 (p.computeTopCandidates cfg).1) = _
    rw [htied.relay]
    exact (Relayers.strict_refreshSelectedRelayers htied.inv.bonds 1 _).1
  refine ⟨r₀, (p.computeTopCandidates cfg).1, hr, htied.inv.bonds, ?_⟩
  show (s₃.relay.map (·.refreshMajority 1)).map (·.refreshRound 1) = _
  rw [hrelay₃]
  rfl

lemma IsNetworkGenesis.archived (h : IsNetworkGenesis cfg replaceAuthority s) :
    ∃ r, s.relay = some r ∧ r.Archived := by
  obtain ⟨r, full, hr, -, hrelay⟩ := h.opens
  exact ⟨_, hrelay, hr.archived full⟩

/-- **One step** keeps what every act of the relay manager and every shift keeps. -/
lemma networkStep_keeps {P : Relayers AccountId Q → Prop} {i : Step AccountId (Act AccountId Q)}
    (hacts : ∀ {a r'}, P r → r.act a = some r' → P r')
    (hshifts : ∀ {t t' : State AccountId (Relayers AccountId Q)}, P t.relay → RelayInv t.relay →
      t.relay.round = t.now → Shift (Relayers.manager replaceAuthority) (fun _ _ => True) t t' →
      P t'.relay)
    (hs : StateInv cfg s) (h : networkStep cfg replaceAuthority s i = some s') (ht : Tied s r)
    (hround : r.round = s.now) (hr : P r) : ∃ r', s'.relay = some r' ∧ P r' := by
  by_cases hrelay : ∃ a, i = .relay a
  · obtain ⟨a, rfl⟩ := hrelay
    obtain rfl := Option.some.inj h
    obtain ⟨r', hact, -⟩ := Relayers.act_acted ht.inv a
    refine ⟨r', ?_, hacts hr hact⟩
    show s.relay.bind (·.act a) = some r'
    rw [ht.relay]
    exact hact
  · have hasked : ∀ state, mapStep (fun a => s.relay.bind (·.act a)) i ≠ .relay state := by
      intro state heq
      cases i with
      | relay a => exact hrelay ⟨a, rfl⟩
      | _ => cases heq
    have hsteps := State.step_shifts hs (leaves_true s _) hasked h
    obtain ⟨r', ht', -, hr'⟩ := Shifts.tied (P := fun t => P t.relay)
      (fun t t' ht hinv hround hshift => hshifts ht hinv hround hshift) hsteps ht hround hr
    exact ⟨r', ht'.relay, hr'⟩

/-- What genesis establishes, and every act of the relay manager and every shift keeps, holds in every
run. -/
lemma NetworkIf.relay_induction {P : Relayers AccountId Q → Prop}
    (hgenesis : ∀ {s}, IsNetworkGenesis cfg replaceAuthority s → ∃ r, s.relay = some r ∧ P r)
    (hacts : ∀ {r a r'}, P r → r.act a = some r' → P r')
    (hshifts : ∀ {t t' : State AccountId (Relayers AccountId Q)}, P t.relay → RelayInv t.relay →
      t.relay.round = t.now → Shift (Relayers.manager replaceAuthority) (fun _ _ => True) t t' →
      P t'.relay)
    (h : NetworkIf cfg replaceAuthority anyStep s) :
    ∃ r, s.relay = some r ∧ r.round = s.now ∧ P r := by
  have hall : NetworkIf cfg replaceAuthority anyStep s ∧ ∃ r, s.relay = some r ∧ P r := by
    refine Reachable.invariant (P := fun t => NetworkIf cfg replaceAuthority anyStep t ∧
      ∃ r, t.relay = some r ∧ P r) (fun t ht => ⟨.init ht, hgenesis ht⟩)
      (fun t i t' ht hc hstep => ⟨.step ht.1 hc hstep, ?_⟩) h
    obtain ⟨hrun, r, hr, hP⟩ := ht
    obtain ⟨r₁, htied, hround⟩ := hrun.tied
    obtain rfl := Option.some.inj (hr.symm.trans htied.relay)
    exact networkStep_keeps hacts hshifts hrun.staking.inv hstep htied hround hP
  obtain ⟨-, r, hr, hP⟩ := hall
  obtain ⟨r₁, htied, hround⟩ := h.tied
  obtain rfl := Option.some.inj (hr.symm.trans htied.relay)
  exact ⟨r, hr, hround, hP⟩

/-- **The archive is in order** in every run of the network. -/
lemma NetworkIf.archived (h : NetworkIf cfg replaceAuthority anyStep s) :
    ∃ r, s.relay = some r ∧ r.round = s.now ∧ r.Archived :=
  h.relay_induction (fun hs => hs.archived) (fun hr hact => hr.same (.act hact))
    fun ht _ hround hshift => Shift.archived ht hround hshift

/-- **The archive of the relay manager**, in every run of the network.  The four caches hold unbroken
sequences of rounds that end with the present one; the present round is there as it stands; for every
round that two of them remember, the majority is that of the relayers, and the relayers are among those
that the round began with. -/
theorem relayer_archive (h : NetworkIf cfg replaceAuthority anyStep s) :
    ∃ r, s.relay = some r ∧ r.round = s.now ∧
      (Unbroken r.round r.cachedSelectedRelayers ∧ Unbroken r.round r.cachedInitialSelectedRelayers ∧
        Unbroken r.round r.cachedMajority ∧ Unbroken r.round r.cachedInitialMajority) ∧
      (r.cachedInitialSelectedRelayers.get r.round = some r.initialSelectedRelayers ∧
        r.cachedInitialMajority.get r.round = some r.initialMajority ∧
        r.selectedRelayers ⊆ r.initialSelectedRelayers) ∧
      ∀ k,
        (∀ set n, r.cachedSelectedRelayers.get k = some set → r.cachedMajority.get k = some n →
          n = set.card / 2 + 1) ∧
        (∀ set n, r.cachedInitialSelectedRelayers.get k = some set →
          r.cachedInitialMajority.get k = some n → n = set.card / 2 + 1) ∧
        ∀ set set₀, r.cachedSelectedRelayers.get k = some set →
          r.cachedInitialSelectedRelayers.get k = some set₀ → set ⊆ set₀ := by
  obtain ⟨r, hr, hround, harchived⟩ := h.archived
  exact ⟨r, hr, hround,
    ⟨harchived.selected, harchived.initial, harchived.majority, harchived.initialMajority⟩,
    ⟨harchived.latestInitial, harchived.latestMajority, harchived.below⟩,
    fun k => ⟨harchived.majorities k, harchived.initialMajorities k, harchived.among k⟩⟩

/-- One of the two first relayers is kicked out in the first round.  In the second one the archive tells
that the other one was left, and what was its majority. -/
theorem relayer_archive_devnet : ∃ s r n, NetworkIf devnet bridgeless anyStep s ∧ s.relay = some r ∧
    r.round = 2 ∧ r.cachedSelectedRelayers.get 1 = some {13} ∧
    r.cachedInitialSelectedRelayers.get 1 = some {3, 13} ∧ r.cachedMajority.get 1 = some n ∧ n = 1 := by
  have hrun : ((networkGenesis.build devnet (Strict.manager bridgeless)).bind fun s =>
      runSteps (checked (networkStep devnet bridgeless) anyStep) s
        [.call (.signed 2) .goOffline, .newSession 20 2 [] fun _ => true]).any (fun s =>
        s.relay.any fun r => decide (r.round = 2 ∧ r.cachedSelectedRelayers.get 1 = some {13} ∧
          r.cachedInitialSelectedRelayers.get 1 = some {3, 13}) &&
          (r.cachedMajority.get 1).isSome) = true := by decide
  obtain ⟨s, hs, hP⟩ := networkRun_exists hrun
  obtain ⟨r, hr, -, -, -, hagree⟩ := relayer_archive hs
  rw [hr, Option.any_some, Bool.and_eq_true, decide_eq_true_eq] at hP
  obtain ⟨⟨hround, hselected, hinitial⟩, hsome⟩ := hP
  obtain ⟨n, hn⟩ := Option.isSome_iff_exists.mp hsome
  exact ⟨s, r, n, hs, hr, hround, hselected, hinitial, hn, (hagree 1).1 _ n hselected hn⟩

end Network

end BifrostNode.Relay
