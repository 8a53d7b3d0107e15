import BifrostNode.Relay.Bonds
import BifrostNode.Staking.Roster

/-!
# Staking drives the relay manager

**Simulation.**  Whatever `bfc-staking` asks of the relay manager with its panics, the relay manager
without them does the same: a shift of the one is a shift of the other, as long as the bonds agree and
every bonded controller is a full node, which every shift keeps.

**Induction.**  So a property of the relay manager without panics that genesis establishes and that
every shift and every act of its own keeps, holds in every run of the network.
-/

namespace BifrostNode.Relay

open Staking Transition

variable {AccountId Q R R' : Type} [LinearOrder AccountId]

omit [LinearOrder AccountId] in
/-- The same state of `bfc-staking` next to another relay manager. -/
def withRelay (s : State AccountId R) (relay : R') : State AccountId R' :=
  ⟨s.ledger, s.selection, s.rewards, s.params, s.round, s.session, s.delayedControllerSets,
    s.delayedCommissionSets, s.offences, relay⟩

/-- **The relay manager is tied to the roster**: it has not panicked, its bonds agree, and bonded
controllers are full nodes. -/
structure Tied (s : State AccountId (Option (Relayers AccountId Q))) (r : Relayers AccountId Q) :
    Prop where
  relay : s.relay = some r
  inv : RelayInv r
  full : ∀ c, r.bondedController.get c ≠ none → s.ledger.tier c = some .full

/-- A condition on who leaves, for a relay manager that has not panicked. -/
def unlessPanicked (leave : State AccountId (Relayers AccountId Q) → AccountId → Prop)
    (s : State AccountId (Option (Relayers AccountId Q))) (c : AccountId) : Prop :=
  ∀ r, s.relay = some r → leave (withRelay s r) c

section Shifts

variable {replaceAuthority : Q → AccountId → AccountId → Q}
  {leave : State AccountId (Relayers AccountId Q) → AccountId → Prop}
  {s s' : State AccountId (Option (Relayers AccountId Q))} {r : Relayers AccountId Q}

omit [LinearOrder AccountId] in
lemma Relayers.refreshMajority_same (r : Relayers AccountId Q) (round : ℕ) :
    SameBonds r (r.refreshMajority round) := ⟨rfl, rfl, rfl, rfl, rfl⟩

/-- The bonds of `leave_relayers`. -/
lemma Relayers.leaveRelayers_bonded (r : Relayers AccountId Q) (controller c : AccountId) :
    (r.leaveRelayers controller).bondedController.get c =
      if c = controller then none else r.bondedController.get c := by
  rw [Relayers.leaveRelayers]
  cases hc : r.bondedController.get controller with
  | none =>
      split_ifs with heq
      · rw [heq, hc]
      · rfl
  | some relayer => exact StorageMap.get_remove _ _ _

/-- `replace_bonded_controller` bonds nobody else than the new controller. -/
lemma Relayers.replaceBondedController_bonded {r : Relayers AccountId Q} {old new c : AccountId}
    (h : (r.replaceBondedController old new).bondedController.get c ≠ none) :
    c = new ∨ (c ≠ old ∧ r.bondedController.get c ≠ none) := by
  rw [Relayers.replaceBondedController] at h
  cases hold : r.bondedController.get old with
  | none =>
      rw [hold] at h
      refine Or.inr ⟨?_, h⟩
      rintro rfl
      exact h hold
  | some relayer =>
      simp only [hold] at h
      obtain ⟨m, hframe⟩ := Relayers.modifyRelayer_frame
        { r with bondedController := (r.bondedController.remove old).insert new relayer } relayer
        fun state => { state with controller := new }
      simp only [hframe, Relayers.removeFromRelayerPool, StorageMap.get_insert,
        StorageMap.get_remove] at h
      split_ifs at h with h₁ h₂
      · exact Or.inl h₁
      · exact absurd rfl h
      · exact Or.inr ⟨h₂, h⟩

/-- A shift from `s` to `s'` succeeds with the relay manager `r` too, and the rounds agree again if a round
began. -/
def Followed (replaceAuthority : Q → AccountId → AccountId → Q)
    (leave : State AccountId (Relayers AccountId Q) → AccountId → Prop)
    (s s' : State AccountId (Option (Relayers AccountId Q))) (r : Relayers AccountId Q) : Prop :=
  ∃ r', Tied s' r' ∧ (r'.round = if s'.now = s.now then r.round else s'.now) ∧
    Shift (Relayers.manager replaceAuthority) leave (withRelay s r) (withRelay s' r')

namespace Tied

omit [LinearOrder AccountId] in
/-- The tiers stay, and nobody is bonded who was not. -/
lemma carry {r' : Relayers AccountId Q} (ht : Tied s r) (htier : s'.ledger.tier = s.ledger.tier)
    (hrelay : s'.relay = some r') (hinv : RelayInv r')
    (hbonded : ∀ c, r'.bondedController.get c ≠ none → r.bondedController.get c ≠ none) :
    Tied s' r' where
  relay := hrelay
  inv := hinv
  full := by
    intro c hc
    rw [htier]
    exact ht.full c (hbonded c hc)

lemma idle (ht : Tied s r) (hstill : Still s s') (hrelay : s'.relay = s.relay) :
    Followed replaceAuthority leave s s' r :=
  ⟨r, ht.carry hstill.tier (hrelay.trans ht.relay) ht.inv fun _ => id, (if_pos hstill.now).symm,
    .idle ⟨hstill.tier, hstill.full, hstill.now⟩ rfl⟩

/-- A basic node joins without a relayer. -/
lemma joinedBasic (ht : Tied s r) {c : AccountId} (hold : s.ledger.tier c ≠ some .full)
    (htier : Retiers c (some .basic) s s') (hrelay : s'.relay = s.relay) :
    Followed replaceAuthority leave s s' r := by
  refine ⟨r, ⟨hrelay.trans ht.relay, ht.inv, fun k hk => ?_⟩, (if_pos htier.now).symm,
    .joined c none hold ⟨htier.tier, htier.full, htier.now⟩ rfl⟩
  have hne : k ≠ c := by
    rintro rfl
    exact hold (ht.full k hk)
  rw [htier.tier, Function.update_of_ne hne]
  exact ht.full k hk

/-- A full node joins with its relayer. -/
lemma joinedFull (ht : Tied s r) {c relayer : AccountId} (hold : s.ledger.tier c ≠ some .full)
    (htier : Retiers c (some .full) s s')
    (hrelay : (Strict.manager replaceAuthority).joinRelayers s.relay relayer c = .ok s'.relay) :
    Followed replaceAuthority leave s s' r := by
  rw [ht.relay] at hrelay
  simp only [Strict.manager, bind_eq_ok, okOr_eq_ok, pure_eq_ok, Option.some.injEq] at hrelay
  obtain ⟨_, rfl, r₁, hjoin, hr₁⟩ := hrelay
  have hok : r.joinRelayers relayer c = .ok r₁ := by
    cases hres : r.joinRelayers relayer c with
    | error e =>
        rw [hres] at hjoin
        cases hjoin
    | ok r₂ =>
        rw [hres] at hjoin
        exact congrArg _ (Except.ok.inj hjoin)
  obtain ⟨-, -, -, -, heq⟩ := Relayers.joinRelayers_ok hok
  refine ⟨r₁, ⟨hr₁.symm, Relayers.joinRelayers_inv ht.inv hok, fun k hk => ?_⟩, ?_,
    .joined c (some relayer) hold ⟨htier.tier, htier.full, htier.now⟩ hjoin⟩
  · rw [htier.tier, Function.update_apply]
    by_cases hkc : k = c
    · rw [if_pos hkc]
    · rw [if_neg hkc]
      refine ht.full k ?_
      rw [heq] at hk
      exact StorageMap.get_insert_of_ne r.bondedController hkc relayer ▸ hk
  · rw [if_pos htier.now, heq]

lemma left (ht : Tied s r) {c : AccountId} {tier : Option TierType} (hleave : unlessPanicked leave s c)
    (hne : tier ≠ some .full) (htier : Retiers c tier s s')
    (hrelay : s'.relay = (Strict.manager replaceAuthority).leaveRelayers s.relay c) :
    Followed replaceAuthority leave s s' r := by
  refine ⟨r.leaveRelayers c, ⟨?_, Relayers.leaveRelayers_inv ht.inv c, fun k hk => ?_⟩, ?_,
    .left c tier (hleave r ht.relay) hne ⟨htier.tier, htier.full, htier.now⟩ rfl⟩
  · rw [hrelay, ht.relay]
    rfl
  · rw [Relayers.leaveRelayers_bonded] at hk
    split_ifs at hk with hkc
    · exact absurd rfl hk
    · rw [htier.tier, Function.update_of_ne hkc]
      exact ht.full k hk
  · rw [if_pos htier.now, (r.leaveRelayers_seats c).2]

lemma dropped (ht : Tied s r) {c : AccountId} (htier : s'.ledger.tier = s.ledger.tier)
    (hfull : s'.selection.selectedFullCandidates =
      if s.ledger.tier c = some .full then s.selection.selectedFullCandidates.erase c
      else s.selection.selectedFullCandidates)
    (hrelay : s'.relay = if s.ledger.tier c = some .full then
      (Strict.manager replaceAuthority).kickoutRelayer s.relay c else s.relay)
    (hnow : s'.now = s.now) : Followed replaceAuthority leave s s' r := by
  by_cases hc : s.ledger.tier c = some .full
  · obtain ⟨hstrict, hsame, hsub⟩ := Relayers.strict_kickoutRelayer ht.inv.bonds c
    have hsel := (Finset.card_le_card hsub).trans ht.inv.bonds.selected_le
    have hrelay' : s'.relay = some (r.kickoutRelayer c) := by
      rw [hrelay, if_pos hc, ht.relay]
      exact hstrict
    refine ⟨r.kickoutRelayer c,
      ht.carry htier hrelay' (hsame.inv ht.inv hsel) fun k hk => hsame.bonded ▸ hk, ?_,
      .dropped c htier hfull (if_pos hc).symm hnow⟩
    rw [if_pos hnow, hsame.round]
  · have hrelay' : s'.relay = some r := by
      rw [hrelay, if_neg hc, ht.relay]
    exact ⟨r, ht.carry htier hrelay' ht.inv fun _ => id, (if_pos hnow).symm,
      .dropped c htier hfull (if_neg hc).symm hnow⟩

lemma heartbeats (ht : Tied s r) (hstill : Still s s')
    (hrelay : s'.relay = (Strict.manager replaceAuthority).collectHeartbeats s.relay) :
    Followed replaceAuthority leave s s' r := by
  obtain ⟨hstrict, hsame, hseats⟩ := Relayers.strict_collectHeartbeats ht.inv.bonds
  have hsel : r.collectHeartbeats.selectedRelayers.card ≤ maxAuthorities := by
    rw [hseats.selected]
    exact ht.inv.bonds.selected_le
  have hrelay' : s'.relay = some r.collectHeartbeats := by
    rw [hrelay, ht.relay]
    exact hstrict
  refine ⟨r.collectHeartbeats,
    ht.carry hstill.tier hrelay' (hsame.inv ht.inv hsel) fun k hk => hsame.bonded ▸ hk, ?_,
    .heartbeats ⟨hstill.tier, hstill.full, hstill.now⟩ rfl⟩
  rw [if_pos hstill.now, hsame.round]

/-- A round begins: the relay manager renames, selects and counts the majority for it. -/
lemma chosen (ht : Tied s r) (hr : r.round = s.now) {full : List AccountId}
    (htier : s'.ledger.tier = s.ledger.tier) (hkind : ∀ c ∈ full, s.ledger.tier c = some .full)
    (hfull : s'.selection.selectedFullCandidates = full.toFinset) (hnow : s'.now = s.now + 1)
    (hrelay : s'.relay = (Strict.manager replaceAuthority).refreshMajority
      ((Strict.manager replaceAuthority).refreshSelectedRelayers
        ((Strict.manager replaceAuthority).handleDelayedRelayerSets
          ((Strict.manager replaceAuthority).refreshRound s.relay s'.now) s'.now) s'.now full)
      s'.now) :
    Followed replaceAuthority leave s s' r := by
  obtain ⟨hhandle, hinv, hbonded, hround⟩ :=
    Relayers.strict_handleDelayedRelayerSets replaceAuthority ht.inv
  rw [hr, ← hnow] at hhandle hinv hbonded hround
  obtain ⟨hselect, hsame, hsel, -⟩ := Relayers.strict_refreshSelectedRelayers hinv.bonds s'.now full
  have hrelay' : s'.relay = some ((((r.refreshRound s'.now).handleDelayedRelayerSets replaceAuthority
      s'.now).refreshSelectedRelayers s'.now full).refreshMajority s'.now) := by
    rw [hrelay, ht.relay]
    show (((Strict.handleDelayedRelayerSets (r.refreshRound s'.now) replaceAuthority
      s'.now).bind (Strict.refreshSelectedRelayers · s'.now full)).map
        (·.refreshMajority s'.now)) = some _
    rw [hhandle, Option.bind_some, hselect, Option.map_some]
  refine ⟨_, ht.carry htier hrelay' ?_ fun k hk hnone => hk ?_, ?_,
    .chosen full htier hkind hfull hnow rfl⟩
  · exact (Relayers.refreshMajority_same _ s'.now).inv (hsame.inv hinv hsel) hsel
  · exact (congrArg (fun m => StorageMap.get m k) hsame.bonded).trans ((hbonded k).mpr hnone)
  · rw [if_neg (by omega)]
    exact hsame.round.trans hround

/-- A full node changes its controller, and its bond with it. -/
lemma renamedFull (ht : Tied s r) {old new : AccountId} (hold : s.ledger.tier old = some .full)
    (hfree : s.ledger.tier new = none)
    (htier : ∀ k, s'.ledger.tier k =
      if k = new then some .full else if k = old then none else s.ledger.tier k)
    (hfull : s'.selection.selectedFullCandidates =
      if old ∈ s.selection.selectedFullCandidates then
        insert new (s.selection.selectedFullCandidates.erase old)
      else s.selection.selectedFullCandidates)
    (hrelay : s'.relay = (Strict.manager replaceAuthority).replaceBondedController s.relay old new)
    (hnow : s'.now = s.now) : Followed replaceAuthority leave s s' r := by
  have hbnew : r.bondedController.get new = none := by
    by_contra hne
    have hcontra := ht.full new hne
    rw [hfree] at hcontra
    cases hcontra
  obtain ⟨hstrict, hinv⟩ := Relayers.strict_replaceBondedController old ht.inv hbnew
  refine ⟨r.replaceBondedController old new, ⟨?_, hinv, fun k hk => ?_⟩, ?_,
    .renamed hold hfree htier hfull (if_pos rfl).symm hnow⟩
  · rw [hrelay, ht.relay]
    exact hstrict
  · rw [htier]
    rcases Relayers.replaceBondedController_bonded hk with rfl | ⟨hne, hbk⟩
    · rw [if_pos rfl]
    · have hknew : k ≠ new := by
        rintro rfl
        exact hbk hbnew
      rw [if_neg hknew, if_neg hne]
      exact ht.full k hbk
  · rw [if_pos hnow, (r.replaceBondedController_seats old new).2]

/-- A basic node changes its controller, and the relay manager is not called. -/
lemma renamedBasic (ht : Tied s r) {old new : AccountId} {tier : TierType} (hkind : tier ≠ .full)
    (hold : s.ledger.tier old = some tier) (hfree : s.ledger.tier new = none)
    (htier : ∀ k, s'.ledger.tier k =
      if k = new then some tier else if k = old then none else s.ledger.tier k)
    (hfull : s'.selection.selectedFullCandidates =
      if old ∈ s.selection.selectedFullCandidates then
        insert new (s.selection.selectedFullCandidates.erase old)
      else s.selection.selectedFullCandidates)
    (hrelay : s'.relay = s.relay) (hnow : s'.now = s.now) :
    Followed replaceAuthority leave s s' r := by
  refine ⟨r, ⟨hrelay.trans ht.relay, ht.inv, fun k hk => ?_⟩, (if_pos hnow).symm,
    .renamed hold hfree htier hfull (if_neg hkind).symm hnow⟩
  have hfull_k := ht.full k hk
  have hknew : k ≠ new := by
    rintro rfl
    rw [hfree] at hfull_k
    cases hfull_k
  have hkold : k ≠ old := by
    rintro rfl
    rw [hold, Option.some.injEq] at hfull_k
    exact hkind hfull_k
  rw [htier, if_neg hknew, if_neg hkold]
  exact hfull_k

end Tied

/-- **One shift.**  `join_relayers` before the first round is the only shift that can happen while the
two pallets count different rounds. -/
lemma Shift.tied (h : Shift (Strict.manager replaceAuthority) (unlessPanicked leave) s s')
    (ht : Tied s r) (hround : s'.now ≠ s.now → r.round = s.now) :
    Followed replaceAuthority leave s s' r := by
  cases h with
  | idle hstill hrelay => exact ht.idle hstill hrelay
  | joined c relayer hold htier hrelay =>
      cases relayer with
      | none => exact ht.joinedBasic hold htier (pure_eq_ok.mp hrelay).symm
      | some relayer => exact ht.joinedFull hold htier hrelay
  | left c tier hleave hne htier hrelay => exact ht.left hleave hne htier hrelay
  | dropped c htier hfull hrelay hnow => exact ht.dropped htier hfull hrelay hnow
  | heartbeats hstill hrelay => exact ht.heartbeats hstill hrelay
  | chosen full htier hkind hfull hnow hrelay =>
      exact ht.chosen (hround (by omega)) htier hkind hfull hnow hrelay
  | @renamed old new tier hold hfree htier hfull hrelay hnow =>
      by_cases hkind : tier = .full
      · subst hkind
        exact ht.renamedFull hold hfree htier hfull (hrelay.trans (if_pos rfl)) hnow
      · exact ht.renamedBasic hkind hold hfree htier hfull (hrelay.trans (if_neg hkind)) hnow

/-- **A sequence of shifts** succeeds with the bare relay manager too, and keeps what its shifts keep. -/
lemma Shifts.tied {P : State AccountId (Relayers AccountId Q) → Prop}
    (hshift : ∀ t t', P t → RelayInv t.relay → t.relay.round = t.now →
      Shift (Relayers.manager replaceAuthority) leave t t' → P t')
    (h : Shifts (Strict.manager replaceAuthority) (unlessPanicked leave) s s') (ht : Tied s r)
    (hr : r.round = s.now) (hP : P (withRelay s r)) :
    ∃ r', Tied s' r' ∧ r'.round = s'.now ∧ P (withRelay s' r') := by
  induction h with
  | refl => exact ⟨r, ht, hr, hP⟩
  | tail _ hlast ih =>
      obtain ⟨r₁, ht₁, hr₁, hP₁⟩ := ih
      obtain ⟨r₂, ht₂, hr₂, hplain⟩ := Shift.tied hlast ht₁ fun _ => hr₁
      refine ⟨r₂, ht₂, ?_, hshift _ _ hP₁ ht₁.inv hr₁ hplain⟩
      rw [hr₂]
      split_ifs with hnow
      · rw [hr₁, hnow]
      · rfl

end Shifts

/-! ## Genesis -/

section Genesis

variable {cfg : Config AccountId} {replaceAuthority : Q → AccountId → AccountId → Q}
  {s : State AccountId (Option (Relayers AccountId Q))}

omit [LinearOrder AccountId] in
/-- An empty relay manager is in order. -/
lemma Relayers.genesis_inv (lifetime : ℕ) (isActive : Bool) (fraction : Perbill)
    (members : List AccountId) (queues : Q) :
    RelayInv (Relayers.genesis lifetime isActive fraction members queues) where
  bonds := by
    refine ⟨⟨fun a b => ?_, fun a b => ?_, List.nodup_nil⟩, Nat.zero_le _, Nat.zero_le _⟩
    · constructor
      · intro h
        cases h
      · intro h
        cases h
    · constructor
      · intro h
        cases h
      · intro h
        cases h
  requests := ⟨fun _ hx => absurd hx List.not_mem_nil, List.nodup_nil⟩
  later _ _ := rfl

/-- The relay manager after the first selection. -/
structure FirstRelayers (t : State AccountId (Relayers AccountId Q)) (r : Relayers AccountId Q)
    (full : List AccountId) : Prop where
  relay : t.relay = ((r.refreshSelectedRelayers 1 full).refreshMajority 1).refreshRound 1
  inv : RelayInv r
  now : t.now = 1
  selected : t.selection.selectedFullCandidates = full.toFinset
  kind : ∀ c ∈ full, t.ledger.tier c = some .full

/-- **Genesis.**  The relay manager begins in the round of staking, with the relayers of the first full
nodes. -/
lemma IsNetworkGenesis.tied (h : IsNetworkGenesis cfg replaceAuthority s) :
    ∃ r r₀ full, Tied s r ∧ r.round = s.now ∧ FirstRelayers (withRelay s r) r₀ full ∧
      r.relayerSets = [] := by
  obtain ⟨g, ⟨lifetime, isActive, fraction, members, queues, hrelay⟩, hg⟩ := h
  simp only [GenesisConfig.build, Option.bind_eq_bind, Option.bind_eq_some_iff, Option.pure_def,
    Option.some.injEq, Prod.exists] at hg
  obtain ⟨s₁, h₁, s₂, h₂, validators, nominations, stake, s₃, h₃, rfl⟩ := hg
  have hblank : ∃ r, Tied (g.blank cfg) r ∧ r.round = 0 :=
    ⟨_, ⟨hrelay, Relayers.genesis_inv lifetime isActive fraction members queues,
      fun c hc => absurd rfl hc⟩, rfl⟩
  have hjoined : ∃ r, Tied s₁ r ∧ r.round = 0 := by
    refine GenesisConfig.joinAll_invariant (P := fun t => ∃ r, Tied t r ∧ r.round = 0)
      (fun t _ c _ _ _ t' ht hjoin => ?_) h₁ hblank
    obtain ⟨r, htied, hround⟩ := ht
    obtain ⟨-, -, -, -, -, hnow⟩ := State.joinCandidates_joins hjoin
    have hshift : Shift (Strict.manager replaceAuthority) (unlessPanicked fun _ _ => True) t t' :=
      State.joinCandidates_shift hjoin
    obtain ⟨r', htied', hround', -⟩ := Shift.tied hshift htied fun hne => absurd hnow hne
    refine ⟨r', htied', ?_⟩
    rw [hround', if_pos hnow, hround]
  have hnominated : ∃ r, Tied s₂ r ∧ r.round = 0 := by
    refine GenesisConfig.nominateAll_invariant (P := fun t => ∃ r, Tied t r ∧ r.round = 0)
      (fun t _ _ amount i j l ht hnom => ?_) h₂ hjoined
    obtain ⟨r, htied, hround⟩ := ht
    refine ⟨r, ⟨htied.relay, htied.inv, fun c hc => ?_⟩, hround⟩
    have hroll : OnTerms cfg t.ledger l := Ledger.nominate_onTerms amount i j l hnom
    show l.tier c = _
    rw [Ledger.tier_congr hroll.standing]
    exact htied.full c hc
  obtain ⟨r₀, htied, hround⟩ := hnominated
  obtain ⟨hstand, -, -, hsel⟩ := State.updateTopCandidates_marks h₃
  have htier : ∀ c, s₃.ledger.tier c = s₂.ledger.tier c := by
    intro c
    rw [Ledger.tier_eq_standing, hstand, Option.map_map, Ledger.tier_eq_standing]
    rfl
  let p : State AccountId (Option (Relayers AccountId Q)) := s₂.withParams { s₂.params with
    maxTotalSelected :=
      cfg.defaultMaxSelectedFullCandidates + cfg.defaultMaxSelectedBasicCandidates
    maxFullSelected := cfg.defaultMaxSelectedFullCandidates
    maxBasicSelected := cfg.defaultMaxSelectedBasicCandidates
    storageCacheLifetime := cfg.storageCacheLifetimeInRounds }
  have hq := State.computeTopCandidates_qualified cfg p fun _ => true
  simp only [List.filter_true] at hq
  obtain ⟨hselect, hsame, hcard, -⟩ :=
    Relayers.strict_refreshSelectedRelayers htied.inv.bonds 1 (p.computeTopCandidates cfg).1
  have hmaj := Relayers.refreshMajority_same
    (r₀.refreshSelectedRelayers 1 (p.computeTopCandidates cfg).1) 1
  have hinv := hmaj.inv (hsame.inv htied.inv hcard) hcard
  -- nothing is pending for any round
  have hlater := hinv.later
  have hzero : ((r₀.refreshSelectedRelayers 1 (p.computeTopCandidates cfg).1).refreshMajority
      1).round = 0 := hmaj.round.trans (hsame.round.trans hround)
  rw [hzero] at hlater
  have hnil : (((r₀.refreshSelectedRelayers 1 (p.computeTopCandidates cfg).1).refreshMajority
      1).refreshRound 1).relayerSets = [] := by
    show StorageMap.getD _ 1 [] = []
    rw [StorageMap.getD]
    exact congrArg (fun o => Option.getD o []) (hlater 1 Nat.one_pos)
  refine ⟨((r₀.refreshSelectedRelayers 1 (p.computeTopCandidates cfg).1).refreshMajority
    1).refreshRound 1, r₀, (p.computeTopCandidates cfg).1, ⟨?_, ?_, fun c hc => ?_⟩, rfl,
    ⟨rfl, htied.inv, rfl, ?_, fun c hc => ?_⟩, hnil⟩
  · have hrelay₃ : s₃.relay = some (r₀.refreshSelectedRelayers 1 (p.computeTopCandidates cfg).1) := by
      rw [State.updateTopCandidates_relay h₃]
      show s₂.relay.bind (Strict.refreshSelectedRelayers · 1 (p.computeTopCandidates cfg).1) = _
      rw [htied.relay]
      exact hselect
    show (s₃.relay.map (·.refreshMajority 1)).map (·.refreshRound 1) = _
    rw [hrelay₃]
    rfl
  · refine ⟨⟨hinv.bonds.pairing, hinv.bonds.pool_le, hinv.bonds.selected_le⟩, ?_,
      fun r hr => hlater r (Nat.lt_trans Nat.one_pos hr)⟩
    rw [hnil]
    exact ⟨fun x hx => absurd hx List.not_mem_nil, List.nodup_nil⟩
  · show s₃.ledger.tier c = _
    rw [htier]
    exact htied.full c (hsame.bonded ▸ hc)
  · show s₃.selection.selectedFullCandidates = _
    rw [hsel]
    rfl
  · show s₃.ledger.tier c = _
    obtain ⟨x, hx, hfull⟩ := hq.full_tier c hc
    rw [htier, Ledger.tier_eq_standing]
    exact (congrArg (Option.map fun x => x.2.2) hx).trans (congrArg some hfull)

end Genesis

/-! ## Runs -/

section Runs

variable {cfg : Config AccountId} {replaceAuthority : Q → AccountId → AccountId → Q}
  {s s' : State AccountId (Option (Relayers AccountId Q))}
  {cond : State AccountId (Option (Relayers AccountId Q)) → Step AccountId (Act AccountId Q) → Prop}
  {leave : State AccountId (Relayers AccountId Q) → AccountId → Prop}
  {P : State AccountId (Relayers AccountId Q) → Prop}

/-- **Step lemma.**  The relay manager does not panic, and `P` is kept. -/
lemma networkStep_tied {i : Step AccountId (Act AccountId Q)} {r : Relayers AccountId Q}
    (hact : ∀ t r', P t → Relayers.Acted t.relay r' → P (withRelay t r'))
    (hshift : ∀ t t', P t → RelayInv t.relay → t.relay.round = t.now →
      Shift (Relayers.manager replaceAuthority) leave t t' → P t')
    (hs : StateInv cfg s)
    (hcond : (mapStep (fun a => s.relay.bind (·.act a)) i).Leaves (unlessPanicked leave) s)
    (h : networkStep cfg replaceAuthority s i = some s') (ht : Tied s r) (hr : r.round = s.now)
    (hP : P (withRelay s r)) : ∃ r', Tied s' r' ∧ r'.round = s'.now ∧ P (withRelay s' r') := by
  by_cases hrelay : ∃ a, i = .relay a
  · obtain ⟨a, rfl⟩ := hrelay
    obtain rfl := Option.some.inj h
    obtain ⟨t, hrun, hacted⟩ := Relayers.act_acted ht.inv a
    refine ⟨t, ⟨?_, hacted.inv, fun c hc => ?_⟩, hacted.round.trans hr, hact _ t hP hacted⟩
    · show s.relay.bind (·.act a) = some t
      rw [ht.relay]
      exact hrun
    · exact ht.full c (hacted.bonded ▸ hc)
  · refine Shifts.tied hshift (State.step_shifts hs hcond (fun state heq => hrelay ?_) h) ht hr hP
    cases i with
    | relay a => exact ⟨a, rfl⟩
    | _ => cases heq

/-- **Induction over runs of the network.**  The relay manager never panics, and what its acts and the
shifts keep holds. -/
lemma NetworkIf.induction
    (h0 : ∀ t r full, FirstRelayers t r full → P t)
    (hact : ∀ t r', P t → Relayers.Acted t.relay r' → P (withRelay t r'))
    (hshift : ∀ t t', P t → RelayInv t.relay → t.relay.round = t.now →
      Shift (Relayers.manager replaceAuthority) leave t t' → P t')
    (hcond : ∀ t i t', cond t i → networkStep cfg replaceAuthority t i = some t' → t' = t ∨
      (mapStep (fun a => t.relay.bind (·.act a)) i).Leaves (unlessPanicked leave) t)
    (h : NetworkIf cfg replaceAuthority cond s) :
    ∃ r, Tied s r ∧ r.round = s.now ∧ P (withRelay s r) := by
  have hboth : StateInv cfg s ∧ ∃ r, Tied s r ∧ r.round = s.now ∧ P (withRelay s r) := by
    refine Reachable.invariant (P := fun t => StateInv cfg t ∧ ∃ r, Tied t r ∧ r.round = t.now ∧
      P (withRelay t r)) (fun t ht => ?_) (fun t i t' ht hc hstep => ?_) h
    · obtain ⟨r, r₀, full, htied, hround, hfirst, -⟩ := ht.tied
      obtain ⟨g, -, hg⟩ := ht
      have hgenesis : IsGenesis cfg (Strict.manager replaceAuthority) t := ⟨g, hg⟩
      exact ⟨.of_empty hgenesis.founded.inv hgenesis.founded.sets, r, htied, hround,
        h0 _ r₀ full hfirst⟩
    · obtain ⟨hinv, r, htied, hround, hP⟩ := ht
      rcases hcond t i t' hc hstep with rfl | hleaves
      · exact ⟨hinv, r, htied, hround, hP⟩
      · exact ⟨(State.step_keeps hstep).inv hinv,
          networkStep_tied hact hshift hinv hleaves hstep htied hround hP⟩
  exact hboth.2

omit [LinearOrder AccountId] in
/-- Nobody is kept from leaving. -/
lemma leaves_true (t : State AccountId (Option (Relayers AccountId Q)))
    (i : Step AccountId (Option (Relayers AccountId Q))) :
    i.Leaves (unlessPanicked fun _ _ => True) t := by
  cases i with
  | call origin c =>
      cases origin with
      | signed who =>
          cases c with
          | executeLeaveCandidates count => exact fun _ _ _ _ => trivial
          | setValidatorTier more new relayer =>
              cases relayer with
              | none => exact fun _ _ _ _ => trivial
              | some x => exact trivial
          | _ => exact trivial
      | root => exact trivial
      | none => exact trivial
  | _ => exact trivial

/-- The relay manager is tied to the roster in every run. -/
lemma NetworkIf.tied (h : NetworkIf cfg replaceAuthority cond s) :
    ∃ r, Tied s r ∧ r.round = s.now := by
  obtain ⟨r, ht, hr, -⟩ := h.induction (P := fun _ => True) (fun _ _ _ _ => trivial)
    (fun _ _ _ _ => trivial) (fun _ _ _ _ _ _ => trivial) fun t i _ _ _ => .inr (leaves_true t _)
  exact ⟨r, ht, hr⟩

/-- **Relayers and controllers correspond**, in every run of the network: the three copies of a bond
agree, the pool has it once, and the controller is a full node.  The relay manager has not panicked. -/
theorem relayers_bonded (h : NetworkIf cfg replaceAuthority anyStep s) :
    ∃ r, s.relay = some r ∧ ∀ relayer controller,
      (r.bondedController.get controller = some relayer ↔
        ∃ st, r.relayerState.get relayer = some st ∧ st.controller = controller) ∧
      (r.bondedController.get controller = some relayer ↔
        ⟨relayer, controller⟩ ∈ r.relayerPool) ∧
      (r.bondedController.get controller = some relayer →
        r.relayerPool.count ⟨relayer, controller⟩ = 1 ∧
        ∃ m, s.ledger.candidateInfo.get controller = some m ∧ m.tier = .full) := by
  obtain ⟨r, ht, -⟩ := h.tied
  have hpairing := ht.inv.bonds.pairing
  have hinj : Function.Injective (Relayer.pair : Relayer AccountId → AccountId × AccountId) := by
    rintro ⟨a, b⟩ ⟨a', b'⟩ heq
    cases heq
    rfl
  have hmem : ∀ relayer controller, r.bondedController.get controller = some relayer ↔
      ⟨relayer, controller⟩ ∈ r.relayerPool := by
    intro relayer controller
    rw [← hpairing.symm, ← hpairing.mem]
    exact List.mem_map_of_injective hinj (a := ⟨relayer, controller⟩)
  refine ⟨r, ht.relay, fun relayer controller => ⟨?_, hmem relayer controller, fun hb => ⟨?_, ?_⟩⟩⟩
  · rw [← hpairing.symm, Relayers.controllerOf_eq_some]
  · exact List.count_eq_one_of_mem (List.Nodup.of_map _ hpairing.nodup) ((hmem _ _).mp hb)
  · have hfull := ht.full controller (by rw [hb]; simp)
    exact Option.map_eq_some_iff.mp hfull

/-- A relayer and its controller change in one round change. -/
theorem relayers_bonded_devnet : ∃ s r, NetworkIf devnet bridgeless anyStep s ∧
    s.relay = some r ∧ r.bondedController.get 4 = some 5 ∧ r.relayerPool.count ⟨5, 4⟩ = 1 := by
  have hrun : ((networkGenesis.build devnet (Strict.manager bridgeless)).bind fun s =>
      runSteps (checked (networkStep devnet bridgeless) anyStep) s
        [.call (.signed 1) (.setController 4), .relay (.setRelayer (.signed 2) 5),
          .newSession 20 2 [] fun _ => true]).any (fun s =>
        s.relay.any fun r => decide (r.bondedController.get 4 = some 5)) = true := by decide
  obtain ⟨s, hs, hbond⟩ := networkRun_exists hrun
  obtain ⟨r, hr, hall⟩ := relayers_bonded hs
  rw [hr, Option.any_some, decide_eq_true_eq] at hbond
  exact ⟨s, r, hs, hr, hbond, ((hall 5 4).2.2 hbond).1⟩

end Runs

end BifrostNode.Relay
