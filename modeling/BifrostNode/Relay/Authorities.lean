import BifrostNode.Relay.Driver

/-!
# The selected relayers

* **The majority** is that of the selected relayers, and the caches of the round repeat both, in every
  run.
* **Authorities** are bonded to selected full nodes as long as no selected relayer leaves: unlike
  `kickout_relayer`, `leave_relayers` does not touch the selected set.
-/

namespace BifrostNode.Relay

open Staking Transition

variable {AccountId Q : Type} [LinearOrder AccountId]

/-! ## Seats -/

namespace Relayers

variable {s : Relayers AccountId Q} {controller relayer old new : AccountId}

/-- The majorities and the caches say what the selected set says. -/
structure Counted (s : Relayers AccountId Q) : Prop where
  majority : s.majority = s.selectedRelayers.card / 2 + 1
  cachedMajority : s.cachedMajority.get s.round = some s.majority
  cachedSelected : s.cachedSelectedRelayers.get s.round = some s.selectedRelayers
  initial : s.initialMajority = s.initialSelectedRelayers.card / 2 + 1

omit [LinearOrder AccountId] in
lemma Counted.of_seats {s s' : Relayers AccountId Q} (h : Counted s) (hseats : SameSeats s s')
    (hround : s'.round = s.round) : Counted s' := by
  refine ⟨?_, ?_, ?_, ?_⟩
  · rw [hseats.majority, hseats.selected]
    exact h.majority
  · rw [hseats.cachedMajority, hseats.majority, hround]
    exact h.cachedMajority
  · rw [hseats.cached, hseats.selected, hround]
    exact h.cachedSelected
  · rw [hseats.initialMajority, hseats.initial]
    exact h.initial

/-- **`kickout_relayer`** counts again. -/
lemma Counted.kickoutRelayer (h : Counted s) (controller : AccountId) :
    Counted (s.kickoutRelayer controller) := by
  rw [Relayers.kickoutRelayer]
  cases hc : s.bondedController.get controller with
  | none => exact h
  | some relayer =>
      obtain ⟨m, hframe⟩ := modifyRelayer_frame s relayer .kickOut
      simp only [hframe]
      split_ifs
      · exact ⟨rfl, StorageMap.get_insert_self _ _ _, StorageMap.get_insert_self _ _ _, h.initial⟩
      · exact ⟨h.majority, h.cachedMajority, h.cachedSelected, h.initial⟩

/-- **A selection** is counted in the round that it is made for. -/
lemma Counted.select (s : Relayers AccountId Q) (controllers : List AccountId) {round : ℕ}
    (hround : (s.refreshSelectedRelayers round controllers).round = round) :
    Counted ((s.refreshSelectedRelayers round controllers).refreshMajority round) := by
  refine ⟨rfl, ?_, ?_, rfl⟩
  · show StorageMap.get _ (s.refreshSelectedRelayers round controllers).round = _
    rw [hround]
    exact StorageMap.get_insert_self _ _ _
  · show StorageMap.get _ (s.refreshSelectedRelayers round controllers).round = _
    rw [hround]
    exact StorageMap.get_insert_self _ _ _

/-- Who is kicked out loses its seat. -/
lemma kickoutRelayer_selected (hc : s.bondedController.get controller = some relayer) :
    (s.kickoutRelayer controller).selectedRelayers = s.selectedRelayers.erase relayer := by
  obtain ⟨m, hframe⟩ := modifyRelayer_frame s relayer .kickOut
  simp only [kickoutRelayer, hc, hframe]
  split_ifs with hmem
  · rfl
  · exact (Finset.erase_eq_of_notMem hmem).symm

/-- The bonds of the relayers after `leave_relayers`. -/
lemma leaveRelayers_controllerOf (hc : s.bondedController.get controller = some relayer) :
    (s.leaveRelayers controller).controllerOf = Function.update s.controllerOf relayer none := by
  simp only [leaveRelayers, hc]
  exact controllerOf_remove rfl

/-- The bonds of the relayers after `replace_bonded_controller`. -/
lemma replaceBondedController_controllerOf (hs : Bonds s)
    (hc : s.bondedController.get old = some relayer) :
    (s.replaceBondedController old new).controllerOf =
      Function.update s.controllerOf relayer (some new) := by
  obtain ⟨st, hst, -⟩ := controllerOf_eq_some.mp (Bonds.controllerOf hs hc)
  simp only [replaceBondedController, hc, modifyRelayer, hst]
  exact controllerOf_insert rfl rfl

end Relayers

/-! ## The majority -/

section Majority

variable {cfg : Config AccountId} {replaceAuthority : Q → AccountId → AccountId → Q}
  {s : State AccountId (Option (Relayers AccountId Q))}
  {leave : State AccountId (Relayers AccountId Q) → AccountId → Prop}
  {t t' : State AccountId (Relayers AccountId Q)}

/-- Joining through the trait is `join_relayers`, or nothing without a relayer. -/
lemma Relayers.manager_joined {r r' : Relayers AccountId Q} {relayer : Option AccountId}
    {c : AccountId}
    (h : State.joinedRelay (Relayers.manager replaceAuthority) r relayer c = .ok r') :
    r' = r ∨ ∃ x, relayer = some x ∧ r.joinRelayers x c = .ok r' := by
  cases relayer with
  | none => exact Or.inl (pure_eq_ok.mp h).symm
  | some x =>
      refine Or.inr ⟨x, rfl, ?_⟩
      replace h : (r.joinRelayers x c).mapError (fun _ => Staking.Error.relayManager) = .ok r' := h
      cases hres : r.joinRelayers x c with
      | error e =>
          rw [hres] at h
          cases h
      | ok r₁ =>
          rw [hres] at h
          exact congrArg _ (Except.ok.inj h)

/-- **The seats of a round** are given by the last selection: what a shift does to them. -/
lemma Shift.counted (hinv : RelayInv t.relay) (hround : t.relay.round = t.now)
    (h : Shift (Relayers.manager replaceAuthority) leave t t') (ht : t.relay.Counted) :
    t'.relay.Counted := by
  cases h with
  | idle _ hrelay => exact hrelay ▸ ht
  | joined c relayer _ _ hrelay =>
      rcases Relayers.manager_joined hrelay with hsame | ⟨x, -, hjoin⟩
      · exact hsame ▸ ht
      · obtain ⟨-, -, -, -, heq⟩ := Relayers.joinRelayers_ok hjoin
        rw [heq]
        exact ⟨ht.majority, ht.cachedMajority, ht.cachedSelected, ht.initial⟩
  | left c _ _ _ _ hrelay =>
      obtain ⟨hseats, hsame⟩ := t.relay.leaveRelayers_seats c
      exact hrelay ▸ ht.of_seats hseats hsame
  | dropped c _ _ hrelay _ =>
      rw [hrelay]
      split_ifs
      · exact ht.kickoutRelayer c
      · exact ht
  | heartbeats _ hrelay =>
      obtain ⟨-, hsame, hseats⟩ := Relayers.strict_collectHeartbeats hinv.bonds
      exact hrelay ▸ ht.of_seats hseats hsame.round
  | chosen full _ _ _ hnow hrelay =>
      obtain ⟨-, hinv₁, -, hround₁⟩ :=
        Relayers.strict_handleDelayedRelayerSets replaceAuthority hinv
      rw [hround, ← hnow] at hinv₁ hround₁
      obtain ⟨-, hsame, -⟩ := Relayers.strict_refreshSelectedRelayers hinv₁.bonds t'.now full
      exact hrelay ▸ Relayers.Counted.select _ full (hsame.round.trans hround₁)
  | @renamed old new tier _ _ _ _ hrelay _ =>
      rw [hrelay]
      split_ifs
      · obtain ⟨hseats, hsame⟩ := t.relay.replaceBondedController_seats old new
        exact ht.of_seats hseats hsame
      · exact ht

/-- **The majority of the relayers** is that of the selected ones in every run, and the caches of the
round repeat both. -/
theorem relayer_majority_agrees (h : NetworkIf cfg replaceAuthority anyStep s) :
    ∃ r, s.relay = some r ∧ r.majority = r.selectedRelayers.card / 2 + 1 ∧
      r.cachedMajority.get r.round = some r.majority ∧
      r.cachedSelectedRelayers.get r.round = some r.selectedRelayers ∧
      r.initialMajority = r.initialSelectedRelayers.card / 2 + 1 := by
  have hfirst : ∀ (t : State AccountId (Relayers AccountId Q)) r full, FirstRelayers t r full →
      t.relay.Counted := by
    intro t r full hfirst
    rw [hfirst.relay]
    exact ⟨rfl, StorageMap.get_insert_self _ _ _, StorageMap.get_insert_self _ _ _, rfl⟩
  obtain ⟨r, ht, -, hcounted⟩ := h.induction hfirst
    (fun t r' ht hacted => ht.of_seats hacted.seats hacted.round)
    (fun t t' ht hinv hround hshift => Shift.counted hinv hround hshift ht)
    fun t i _ _ _ => .inr (leaves_true t _)
  exact ⟨r, ht.relay, hcounted.majority, hcounted.cachedMajority, hcounted.cachedSelected,
    hcounted.initial⟩

/-- The majority of the two first relayers, after one of them has gone offline. -/
theorem relayer_majority_agrees_devnet : ∃ s r, NetworkIf devnet bridgeless anyStep s ∧
    s.relay = some r ∧ r.selectedRelayers = {13} ∧ r.majority = 1 := by
  have hrun : ((networkGenesis.build devnet (Strict.manager bridgeless)).bind fun s =>
      runSteps (checked (networkStep devnet bridgeless) anyStep) s
        [.call (.signed 2) .goOffline]).any (fun s =>
        s.relay.any fun r => decide (r.selectedRelayers = {13})) = true := by decide
  obtain ⟨s, hs, hsel⟩ := networkRun_exists hrun
  obtain ⟨r, hr, hmajority, -⟩ := relayer_majority_agrees hs
  rw [hr, Option.any_some, decide_eq_true_eq] at hsel
  refine ⟨s, r, hs, hr, hsel, ?_⟩
  rw [hmajority, hsel]
  rfl

end Majority

/-! ## Authorities -/

section Authorities

variable {cfg : Config AccountId} {replaceAuthority : Q → AccountId → AccountId → Q}
  {s : State AccountId (Option (Relayers AccountId Q))}
  {t t' : State AccountId (Relayers AccountId Q)}

/-- Every selected relayer is bonded to a selected full node. -/
def Seated (t : State AccountId (Relayers AccountId Q)) : Prop :=
  ∀ a ∈ t.relay.selectedRelayers, ∃ c, t.relay.controllerOf a = some c ∧
    t.ledger.tier c = some .full ∧ c ∈ t.selection.selectedFullCandidates

/-- The relayer of the controller is not selected. -/
def Unseated (t : State AccountId (Relayers AccountId Q)) (c : AccountId) : Prop :=
  ∀ a, t.relay.bondedController.get c = some a → a ∉ t.relay.selectedRelayers

omit [LinearOrder AccountId] in
/-- Other relayers have other controllers. -/
lemma Bonds.controller_ne {r : Relayers AccountId Q} (h : Bonds r) {a b c : AccountId} {k : AccountId}
    (ha : r.controllerOf a = some k) (hb : r.bondedController.get c = some b) (hne : a ≠ b) :
    k ≠ c := by
  rintro rfl
  rw [h.pairing.symm, hb] at ha
  exact hne (Option.some.inj ha).symm

omit [LinearOrder AccountId] in
/-- Somebody without a bond is no controller. -/
lemma Bonds.controller_ne_of_none {r : Relayers AccountId Q} (h : Bonds r) {a c k : AccountId}
    (ha : r.controllerOf a = some k) (hc : r.bondedController.get c = none) : k ≠ c := by
  rintro rfl
  rw [h.pairing.symm, hc] at ha
  cases ha

omit [LinearOrder AccountId] in
/-- A selected relayer keeps a selected full node as its controller. -/
lemma Seated.of_stays (ht : Seated t)
    (hsub : ∀ a ∈ t'.relay.selectedRelayers, a ∈ t.relay.selectedRelayers)
    (hstays : ∀ a k, a ∈ t'.relay.selectedRelayers → t.relay.controllerOf a = some k →
      t.ledger.tier k = some .full → k ∈ t.selection.selectedFullCandidates →
      ∃ c, t'.relay.controllerOf a = some c ∧ t'.ledger.tier c = some .full ∧
        c ∈ t'.selection.selectedFullCandidates) : Seated t' := by
  intro a ha
  obtain ⟨k, hk, hfull, hmem⟩ := ht a (hsub a ha)
  exact hstays a k ha hk hfull hmem

/-- Somebody joins. -/
lemma Seated.joined {c : AccountId} {relayer : Option AccountId} {tier : Option TierType}
    (ht : Seated t) (hold : t.ledger.tier c ≠ some .full) (htier : Retiers c tier t t')
    (hrelay : State.joinedRelay (Relayers.manager replaceAuthority) t.relay relayer c =
      .ok t'.relay) : Seated t' := by
  have hseats : t'.relay.selectedRelayers = t.relay.selectedRelayers ∧
      ∀ a, t.relay.controllerOf a ≠ none → t'.relay.controllerOf a = t.relay.controllerOf a := by
    rcases Relayers.manager_joined hrelay with hsame | ⟨x, -, hjoin⟩
    · rw [hsame]
      exact ⟨rfl, fun _ _ => rfl⟩
    · obtain ⟨hx, -, -, -, heq⟩ := Relayers.joinRelayers_ok hjoin
      have hcon : t'.relay.controllerOf = Function.update t.relay.controllerOf x (some c) := by
        rw [heq]
        exact Relayers.controllerOf_insert rfl rfl
      refine ⟨by rw [heq], fun a ha => ?_⟩
      rw [hcon, Function.update_of_ne]
      rintro rfl
      exact ha hx
  refine ht.of_stays (fun a ha => hseats.1 ▸ ha) fun a k ha hk hfull hmem => ⟨k, ?_, ?_, ?_⟩
  · rw [hseats.2 a (by rw [hk]; simp), hk]
  · have hne : k ≠ c := by
      rintro rfl
      exact hold hfull
    rw [htier.tier, Function.update_of_ne hne, hfull]
  · rw [htier.full]
    exact hmem

/-- Somebody leaves whose relayer is not selected. -/
lemma Seated.left {c : AccountId} {tier : Option TierType} (ht : Seated t) (hinv : RelayInv t.relay)
    (hleave : Unseated t c) (htier : Retiers c tier t t')
    (hrelay : t'.relay = t.relay.leaveRelayers c) : Seated t' := by
  have hsel : t'.relay.selectedRelayers = t.relay.selectedRelayers := by
    rw [hrelay]
    exact (t.relay.leaveRelayers_seats c).1.selected
  refine ht.of_stays (fun a ha => hsel ▸ ha) fun a k ha hk hfull hmem => ?_
  rw [hsel] at ha
  have hboth : t'.relay.controllerOf a = some k ∧ k ≠ c := by
    rw [hrelay]
    cases hc : t.relay.bondedController.get c with
    | none =>
        have hstay : t.relay.leaveRelayers c = t.relay := by
          simp only [Relayers.leaveRelayers, hc]
        rw [hstay]
        exact ⟨hk, Bonds.controller_ne_of_none hinv.bonds hk hc⟩
    | some x =>
        have hax : a ≠ x := by
          rintro rfl
          exact hleave a hc ha
        rw [Relayers.leaveRelayers_controllerOf hc, Function.update_of_ne hax]
        exact ⟨hk, Bonds.controller_ne hinv.bonds hk hc hax⟩
  refine ⟨k, hboth.1, ?_, ?_⟩
  · rw [htier.tier, Function.update_of_ne hboth.2, hfull]
  · rw [htier.full]
    exact hmem

/-- A full node is taken out of the selected set, and its relayer with it. -/
lemma Seated.dropped {c : AccountId} (ht : Seated t) (hinv : RelayInv t.relay)
    (htier : t'.ledger.tier = t.ledger.tier)
    (hfull : t'.selection.selectedFullCandidates = t.selection.selectedFullCandidates.erase c)
    (hrelay : t'.relay = t.relay.kickoutRelayer c) : Seated t' := by
  obtain ⟨-, hsame, hsub⟩ := Relayers.strict_kickoutRelayer hinv.bonds c
  refine ht.of_stays (fun a ha => hsub (hrelay ▸ ha)) fun a k ha hk hk_full hmem => ⟨k, ?_, ?_, ?_⟩
  · rw [hrelay, hsame.controllerOf, hk]
  · rw [htier, hk_full]
  · rw [hfull, Finset.mem_erase]
    refine ⟨?_, hmem⟩
    cases hc : t.relay.bondedController.get c with
    | none => exact Bonds.controller_ne_of_none hinv.bonds hk hc
    | some x =>
        rw [hrelay, Relayers.kickoutRelayer_selected hc, Finset.mem_erase] at ha
        exact Bonds.controller_ne hinv.bonds hk hc ha.1

/-- A controller changes. -/
lemma Seated.renamed {old new : AccountId} {tier : TierType} (ht : Seated t)
    (hinv : RelayInv t.relay) (hold : t.ledger.tier old = some tier)
    (hfree : t.ledger.tier new = none)
    (htier : ∀ k, t'.ledger.tier k =
      if k = new then some tier else if k = old then none else t.ledger.tier k)
    (hfull : t'.selection.selectedFullCandidates =
      if old ∈ t.selection.selectedFullCandidates then
        insert new (t.selection.selectedFullCandidates.erase old)
      else t.selection.selectedFullCandidates)
    (hrelay : t'.relay =
      if tier = .full then t.relay.replaceBondedController old new else t.relay) : Seated t' := by
  have hsel : t'.relay.selectedRelayers = t.relay.selectedRelayers := by
    rw [hrelay]
    split_ifs
    · exact (t.relay.replaceBondedController_seats old new).1.selected
    · rfl
  refine ht.of_stays (fun a ha => hsel ▸ ha) fun a k ha hk hk_full hmem => ?_
  have hknew : k ≠ new := by
    rintro rfl
    rw [hfree] at hk_full
    cases hk_full
  by_cases hkold : k = old
  · -- the controller of this relayer
    subst hkold
    have htier_full : tier = .full := by
      rw [hold] at hk_full
      exact Option.some.inj hk_full
    have hbond : t.relay.bondedController.get k = some a := (hinv.bonds.pairing.symm _ _).mp hk
    refine ⟨new, ?_, ?_, ?_⟩
    · rw [hrelay, if_pos htier_full, Relayers.replaceBondedController_controllerOf hinv.bonds hbond,
        Function.update_self]
    · rw [htier, if_pos rfl, htier_full]
    · rw [hfull, if_pos hmem]
      exact Finset.mem_insert_self _ _
  · refine ⟨k, ?_, ?_, ?_⟩
    · rw [hrelay]
      split_ifs
      · cases hc : t.relay.bondedController.get old with
        | none =>
            have hstay : t.relay.replaceBondedController old new = t.relay := by
              simp only [Relayers.replaceBondedController, hc]
            rw [hstay, hk]
        | some x =>
            have hax : a ≠ x := by
              rintro rfl
              rw [Relayers.Bonds.controllerOf hinv.bonds hc] at hk
              exact hkold (Option.some.inj hk).symm
            rw [Relayers.replaceBondedController_controllerOf hinv.bonds hc,
              Function.update_of_ne hax, hk]
      · exact hk
    · rw [htier, if_neg hknew, if_neg hkold, hk_full]
    · rw [hfull]
      split_ifs
      · exact Finset.mem_insert_of_mem (Finset.mem_erase.mpr ⟨hkold, hmem⟩)
      · exact hmem

/-- **A shift** leaves every selected relayer seated, if whoever leaves has no selected relayer. -/
lemma Shift.seated (hinv : RelayInv t.relay) (hround : t.relay.round = t.now)
    (h : Shift (Relayers.manager replaceAuthority) Unseated t t') (ht : Seated t) : Seated t' := by
  cases h with
  | idle hstill hrelay =>
      refine ht.of_stays (fun a ha => hrelay ▸ ha) fun a k ha hk hfull hmem => ⟨k, ?_, ?_, ?_⟩
      · rw [hrelay, hk]
      · rw [hstill.tier, hfull]
      · rw [hstill.full]
        exact hmem
  | joined c relayer hold htier hrelay => exact ht.joined hold htier hrelay
  | left c tier hleave _ htier hrelay => exact ht.left hinv hleave htier hrelay
  | dropped c htier hfull hrelay _ =>
      by_cases hkind : t.ledger.tier c = some .full
      · rw [if_pos hkind] at hfull hrelay
        exact ht.dropped hinv htier hfull hrelay
      · rw [if_neg hkind] at hfull hrelay
        intro a ha
        rw [htier, hfull]
        rw [hrelay] at ha ⊢
        exact ht a ha
  | heartbeats hstill hrelay =>
      obtain ⟨-, hsame, hseats⟩ := Relayers.strict_collectHeartbeats hinv.bonds
      replace hrelay : t'.relay = t.relay.collectHeartbeats := hrelay
      rw [← hrelay] at hsame hseats
      refine ht.of_stays (fun a ha => hseats.selected ▸ ha) fun a k ha hk hfull hmem => ⟨k, ?_, ?_, ?_⟩
      · rw [hsame.controllerOf, hk]
      · rw [hstill.tier, hfull]
      · rw [hstill.full]
        exact hmem
  | chosen full htier hkind hfull hnow hrelay =>
      intro a ha
      obtain ⟨-, hinv₁, -, -⟩ := Relayers.strict_handleDelayedRelayerSets replaceAuthority hinv
      rw [hround, ← hnow] at hinv₁
      obtain ⟨-, hsame, -, hchosen⟩ := Relayers.strict_refreshSelectedRelayers hinv₁.bonds t'.now full
      rw [hrelay] at ha ⊢
      obtain ⟨c, hc, hbond⟩ := hchosen a ha
      refine ⟨c, ?_, ?_, ?_⟩
      · exact (congrFun hsame.controllerOf a).trans (Relayers.Bonds.controllerOf hinv₁.bonds hbond)
      · rw [htier]
        exact hkind c hc
      · rw [hfull]
        exact List.mem_toFinset.mpr hc
  | renamed hold hfree htier hfull hrelay _ =>
      exact ht.renamed hinv hold hfree htier hfull hrelay

/-- The relayer of the stash's controller is an authority. -/
def hasAuthority (s : State AccountId (Option (Relayers AccountId Q))) (stash : AccountId) : Bool :=
  (s.ledger.bondedStash.get stash).any fun c => s.relay.any fun r =>
    (r.bondedController.get c).any r.isAuthority

/-- Nobody whose relayer is an authority succeeds to exit or to become a basic node. -/
def KeepsAuthorities (cfg : Config AccountId) (replaceAuthority : Q → AccountId → AccountId → Q)
    (s : State AccountId (Option (Relayers AccountId Q))) : Step AccountId (Act AccountId Q) → Prop
  | .call (.signed stash) (.executeLeaveCandidates count) =>
      IfOk (s.executeLeaveCandidates (Strict.manager replaceAuthority) stash count)
        (hasAuthority s stash = false)
  | .call (.signed stash) (.setValidatorTier more new none) =>
      IfOk (s.setValidatorTier cfg (Strict.manager replaceAuthority) stash more new none)
        (hasAuthority s stash = false)
  | _ => True

instance (cfg : Config AccountId) (replaceAuthority : Q → AccountId → AccountId → Q)
    (s : State AccountId (Option (Relayers AccountId Q))) (i : Step AccountId (Act AccountId Q)) :
    Decidable (KeepsAuthorities cfg replaceAuthority s i) := by
  unfold KeepsAuthorities
  split <;> infer_instance

lemma unseated_of_hasAuthority {stash c : AccountId} (h : hasAuthority s stash = false)
    (hc : s.ledger.bondedStash.get stash = some c) : unlessPanicked Unseated s c := by
  intro r hr a ha
  simp only [hasAuthority, hc, hr, Option.any_some] at h
  replace ha : r.bondedController.get c = some a := ha
  rw [ha, Option.any_some, Relayers.isAuthority, decide_eq_false_iff_not] at h
  exact h

/-- A step that keeps the authorities changes nothing, or only lets go whoever has no authority. -/
lemma leaves_unseated {i : Step AccountId (Act AccountId Q)}
    (h : KeepsAuthorities cfg replaceAuthority s i)
    (hstep : networkStep cfg replaceAuthority s i = some s') : s' = s ∨
      (mapStep (fun a => s.relay.bind (·.act a)) i).Leaves (unlessPanicked Unseated) s := by
  cases i with
  | call origin c =>
      cases origin with
      | signed who =>
          cases c with
          | executeLeaveCandidates count =>
              obtain rfl := Option.some.inj hstep
              exact (IfOk.same_or h).imp id fun hno _ hc => unseated_of_hasAuthority hno hc
          | setValidatorTier more new relayer =>
              cases relayer with
              | none =>
                  obtain rfl := Option.some.inj hstep
                  exact (IfOk.same_or h).imp id fun hno _ hc => unseated_of_hasAuthority hno hc
              | some x => exact .inr trivial
          | _ => exact .inr trivial
      | root => exact .inr trivial
      | none => exact .inr trivial
  | _ => exact .inr trivial

/-- **Authorities are bonded relayers** of selected full nodes, along runs in which no controller whose
relayer is an authority exits or becomes a basic node. -/
theorem authorities_bonded (h : NetworkIf cfg replaceAuthority (KeepsAuthorities cfg replaceAuthority) s) :
    ∃ r, s.relay = some r ∧ ∀ a, r.isAuthority a = true →
      ∃ st m, r.relayerState.get a = some st ∧
        s.ledger.candidateInfo.get st.controller = some m ∧ m.tier = .full ∧
        st.controller ∈ s.selection.selectedFullCandidates := by
  have hfirst : ∀ (t : State AccountId (Relayers AccountId Q)) r full, FirstRelayers t r full →
      Seated t := by
    intro t r full hfirst a ha
    obtain ⟨-, hsame, -, hchosen⟩ := Relayers.strict_refreshSelectedRelayers hfirst.inv.bonds 1 full
    rw [hfirst.relay] at ha ⊢
    obtain ⟨c, hc, hbond⟩ := hchosen a ha
    refine ⟨c, ?_, hfirst.kind c hc, ?_⟩
    · exact (congrFun hsame.controllerOf a).trans (Relayers.Bonds.controllerOf hfirst.inv.bonds hbond)
    · rw [hfirst.selected]
      exact List.mem_toFinset.mpr hc
  have hacts : ∀ (t : State AccountId (Relayers AccountId Q)) r', Seated t →
      Relayers.Acted t.relay r' → Seated (withRelay t r') := by
    intro t r' ht hacted a ha
    obtain ⟨c, hc, hrest⟩ := ht a (hacted.seats.selected ▸ ha)
    exact ⟨c, (congrFun hacted.controllerOf a).trans hc, hrest⟩
  obtain ⟨r, ht, -, hseated⟩ := h.induction hfirst hacts
    (fun t t' ht hinv hround hshift => Shift.seated hinv hround hshift ht)
    fun t i t' hi hstep => leaves_unseated hi hstep
  refine ⟨r, ht.relay, fun a ha => ?_⟩
  obtain ⟨c, hc, hfull, hmem⟩ := hseated a (of_decide_eq_true ha)
  obtain ⟨st, hst, rfl⟩ := Relayers.controllerOf_eq_some.mp hc
  obtain ⟨m, hm, htier⟩ := Option.map_eq_some_iff.mp hfull
  exact ⟨st, m, hst, hm, htier, hmem⟩

/-- A relayer of the small network changes its account in the round that begins, and a new candidate
becomes a basic node before its relayer is chosen. -/
theorem authorities_bonded_devnet : ∃ s r,
    NetworkIf devnet bridgeless (KeepsAuthorities devnet bridgeless) s ∧
    s.relay = some r ∧ r.isAuthority 5 = true ∧ ∃ st, r.relayerState.get 5 = some st ∧
      st.controller ∈ s.selection.selectedFullCandidates := by
  have hrun : ((networkGenesis.build devnet (Strict.manager bridgeless)).bind fun s =>
      runSteps (checked (networkStep devnet bridgeless) (KeepsAuthorities devnet bridgeless)) s
        [.relay (.setRelayer (.signed 2) 5), .call (.signed 21) (.joinCandidates 22 (some 23) 1000 2),
          .call (.signed 21) (.setValidatorTier 0 .basic none),
          .newSession 20 2 [] fun _ => true]).any (fun s =>
        s.relay.any fun r => r.isAuthority 5) = true := by decide
  obtain ⟨s, hs, hauthority⟩ := networkRun_exists hrun
  obtain ⟨r, hr, hall⟩ := authorities_bonded hs
  rw [hr, Option.any_some] at hauthority
  obtain ⟨st, m, hst, -, -, hmem⟩ := hall 5 hauthority
  exact ⟨s, r, hs, hr, hauthority, st, hst, hmem⟩

/-- A full node of the small network becomes a basic node: its relayer is not a relayer any more, and
still an authority. -/
theorem authority_not_bonded : ∃ s, NetworkIf devnet bridgeless anyStep s ∧
    ¬ ∃ r, s.relay = some r ∧ ∀ a, r.isAuthority a = true →
      ∃ st m, r.relayerState.get a = some st ∧
        s.ledger.candidateInfo.get st.controller = some m ∧ m.tier = .full ∧
        st.controller ∈ s.selection.selectedFullCandidates := by
  have hrun : ((networkGenesis.build devnet (Strict.manager bridgeless)).bind fun s =>
      runSteps (checked (networkStep devnet bridgeless) anyStep) s
        [.call (.signed 1) (.setValidatorTier 0 .basic none)]).any (fun s =>
        s.relay.any fun r => r.isAuthority 3 && (r.relayerState.get 3).isNone) = true := by decide
  obtain ⟨s, hs, hleft⟩ := networkRun_exists hrun
  refine ⟨s, hs, ?_⟩
  rintro ⟨r, hr, hall⟩
  rw [hr, Option.any_some, Bool.and_eq_true, Option.isNone_iff_eq_none] at hleft
  obtain ⟨st, m, hst, -⟩ := hall 3 hleft.1
  rw [hleft.2] at hst
  cases hst

end Authorities

end BifrostNode.Relay
