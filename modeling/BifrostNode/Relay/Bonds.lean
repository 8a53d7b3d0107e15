import BifrostNode.Lib.Pairing
import BifrostNode.Relay.Network
import BifrostNode.Staking.Shifts

/-!
# Relayers and their controllers

The bond of a relayer with its controller is stored three times: with the controller, with the relayer
and in the pool.  They agree in every run, every bonded controller is a full node, and so nothing that
the relay manager expects is missing: with its panics and without them it is the same relay manager.

What carries this through the delayed changes of relayers is that the new account of a pending change is
not a relayer, and of no other pending change.
-/

namespace BifrostNode.Relay

open Staking Transition

variable {AccountId Q : Type} [LinearOrder AccountId]

omit [LinearOrder AccountId] in
/-- The relayer and its controller. -/
def Relayer.pair (r : Relayer AccountId) : AccountId × AccountId := (r.relayer, r.controller)

/-- The controller that a relayer is bonded to. -/
def Relayers.controllerOf (s : Relayers AccountId Q) (relayer : AccountId) : Option AccountId :=
  (s.relayerState.get relayer).map RelayerMetadata.controller

/-- **The three copies of the bonds agree**, and the bounded collections are within their bounds. -/
structure Bonds (s : Relayers AccountId Q) : Prop where
  pairing : Pairing s.controllerOf s.bondedController.get (s.relayerPool.map Relayer.pair)
  pool_le : s.relayerPool.length ≤ maxAuthorities
  selected_le : s.selectedRelayers.card ≤ maxAuthorities

/-- Changes of relayers that are still to be made: to accounts that are not relayers, each of them
once. -/
structure Requests (s : Relayers AccountId Q) (sets : List (DelayedRelayerSet AccountId)) : Prop where
  unused : ∀ x ∈ sets, s.controllerOf x.new = none
  nodup : (sets.map DelayedRelayerSet.new).Nodup

structure RelayInv (s : Relayers AccountId Q) : Prop where
  bonds : Bonds s
  requests : Requests s s.relayerSets
  later : ∀ r, s.round < r → s.delayedRelayerSets.get r = none

/-- Neither the bonds nor what is pending changes. -/
structure SameBonds (s s' : Relayers AccountId Q) : Prop where
  bonded : s'.bondedController = s.bondedController
  controllerOf : s'.controllerOf = s.controllerOf
  pool : s'.relayerPool = s.relayerPool
  sets : s'.delayedRelayerSets = s.delayedRelayerSets
  round : s'.round = s.round

namespace SameBonds

variable {s s₁ s₂ : Relayers AccountId Q}

omit [LinearOrder AccountId] in
lemma refl (s : Relayers AccountId Q) : SameBonds s s := ⟨rfl, rfl, rfl, rfl, rfl⟩

omit [LinearOrder AccountId] in
lemma trans (h₁ : SameBonds s s₁) (h₂ : SameBonds s₁ s₂) : SameBonds s s₂ :=
  ⟨h₂.bonded.trans h₁.bonded, h₂.controllerOf.trans h₁.controllerOf, h₂.pool.trans h₁.pool,
    h₂.sets.trans h₁.sets, h₂.round.trans h₁.round⟩

omit [LinearOrder AccountId] in
lemma bonds (h : SameBonds s s₁) (hs : Bonds s) (hsel : s₁.selectedRelayers.card ≤ maxAuthorities) :
    Bonds s₁ := by
  refine ⟨?_, ?_, hsel⟩
  · rw [h.controllerOf, h.bonded, h.pool]
    exact hs.pairing
  · rw [h.pool]
    exact hs.pool_le

omit [LinearOrder AccountId] in
lemma requests (h : SameBonds s s₁) {sets : List (DelayedRelayerSet AccountId)}
    (hs : Requests s sets) : Requests s₁ sets := by
  refine ⟨fun x hx => ?_, hs.nodup⟩
  rw [h.controllerOf]
  exact hs.unused x hx

omit [LinearOrder AccountId] in
lemma inv (h : SameBonds s s₁) (hs : RelayInv s)
    (hsel : s₁.selectedRelayers.card ≤ maxAuthorities) : RelayInv s₁ := by
  refine ⟨h.bonds hs.bonds hsel, ?_, ?_⟩
  · rw [Relayers.relayerSets, h.sets, h.round]
    exact h.requests hs.requests
  · rw [h.sets, h.round]
    exact hs.later

end SameBonds

omit [LinearOrder AccountId] in
/-- Fewer changes. -/
lemma Requests.sublist {s : Relayers AccountId Q} {sets sets' : List (DelayedRelayerSet AccountId)}
    (h : Requests s sets) (hsub : sets'.Sublist sets) : Requests s sets' :=
  ⟨fun x hx => h.unused x (hsub.subset hx), h.nodup.sublist (hsub.map _)⟩

/-! ## States of relayers -/

namespace Relayers

variable {s s' : Relayers AccountId Q} {relayer controller old new c r : AccountId}
  {f : RelayerMetadata AccountId → RelayerMetadata AccountId}

omit [LinearOrder AccountId] in
lemma controllerOf_eq_some : s.controllerOf r = some c ↔
    ∃ st, s.relayerState.get r = some st ∧ st.controller = c := by
  rw [controllerOf, Option.map_eq_some_iff]

omit [LinearOrder AccountId] in
lemma controllerOf_eq_none : s.controllerOf r = none ↔ s.relayerState.get r = none := by
  rw [controllerOf, Option.map_eq_none_iff]

/-- A state is put in. -/
lemma controllerOf_insert {st : RelayerMetadata AccountId}
    (h : s'.relayerState = s.relayerState.insert r st) (hc : st.controller = c) :
    s'.controllerOf = Function.update s.controllerOf r (some c) := by
  subst hc
  funext k
  simp only [controllerOf, h, StorageMap.get_insert, Function.update_apply]
  split_ifs <;> rfl

lemma controllerOf_remove (h : s'.relayerState = s.relayerState.remove r) :
    s'.controllerOf = Function.update s.controllerOf r none := by
  funext k
  simp only [controllerOf, h, StorageMap.get_remove, Function.update_apply]
  split_ifs <;> rfl

/-- Only the state of the relayer is rewritten. -/
lemma modifyRelayer_frame (s : Relayers AccountId Q) (relayer : AccountId)
    (f : RelayerMetadata AccountId → RelayerMetadata AccountId) :
    ∃ m, s.modifyRelayer relayer f = { s with relayerState := m } := by
  rw [modifyRelayer]
  split
  · exact ⟨s.relayerState, rfl⟩
  · exact ⟨_, rfl⟩

lemma modifyRelayer_same (hf : ∀ st, (f st).controller = st.controller) :
    SameBonds s (s.modifyRelayer relayer f) := by
  rw [modifyRelayer]
  cases hst : s.relayerState.get relayer with
  | none => exact .refl s
  | some st =>
      have hcon : s.controllerOf relayer = some st.controller := controllerOf_eq_some.mpr ⟨st, hst, rfl⟩
      refine ⟨rfl, ?_, rfl, rfl, rfl⟩
      rw [controllerOf_insert rfl (hf st), ← hcon, Function.update_eq_self]

/-- The selected relayers, the majorities and what is cached of them stay as they are. -/
structure SameSeats (s s' : Relayers AccountId Q) : Prop where
  selected : s'.selectedRelayers = s.selectedRelayers
  initial : s'.initialSelectedRelayers = s.initialSelectedRelayers
  cached : s'.cachedSelectedRelayers = s.cachedSelectedRelayers
  majority : s'.majority = s.majority
  initialMajority : s'.initialMajority = s.initialMajority
  cachedMajority : s'.cachedMajority = s.cachedMajority

omit [LinearOrder AccountId] in
lemma SameSeats.refl (s : Relayers AccountId Q) : SameSeats s s := ⟨rfl, rfl, rfl, rfl, rfl, rfl⟩

omit [LinearOrder AccountId] in
lemma SameSeats.trans {s s₁ s₂ : Relayers AccountId Q} (h₁ : SameSeats s s₁) (h₂ : SameSeats s₁ s₂) :
    SameSeats s s₂ :=
  ⟨h₂.selected.trans h₁.selected, h₂.initial.trans h₁.initial, h₂.cached.trans h₁.cached,
    h₂.majority.trans h₁.majority, h₂.initialMajority.trans h₁.initialMajority,
    h₂.cachedMajority.trans h₁.cachedMajority⟩

lemma modifyRelayer_seats (s : Relayers AccountId Q) : SameSeats s (s.modifyRelayer relayer f) := by
  obtain ⟨m, hm⟩ := modifyRelayer_frame s relayer f
  rw [hm]
  exact ⟨rfl, rfl, rfl, rfl, rfl, rfl⟩

/-- **An `expect`** of the state of a relayer that is bonded. -/
lemma strict_modifyRelayer (hr : s.controllerOf relayer ≠ none) :
    Strict.modifyRelayer s relayer f = some (s.modifyRelayer relayer f) := by
  rw [Strict.modifyRelayer, modifyRelayer]
  cases hst : s.relayerState.get relayer with
  | none => exact absurd (controllerOf_eq_none.mpr hst) hr
  | some st => rfl

omit [LinearOrder AccountId] in
/-- What a controller is bonded to is a relayer. -/
lemma Bonds.controllerOf {s : Relayers AccountId Q} (h : Bonds s)
    (hc : s.bondedController.get controller = some relayer) :
    s.controllerOf relayer = some controller := (h.pairing.symm _ _).mpr hc

/-! ## Loops -/

/-- Only states of relayers are rewritten. -/
lemma refreshRelayerPool_frame (s : Relayers AccountId Q) :
    ∃ m, s.refreshRelayerPool = { s with relayerState := m } := by
  have hloop : ∀ (pool : List (Relayer AccountId)) (t : Relayers AccountId Q),
      (∃ m, t = { s with relayerState := m }) →
      ∃ m, pool.foldl (fun s r => s.modifyRelayer r.relayer fun state =>
        if state.isKickedOut then state else state.goOffline) t = { s with relayerState := m } := by
    intro pool
    induction pool with
    | nil => exact fun _ ht => ht
    | cons r pool ih =>
        rintro t ⟨m, rfl⟩
        refine ih _ ?_
        obtain ⟨m', hm'⟩ := modifyRelayer_frame { s with relayerState := m } r.relayer
          fun state => if state.isKickedOut then state else state.goOffline
        exact ⟨m', hm'⟩
  exact hloop s.relayerPool s ⟨s.relayerState, rfl⟩

/-- A relayer goes offline at the beginning of a round, unless it has been kicked out. -/
lemma strict_refreshRelayerPool (h : Bonds s) :
    Strict.refreshRelayerPool s = some s.refreshRelayerPool ∧ SameBonds s s.refreshRelayerPool := by
  refine foldlM_eq_some_foldl (P := SameBonds s) (fun r hr t ht => ?_) (.refl s)
  refine ⟨strict_modifyRelayer ?_, ht.trans (modifyRelayer_same fun st => ?_)⟩
  · have hpair : s.controllerOf r.relayer = some r.controller :=
      (h.pairing.mem _ _).mp (List.mem_map_of_mem hr)
    rw [ht.controllerOf, hpair]
    simp
  · split_ifs <;> rfl

/-- There are no more relayers than places in the pool. -/
lemma Bonds.card_le {s : Relayers AccountId Q} (h : Bonds s) {set : Finset AccountId}
    (hset : ∀ r ∈ set, s.controllerOf r ≠ none) : set.card ≤ maxAuthorities := by
  have hsub : set ⊆ ((s.relayerPool.map Relayer.pair).map Prod.fst).toFinset := by
    intro r hr
    obtain ⟨c, hc⟩ := Option.ne_none_iff_exists'.mp (hset r hr)
    rw [List.mem_toFinset, List.mem_map]
    exact ⟨(r, c), (h.pairing.mem _ _).mpr hc, rfl⟩
  calc set.card ≤ _ := Finset.card_le_card hsub
    _ ≤ ((s.relayerPool.map Relayer.pair).map Prod.fst).length := List.toFinset_card_le _
    _ = s.relayerPool.length := by rw [List.length_map, List.length_map]
    _ ≤ maxAuthorities := h.pool_le

/-- Between two turns of the loop: who has been selected so far is the relayer of one of the
controllers. -/
structure Selecting (s : Relayers AccountId Q) (controllers : List AccountId)
    (acc : Finset AccountId × Relayers AccountId Q) : Prop where
  same : SameBonds s acc.2
  chosen : ∀ r ∈ acc.1, ∃ c ∈ controllers, s.bondedController.get c = some r

/-- There is a place for each of them. -/
lemma Selecting.card_le {controllers : List AccountId} {acc : Finset AccountId × Relayers AccountId Q}
    (h : s.Selecting controllers acc) (hs : Bonds s) : acc.1.card ≤ maxAuthorities := by
  refine Bonds.card_le hs fun r hr => ?_
  obtain ⟨c, -, hc⟩ := h.chosen r hr
  rw [Bonds.controllerOf hs hc]
  simp

/-- The loop of `refresh_selected_relayers` keeps what the choice of one relayer keeps. -/
lemma selectRelayers_keeps {P : Finset AccountId × Relayers AccountId Q → Prop} (hstart : P (∅, s))
    (hchoose : ∀ selected t relayer, P (selected, t) →
      P (insert relayer selected, t.modifyRelayer relayer .goOnline))
    (controllers : List AccountId) : P (s.selectRelayers controllers) := by
  rw [selectRelayers]
  refine List.foldlRecOn (motive := P) controllers _ hstart fun acc hacc controller _ => ?_
  obtain ⟨selected, t⟩ := acc
  dsimp only
  split
  · exact hacc
  · exact hchoose selected t _ hacc

lemma strict_selectRelayers (h : Bonds s) (controllers : List AccountId) :
    controllers.foldlM Strict.selectRelayer (∅, s) = some (s.selectRelayers controllers) ∧
      s.Selecting controllers (s.selectRelayers controllers) := by
  refine foldlM_eq_some_foldl (P := s.Selecting controllers) (fun c hmem acc hacc => ?_)
    ⟨.refl s, fun r hr => absurd hr (Finset.notMem_empty r)⟩
  obtain ⟨selected, t⟩ := acc
  cases hc : t.bondedController.get c with
  | none =>
      simp only [Strict.selectRelayer, hc]
      exact ⟨trivial, hacc⟩
  | some r =>
      have hbond : s.bondedController.get c = some r := by rw [← hacc.same.bonded, hc]
      have hnext : s.Selecting controllers (insert r selected, t.modifyRelayer r .goOnline) := by
        refine ⟨hacc.same.trans (modifyRelayer_same fun _ => rfl), fun k hk => ?_⟩
        rcases Finset.mem_insert.mp hk with rfl | hk
        · exact ⟨c, hmem, hbond⟩
        · exact hacc.chosen k hk
      have hroom : Strict.tryInsert selected r = some (insert r selected) := by
        rw [Strict.tryInsert, if_pos]
        by_cases hin : r ∈ selected
        · exact Or.inl hin
        · have hcard := hnext.card_le h
          rw [Finset.card_insert_of_notMem hin] at hcard
          exact Or.inr hcard
      have hexpect : Strict.modifyRelayer t r .goOnline = some (t.modifyRelayer r .goOnline) := by
        refine strict_modifyRelayer ?_
        rw [hacc.same.controllerOf, Bonds.controllerOf h hbond]
        simp
      simp only [Strict.selectRelayer, hc, hroom, hexpect]
      exact ⟨rfl, hnext⟩

/-- **`refresh_selected_relayers`** does not panic, and leaves the bonds as they are. -/
lemma strict_refreshSelectedRelayers (h : Bonds s) (round : ℕ) (controllers : List AccountId) :
    Strict.refreshSelectedRelayers s round controllers =
        some (s.refreshSelectedRelayers round controllers) ∧
      SameBonds s (s.refreshSelectedRelayers round controllers) ∧
      (s.refreshSelectedRelayers round controllers).selectedRelayers.card ≤ maxAuthorities ∧
      ∀ r ∈ (s.refreshSelectedRelayers round controllers).selectedRelayers,
        ∃ c ∈ controllers, s.bondedController.get c = some r := by
  obtain ⟨hpool, hsame⟩ := strict_refreshRelayerPool h
  obtain ⟨m, hframe⟩ := refreshRelayerPool_frame s
  have hbonds : Bonds s.refreshRelayerPool := by
    refine hsame.bonds h ?_
    rw [hframe]
    exact h.selected_le
  obtain ⟨hselect, hsel⟩ := strict_selectRelayers hbonds controllers
  refine ⟨?_, ?_, ?_, ?_⟩
  · simp only [Strict.refreshSelectedRelayers, hpool, hselect, Option.bind_eq_bind, Option.bind_some]
    rfl
  · exact hsame.trans (hsel.same.trans ⟨rfl, rfl, rfl, rfl, rfl⟩)
  · exact hsel.card_le hbonds
  · intro r hr
    rw [← hsame.bonded]
    exact hsel.chosen r hr

/-- What `collect_heartbeats` does for one validator. -/
def heartbeatTurn (t : Relayers AccountId Q) (controller : AccountId) : Relayers AccountId Q :=
  match t.bondedController.get controller with
  | none => t
  | some relayer =>
      if t.isHeartbeatPulsed relayer then t else t.modifyRelayer relayer .goOffline

lemma heartbeatTurn_frame (s : Relayers AccountId Q) (c : AccountId) :
    ∃ m, s.heartbeatTurn c = { s with relayerState := m } := by
  rw [heartbeatTurn]
  split
  · exact ⟨s.relayerState, rfl⟩
  · split_ifs
    · exact ⟨s.relayerState, rfl⟩
    · exact modifyRelayer_frame s _ _

/-- **`collect_heartbeats`** does not panic. -/
lemma strict_collectHeartbeats (h : Bonds s) :
    Strict.collectHeartbeats s = some s.collectHeartbeats ∧ SameBonds s s.collectHeartbeats ∧
      SameSeats s s.collectHeartbeats := by
  obtain ⟨hloop, hsame, hseats⟩ : s.validators.foldlM Strict.collectHeartbeat s =
      some (s.validators.foldl heartbeatTurn s) ∧ SameBonds s (s.validators.foldl heartbeatTurn s) ∧
        SameSeats s (s.validators.foldl heartbeatTurn s) := by
    refine foldlM_eq_some_foldl (P := fun t => SameBonds s t ∧ SameSeats s t)
      (fun c _ t ht => ?_) ⟨.refl s, .refl s⟩
    cases hc : t.bondedController.get c with
    | none =>
        simp only [Strict.collectHeartbeat, heartbeatTurn, hc]
        exact ⟨trivial, ht⟩
    | some r =>
        have hbond : s.bondedController.get c = some r := by rw [← ht.1.bonded, hc]
        have hexpect : Strict.modifyRelayer t r .goOffline = some (t.modifyRelayer r .goOffline) := by
          refine strict_modifyRelayer ?_
          rw [ht.1.controllerOf, Bonds.controllerOf h hbond]
          simp
        simp only [Strict.collectHeartbeat, heartbeatTurn, hc]
        split_ifs
        · exact ⟨rfl, ht⟩
        · exact ⟨hexpect, ht.1.trans (modifyRelayer_same fun _ => rfl),
            ht.2.trans (modifyRelayer_seats t)⟩
  refine ⟨?_, hsame.trans ⟨rfl, rfl, rfl, rfl, rfl⟩, hseats.trans ⟨rfl, rfl, rfl, rfl, rfl, rfl⟩⟩
  rw [Strict.collectHeartbeats, hloop]
  rfl

/-- **`kickout_relayer`** does not panic, and leaves the bonds as they are. -/
lemma strict_kickoutRelayer (h : Bonds s) (controller : AccountId) :
    Strict.kickoutRelayer s controller = some (s.kickoutRelayer controller) ∧
      SameBonds s (s.kickoutRelayer controller) ∧
      (s.kickoutRelayer controller).selectedRelayers ⊆ s.selectedRelayers := by
  rw [Strict.kickoutRelayer, kickoutRelayer]
  cases hc : s.bondedController.get controller with
  | none => exact ⟨rfl, .refl s, Finset.Subset.refl _⟩
  | some relayer =>
      have hexpect : Strict.modifyRelayer s relayer .kickOut =
          some (s.modifyRelayer relayer .kickOut) := by
        refine strict_modifyRelayer ?_
        rw [Bonds.controllerOf h hc]
        simp
      have hsame : SameBonds s (s.modifyRelayer relayer .kickOut) := modifyRelayer_same fun _ => rfl
      obtain ⟨m, hframe⟩ := modifyRelayer_frame s relayer .kickOut
      simp only [hexpect, Option.bind_eq_bind, Option.bind_some, Option.pure_def]
      split_ifs
      · refine ⟨rfl, hsame.trans ⟨rfl, rfl, rfl, rfl, rfl⟩, ?_⟩
        rw [hframe]
        exact Finset.erase_subset _ _
      · refine ⟨rfl, hsame, ?_⟩
        rw [hframe]

/-! ## Bonds come and go -/

/-- What the pool loses when a relayer is removed from it. -/
lemma removeFromRelayerPool_pairs (s : Relayers AccountId Q) (acc : AccountId) :
    (s.removeFromRelayerPool acc true).2.relayerPool.map Relayer.pair =
      (s.relayerPool.map Relayer.pair).filter fun p => p.1 ≠ acc := by
  simp only [removeFromRelayerPool, if_true, List.filter_map]
  rfl

/-- And when a controller is. -/
lemma removeFromRelayerPool_pairs_snd (s : Relayers AccountId Q) (acc : AccountId) :
    (s.removeFromRelayerPool acc false).2.relayerPool.map Relayer.pair =
      (s.relayerPool.map Relayer.pair).filter fun p => p.2 ≠ acc := by
  simp only [removeFromRelayerPool, Bool.false_eq_true, if_false, List.filter_map]
  rfl

/-- What `join_relayers` checks and does. -/
lemma joinRelayers_ok (h : s.joinRelayers relayer controller = .ok s') :
    s.controllerOf relayer = none ∧ s.bondedController.get controller = none ∧
      (∀ x ∈ s.relayerSets, x.new ≠ relayer) ∧ s.relayerPool.length < maxAuthorities ∧
      s' = { s with
        relayerPool := s.relayerPool ++ [⟨relayer, controller⟩]
        relayerState := s.relayerState.insert relayer (.new controller)
        bondedController := s.bondedController.insert controller relayer } := by
  simp only [joinRelayers, verifyRelayerExistence, addToRelayerPool, isRelayer, bind_eq_ok,
    ensure_eq_ok, pure_eq_ok, exists_const] at h
  obtain ⟨⟨⟨⟩, hrelayer, hbonded, hsets⟩, s₁, ⟨hlen, rfl⟩, rfl⟩ := h
  refine ⟨?_, Option.isNone_iff_eq_none.mp hbonded, fun x hx => ?_, hlen, rfl⟩
  · rw [controllerOf_eq_none]
    simpa using hrelayer
  · simp only [Bool.not_eq_true', List.any_eq_false, decide_eq_true_eq] at hsets
    exact hsets x hx

/-- `join_relayers` keeps the bonds in order. -/
lemma joinRelayers_inv (hs : RelayInv s) (h : s.joinRelayers relayer controller = .ok s') :
    RelayInv s' := by
  obtain ⟨hrelayer, hbonded, hsets, hlen, rfl⟩ := joinRelayers_ok h
  let s₁ : Relayers AccountId Q := { s with
    relayerPool := s.relayerPool ++ [⟨relayer, controller⟩]
    relayerState := s.relayerState.insert relayer (.new controller)
    bondedController := s.bondedController.insert controller relayer }
  have hcon : s₁.controllerOf = Function.update s.controllerOf relayer (some controller) :=
    controllerOf_insert rfl rfl
  refine ⟨⟨?_, ?_, hs.bonds.selected_le⟩, ⟨fun x hx => ?_, hs.requests.nodup⟩, hs.later⟩
  · have hget : s₁.bondedController.get =
        Function.update s.bondedController.get controller (some relayer) := by
      funext k
      rw [Function.update_apply]
      exact StorageMap.get_insert _ _ _ _
    have hpairs : s₁.relayerPool.map Relayer.pair =
        s.relayerPool.map Relayer.pair ++ [(relayer, controller)] := by
      rw [List.map_append]
      rfl
    show Pairing s₁.controllerOf s₁.bondedController.get (s₁.relayerPool.map Relayer.pair)
    rw [hcon, hget, hpairs]
    exact hs.bonds.pairing.add hrelayer hbonded
  · show (s.relayerPool ++ [_]).length ≤ _
    rw [List.length_append, List.length_singleton]
    exact hlen
  · show s₁.controllerOf x.new = none
    rw [hcon, Function.update_of_ne (hsets x hx)]
    exact hs.requests.unused x hx

/-- `leave_relayers` keeps the bonds in order. -/
lemma leaveRelayers_inv (hs : RelayInv s) (controller : AccountId) :
    RelayInv (s.leaveRelayers controller) := by
  rw [leaveRelayers]
  cases hc : s.bondedController.get controller with
  | none => exact hs
  | some relayer =>
      let s₁ : Relayers AccountId Q := { s with
        bondedController := s.bondedController.remove controller }
      let s₂ : Relayers AccountId Q := (s₁.removeFromRelayerPool relayer true).2
      let s₃ : Relayers AccountId Q := { s₂ with relayerState := s₂.relayerState.remove relayer }
      have hcon : s₃.controllerOf = Function.update s.controllerOf relayer none :=
        controllerOf_remove rfl
      have hget : s₃.bondedController.get =
          Function.update s.bondedController.get controller none := by
        funext k
        rw [Function.update_apply]
        exact StorageMap.get_remove _ _ _
      refine ⟨⟨?_, ?_, hs.bonds.selected_le⟩, ⟨fun x hx => ?_, hs.requests.nodup⟩, hs.later⟩
      · show Pairing s₃.controllerOf s₃.bondedController.get (s₃.relayerPool.map Relayer.pair)
        rw [hcon, hget]
        exact s₁.removeFromRelayerPool_pairs relayer ▸
          hs.bonds.pairing.remove (Bonds.controllerOf hs.bonds hc)
      · exact (List.length_filter_le _ _).trans hs.bonds.pool_le
      · show s₃.controllerOf x.new = none
        rw [hcon, Function.update_apply]
        split_ifs
        · rfl
        · exact hs.requests.unused x hx

/-- **A bond is replaced by another one**, of the same relayer or of the same controller. -/
lemma Bonds.rebond {s s' : Relayers AccountId Q} {relayer controller relayer' controller' : AccountId}
    (hs : Bonds s) (hold : s.controllerOf relayer = some controller)
    (hrelayer : relayer' = relayer ∨ s.controllerOf relayer' = none)
    (hcontroller : controller' = controller ∨ s.bondedController.get controller' = none)
    (hcon : s'.controllerOf =
      Function.update (Function.update s.controllerOf relayer none) relayer' (some controller'))
    (hget : s'.bondedController.get = Function.update
      (Function.update s.bondedController.get controller none) controller' (some relayer'))
    (hpool : s'.relayerPool.map Relayer.pair =
      ((s.relayerPool.map Relayer.pair).filter fun p => p.1 ≠ relayer) ++ [(relayer', controller')])
    (hsel : s'.selectedRelayers.card ≤ maxAuthorities) : Bonds s' := by
  have hremoved := hs.pairing.remove hold
  refine ⟨?_, ?_, hsel⟩
  · rw [hcon, hget, hpool]
    refine hremoved.add ?_ ?_
    · rw [Function.update_apply]
      split_ifs with heq
      · rfl
      · exact hrelayer.resolve_left heq
    · rw [Function.update_apply]
      split_ifs with heq
      · rfl
      · exact hcontroller.resolve_left heq
  · have hlt := hs.pairing.length_filter_lt hold
    have hlen : s'.relayerPool.length =
        ((s.relayerPool.map Relayer.pair).filter fun p => p.1 ≠ relayer).length + 1 := by
      rw [← List.length_map (f := Relayer.pair), hpool, List.length_append, List.length_singleton]
    rw [List.length_map] at hlt
    have hle := hs.pool_le
    omega

/-- There is a place in the pool once a bond has been removed from it. -/
lemma addToRelayerPool_removed {s t : Relayers AccountId Q} (hs : Bonds s)
    (hold : s.controllerOf relayer = some controller)
    (hpool : t.relayerPool.map Relayer.pair =
      (s.relayerPool.map Relayer.pair).filter fun p => p.1 ≠ relayer) :
    (t.addToRelayerPool r c).toOption =
      some { t with relayerPool := t.relayerPool ++ [⟨r, c⟩] } := by
  have hlt := hs.pairing.length_filter_lt hold
  rw [← hpool, List.length_map, List.length_map] at hlt
  rw [addToRelayerPool, ensure_pos (hlt.trans_le hs.pool_le)]
  rfl

/-- The seats and the round of `leave_relayers`. -/
lemma leaveRelayers_seats (s : Relayers AccountId Q) (controller : AccountId) :
    SameSeats s (s.leaveRelayers controller) ∧ (s.leaveRelayers controller).round = s.round := by
  rw [leaveRelayers]
  split
  · exact ⟨.refl s, rfl⟩
  · exact ⟨⟨rfl, rfl, rfl, rfl, rfl, rfl⟩, rfl⟩

/-- The seats and the round of `replace_bonded_controller`. -/
lemma replaceBondedController_seats (s : Relayers AccountId Q) (old new : AccountId) :
    SameSeats s (s.replaceBondedController old new) ∧
      (s.replaceBondedController old new).round = s.round := by
  rw [replaceBondedController]
  split
  · exact ⟨.refl s, rfl⟩
  · rename_i relayer _
    obtain ⟨m, hframe⟩ := modifyRelayer_frame
      { s with bondedController := (s.bondedController.remove old).insert new relayer } relayer
      fun state => { state with controller := new }
    simp only [hframe]
    exact ⟨⟨rfl, rfl, rfl, rfl, rfl, rfl⟩, rfl⟩

/-- **`replace_bonded_controller`** does not panic when the new controller has no bond. -/
lemma strict_replaceBondedController (old : AccountId) (hs : RelayInv s)
    (hnew : s.bondedController.get new = none) :
    Strict.replaceBondedController s old new = some (s.replaceBondedController old new) ∧
      RelayInv (s.replaceBondedController old new) := by
  rw [Strict.replaceBondedController, replaceBondedController]
  cases hc : s.bondedController.get old with
  | none => exact ⟨rfl, hs⟩
  | some relayer =>
      have hcon : s.controllerOf relayer = some old := Bonds.controllerOf hs.bonds hc
      obtain ⟨st, hst, -⟩ := controllerOf_eq_some.mp hcon
      let s₁ : Relayers AccountId Q := { s with
        bondedController := (s.bondedController.remove old).insert new relayer
        relayerState := s.relayerState.insert relayer { st with controller := new } }
      let s₂ : Relayers AccountId Q := (s₁.removeFromRelayerPool old false).2
      let s₃ : Relayers AccountId Q := { s₂ with relayerPool := s₂.relayerPool ++ [⟨relayer, new⟩] }
      have hpool : s₂.relayerPool.map Relayer.pair =
          (s.relayerPool.map Relayer.pair).filter fun p => p.1 ≠ relayer := by
        rw [hs.bonds.pairing.filter_fst_eq hcon]
        exact s₁.removeFromRelayerPool_pairs_snd old
      have hcon' : s₃.controllerOf = Function.update s.controllerOf relayer (some new) :=
        controllerOf_insert rfl rfl
      have hbonds : Bonds s₃ := by
        refine Bonds.rebond hs.bonds hcon (Or.inl rfl) (Or.inr hnew) ?_ ?_ ?_ hs.bonds.selected_le
        · rw [hcon', Function.update_idem]
        · funext k
          simp only [Function.update_apply]
          exact (StorageMap.get_insert _ _ _ _).trans (by rw [StorageMap.get_remove])
        · rw [List.map_append, hpool]
          rfl
      have hstrict : (Strict.modifyRelayer { s with
          bondedController := (s.bondedController.remove old).insert new relayer } relayer
          fun state => { state with controller := new }) = some s₁ := by
        simp only [Strict.modifyRelayer, hst]
        rfl
      have hplain : (({ s with
          bondedController := (s.bondedController.remove old).insert new relayer } :
          Relayers AccountId Q).modifyRelayer relayer
          fun state => { state with controller := new }) = s₁ := by
        simp only [modifyRelayer, hst]
        rfl
      simp only [hstrict, hplain, Option.bind_eq_bind, Option.bind_some]
      refine ⟨addToRelayerPool_removed hs.bonds hcon hpool, hbonds,
        ⟨fun x hx => ?_, hs.requests.nodup⟩, hs.later⟩
      have hunused := hs.requests.unused x hx
      have hne : x.new ≠ relayer := by
        intro heq
        rw [heq, hcon] at hunused
        cases hunused
      show s₃.controllerOf x.new = none
      rw [hcon', Function.update_of_ne hne]
      exact hunused

/-! ## Replacing a relayer -/

/-- Other relayers stay relayers and other accounts stay what they are; nothing pending changes. -/
structure Replaced (new : AccountId) (s s' : Relayers AccountId Q) : Prop where
  bonds : Bonds s'
  others : ∀ k, k ≠ new → s.controllerOf k = none → s'.controllerOf k = none
  bonded : ∀ c, s'.bondedController.get c = none ↔ s.bondedController.get c = none
  sets : s'.delayedRelayerSets = s.delayedRelayerSets
  round : s'.round = s.round

omit [LinearOrder AccountId] in
lemma Replaced.refl (hs : Bonds s) : Replaced new s s :=
  ⟨hs, fun _ _ hk => hk, fun _ => Iff.rfl, rfl, rfl⟩

/-- `replace_selected_relayers` finds a place in the selected set. -/
lemma strict_replaceSelectedRelayers (s : Relayers AccountId Q) (old new : AccountId)
    (hsel : s.selectedRelayers.card ≤ maxAuthorities) :
    Strict.replaceSelectedRelayers s old new = some (s.replaceSelectedRelayers old new) ∧
      (s.replaceSelectedRelayers old new).selectedRelayers.card ≤ maxAuthorities ∧
      SameBonds s (s.replaceSelectedRelayers old new) := by
  rw [Strict.replaceSelectedRelayers, replaceSelectedRelayers]
  split_ifs with hold
  · have hlt : (s.selectedRelayers.erase old).card < maxAuthorities :=
      (Finset.card_erase_lt_of_mem hold).trans_le hsel
    have hroom : Strict.tryInsert (s.selectedRelayers.erase old) new =
        some (insert new (s.selectedRelayers.erase old)) := if_pos (Or.inr hlt)
    refine ⟨?_, ?_, ⟨rfl, rfl, rfl, rfl, rfl⟩⟩
    · rw [hroom]
      rfl
    · exact (Finset.card_insert_le _ _).trans hlt
  · exact ⟨rfl, hsel, .refl s⟩

/-- **`replace_bonded_relayer`** does not panic when the new account is not a relayer. -/
lemma strict_replaceBondedRelayer (old : AccountId) (hs : Bonds s)
    (hnew : s.controllerOf new = none) :
    Strict.replaceBondedRelayer s old new = some (s.replaceBondedRelayer old new) ∧
      Replaced new s (s.replaceBondedRelayer old new).2 := by
  rw [Strict.replaceBondedRelayer, replaceBondedRelayer]
  cases hst : s.relayerState.get old with
  | none => exact ⟨rfl, .refl hs⟩
  | some state =>
      have hcon : s.controllerOf old = some state.controller :=
        controllerOf_eq_some.mpr ⟨state, hst, rfl⟩
      have hget : s.bondedController.get state.controller = some old :=
        (hs.pairing.symm _ _).mp hcon
      let s₁ : Relayers AccountId Q := { s with
        bondedController := s.bondedController.insert state.controller new
        relayerState := (s.relayerState.remove old).insert new state }
      let s₂ : Relayers AccountId Q := (s₁.removeFromRelayerPool old true).2
      let s₃ : Relayers AccountId Q :=
        { s₂ with relayerPool := s₂.relayerPool ++ [⟨new, state.controller⟩] }
      have hpool : s₂.relayerPool.map Relayer.pair =
          (s.relayerPool.map Relayer.pair).filter fun p => p.1 ≠ old :=
        s₁.removeFromRelayerPool_pairs old
      have hremoved : (s₁.removeFromRelayerPool old true).1 = true := by
        have hlt := hs.pairing.length_filter_lt hcon
        rw [← hpool, List.length_map, List.length_map] at hlt
        exact decide_eq_true hlt
      have hcon₃ : s₃.controllerOf = Function.update (Function.update s.controllerOf old none) new
          (some state.controller) := by
        funext k
        simp only [controllerOf, Function.update_apply]
        show (((s.relayerState.remove old).insert new state).get k).map _ = _
        rw [StorageMap.get_insert, StorageMap.get_remove]
        split_ifs <;> rfl
      have hbonds : Bonds s₃ := by
        refine Bonds.rebond hs hcon (Or.inr hnew) (Or.inl rfl) hcon₃ ?_ ?_ hs.selected_le
        · funext k
          rw [Function.update_idem, Function.update_apply]
          exact StorageMap.get_insert _ _ _ _
        · rw [List.map_append, hpool]
          rfl
      obtain ⟨hstrict, hcard, hsame⟩ :=
        s₃.strict_replaceSelectedRelayers old new hbonds.selected_le
      have hplain : s₁.replaceRelayerPool old new state.controller = s₃ := by
        rw [replaceRelayerPool]
        exact if_pos hremoved
      have hexpect : Strict.replaceRelayerPool s₁ old new state.controller = some s₃ := by
        rw [Strict.replaceRelayerPool]
        exact (if_pos hremoved).trans (addToRelayerPool_removed hs hcon hpool)
      show (Strict.replaceRelayerPool s₁ old new state.controller).bind (fun t =>
          (Strict.replaceSelectedRelayers t old new).bind fun t => some (true, t)) =
          some (true, (s₁.replaceRelayerPool old new state.controller).replaceSelectedRelayers old new) ∧
        Replaced new s
          ((s₁.replaceRelayerPool old new state.controller).replaceSelectedRelayers old new)
      rw [hplain, hexpect, Option.bind_some, hstrict, Option.bind_some]
      refine ⟨rfl, hsame.bonds hbonds hcard, fun k hk hnone => ?_, fun c => ?_, hsame.sets,
        hsame.round⟩
      · rw [hsame.controllerOf, hcon₃, Function.update_of_ne hk, Function.update_apply]
        split_ifs
        · rfl
        · exact hnone
      · rw [hsame.bonded]
        show (s.bondedController.insert state.controller new).get c = none ↔ _
        rw [StorageMap.get_insert]
        split_ifs with hc
        · rw [hc, hget]
          simp
        · rfl

/-- The relay executive has nothing to do with the bonds. -/
lemma replaceMember_same (s : Relayers AccountId Q) (old new : AccountId) :
    SameBonds s (s.replaceMember old new) ∧
      (s.replaceMember old new).selectedRelayers = s.selectedRelayers := by
  rw [replaceMember]
  split
  · exact ⟨⟨rfl, rfl, rfl, rfl, rfl⟩, rfl⟩
  · exact ⟨.refl s, rfl⟩

/-- **One request**: the bridge pallets and the relay executive follow. -/
lemma strict_applyRelayerSet (replaceAuthority : Q → AccountId → AccountId → Q) (hs : Bonds s)
    {x : DelayedRelayerSet AccountId} (hnew : s.controllerOf x.new = none) :
    Strict.applyRelayerSet replaceAuthority s x = some (s.applyRelayerSet replaceAuthority x) ∧
      Replaced x.new s (s.applyRelayerSet replaceAuthority x) := by
  obtain ⟨hstrict, hreplaced⟩ := strict_replaceBondedRelayer x.old hs hnew
  rw [Strict.applyRelayerSet, applyRelayerSet, hstrict, Option.bind_eq_bind, Option.bind_some]
  revert hreplaced
  rcases s.replaceBondedRelayer x.old x.new with ⟨replaced, t⟩
  intro hreplaced
  cases replaced with
  | false => exact ⟨rfl, hreplaced⟩
  | true =>
      let t₁ : Relayers AccountId Q := { t with queues := replaceAuthority t.queues x.old x.new }
      obtain ⟨hsame, hsel⟩ := t₁.replaceMember_same x.old x.new
      have hqueues : SameBonds t t₁ := ⟨rfl, rfl, rfl, rfl, rfl⟩
      replace hsame : SameBonds t (t₁.replaceMember x.old x.new) := hqueues.trans hsame
      refine ⟨rfl, hsame.bonds hreplaced.bonds ?_, fun k hk hnone => ?_, fun c => ?_,
        hsame.sets.trans hreplaced.sets, hsame.round.trans hreplaced.round⟩
      · rw [hsel]
        exact hreplaced.bonds.selected_le
      · show (t₁.replaceMember x.old x.new).controllerOf k = none
        rw [hsame.controllerOf]
        exact hreplaced.others k hk hnone
      · show (t₁.replaceMember x.old x.new).bondedController.get c = none ↔ _
        rw [hsame.bonded]
        exact hreplaced.bonded c

/-- **The requests of a round**, one after the other. -/
lemma strict_applyRelayerSets (replaceAuthority : Q → AccountId → AccountId → Q) :
    ∀ {sets : List (DelayedRelayerSet AccountId)} {s : Relayers AccountId Q}, Bonds s →
      Requests s sets →
      sets.foldlM (Strict.applyRelayerSet replaceAuthority) s =
          some (sets.foldl (applyRelayerSet replaceAuthority) s) ∧
        Bonds (sets.foldl (applyRelayerSet replaceAuthority) s) ∧
        (∀ c, (sets.foldl (applyRelayerSet replaceAuthority) s).bondedController.get c = none ↔
          s.bondedController.get c = none) ∧
        (sets.foldl (applyRelayerSet replaceAuthority) s).delayedRelayerSets = s.delayedRelayerSets ∧
        (sets.foldl (applyRelayerSet replaceAuthority) s).round = s.round := by
  intro sets
  induction sets with
  | nil =>
      intro s hs _
      exact ⟨rfl, hs, fun _ => Iff.rfl, rfl, rfl⟩
  | cons x sets ih =>
      intro s hs hreq
      obtain ⟨hstrict, hrep⟩ :=
        strict_applyRelayerSet replaceAuthority hs (hreq.unused x List.mem_cons_self)
      have hnodup := hreq.nodup
      rw [List.map_cons, List.nodup_cons] at hnodup
      -- the other new accounts are still no relayers
      have hrest : Requests (s.applyRelayerSet replaceAuthority x) sets := by
        refine ⟨fun y hy => hrep.others y.new ?_ (hreq.unused y (List.mem_cons_of_mem _ hy)), hnodup.2⟩
        intro heq
        exact hnodup.1 (heq ▸ List.mem_map_of_mem hy)
      obtain ⟨hloop, hbonds, hbonded, hsets, hround⟩ := ih hrep.bonds hrest
      rw [List.foldlM_cons, hstrict, List.foldl_cons]
      exact ⟨hloop, hbonds, fun c => (hbonded c).trans (hrep.bonded c), hsets.trans hrep.sets,
        hround.trans hrep.round⟩

/-- **A new round**: the requests of the last one are applied, and nothing is pending after that. -/
lemma strict_handleDelayedRelayerSets (replaceAuthority : Q → AccountId → AccountId → Q)
    (hs : RelayInv s) :
    Strict.handleDelayedRelayerSets (s.refreshRound (s.round + 1)) replaceAuthority (s.round + 1) =
        some ((s.refreshRound (s.round + 1)).handleDelayedRelayerSets replaceAuthority (s.round + 1)) ∧
      RelayInv ((s.refreshRound (s.round + 1)).handleDelayedRelayerSets replaceAuthority
        (s.round + 1)) ∧
      (∀ c, ((s.refreshRound (s.round + 1)).handleDelayedRelayerSets replaceAuthority
        (s.round + 1)).bondedController.get c = none ↔ s.bondedController.get c = none) ∧
      ((s.refreshRound (s.round + 1)).handleDelayedRelayerSets replaceAuthority (s.round + 1)).round =
        s.round + 1 := by
  let s₁ : Relayers AccountId Q := { s.refreshRound (s.round + 1) with
    delayedRelayerSets := s.delayedRelayerSets.remove (s.round + 1 - 1) }
  have hbonds : Bonds s₁ := ⟨hs.bonds.pairing, hs.bonds.pool_le, hs.bonds.selected_le⟩
  have hreq : Requests s₁ (s.delayedRelayerSets.getD (s.round + 1 - 1) []) := by
    rw [Nat.add_sub_cancel]
    exact ⟨hs.requests.unused, hs.requests.nodup⟩
  obtain ⟨hstrict, hbonds', hbonded, hsets, hround⟩ :=
    strict_applyRelayerSets replaceAuthority hbonds hreq
  have hlater : ∀ r, s.round < r → s₁.delayedRelayerSets.get r = none := by
    intro r hr
    show (s.delayedRelayerSets.remove _).get r = none
    rw [StorageMap.get_remove, hs.later r hr]
    split_ifs <;> rfl
  refine ⟨hstrict, ⟨hbonds', ?_, fun r hr => ?_⟩, hbonded, hround⟩
  · have hnil : ((s.refreshRound (s.round + 1)).handleDelayedRelayerSets replaceAuthority
        (s.round + 1)).relayerSets = [] := by
      rw [relayerSets, handleDelayedRelayerSets]
      refine (congrArg₂ (fun m r => StorageMap.getD m r []) hsets hround).trans ?_
      rw [StorageMap.getD, show s₁.round = s.round + 1 from rfl, hlater _ (Nat.lt_succ_self _)]
      rfl
    rw [hnil]
    exact ⟨fun x hx => absurd hx List.not_mem_nil, List.nodup_nil⟩
  · rw [handleDelayedRelayerSets] at hr ⊢
    have hlt : s.round < r := Nat.lt_of_succ_lt (lt_of_eq_of_lt hround.symm hr)
    exact (congrArg (fun m => StorageMap.get m r) hsets).trans (hlater r hlt)

/-! ## What the relay manager does by itself -/

/-- The relay manager by itself changes what is pending, and neither bonds nor seats. -/
structure Acted (s s' : Relayers AccountId Q) : Prop where
  inv : RelayInv s'
  bonded : s'.bondedController = s.bondedController
  controllerOf : s'.controllerOf = s.controllerOf
  round : s'.round = s.round
  seats : SameSeats s s'

omit [LinearOrder AccountId] in
lemma Acted.of_same (hs : RelayInv s) (hbonds : SameBonds s s') (hseats : SameSeats s s') :
    Acted s s' := by
  refine ⟨hbonds.inv hs ?_, hbonds.bonded, hbonds.controllerOf, hbonds.round, hseats⟩
  rw [hseats.selected]
  exact hs.bonds.selected_le

omit [LinearOrder AccountId] in
/-- Other requests for the current round. -/
lemma Acted.of_requests {sets : List (DelayedRelayerSet AccountId)} (hs : RelayInv s)
    (hreq : Requests s sets) :
    Acted s { s with delayedRelayerSets := s.delayedRelayerSets.insert s.round sets } := by
  refine ⟨⟨⟨hs.bonds.pairing, hs.bonds.pool_le, hs.bonds.selected_le⟩, ?_, fun r hr => ?_⟩, rfl, rfl,
    rfl, ⟨rfl, rfl, rfl, rfl, rfl, rfl⟩⟩
  · simp only [relayerSets, StorageMap.getD, StorageMap.get_insert_self, Option.getD_some]
    exact ⟨hreq.unused, hreq.nodup⟩
  · exact (StorageMap.get_insert_of_ne _ (ne_of_gt hr) _).trans (hs.later r hr)

/-- `set_relayer`: one more request. -/
lemma setRelayer_acted (hs : RelayInv s) (h : s.setRelayer controller new = .ok s') : Acted s s' := by
  simp only [setRelayer, addToRelayerSets, isRelayer, bind_eq_ok, okOr_eq_ok, ensure_eq_ok,
    pure_eq_ok, exists_const] at h
  obtain ⟨old, -, -, ⟨⟩, -, ⟨⟩, hnew, -, hsets, -, rfl⟩ := h
  have hunused : s.controllerOf new = none := by
    rw [controllerOf_eq_none]
    simpa using hnew
  simp only [Bool.not_eq_true', List.any_eq_false, decide_eq_true_eq, not_or] at hsets
  refine .of_requests hs ⟨fun x hx => ?_, ?_⟩
  · rcases List.mem_append.mp hx with hx | hx
    · exact hs.requests.unused x hx
    · rw [List.mem_singleton.mp hx]
      exact hunused
  · rw [List.map_append, List.nodup_append]
    refine ⟨hs.requests.nodup, List.nodup_singleton _, ?_⟩
    rintro a ha b hb rfl
    obtain ⟨x, hx, rfl⟩ := List.mem_map.mp ha
    exact (hsets x hx).2 (List.mem_singleton.mp hb)

/-- `cancel_relayer_set`: fewer requests. -/
lemma cancelRelayerSet_acted (hs : RelayInv s) (h : s.cancelRelayerSet controller = .ok s') :
    Acted s s' := by
  simp only [cancelRelayerSet, bind_eq_ok, okOr_eq_ok, ensure_eq_ok, pure_eq_ok, exists_const] at h
  obtain ⟨relayer, -, -, rfl⟩ := h
  exact .of_requests hs (hs.requests.sublist List.filter_sublist)

/-- **`heartbeat`** does not panic: it has checked that the relayer exists. -/
lemma strict_heartbeat {versions : Option (ℕ × BitVec 256)} {o : Option (Relayers AccountId Q)}
    (h : Strict.heartbeat s relayer versions = .ok o) :
    ∃ t, o = some t ∧ SameBonds s t ∧ SameSeats s t := by
  simp only [Strict.heartbeat, bind_eq_ok, ensure_eq_ok, exists_const] at h
  obtain ⟨hrelayer, -, h⟩ := h
  split_ifs at h
  · obtain rfl := pure_eq_ok.mp h
    exact ⟨s, rfl, .refl s, .refl s⟩
  · obtain rfl := pure_eq_ok.mp h
    let s₁ : Relayers AccountId Q := { s with
      receivedHeartbeats := s.receivedHeartbeats.insert (s.sessionIndex, relayer) true }
    have hcon : s₁.controllerOf relayer ≠ none := by
      show s.controllerOf relayer ≠ none
      rw [Ne, controllerOf_eq_none]
      simpa [isRelayer, Option.isSome_iff_ne_none] using hrelayer
    have hbonds : SameBonds s s₁ := ⟨rfl, rfl, rfl, rfl, rfl⟩
    have hseats : SameSeats s s₁ := ⟨rfl, rfl, rfl, rfl, rfl, rfl⟩
    refine ⟨_, strict_modifyRelayer hcon, hbonds.trans (modifyRelayer_same fun st => ?_),
      hseats.trans (modifyRelayer_seats s₁)⟩
    rcases versions with _ | ⟨i, v⟩ <;> rfl

/-- The acts that neither make nor cancel a request leave bonds, requests and seats as they are. -/
lemma act_same (s : Relayers AccountId Q) {a : Act AccountId Q}
    (hset : ∀ origin n, a ≠ .setRelayer origin n) (hcancel : ∀ origin, a ≠ .cancelRelayerSet origin) :
    ∃ t, s.act a = some t ∧ SameBonds s t ∧ SameSeats s t := by
  let same (t : Relayers AccountId Q) : Prop := SameBonds s t ∧ SameSeats s t
  have hstay : same s := ⟨.refl s, .refl s⟩
  cases a with
  | setRelayer origin n => exact absurd rfl (hset origin n)
  | cancelRelayerSet origin => exact absurd rfl (hcancel origin)
  | setStorageCacheLifetime origin n =>
      refine ⟨_, rfl, commit_induction (P := same) hstay fun t ht => ?_⟩
      simp only [setStorageCacheLifetime, bind_eq_ok, ensure_eq_ok, pure_eq_ok, exists_const] at ht
      obtain ⟨-, -, -, rfl⟩ := ht
      exact ⟨⟨rfl, rfl, rfl, rfl, rfl⟩, ⟨rfl, rfl, rfl, rfl, rfl, rfl⟩⟩
  | setHeartbeatOffenceActivation origin b =>
      refine ⟨_, rfl, commit_induction (P := same) hstay fun t ht => ?_⟩
      simp only [setHeartbeatOffenceActivation, bind_eq_ok, ensure_eq_ok, pure_eq_ok,
        exists_const] at ht
      obtain ⟨-, -, rfl⟩ := ht
      exact ⟨⟨rfl, rfl, rfl, rfl, rfl⟩, ⟨rfl, rfl, rfl, rfl, rfl, rfl⟩⟩
  | setHeartbeatSlashFraction origin p =>
      refine ⟨_, rfl, commit_induction (P := same) hstay fun t ht => ?_⟩
      simp only [setHeartbeatSlashFraction, bind_eq_ok, ensure_eq_ok, pure_eq_ok, exists_const] at ht
      obtain ⟨-, -, rfl⟩ := ht
      exact ⟨⟨rfl, rfl, rfl, rfl, rfl⟩, ⟨rfl, rfl, rfl, rfl, rfl, rfl⟩⟩
  | heartbeat origin versions =>
      refine commit_induction (P := fun o => ∃ t, o = some t ∧ same t) ⟨s, rfl, hstay⟩
        fun o ho => ?_
      obtain ⟨who, -, ho⟩ := bind_eq_ok.mp ho
      exact strict_heartbeat ho
  | membership members prime =>
      exact ⟨_, rfl, ⟨rfl, rfl, rfl, rfl, rfl⟩, ⟨rfl, rfl, rfl, rfl, rfl, rfl⟩⟩
  | session validators index =>
      exact ⟨_, rfl, ⟨rfl, rfl, rfl, rfl, rfl⟩, ⟨rfl, rfl, rfl, rfl, rfl, rfl⟩⟩
  | bridge queues =>
      exact ⟨_, rfl, ⟨rfl, rfl, rfl, rfl, rfl⟩, ⟨rfl, rfl, rfl, rfl, rfl, rfl⟩⟩

/-- **Whatever the relay manager does by itself** does not panic, and keeps bonds and seats. -/
lemma act_acted (hs : RelayInv s) (a : Act AccountId Q) : ∃ t, s.act a = some t ∧ Acted s t := by
  have hstay : Acted s s := .of_same hs (.refl s) (.refl s)
  have hother (b : Act AccountId Q) (hset : ∀ origin n, b ≠ .setRelayer origin n)
      (hcancel : ∀ origin, b ≠ .cancelRelayerSet origin) : ∃ t, s.act b = some t ∧ Acted s t := by
    obtain ⟨t, ht, hbonds, hseats⟩ := s.act_same hset hcancel
    exact ⟨t, ht, .of_same hs hbonds hseats⟩
  cases a with
  | setRelayer origin n =>
      refine ⟨_, rfl, commit_induction (P := Acted s) hstay fun t ht => ?_⟩
      obtain ⟨who, -, ht⟩ := bind_eq_ok.mp ht
      exact setRelayer_acted hs ht
  | cancelRelayerSet origin =>
      refine ⟨_, rfl, commit_induction (P := Acted s) hstay fun t ht => ?_⟩
      obtain ⟨who, -, ht⟩ := bind_eq_ok.mp ht
      exact cancelRelayerSet_acted hs ht
  | _ =>
      exact hother _ (by simp) (by simp)

end Relayers

end BifrostNode.Relay
