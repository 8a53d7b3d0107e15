import BifrostNode.Relay.Authorities
import BifrostNode.Staking.PayoutSpec

/-!
# Whose request a change of relayer is

A request to change a relayer is stored under the relayer, without the controller that has made it.
So the requests are written down here as they are made, each with its controller, and what
`handle_delayed_relayer_sets` replaces is compared with that record.

* **Whoever takes over a relayer** while a request for it is pending gets the request with it:
  `leave_relayers` does not remove it, and `join_relayers` only looks at the new accounts of requests.
* **Otherwise** every replacement is of the controller that has asked for it.
-/

namespace BifrostNode.Relay

open Staking Transition

variable {AccountId Q : Type} [LinearOrder AccountId]

/-! ## Replacements -/

namespace Relayers

/-- What a list of requests replaces, with the controller that each relayer is bonded to when its turn
comes. -/
def replacements (replaceAuthority : Q → AccountId → AccountId → Q) :
    Relayers AccountId Q → List (DelayedRelayerSet AccountId) →
      List (DelayedRelayerSet AccountId × AccountId)
  | _, [] => []
  | s, x :: sets =>
      ((s.controllerOf x.old).map fun controller => (x, controller)).toList ++
        replacements replaceAuthority (s.applyRelayerSet replaceAuthority x) sets

/-- What `handle_delayed_relayer_sets` replaces. -/
def replaced (replaceAuthority : Q → AccountId → AccountId → Q) (s : Relayers AccountId Q) (now : ℕ) :
    List (DelayedRelayerSet AccountId × AccountId) :=
  replacements replaceAuthority
    { s with delayedRelayerSets := s.delayedRelayerSets.remove (now - 1) }
    (s.delayedRelayerSets.getD (now - 1) [])

/-- The request that `set_relayer` makes. -/
def requested (s : Relayers AccountId Q) (controller new : AccountId) :
    Option (DelayedRelayerSet AccountId) :=
  match s.bondedController.get controller, s.setRelayer controller new with
  | some old, .ok _ => some ⟨old, new⟩
  | _, _ => none

/-- The relayer whose request `cancel_relayer_set` removes. -/
def cancelled (s : Relayers AccountId Q) (controller : AccountId) : Option AccountId :=
  match s.bondedController.get controller, s.cancelRelayerSet controller with
  | some relayer, .ok _ => some relayer
  | _, _ => none

end Relayers

/-! ## The record -/

/-- A request with its round and the controller that has made it. -/
structure RelayerRequest (AccountId : Type) where
  round : ℕ
  set : DelayedRelayerSet AccountId
  controller : AccountId
  deriving DecidableEq

namespace RelayerRequest

/-- The request after changes of controllers. -/
def follow (sets : List (DelayedControllerSet AccountId)) (x : RelayerRequest AccountId) :
    RelayerRequest AccountId :=
  { x with controller :=
      sets.foldl (fun controller c => if c.old = controller then c.new else controller) x.controller }

end RelayerRequest

/-- **What a step writes down**: a request is noted when it is made, struck out when its controller
cancels it, and follows its controller when that one changes. -/
def noteRequests (s : State AccountId (Option (Relayers AccountId Q)))
    (i : Step AccountId (Act AccountId Q)) (s' : State AccountId (Option (Relayers AccountId Q)))
    (log : List (RelayerRequest AccountId)) : List (RelayerRequest AccountId) :=
  match i with
  | .relay (.setRelayer (.signed controller) new) =>
      ((s.relay.bind (·.requested controller new)).map fun x => ⟨s.now, x, controller⟩).toList ++ log
  | .relay (.cancelRelayerSet (.signed controller)) =>
      match s.relay.bind (·.cancelled controller) with
      | none => log
      | some relayer => log.filter fun x =>
          ¬ (x.round = s.now ∧ x.set.old = relayer ∧ x.controller = controller)
  | .newSession _ _ _ _ =>
      if s'.now = s.now then log
      else log.map (·.follow (s.delayedControllerSets.getD s.now []))
  | _ => log

section Network

variable (cfg : Config AccountId) (replaceAuthority : Q → AccountId → AccountId → Q)

/-- The states of runs all of whose steps meet a condition, with the requests made in them. -/
def RequestsIf
    (cond : State AccountId (Option (Relayers AccountId Q)) × List (RelayerRequest AccountId) →
      Step AccountId (Act AccountId Q) → Prop)
    (x : State AccountId (Option (Relayers AccountId Q)) × List (RelayerRequest AccountId)) : Prop :=
  Reachable (fun x => IsNetworkGenesis cfg replaceAuthority x.1 ∧ x.2 = [])
    (watched (networkStep cfg replaceAuthority) noteRequests) cond x

end Network

/-- The relay manager as `handle_delayed_relayer_sets` finds it, in a step that begins a round. -/
def roundBegins (s : State AccountId (Option (Relayers AccountId Q))) :
    Step AccountId (Act AccountId Q) → Option (Relayers AccountId Q)
  | .newSession now newIndex sessionValidators _ =>
      if (s.enterSession now newIndex sessionValidators).round.shouldUpdate now then
        s.relay.map (·.refreshRound (s.now + 1))
      else none
  | _ => none

/-- The pending requests for a relayer have been made by the controller. -/
def Relayers.Rightful (s : Relayers AccountId Q) (log : List (RelayerRequest AccountId))
    (relayer controller : AccountId) : Prop :=
  ∀ x ∈ s.relayerSets, x.old = relayer → ⟨s.round, x, controller⟩ ∈ log

/-- The relayer that a step bonds, and the controller that it bonds it to. -/
def joining (cfg : Config AccountId) (replaceAuthority : Q → AccountId → AccountId → Q)
    (s : State AccountId (Option (Relayers AccountId Q))) :
    Step AccountId (Act AccountId Q) → Option (AccountId × AccountId)
  | .call (.signed stash) (.joinCandidates controller (some relayer) bond count) =>
      (s.joinCandidates cfg (Strict.manager replaceAuthority) stash controller (some relayer) bond
        count).toOption.map fun _ => (relayer, controller)
  | .call (.signed stash) (.setValidatorTier more new (some relayer)) =>
      (s.setValidatorTier cfg (Strict.manager replaceAuthority) stash more new
        (some relayer)).toOption.bind fun _ =>
          (s.ledger.bondedStash.get stash).map fun controller => (relayer, controller)
  | _ => none

/-- **Nobody takes over a relayer** that somebody else has asked to change in this round. -/
def JoinsRightful (cfg : Config AccountId) (replaceAuthority : Q → AccountId → AccountId → Q)
    (x : State AccountId (Option (Relayers AccountId Q)) × List (RelayerRequest AccountId))
    (i : Step AccountId (Act AccountId Q)) : Prop :=
  ∀ p ∈ joining cfg replaceAuthority x.1 i, ∀ r ∈ x.1.relay, r.Rightful x.2 p.1 p.2

instance (s : Relayers AccountId Q) (log : List (RelayerRequest AccountId))
    (relayer controller : AccountId) : Decidable (s.Rightful log relayer controller) :=
  inferInstanceAs (Decidable (∀ x ∈ s.relayerSets, x.old = relayer → ⟨s.round, x, controller⟩ ∈ log))

instance (cfg : Config AccountId) (replaceAuthority : Q → AccountId → AccountId → Q)
    (x : State AccountId (Option (Relayers AccountId Q)) × List (RelayerRequest AccountId))
    (i : Step AccountId (Act AccountId Q)) : Decidable (JoinsRightful cfg replaceAuthority x i) :=
  inferInstanceAs (Decidable
    (∀ p ∈ joining cfg replaceAuthority x.1 i, ∀ r ∈ x.1.relay, r.Rightful x.2 p.1 p.2))

/-! ## What happens to the bonds -/

namespace Relayers

variable {s s' s₁ s₂ : Relayers AccountId Q} {relayer controller old new c k : AccountId}

/-- No relayer gets a controller, and what is pending stays as it is. -/
structure Sheds (s s' : Relayers AccountId Q) : Prop where
  round : s'.round = s.round
  sets : s'.delayedRelayerSets = s.delayedRelayerSets
  controllerOf : ∀ k c, s'.controllerOf k = some c → s.controllerOf k = some c

omit [LinearOrder AccountId] in
lemma Sheds.refl (s : Relayers AccountId Q) : Sheds s s := ⟨rfl, rfl, fun _ _ h => h⟩

omit [LinearOrder AccountId] in
lemma Sheds.trans (h₁ : Sheds s s₁) (h₂ : Sheds s₁ s₂) : Sheds s s₂ :=
  ⟨h₂.round.trans h₁.round, h₂.sets.trans h₁.sets,
    fun k c h => h₁.controllerOf k c (h₂.controllerOf k c h)⟩

omit [LinearOrder AccountId] in
lemma Sheds.of_same (h : SameBonds s s') : Sheds s s' := by
  refine ⟨h.round, h.sets, fun k c hk => ?_⟩
  rw [h.controllerOf] at hk
  exact hk

/-- `leave_relayers`. -/
lemma leaveRelayers_sheds (s : Relayers AccountId Q) (controller : AccountId) :
    Sheds s (s.leaveRelayers controller) := by
  cases hc : s.bondedController.get controller with
  | none =>
      rw [leaveRelayers, hc]
      exact .refl s
  | some relayer =>
      refine ⟨(s.leaveRelayers_seats controller).2, ?_, fun k c hk => ?_⟩
      · simp only [leaveRelayers, hc]
        rfl
      · rw [leaveRelayers_controllerOf hc, Function.update_apply] at hk
        split_ifs at hk
        exact hk

/-- `replace_bonded_controller` touches nothing that is pending. -/
lemma replaceBondedController_sets (s : Relayers AccountId Q) (old new : AccountId) :
    (s.replaceBondedController old new).delayedRelayerSets = s.delayedRelayerSets := by
  rw [replaceBondedController]
  split
  · rfl
  · rename_i relayer _
    obtain ⟨m, hframe⟩ := modifyRelayer_frame
      { s with bondedController := (s.bondedController.remove old).insert new relayer } relayer
      fun state => { state with controller := new }
    simp only [hframe]
    rfl

/-- The seats have nothing to do with the bonds. -/
lemma replaceSelectedRelayers_same (s : Relayers AccountId Q) (old new : AccountId) :
    SameBonds s (s.replaceSelectedRelayers old new) := by
  rw [replaceSelectedRelayers]
  split_ifs
  · exact ⟨rfl, rfl, rfl, rfl, rfl⟩
  · exact .refl s

/-- Neither has the pool of relayers to do with requests and states. -/
lemma replaceRelayerPool_frame (s : Relayers AccountId Q) (old new controller : AccountId) :
    (s.replaceRelayerPool old new controller).controllerOf = s.controllerOf ∧
      (s.replaceRelayerPool old new controller).delayedRelayerSets = s.delayedRelayerSets := by
  simp only [replaceRelayerPool, removeFromRelayerPool]
  split_ifs <;> exact ⟨rfl, rfl⟩

/-- **One request** gives a controller to its new account only. -/
lemma applyRelayerSet_frame (replaceAuthority : Q → AccountId → AccountId → Q)
    (s : Relayers AccountId Q) (x : DelayedRelayerSet AccountId) :
    (s.applyRelayerSet replaceAuthority x).delayedRelayerSets = s.delayedRelayerSets ∧
      ∀ k c, k ≠ x.new → (s.applyRelayerSet replaceAuthority x).controllerOf k = some c →
        s.controllerOf k = some c := by
  rw [applyRelayerSet, replaceBondedRelayer]
  cases hst : s.relayerState.get x.old with
  | none => exact ⟨rfl, fun k c _ hk => hk⟩
  | some state =>
      let s₁ : Relayers AccountId Q := { s with
        bondedController := s.bondedController.insert state.controller x.new
        relayerState := (s.relayerState.remove x.old).insert x.new state }
      let s₂ := s₁.replaceRelayerPool x.old x.new state.controller
      let s₃ := s₂.replaceSelectedRelayers x.old x.new
      let s₄ : Relayers AccountId Q := { s₃ with queues := replaceAuthority s₃.queues x.old x.new }
      obtain ⟨hcon₂, hsets₂⟩ := s₁.replaceRelayerPool_frame x.old x.new state.controller
      have hsame₃ : SameBonds s₂ s₃ := s₂.replaceSelectedRelayers_same x.old x.new
      have hsame₄ : SameBonds s₃ s₄ := ⟨rfl, rfl, rfl, rfl, rfl⟩
      obtain ⟨hsame₅, -⟩ := s₄.replaceMember_same x.old x.new
      have hsame : SameBonds s₂ (s₄.replaceMember x.old x.new) := hsame₃.trans (hsame₄.trans hsame₅)
      refine ⟨hsame.sets.trans hsets₂, fun k c hne hk => ?_⟩
      replace hk : (s₄.replaceMember x.old x.new).controllerOf k = some c := hk
      rw [hsame.controllerOf, hcon₂, controllerOf_eq_some] at hk
      obtain ⟨st, hget, hcontroller⟩ := hk
      replace hget : ((s.relayerState.remove x.old).insert x.new state).get k = some st := hget
      rw [StorageMap.get_insert_of_ne _ hne, StorageMap.get_remove] at hget
      split_ifs at hget
      exact controllerOf_eq_some.mpr ⟨st, hget, hcontroller⟩

/-- `handle_delayed_relayer_sets` removes the requests of the last round. -/
lemma handleDelayedRelayerSets_sets (replaceAuthority : Q → AccountId → AccountId → Q)
    (s : Relayers AccountId Q) (now : ℕ) :
    (s.handleDelayedRelayerSets replaceAuthority now).delayedRelayerSets =
      s.delayedRelayerSets.remove (now - 1) := by
  have hloop : ∀ (sets : List (DelayedRelayerSet AccountId)) (t : Relayers AccountId Q),
      (sets.foldl (applyRelayerSet replaceAuthority) t).delayedRelayerSets =
        t.delayedRelayerSets := by
    intro sets
    induction sets with
    | nil => exact fun _ => rfl
    | cons x sets ih =>
        intro t
        rw [List.foldl_cons, ih, (applyRelayerSet_frame replaceAuthority t x).1]
  exact hloop _ _

/-- **What is replaced was bonded to the same controller before**, if no request is for a relayer that
an earlier one has made. -/
lemma mem_replacements {replaceAuthority : Q → AccountId → AccountId → Q} :
    ∀ {sets : List (DelayedRelayerSet AccountId)} {s : Relayers AccountId Q},
      sets.Pairwise (fun x y => y.old ≠ x.new) →
      ∀ {x : DelayedRelayerSet AccountId} {c : AccountId},
        (x, c) ∈ replacements replaceAuthority s sets →
        x ∈ sets ∧ s.controllerOf x.old = some c := by
  intro sets
  induction sets with
  | nil =>
      intro s _ x c hx
      cases hx
  | cons y sets ih =>
      intro s hsets x c hx
      rw [List.pairwise_cons] at hsets
      rw [replacements, List.mem_append] at hx
      rcases hx with hx | hx
      · simp only [Option.mem_toList, Option.map_eq_some_iff, Prod.mk.injEq] at hx
        obtain ⟨c', hc, rfl, rfl⟩ := hx
        exact ⟨List.mem_cons_self, hc⟩
      · obtain ⟨hmem, hc⟩ := ih hsets.2 hx
        exact ⟨List.mem_cons_of_mem _ hmem,
          (applyRelayerSet_frame replaceAuthority s y).2 _ c (hsets.1 x hmem) hc⟩

end Relayers

/-! ## Steps at which nobody joins

A step that lets nobody join and begins no round is the same step next to a relay manager that can do
neither. -/

section Resting

variable {R : Type} {cfg : Config AccountId} {rm : RelayManager AccountId R} {s s' : State AccountId R}

omit [LinearOrder AccountId] in
/-- A relay manager that nobody can join, and for which no round begins. -/
def resting (rm : RelayManager AccountId R) : RelayManager AccountId R :=
  { rm with
    joinRelayers := fun _ _ _ => .error .relayManager
    refreshRound := fun relay _ => relay
    handleDelayedRelayerSets := fun relay _ => relay
    refreshSelectedRelayers := fun relay _ _ => relay
    refreshMajority := fun relay _ => relay
    replaceBondedController := fun relay _ _ => relay }

omit [LinearOrder AccountId] in
/-- The step lets nobody join the relayers and begins no round. -/
def Rests : Step AccountId R → Prop
  | .call (.signed _) (.joinCandidates _ (some _) _ _) => False
  | .call (.signed _) (.setValidatorTier _ _ (some _)) => False
  | .newSession _ _ _ _ => False
  | _ => True

lemma step_resting {i : Step AccountId R} (hi : Rests i) :
    s.step cfg (resting rm) i = s.step cfg rm i := by
  cases i with
  | newSession _ _ _ _ => exact hi.elim
  | call origin c =>
      cases origin with
      | signed who =>
          cases c with
          | joinCandidates controller relayer bond count =>
              cases relayer with
              | none => rfl
              | some x => exact hi.elim
          | setValidatorTier more new relayer =>
              cases relayer with
              | none => rfl
              | some x => exact hi.elim
          | _ => rfl
      | root => cases c <;> rfl
      | none => cases c <;> rfl
  | _ => rfl

end Resting

section Sheds

variable {cfg : Config AccountId} {replaceAuthority : Q → AccountId → AccountId → Q}
  {s s' : State AccountId (Option (Relayers AccountId Q))} {r : Relayers AccountId Q}
  {leave : State AccountId (Option (Relayers AccountId Q)) → AccountId → Prop}

/-- **One shift**, next to the relay manager at rest. -/
lemma Shift.sheds (h : Shift (resting (Strict.manager replaceAuthority)) leave s s')
    (hr : s.relay = some r) (hinv : RelayInv r) :
    ∃ r', s'.relay = some r' ∧ RelayInv r' ∧ r.Sheds r' := by
  have hstay : ∀ {o : Option (Relayers AccountId Q)}, o = s.relay →
      ∃ r', o = some r' ∧ RelayInv r' ∧ r.Sheds r' := by
    rintro o rfl
    exact ⟨r, hr, hinv, .refl r⟩
  cases h with
  | idle _ hrelay => exact hstay hrelay
  | joined c relayer _ _ hrelay =>
      cases relayer with
      | none => exact hstay (pure_eq_ok.mp hrelay).symm
      | some x => cases hrelay
  | left c _ _ _ _ hrelay =>
      refine ⟨r.leaveRelayers c, ?_, Relayers.leaveRelayers_inv hinv c, r.leaveRelayers_sheds c⟩
      rw [hrelay, hr]
      rfl
  | dropped c _ _ hrelay _ =>
      split_ifs at hrelay
      · obtain ⟨hstrict, hsame, hsub⟩ := Relayers.strict_kickoutRelayer hinv.bonds c
        refine ⟨r.kickoutRelayer c, ?_, hsame.inv hinv ?_, .of_same hsame⟩
        · rw [hrelay, hr]
          exact hstrict
        · exact (Finset.card_le_card hsub).trans hinv.bonds.selected_le
      · exact hstay hrelay
  | heartbeats _ hrelay =>
      obtain ⟨hstrict, hsame, hseats⟩ := Relayers.strict_collectHeartbeats hinv.bonds
      refine ⟨r.collectHeartbeats, ?_, hsame.inv hinv ?_, .of_same hsame⟩
      · rw [hrelay, hr]
        exact hstrict
      · rw [hseats.selected]
        exact hinv.bonds.selected_le
  | chosen _ _ _ _ _ hrelay => exact hstay hrelay
  | @renamed _ _ tier _ _ _ _ hrelay _ =>
      by_cases htier : tier = .full
      · rw [if_pos htier] at hrelay
        exact hstay hrelay
      · rw [if_neg htier] at hrelay
        exact hstay hrelay

/-- A step that rests gives no relayer a controller. -/
lemma networkStep_sheds {i : Step AccountId (Act AccountId Q)} (hs : StateInv cfg s)
    (hi : Rests (mapStep (fun a => s.relay.bind (·.act a)) i)) (hact : ∀ a, i ≠ .relay a)
    (h : networkStep cfg replaceAuthority s i = some s') (hr : s.relay = some r) (hinv : RelayInv r) :
    ∃ r', s'.relay = some r' ∧ RelayInv r' ∧ r.Sheds r' := by
  have hshifts : Shifts (resting (Strict.manager replaceAuthority)) (unlessPanicked fun _ _ => True)
      s s' := by
    refine State.step_shifts hs (leaves_true s _) (fun state heq => ?_) ((step_resting hi).trans h)
    cases i with
    | relay a => exact hact a rfl
    | _ => cases heq
  clear h
  induction hshifts with
  | refl => exact ⟨r, hr, hinv, .refl r⟩
  | tail _ hlast ih =>
      obtain ⟨r₁, hr₁, hinv₁, hsheds⟩ := ih
      obtain ⟨r₂, hr₂, hinv₂, hlast'⟩ := Shift.sheds hlast hr₁ hinv₁
      exact ⟨r₂, hr₂, hinv₂, hsheds.trans hlast'⟩

end Sheds

/-! ## A round begins -/

section Rounds

variable {cfg : Config AccountId} {replaceAuthority : Q → AccountId → AccountId → Q}
  {s s' : State AccountId (Option (Relayers AccountId Q))} {r : Relayers AccountId Q}
  {leave : State AccountId (Relayers AccountId Q) → AccountId → Prop}
  {t t' : State AccountId (Relayers AccountId Q)}

/-- Nothing is pending for the rounds after this one. -/
def Relayers.Blank (round : ℕ) (r : Relayers AccountId Q) : Prop :=
  ∀ k, round < k → r.delayedRelayerSets.get k = none

/-- No shift makes a request. -/
lemma Shift.blank {n : ℕ} (hinv : RelayInv t.relay) (hround : t.relay.round = t.now)
    (h : Shift (Relayers.manager replaceAuthority) leave t t') (ht : t.relay.Blank n) :
    t'.relay.Blank n := by
  have hsame : ∀ {r : Relayers AccountId Q},
      r.delayedRelayerSets = t.relay.delayedRelayerSets → r.Blank n := by
    intro r hsets k hk
    rw [hsets]
    exact ht k hk
  cases h with
  | idle _ hrelay => exact hrelay ▸ ht
  | joined c relayer _ _ hrelay =>
      rcases Relayers.manager_joined hrelay with heq | ⟨x, -, hjoin⟩
      · exact heq ▸ ht
      · obtain ⟨-, -, -, -, heq⟩ := Relayers.joinRelayers_ok hjoin
        rw [heq]
        exact hsame rfl
  | left c _ _ _ _ hrelay => exact hrelay ▸ hsame (t.relay.leaveRelayers_sheds c).sets
  | dropped c _ _ hrelay _ =>
      split_ifs at hrelay
      · exact hrelay ▸ hsame (Relayers.strict_kickoutRelayer hinv.bonds c).2.1.sets
      · exact hrelay ▸ ht
  | heartbeats _ hrelay => exact hrelay ▸ hsame (Relayers.strict_collectHeartbeats hinv.bonds).2.1.sets
  | chosen full _ _ _ hnow hrelay =>
      obtain ⟨-, hhandled, -, -⟩ := Relayers.strict_handleDelayedRelayerSets replaceAuthority hinv
      rw [hround, ← hnow] at hhandled
      obtain ⟨-, hchosen, -, -⟩ :=
        Relayers.strict_refreshSelectedRelayers hhandled.bonds t'.now full
      intro k hk
      rw [hrelay]
      refine (congrArg (fun m => StorageMap.get m k) (hchosen.sets.trans
        (Relayers.handleDelayedRelayerSets_sets replaceAuthority _ _))).trans ?_
      show (t.relay.delayedRelayerSets.remove (t'.now - 1)).get k = none
      rw [StorageMap.get_remove, ht k hk]
      split_ifs <;> rfl
  | @renamed old new tier _ _ _ _ hrelay _ =>
      by_cases htier : tier = .full
      · rw [if_pos htier] at hrelay
        exact hrelay ▸ hsame (t.relay.replaceBondedController_sets old new)
      · rw [if_neg htier] at hrelay
        exact hrelay ▸ ht

/-- **`new_session`** either leaves the relay manager alone or begins a round, in which nothing is
pending. -/
lemma networkStep_newSession {now newIndex : ℕ} {validators : List AccountId}
    {hasKeys : AccountId → Bool} (hs : StateInv cfg s)
    (h : networkStep cfg replaceAuthority s (.newSession now newIndex validators hasKeys) = some s')
    (ht : Tied s r) (hr : r.round = s.now) :
    (s'.now = s.now ∧ s'.relay = s.relay) ∨
      (s'.now = s.now + 1 ∧ ∃ r', s'.relay = some r' ∧ r'.round = s'.now ∧ r'.relayerSets = []) := by
  have hstep := h
  simp only [networkStep, mapStep, State.step, State.newSession, State.tryNewRound,
    Option.map_eq_some_iff, Option.bind_eq_bind, Option.bind_eq_some_iff, Option.pure_def,
    Option.some.injEq, Prod.exists, Prod.mk.injEq] at h
  obtain ⟨out, s₂, ⟨s₁, h₁, -, rfl⟩, rfl⟩ := h
  split_ifs at h₁
  · right
    have hnow : s₁.now = s.now + 1 := (State.newRound_turned h₁).now
    have hshifts : Shifts (Strict.manager replaceAuthority) (unlessPanicked fun _ _ => True) s _ :=
      State.step_shifts hs (leaves_true s _) (fun state heq => by cases heq) hstep
    obtain ⟨r', htied, hround, hblank⟩ := Shifts.tied (P := fun t => t.relay.Blank s.now)
      (fun t t' hP hinv hround hshift => Shift.blank hinv hround hshift hP) hshifts ht hr
      fun k hk => ht.inv.later k (hr ▸ hk)
    refine ⟨hnow, r', htied.relay, hround, ?_⟩
    have hnone : r'.delayedRelayerSets.get r'.round = none := by
      refine hblank _ ?_
      rw [hround]
      show s.now < s₁.now
      omega
    rw [Relayers.relayerSets, StorageMap.getD, hnone]
    rfl
  · left
    obtain rfl := Option.some.inj h₁
    exact ⟨rfl, rfl⟩

end Rounds

/-! ## Requests and their controllers -/

namespace Relayers

variable {r r' : Relayers AccountId Q} {log : List (RelayerRequest AccountId)}
  {relayer controller new : AccountId}

/-- **Pending requests are owned**: whoever is bonded to the relayer of a request has made it.  And no
request is for a relayer that an earlier one makes. -/
structure Owned (r : Relayers AccountId Q) (log : List (RelayerRequest AccountId)) : Prop where
  apart : r.relayerSets.Pairwise fun x y => y.old ≠ x.new
  owned : ∀ x ∈ r.relayerSets, ∀ c, r.controllerOf x.old = some c → ⟨r.round, x, c⟩ ∈ log

omit [LinearOrder AccountId] in
lemma Owned.of_empty (h : r.relayerSets = []) : r.Owned log := by
  refine ⟨?_, ?_⟩
  · rw [h]
    exact List.Pairwise.nil
  · rw [h]
    exact fun x hx => absurd hx List.not_mem_nil

omit [LinearOrder AccountId] in
lemma Owned.sheds (h : r.Owned log) (hs : r.Sheds r') : r'.Owned log := by
  have hsets : r'.relayerSets = r.relayerSets := by rw [relayerSets, relayerSets, hs.sets, hs.round]
  refine ⟨?_, fun x hx c hc => ?_⟩
  · rw [hsets]
    exact h.apart
  · rw [hsets] at hx
    rw [hs.round]
    exact h.owned x hx c (hs.controllerOf x.old c hc)

/-- Who joins gets a relayer that nobody else has asked to change. -/
lemma Owned.joined (h : r.Owned log) (hright : r.Rightful log relayer controller)
    (hjoin : r.joinRelayers relayer controller = .ok r') : r'.Owned log := by
  obtain ⟨-, -, -, -, rfl⟩ := joinRelayers_ok hjoin
  refine ⟨h.apart, fun x hx c hc => ?_⟩
  rw [controllerOf_insert rfl rfl, Function.update_apply] at hc
  split_ifs at hc with hold
  · obtain rfl := Option.some.inj hc
    exact hright x hx hold
  · exact h.owned x hx c hc

/-- **`set_relayer`**: the new request belongs to the controller that makes it. -/
lemma Owned.setRelayer (h : r.Owned log) (hinv : RelayInv r)
    (hset : r.setRelayer controller new = .ok r') :
    ∃ x, r.requested controller new = some x ∧ r'.Owned (⟨r.round, x, controller⟩ :: log) := by
  have hok := hset
  simp only [Relayers.setRelayer, addToRelayerSets, isRelayer, bind_eq_ok, okOr_eq_ok, ensure_eq_ok,
    pure_eq_ok, exists_const] at hset
  obtain ⟨old, hold, -, ⟨⟩, -, ⟨⟩, -, -, -, -, rfl⟩ := hset
  have hcon : r.controllerOf old = some controller := Bonds.controllerOf hinv.bonds hold
  have hreq : r.requested controller new = some ⟨old, new⟩ := by
    simp only [requested, hold, hok]
  refine ⟨⟨old, new⟩, hreq, ?_⟩
  have hsets : (({ r with delayedRelayerSets :=
      r.delayedRelayerSets.insert r.round (r.relayerSets ++ [⟨old, new⟩]) } :
      Relayers AccountId Q)).relayerSets = r.relayerSets ++ [⟨old, new⟩] := by
    simp only [relayerSets, StorageMap.getD, StorageMap.get_insert_self, Option.getD_some]
  refine ⟨?_, fun x hx c hc => ?_⟩
  · rw [hsets, List.pairwise_append]
    refine ⟨h.apart, List.pairwise_singleton _ _, fun x hx y hy => ?_⟩
    -- the relayer is bonded, the new accounts of earlier requests are not
    obtain rfl := List.mem_singleton.mp hy
    rintro rfl
    have hunused := hinv.requests.unused x hx
    rw [hcon] at hunused
    cases hunused
  · rw [hsets, List.mem_append, List.mem_singleton] at hx
    rcases hx with hx | rfl
    · exact List.mem_cons_of_mem _ (h.owned x hx c hc)
    · replace hc : r.controllerOf old = some c := hc
      rw [hcon] at hc
      obtain rfl := Option.some.inj hc
      exact List.mem_cons_self

/-- **`cancel_relayer_set`** strikes out what it removes. -/
lemma Owned.cancelRelayerSet (h : r.Owned log) (hcancel : r.cancelRelayerSet controller = .ok r') :
    ∃ relayer, r.cancelled controller = some relayer ∧
      r'.Owned (log.filter fun x =>
        ¬ (x.round = r.round ∧ x.set.old = relayer ∧ x.controller = controller)) := by
  have hok := hcancel
  simp only [Relayers.cancelRelayerSet, bind_eq_ok, okOr_eq_ok, ensure_eq_ok, pure_eq_ok,
    exists_const] at hcancel
  obtain ⟨relayer, hrelayer, -, rfl⟩ := hcancel
  have hsets : (({ r with delayedRelayerSets :=
      r.delayedRelayerSets.insert r.round (r.relayerSets.filter fun x => x.old ≠ relayer) } :
      Relayers AccountId Q)).relayerSets = r.relayerSets.filter fun x => x.old ≠ relayer := by
    simp only [relayerSets, StorageMap.getD, StorageMap.get_insert_self, Option.getD_some]
  have hcancelled : r.cancelled controller = some relayer := by
    simp only [cancelled, hrelayer, hok]
  refine ⟨relayer, hcancelled, ?_, fun x hx c hc => ?_⟩
  · rw [hsets]
    exact h.apart.sublist List.filter_sublist
  · rw [hsets, List.mem_filter, decide_eq_true_eq] at hx
    rw [List.mem_filter, decide_eq_true_eq]
    exact ⟨h.owned x hx.1 c hc, fun hstruck => hx.2 hstruck.2.1⟩

end Relayers

/-! ## Runs -/

section Runs

variable {cfg : Config AccountId} {replaceAuthority : Q → AccountId → AccountId → Q}
  {s s' : State AccountId (Option (Relayers AccountId Q))} {r : Relayers AccountId Q}
  {log : List (RelayerRequest AccountId)}

/-- Joining the relay manager with its panics. -/
lemma strict_joined {o : Option (Relayers AccountId Q)} {relayer controller : AccountId}
    (h : (Strict.manager replaceAuthority).joinRelayers (some r) relayer controller = .ok o) :
    ∃ r', o = some r' ∧ r.joinRelayers relayer controller = .ok r' := by
  simp only [Strict.manager, bind_eq_ok, okOr_eq_ok, pure_eq_ok, Option.some.injEq] at h
  obtain ⟨_, rfl, r', hjoin, rfl⟩ := h
  refine ⟨r', rfl, ?_⟩
  cases hres : r.joinRelayers relayer controller with
  | error e =>
      rw [hres] at hjoin
      cases hjoin
  | ok r₂ =>
      rw [hres] at hjoin
      exact congrArg _ (Except.ok.inj hjoin)

/-- **What the relay manager does by itself** is written down. -/
lemma act_owned (hinv : RelayInv r) (hrelay : s.relay = some r) (hr : r.round = s.now)
    (ho : r.Owned log) (a : Act AccountId Q) :
    ∃ r', s.relay.bind (·.act a) = some r' ∧ r'.Owned (noteRequests s (.relay a) s' log) := by
  have hact (b : Act AccountId Q) : s.relay.bind (·.act b) = r.act b := by
    rw [hrelay, Option.bind_some]
  have hother (b : Act AccountId Q) (hset : ∀ origin n, b ≠ .setRelayer origin n)
      (hcancel : ∀ origin, b ≠ .cancelRelayerSet origin) :
      ∃ r', s.relay.bind (·.act b) = some r' ∧ r'.Owned log := by
    obtain ⟨r', hr', hsame, -⟩ := r.act_same hset hcancel
    exact ⟨r', (hact b).trans hr', ho.sheds (.of_same hsame)⟩
  cases a with
  | setRelayer origin new =>
      cases origin with
      | signed c =>
          refine ⟨commit r (r.setRelayer c new), hact _, ?_⟩
          simp only [noteRequests, hrelay, Option.bind_some]
          cases hres : r.setRelayer c new with
          | error e =>
              have hnone : r.requested c new = none := by
                simp only [Relayers.requested, hres]
                split <;> simp_all
              rw [hnone]
              exact ho
          | ok r' =>
              obtain ⟨x, hx, howned⟩ := ho.setRelayer hinv hres
              rw [hx, ← hr]
              exact howned
      | _ => exact ⟨r, hact _, ho⟩
  | cancelRelayerSet origin =>
      cases origin with
      | signed c =>
          refine ⟨commit r (r.cancelRelayerSet c), hact _, ?_⟩
          simp only [noteRequests, hrelay, Option.bind_some]
          cases hres : r.cancelRelayerSet c with
          | error e =>
              have hnone : r.cancelled c = none := by
                simp only [Relayers.cancelled, hres]
                split <;> simp_all
              rw [hnone]
              exact ho
          | ok r' =>
              obtain ⟨relayer, hx, howned⟩ := ho.cancelRelayerSet hres
              rw [hx, ← hr]
              exact howned
      | _ => exact ⟨r, hact _, ho⟩
  | _ => exact hother _ (by simp) (by simp)

/-- `join_candidates` of a full node leaves requests with their owners. -/
lemma joinCandidates_owned {stash controller relayer : AccountId} {bond count : ℕ}
    (hrelay : s.relay = some r) (ho : r.Owned log) (hright : r.Rightful log relayer controller)
    (h : s.joinCandidates cfg (Strict.manager replaceAuthority) stash controller (some relayer) bond
      count = .ok s') : ∃ r', s'.relay = some r' ∧ r'.Owned log := by
  simp only [State.joinCandidates, bind_eq_ok, ensure_eq_ok, pure_eq_ok, exists_const] at h
  obtain ⟨-, -, -, -, -, -, -, currency, -, relay, hjoined, l, -, rfl⟩ := h
  rw [State.joinedRelay, hrelay] at hjoined
  obtain ⟨r', rfl, hjoin⟩ := strict_joined hjoined
  exact ⟨r', rfl, ho.joined hright hjoin⟩

/-- `set_validator_tier` of a basic node leaves requests with their owners. -/
lemma setValidatorTier_owned {stash relayer : AccountId} {more : ℕ} {new : TierType}
    (hrelay : s.relay = some r) (ho : r.Owned log)
    (hright : ∀ controller, s.ledger.bondedStash.get stash = some controller →
      r.Rightful log relayer controller)
    (h : s.setValidatorTier cfg (Strict.manager replaceAuthority) stash more new (some relayer) =
      .ok s') : ∃ r', s'.relay = some r' ∧ r'.Owned log := by
  simp only [State.setValidatorTier, bind_eq_ok, ensure_eq_ok, pure_eq_ok, exists_const,
    Prod.exists] at h
  obtain ⟨controller, m, hbd, -, m', l, relay, hmore, rfl⟩ := h
  obtain ⟨hstash, -⟩ := Ledger.bonded_spec hbd
  simp only [State.bondForTier, bind_eq_ok, ensure_eq_ok, pure_eq_ok, exists_const,
    Prod.mk.injEq] at hmore
  obtain ⟨-, -, -, -, -, relay', hjoined, -, rfl⟩ := hmore
  rw [hrelay] at hjoined
  obtain ⟨r', rfl, hjoin⟩ := strict_joined hjoined
  exact ⟨r', rfl, ho.joined (hright controller hstash) hjoin⟩

/-- **One step** keeps requests owned, if nobody takes over a relayer that somebody else has asked to
change. -/
lemma networkStep_owned {i : Step AccountId (Act AccountId Q)} (hs : StateInv cfg s) (ht : Tied s r)
    (hr : r.round = s.now) (ho : r.Owned log) (hcond : JoinsRightful cfg replaceAuthority (s, log) i)
    (h : networkStep cfg replaceAuthority s i = some s') :
    ∃ r', s'.relay = some r' ∧ r'.Owned (noteRequests s i s' log) := by
  have hrest (hi : Rests (mapStep (fun a => s.relay.bind (·.act a)) i)) (hact : ∀ a, i ≠ .relay a) :
      ∃ r', s'.relay = some r' ∧ r'.Owned log := by
    obtain ⟨r', hr', -, hsheds⟩ := networkStep_sheds hs hi hact h ht.relay ht.inv
    exact ⟨r', hr', ho.sheds hsheds⟩
  cases i with
  | relay a =>
      obtain rfl := Option.some.inj h
      exact act_owned ht.inv ht.relay hr ho a
  | newSession now newIndex validators hasKeys =>
      rcases networkStep_newSession hs h ht hr with ⟨hnow, hrelay⟩ | ⟨-, r', hr', -, hsets⟩
      · refine ⟨r, hrelay.trans ht.relay, ?_⟩
        rw [noteRequests, if_pos hnow]
        exact ho
      · exact ⟨r', hr', .of_empty hsets⟩
  | call origin c =>
      cases origin with
      | signed who =>
          let owned (t : State AccountId (Option (Relayers AccountId Q))) : Prop :=
            ∃ r', t.relay = some r' ∧ r'.Owned log
          cases c with
          | joinCandidates controller relayer bond count =>
              cases relayer with
              | none => exact hrest trivial (by simp)
              | some x =>
                  obtain rfl := Option.some.inj h
                  refine commit_induction (P := owned) ⟨r, ht.relay, ho⟩ fun t hcall => ?_
                  refine joinCandidates_owned ht.relay ho (hcond (x, controller) ?_ r ht.relay) hcall
                  exact Option.map_eq_some_iff.mpr ⟨t, toOption_eq_some.mpr hcall, rfl⟩
          | setValidatorTier more new relayer =>
              cases relayer with
              | none => exact hrest trivial (by simp)
              | some x =>
                  obtain rfl := Option.some.inj h
                  refine commit_induction (P := owned) ⟨r, ht.relay, ho⟩ fun t hcall => ?_
                  refine setValidatorTier_owned ht.relay ho (fun controller hc => ?_) hcall
                  refine hcond (x, controller) ?_ r ht.relay
                  refine Option.bind_eq_some_iff.mpr ⟨t, toOption_eq_some.mpr hcall, ?_⟩
                  rw [hc, Option.map_some]
          | _ => exact hrest trivial (by simp)
      | _ => exact hrest trivial (by simp)
  | _ => exact hrest trivial (by simp)

/-- Writing down requests does not change what is reachable. -/
lemma RequestsIf.network
    {cond : State AccountId (Option (Relayers AccountId Q)) × List (RelayerRequest AccountId) →
      Step AccountId (Act AccountId Q) → Prop}
    {x : State AccountId (Option (Relayers AccountId Q)) × List (RelayerRequest AccountId)}
    (h : RequestsIf cfg replaceAuthority cond x) : NetworkIf cfg replaceAuthority anyStep x.1 := by
  refine Reachable.invariant (P := fun x => NetworkIf cfg replaceAuthority anyStep x.1)
    (fun x hx => .init hx.1) (fun x i x' hx _ hstep => ?_) h
  exact .step hx trivial (watched_eq_some hstep).1

/-- **Run lemma.**  If only rightful relayers are bonded, every pending request is owned by whoever holds
its relayer. -/
lemma RequestsIf.owned
    {x : State AccountId (Option (Relayers AccountId Q)) × List (RelayerRequest AccountId)}
    (h : RequestsIf cfg replaceAuthority (JoinsRightful cfg replaceAuthority) x) :
    ∃ r, x.1.relay = some r ∧ r.Owned x.2 := by
  have hboth : NetworkIf cfg replaceAuthority anyStep x.1 ∧
      ∃ r, x.1.relay = some r ∧ r.Owned x.2 := by
    refine Reachable.invariant (P := fun x => NetworkIf cfg replaceAuthority anyStep x.1 ∧
      ∃ r, x.1.relay = some r ∧ r.Owned x.2) (fun x hx => ?_) (fun x i x' hx hcond hstep => ?_) h
    · obtain ⟨r, -, -, htied, -, -, hnil⟩ := hx.1.tied
      exact ⟨.init hx.1, r, htied.relay, .of_empty hnil⟩
    · obtain ⟨hnet, r, hr, howned⟩ := hx
      obtain ⟨r₀, htied, hround⟩ := hnet.tied
      obtain rfl : r₀ = r := Option.some.inj (htied.relay.symm.trans hr)
      obtain ⟨hnext, hlog⟩ := watched_eq_some hstep
      refine ⟨.step hnet trivial hnext, ?_⟩
      rw [hlog]
      exact networkStep_owned hnet.staking.inv htied hround howned hcond hnext
  exact hboth.2

/-- **Requests are for their requesters**: as long as nobody takes over a relayer that somebody else has
asked to change in this round, whatever `handle_delayed_relayer_sets` replaces belongs to the controller
that has made the request in the round that ends, and has not cancelled it. -/
theorem relayer_requests_owned {log : List (RelayerRequest AccountId)}
    (h : RequestsIf cfg replaceAuthority (JoinsRightful cfg replaceAuthority) (s, log))
    {i : Step AccountId (Act AccountId Q)} (hr : roundBegins s i = some r)
    {x : DelayedRelayerSet AccountId} {controller : AccountId}
    (hx : (x, controller) ∈ r.replaced replaceAuthority (s.now + 1)) :
    ⟨s.now, x, controller⟩ ∈ log := by
  obtain ⟨r₀, hrelay, howned⟩ := h.owned
  obtain ⟨r₁, htied, hround⟩ := h.network.tied
  obtain rfl : r₁ = r₀ := Option.some.inj (htied.relay.symm.trans hrelay)
  have hbegins : r = r₁.refreshRound (s.now + 1) := by
    cases i with
    | newSession now newIndex validators hasKeys =>
        rw [roundBegins, htied.relay] at hr
        split_ifs at hr
        exact (Option.some.inj hr).symm
    | _ => cases hr
  have hsets : r.delayedRelayerSets.getD (s.now + 1 - 1) [] = r₁.relayerSets := by
    rw [hbegins, Nat.add_sub_cancel, ← hround]
    rfl
  rw [Relayers.replaced, hsets] at hx
  obtain ⟨hmem, hcon⟩ := Relayers.mem_replacements howned.apart hx
  rw [hbegins] at hcon
  rw [← hround]
  exact howned.owned x hmem controller hcon

end Runs

/-! ## Small runs -/

section Devnet

/-- The end of the first round. -/
def firstRoundEnds : Step ℕ (Act ℕ Unit) := .newSession 20 2 [] fun _ => true

/-- What a run shows, it shows of a state and a record that the network reaches under the condition. -/
lemma requestsRun_exists
    {cond : State ℕ (Option (Relayers ℕ Unit)) × List (RelayerRequest ℕ) → Step ℕ (Act ℕ Unit) → Prop}
    [∀ x i, Decidable (cond x i)] {steps : List (Step ℕ (Act ℕ Unit))}
    {P : State ℕ (Option (Relayers ℕ Unit)) × List (RelayerRequest ℕ) → Bool}
    (h : ((networkGenesis.build devnet (Strict.manager bridgeless)).bind fun s =>
      runSteps (checked (watched (networkStep devnet bridgeless) noteRequests) cond) (s, [])
        steps).any P = true) :
    ∃ x, RequestsIf devnet bridgeless cond x ∧ P x = true := by
  obtain ⟨x, hx, hP⟩ := (Option.any_eq_true _ _).mp h
  obtain ⟨s₀, h₀, hx⟩ := Option.bind_eq_some_iff.mp hx
  exact ⟨x, .runChecked (.init ⟨⟨networkGenesis, ⟨4, false, .zero, [], (), rfl⟩, h₀⟩, rfl⟩) hx, hP⟩

/-- A controller leaves the relayers and comes back with its relayer before its request is due. -/
theorem relayer_requests_owned_devnet : ∃ s log r,
    RequestsIf devnet bridgeless (JoinsRightful devnet bridgeless) (s, log) ∧
      roundBegins s firstRoundEnds = some r ∧
      (⟨3, 5⟩, 2) ∈ r.replaced bridgeless (s.now + 1) ∧ ⟨s.now, ⟨3, 5⟩, 2⟩ ∈ log := by
  have hrun : ((networkGenesis.build devnet (Strict.manager bridgeless)).bind fun s =>
      runSteps (checked (watched (networkStep devnet bridgeless) noteRequests)
        (JoinsRightful devnet bridgeless)) (s, [])
        [.relay (.setRelayer (.signed 2) 5), .call (.signed 1) (.setValidatorTier 0 .basic none),
          .call (.signed 1) (.setValidatorTier 0 .full (some 3))]).any (fun x =>
        (roundBegins x.1 firstRoundEnds).any fun r =>
          decide ((⟨3, 5⟩, 2) ∈ r.replaced bridgeless (x.1.now + 1))) = true := by decide
  obtain ⟨⟨s, log⟩, hreach, hP⟩ := requestsRun_exists hrun
  obtain ⟨r, hr, hx⟩ := (Option.any_eq_true _ _).mp hP
  have hx := of_decide_eq_true hx
  exact ⟨s, log, r, hreach, hr, hx, relayer_requests_owned hreach hr hx⟩

/-- Controller 2 asks to change its relayer and becomes a basic node.  Somebody else joins with the
relayer, and the change is made for the new controller. -/
theorem relayer_request_taken_over : ∃ s s' log r,
    RequestsIf devnet bridgeless anyStep (s, log) ∧ roundBegins s firstRoundEnds = some r ∧
      log = [⟨s.now, ⟨3, 5⟩, 2⟩] ∧ (⟨3, 5⟩, 22) ∈ r.replaced bridgeless (s.now + 1) ∧
      networkStep devnet bridgeless s firstRoundEnds = some s' ∧
      ∃ r', s'.relay = some r' ∧ r'.bondedController.get 22 = some 5 := by
  have hrun : ((networkGenesis.build devnet (Strict.manager bridgeless)).bind fun s =>
      runSteps (checked (watched (networkStep devnet bridgeless) noteRequests) anyStep) (s, [])
        [.relay (.setRelayer (.signed 2) 5), .call (.signed 1) (.setValidatorTier 0 .basic none),
          .call (.signed 21) (.joinCandidates 22 (some 3) 1000 2)]).any (fun x =>
        decide (x.2 = [⟨x.1.now, ⟨3, 5⟩, 2⟩]) &&
        ((roundBegins x.1 firstRoundEnds).any fun r =>
          decide ((⟨3, 5⟩, 22) ∈ r.replaced bridgeless (x.1.now + 1))) &&
        ((networkStep devnet bridgeless x.1 firstRoundEnds).any fun s =>
          s.relay.any fun r => decide (r.bondedController.get 22 = some 5))) = true := by decide
  obtain ⟨⟨s, log⟩, hreach, hP⟩ := requestsRun_exists hrun
  rw [Bool.and_eq_true, Bool.and_eq_true, decide_eq_true_eq] at hP
  obtain ⟨⟨hlog, hreplaced⟩, hafter⟩ := hP
  obtain ⟨r, hr, hx⟩ := (Option.any_eq_true _ _).mp hreplaced
  obtain ⟨s', hs', hbond⟩ := (Option.any_eq_true _ _).mp hafter
  obtain ⟨r', hr', hbond⟩ := (Option.any_eq_true _ _).mp hbond
  exact ⟨s, s', log, r, hreach, hr, hlog, of_decide_eq_true hx, hs', r', hr', of_decide_eq_true hbond⟩

end Devnet

end BifrostNode.Relay
