import BifrostNode.Relay.Requesters
import BifrostNode.Btc.Rollbacks
import BifrostNode.Cccp.QueueSpec

/-!
# The bridge pallets next to the relay manager

The relay queue and the Bitcoin bridge are run by the relayers that the relay manager has selected, and
hear from it when a relayer is replaced.

* **The relay manager leaves the pallets alone**, but for the replacements at the beginning of a round
  (`networkStep_queues`, `networkStep_begins`).
* **A turn** is a step of the network or a step of one of the pallets.  Whom the pallets ask for
  authorities and majorities is the relay manager.

The runtime for development has all these pallets.  The other two configure the relay manager without
the relay queue.
-/

namespace BifrostNode.Relay

open Staking Transition

/-! ## What the relay manager leaves alone -/

section Frame

variable {AccountId Q : Type} {s s' : Relayers AccountId Q} {o : Option (Relayers AccountId Q)}

/-- Neither the pallets nor sessions nor heartbeats change. -/
structure SameRest (s s' : Relayers AccountId Q) : Prop where
  queues : s'.queues = s.queues
  validators : s'.validators = s.validators
  sessionIndex : s'.sessionIndex = s.sessionIndex
  heartbeats : s'.receivedHeartbeats = s.receivedHeartbeats

/-- A property of the pallets, of sessions and of heartbeats. -/
def Blind (P : Relayers AccountId Q → Prop) : Prop := ∀ s s', SameRest s s' → P s → P s'

namespace Strict

variable {P : Relayers AccountId Q → Prop}

/-- The relay manager has the property if it has not panicked. -/
def Holds (P : Relayers AccountId Q → Prop) (o : Option (Relayers AccountId Q)) : Prop :=
  ∀ r, o = some r → P r

lemma Holds.some (h : P s) : Holds P (some s) := by
  intro r hr
  exact Option.some.inj hr ▸ h

lemma Holds.map {f : Relayers AccountId Q → Relayers AccountId Q} (h : Holds P o)
    (hf : ∀ r, P r → P (f r)) : Holds P (o.map f) := by
  intro r hr
  obtain ⟨r₀, hr₀, rfl⟩ := Option.map_eq_some_iff.mp hr
  exact hf r₀ (h r₀ hr₀)

lemma Holds.bind {f : Relayers AccountId Q → Option (Relayers AccountId Q)} (h : Holds P o)
    (hf : ∀ r, P r → Holds P (f r)) : Holds P (o.bind f) := by
  intro r hr
  obtain ⟨r₀, hr₀, hr⟩ := Option.bind_eq_some_iff.mp hr
  exact hf r₀ (h r₀ hr₀) r hr

/-- A loop whose steps keep the property. -/
lemma Holds.foldlM {ι : Type} {f : Relayers AccountId Q → ι → Option (Relayers AccountId Q)}
    (hf : ∀ r i, P r → Holds P (f r i)) (h : P s) (is : List ι) : Holds P (is.foldlM f s) := by
  intro r hr
  exact foldlM_invariant (fun t i t' ht hi => hf t i ht t' hi) hr h

lemma addToRelayerPool_holds (hP : Blind P) (h : P s) (relayer controller : AccountId) :
    Holds P (s.addToRelayerPool relayer controller).toOption := by
  intro r hr
  simp only [toOption_eq_some, Relayers.addToRelayerPool, bind_eq_ok, ensure_eq_ok, pure_eq_ok,
    exists_const] at hr
  rw [← hr.2]
  exact hP s _ ⟨rfl, rfl, rfl, rfl⟩ h

variable [LinearOrder AccountId]

lemma modifyRelayer_holds (hP : Blind P) (h : P s) (relayer : AccountId)
    (f : RelayerMetadata AccountId → RelayerMetadata AccountId) :
    Holds P (modifyRelayer s relayer f) := by
  intro r hr
  obtain ⟨state, -, rfl⟩ := Option.map_eq_some_iff.mp hr
  exact hP s _ ⟨rfl, rfl, rfl, rfl⟩ h

lemma kickoutRelayer_holds (hP : Blind P) (h : P s) (controller : AccountId) :
    Holds P (kickoutRelayer s controller) := by
  rw [kickoutRelayer]
  split
  · exact .some h
  · refine (modifyRelayer_holds hP h _ _).bind fun r hr => ?_
    split_ifs
    · exact .some (hP r _ ⟨rfl, rfl, rfl, rfl⟩ hr)
    · exact .some hr

lemma refreshSelectedRelayers_holds (hP : Blind P) (h : P s) (round : ℕ)
    (selectedCandidates : List AccountId) :
    Holds P (refreshSelectedRelayers s round selectedCandidates) := by
  have hpool : Holds P (refreshRelayerPool s) :=
    Holds.foldlM (P := P) (fun r (x : Relayer AccountId) hr => modifyRelayer_holds hP hr x.relayer _) h _
  rw [refreshSelectedRelayers]
  refine hpool.bind fun r hr t ht => ?_
  simp only [Option.bind_eq_bind, Option.bind_eq_some_iff, Option.pure_def, Option.some.injEq,
    Prod.exists] at ht
  obtain ⟨selected, s₁, hloop, rfl⟩ := ht
  refine hP s₁ _ ⟨rfl, rfl, rfl, rfl⟩ ?_
  refine foldlM_invariant (P := fun acc => P acc.2) (fun acc c acc' hacc hc => ?_) hloop hr
  rw [selectRelayer] at hc
  split at hc
  · rw [← Option.some.inj hc]
    exact hacc
  · simp only [Option.bind_eq_bind, Option.bind_eq_some_iff, Option.pure_def, Option.some.injEq] at hc
    obtain ⟨inserted, -, s₂, hs₂, rfl⟩ := hc
    exact modifyRelayer_holds hP hacc _ _ s₂ hs₂

lemma replaceBondedController_holds (hP : Blind P) (h : P s) (old new : AccountId) :
    Holds P (replaceBondedController s old new) := by
  rw [replaceBondedController]
  split
  · exact .some h
  · refine Holds.bind (modifyRelayer_holds hP ?_ _ _) fun r hr => addToRelayerPool_holds hP ?_ _ _
    · exact hP s _ ⟨rfl, rfl, rfl, rfl⟩ h
    · exact hP r _ ⟨rfl, rfl, rfl, rfl⟩ hr

/-- What staking asks for apart from the beginning of a round and the end of a session. -/
def quiet : RelayManager AccountId (Option (Relayers AccountId Q)) :=
  { Strict.manager fun q _ _ => q with
    handleDelayedRelayerSets := fun o _ => o
    collectHeartbeats := id }

end Strict

variable [LinearOrder AccountId] {P : Relayers AccountId Q → Prop}
  {replaceAuthority : Q → AccountId → AccountId → Q}
  {leave : State AccountId (Option (Relayers AccountId Q)) → AccountId → Prop}
  {t t' : State AccountId (Option (Relayers AccountId Q))}

open Strict in
/-- **A shift** next to a relay manager that replaces nobody and collects no heartbeats. -/
lemma Shift.holds (hP : Blind P) (h : Shift Strict.quiet leave t t') (ht : Holds P t.relay) :
    Holds P t'.relay := by
  cases h with
  | idle _ hrelay => exact hrelay ▸ ht
  | joined c relayer _ _ hrelay =>
      cases relayer with
      | none => exact (pure_eq_ok.mp hrelay).symm ▸ ht
      | some x =>
          cases hr : t.relay with
          | none =>
              rw [State.joinedRelay, hr] at hrelay
              simp only [quiet, Strict.manager, bind_eq_ok, okOr_eq_ok, reduceCtorEq, false_and,
                exists_false] at hrelay
          | some r =>
              rw [State.joinedRelay, hr] at hrelay
              replace hrelay : (Strict.manager fun (q : Q) (_ _ : AccountId) => q).joinRelayers (some r)
                x c = .ok t'.relay := hrelay
              obtain ⟨r', hr', hjoin⟩ := strict_joined hrelay
              obtain ⟨-, -, -, -, rfl⟩ := Relayers.joinRelayers_ok hjoin
              rw [hr']
              exact .some (hP r _ ⟨rfl, rfl, rfl, rfl⟩ (ht r hr))
  | left c _ _ _ _ hrelay =>
      rw [hrelay]
      refine ht.map fun r hr => ?_
      rw [Relayers.leaveRelayers]
      split
      · exact hr
      · exact hP r _ ⟨rfl, rfl, rfl, rfl⟩ hr
  | dropped c _ _ hrelay _ =>
      rw [hrelay]
      split_ifs
      · exact ht.bind fun r hr => kickoutRelayer_holds hP hr c
      · exact ht
  | heartbeats _ hrelay => exact hrelay ▸ ht
  | chosen full _ _ _ _ hrelay =>
      rw [hrelay]
      have hentered : Holds P (t.relay.map (·.refreshRound t'.now)) :=
        ht.map fun r hr => hP r _ ⟨rfl, rfl, rfl, rfl⟩ hr
      have hselected := hentered.bind fun r hr => refreshSelectedRelayers_holds hP hr t'.now full
      exact hselected.map fun r hr => hP r _ ⟨rfl, rfl, rfl, rfl⟩ hr
  | @renamed old new tier _ _ _ _ hrelay _ =>
      rw [hrelay]
      split_ifs
      · exact ht.bind fun r hr => replaceBondedController_holds hP hr old new
      · exact ht

variable {cfg : Config AccountId} {r : Relayers AccountId Q}

/-- Only `new_session` replaces somebody, and only `end_session` collects heartbeats. -/
lemma step_quiet {i : Step AccountId (Option (Relayers AccountId Q))}
    (hi : ∀ now newIndex validators hasKeys, i ≠ .newSession now newIndex validators hasKeys)
    (hend : i ≠ .endSession) :
    t.step cfg Strict.quiet i = t.step cfg (Strict.manager replaceAuthority) i := by
  cases i with
  | newSession now newIndex validators hasKeys => exact absurd rfl (hi now newIndex validators hasKeys)
  | endSession => exact absurd rfl hend
  | call origin c =>
      cases origin with
      | signed who => cases c <;> rfl
      | root => cases c <;> rfl
      | none => cases c <;> rfl
  | _ => rfl

/-- What the relay manager does by itself, unless it is about the rest. -/
lemma act_holds (hP : Blind P) (a : Act AccountId Q)
    (hheartbeat : ∀ origin versions, a ≠ .heartbeat origin versions)
    (hsession : ∀ validators sessionIndex, a ≠ .session validators sessionIndex)
    (hbridge : ∀ q, a ≠ .bridge q) (h : P r) : Strict.Holds P (r.act a) := by
  have hcall : ∀ {x : Except Error (Relayers AccountId Q)}, Returns (SameRest r) x →
      Strict.Holds P (some (commit r x)) := by
    intro x hx
    have hrest : SameRest r (commit r x) :=
      commit_induction (P := fun u : Relayers AccountId Q => SameRest r u) ⟨rfl, rfl, rfl, rfl⟩ hx
    exact .some (hP r _ hrest h)
  cases a with
  | setStorageCacheLifetime origin new =>
      exact hcall (.bind fun _ => .bind fun _ => .bind fun _ => .pure ⟨rfl, rfl, rfl, rfl⟩)
  | setHeartbeatOffenceActivation origin isActive =>
      exact hcall (.bind fun _ => .bind fun _ => .pure ⟨rfl, rfl, rfl, rfl⟩)
  | setHeartbeatSlashFraction origin new =>
      exact hcall (.bind fun _ => .bind fun _ => .pure ⟨rfl, rfl, rfl, rfl⟩)
  | setRelayer origin new =>
      exact hcall (.bind fun _ => .bind fun _ => .bind fun _ => .bind fun _ => .bind fun _ =>
        .bind fun _ => .bind fun _ => .bind fun _ => .pure ⟨rfl, rfl, rfl, rfl⟩)
  | cancelRelayerSet origin =>
      exact hcall (.bind fun _ => .bind fun _ => .bind fun _ => .pure ⟨rfl, rfl, rfl, rfl⟩)
  | heartbeat origin versions => exact absurd rfl (hheartbeat origin versions)
  | membership members prime => exact .some (hP r _ ⟨rfl, rfl, rfl, rfl⟩ h)
  | session validators sessionIndex => exact absurd rfl (hsession validators sessionIndex)
  | bridge queues => exact absurd rfl (hbridge queues)

/-- **A step that neither begins a round nor ends a session** leaves the rest to the relay manager. -/
lemma networkStep_holds (hP : Blind P) {i : Step AccountId (Act AccountId Q)} (hs : StateInv cfg t)
    (h : networkStep cfg replaceAuthority t i = some t') (hr : t.relay = some r) (hstart : P r)
    (hact : ∀ a, i = .relay a → Strict.Holds P (r.act a)) (hend : i ≠ .endSession)
    (hbegins : roundBegins t i = none) : Strict.Holds P t'.relay := by
  replace hstart : Strict.Holds P t.relay := hr ▸ .some hstart
  have hother (hacts : ∀ a, i ≠ .relay a) (hsession : ∀ now newIndex validators hasKeys,
      i ≠ .newSession now newIndex validators hasKeys) : Strict.Holds P t'.relay := by
    have hshifts : Shifts (Strict.quiet (Q := Q)) (unlessPanicked fun _ _ => True) t t' := by
      refine State.step_shifts hs (leaves_true t _) (fun state heq => ?_) ((step_quiet ?_ ?_).trans h)
      · cases i with
        | relay a => exact hacts a rfl
        | _ => cases heq
      · intro now newIndex validators hasKeys heq
        cases i with
        | newSession => exact hsession _ _ _ _ rfl
        | _ => cases heq
      · intro heq
        cases i with
        | endSession => exact hend rfl
        | _ => cases heq
    clear h
    induction hshifts with
    | refl => exact hstart
    | tail _ hlast ih => exact Shift.holds hP hlast ih
  cases i with
  | relay a =>
      obtain rfl := Option.some.inj h
      show Strict.Holds P (t.relay.bind (·.act a))
      rw [hr, Option.bind_some]
      exact hact a rfl
  | newSession now newIndex validators hasKeys =>
      simp only [roundBegins, hr, Option.map_some, ite_eq_right_iff, reduceCtorEq, imp_false] at hbegins
      simp only [networkStep, mapStep, State.step, State.newSession, State.tryNewRound, if_neg hbegins,
        Option.map_eq_some_iff, Option.bind_eq_bind, Option.bind_some, Option.pure_def,
        Option.some.injEq, exists_eq_left'] at h
      rw [← h]
      exact hstart
  | _ => exact hother (by simp) (by simp)

/-- The rest of a session after the selection for a round. -/
lemma enterRound_holds (hP : Blind P) {round : RoundInfo} {count : ℕ} (ht : Strict.Holds P t.relay) :
    Strict.Holds P (t.enterRound (Strict.manager replaceAuthority) round count).relay := by
  have hloop : ∀ (sets : List (DelayedControllerSet AccountId))
      (u : State AccountId (Option (Relayers AccountId Q))), Strict.Holds P u.relay →
      Strict.Holds P (sets.foldl
        (State.applyControllerSet (Strict.manager replaceAuthority) round.currentRoundIndex)
        u).relay := by
    intro sets
    induction sets with
    | nil => exact fun u hu => hu
    | cons c sets ih =>
        intro u hu
        rw [List.foldl_cons]
        refine ih _ ?_
        rw [State.applyControllerSet]
        split
        · exact hu
        · show Strict.Holds P (ite _ _ _)
          split_ifs
          · exact hu.bind fun r hr => Strict.replaceBondedController_holds hP hr c.old c.new
          · exact hu
  refine hloop _ _ ?_
  exact ht.map fun r hr => hP r _ ⟨rfl, rfl, rfl, rfl⟩ hr

/-- **A step that begins a round** replaces whoever is due, and leaves the rest alone. -/
lemma networkStep_begins (hP : Blind P) {i : Step AccountId (Act AccountId Q)}
    (h : networkStep cfg replaceAuthority t i = some t') (ht : Tied t r) (hround : r.round = t.now)
    {r₁ : Relayers AccountId Q} (hbegins : roundBegins t i = some r₁)
    (hstart : P (r₁.handleDelayedRelayerSets replaceAuthority (t.now + 1))) :
    Strict.Holds P t'.relay := by
  cases i with
  | newSession now newIndex validators hasKeys =>
      rw [roundBegins, ht.relay, Option.map_some] at hbegins
      split_ifs at hbegins with hdue
      obtain rfl := Option.some.inj hbegins
      simp only [networkStep, mapStep, State.step, State.newSession, State.tryNewRound, State.newRound,
        if_pos hdue, Option.map_eq_some_iff, Option.bind_eq_bind, Option.bind_eq_some_iff,
        Option.pure_def, Option.some.injEq, Prod.exists, Prod.mk.injEq] at h
      obtain ⟨out, t₂, ⟨t₁, ⟨count, t₀, hselect, rfl⟩, -, rfl⟩, rfl⟩ := h
      obtain ⟨hhandle, -, -, -⟩ := Relayers.strict_handleDelayedRelayerSets replaceAuthority ht.inv
      rw [hround] at hhandle
      have hhandled : Strict.Holds P t₀.relay := by
        rw [State.selectForRound_relay hselect]
        show Strict.Holds _ (((t.relay.map (·.refreshRound (t.now + 1))).bind
          (Strict.handleDelayedRelayerSets · replaceAuthority (t.now + 1))).bind _)
        rw [ht.relay, Option.map_some, Option.bind_some, hhandle]
        exact Strict.Holds.bind (.some hstart) fun u hu =>
          Strict.refreshSelectedRelayers_holds hP hu (t.now + 1) _
      exact enterRound_holds hP hhandled
  | _ => cases hbegins

/-- **Genesis** leaves the rest alone. -/
lemma build_holds (hP : Blind P) {g : GenesisConfig AccountId (Option (Relayers AccountId Q))}
    (h : g.build cfg (Strict.manager replaceAuthority) = some t) (hg : Strict.Holds P g.relay) :
    Strict.Holds P t.relay := by
  simp only [GenesisConfig.build, Option.bind_eq_bind, Option.bind_eq_some_iff, Option.pure_def,
    Option.some.injEq, Prod.exists] at h
  obtain ⟨s₁, h₁, s₂, h₂, validators, nominations, stake, s₃, h₃, rfl⟩ := h
  have hjoined : Strict.Holds P s₁.relay := by
    refine GenesisConfig.joinAll_invariant
      (P := fun u : State AccountId (Option (Relayers AccountId Q)) => Strict.Holds P u.relay)
      (fun u stash c relayer bond count u' hu hjoin => ?_) h₁ hg
    replace hjoin : u.joinCandidates cfg (Strict.quiet (Q := Q)) stash c relayer bond count =
      .ok u' := hjoin
    have hshift : Shift (Strict.quiet (Q := Q)) (fun _ _ => True) u u' :=
      State.joinCandidates_shift hjoin
    exact Shift.holds hP hshift hu
  have hnominated : Strict.Holds P s₂.relay :=
    GenesisConfig.nominateAll_invariant
      (P := fun u : State AccountId (Option (Relayers AccountId Q)) => Strict.Holds P u.relay)
      (fun u _ _ _ _ _ l hu _ => hu) h₂ hjoined
  have hselected : Strict.Holds P s₃.relay := by
    rw [State.updateTopCandidates_relay h₃]
    exact Strict.Holds.bind hnominated fun r hr => Strict.refreshSelectedRelayers_holds hP hr 1 _
  have hmajority : Strict.Holds P (s₃.relay.map (·.refreshMajority 1)) :=
    hselected.map fun r hr => hP r _ ⟨rfl, rfl, rfl, rfl⟩ hr
  exact hmajority.map fun r hr => hP r _ ⟨rfl, rfl, rfl, rfl⟩ hr

/-! ### The pallets among the rest -/

variable {q : Q}

omit [LinearOrder AccountId] in
lemma blind_queues (q : Q) : Blind fun s : Relayers AccountId Q => s.queues = q :=
  fun _ _ h hs => h.queues.trans hs

open Strict in
lemma collectHeartbeats_queues (h : s.queues = q) :
    Holds (·.queues = q) (Strict.collectHeartbeats s) := by
  have hP : Blind fun s : Relayers AccountId Q => s.queues = q := blind_queues q
  have hloop : Holds (·.queues = q) (s.validators.foldlM collectHeartbeat s) := by
    refine Holds.foldlM (fun r controller hr => ?_) h _
    rw [collectHeartbeat]
    split
    · exact .some hr
    · split_ifs
      · exact .some hr
      · intro t ht
        obtain ⟨relayer, -, ht⟩ := Option.bind_eq_some_iff.mp ht
        exact modifyRelayer_holds hP hr relayer _ t ht
  rw [Strict.collectHeartbeats]
  exact hloop.bind fun r hr => .some hr

/-- What the relay manager does by itself. -/
lemma act_queues (a : Act AccountId Q) (ha : ∀ q, a ≠ .bridge q) (h : r.queues = q) :
    Strict.Holds (·.queues = q) (r.act a) := by
  cases a with
  | heartbeat origin versions =>
      refine commit_induction (P := Strict.Holds (·.queues = q)) (.some h) fun o ho => ?_
      simp only [Strict.heartbeat, bind_eq_ok, ensure_eq_ok, exists_const] at ho
      obtain ⟨relayer, -, -, -, ho⟩ := ho
      split_ifs at ho
      · exact pure_eq_ok.mp ho ▸ .some h
      · rw [← pure_eq_ok.mp ho]
        refine Strict.modifyRelayer_holds (blind_queues q) ?_ _ _
        exact h
  | session validators sessionIndex => exact .some h
  | bridge queues => exact absurd rfl (ha queues)
  | _ => exact act_holds (blind_queues q) _ (by simp) (by simp) (by simp) h

/-- **A step that begins no round** leaves the pallets alone. -/
lemma networkStep_queues {i : Step AccountId (Act AccountId Q)} (hs : StateInv cfg t)
    (h : networkStep cfg replaceAuthority t i = some t') (hr : t.relay = some r)
    (hi : ∀ q, i ≠ .relay (.bridge q)) (hbegins : roundBegins t i = none) :
    Strict.Holds (·.queues = r.queues) t'.relay := by
  by_cases hend : i = .endSession
  · subst hend
    obtain rfl := Option.some.inj h
    show Strict.Holds _ (t.relay.bind Strict.collectHeartbeats)
    rw [hr]
    exact collectHeartbeats_queues rfl
  · exact networkStep_holds (blind_queues r.queues) hs h hr rfl
      (fun a heq => act_queues a (fun q hq => hi q (heq.trans (congrArg _ hq))) rfl) hend hbegins

end Frame

/-! ## The pallets -/

/-- What the bridge pallets that the relayers run keep. -/
structure Pallets (AccountId : Type) where
  relayQueue : Cccp.RelayQueue AccountId
  bridge : Btc.Bridge AccountId

namespace Pallets

variable {AccountId : Type}

def genesis (host : Btc.Host AccountId) (members : List AccountId) (authority : Option AccountId) :
    Pallets AccountId := ⟨.genesis, .genesis host members authority⟩

variable [LinearOrder AccountId]

/-- `replace_authority`, of each of them. -/
def replaceAuthority (q : Pallets AccountId) (old new : AccountId) : Pallets AccountId :=
  ⟨q.relayQueue.replaceAuthority old new, q.bridge.replaceAuthority old new⟩

/-- A step of one of the pallets. -/
inductive Step (AccountId : Type)
  | relayQueue (i : Cccp.Step AccountId)
  | bridge (i : Btc.Bridge.Step AccountId)

end Pallets

namespace Relayers

variable {AccountId : Type} [LinearOrder AccountId]

/-- What the relay queue sees of the relayers and of the socket queue. -/
def outlook (r : Relayers AccountId (Pallets AccountId)) (o : Cccp.Outlook AccountId) :
    Cccp.Outlook AccountId :=
  { o with
    isAuthority := r.isAuthority
    majority := r.majority
    maxSocketMessageBytes := r.queues.bridge.queue.maxSocketMessageBytes }

/-- What the Bitcoin bridge sees of the relayers. -/
def view {Q : Type} (r : Relayers AccountId Q) (v : Btc.View AccountId) : Btc.View AccountId :=
  { v with relayers := ⟨r.isAuthority, r.majority⟩, executives := r.members }

end Relayers

namespace Pallets

/-- A step of the relay queue with what it sees.  Replacements are for the relay manager to make. -/
def queueStep {AccountId : Type} (f : Cccp.Outlook AccountId → Cccp.Outlook AccountId) :
    Cccp.Step AccountId → Option (Cccp.Step AccountId)
  | .onFlightPoll o sub => some (.onFlightPoll (f o) sub)
  | .finalizePoll o sub => some (.finalizePoll (f o) sub)
  | .replaceAuthority _ _ => none
  | i => some i

/-- A step of the Bitcoin bridge with what it sees.  Replacements are for the relay manager to make. -/
def bridgeStep {AccountId : Type} (f : Btc.View AccountId → Btc.View AccountId) :
    Btc.Bridge.Step AccountId → Option (Btc.Bridge.Step AccountId)
  | .pool v i => some (.pool (f v) i)
  | .blaze v call => some (.blaze (f v) call)
  | .queue v call => some (.queue (f v) call)
  | .onInitialize v => some (.onInitialize (f v))
  | .replaceAuthority _ _ => none

/-- A step of one of the pallets, next to the relay manager. -/
def step {AccountId : Type} [LinearOrder AccountId] (host : Btc.Host AccountId)
    (r : Relayers AccountId (Pallets AccountId)) : Step AccountId → Option (Pallets AccountId)
  | .relayQueue i => do
      let i ← queueStep r.outlook i
      let relayQueue ← r.queues.relayQueue.step ⟨host.codec, host.chainId⟩ i
      return { r.queues with relayQueue }
  | .bridge i => do
      let i ← bridgeStep r.view i
      let bridge ← r.queues.bridge.step host i
      return { r.queues with bridge }

section Steps

variable {AccountId : Type} [LinearOrder AccountId] {host : Btc.Host AccountId}
  {r : Relayers AccountId (Pallets AccountId)} {q' : Pallets AccountId}

/-- **A step of a pallet** is a step of one of them, with what the relay manager shows. -/
lemma step_cases {i : Step AccountId} (h : step host r i = some q') :
    (∃ k j, i = .relayQueue k ∧ queueStep r.outlook k = some j ∧
      r.queues.relayQueue.step ⟨host.codec, host.chainId⟩ j = some q'.relayQueue ∧
      q'.bridge = r.queues.bridge) ∨
    (∃ k j, i = .bridge k ∧ bridgeStep r.view k = some j ∧
      r.queues.bridge.step host j = some q'.bridge ∧ q'.relayQueue = r.queues.relayQueue) := by
  cases i with
  | relayQueue k =>
      simp only [step, Option.bind_eq_bind, Option.bind_eq_some_iff, Option.pure_def,
        Option.some.injEq] at h
      obtain ⟨j, hj, relayQueue, hstep, rfl⟩ := h
      exact .inl ⟨k, j, rfl, hj, hstep, rfl⟩
  | bridge k =>
      simp only [step, Option.bind_eq_bind, Option.bind_eq_some_iff, Option.pure_def,
        Option.some.injEq] at h
      obtain ⟨j, hj, bridge, hstep, rfl⟩ := h
      exact .inr ⟨k, j, rfl, hj, hstep, rfl⟩

end Steps

/-- Each pallet is where a run of its own can get it. -/
structure Reached {AccountId : Type} [LinearOrder AccountId] (host : Btc.Host AccountId)
    (q : Pallets AccountId) : Prop where
  relayQueue : Cccp.ReachableIf ⟨host.codec, host.chainId⟩ anyStep q.relayQueue
  bridge : Btc.BridgeIf host anyStep q.bridge

end Pallets

/-- **One request** reaches the pallets if the relayer is there to be replaced. -/
lemma Relayers.applyRelayerSet_queues {AccountId Q : Type} [LinearOrder AccountId]
    (replaceAuthority : Q → AccountId → AccountId → Q)
    (s : Relayers AccountId Q) (x : DelayedRelayerSet AccountId) :
    (s.applyRelayerSet replaceAuthority x).queues =
      if (s.relayerState.get x.old).isSome then replaceAuthority s.queues x.old x.new
      else s.queues := by
  rw [applyRelayerSet, replaceBondedRelayer]
  cases hst : s.relayerState.get x.old with
  | none => rfl
  | some state =>
      have hqueues : ∀ t : Relayers AccountId Q,
          (t.replaceMember x.old x.new).queues = t.queues := by
        intro t
        rw [replaceMember]
        split_ifs <;> rfl
      have hpool : ∀ t : Relayers AccountId Q, ((t.replaceRelayerPool x.old x.new
          state.controller).replaceSelectedRelayers x.old x.new).queues = t.queues := by
        intro t
        simp only [replaceSelectedRelayers, replaceRelayerPool, removeFromRelayerPool]
        split_ifs <;> rfl
      simp only [Option.isSome_some, if_true, hqueues, hpool]

/-! ## Turns -/

/-- What can happen next. -/
inductive Turn (AccountId : Type)
  | network (i : Staking.Step AccountId (Act AccountId (Pallets AccountId)))
  | pallets (i : Pallets.Step AccountId)

section Turns

variable {AccountId : Type} [LinearOrder AccountId]

/-- The step of the network that a turn is.  What the pallets do is their own affair. -/
def Turn.step (host : Btc.Host AccountId)
    (s : State AccountId (Option (Relayers AccountId (Pallets AccountId)))) :
    Turn AccountId → Option (Staking.Step AccountId (Act AccountId (Pallets AccountId)))
  | .network (.relay (.bridge _)) => none
  | .network i => some i
  | .pallets i => do
      let r ← s.relay
      let q ← Pallets.step host r i
      return .relay (.bridge q)

variable (cfg : Config AccountId) (host : Btc.Host AccountId)

/-- **One turn**: the step that it stands for, as a step of the network. -/
def turnStep (s : State AccountId (Option (Relayers AccountId (Pallets AccountId))))
    (i : Turn AccountId) : Option (State AccountId (Option (Relayers AccountId (Pallets AccountId)))) :=
  (i.step host s).bind (networkStep cfg Pallets.replaceAuthority s)

/-- The first states: neither the relay manager nor the pallets keep anything yet. -/
def IsFirst (s : State AccountId (Option (Relayers AccountId (Pallets AccountId)))) : Prop :=
  ∃ g : GenesisConfig AccountId (Option (Relayers AccountId (Pallets AccountId))),
    (∃ lifetime isActive fraction members authority, g.relay =
      some (.genesis lifetime isActive fraction members (.genesis host members authority))) ∧
    g.build cfg (Strict.manager Pallets.replaceAuthority) = some s

/-- The states of runs all of whose turns meet a condition. -/
def TurnsIf
    (cond : State AccountId (Option (Relayers AccountId (Pallets AccountId))) → Turn AccountId → Prop)
    (s : State AccountId (Option (Relayers AccountId (Pallets AccountId)))) : Prop :=
  Reachable (IsFirst cfg host) (turnStep cfg host) cond s

variable {cfg host}
  {cond : State AccountId (Option (Relayers AccountId (Pallets AccountId))) → Turn AccountId → Prop}
  {s s' : State AccountId (Option (Relayers AccountId (Pallets AccountId)))}

omit cfg in
lemma turnStep_eq_some {cfg : Config AccountId} {i : Turn AccountId} :
    turnStep cfg host s i = some s' ↔
      ∃ j, i.step host s = some j ∧ networkStep cfg Pallets.replaceAuthority s j = some s' :=
  Option.bind_eq_some_iff

/-- A run of turns is a run of the network. -/
lemma TurnsIf.network (h : TurnsIf cfg host cond s) :
    NetworkIf cfg Pallets.replaceAuthority anyStep s := by
  refine Reachable.invariant (P := NetworkIf cfg Pallets.replaceAuthority anyStep)
    (fun t ht => ?_) (fun t i t' ht _ hstep => ?_) h
  · obtain ⟨g, ⟨lifetime, isActive, fraction, members, authority, hrelay⟩, hg⟩ := ht
    exact .init ⟨g, ⟨lifetime, isActive, fraction, members, _, hrelay⟩, hg⟩
  · obtain ⟨j, -, hj⟩ := turnStep_eq_some.mp hstep
    exact .step ht trivial hj

/-- **What a turn does to the pallets**, between relay managers that have not panicked. -/
inductive Turned (host : Btc.Host AccountId)
    (s : State AccountId (Option (Relayers AccountId (Pallets AccountId)))) (i : Turn AccountId)
    (r r' : Relayers AccountId (Pallets AccountId)) : Prop
  /-- Nothing. -/
  | kept (j : Staking.Step AccountId (Act AccountId (Pallets AccountId))) (hi : i = .network j)
      (hqueues : r'.queues = r.queues)
  /-- One of them takes a step. -/
  | pallets (j : Pallets.Step AccountId) (hi : i = .pallets j)
      (hstep : Pallets.step host r j = some r'.queues)
  /-- A round begins. -/
  | begins (j : Staking.Step AccountId (Act AccountId (Pallets AccountId)))
      (r₁ : Relayers AccountId (Pallets AccountId)) (hi : i = .network j)
      (hbegins : roundBegins s j = some r₁) (hqueues : r₁.queues = r.queues)
      (hqueues' : r'.queues =
        (r₁.handleDelayedRelayerSets Pallets.replaceAuthority (s.now + 1)).queues)

/-- **Step lemma.**  Every turn is one of these, and the relay manager does not panic in it. -/
lemma turnStep_turned {i : Turn AccountId} (hs : StateInv cfg s)
    (h : turnStep cfg host s i = some s') {r : Relayers AccountId (Pallets AccountId)}
    (ht : Tied s r) (hround : r.round = s.now) :
    ∃ r', s'.relay = some r' ∧ Turned host s i r r' := by
  obtain ⟨j, hj, hstep⟩ := turnStep_eq_some.mp h
  obtain ⟨r', ht', -, -⟩ := networkStep_tied (P := fun _ => True)
    (fun _ _ _ _ => trivial) (fun _ _ _ _ _ _ => trivial) hs (leaves_true s _) hstep ht hround trivial
  refine ⟨r', ht'.relay, ?_⟩
  cases i with
  | pallets k =>
      simp only [Turn.step, ht.relay, Option.bind_eq_bind, Option.bind_some, Option.bind_eq_some_iff,
        Option.pure_def, Option.some.injEq] at hj
      obtain ⟨q, hq, rfl⟩ := hj
      obtain rfl := Option.some.inj hstep
      have hr' : s.relay.bind (·.act (.bridge q)) = some r' := ht'.relay
      rw [ht.relay] at hr'
      obtain rfl := Option.some.inj hr'
      exact .pallets k rfl hq
  | network k =>
      have hk : j = k ∧ ∀ q, k ≠ .relay (.bridge q) := by
        cases k with
        | relay a =>
            cases a with
            | bridge q => cases hj
            | _ => exact ⟨(Option.some.inj hj).symm, by simp⟩
        | _ => exact ⟨(Option.some.inj hj).symm, by simp⟩
      obtain ⟨rfl, hbridge⟩ := hk
      cases hbegins : roundBegins s j with
      | none => exact .kept j rfl (networkStep_queues hs hstep ht.relay hbridge hbegins r' ht'.relay)
      | some r₁ =>
          refine .begins j r₁ rfl hbegins ?_
            (networkStep_begins (blind_queues _) hstep ht hround hbegins rfl r' ht'.relay)
          cases j with
          | newSession now newIndex validators hasKeys =>
              rw [roundBegins, ht.relay, Option.map_some] at hbegins
              split_ifs at hbegins
              exact (Option.some.inj hbegins) ▸ rfl
          | _ => cases hbegins

/-- In the first states the pallets have just been set up. -/
lemma IsFirst.queues (h : IsFirst cfg host s) :
    ∃ r members authority, s.relay = some r ∧ r.queues = .genesis host members authority := by
  have hnet : NetworkIf cfg Pallets.replaceAuthority anyStep s :=
    TurnsIf.network (Reachable.init h : TurnsIf cfg host anyStep s)
  obtain ⟨r, htied, -⟩ := hnet.tied
  obtain ⟨g, ⟨lifetime, isActive, fraction, members, authority, hrelay⟩, hg⟩ := h
  exact ⟨r, members, authority, htied.relay,
    build_holds (blind_queues _) hg (hrelay ▸ .some rfl) r htied.relay⟩

/-- **Invariants of the pallets.**  Their own steps keep them, and so do the replacements at the beginning
of a round. -/
lemma TurnsIf.invariant {P : Pallets AccountId → Prop}
    (h0 : ∀ members authority, P (.genesis host members authority))
    (hpallets : ∀ t i r q, cond t (.pallets i) → t.relay = some r → P r.queues →
      Pallets.step host r i = some q → P q)
    (hbegins : ∀ t i r, cond t (.network i) → roundBegins t i = some r → P r.queues →
      P (r.handleDelayedRelayerSets Pallets.replaceAuthority (t.now + 1)).queues)
    (h : TurnsIf cfg host cond s) : ∃ r, s.relay = some r ∧ P r.queues := by
  have hboth : NetworkIf cfg Pallets.replaceAuthority anyStep s ∧ ∃ r, s.relay = some r ∧ P r.queues := by
    refine Reachable.invariant (P := fun t => NetworkIf cfg Pallets.replaceAuthority anyStep t ∧
      ∃ r, t.relay = some r ∧ P r.queues) (fun t ht => ?_) (fun t i t' ht hc hstep => ?_) h
    · have hnet : NetworkIf cfg Pallets.replaceAuthority anyStep t :=
        TurnsIf.network (Reachable.init ht : TurnsIf cfg host cond t)
      obtain ⟨r, members, authority, hr, hqueues⟩ := ht.queues
      exact ⟨hnet, r, hr, hqueues ▸ h0 members authority⟩
    · obtain ⟨hnet, r, hr, hP⟩ := ht
      obtain ⟨r₀, htied, hround⟩ := hnet.tied
      obtain rfl : r₀ = r := Option.some.inj (htied.relay.symm.trans hr)
      obtain ⟨j, -, hj⟩ := turnStep_eq_some.mp hstep
      obtain ⟨r', hr', hturned⟩ := turnStep_turned hnet.staking.inv hstep htied hround
      refine ⟨.step hnet trivial hj, r', hr', ?_⟩
      cases hturned with
      | kept k _ hqueues => exact hqueues ▸ hP
      | pallets k hi hpallet =>
          subst hi
          exact hpallets t k r₀ r'.queues hc hr hP hpallet
      | begins k r₁ hi hbegin hqueues hqueues' =>
          subst hi
          rw [hqueues']
          exact hbegins t k r₁ hc hbegin (hqueues ▸ hP)
  exact hboth.2

/-- **Replacements**, one after the other, keep what one of them keeps. -/
lemma Relayers.applyRelayerSets_keeps {P : Pallets AccountId → Prop}
    (hP : ∀ q old new, P q → P (q.replaceAuthority old new)) :
    ∀ (sets : List (DelayedRelayerSet AccountId)) (r : Relayers AccountId (Pallets AccountId)),
      P r.queues → P (sets.foldl (applyRelayerSet Pallets.replaceAuthority) r).queues := by
  intro sets
  induction sets with
  | nil => exact fun _ hr => hr
  | cons x sets ih =>
      intro r hr
      rw [List.foldl_cons]
      refine ih _ ?_
      rw [applyRelayerSet_queues]
      split_ifs
      · exact hP r.queues x.old x.new hr
      · exact hr

/-- **The pallets are machines of their own.**  Whatever they reach next to the relay manager, each of
them reaches by steps of its own, so what is known about its runs is known about the network. -/
theorem pallets_reached (h : TurnsIf cfg host cond s) :
    ∃ r, s.relay = some r ∧
      Cccp.ReachableIf ⟨host.codec, host.chainId⟩ anyStep r.queues.relayQueue ∧
      Btc.BridgeIf host anyStep r.queues.bridge := by
  have hsteps (t : State AccountId (Option (Relayers AccountId (Pallets AccountId))))
      (i : Pallets.Step AccountId) (r : Relayers AccountId (Pallets AccountId))
      (q : Pallets AccountId) (_ : cond t (.pallets i)) (_ : t.relay = some r)
      (hr : r.queues.Reached host) (hstep : Pallets.step host r i = some q) : q.Reached host := by
    rcases Pallets.step_cases hstep with ⟨k, j, -, -, hj, heq⟩ | ⟨k, j, -, -, hj, heq⟩
    · refine ⟨.step hr.relayQueue trivial hj, ?_⟩
      rw [heq]
      exact hr.bridge
    · refine ⟨?_, .step hr.bridge trivial hj⟩
      rw [heq]
      exact hr.relayQueue
  have hreplaced (q : Pallets AccountId) (old new : AccountId) (hq : q.Reached host) :
      (q.replaceAuthority old new).Reached host :=
    ⟨.step (i := .replaceAuthority old new) hq.relayQueue trivial rfl,
      .step (i := .replaceAuthority old new) hq.bridge trivial rfl⟩
  obtain ⟨r, hr, hreached⟩ := TurnsIf.invariant (P := Pallets.Reached host)
    (fun members authority => ⟨.init rfl, .init ⟨members, authority, rfl⟩⟩) hsteps
    (fun t i r _ _ hr => Relayers.applyRelayerSets_keeps hreplaced _ _ hr) h
  exact ⟨r, hr, hreached.relayQueue, hreached.bridge⟩

end Turns

/-! ## A small network

Five full nodes with their relayers, and the sample message of the relay queue. -/

section Bridged

open Cccp (sampleAsset sampleVote)

def bridgedConfig : Config ℕ := { devnet with defaultMaxSelectedFullCandidates := 5 }

def bridgedGenesis : GenesisConfig ℕ (Option (Relayers ℕ (Pallets ℕ))) where
  candidates := [(1, 2, 3, 1000), (11, 12, 13, 1000), (21, 22, 23, 1000), (31, 32, 33, 1000),
    (41, 42, 43, 1000)]
  nominations := []
  inflationConfig := devnetGenesis.inflationConfig
  free := devnetGenesis.free
  others := devnetGenesis.others
  relay := some (.genesis 4 false .zero [3, 13] (.genesis Btc.smallHost [3, 13] none))
  offences := devnetGenesis.offences

/-- A relayer votes for the sample. -/
def bridgedVote (relayer : ℕ) : Turn ℕ := .pallets (.relayQueue (sampleVote 0 relayer))

/-- The first round ends. -/
def bridgedRound : Turn ℕ := .network (.newSession 20 2 [] fun _ => true)

/-- The sample may be voted for. -/
def bridgedStart : List (Turn ℕ) := sampleAsset.map fun i => .pallets (.relayQueue i)

/-- What a run shows, it shows of a state that is reached under the condition. -/
lemma bridgedRun_exists
    (cond : State ℕ (Option (Relayers ℕ (Pallets ℕ))) → Turn ℕ → Prop) [∀ s i, Decidable (cond s i)]
    (steps : List (Turn ℕ)) {P : State ℕ (Option (Relayers ℕ (Pallets ℕ))) → Bool}
    (h : ((bridgedGenesis.build bridgedConfig (Strict.manager Pallets.replaceAuthority)).bind fun s =>
      runSteps (checked (turnStep bridgedConfig Btc.smallHost) cond) s steps).any P = true) :
    ∃ s, TurnsIf bridgedConfig Btc.smallHost cond s ∧ P s = true := by
  obtain ⟨s, hs, hP⟩ := (Option.any_eq_true _ _).mp h
  obtain ⟨s₀, h₀, hs⟩ := Option.bind_eq_some_iff.mp hs
  exact ⟨s, .runChecked (.init ⟨bridgedGenesis, ⟨4, false, .zero, [3, 13], none, rfl⟩, h₀⟩) hs, hP⟩

/-- Relayer 3 votes and is replaced by account 5, and the relay queue knows. -/
theorem pallets_reached_small : ∃ s r, TurnsIf bridgedConfig Btc.smallHost anyStep s ∧
    s.relay = some r ∧ r.queues.relayQueue.pendingTransferCount.getD 5 0 = 1 ∧
    Cccp.ReachableIf ⟨Btc.smallHost.codec, Btc.smallHost.chainId⟩ anyStep r.queues.relayQueue ∧
    Btc.BridgeIf Btc.smallHost anyStep r.queues.bridge := by
  have hrun := bridgedRun_exists anyStep
    (bridgedStart ++ [bridgedVote 3, .network (.relay (.setRelayer (.signed 2) 5)), bridgedRound])
    (P := fun s => s.relay.any fun r => decide (r.queues.relayQueue.pendingTransferCount.getD 5 0 = 1))
    (by decide +kernel)
  obtain ⟨s, hs, hP⟩ := hrun
  obtain ⟨r, hr, hcount⟩ := (Option.any_eq_true _ _).mp hP
  obtain ⟨r₀, hr₀, hreached⟩ := pallets_reached hs
  obtain rfl : r₀ = r := Option.some.inj (hr₀.symm.trans hr)
  exact ⟨s, r₀, hs, hr, of_decide_eq_true hcount, hreached⟩

end Bridged

end BifrostNode.Relay
