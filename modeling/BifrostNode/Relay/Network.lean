import BifrostNode.Relay.Manager
import BifrostNode.Staking.Safety

/-!
# The relay manager with its panics, driven by staking

**Panics.**  `Strict` repeats the functions of the relay manager with every `expect` of the source as a
lookup that may fail: `none` is a panic.  The bounds of the pool and of the selected set are checked
here too.  Where a function cannot panic it is the one of `Relayers`.

**The network.**  `bfc-staking` with this relay manager.  A step is a step of `bfc-staking`, or something
that the relay manager does by itself (`Act`): its extrinsics, changes of the relay executive and of the
session, and whatever happens in the bridge pallets.
-/

namespace BifrostNode.Relay

open Staking Transition

variable {AccountId Q : Type} [LinearOrder AccountId]

namespace Strict

variable (s : Relayers AccountId Q)

/-- Rewrite the state of a relayer that must exist. -/
def modifyRelayer (relayer : AccountId) (f : RelayerMetadata AccountId → RelayerMetadata AccountId) :
    Option (Relayers AccountId Q) :=
  (s.relayerState.get relayer).map fun state =>
    { s with relayerState := s.relayerState.insert relayer (f state) }

/-- `kickout_relayer`. -/
def kickoutRelayer (controller : AccountId) : Option (Relayers AccountId Q) :=
  match s.bondedController.get controller with
  | none => some s
  | some relayer => do
      let s ← modifyRelayer s relayer .kickOut
      if relayer ∈ s.selectedRelayers then
        let s := { s with selectedRelayers := s.selectedRelayers.erase relayer }
        let s := s.refreshLatestCachedRelayers
        return { s with majority := s.computeMajority }.refreshLatestCachedMajority
      else return s

/-- `refresh_relayer_pool`. -/
def refreshRelayerPool : Option (Relayers AccountId Q) :=
  s.relayerPool.foldlM (fun s r => modifyRelayer s r.relayer fun state =>
    if state.isKickedOut then state else state.goOffline) s

/-- `BoundedBTreeSet::try_insert`. -/
def tryInsert (selected : Finset AccountId) (relayer : AccountId) : Option (Finset AccountId) :=
  if relayer ∈ selected ∨ selected.card < maxAuthorities then some (insert relayer selected) else none

/-- One controller of `refresh_selected_relayers`. -/
def selectRelayer (acc : Finset AccountId × Relayers AccountId Q) (controller : AccountId) :
    Option (Finset AccountId × Relayers AccountId Q) :=
  match acc.2.bondedController.get controller with
  | none => some acc
  | some relayer => do
      let selected ← tryInsert acc.1 relayer
      let s ← modifyRelayer acc.2 relayer .goOnline
      return (selected, s)

/-- `refresh_selected_relayers`. -/
def refreshSelectedRelayers (round : ℕ) (selectedCandidates : List AccountId) :
    Option (Relayers AccountId Q) := do
  let s ← refreshRelayerPool s
  let (selected, s) ← selectedCandidates.foldlM selectRelayer (∅, s)
  return { s with
    selectedRelayers := selected
    initialSelectedRelayers := selected }.refreshCachedSelectedRelayers round selected

/-- `replace_bonded_controller`. -/
def replaceBondedController (old new : AccountId) : Option (Relayers AccountId Q) :=
  match s.bondedController.get old with
  | none => some s
  | some relayer => do
      let s := { s with
        bondedController := (s.bondedController.remove old).insert new relayer }
      let s ← modifyRelayer s relayer fun state => { state with controller := new }
      let s := (s.removeFromRelayerPool old false).2
      (s.addToRelayerPool relayer new).toOption

/-- One validator of `collect_heartbeats`. -/
def collectHeartbeat (s : Relayers AccountId Q) (controller : AccountId) :
    Option (Relayers AccountId Q) :=
  match s.bondedController.get controller with
  | none => some s
  | some relayer =>
      if s.isHeartbeatPulsed relayer then some s
      else do
        let relayer ← s.bondedController.get controller
        modifyRelayer s relayer .goOffline

/-- `collect_heartbeats`. -/
def collectHeartbeats : Option (Relayers AccountId Q) := do
  let s ← s.validators.foldlM collectHeartbeat s
  return { s with
    receivedHeartbeats := s.receivedHeartbeats.filterKeys fun k => k.1 ≠ s.sessionIndex }

/-- `replace_selected_relayers`. -/
def replaceSelectedRelayers (old new : AccountId) : Option (Relayers AccountId Q) :=
  if old ∈ s.selectedRelayers then do
    let selected ← tryInsert (s.selectedRelayers.erase old) new
    return ({ s with
      selectedRelayers := selected }.refreshLatestCachedRelayers).replaceHeartbeats old new
  else some s

/-- `replace_relayer_pool`. -/
def replaceRelayerPool (old new controller : AccountId) : Option (Relayers AccountId Q) :=
  let (removed, s) := s.removeFromRelayerPool old true
  if removed then (s.addToRelayerPool new controller).toOption else some s

/-- `replace_bonded_relayer`: whether the relayer was there to be replaced. -/
def replaceBondedRelayer (old new : AccountId) : Option (Bool × Relayers AccountId Q) :=
  match s.relayerState.get old with
  | none => some (false, s)
  | some state => do
      let s := { s with
        bondedController := s.bondedController.insert state.controller new
        relayerState := (s.relayerState.remove old).insert new state }
      let s ← replaceRelayerPool s old new state.controller
      let s ← replaceSelectedRelayers s old new
      return (true, s)

/-- One request of `handle_delayed_relayer_sets`. -/
def applyRelayerSet (replaceAuthority : Q → AccountId → AccountId → Q) (s : Relayers AccountId Q)
    (r : DelayedRelayerSet AccountId) : Option (Relayers AccountId Q) := do
  let (replaced, s) ← replaceBondedRelayer s r.old r.new
  if replaced then
    return { s with queues := replaceAuthority s.queues r.old r.new }.replaceMember r.old r.new
  else return s

/-- `handle_delayed_relayer_sets`. -/
def handleDelayedRelayerSets (replaceAuthority : Q → AccountId → AccountId → Q) (now : ℕ) :
    Option (Relayers AccountId Q) :=
  (s.delayedRelayerSets.getD (now - 1) []).foldlM (applyRelayerSet replaceAuthority)
    { s with delayedRelayerSets := s.delayedRelayerSets.remove (now - 1) }

/-- `heartbeat` and `heartbeat_v2`. -/
def heartbeat (relayer : AccountId) (versions : Option (ℕ × BitVec 256)) :
    Except Error (Option (Relayers AccountId Q)) := do
  ensure (s.isRelayer relayer) .relayerDNE
  ensure (s.isSelectedRelayer relayer false) .relayerInactive
  if s.isHeartbeatPulsed relayer then return some s
  let s := { s with
    receivedHeartbeats := s.receivedHeartbeats.insert (s.sessionIndex, relayer) true }
  return modifyRelayer s relayer fun state => match versions with
    | none => state.goOnline
    | some (implVersion, specVersion) =>
        { state.goOnline with implVersion := some implVersion, specVersion := some specVersion }

/-- The `RelayManager` that `bfc-staking` is configured with.  Nothing happens after a panic. -/
def manager (replaceAuthority : Q → AccountId → AccountId → Q) :
    RelayManager AccountId (Option (Relayers AccountId Q)) where
  joinRelayers o relayer controller := do
    let s ← okOr o .relayManager
    let s ← (s.joinRelayers relayer controller).mapError fun _ => Staking.Error.relayManager
    return some s
  leaveRelayers o controller := o.map (·.leaveRelayers controller)
  kickoutRelayer o controller := o.bind (kickoutRelayer · controller)
  refreshRound o now := o.map (·.refreshRound now)
  handleDelayedRelayerSets o now := o.bind (handleDelayedRelayerSets · replaceAuthority now)
  refreshSelectedRelayers o round selectedCandidates :=
    o.bind (refreshSelectedRelayers · round selectedCandidates)
  refreshMajority o round := o.map (·.refreshMajority round)
  replaceBondedController o old new := o.bind (replaceBondedController · old new)
  collectHeartbeats o := o.bind collectHeartbeats

end Strict

/-! ## What the relay manager does by itself -/

inductive Act (AccountId Q : Type)
  | setStorageCacheLifetime (origin : Origin AccountId) (new : ℕ)
  | setHeartbeatOffenceActivation (origin : Origin AccountId) (isActive : Bool)
  | setHeartbeatSlashFraction (origin : Origin AccountId) (new : Perbill)
  | setRelayer (origin : Origin AccountId) (new : AccountId)
  | cancelRelayerSet (origin : Origin AccountId)
  | heartbeat (origin : Origin AccountId) (versions : Option (ℕ × BitVec 256))
  | membership (members : List AccountId) (prime : Option AccountId)
  | session (validators : List AccountId) (sessionIndex : ℕ)
  | bridge (queues : Q)

/-- `ensure_signed`. -/
def signer : Origin AccountId → Except Error AccountId
  | .signed who => .ok who
  | _ => .error .badOrigin

/-- One of these, with its panics. -/
def Relayers.act (s : Relayers AccountId Q) : Act AccountId Q → Option (Relayers AccountId Q)
  | .setStorageCacheLifetime origin new => some (commit s (s.setStorageCacheLifetime origin new))
  | .setHeartbeatOffenceActivation origin isActive =>
      some (commit s (s.setHeartbeatOffenceActivation origin isActive))
  | .setHeartbeatSlashFraction origin new => some (commit s (s.setHeartbeatSlashFraction origin new))
  | .setRelayer origin new =>
      some (commit s (signer origin >>= fun controller => s.setRelayer controller new))
  | .cancelRelayerSet origin => some (commit s (signer origin >>= s.cancelRelayerSet))
  | .heartbeat origin versions =>
      commit (some s) (signer origin >>= fun relayer => Strict.heartbeat s relayer versions)
  | .membership members prime => some { s with members := members, prime := prime }
  | .session validators sessionIndex =>
      some { s with validators := validators, sessionIndex := sessionIndex }
  | .bridge queues => some { s with queues := queues }

/-! ## The network -/

omit [LinearOrder AccountId] in
/-- A step of `bfc-staking` next to another relay manager. -/
def mapStep {R R' : Type} (f : R → R') : Step AccountId R → Step AccountId R'
  | .call origin c => .call origin c
  | .onInitialize n drained => .onInitialize n drained
  | .noteAuthor author => .noteAuthor author
  | .endSession => .endSession
  | .newSession now newIndex sessionValidators hasKeys =>
      .newSession now newIndex sessionValidators hasKeys
  | .onOffence offenders slashSession => .onOffence offenders slashSession
  | .balances free others => .balances free others
  | .relay state => .relay (f state)
  | .offenceSettings isOffenceActive isSlashActive expiration full basic =>
      .offenceSettings isOffenceActive isSlashActive expiration full basic

section Network

variable (cfg : Config AccountId) (replaceAuthority : Q → AccountId → AccountId → Q)

/-- **One step.**  The relay manager acts on the state that it is in. -/
def networkStep (s : State AccountId (Option (Relayers AccountId Q)))
    (i : Step AccountId (Act AccountId Q)) : Option (State AccountId (Option (Relayers AccountId Q))) :=
  s.step cfg (Strict.manager replaceAuthority) (mapStep (fun a => s.relay.bind (·.act a)) i)

/-- The first states: the relay manager starts out empty. -/
def IsNetworkGenesis (s : State AccountId (Option (Relayers AccountId Q))) : Prop :=
  ∃ g : GenesisConfig AccountId (Option (Relayers AccountId Q)),
    (∃ lifetime isActive fraction members queues,
      g.relay = some (.genesis lifetime isActive fraction members queues)) ∧
    g.build cfg (Strict.manager replaceAuthority) = some s

/-- The states of runs all of whose steps meet a condition. -/
def NetworkIf
    (cond : State AccountId (Option (Relayers AccountId Q)) → Step AccountId (Act AccountId Q) → Prop)
    (s : State AccountId (Option (Relayers AccountId Q))) : Prop :=
  Reachable (IsNetworkGenesis cfg replaceAuthority) (networkStep cfg replaceAuthority) cond s

end Network

section Runs

variable {cfg : Config AccountId} {replaceAuthority : Q → AccountId → AccountId → Q}
  {s : State AccountId (Option (Relayers AccountId Q))}
  {cond : State AccountId (Option (Relayers AccountId Q)) → Step AccountId (Act AccountId Q) → Prop}

/-- A run of the network is a run of `bfc-staking`. -/
lemma NetworkIf.staking (h : NetworkIf cfg replaceAuthority cond s) :
    ReachableIf cfg (Strict.manager replaceAuthority) anyStep s := by
  refine Reachable.invariant (P := ReachableIf cfg (Strict.manager replaceAuthority) anyStep)
    (fun t ht => ?_) (fun t i t' ht _ hstep => ?_) h
  · obtain ⟨g, -, hg⟩ := ht
    exact .init ⟨g, hg⟩
  · exact .step ht trivial hstep

end Runs

/-! ## A small network

The full nodes of the small staking network, with their relayers and without a bridge. -/

section Devnet

def bridgeless : Unit → ℕ → ℕ → Unit := fun _ _ _ => ()

def networkGenesis : GenesisConfig ℕ (Option (Relayers ℕ Unit)) where
  candidates := devnetGenesis.candidates
  nominations := devnetGenesis.nominations
  inflationConfig := devnetGenesis.inflationConfig
  free := devnetGenesis.free
  others := devnetGenesis.others
  relay := some (Relayers.genesis 4 false .zero [] ())
  offences := devnetGenesis.offences

/-- What a run shows, it shows of a state that the network reaches under the condition. -/
lemma networkRun_exists {cond : State ℕ (Option (Relayers ℕ Unit)) → Step ℕ (Act ℕ Unit) → Prop}
    [∀ s i, Decidable (cond s i)] {steps : List (Step ℕ (Act ℕ Unit))}
    {P : State ℕ (Option (Relayers ℕ Unit)) → Bool}
    (h : ((networkGenesis.build devnet (Strict.manager bridgeless)).bind fun s =>
      runSteps (checked (networkStep devnet bridgeless) cond) s steps).any P = true) :
    ∃ s, NetworkIf devnet bridgeless cond s ∧ P s = true := by
  obtain ⟨s, hs, hP⟩ := (Option.any_eq_true _ _).mp h
  obtain ⟨s₀, h₀, hs⟩ := Option.bind_eq_some_iff.mp hs
  exact ⟨s, .runChecked (.init ⟨networkGenesis, ⟨4, false, .zero, [], (), rfl⟩, h₀⟩) hs, hP⟩

end Devnet

end BifrostNode.Relay
