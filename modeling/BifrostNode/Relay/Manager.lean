import BifrostNode.Staking.Machine

/-!
# The relay manager

`relay-manager` keeps, for every full node, the relayer account that its controller is bonded to, and
selects the relayers whose votes count in the bridge pallets.  `bfc-staking` drives it through the
`RelayManager` trait; relayers change their account with a delay of one round.

**Replacements.**  When the account of a relayer changes, `replace_authority` is called on each of the
bridge pallets.  Their storage is a parameter `Q` here.

What the pallet reads from `ValidatorSet`, the validators and the index of the session, is part of the
state, so that it can change between calls.  An `expect` of the source on a record that belongs to a
bond is a lookup that leaves things as they are when there is none.
-/

namespace BifrostNode.Relay

open Staking Transition

variable {AccountId Q : Type}

/-! ## Records -/

inductive Error
  | relayerAlreadyJoined
  | relayerAlreadyBonded
  | relayerInactive
  | relayerDNE
  | controllerDNE
  | relayerSetDNE
  | noWritingSameValue
  | cannotSetBelowOne
  | tooManyRelayers
  | tooManySelectedRelayers
  | alreadyRelayerSetRequested
  | tooManyDelayedRelayers
  | badOrigin
  deriving DecidableEq

inductive RelayerStatus
  | active
  | idle
  | kickedOut
  deriving DecidableEq

structure Relayer (AccountId : Type) where
  relayer : AccountId
  controller : AccountId
  deriving DecidableEq

structure RelayerMetadata (AccountId : Type) where
  controller : AccountId
  status : RelayerStatus
  implVersion : Option ℕ
  specVersion : Option (BitVec 256)

namespace RelayerMetadata

def new (controller : AccountId) : RelayerMetadata AccountId := ⟨controller, .idle, none, none⟩

def goOffline (self : RelayerMetadata AccountId) : RelayerMetadata AccountId :=
  { self with status := .idle }

def goOnline (self : RelayerMetadata AccountId) : RelayerMetadata AccountId :=
  { self with status := .active }

def kickOut (self : RelayerMetadata AccountId) : RelayerMetadata AccountId :=
  { self with status := .kickedOut }

def isKickedOut (self : RelayerMetadata AccountId) : Bool := self.status = .kickedOut

end RelayerMetadata

structure DelayedRelayerSet (AccountId : Type) where
  old : AccountId
  new : AccountId
  deriving DecidableEq

/-- The storage of the pallet, the members of the relay executive, and the storage of the bridge
pallets. -/
structure Relayers (AccountId Q : Type) where
  storageCacheLifetime : ℕ
  round : ℕ
  bondedController : StorageMap AccountId AccountId
  relayerPool : List (Relayer AccountId)
  relayerState : StorageMap AccountId (RelayerMetadata AccountId)
  selectedRelayers : Finset AccountId
  initialSelectedRelayers : Finset AccountId
  cachedSelectedRelayers : StorageMap ℕ (Finset AccountId)
  cachedInitialSelectedRelayers : StorageMap ℕ (Finset AccountId)
  majority : ℕ
  initialMajority : ℕ
  cachedMajority : StorageMap ℕ ℕ
  cachedInitialMajority : StorageMap ℕ ℕ
  receivedHeartbeats : StorageMap (ℕ × AccountId) Bool
  isHeartbeatOffenceActive : Bool
  heartbeatSlashFraction : Perbill
  delayedRelayerSets : StorageMap ℕ (List (DelayedRelayerSet AccountId))
  members : List AccountId
  prime : Option AccountId
  validators : List AccountId
  sessionIndex : ℕ
  queues : Q

namespace Relayers

/-- `GenesisConfig::build`. -/
def genesis (storageCacheLifetime : ℕ) (isHeartbeatOffenceActive : Bool)
    (heartbeatSlashFraction : Perbill) (members : List AccountId) (queues : Q) :
    Relayers AccountId Q where
  storageCacheLifetime := storageCacheLifetime
  round := 0
  bondedController := ∅
  relayerPool := []
  relayerState := ∅
  selectedRelayers := ∅
  initialSelectedRelayers := ∅
  cachedSelectedRelayers := ∅
  cachedInitialSelectedRelayers := ∅
  majority := 0
  initialMajority := 0
  cachedMajority := ∅
  cachedInitialMajority := ∅
  receivedHeartbeats := ∅
  isHeartbeatOffenceActive := isHeartbeatOffenceActive
  heartbeatSlashFraction := heartbeatSlashFraction
  delayedRelayerSets := ∅
  members := members
  prime := none
  validators := []
  sessionIndex := 0
  queues := queues

variable [LinearOrder AccountId]

/-! ## Reading -/

/-- `is_authority`. -/
def isAuthority (s : Relayers AccountId Q) (who : AccountId) : Bool := who ∈ s.selectedRelayers

/-- `is_relayer`. -/
def isRelayer (s : Relayers AccountId Q) (relayer : AccountId) : Bool :=
  (s.relayerState.get relayer).isSome

/-- `is_selected_relayer`. -/
def isSelectedRelayer (s : Relayers AccountId Q) (relayer : AccountId) (isInitial : Bool) : Bool :=
  if isInitial then relayer ∈ s.initialSelectedRelayers else relayer ∈ s.selectedRelayers

/-- The relayer changes requested in the current round. -/
def relayerSets (s : Relayers AccountId Q) : List (DelayedRelayerSet AccountId) :=
  s.delayedRelayerSets.getD s.round []

/-- `is_relayer_set_requested`. -/
def isRelayerSetRequested (s : Relayers AccountId Q) (relayer : AccountId) : Bool :=
  s.relayerSets.any fun r => r.old = relayer

/-- `compute_majority`. -/
def computeMajority (s : Relayers AccountId Q) : ℕ := s.selectedRelayers.card / 2 + 1

/-- `is_heartbeat_pulsed`. -/
def isHeartbeatPulsed (s : Relayers AccountId Q) (relayer : AccountId) : Bool :=
  s.receivedHeartbeats.getD (s.sessionIndex, relayer) false

/-- `verify_relayer_existence`. -/
def verifyRelayerExistence (s : Relayers AccountId Q) (relayer controller : AccountId) :
    Except Error Unit := do
  ensure (!s.isRelayer relayer) .relayerAlreadyJoined
  ensure ((s.bondedController.get controller).isNone) .relayerAlreadyBonded
  ensure (!s.relayerSets.any fun r => r.new = relayer) .alreadyRelayerSetRequested

/-! ## Writing -/

/-- Rewrite the state of a relayer that exists. -/
def modifyRelayer (s : Relayers AccountId Q) (relayer : AccountId)
    (f : RelayerMetadata AccountId → RelayerMetadata AccountId) : Relayers AccountId Q :=
  match s.relayerState.get relayer with
  | none => s
  | some state => { s with relayerState := s.relayerState.insert relayer (f state) }

/-- `add_to_relayer_pool`. -/
def addToRelayerPool (s : Relayers AccountId Q) (relayer controller : AccountId) :
    Except Error (Relayers AccountId Q) := do
  ensure (s.relayerPool.length < maxAuthorities) .tooManyRelayers
  return { s with relayerPool := s.relayerPool ++ [⟨relayer, controller⟩] }

/-- `remove_from_relayer_pool`: by relayer or by controller. -/
def removeFromRelayerPool (s : Relayers AccountId Q) (acc : AccountId) (isRelayer : Bool) :
    Bool × Relayers AccountId Q :=
  let pool := s.relayerPool.filter fun r => if isRelayer then r.relayer ≠ acc else r.controller ≠ acc
  (decide (pool.length < s.relayerPool.length), { s with relayerPool := pool })

/-- `refresh_latest_cached_relayers`. -/
def refreshLatestCachedRelayers (s : Relayers AccountId Q) : Relayers AccountId Q :=
  { s with
    cachedSelectedRelayers := s.cachedSelectedRelayers.insert s.round s.selectedRelayers }

/-- `refresh_latest_cached_majority`. -/
def refreshLatestCachedMajority (s : Relayers AccountId Q) : Relayers AccountId Q :=
  { s with cachedMajority := s.cachedMajority.insert s.round s.majority }

/-! ## What `bfc-staking` calls -/

/-- `join_relayers`. -/
def joinRelayers (s : Relayers AccountId Q) (relayer controller : AccountId) :
    Except Error (Relayers AccountId Q) := do
  s.verifyRelayerExistence relayer controller
  let s ← s.addToRelayerPool relayer controller
  return { s with
    relayerState := s.relayerState.insert relayer (.new controller)
    bondedController := s.bondedController.insert controller relayer }

/-- `leave_relayers`. -/
def leaveRelayers (s : Relayers AccountId Q) (controller : AccountId) : Relayers AccountId Q :=
  match s.bondedController.get controller with
  | none => s
  | some relayer =>
      let s := { s with bondedController := s.bondedController.remove controller }
      let s := (s.removeFromRelayerPool relayer true).2
      { s with relayerState := s.relayerState.remove relayer }

/-- `kickout_relayer`. -/
def kickoutRelayer (s : Relayers AccountId Q) (controller : AccountId) : Relayers AccountId Q :=
  match s.bondedController.get controller with
  | none => s
  | some relayer =>
      let s := s.modifyRelayer relayer .kickOut
      if relayer ∈ s.selectedRelayers then
        let s := { s with selectedRelayers := s.selectedRelayers.erase relayer }
        let s := s.refreshLatestCachedRelayers
        { s with majority := s.computeMajority }.refreshLatestCachedMajority
      else s

/-- `refresh_round`. -/
def refreshRound (s : Relayers AccountId Q) (now : ℕ) : Relayers AccountId Q :=
  { s with round := now }

/-- `refresh_relayer_pool`. -/
def refreshRelayerPool (s : Relayers AccountId Q) : Relayers AccountId Q :=
  s.relayerPool.foldl (fun s r => s.modifyRelayer r.relayer fun state =>
    if state.isKickedOut then state else state.goOffline) s

/-- `refresh_cached_selected_relayers`. -/
def refreshCachedSelectedRelayers (s : Relayers AccountId Q) (round : ℕ)
    (relayers : Finset AccountId) : Relayers AccountId Q :=
  { s with
    cachedSelectedRelayers :=
      (Selection.popFirst s.cachedSelectedRelayers s.storageCacheLifetime).insert round relayers
    cachedInitialSelectedRelayers :=
      (Selection.popFirst s.cachedInitialSelectedRelayers s.storageCacheLifetime).insert round
        relayers }

/-- The loop of `refresh_selected_relayers`. -/
def selectRelayers (s : Relayers AccountId Q) (selectedCandidates : List AccountId) :
    Finset AccountId × Relayers AccountId Q :=
  selectedCandidates.foldl (fun (selected, s) controller =>
    match s.bondedController.get controller with
    | none => (selected, s)
    | some relayer => (insert relayer selected, s.modifyRelayer relayer .goOnline)) (∅, s)

/-- `refresh_selected_relayers`. -/
def refreshSelectedRelayers (s : Relayers AccountId Q) (round : ℕ)
    (selectedCandidates : List AccountId) : Relayers AccountId Q :=
  let (selected, s) := s.refreshRelayerPool.selectRelayers selectedCandidates
  { s with
    selectedRelayers := selected
    initialSelectedRelayers := selected }.refreshCachedSelectedRelayers round selected

/-- `refresh_majority`. -/
def refreshMajority (s : Relayers AccountId Q) (round : ℕ) : Relayers AccountId Q :=
  let majority := s.computeMajority
  { s with
    majority := majority
    initialMajority := majority
    cachedMajority :=
      (Selection.popFirst s.cachedMajority s.storageCacheLifetime).insert round majority
    cachedInitialMajority :=
      (Selection.popFirst s.cachedInitialMajority s.storageCacheLifetime).insert round majority }

/-- `replace_bonded_controller`. -/
def replaceBondedController (s : Relayers AccountId Q) (old new : AccountId) :
    Relayers AccountId Q :=
  match s.bondedController.get old with
  | none => s
  | some relayer =>
      let s := { s with
        bondedController := (s.bondedController.remove old).insert new relayer }
      let s := s.modifyRelayer relayer fun state => { state with controller := new }
      let s := (s.removeFromRelayerPool old false).2
      { s with relayerPool := s.relayerPool ++ [⟨relayer, new⟩] }

/-- `collect_heartbeats`.  The report that it files is a step of its own. -/
def collectHeartbeats (s : Relayers AccountId Q) : Relayers AccountId Q :=
  let s := s.validators.foldl (fun s controller =>
    match s.bondedController.get controller with
    | none => s
    | some relayer =>
        if s.isHeartbeatPulsed relayer then s else s.modifyRelayer relayer .goOffline) s
  { s with receivedHeartbeats := s.receivedHeartbeats.filterKeys fun k => k.1 ≠ s.sessionIndex }

/-! ### Replacing a relayer -/

/-- `replace_heartbeats`. -/
def replaceHeartbeats (s : Relayers AccountId Q) (old new : AccountId) : Relayers AccountId Q :=
  { s with
    receivedHeartbeats := (s.receivedHeartbeats.remove (s.sessionIndex, old)).insert
      (s.sessionIndex, new) (s.isHeartbeatPulsed old) }

/-- `replace_selected_relayers`. -/
def replaceSelectedRelayers (s : Relayers AccountId Q) (old new : AccountId) :
    Relayers AccountId Q :=
  if old ∈ s.selectedRelayers then
    ({ s with
      selectedRelayers :=
        insert new (s.selectedRelayers.erase old) }.refreshLatestCachedRelayers).replaceHeartbeats
      old new
  else s

/-- `replace_relayer_pool`. -/
def replaceRelayerPool (s : Relayers AccountId Q) (old new controller : AccountId) :
    Relayers AccountId Q :=
  let (removed, s) := s.removeFromRelayerPool old true
  if removed then { s with relayerPool := s.relayerPool ++ [⟨new, controller⟩] } else s

/-- `replace_bonded_relayer`: whether the relayer was there to be replaced. -/
def replaceBondedRelayer (s : Relayers AccountId Q) (old new : AccountId) :
    Bool × Relayers AccountId Q :=
  match s.relayerState.get old with
  | none => (false, s)
  | some state =>
      let s := { s with
        bondedController := s.bondedController.insert state.controller new
        relayerState := (s.relayerState.remove old).insert new state }
      (true, (s.replaceRelayerPool old new state.controller).replaceSelectedRelayers old new)

/-- The member of the relay executive is replaced, if it is one and the new account is not. -/
def replaceMember (s : Relayers AccountId Q) (old new : AccountId) : Relayers AccountId Q :=
  if old ∈ s.members ∧ new ∉ s.members then
    { s with
      members := (new :: s.members.erase old).insertionSort (· ≤ ·)
      prime := if s.prime = some old then some new else s.prime }
  else s

/-- One request of `handle_delayed_relayer_sets`. -/
def applyRelayerSet (replaceAuthority : Q → AccountId → AccountId → Q) (s : Relayers AccountId Q)
    (r : DelayedRelayerSet AccountId) : Relayers AccountId Q :=
  let (replaced, s) := s.replaceBondedRelayer r.old r.new
  if replaced then
    { s with queues := replaceAuthority s.queues r.old r.new }.replaceMember r.old r.new
  else s

/-- `handle_delayed_relayer_sets`. -/
def handleDelayedRelayerSets (replaceAuthority : Q → AccountId → AccountId → Q)
    (s : Relayers AccountId Q) (now : ℕ) : Relayers AccountId Q :=
  (s.delayedRelayerSets.getD (now - 1) []).foldl (applyRelayerSet replaceAuthority)
    { s with delayedRelayerSets := s.delayedRelayerSets.remove (now - 1) }

/-- The `RelayManager` that `bfc-staking` is configured with. -/
def manager (replaceAuthority : Q → AccountId → AccountId → Q) :
    RelayManager AccountId (Relayers AccountId Q) where
  joinRelayers s relayer controller :=
    (s.joinRelayers relayer controller).mapError fun _ => .relayManager
  leaveRelayers := leaveRelayers
  kickoutRelayer := kickoutRelayer
  refreshRound := refreshRound
  handleDelayedRelayerSets := handleDelayedRelayerSets replaceAuthority
  refreshSelectedRelayers := refreshSelectedRelayers
  refreshMajority := refreshMajority
  replaceBondedController := replaceBondedController
  collectHeartbeats := collectHeartbeats

/-! ## Extrinsics -/

/-- `set_storage_cache_lifetime`. -/
def setStorageCacheLifetime (s : Relayers AccountId Q) (origin : Origin AccountId) (new : ℕ) :
    Except Error (Relayers AccountId Q) := do
  ensure (origin matches .root) .badOrigin
  ensure (1 ≤ new) .cannotSetBelowOne
  ensure (s.storageCacheLifetime ≠ new) .noWritingSameValue
  return { s with storageCacheLifetime := new }

/-- `set_heartbeat_offence_activation`. -/
def setHeartbeatOffenceActivation (s : Relayers AccountId Q) (origin : Origin AccountId)
    (isActive : Bool) : Except Error (Relayers AccountId Q) := do
  ensure (origin matches .root) .badOrigin
  ensure (isActive ≠ s.isHeartbeatOffenceActive) .noWritingSameValue
  return { s with isHeartbeatOffenceActive := isActive }

/-- `set_heartbeat_slash_fraction`. -/
def setHeartbeatSlashFraction (s : Relayers AccountId Q) (origin : Origin AccountId)
    (new : Perbill) : Except Error (Relayers AccountId Q) := do
  ensure (origin matches .root) .badOrigin
  ensure (s.heartbeatSlashFraction ≠ new) .noWritingSameValue
  return { s with heartbeatSlashFraction := new }

/-- `add_to_relayer_sets`. -/
def addToRelayerSets (s : Relayers AccountId Q) (old new : AccountId) :
    Except Error (Relayers AccountId Q) := do
  ensure (!s.relayerSets.any fun r => r.old = old ∨ r.new = new) .alreadyRelayerSetRequested
  ensure (s.relayerSets.length < maxAuthorities) .tooManyDelayedRelayers
  return { s with
    delayedRelayerSets := s.delayedRelayerSets.insert s.round (s.relayerSets ++ [⟨old, new⟩]) }

/-- `set_relayer`. -/
def setRelayer (s : Relayers AccountId Q) (controller new : AccountId) :
    Except Error (Relayers AccountId Q) := do
  let old ← okOr (s.bondedController.get controller) .controllerDNE
  ensure (old ≠ new) .noWritingSameValue
  ensure (s.isRelayer old) .relayerDNE
  ensure (!s.isRelayer new) .relayerAlreadyJoined
  ensure (!s.isRelayerSetRequested old) .alreadyRelayerSetRequested
  s.addToRelayerSets old new

/-- `cancel_relayer_set`. -/
def cancelRelayerSet (s : Relayers AccountId Q) (controller : AccountId) :
    Except Error (Relayers AccountId Q) := do
  let relayer ← okOr (s.bondedController.get controller) .controllerDNE
  ensure (s.isRelayerSetRequested relayer) .relayerSetDNE
  return { s with
    delayedRelayerSets :=
      s.delayedRelayerSets.insert s.round (s.relayerSets.filter fun r => r.old ≠ relayer) }

end Relayers

end BifrostNode.Relay
