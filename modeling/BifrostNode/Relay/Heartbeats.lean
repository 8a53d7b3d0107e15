import BifrostNode.Relay.Pallets
import BifrostNode.Relay.Archive

/-!
# Heartbeats

Relayers send a heartbeat in every session.  At its end `collect_heartbeats` reports the validators whose
relayers have sent none.

* **What has been heard** in a session is what is stored under its index, as long as sessions follow one
  another: a session ends before the next one starts and before a round begins.
* **Who is reported** is exactly who was not heard, and their relayers go offline.
* **Only authorities are active.**

Heartbeats are accepted from authorities only, and authorities change before the validators of the session
do.  So a validator can be reported whose relayer was not allowed to send one (`silent_by_force`).
-/

namespace BifrostNode.Relay

open Staking Transition

/-! ## The report -/

/-- `UnresponsivenessOffence`. -/
structure UnresponsivenessOffence (AccountId : Type) where
  sessionIndex : ℕ
  validatorSetCount : ℕ
  offenders : List AccountId

section Report

variable {AccountId Q : Type}

/-- The offenders of `collect_heartbeats`. -/
def Relayers.offenders (s : Relayers AccountId Q) : List AccountId :=
  s.validators.filter fun controller =>
    match s.bondedController.get controller with
    | none => false
    | some relayer => !s.isHeartbeatPulsed relayer

/-- What `collect_heartbeats` reports. -/
def Relayers.report (s : Relayers AccountId Q) : Option (UnresponsivenessOffence AccountId) :=
  if s.offenders.isEmpty || !s.isHeartbeatOffenceActive then none
  else some ⟨s.sessionIndex, s.validators.length, s.offenders⟩

lemma Relayers.mem_offenders {s : Relayers AccountId Q} {c : AccountId} :
    c ∈ s.offenders ↔ c ∈ s.validators ∧
      ∃ a, s.bondedController.get c = some a ∧ s.isHeartbeatPulsed a = false := by
  rw [offenders, List.mem_filter]
  cases s.bondedController.get c with
  | none => simp
  | some a => simp

/-- A report is filed if there is somebody to report. -/
lemma Relayers.report_isSome {s : Relayers AccountId Q} :
    s.report.isSome = true ↔ s.isHeartbeatOffenceActive = true ∧ ∃ c, c ∈ s.offenders := by
  have hsome : (∃ c, c ∈ s.offenders) ↔ s.offenders.isEmpty = false := by
    rw [List.isEmpty_eq_false_iff_exists_mem]
  rw [report, hsome]
  cases s.offenders.isEmpty <;> cases s.isHeartbeatOffenceActive <;> simp

end Report

/-! ## What has been heard -/

section Heard

variable {AccountId Q : Type} {heard : Finset AccountId} {s : Relayers AccountId Q}

/-- The session has heard these relayers, and no later one has heard anybody. -/
structure Heard (heard : Finset AccountId) (s : Relayers AccountId Q) : Prop where
  now : ∀ a, s.receivedHeartbeats.getD (s.sessionIndex, a) false = true ↔ a ∈ heard
  later : ∀ k a, s.sessionIndex < k → s.receivedHeartbeats.getD (k, a) false = false

lemma blind_heard (heard : Finset AccountId) : Blind fun s : Relayers AccountId Q => Heard heard s := by
  intro s s' hrest hs
  refine ⟨?_, ?_⟩
  · rw [hrest.heartbeats, hrest.sessionIndex]
    exact hs.now
  · rw [hrest.heartbeats, hrest.sessionIndex]
    exact hs.later

/-- **The next session** has heard nobody yet. -/
lemma Heard.session (hs : Heard heard s) {validators : List AccountId} {sessionIndex : ℕ}
    (hnext : s.sessionIndex < sessionIndex) :
    Heard ∅ { s with validators := validators, sessionIndex := sessionIndex } := by
  refine ⟨fun a => ?_, fun k a hk => hs.later k a (hnext.trans hk)⟩
  show s.receivedHeartbeats.getD (sessionIndex, a) false = true ↔ _
  simp [hs.later sessionIndex a hnext]

variable [LinearOrder AccountId]

/-- **A heartbeat** is heard. -/
lemma Heard.heartbeat (hs : Heard heard s) {relayer : AccountId} {versions : Option (ℕ × BitVec 256)}
    {o : Option (Relayers AccountId Q)} (h : Strict.heartbeat s relayer versions = .ok o) :
    Strict.Holds (Heard (insert relayer heard)) o := by
  simp only [Strict.heartbeat, bind_eq_ok, ensure_eq_ok, exists_const] at h
  obtain ⟨-, -, h⟩ := h
  split_ifs at h with hpulsed
  · rw [← pure_eq_ok.mp h, Finset.insert_eq_of_mem ((hs.now relayer).mp hpulsed)]
    exact .some hs
  · rw [← pure_eq_ok.mp h]
    refine Strict.modifyRelayer_holds (blind_heard _) ⟨fun a => ?_, fun k a hk => ?_⟩ _ _
    · show (s.receivedHeartbeats.insert (s.sessionIndex, relayer) true).getD (s.sessionIndex, a) false =
        true ↔ _
      rw [StorageMap.getD, StorageMap.get_insert, Finset.mem_insert]
      split_ifs with heq
      · simp [(Prod.mk.inj heq).2]
      · have hne : a ≠ relayer := fun h => heq (congrArg _ h)
        rw [or_iff_right hne]
        exact hs.now a
    · show (s.receivedHeartbeats.insert (s.sessionIndex, relayer) true).getD (k, a) false = false
      have hne : (k, a) ≠ (s.sessionIndex, relayer) := fun h => hk.ne' (Prod.mk.inj h).1
      rw [StorageMap.getD, StorageMap.get_insert, if_neg hne]
      exact hs.later k a hk

lemma Heard.replaceHeartbeats (hs : Heard ∅ s) (old new : AccountId) :
    Heard ∅ (s.replaceHeartbeats old new) := by
  have hold : s.isHeartbeatPulsed old = false := by
    rw [← Bool.not_eq_true, Relayers.isHeartbeatPulsed, hs.now]
    exact Finset.notMem_empty old
  have hget (k : ℕ) (a : AccountId) (h : s.receivedHeartbeats.getD (k, a) false = false) :
      (s.replaceHeartbeats old new).receivedHeartbeats.getD (k, a) false = false := by
    rw [Relayers.replaceHeartbeats, hold]
    simp only [StorageMap.getD, StorageMap.get_insert, StorageMap.get_remove]
    split_ifs
    · rfl
    · rfl
    · exact h
  refine ⟨fun a => ?_, fun k a hk => hget k a (hs.later k a hk)⟩
  have hnow : s.receivedHeartbeats.getD (s.sessionIndex, a) false = false := by
    rw [← Bool.not_eq_true, hs.now]
    exact Finset.notMem_empty a
  have hstill := hget s.sessionIndex a hnow
  show (s.replaceHeartbeats old new).receivedHeartbeats.getD (s.sessionIndex, a) false = true ↔ _
  simp [hstill]

/-- **One replacement** finds nothing to carry over. -/
lemma Heard.applyRelayerSet (replaceAuthority : Q → AccountId → AccountId → Q) (hs : Heard ∅ s)
    (x : DelayedRelayerSet AccountId) : Heard ∅ (s.applyRelayerSet replaceAuthority x) := by
  have hpool (t : Relayers AccountId Q) (controller : AccountId) (ht : Heard ∅ t) :
      Heard ∅ (t.replaceRelayerPool x.old x.new controller) := by
    refine blind_heard ∅ t _ ?_ ht
    simp only [Relayers.replaceRelayerPool, Relayers.removeFromRelayerPool]
    split_ifs <;> exact ⟨rfl, rfl, rfl, rfl⟩
  have hselected (t : Relayers AccountId Q) (ht : Heard ∅ t) :
      Heard ∅ (t.replaceSelectedRelayers x.old x.new) := by
    rw [Relayers.replaceSelectedRelayers]
    split_ifs
    · refine Heard.replaceHeartbeats ?_ x.old x.new
      exact blind_heard ∅ t _ ⟨rfl, rfl, rfl, rfl⟩ ht
    · exact ht
  have hmember (t : Relayers AccountId Q) (ht : Heard ∅ t) : Heard ∅ (t.replaceMember x.old x.new) := by
    refine blind_heard ∅ t _ ?_ ht
    rw [Relayers.replaceMember]
    split_ifs <;> exact ⟨rfl, rfl, rfl, rfl⟩
  rw [Relayers.applyRelayerSet, Relayers.replaceBondedRelayer]
  cases s.relayerState.get x.old with
  | none => exact hs
  | some state =>
      have hbonded := hselected _ (hpool { s with
        bondedController := s.bondedController.insert state.controller x.new
        relayerState := (s.relayerState.remove x.old).insert x.new state } state.controller
        (blind_heard ∅ s _ ⟨rfl, rfl, rfl, rfl⟩ hs))
      exact hmember _ ⟨hbonded.now, hbonded.later⟩

/-- **Replacements** at the beginning of a round find nothing to carry over. -/
lemma Heard.handleDelayedRelayerSets (replaceAuthority : Q → AccountId → AccountId → Q) (hs : Heard ∅ s)
    (now : ℕ) : Heard ∅ (s.handleDelayedRelayerSets replaceAuthority now) := by
  have hloop : ∀ (sets : List (DelayedRelayerSet AccountId)) (t : Relayers AccountId Q), Heard ∅ t →
      Heard ∅ (sets.foldl (Relayers.applyRelayerSet replaceAuthority) t) := by
    intro sets
    induction sets with
    | nil => exact fun _ ht => ht
    | cons x sets ih =>
        intro t ht
        rw [List.foldl_cons]
        exact ih _ (ht.applyRelayerSet replaceAuthority x)
  exact hloop _ _ (blind_heard ∅ s _ ⟨rfl, rfl, rfl, rfl⟩ hs)

/-! ### The end of a session -/

/-- What becomes of a relayer if these validators are asked for. -/
def Relayers.silence (s : Relayers AccountId Q) (controllers : List AccountId) (relayer : AccountId) :
    Option (RelayerMetadata AccountId) :=
  (s.relayerState.get relayer).map fun state =>
    if ∃ c ∈ controllers, s.bondedController.get c = some relayer ∧ s.isHeartbeatPulsed relayer = false
    then state.goOffline else state

lemma Relayers.modifyRelayer_get (s : Relayers AccountId Q) (relayer a : AccountId)
    (f : RelayerMetadata AccountId → RelayerMetadata AccountId) :
    (s.modifyRelayer relayer f).relayerState.get a =
      (s.relayerState.get a).map fun state => if a = relayer then f state else state := by
  rw [modifyRelayer]
  cases hstate : s.relayerState.get relayer with
  | none =>
      by_cases ha : a = relayer
      · rw [ha, hstate, Option.map_none]
      · simp [ha]
  | some state =>
      rw [StorageMap.get_insert]
      by_cases ha : a = relayer
      · rw [if_pos ha, ha, hstate, Option.map_some, if_pos rfl]
      · simp [ha]

/-- **One validator**: its relayer goes offline if it has not been heard. -/
lemma Relayers.heartbeatTurn_get (s : Relayers AccountId Q) (c a : AccountId) :
    (s.heartbeatTurn c).relayerState.get a = s.silence [c] a := by
  simp only [silence, List.mem_singleton, exists_eq_left]
  rw [heartbeatTurn]
  cases hbond : s.bondedController.get c with
  | none => simp
  | some relayer =>
      by_cases ha : a = relayer
      · subst ha
        cases hpulsed : s.isHeartbeatPulsed a with
        | true => simp [hpulsed]
        | false => simp [hpulsed, modifyRelayer_get]
      · cases hpulsed : s.isHeartbeatPulsed relayer with
        | true => simp [hpulsed, Ne.symm ha]
        | false => simp [hpulsed, modifyRelayer_get, ha, Ne.symm ha]

/-- The loop of `collect_heartbeats` writes the records of the relayers, and each one as its silence tells. -/
lemma Relayers.heartbeatTurns (controllers : List AccountId) :
    ∀ s : Relayers AccountId Q, ∃ m, controllers.foldl heartbeatTurn s = { s with relayerState := m } ∧
      ∀ a, m.get a = s.silence controllers a := by
  induction controllers with
  | nil => exact fun s => ⟨s.relayerState, rfl, fun a => by simp [silence]⟩
  | cons c controllers ih =>
      intro s
      obtain ⟨m₀, hone⟩ := s.heartbeatTurn_frame c
      obtain ⟨m, hrest, hm⟩ := ih (s.heartbeatTurn c)
      refine ⟨m, ?_, fun a => ?_⟩
      · rw [List.foldl_cons, hrest, hone]
      · have hget := s.heartbeatTurn_get c a
        rw [hm, silence, hget, hone]
        simp only [silence, Option.map_map, List.mem_singleton, List.exists_mem_cons_iff, exists_eq_left]
        congr 1
        funext state
        by_cases hfirst : s.bondedController.get c = some a ∧ s.isHeartbeatPulsed a = false
        · rw [if_pos (.inl hfirst), Function.comp_apply, if_pos hfirst]
          split_ifs <;> rfl
        · rw [Function.comp_apply, if_neg hfirst]
          refine if_congr ?_ rfl rfl
          rw [or_iff_right hfirst]
          rfl

/-- **The end of a session**: relayers that have not been heard go offline, and nobody has been heard. -/
lemma Heard.collectHeartbeats (hs : Heard heard s) (hbonds : Bonds s) :
    ∃ r, Strict.collectHeartbeats s = some r ∧ Heard ∅ r ∧
      ∀ a, r.relayerState.get a = s.silence s.validators a := by
  obtain ⟨m, hloop, hm⟩ := Relayers.heartbeatTurns s.validators s
  have hcollect : s.collectHeartbeats = { s with
      relayerState := m
      receivedHeartbeats := s.receivedHeartbeats.filterKeys fun k => k.1 ≠ s.sessionIndex } := by
    let clear (t : Relayers AccountId Q) : Relayers AccountId Q := { t with
      receivedHeartbeats := t.receivedHeartbeats.filterKeys fun k => k.1 ≠ t.sessionIndex }
    show clear (s.validators.foldl Relayers.heartbeatTurn s) = _
    rw [hloop]
  refine ⟨s.collectHeartbeats, (Relayers.strict_collectHeartbeats hbonds).1, ?_, ?_⟩
  · rw [hcollect]
    refine ⟨fun a => ?_, fun k a hk => ?_⟩
    · simp [StorageMap.getD, StorageMap.get_filterKeys]
    · show (s.receivedHeartbeats.filterKeys fun k => k.1 ≠ s.sessionIndex).getD (k, a) false = false
      rw [StorageMap.getD, StorageMap.get_filterKeys, if_pos (by simpa using hk.ne')]
      exact hs.later k a hk
  · rw [hcollect]
    exact hm

end Heard

/-! ## Who is active -/

section Active

variable {AccountId Q : Type} {s s' : Relayers AccountId Q}

/-- Only authorities are active. -/
def Relayers.OnDuty (s : Relayers AccountId Q) : Prop :=
  ∀ a m, s.relayerState.get a = some m → m.status = .active → a ∈ s.selectedRelayers

lemma Relayers.OnDuty.of_eq (hs : s.OnDuty) (hstate : s'.relayerState = s.relayerState)
    (hselected : s'.selectedRelayers = s.selectedRelayers) : s'.OnDuty := by
  intro a m hm hactive
  rw [hstate] at hm
  rw [hselected]
  exact hs a m hm hactive

variable [LinearOrder AccountId]

namespace Relayers

lemma modifyRelayer_selected (s : Relayers AccountId Q) (relayer : AccountId)
    (f : RelayerMetadata AccountId → RelayerMetadata AccountId) :
    (s.modifyRelayer relayer f).selectedRelayers = s.selectedRelayers :=
  (modifyRelayer_seats s).selected

/-- Nobody becomes active who is not an authority. -/
lemma OnDuty.modifyRelayer (hs : s.OnDuty) {relayer : AccountId}
    {f : RelayerMetadata AccountId → RelayerMetadata AccountId}
    (hf : ∀ m, (f m).status = .active → m.status = .active ∨ relayer ∈ s.selectedRelayers) :
    (s.modifyRelayer relayer f).OnDuty := by
  intro a m hm hactive
  rw [modifyRelayer_get] at hm
  rw [modifyRelayer_selected]
  obtain ⟨state, hstate, rfl⟩ := Option.map_eq_some_iff.mp hm
  split_ifs at hactive with ha
  · subst ha
    rcases hf state hactive with hwas | hselected
    · exact hs a state hstate hwas
    · exact hselected
  · exact hs a state hstate hactive

lemma OnDuty.kickoutRelayer (hs : s.OnDuty) (controller : AccountId) :
    (s.kickoutRelayer controller).OnDuty := by
  rw [Relayers.kickoutRelayer]
  split
  · exact hs
  · rename_i relayer _
    have hkicked : ∀ a m, (s.modifyRelayer relayer .kickOut).relayerState.get a = some m →
        m.status = .active → a ∈ s.selectedRelayers ∧ a ≠ relayer := by
      intro a m hm hactive
      rw [modifyRelayer_get] at hm
      obtain ⟨state, hstate, rfl⟩ := Option.map_eq_some_iff.mp hm
      split_ifs at hactive with ha
      · cases hactive
      · exact ⟨hs a state hstate hactive, ha⟩
    dsimp only
    split_ifs
    · intro a m hm hactive
      obtain ⟨hselected, hne⟩ := hkicked a m hm hactive
      show a ∈ (s.modifyRelayer relayer .kickOut).selectedRelayers.erase relayer
      rw [modifyRelayer_selected]
      exact Finset.mem_erase.mpr ⟨hne, hselected⟩
    · intro a m hm hactive
      rw [modifyRelayer_selected]
      exact (hkicked a m hm hactive).1

lemma OnDuty.collectHeartbeats (hs : s.OnDuty) : s.collectHeartbeats.OnDuty := by
  obtain ⟨m, hloop, hm⟩ := heartbeatTurns s.validators s
  have hturned : (s.validators.foldl heartbeatTurn s).OnDuty := by
    rw [hloop]
    intro a state hstate hactive
    replace hstate : m.get a = some state := hstate
    rw [hm] at hstate
    obtain ⟨was, hwas, rfl⟩ := Option.map_eq_some_iff.mp hstate
    split_ifs at hactive
    · cases hactive
    · exact hs a was hwas hactive
  exact hturned.of_eq rfl rfl

lemma OnDuty.replaceBondedController (hs : s.OnDuty) (old new : AccountId) :
    (s.replaceBondedController old new).OnDuty := by
  rw [Relayers.replaceBondedController]
  split
  · exact hs
  · rename_i relayer _
    have hbonded : OnDuty { s with
        bondedController := (s.bondedController.remove old).insert new relayer } := hs.of_eq rfl rfl
    have hrenamed : ∀ m : RelayerMetadata AccountId,
        ({ m with controller := new } : RelayerMetadata AccountId).status = .active →
          m.status = .active ∨ relayer ∈ s.selectedRelayers := fun _ hactive => .inl hactive
    exact (hbonded.modifyRelayer hrenamed).of_eq rfl rfl

/-- At the beginning of a round everybody goes offline. -/
lemma refreshRelayerPool_status (h : Bonds s) (a : AccountId) (m : RelayerMetadata AccountId)
    (hm : s.refreshRelayerPool.relayerState.get a = some m) : m.status ≠ .active := by
  have hloop : ∀ (pool : List (Relayer AccountId)) (t : Relayers AccountId Q),
      (∀ a m, t.relayerState.get a = some m → m.status = .active → ∃ x ∈ pool, x.relayer = a) →
      ∀ a m, (pool.foldl (fun s r => s.modifyRelayer r.relayer fun state =>
        if state.isKickedOut then state else state.goOffline) t).relayerState.get a = some m →
        m.status ≠ .active := by
    intro pool
    induction pool with
    | nil =>
        intro t ht a m hm hactive
        obtain ⟨x, hx, -⟩ := ht a m hm hactive
        cases hx
    | cons x pool ih =>
        intro t ht
        rw [List.foldl_cons]
        refine ih _ fun a m hm hactive => ?_
        rw [modifyRelayer_get] at hm
        obtain ⟨state, hstate, rfl⟩ := Option.map_eq_some_iff.mp hm
        split_ifs at hactive with ha hkicked
        · simp only [RelayerMetadata.isKickedOut, decide_eq_true_eq] at hkicked
          rw [hkicked] at hactive
          cases hactive
        · cases hactive
        · obtain ⟨y, hy, rfl⟩ := ht a state hstate hactive
          rcases List.mem_cons.mp hy with rfl | hy
          · exact absurd rfl ha
          · exact ⟨y, hy, rfl⟩
  refine hloop s.relayerPool s (fun b state hstate _ => ?_) a m hm
  have hcontroller : s.controllerOf b = some state.controller := by
    rw [controllerOf, hstate, Option.map_some]
  obtain ⟨x, hx, heq⟩ := List.mem_map.mp ((h.pairing.mem b _).mpr hcontroller)
  exact ⟨x, hx, (Prod.mk.inj heq).1⟩

/-- **A round** makes those active that it selects. -/
lemma refreshSelectedRelayers_onDuty (h : Bonds s) (round : ℕ) (selectedCandidates : List AccountId) :
    (s.refreshSelectedRelayers round selectedCandidates).OnDuty := by
  let P (acc : Finset AccountId × Relayers AccountId Q) : Prop :=
    ∀ a m, acc.2.relayerState.get a = some m → m.status = .active → a ∈ acc.1
  have hstart : P (∅, s.refreshRelayerPool) := fun a m hm hactive =>
    absurd hactive (refreshRelayerPool_status h a m hm)
  refine selectRelayers_keeps (P := P) hstart (fun selected t relayer ht => ?_)
    selectedCandidates
  intro a m hm hactive
  rw [modifyRelayer_get] at hm
  obtain ⟨state, hstate, rfl⟩ := Option.map_eq_some_iff.mp hm
  split_ifs at hactive with ha
  · exact ha ▸ Finset.mem_insert_self ..
  · exact Finset.mem_insert_of_mem (ht a state hstate hactive)

end Relayers

section Runs

variable {cfg : Config AccountId} {replaceAuthority : Q → AccountId → AccountId → Q}
  {x : State AccountId (Option (Relayers AccountId Q))}
  {t t' : State AccountId (Relayers AccountId Q)}

/-- Whatever the relay manager does by itself, only authorities are active afterwards. -/
lemma Relayers.OnDuty.act {a : Act AccountId Q} (hs : s.OnDuty) (hact : s.act a = some s') :
    s'.OnDuty := by
  have hcall : ∀ {x : Except Error (Relayers AccountId Q)}, Returns (fun u =>
      u.relayerState = s.relayerState ∧ u.selectedRelayers = s.selectedRelayers) x →
      (commit s x).OnDuty := by
    intro x hx
    have hsame : (commit s x).relayerState = s.relayerState ∧
        (commit s x).selectedRelayers = s.selectedRelayers :=
      commit_induction (P := fun u : Relayers AccountId Q => u.relayerState = s.relayerState ∧
        u.selectedRelayers = s.selectedRelayers) ⟨rfl, rfl⟩ hx
    exact hs.of_eq hsame.1 hsame.2
  cases a with
  | setStorageCacheLifetime origin new =>
      exact Option.some.inj hact ▸ hcall (.bind fun _ => .bind fun _ => .bind fun _ => .pure ⟨rfl, rfl⟩)
  | setHeartbeatOffenceActivation origin isActive =>
      exact Option.some.inj hact ▸ hcall (.bind fun _ => .bind fun _ => .pure ⟨rfl, rfl⟩)
  | setHeartbeatSlashFraction origin new =>
      exact Option.some.inj hact ▸ hcall (.bind fun _ => .bind fun _ => .pure ⟨rfl, rfl⟩)
  | setRelayer origin new =>
      exact Option.some.inj hact ▸ hcall (.bind fun _ => .bind fun _ => .bind fun _ => .bind fun _ =>
        .bind fun _ => .bind fun _ => .bind fun _ => .bind fun _ => .pure ⟨rfl, rfl⟩)
  | cancelRelayerSet origin =>
      exact Option.some.inj hact ▸ hcall (.bind fun _ => .bind fun _ => .bind fun _ => .pure ⟨rfl, rfl⟩)
  | heartbeat origin versions =>
      refine commit_induction (P := Strict.Holds (@OnDuty AccountId Q)) (.some hs) (fun o ho r hr => ?_)
        s' hact
      simp only [Strict.heartbeat, bind_eq_ok, ensure_eq_ok, exists_const] at ho
      obtain ⟨relayer, -, -, hselected, ho⟩ := ho
      replace hselected : relayer ∈ s.selectedRelayers := by
        simpa [isSelectedRelayer] using hselected
      split_ifs at ho
      · rw [← pure_eq_ok.mp ho] at hr
        exact Option.some.inj hr ▸ hs
      · rw [← pure_eq_ok.mp ho] at hr
        obtain ⟨state, -, rfl⟩ := Option.map_eq_some_iff.mp hr
        intro a m hm hactive
        simp only [StorageMap.get_insert] at hm
        split_ifs at hm with ha
        · exact ha ▸ hselected
        · exact hs a m hm hactive
  | membership members prime => exact Option.some.inj hact ▸ hs.of_eq rfl rfl
  | session validators sessionIndex => exact Option.some.inj hact ▸ hs.of_eq rfl rfl
  | bridge queues => exact Option.some.inj hact ▸ hs.of_eq rfl rfl

/-- Whatever staking asks of it, only authorities are active afterwards. -/
lemma Shift.onDuty (ht : t.relay.OnDuty) (hinv : RelayInv t.relay) (hround : t.relay.round = t.now)
    (h : Shift (Relayers.manager replaceAuthority) (fun _ _ => True) t t') : t'.relay.OnDuty := by
  cases h with
  | idle _ hrelay => exact hrelay ▸ ht
  | joined c relayer _ _ hrelay =>
      rcases Relayers.manager_joined hrelay with hsame | ⟨x, -, hjoin⟩
      · exact hsame ▸ ht
      · obtain ⟨-, -, -, -, heq⟩ := Relayers.joinRelayers_ok hjoin
        rw [heq]
        intro a m hm hactive
        simp only [StorageMap.get_insert] at hm
        split_ifs at hm
        · rw [← Option.some.inj hm] at hactive
          cases hactive
        · exact ht a m hm hactive
  | left c _ _ _ _ hrelay =>
      rw [hrelay]
      show (t.relay.leaveRelayers c).OnDuty
      rw [Relayers.leaveRelayers]
      split
      · exact ht
      · intro a m hm hactive
        simp only [StorageMap.get_remove] at hm
        split_ifs at hm
        exact ht a m hm hactive
  | dropped c _ _ hrelay _ =>
      rw [hrelay]
      split_ifs
      · exact ht.kickoutRelayer c
      · exact ht
  | heartbeats _ hrelay => exact hrelay ▸ ht.collectHeartbeats
  | chosen full _ _ _ hnow hrelay =>
      obtain ⟨-, hinv₁, -, -⟩ := Relayers.strict_handleDelayedRelayerSets replaceAuthority hinv
      rw [hround, ← hnow] at hinv₁
      exact hrelay ▸ (Relayers.refreshSelectedRelayers_onDuty hinv₁.bonds t'.now full).of_eq rfl rfl
  | @renamed old new tier _ _ _ _ hrelay _ =>
      rw [hrelay]
      split_ifs
      · exact ht.replaceBondedController old new
      · exact ht

/-- **Only authorities are active**, in every run of the network. -/
lemma NetworkIf.onDuty (h : NetworkIf cfg replaceAuthority anyStep x) :
    ∃ r, x.relay = some r ∧ r.OnDuty := by
  have hgenesis {u : State AccountId (Option (Relayers AccountId Q))}
      (hu : IsNetworkGenesis cfg replaceAuthority u) : ∃ r, u.relay = some r ∧ r.OnDuty := by
    obtain ⟨r, full, -, hbonds, hrelay⟩ := hu.opens
    exact ⟨_, hrelay, (Relayers.refreshSelectedRelayers_onDuty hbonds 1 full).of_eq rfl rfl⟩
  obtain ⟨r, hr, -, hduty⟩ := h.relay_induction hgenesis (fun hr hact => hr.act hact)
    fun ht hinv hround hshift => Shift.onDuty ht hinv hround hshift
  exact ⟨r, hr, hduty⟩

end Runs

end Active

/-! ## Sessions -/

section Sessions

variable {AccountId Q : Type} [LinearOrder AccountId]

/-- Whom the session has heard after a step. -/
def hears (s : State AccountId (Option (Relayers AccountId Q))) (i : Step AccountId (Act AccountId Q))
    (heard : Finset AccountId) : Finset AccountId :=
  match i with
  | .relay (.heartbeat (.signed relayer) versions) =>
      if s.relay.any fun r => (Strict.heartbeat r relayer versions).isOk then insert relayer heard
      else heard
  | .relay (.session _ _) => ∅
  | .endSession => ∅
  | _ => heard

/-- **Sessions follow one another**: the next one has a larger index, and a round begins before anybody
is heard. -/
def InOrder (x : State AccountId (Option (Relayers AccountId Q)) × Finset AccountId) :
    Step AccountId (Act AccountId Q) → Prop
  | .relay (.session _ sessionIndex) => ∀ r ∈ x.1.relay, r.sessionIndex < sessionIndex
  | .newSession now newIndex validators hasKeys =>
      (roundBegins x.1 (.newSession now newIndex validators hasKeys)).isSome → x.2 = ∅
  | _ => True

/-- The watched runs, with whom the session has heard. -/
def SessionsWatched (cfg : Config AccountId) (replaceAuthority : Q → AccountId → AccountId → Q)
    (x : State AccountId (Option (Relayers AccountId Q)) × Finset AccountId) : Prop :=
  Reachable (fun x => IsNetworkGenesis cfg replaceAuthority x.1 ∧ x.2 = ∅)
    (watched (networkStep cfg replaceAuthority) fun s i _ heard => hears s i heard) InOrder x

variable {cfg : Config AccountId} {replaceAuthority : Q → AccountId → AccountId → Q}
  {s s' : State AccountId (Option (Relayers AccountId Q))} {heard : Finset AccountId}
  {r : Relayers AccountId Q} {x : State AccountId (Option (Relayers AccountId Q)) × Finset AccountId}

/-- Whatever the relay manager does by itself, it knows whom it has heard. -/
lemma Heard.act {a : Act AccountId Q} (hr : s.relay = some r) (hheard : Heard heard r)
    (horder : InOrder (s, heard) (.relay a)) :
    Strict.Holds (Heard (hears s (.relay a) heard)) (r.act a) := by
  cases a with
  | heartbeat origin versions =>
      cases origin with
      | signed relayer =>
          show Strict.Holds (Heard (ite _ _ _)) (commit (some r) (Strict.heartbeat r relayer versions))
          rw [hr, Option.any_some]
          cases hres : Strict.heartbeat r relayer versions with
          | error e => exact .some hheard
          | ok o => exact hheard.heartbeat hres
      | root => exact .some hheard
      | none => exact .some hheard
  | session validators sessionIndex => exact .some (hheard.session (horder r hr))
  | bridge queues => exact .some ⟨hheard.now, hheard.later⟩
  | _ => exact act_holds (blind_heard heard) _ (by simp) (by simp) (by simp) hheard

/-- **Step lemma.**  In the order of the session, the relay manager knows whom it has heard. -/
lemma Heard.step {i : Step AccountId (Act AccountId Q)} (hs : StateInv cfg s) (ht : Tied s r)
    (hround : r.round = s.now) (hheard : Heard heard r) (horder : InOrder (s, heard) i)
    (h : networkStep cfg replaceAuthority s i = some s') :
    Strict.Holds (Heard (hears s i heard)) s'.relay := by
  cases hbegins : roundBegins s i with
  | some r₁ =>
      cases i with
      | newSession now newIndex validators hasKeys =>
          obtain rfl : heard = ∅ := horder (by rw [hbegins]; rfl)
          have hentered : Heard ∅ r₁ := by
            rw [roundBegins, ht.relay, Option.map_some] at hbegins
            split_ifs at hbegins
            exact Option.some.inj hbegins ▸ blind_heard ∅ r _ ⟨rfl, rfl, rfl, rfl⟩ hheard
          exact networkStep_begins (blind_heard ∅) h ht hround hbegins
            (hentered.handleDelayedRelayerSets replaceAuthority (s.now + 1))
      | _ => cases hbegins
  | none =>
      cases i with
      | relay a =>
          obtain rfl := Option.some.inj h
          show Strict.Holds _ (s.relay.bind (·.act a))
          rw [ht.relay]
          exact Heard.act ht.relay hheard horder
      | endSession =>
          obtain rfl := Option.some.inj h
          obtain ⟨r', hcollect, hclear, -⟩ := hheard.collectHeartbeats ht.inv.bonds
          show Strict.Holds _ (s.relay.bind Strict.collectHeartbeats)
          rw [ht.relay, Option.bind_some, hcollect]
          exact .some hclear
      | _ => exact networkStep_holds (blind_heard heard) hs h ht.relay hheard (by simp) (by simp) hbegins

/-- **Heartbeats count.**  In every run in which sessions follow one another, the offenders at the end of a
session are the validators with a relayer that it has not heard, and they are reported if reports are
active.  Their relayers go offline, and no others.  Only authorities are active. -/
theorem heartbeats_counted (h : SessionsWatched cfg replaceAuthority x) :
    ∃ r, x.1.relay = some r ∧
      (∀ c, c ∈ r.offenders ↔
        c ∈ r.validators ∧ ∃ a, r.bondedController.get c = some a ∧ a ∉ x.2) ∧
      (r.report.isSome = true ↔ r.isHeartbeatOffenceActive = true ∧
        ∃ c ∈ r.validators, ∃ a, r.bondedController.get c = some a ∧ a ∉ x.2) ∧
      (∀ a m, r.relayerState.get a = some m → m.status = .active → a ∈ r.selectedRelayers) ∧
      ∀ s', networkStep cfg replaceAuthority x.1 .endSession = some s' →
        ∃ r', s'.relay = some r' ∧ ∀ a, r'.relayerState.get a = (r.relayerState.get a).map fun state =>
          if ∃ c ∈ r.offenders, r.bondedController.get c = some a then state.goOffline else state := by
  have hall := Reachable.invariant
    (P := fun x : State AccountId (Option (Relayers AccountId Q)) × Finset AccountId =>
      NetworkIf cfg replaceAuthority anyStep x.1 ∧ Strict.Holds (Heard x.2) x.1.relay) ?_ ?_ h
  · obtain ⟨hrun, hheard⟩ := hall
    obtain ⟨r, htied, -⟩ := hrun.tied
    replace hheard := hheard r htied.relay
    have hsilent (a : AccountId) : r.isHeartbeatPulsed a = false ↔ a ∉ x.2 := by
      rw [← hheard.now a, ← Bool.not_eq_true]
      rfl
    have hoffenders (c : AccountId) : c ∈ r.offenders ↔
        c ∈ r.validators ∧ ∃ a, r.bondedController.get c = some a ∧ a ∉ x.2 := by
      rw [Relayers.mem_offenders]
      simp only [hsilent]
    refine ⟨r, htied.relay, hoffenders, ?_, ?_, fun s' hstep => ?_⟩
    · rw [Relayers.report_isSome]
      simp only [hoffenders]
    · obtain ⟨r₁, hr₁, hduty⟩ := hrun.onDuty
      obtain rfl := Option.some.inj (hr₁.symm.trans htied.relay)
      exact hduty
    · obtain rfl := Option.some.inj hstep
      obtain ⟨r', hcollect, -, hstates⟩ := hheard.collectHeartbeats htied.inv.bonds
      refine ⟨r', ?_, fun a => ?_⟩
      · show x.1.relay.bind Strict.collectHeartbeats = some r'
        rw [htied.relay]
        exact hcollect
      · rw [hstates, Relayers.silence]
        congr 1
        funext state
        refine if_congr ⟨?_, ?_⟩ rfl rfl
        · rintro ⟨c, hc, hbond, hpulsed⟩
          exact ⟨c, Relayers.mem_offenders.mpr ⟨hc, a, hbond, hpulsed⟩, hbond⟩
        · rintro ⟨c, hc, hbond⟩
          obtain ⟨hmem, b, hb, hpulsed⟩ := Relayers.mem_offenders.mp hc
          obtain rfl := Option.some.inj (hb.symm.trans hbond)
          exact ⟨c, hmem, hbond, hpulsed⟩
  · rintro ⟨s, heard⟩ ⟨hs, hnobody⟩
    replace hnobody : heard = ∅ := hnobody
    subst hnobody
    refine ⟨.init hs, ?_⟩
    obtain ⟨g, ⟨lifetime, isActive, fraction, members, queues, hrelay⟩, hg⟩ := hs
    refine build_holds (blind_heard ∅) hg ?_
    rw [hrelay]
    exact .some ⟨fun a => iff_of_false Bool.false_ne_true (Finset.notMem_empty a), fun k a _ => rfl⟩
  · rintro ⟨s, heard⟩ i ⟨s', heard'⟩ ⟨hrun, hheard⟩ horder hwatched
    obtain ⟨hstep, hnote⟩ := watched_eq_some hwatched
    replace hnote : heard' = hears s i heard := hnote
    subst hnote
    obtain ⟨r, htied, hround⟩ := hrun.tied
    exact ⟨.step hrun trivial hstep,
      (hheard r htied.relay).step hrun.staking.inv htied hround horder hstep⟩

/-! ### Small runs -/

instance decidableInOrder (x : State AccountId (Option (Relayers AccountId Q)) × Finset AccountId)
    (i : Step AccountId (Act AccountId Q)) : Decidable (InOrder x i) :=
  match i with
  | .relay (.session _ sessionIndex) =>
      inferInstanceAs (Decidable (∀ r ∈ x.1.relay, r.sessionIndex < sessionIndex))
  | .newSession now newIndex validators hasKeys => inferInstanceAs (Decidable
      ((roundBegins x.1 (.newSession now newIndex validators hasKeys)).isSome → x.2 = ∅))
  | .relay (.setStorageCacheLifetime ..) | .relay (.setHeartbeatOffenceActivation ..)
  | .relay (.setHeartbeatSlashFraction ..) | .relay (.setRelayer ..) | .relay (.cancelRelayerSet ..)
  | .relay (.heartbeat ..) | .relay (.membership ..) | .relay (.bridge ..) | .call .. | .onInitialize ..
  | .noteAuthor .. | .endSession | .onOffence .. | .balances .. | .offenceSettings .. => .isTrue trivial

/-- Two validators are in a session, and one of their relayers is heard.  The other validator is
reported. -/
theorem heartbeats_counted_devnet :
    ∃ x r, SessionsWatched devnet bridgeless x ∧ x.1.relay = some r ∧ x.2 = {3} ∧
      2 ∉ r.offenders ∧ 12 ∈ r.offenders ∧ r.report.isSome = true := by
  have hrun : (networkGenesis.build devnet (Strict.manager bridgeless)).any (fun s =>
      (runSteps (checked (watched (networkStep devnet bridgeless) fun s i _ heard => hears s i heard)
        InOrder) (s, ∅) [.relay (.setHeartbeatOffenceActivation .root true), .relay (.session [2, 12] 1),
          .relay (.heartbeat (.signed 3) none)]).any fun x => x.1.relay.any fun r =>
            decide (x.2 = {3} ∧ r.isHeartbeatOffenceActive = true ∧ r.validators = [2, 12] ∧
              r.bondedController.get 2 = some 3 ∧ r.bondedController.get 12 = some 13)) = true := by
    decide
  obtain ⟨s, hs, hP⟩ := (Option.any_eq_true _ _).mp hrun
  obtain ⟨x, hx, hP⟩ := (Option.any_eq_true _ _).mp hP
  obtain ⟨r, hr, hP⟩ := (Option.any_eq_true _ _).mp hP
  obtain ⟨hheard, hactive, hvalidators, hfirst, hsecond⟩ := of_decide_eq_true hP
  have hwatched : SessionsWatched devnet bridgeless x :=
    .runChecked (.init ⟨⟨networkGenesis, ⟨4, false, .zero, [], (), rfl⟩, hs⟩, rfl⟩) hx
  obtain ⟨r₀, hr₀, hoffenders, hreport, -⟩ := heartbeats_counted hwatched
  obtain rfl : r₀ = r := Option.some.inj (hr₀.symm.trans hr)
  rw [hvalidators, hheard] at hreport hoffenders
  refine ⟨x, r₀, hwatched, hr, hheard, ?_, ?_, hreport.mpr ⟨hactive, 12, by simp, 13, hsecond, by simp⟩⟩
  · rw [hoffenders, hfirst]
    simp
  · rw [hoffenders, hsecond]
    simp

/-- **A validator is silent by force.**  It goes offline in a session that it is a validator of, so the
heartbeats of its relayer are refused, and it is reported all the same. -/
theorem silent_by_force : ∃ s r o, NetworkIf devnet bridgeless anyStep s ∧ s.relay = some r ∧
    r.bondedController.get 2 = some 3 ∧ Strict.heartbeat r 3 none = .error .relayerInactive ∧
    r.report = some o ∧ 2 ∈ o.offenders := by
  have hrun : ((networkGenesis.build devnet (Strict.manager bridgeless)).bind fun s =>
      runSteps (checked (networkStep devnet bridgeless) anyStep) s
        [.relay (.setHeartbeatOffenceActivation .root true), .relay (.session [2, 12] 1),
          .call (.signed 2) .goOffline]).any (fun s => s.relay.any fun r =>
        decide (r.bondedController.get 2 = some 3 ∧ r.isRelayer 3 = true ∧
          r.isSelectedRelayer 3 false = false) &&
            r.report.any fun o => decide (2 ∈ o.offenders)) = true := by decide
  obtain ⟨s, hs, hP⟩ := networkRun_exists hrun
  obtain ⟨r, hr, hP⟩ := (Option.any_eq_true _ _).mp hP
  simp only [Bool.and_eq_true, decide_eq_true_eq] at hP
  obtain ⟨⟨hbond, hrelayer, hselected⟩, hreport⟩ := hP
  obtain ⟨o, ho, hmem⟩ := (Option.any_eq_true _ _).mp hreport
  have hrefused : Strict.heartbeat r 3 none = .error .relayerInactive := by
    rw [Strict.heartbeat, hrelayer, hselected]
    rfl
  exact ⟨s, r, o, hs, hr, hbond, hrefused, ho, of_decide_eq_true hmem⟩

end Sessions

end BifrostNode.Relay
