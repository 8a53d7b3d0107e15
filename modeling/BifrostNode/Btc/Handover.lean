import BifrostNode.Btc.Records
import BifrostNode.Btc.Bridge

/-!
# From one round to the next

**The next vault.**  A migration requests the system vault of the next round.  It cannot if the vault
is there already, and `request_system_vault` can put it there before the migration starts.  Where it
does not, no migration is stuck (`migration_goes_on`).

**The executives.**  The pool keeps the executives of every round.  A change of the members during a
migration is for the next round, but a migration during which the members do not change leaves the next
round without executives.  Where they do change, the executives of the round are the members, and during
a migration those of its start.

**The signers.**  The executives of the round are to sign for the vaults of the round.  But the members may
have changed since the vaults got their keys.  Where a migration starts with the members that own them, those
who may sign are the owners of the keys (`executives_kept`).
-/

namespace BifrostNode.Btc.Pool

open Cccp Staking Transition

variable {AccountId : Type} [LinearOrder AccountId]

/-! ## The next vault -/

/-- **The invariant** of the system vaults to come. -/
structure NextInv (s : Registration AccountId) : Prop where
  later : ∀ r, s.currentRound + 1 < r → s.systemVault.get r = none
  empty : s.serviceState = .normal ∨ s.serviceState = .setExecutiveMembers →
    s.systemVault.get (s.currentRound + 1) = none
  pending : s.serviceState = .prepareNextSystemVault →
    ∃ vault, s.systemVault.get (s.currentRound + 1) = some vault ∧ vault.isPending = true

/-- No vault is requested for the next round in the normal state. -/
def Step.Timely (s : Registration AccountId) : Step AccountId → Prop
  | .requestSystemVault _ origin prepare =>
      ¬ (origin = .root ∧ prepare = true ∧ s.serviceState = .normal)
  | _ => True

instance (s : Registration AccountId) (i : Step AccountId) : Decidable (i.Timely s) :=
  match i with
  | .requestSystemVault _ origin prepare =>
      inferInstanceAs (Decidable (¬ (origin = .root ∧ prepare = true ∧ s.serviceState = .normal)))
  | .requestVault _ _ _ | .submitVaultKey _ _ | .submitSystemVaultKey _ _ | .requestSetRefund _ _
  | .vaultKeyPresubmission _ _ | .clearVault _ _ | .migrationControl _ _
  | .dropPreviousRound _ _ | .setMaxPresubmission _ _ | .setMultiSigRatio _ _ | .approveSetRefunds _ _
  | .addMigrationTx _ | .removeMigrationTx _ | .executeMigrationTx _ | .replaceAuthority _ _
  | .processSetRefunds | .changeMembersSorted _ => .isTrue trivial

section Next

variable {host : Host AccountId} {s s' : Registration AccountId} {i : Step AccountId}

omit [LinearOrder AccountId] in
/-- The vaults to come and the service state stay. -/
lemma NextInv.same (hs : NextInv s) (hr : s'.currentRound = s.currentRound)
    (hstate : s'.serviceState = s.serviceState)
    (hv : ∀ r, s.currentRound < r → s'.systemVault.get r = s.systemVault.get r) : NextInv s' := by
  refine ⟨fun r hlt => ?_, fun h => ?_, fun h => ?_⟩
  · rw [hr] at hlt
    rw [hv r (by omega)]
    exact hs.later r hlt
  · rw [hstate] at h
    rw [hr, hv _ (by omega)]
    exact hs.empty h
  · rw [hstate] at h
    rw [hr, hv _ (by omega)]
    exact hs.pending h

/-- **Every step** that is timely keeps the invariant. -/
lemma NextInv.move (hs : NextInv s) (ht : i.Timely s) (hm : PoolMove host s i s') : NextInv s' := by
  cases hm with
  | tuned h => exact hs.same (by rw [h]) (by rw [h]) fun r _ => by rw [h]
  | members new hi h => exact hs.same (by rw [h]; rfl) (by rw [h]; rfl) fun r _ => by rw [h]; rfl
  | refunds h =>
      obtain ⟨-, -, -, hv, hr, hstate, -⟩ := h.frame
      exact hs.same hr hstate fun r _ => by rw [hv]
  | opened o who raw address keys vault vault' hi hnormal hfree hnone htake hvault h =>
      exact hs.same (by rw [h]; rfl) (by rw [h]; rfl) fun r _ => by rw [h]; rfl
  | bonded o who raw address keys vault vault' a d t hi hnormal hfree hnone htake hbonds h =>
      rw [hbonds.state_eq] at h
      exact hs.same (by rw [h]; rfl) (by rw [h]; rfl) fun r _ => by rw [h]; rfl
  | keyed o sub target vault' t hi hexec hnormal htarget hkey h =>
      rw [hkey.frame] at h
      exact hs.same (by rw [h]) (by rw [h]) fun r _ => by rw [h]
  | systemKeyed o sub r vault vault' t hi hexec hr hvault hkey h =>
      rw [hkey.frame] at h
      subst h
      cases hstate : s.serviceState with
      | normal =>
          -- the vault of this round gets a key
          have hround : s.currentRound = r := by simpa [Registration.systemVaultRound, hstate] using hr
          refine hs.same rfl (by simp [hstate]) fun r' hlt => ?_
          exact StorageMap.get_insert_of_ne _ (by omega) _
      | prepareNextSystemVault =>
          have hround : s.currentRound + 1 = r := by
            simpa [Registration.systemVaultRound, hstate] using hr
          refine ⟨fun r' hlt => ?_, fun h => ?_, fun h => ?_⟩
          · show (s.systemVault.insert r vault').get r' = none
            have hlt : s.currentRound + 1 < r' := hlt
            rw [StorageMap.get_insert_of_ne _ (by omega)]
            exact hs.later r' hlt
          · simp only [and_true] at h
            split_ifs at h <;> simp at h
          · rcases hkey.outcome with ⟨-, rfl, -⟩ | ⟨a, d, hbonds⟩
            · subst hround
              exact ⟨_, StorageMap.get_insert_self s.systemVault _ _, hkey.pending⟩
            · -- the vault is complete, and so is this phase
              have hready : vault'.isKeyGenerationReady = true := by
                rw [hbonds.vault_eq]
                exact hbonds.ready
              simp [hready] at h
      | setExecutiveMembers => simp [Registration.systemVaultRound, hstate] at hr
      | utxoTransfer => simp [Registration.systemVaultRound, hstate] at hr
  | requested o prepare hi hstate hnone h =>
      subst hi
      cases prepare with
      | false =>
          refine hs.same (by rw [h]) (by rw [h]) fun r hlt => ?_
          rw [h]
          exact StorageMap.get_insert_of_ne _ (by simp; omega) _
      | true =>
          rcases hstate with hstate | hstate
          · exact absurd ⟨rfl, rfl, hstate⟩ ht
          · obtain ⟨vault, hvault, -⟩ := hs.pending hstate
            simp [hvault] at hnone
  | presubmitted o sub hi hexec hnormal h =>
      exact hs.same (by rw [h]) (by rw [h]) fun r _ => by rw [h]
  | cleared raw a who target hi ha hnormal hbond hwho htarget h =>
      exact hs.same (by rw [h]) (by rw [h]) fun r _ => by rw [h]
  | systemCleared raw a vault hi hnormal hbond hvault h =>
      refine hs.same (by rw [h]) (by rw [h]) fun r hlt => ?_
      rw [h, StorageMap.get_remove, if_neg (by omega)]
  | started o hi hstate hready h =>
      subst h
      exact ⟨hs.later, fun _ => hs.empty (.inl hstate), fun h => by simp at h⟩
  | prepared o hi hstate hnone h =>
      subst h
      refine ⟨fun r hlt => ?_, fun h => by simp at h, fun _ => ⟨_, StorageMap.get_insert_self _ _ _, rfl⟩⟩
      have hlt : s.currentRound + 1 < r := hlt
      show (s.systemVault.insert _ _).get r = none
      rw [StorageMap.get_insert_of_ne _ (by omega)]
      exact hs.later r hlt
  | ended o hi hstate h =>
      subst h
      refine ⟨fun r hlt => hs.later r ?_, fun _ => hs.later _ ?_, fun h => by simp at h⟩
      · have hlt : s.currentRound + 1 + 1 < r := hlt
        omega
      · exact Nat.lt_succ_self _
  | dropped round hi hlt hnormal h =>
      refine hs.same (by rw [h]) (by rw [h]) fun r hr => ?_
      rw [h, StorageMap.get_remove, if_neg (by omega)]
  | renamed old new hi h =>
      subst h
      refine hs.same rfl rfl fun r hlt => ?_
      rw [Registration.replaceAuthority_system]
      cases hv : s.systemVault.get r with
      | none => rfl
      | some vault => simp [show r ≠ s.currentRound by omega]

lemma PoolIf.nextInv (h : PoolIf host (fun s i => i.Timely s) s) : NextInv s := by
  refine Reachable.invariant (P := NextInv) ?_ ?_ h
  · rintro s ⟨members, rfl⟩
    refine ⟨fun r _ => ?_, fun _ => ?_, fun h => ?_⟩
    · simp [Registration.genesis]
    · simp [Registration.genesis]
    · simp [Registration.genesis] at h
  · intro s i s' hs ht hstep
    exact hs.move ht (Registration.step_cases hstep)

/-- **A migration goes on**, in every run in which no vault is requested for the next round in the
normal state: its first step succeeds, and the vault it requests stays pending until it is complete. -/
theorem migration_goes_on (h : PoolIf host (fun s i => i.Timely s) s) :
    (s.serviceState = .setExecutiveMembers → ∀ o : Outlook AccountId,
      ∃ s' vault, s.migrationControl o .root = .ok s' ∧ s'.serviceState = .prepareNextSystemVault ∧
        s'.systemVault.get (s.currentRound + 1) = some vault ∧ vault.isPending = true) ∧
    (s.serviceState = .prepareNextSystemVault →
      ∃ vault, s.systemVault.get (s.currentRound + 1) = some vault ∧ vault.isPending = true) := by
  have hinv := h.nextInv
  refine ⟨fun hstate o => ?_, hinv.pending⟩
  have hnone := hinv.empty (.inr hstate)
  refine ⟨{ s with
      serviceState := .prepareNextSystemVault
      systemVault := s.systemVault.insert (s.currentRound + 1)
        (.new (s.getM o) (Registration.getN o)) }, .new (s.getM o) (Registration.getN o), ?_, rfl,
    StorageMap.get_insert_self _ _ _, rfl⟩
  · simp only [Registration.migrationControl, hstate, bind_eq_ok, ensure_eq_ok, exists_const]
    refine ⟨trivial, ?_⟩
    simp only [Registration.requestSystemVault, bind_eq_ok, ensure_eq_ok, pure_eq_ok, exists_const]
    exact ⟨trivial, .inr trivial, StorageMap.not_contains.mpr hnone, rfl⟩

end Next

/-- User 7 has its vault, and a migration waits for its second step. -/
theorem migration_goes_on_regtest : ∃ s : Registration ℕ, PoolIf regtest (fun s i => i.Timely s) s ∧
    s.serviceState = .setExecutiveMembers ∧
    ∃ s' vault, s.migrationControl regtestOutlook .root = .ok s' ∧
      s'.serviceState = .prepareNextSystemVault ∧
      s'.systemVault.get (s.currentRound + 1) = some vault ∧ vault.isPending = true := by
  have hrun := regtestRun_exists (fun s i => i.Timely s)
    [.requestVault regtestOutlook (.signed 7) [5], .requestSystemVault regtestOutlook .root false,
      .migrationControl regtestOutlook .root]
    (P := fun s => s.serviceState = .setExecutiveMembers) (by decide)
  obtain ⟨s, hs, hP⟩ := hrun
  have hstate := of_decide_eq_true hP
  exact ⟨s, hs, hstate, (migration_goes_on hs).1 hstate regtestOutlook⟩

/-- **A migration that is stuck.**  The next vault is requested before the migration starts. -/
theorem migration_stuck : ∃ s : Registration ℕ, PoolIf regtest anyStep s ∧
    s.serviceState = .setExecutiveMembers ∧
    ∀ o : Outlook ℕ, s.migrationControl o .root = .error .vaultAlreadyGenerated := by
  have hrun := regtestRun_exists anyStep
    [.requestSystemVault regtestOutlook .root true, .migrationControl regtestOutlook .root]
    (P := fun s => decide (s.serviceState = .setExecutiveMembers) &&
      s.systemVault.contains (s.currentRound + 1)) (by decide)
  obtain ⟨s, hs, hP⟩ := hrun
  simp only [Bool.and_eq_true, decide_eq_true_eq] at hP
  obtain ⟨hstate, hvault⟩ := hP
  refine ⟨s, hs, hstate, fun o => ?_⟩
  simp [Registration.migrationControl, hstate, Registration.requestSystemVault, ensure, hvault, bind,
    Except.bind]

/-! ## The members

The membership of the executives is kept outside the pool, as a set.  The pool is told of every change
of it; a relayer that gets another account keeps its seat, unless that account has one already. -/

/-- The pool and the members. -/
structure Crew (AccountId : Type) where
  pool : Registration AccountId
  members : Finset AccountId

/-- What can happen to the pool and to the members. -/
inductive Crew.Step (AccountId : Type)
  | pool (i : Pool.Step AccountId)
  | change (new : Finset AccountId)
  | replace (old new : AccountId)

/-- A step of the pool that sees the members as they are. -/
def Step.Sees (members : Finset AccountId) : Step AccountId → Prop
  | .requestVault o _ _ | .requestSystemVault o _ _ | .submitVaultKey o _ | .submitSystemVaultKey o _
  | .vaultKeyPresubmission o _ | .migrationControl o _ | .approveSetRefunds o _ =>
      o.executives = StorageMap.ascending members
  | .replaceAuthority _ _ | .changeMembersSorted _ => False
  | .requestSetRefund _ _ | .clearVault _ _ | .dropPreviousRound _ _ | .setMaxPresubmission _ _
  | .setMultiSigRatio _ _ | .addMigrationTx _ | .removeMigrationTx _ | .executeMigrationTx _
  | .processSetRefunds => True

instance (members : Finset AccountId) (i : Step AccountId) : Decidable (i.Sees members) :=
  match i with
  | .requestVault o _ _ | .requestSystemVault o _ _ | .submitVaultKey o _ | .submitSystemVaultKey o _
  | .vaultKeyPresubmission o _ | .migrationControl o _ | .approveSetRefunds o _ =>
      inferInstanceAs (Decidable (o.executives = StorageMap.ascending members))
  | .replaceAuthority _ _ | .changeMembersSorted _ => .isFalse id
  | .requestSetRefund _ _ | .clearVault _ _ | .dropPreviousRound _ _ | .setMaxPresubmission _ _
  | .setMultiSigRatio _ _ | .addMigrationTx _ | .removeMigrationTx _ | .executeMigrationTx _
  | .processSetRefunds => .isTrue trivial

namespace Crew

/-- `initialize_members`. -/
def genesis (host : Host AccountId) (members : Finset AccountId) : Crew AccountId :=
  ⟨.genesis host (StorageMap.ascending members), members⟩

/-- The members change, and the pool is told. -/
def change (c : Crew AccountId) (new : Finset AccountId) : Crew AccountId :=
  ⟨c.pool.changeMembersSorted (StorageMap.ascending new), new⟩

@[simp] lemma change_currentRound (c : Crew AccountId) (new : Finset AccountId) :
    (c.change new).pool.currentRound = c.pool.currentRound := rfl

@[simp] lemma change_serviceState (c : Crew AccountId) (new : Finset AccountId) :
    (c.change new).pool.serviceState = c.pool.serviceState := rfl

/-- What `handle_delayed_relayer_sets` does to the pool and to the members. -/
def replace (c : Crew AccountId) (old new : AccountId) : Crew AccountId :=
  let c : Crew AccountId := { c with pool := c.pool.replaceAuthority old new }
  if old ∈ c.members ∧ new ∉ c.members then c.change (insert new (c.members.erase old)) else c

/-- **One step**: the pool does something that the members allow, or the members change. -/
def step (host : Host AccountId) (c : Crew AccountId) : Step AccountId → Option (Crew AccountId)
  | .pool i => if i.Sees c.members then (c.pool.step host i).map fun pool => { c with pool } else none
  | .change new => some (c.change new)
  | .replace old new => some (c.replace old new)

end Crew

/-! ## The owners of the keys -/

/-- The vaults of a round that have got all their keys, and with them an address. -/
def Registration.builtVaults (s : Registration AccountId) (round : ℕ) : List (MultiSigAccount AccountId) :=
  ((s.systemVault.get round).toList ++
    (s.registrationPool.iterPrefix round).map fun e => e.2.vault).filter fun vault => !vault.isPending

/-- **Who owns keys of a round**: the accounts with a key in one of its vaults. -/
def Registration.keyOwners (s : Registration AccountId) (round : ℕ) : Finset AccountId :=
  ((s.builtVaults round).flatMap fun vault => StorageMap.ascending vault.pubKeys.keys).toFinset

section Owners

variable {host : Host AccountId} {s s' : Registration AccountId} {i : Step AccountId} {round : ℕ}

lemma Registration.mem_builtVaults {vault : MultiSigAccount AccountId} :
    vault ∈ s.builtVaults round ↔
      (∃ id, s.vaultAt (round, id) = some vault) ∧ vault.isPending = false := by
  rw [builtVaults, List.mem_filter, List.mem_append, Option.mem_toList, List.mem_map, Bool.not_eq_true']
  refine and_congr_left fun _ => ⟨?_, ?_⟩
  · rintro (hsystem | ⟨e, he, rfl⟩)
    · exact ⟨none, hsystem⟩
    · exact ⟨some e.1, by rw [vaultAt, StorageMap.mem_iterPrefix.mp he]; rfl⟩
  · rintro ⟨id, hvault⟩
    cases id with
    | none => exact .inl hvault
    | some who =>
        obtain ⟨target, htarget, rfl⟩ := Option.map_eq_some_iff.mp hvault
        exact .inr ⟨(who, target), StorageMap.mem_iterPrefix.mpr htarget, rfl⟩

lemma Registration.mem_keyOwners {a : AccountId} :
    a ∈ s.keyOwners round ↔ ∃ id vault, s.vaultAt (round, id) = some vault ∧
      vault.isPending = false ∧ a ∈ vault.pubKeys.keys := by
  simp only [keyOwners, List.mem_toFinset, List.mem_flatMap, mem_builtVaults,
    StorageMap.mem_ascending]
  constructor
  · rintro ⟨vault, ⟨⟨id, hvault⟩, hbuilt⟩, ha⟩
    exact ⟨id, vault, hvault, hbuilt, ha⟩
  · rintro ⟨id, vault, hvault, hbuilt, ha⟩
    exact ⟨vault, ⟨⟨id, hvault⟩, hbuilt⟩, ha⟩

/-- The vaults of a round that are built are the same in both states. -/
def Frozen (round : ℕ) (s s' : Registration AccountId) : Prop :=
  ∀ id vault, vault.isPending = false →
    (s'.vaultAt (round, id) = some vault ↔ s.vaultAt (round, id) = some vault)

lemma Frozen.keyOwners (h : Frozen round s s') : s'.keyOwners round = s.keyOwners round := by
  ext a
  simp only [Registration.mem_keyOwners]
  constructor
  · rintro ⟨id, vault, hvault, hbuilt, ha⟩
    exact ⟨id, vault, (h id vault hbuilt).mp hvault, hbuilt, ha⟩
  · rintro ⟨id, vault, hvault, hbuilt, ha⟩
    exact ⟨id, vault, (h id vault hbuilt).mpr hvault, hbuilt, ha⟩

omit [LinearOrder AccountId] in
lemma Frozen.of_eq (h : ∀ id, s'.vaultAt (round, id) = s.vaultAt (round, id)) : Frozen round s s' :=
  fun id vault _ => by rw [h id]

/-- Another key of the map is written. -/
lemma Frozen.of_update {k : ℕ × Option AccountId} {v : Option (MultiSigAccount AccountId)}
    (hv : s'.vaultAt = Function.update s.vaultAt k v) (hk : k.1 ≠ round) : Frozen round s s' := by
  refine .of_eq fun id => ?_
  rw [hv, Function.update_of_ne]
  rintro rfl
  exact hk rfl

/-- **During a migration** the vaults of the round stay as they are.  Only keys of vaults that are not
built get other owners. -/
lemma PoolMove.frozen (hm : PoolMove host s i s') (hstate : s.serviceState ≠ .normal) :
    Frozen s.currentRound s s' := by
  cases hm with
  | tuned h => exact .of_eq fun _ => congrFun (Registration.vaultAt_congr (by rw [h]) (by rw [h])) _
  | members new hi h => exact .of_eq fun id => by rw [h]; rfl
  | refunds h => exact .of_eq fun id => by rw [h.frame.1]
  | opened o who raw address keys vault vault' hi hnormal hfree hnone htake hvault h =>
      exact absurd hnormal hstate
  | bonded o who raw address keys vault vault' a d t hi hnormal hfree hnone htake hbonds h =>
      exact absurd hnormal hstate
  | keyed o sub target vault' t hi hexec hnormal htarget hkey h => exact absurd hnormal hstate
  | systemKeyed o sub r vault vault' t hi hexec hr hvault hkey h =>
      rw [hkey.frame] at h
      have hpool : s'.registrationPool = s.registrationPool := by rw [h]
      refine .of_update (Registration.vaultAt_system (by rw [h]) hpool) ?_
      -- the key is for the vault of the next round
      cases hseq : s.serviceState with
      | normal => exact absurd hseq hstate
      | prepareNextSystemVault =>
          have hround : s.currentRound + 1 = r := by
            simpa [Registration.systemVaultRound, hseq] using hr
          simp only
          omega
      | setExecutiveMembers => simp [Registration.systemVaultRound, hseq] at hr
      | utxoTransfer => simp [Registration.systemVaultRound, hseq] at hr
  | requested o prepare hi hseq hnone h =>
      have hvaults : s'.vaultAt = Function.update s.vaultAt
          (if prepare then s.currentRound + 1 else s.currentRound, none)
          (some (.new (s.getM o) (Registration.getN o))) :=
        Registration.vaultAt_system (by rw [h]) (by rw [h])
      cases prepare with
      | true => exact .of_update hvaults (Nat.succ_ne_self _)
      | false =>
          -- a new vault is pending
          intro id vault hbuilt
          rw [hvaults]
          cases id with
          | none =>
              have hnone : s.vaultAt (s.currentRound, none) = none := hnone
              simp only [Bool.false_eq_true, if_false, Function.update_self, hnone, reduceCtorEq, iff_false,
                Option.some.injEq]
              rintro rfl
              cases hbuilt
          | some who => rw [Function.update_of_ne (by simp)]
  | presubmitted o sub hi hexec hnormal h => exact absurd hnormal hstate
  | cleared raw a who target hi ha hnormal hbond hwho htarget h => exact absurd hnormal hstate
  | systemCleared raw a vault hi hnormal hbond hvault h => exact absurd hnormal hstate
  | started o hi hseq hready h => exact absurd hseq hstate
  | prepared o hi hseq hnone h =>
      exact .of_update (k := (s.currentRound + 1, none))
        (Registration.vaultAt_system (by rw [h]) (by rw [h])) (Nat.succ_ne_self _)
  | ended o hi hseq h =>
      exact .of_eq fun _ => congrFun (Registration.vaultAt_congr (by rw [h]) (by rw [h])) _
  | dropped round hi hlt hnormal h => exact absurd hnormal hstate
  | renamed old new hi h =>
      subst h
      intro id vault hbuilt
      rw [Registration.replaceAuthority_vaultAt]
      cases hvault : s.vaultAt (s.currentRound, id) with
      | none => simp
      | some vault₀ =>
          simp only [Option.map_some, true_and, Option.some.injEq]
          split_ifs with hpending
          · -- neither the old vault nor the new one is built
            constructor
            · rintro rfl
              rw [MultiSigAccount.isPending, MultiSigAccount.replaceAuthority_address] at hbuilt
              exact absurd (hbuilt.symm.trans hpending) (by decide)
            · rintro rfl
              rw [hpending] at hbuilt
              cases hbuilt
          · rfl

end Owners

/-! ## The executives of a round -/

section Executives

variable {host : Host AccountId} {s s' : Registration AccountId} {i : Step AccountId}

/-- **What a step can do to the term of the executives**: one constructor for each change of the phase. -/
inductive TermMove (s : Registration AccountId) (i : Step AccountId) (s' : Registration AccountId) :
    Prop
  | stays (hr : s'.currentRound = s.currentRound)
      (hs : s'.serviceState = .normal ↔ s.serviceState = .normal) : TermMove s i s'
  | starts (o : Outlook AccountId) (hi : i = .migrationControl o .root)
      (hstate : s.serviceState = .normal) (hready : o.isReadyForMigrate = true)
      (h : s' = { s with serviceState := .setExecutiveMembers }) : TermMove s i s'
  | ends (o : Outlook AccountId) (hi : i = .migrationControl o .root)
      (hstate : s.serviceState = .utxoTransfer) (hsome : s.ongoingVaultMigration.toList ≠ [])
      (hall : ∀ e ∈ s.ongoingVaultMigration.toList, e.2 = true)
      (hr : s'.currentRound = s.currentRound + 1) (hs : s'.serviceState = .normal) : TermMove s i s'

omit [LinearOrder AccountId] in
lemma TermMove.same (hr : s'.currentRound = s.currentRound) (hs : s'.serviceState = s.serviceState) :
    TermMove s i s' := .stays hr (by rw [hs])

/-- Only a change of the members writes the executives, and a migration goes from state to state. -/
lemma Registration.step_term (h : s.step host i = some s')
    (hi : ∀ new, i ≠ .changeMembersSorted new) :
    s'.relayExecutives = s.relayExecutives ∧ TermMove s i s' := by
  cases step_cases h with
  | tuned h => exact ⟨by rw [h], .same (by rw [h]) (by rw [h])⟩
  | members new hi' h => exact absurd hi' (hi new)
  | refunds h =>
      obtain ⟨-, -, -, -, hr, hstate, -, he⟩ := h.frame
      exact ⟨he, .same hr hstate⟩
  | opened o who raw address keys vault vault' hi hnormal hfree hnone htake hvault h =>
      exact ⟨by rw [h]; rfl, .same (by rw [h]; rfl) (by rw [h]; rfl)⟩
  | bonded o who raw address keys vault vault' a d t hi hnormal hfree hnone htake hbonds h =>
      rw [hbonds.state_eq] at h
      exact ⟨by rw [h]; rfl, .same (by rw [h]; rfl) (by rw [h]; rfl)⟩
  | keyed o sub target vault' t hi hexec hnormal htarget hkey h =>
      rw [hkey.frame] at h
      exact ⟨by rw [h], .same (by rw [h]) (by rw [h])⟩
  | systemKeyed o sub r vault vault' t hi hexec hr hvault hkey h =>
      rw [hkey.frame] at h
      refine ⟨by rw [h], .stays (by rw [h]) ?_⟩
      subst h
      dsimp only
      split_ifs with hc
      · simp [hc.2]
      · rfl
  | requested o prepare hi hstate hnone h => exact ⟨by rw [h], .same (by rw [h]) (by rw [h])⟩
  | presubmitted o sub hi hexec hnormal h => exact ⟨by rw [h], .same (by rw [h]) (by rw [h])⟩
  | cleared raw a who target hi ha hnormal hbond hwho htarget h =>
      exact ⟨by rw [h], .same (by rw [h]) (by rw [h])⟩
  | systemCleared raw a vault hi hnormal hbond hvault h =>
      exact ⟨by rw [h], .same (by rw [h]) (by rw [h])⟩
  | started o hi hstate hready h => exact ⟨by rw [h], .starts o hi hstate hready h⟩
  | prepared o hi hstate hnone h =>
      exact ⟨by rw [h], .stays (by rw [h]) (by simp [h, hstate])⟩
  | ended o hi hstate h' =>
      subst hi
      -- the call did not fail
      have hdone : s.ongoingVaultMigration.toList ≠ [] ∧
          ∀ e ∈ s.ongoingVaultMigration.toList, e.2 = true := by
        by_contra hnot
        have hfail : s.migrationControl o .root = .error .doNotInterceptMigration := by
          simp only [migrationControl, hstate, ensure, if_neg hnot]
          rfl
        have hsame : s' = s := by
          rw [step, hfail] at h
          exact (Option.some.inj h).symm
        have hround := congrArg Registration.currentRound (h'.symm.trans hsame)
        simp at hround
      exact ⟨by rw [h'], .ends o rfl hstate hdone.1 hdone.2 (by rw [h']) (by rw [h'])⟩
  | dropped round hi hlt hnormal h => exact ⟨by rw [h], .same (by rw [h]) (by rw [h])⟩
  | renamed old new hi h => exact ⟨by rw [h]; rfl, .same (by rw [h]; rfl) (by rw [h]; rfl)⟩

/-- A step that ends a migration. -/
def Step.Ends (s : Registration AccountId) : Step AccountId → Prop
  | .migrationControl _ origin => origin = .root ∧ s.serviceState = .utxoTransfer ∧
      s.ongoingVaultMigration.toList ≠ [] ∧ s.ongoingVaultMigration.toList.all Prod.snd = true
  | _ => False

instance (s : Registration AccountId) (i : Step AccountId) : Decidable (i.Ends s) :=
  match i with
  | .migrationControl _ origin => inferInstanceAs (Decidable (origin = .root ∧ _))
  | .requestSystemVault _ _ _
  | .requestVault _ _ _ | .submitVaultKey _ _ | .submitSystemVaultKey _ _ | .requestSetRefund _ _
  | .vaultKeyPresubmission _ _ | .clearVault _ _
  | .dropPreviousRound _ _ | .setMaxPresubmission _ _ | .setMultiSigRatio _ _ | .approveSetRefunds _ _
  | .addMigrationTx _ | .removeMigrationTx _ | .executeMigrationTx _ | .replaceAuthority _ _
  | .processSetRefunds | .changeMembersSorted _ => .isFalse id

/-- A migration ends only if the next round has got its executives. -/
def Crew.Step.Renewed (c : Crew AccountId) : Crew.Step AccountId → Prop
  | .pool i => i.Ends c.pool → c.pool.relayExecutives.contains (c.pool.currentRound + 1) = true
  | .change _ | .replace _ _ => True

instance (c : Crew AccountId) (i : Crew.Step AccountId) : Decidable (i.Renewed c) :=
  match i with
  | .pool i => inferInstanceAs (Decidable (i.Ends c.pool → _))
  | .change _ | .replace _ _ => .isTrue trivial

/-- A step that starts a migration. -/
def Step.Starts (s : Registration AccountId) : Step AccountId → Prop
  | .migrationControl o origin =>
      origin = .root ∧ s.serviceState = .normal ∧ o.isReadyForMigrate = true
  | _ => False

instance (s : Registration AccountId) (i : Step AccountId) : Decidable (i.Starts s) :=
  match i with
  | .migrationControl _ origin => inferInstanceAs (Decidable (origin = .root ∧ _))
  | .requestSystemVault _ _ _
  | .requestVault _ _ _ | .submitVaultKey _ _ | .submitSystemVaultKey _ _ | .requestSetRefund _ _
  | .vaultKeyPresubmission _ _ | .clearVault _ _
  | .dropPreviousRound _ _ | .setMaxPresubmission _ _ | .setMultiSigRatio _ _ | .approveSetRefunds _ _
  | .addMigrationTx _ | .removeMigrationTx _ | .executeMigrationTx _ | .replaceAuthority _ _
  | .processSetRefunds | .changeMembersSorted _ => .isFalse id

/-- A migration starts only if the members are those who own the keys of the round. -/
def Crew.Step.Manned (c : Crew AccountId) : Crew.Step AccountId → Prop
  | .pool i => i.Starts c.pool → c.pool.keyOwners c.pool.currentRound = c.members
  | .change _ | .replace _ _ => True

instance (c : Crew AccountId) (i : Crew.Step AccountId) : Decidable (i.Manned c) :=
  match i with
  | .pool i => inferInstanceAs (Decidable (i.Starts c.pool → _))
  | .change _ | .replace _ _ => .isTrue trivial

/-- A record of the members at the start of the last migration. -/
def Crew.atStart (c : Crew AccountId) (_ : Crew.Step AccountId) (c' : Crew AccountId)
    (start : Finset AccountId) : Finset AccountId :=
  if c.pool.serviceState = .normal ∧ c'.pool.serviceState ≠ .normal then c.members else start

omit [LinearOrder AccountId] in
lemma Crew.atStart_of_state {c c' : Crew AccountId} {j : Crew.Step AccountId} {start : Finset AccountId}
    (hstate : c'.pool.serviceState = c.pool.serviceState) : c.atStart j c' start = start := by
  refine if_neg fun h => h.2 ?_
  rw [hstate, h.1]

lemma Crew.replace_serviceState (c : Crew AccountId) (old new : AccountId) :
    (c.replace old new).pool.serviceState = c.pool.serviceState := by
  rw [replace]
  split_ifs <;> rfl

/-- **The invariant** of the executives. -/
structure ExecutivesInv (c : Crew AccountId) (start : Finset AccountId) : Prop where
  now : c.pool.relayExecutives.get c.pool.currentRound =
    some (StorageMap.ascending (if c.pool.serviceState = .normal then c.members else start))
  next : ∀ executives, c.pool.relayExecutives.get (c.pool.currentRound + 1) = some executives →
    c.pool.serviceState ≠ .normal ∧ executives = StorageMap.ascending c.members
  later : ∀ r, c.pool.currentRound + 1 < r → c.pool.relayExecutives.get r = none

variable {c c' : Crew AccountId} {start : Finset AccountId}

/-- A step of the pool. -/
lemma ExecutivesInv.pool (hc : ExecutivesInv c start) (hw : Crew.Step.Renewed c (.pool i))
    (he : s'.relayExecutives = c.pool.relayExecutives) (hm : TermMove c.pool i s') :
    ExecutivesInv { c with pool := s' } (c.atStart (.pool i) { c with pool := s' } start) := by
  obtain ⟨hnow, hnext, hlater⟩ := hc
  cases hm with
  | stays hr hs =>
      have hstart : c.atStart (.pool i) { c with pool := s' } start = start :=
        if_neg fun h => h.2 (hs.mpr h.1)
      rw [hstart]
      refine ⟨?_, ?_, ?_⟩
      · simp only [he, hr, hs]
        exact hnow
      · simpa only [he, hr, ne_eq, hs] using hnext
      · simpa only [he, hr] using hlater
  | starts o hi hstate hready h =>
      subst h
      have hstart : c.atStart (.pool i) { c with
          pool := { c.pool with serviceState := .setExecutiveMembers } } start = c.members :=
        if_pos ⟨hstate, by simp⟩
      rw [hstart]
      refine ⟨?_, ?_, ?_⟩
      · simp only [ite_self]
        rw [hnow, if_pos hstate]
      · intro executives hget
        exact ⟨by simp, (hnext executives hget).2⟩
      · exact hlater
  | ends o hi hstate hsome hall hr hs =>
      -- the executives of the next round are there
      subst hi
      obtain ⟨executives, hget⟩ :=
        Option.isSome_iff_exists.mp (hw ⟨rfl, hstate, hsome, List.all_eq_true.mpr hall⟩)
      refine ⟨?_, ?_, ?_⟩
      · simp only [he, hr, hs, if_true]
        rw [hget, (hnext executives hget).2]
      · intro executives' hget'
        simp only [he, hr] at hget'
        rw [hlater _ (by omega)] at hget'
        cases hget'
      · intro r hlt
        simp only [he, hr] at hlt ⊢
        exact hlater r (by omega)

/-- The invariant holds again after the members change. -/
lemma ExecutivesInv.change (hc : ExecutivesInv c start) (new : Finset AccountId) :
    ExecutivesInv (c.change new) start := by
  obtain ⟨hnow, hnext, hlater⟩ := hc
  by_cases hnormal : c.pool.serviceState = .normal
  · -- the executives of this round are replaced
    have hget : ∀ r, (c.change new).pool.relayExecutives.get r =
        if r = c.pool.currentRound then some (StorageMap.ascending new)
        else c.pool.relayExecutives.get r := by
      intro r
      simp only [Crew.change, Registration.changeMembersSorted, if_pos hnormal,
        StorageMap.get_insert]
    refine ⟨?_, fun executives h => ?_, fun r hlt => ?_⟩
    · rw [hget]
      simp [Crew.change, Registration.changeMembersSorted, hnormal]
    · rw [Crew.change_currentRound, hget, if_neg (Nat.succ_ne_self _)] at h
      exact absurd hnormal (hnext executives h).1
    · have hlt : c.pool.currentRound + 1 < r := hlt
      rw [hget, if_neg (by omega)]
      exact hlater r hlt
  · have hget : ∀ r, (c.change new).pool.relayExecutives.get r =
        if r = c.pool.currentRound + 1 then some (StorageMap.ascending new)
        else c.pool.relayExecutives.get r := by
      intro r
      simp only [Crew.change, Registration.changeMembersSorted, if_neg hnormal,
        StorageMap.get_insert]
    refine ⟨?_, fun executives h => ?_, fun r hlt => ?_⟩
    · rw [Crew.change_currentRound, hget, if_neg (Nat.succ_ne_self _).symm, hnow,
        Crew.change_serviceState, if_neg hnormal, if_neg hnormal]
    · rw [Crew.change_currentRound, hget, if_pos rfl] at h
      exact ⟨hnormal, (Option.some.inj h).symm⟩
    · have hlt : c.pool.currentRound + 1 < r := hlt
      rw [hget, if_neg (by omega)]
      exact hlater r hlt

/-- **Every step**, if it does not leave the next round without executives. -/
lemma ExecutivesInv.step {j : Crew.Step AccountId} (hc : ExecutivesInv c start)
    (hw : j.Renewed c) (h : c.step host j = some c') : ExecutivesInv c' (c.atStart j c' start) := by
  cases j with
  | pool i =>
      simp only [Crew.step] at h
      split_ifs at h with hsees
      obtain ⟨s', hs', rfl⟩ := Option.map_eq_some_iff.mp h
      have hi : ∀ new, i ≠ .changeMembersSorted new := by
        rintro new rfl
        exact hsees
      obtain ⟨he, hm⟩ := Registration.step_term hs' hi
      exact hc.pool hw he hm
  | change new =>
      obtain rfl := Option.some.inj h
      rw [Crew.atStart_of_state (c.change_serviceState new)]
      exact hc.change new
  | replace old new =>
      obtain rfl := Option.some.inj h
      have hrenamed : ExecutivesInv { c with pool := c.pool.replaceAuthority old new } start :=
        ⟨hc.now, hc.next, hc.later⟩
      rw [Crew.atStart_of_state (Crew.replace_serviceState c old new), Crew.replace]
      split_ifs with hseat
      · exact hrenamed.change _
      · exact hrenamed

/-- **The invariant** of the owners: during a migration they are the members at its start. -/
def OwnersInv (c : Crew AccountId) (start : Finset AccountId) : Prop :=
  c.pool.serviceState ≠ .normal → c.pool.keyOwners c.pool.currentRound = start

/-- A step of the pool. -/
lemma OwnersInv.pool (hc : OwnersInv c start) (hw : Crew.Step.Manned c (.pool i))
    (hmove : PoolMove host c.pool i s') (hm : TermMove c.pool i s') :
    OwnersInv { c with pool := s' } (c.atStart (.pool i) { c with pool := s' } start) := by
  intro hstate
  cases hm with
  | stays hr hs =>
      have hstart : c.atStart (.pool i) { c with pool := s' } start = start :=
        if_neg fun h => h.2 (hs.mpr h.1)
      have hbefore : c.pool.serviceState ≠ .normal := fun h => hstate (hs.mpr h)
      have howners := (hmove.frozen hbefore).keyOwners
      rw [hstart, ← hc hbefore, ← howners]
      exact congrArg s'.keyOwners hr
  | starts o hi hnormal hready h =>
      subst h hi
      have hstart : c.atStart (.pool (.migrationControl o .root)) { c with
          pool := { c.pool with serviceState := .setExecutiveMembers } } start = c.members :=
        if_pos ⟨hnormal, by simp⟩
      rw [hstart]
      exact hw ⟨rfl, hnormal, hready⟩
  | ends o hi hbefore hsome hall hr hs => exact absurd hs hstate

/-- A change of members takes keys from nobody. -/
lemma OwnersInv.change (hc : OwnersInv c start) (new : Finset AccountId) :
    OwnersInv (c.change new) start := fun hstate => hc hstate

/-- A relayer that gets another account takes its keys along. -/
lemma OwnersInv.replace (host : Host AccountId) (hc : OwnersInv c start) (old new : AccountId) :
    OwnersInv (c.replace old new) start := by
  have hrenamed : OwnersInv { c with pool := c.pool.replaceAuthority old new } start := by
    intro hstate
    have hmove : PoolMove host c.pool (.replaceAuthority old new) (c.pool.replaceAuthority old new) :=
      .renamed old new rfl rfl
    rw [← hc hstate]
    exact (hmove.frozen hstate).keyOwners
  rw [Crew.replace]
  split_ifs
  · exact hrenamed.change _
  · exact hrenamed

/-- **Every step** keeps the owners, if a migration starts with them as its members. -/
lemma OwnersInv.step {j : Crew.Step AccountId} (hc : OwnersInv c start) (hw : j.Manned c)
    (h : c.step host j = some c') : OwnersInv c' (c.atStart j c' start) := by
  cases j with
  | pool i =>
      simp only [Crew.step] at h
      split_ifs at h with hsees
      obtain ⟨s', hs', rfl⟩ := Option.map_eq_some_iff.mp h
      have hi : ∀ new, i ≠ .changeMembersSorted new := by
        rintro new rfl
        exact hsees
      exact hc.pool hw (Registration.step_cases hs') (Registration.step_term hs' hi).2
  | change new =>
      obtain rfl := Option.some.inj h
      rw [Crew.atStart_of_state (c.change_serviceState new)]
      exact hc.change new
  | replace old new =>
      obtain rfl := Option.some.inj h
      rw [Crew.atStart_of_state (Crew.replace_serviceState c old new)]
      exact hc.replace host old new

/-- The states of runs all of whose steps meet a condition, with the members at the start of the last
migration. -/
def CrewIf (host : Host AccountId) (cond : Crew AccountId → Crew.Step AccountId → Prop) :
    Crew AccountId × Finset AccountId → Prop :=
  Reachable (fun x => ∃ members, x = (.genesis host members, ∅))
    (watched (Crew.step host) Crew.atStart) fun x => cond x.1

lemma CrewIf.executivesInv {x : Crew AccountId × Finset AccountId}
    (h : CrewIf host (fun c j => j.Renewed c) x) : ExecutivesInv x.1 x.2 := by
  refine Reachable.invariant (P := fun x => ExecutivesInv x.1 x.2) ?_ ?_ h
  · rintro x ⟨members, rfl⟩
    refine ⟨?_, ?_, ?_⟩
    · simp [Crew.genesis, Registration.genesis]
    · intro executives hget
      simp [Crew.genesis, Registration.genesis] at hget
    · intro r hlt
      have hlt : 1 + 1 < r := hlt
      have hne : r ≠ 1 := by omega
      simp [Crew.genesis, Registration.genesis, hne]
  · intro x j x' hc hw hstep
    obtain ⟨hstep, hnote⟩ := watched_eq_some hstep
    rw [hnote]
    exact hc.step hw hstep

lemma CrewIf.ownersInv {x : Crew AccountId × Finset AccountId}
    (h : CrewIf host (fun c j => j.Manned c) x) : OwnersInv x.1 x.2 := by
  refine Reachable.invariant (P := fun x => OwnersInv x.1 x.2) ?_ ?_ h
  · rintro x ⟨members, rfl⟩ hstate
    exact absurd rfl hstate
  · intro x j x' hc hw hstep
    obtain ⟨hstep, hnote⟩ := watched_eq_some hstep
    rw [hnote]
    exact hc.step hw hstep

/-- **The executives of the round**, in every run in which a migration ends only if the next round has
got its executives: they are the members, and during a migration the members at its start.  If besides a
migration starts only with the members that own the keys of the round, then while it transfers the coins
exactly the owners of these keys may sign. -/
theorem executives_kept (h : CrewIf host (fun c j => j.Renewed c) (c, start)) :
    (c.pool.serviceState = .normal →
      c.pool.getRelayExecutives c.pool.currentRound = StorageMap.ascending c.members) ∧
    (c.pool.serviceState ≠ .normal →
      c.pool.getRelayExecutives c.pool.currentRound = StorageMap.ascending start) ∧
    (CrewIf host (fun c j => j.Renewed c ∧ j.Manned c) (c, start) → c.pool.serviceState = .utxoTransfer →
      ∀ (b : Bridge AccountId) (v : View AccountId) authorityId, b.pool = c.pool →
        (b.isSigner v authorityId = true ↔ authorityId ∈ c.pool.keyOwners c.pool.currentRound)) := by
  have hnow := h.executivesInv.now
  have hget : c.pool.getRelayExecutives c.pool.currentRound =
      StorageMap.ascending (if c.pool.serviceState = .normal then c.members else start) := by
    rw [Registration.getRelayExecutives, StorageMap.getD, hnow]
    rfl
  refine ⟨fun hstate => ?_, fun hstate => ?_, fun hmanned hstate b v authorityId hb => ?_⟩
  · rw [hget, if_pos hstate]
  · rw [hget, if_neg hstate]
  · have hmigrating : c.pool.serviceState ≠ .normal := by simp [hstate]
    have hmanned : CrewIf host (fun c j => j.Manned c) (c, start) := hmanned.mono fun _ _ h => h.2
    have howners : c.pool.keyOwners c.pool.currentRound = start := hmanned.ownersInv hmigrating
    rw [Bridge.isSigner, hb, if_pos hstate, hget, if_neg hmigrating, howners]
    simp

end Executives

/-! ## Small runs

Two executives, 1 and 2. -/

/-- The system vault of the first round gets its keys. -/
def systemVaultKeys : List (Crew.Step ℕ) :=
  [.pool (.requestSystemVault regtestOutlook .root false),
    .pool (.submitSystemVaultKey regtestOutlook ⟨1, 256, [50], 1⟩),
    .pool (.submitSystemVaultKey regtestOutlook ⟨2, 256, [60], 1⟩)]

/-- A migration from a round to the next, up to the transfer of the coins, by two executives. -/
def migrationFrom (o : Outlook ℕ) (round : ℕ) (executive executive' : ℕ) (key key' : Bytes)
    (between : List (Crew.Step ℕ)) : List (Crew.Step ℕ) :=
  [.pool (.migrationControl o .root)] ++ between ++
  [.pool (.migrationControl o .root),
    .pool (.submitSystemVaultKey o ⟨executive, 256, key, round + 1⟩),
    .pool (.submitSystemVaultKey o ⟨executive', 256, key', round + 1⟩)]

section Runs

variable (cond : Crew ℕ → Crew.Step ℕ → Prop) [∀ c j, Decidable (cond c j)]

/-- What a run shows, it shows of a reachable state. -/
lemma crewRun_exists (is : List (Crew.Step ℕ)) {P : Crew ℕ × Finset ℕ → Bool}
    (h : (runSteps (checked (watched (Crew.step regtest) Crew.atStart) fun x => cond x.1)
      (.genesis regtest {1, 2}, ∅) is).any P = true) :
    ∃ x, CrewIf regtest cond x ∧ P x = true := by
  obtain ⟨x, hx, hP⟩ := (Option.any_eq_true _ _).mp h
  exact ⟨x, Reachable.runChecked (.init ⟨_, rfl⟩) hx, hP⟩

/-- The run goes on after the end of a migration. -/
lemma crewRuns_exist (first second : List (Crew.Step ℕ)) {P : Crew ℕ × Finset ℕ → Bool}
    (hfirst : (runSteps (checked (watched (Crew.step regtest) Crew.atStart) fun x => cond x.1)
      (.genesis regtest {1, 2}, ∅) first).all fun x =>
        decide ((Step.migrationControl regtestOutlook .root).Ends x.1.pool ∧ x.1.members = {1, 2} ∧
          cond x.1 (.pool (.migrationControl regtestOutlook .root))))
    (h : ((runSteps (checked (watched (Crew.step regtest) Crew.atStart) fun x => cond x.1)
      (.genesis regtest {1, 2}, ∅) first).bind fun x =>
        runSteps (checked (watched (Crew.step regtest) Crew.atStart) fun x => cond x.1)
          ({ x.1 with pool := { x.1.pool with
              currentRound := x.1.pool.currentRound + 1
              serviceState := .normal
              ongoingVaultMigration := ∅ } }, x.2) second).any P = true) :
    ∃ x, CrewIf regtest cond x ∧ P x = true := by
  obtain ⟨x, hx, hP⟩ := (Option.any_eq_true _ _).mp h
  obtain ⟨y, hy, hx⟩ := Option.bind_eq_some_iff.mp hx
  have hreach : CrewIf regtest cond y := Reachable.runChecked (.init ⟨_, rfl⟩) hy
  rw [hy] at hfirst
  obtain ⟨⟨-, hstate, hsome, hall⟩, hmembers, hcond⟩ := of_decide_eq_true hfirst
  -- the migration ends
  have hends : y.1.pool.step regtest (.migrationControl regtestOutlook .root) = some { y.1.pool with
      currentRound := y.1.pool.currentRound + 1
      serviceState := .normal
      ongoingVaultMigration := ∅ } := by
    simp only [Registration.step, Registration.migrationControl, hstate, ensure,
      if_pos (show y.1.pool.ongoingVaultMigration.toList ≠ [] ∧
        ∀ e ∈ y.1.pool.ongoingVaultMigration.toList, e.2 = true from
          ⟨hsome, List.all_eq_true.mp hall⟩)]
    rfl
  refine ⟨x, Reachable.runChecked (.step hreach hcond ?_) hx, hP⟩
  have hsees : (Step.migrationControl regtestOutlook .root).Sees y.1.members := by
    rw [hmembers]
    decide
  simp only [watched, Crew.step, if_pos hsees, hends, Option.map_some, Crew.atStart, hstate]
  rfl

end Runs

/-- During the first migration the members change and change back.  In the second one exactly the owners of
the keys of round 2 may sign. -/
theorem executives_kept_second : ∃ x : Crew ℕ × Finset ℕ,
    CrewIf regtest (fun c j => j.Renewed c ∧ j.Manned c) x ∧ x.1.pool.currentRound = 2 ∧
    x.1.pool.getRelayExecutives 2 = StorageMap.ascending x.2 ∧ x.2 = {1, 2} ∧
    x.1.pool.serviceState = .utxoTransfer ∧ x.1.pool.keyOwners 2 = {1, 2} ∧
    ∀ (b : Bridge ℕ) (v : View ℕ) authorityId, b.pool = x.1.pool →
      (b.isSigner v authorityId = true ↔ authorityId ∈ x.1.pool.keyOwners 2) := by
  have hrun := crewRuns_exist (fun c j => j.Renewed c ∧ j.Manned c)
    (systemVaultKeys ++ migrationFrom regtestOutlook 1 1 2 [10] [20] [.change {1}, .change {1, 2}] ++
      [.pool (.addMigrationTx 0), .pool (.executeMigrationTx 0)])
    (migrationFrom regtestOutlook 2 1 2 [30] [40] [])
    (P := fun x => x.1.pool.currentRound = 2 ∧ x.2 = {1, 2} ∧ x.1.pool.serviceState = .utxoTransfer ∧
      x.1.pool.keyOwners 2 = {1, 2}) (by decide +kernel) (by decide +kernel)
  obtain ⟨x, hx, hP⟩ := hrun
  obtain ⟨hround, hstart, hstate, howners⟩ := of_decide_eq_true hP
  have hkept := executives_kept (hx.mono fun _ _ h => h.1)
  have hexecutives := hkept.2.1 (by simp [hstate])
  have hsigners := hkept.2.2 hx hstate
  rw [hround] at hexecutives hsigners
  exact ⟨x, hx, hround, hexecutives, hstart, hstate, howners, hsigners⟩

/-- Executive 3 has taken the place of executive 2. -/
def changedOutlook : Outlook ℕ := { regtestOutlook with executives := [1, 3] }

/-- **A round without executives.**  The members do not change during the first migration.  In the second
one nobody may sign, though 1 and 2 own the keys of the round.

**Executives without keys.**  Executives 1 and 2 own the keys of the first round, and then 3 takes the place
of 2.  In the migration 3 may sign, and 2 may not. -/
theorem executives_lost : (∃ x : Crew ℕ × Finset ℕ, CrewIf regtest anyStep x ∧
      x.1.members = {1, 2} ∧ x.2 = {1, 2} ∧ x.1.pool.serviceState = .utxoTransfer ∧
      x.1.pool.getRelayExecutives x.1.pool.currentRound = [] ∧
      x.1.pool.keyOwners x.1.pool.currentRound = {1, 2} ∧
      ∀ (b : Bridge ℕ) (v : View ℕ) authorityId, b.pool = x.1.pool →
        b.isSigner v authorityId = false) ∧
    ∃ x : Crew ℕ × Finset ℕ, CrewIf regtest anyStep x ∧
      x.1.pool.serviceState = .utxoTransfer ∧ x.1.pool.keyOwners x.1.pool.currentRound = {1, 2} ∧
      ∀ (b : Bridge ℕ) (v : View ℕ), b.pool = x.1.pool →
        b.isSigner v 3 = true ∧ b.isSigner v 2 = false := by
  constructor
  · have hrun := crewRuns_exist anyStep
      (systemVaultKeys ++ migrationFrom regtestOutlook 1 1 2 [10] [20] [] ++
        [.pool (.addMigrationTx 0), .pool (.executeMigrationTx 0)])
      (migrationFrom regtestOutlook 2 1 2 [30] [40] [])
      (P := fun x => x.1.members = {1, 2} ∧ x.2 = {1, 2} ∧ x.1.pool.serviceState = .utxoTransfer ∧
        x.1.pool.getRelayExecutives x.1.pool.currentRound = [] ∧
        x.1.pool.keyOwners x.1.pool.currentRound = {1, 2}) (by decide +kernel) (by decide +kernel)
    obtain ⟨x, hx, hP⟩ := hrun
    obtain ⟨hmembers, hstart, hstate, hnone, howners⟩ := of_decide_eq_true hP
    refine ⟨x, hx, hmembers, hstart, hstate, hnone, howners, fun b v authorityId hb => ?_⟩
    rw [Bridge.isSigner, hb, if_pos hstate, hnone]
    simp
  · have hrun := crewRun_exists anyStep
      (systemVaultKeys ++ [.change {1, 3}] ++ migrationFrom changedOutlook 1 1 3 [10] [20] [])
      (P := fun x => x.1.pool.serviceState = .utxoTransfer ∧
        x.1.pool.keyOwners x.1.pool.currentRound = {1, 2} ∧
        x.1.pool.getRelayExecutives x.1.pool.currentRound = [1, 3]) (by decide +kernel)
    obtain ⟨x, hx, hP⟩ := hrun
    obtain ⟨hstate, howners, hexecutives⟩ := of_decide_eq_true hP
    refine ⟨x, hx, hstate, howners, fun b v hb => ?_⟩
    simp only [Bridge.isSigner, hb, hstate, hexecutives, if_true]
    decide

end BifrostNode.Btc.Pool
