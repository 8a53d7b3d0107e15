import BifrostNode.Btc.Records

/-!
# Refund addresses

**The index.**  `BondedRefund` lists the users of a refund address.  A user leaves one list and enters
another when its refund address changes.

**Clearing.**  `clear_vault` drops the whole list of the refund address of the user whose vault is
cleared.  While no other user has that address, the index is right (`refunds_indexed`), and no address is
that of a vault and a refund address at once (`refunds_no_vaults`).  Otherwise the other users fall out
of the index, and a vault can get their refund address.
-/

namespace BifrostNode.Btc.Pool

open Cccp Staking Transition

variable {AccountId : Type} [LinearOrder AccountId]

/-! ## The index -/

/-- The refund address of a user in a round. -/
def Registration.refundOf (s : Registration AccountId) (k : ℕ × AccountId) : Option Bytes :=
  (s.registrationPool.get k).map BitcoinRelayTarget.refundAddress

/-- The users of a refund address, as the index has them. -/
def Registration.usersOf (s : Registration AccountId) (k : ℕ × Bytes) : List AccountId :=
  s.bondedRefund.getD k []

/-- **The index is right**: a user is once in the list of its refund address, and in no other list. -/
def RefundInv (s : Registration AccountId) : Prop :=
  ∀ r a u, (s.usersOf (r, a)).count u = if s.refundOf (r, u) = some a then 1 else 0

section Index

variable {s t s' : Registration AccountId} {r : ℕ} {who : AccountId}

lemma RefundInv.congr (hs : RefundInv s) (hp : s'.refundOf = s.refundOf)
    (hb : s'.usersOf = s.usersOf) : RefundInv s' := by
  intro r a u
  rw [hp, hb]
  exact hs r a u

/-- A user leaves the list of its refund address. -/
lemma RefundInv.leave (hs : RefundInv s) {old : Bytes} (hold : s.refundOf (r, who) = some old)
    (hp : s'.refundOf = Function.update s.refundOf (r, who) none)
    (hb : s'.usersOf = Function.update s.usersOf (r, old)
      ((s.usersOf (r, old)).filter fun u => u ≠ who)) : RefundInv s' := by
  intro r' a u
  have hcount := hs r' a u
  rw [hp, hb]
  by_cases hk : (r', u) = (r, who)
  · obtain ⟨rfl, rfl⟩ := Prod.mk.inj hk
    rw [Function.update_self]
    by_cases ha : a = old
    · subst ha
      simp [List.count_eq_zero]
    · rw [Function.update_of_ne (by simpa using ha), hcount, hold]
      simp [Ne.symm ha]
  · rw [Function.update_of_ne hk]
    by_cases ha : (r', a) = (r, old)
    · obtain ⟨rfl, rfl⟩ := Prod.mk.inj ha
      have hne : u ≠ who := fun h => hk (by rw [h])
      rw [Function.update_self, List.count_filter (by simpa using hne)]
      exact hcount
    · rw [Function.update_of_ne ha]
      exact hcount

/-- A user enters the list of its new refund address. -/
lemma RefundInv.enter (hs : RefundInv s) {new : Bytes} (hnone : s.refundOf (r, who) = none)
    (hp : s'.refundOf = Function.update s.refundOf (r, who) (some new))
    (hb : s'.usersOf = Function.update s.usersOf (r, new) (s.usersOf (r, new) ++ [who])) :
    RefundInv s' := by
  intro r' a u
  have hcount := hs r' a u
  rw [hp, hb]
  by_cases hk : (r', u) = (r, who)
  · obtain ⟨rfl, rfl⟩ := Prod.mk.inj hk
    rw [hnone, if_neg (by simp)] at hcount
    rw [Function.update_self]
    by_cases ha : a = new
    · subst ha
      simp [hcount]
    · rw [Function.update_of_ne (by simpa using ha), hcount]
      simp [Ne.symm ha]
  · rw [Function.update_of_ne hk]
    by_cases ha : (r', a) = (r, new)
    · obtain ⟨rfl, rfl⟩ := Prod.mk.inj ha
      have hne : who ≠ u := fun h => hk (by rw [h])
      rw [Function.update_self, List.count_append, hcount]
      simp [hne]
    · rw [Function.update_of_ne ha]
      exact hcount

lemma Registration.refundOf_insert {target : BitcoinRelayTarget AccountId}
    (h : s'.registrationPool = s.registrationPool.insert (r, who) target) :
    s'.refundOf = Function.update s.refundOf (r, who) (some target.refundAddress) := by
  funext k
  rw [refundOf, h, StorageMap.get_insert, Function.update_apply]
  split_ifs <;> rfl

lemma Registration.refundOf_remove
    (h : s'.registrationPool = s.registrationPool.remove (r, who)) :
    s'.refundOf = Function.update s.refundOf (r, who) none := by
  funext k
  rw [refundOf, h, StorageMap.get_remove, Function.update_apply]
  split_ifs <;> rfl

/-- The vault of a user changes, and its refund address does not. -/
lemma Registration.refundOf_vault {target : BitcoinRelayTarget AccountId}
    {vault : MultiSigAccount AccountId} (htarget : s.registrationPool.get (r, who) = some target)
    (h : s'.registrationPool = s.registrationPool.insert (r, who) { target with vault := vault }) :
    s'.refundOf = s.refundOf := by
  rw [refundOf_insert h, Function.update_eq_self_iff]
  simp [refundOf, htarget]

lemma Registration.replaceAuthority_refundOf (s : Registration AccountId) (old new : AccountId) :
    (s.replaceAuthority old new).refundOf = s.refundOf := by
  funext k
  rw [refundOf, replaceAuthority_pool, Option.map_map]
  refine congrFun (congrArg Option.map (funext fun target => ?_)) _
  simp only [Function.comp_apply]
  split_ifs <;> rfl

omit [LinearOrder AccountId] in
lemma Registration.usersOf_insert {a : Bytes} {users : List AccountId}
    (h : s'.bondedRefund = s.bondedRefund.insert (r, a) users) :
    s'.usersOf = Function.update s.usersOf (r, a) users := by
  funext k
  rw [usersOf, StorageMap.getD, h, StorageMap.get_insert, Function.update_apply]
  split_ifs <;> rfl

/-- A refund address is set, and the index moves the user from the old address to the new one. -/
lemma RefundInv.setRefund (hs : RefundInv s) {target : BitcoinRelayTarget AccountId}
    (htarget : s.registrationPool.get (r, who) = some target) (new : Bytes) :
    RefundInv (s.setRefund r who target new) := by
  -- the user leaves the old list first
  let left : Registration AccountId := { s with
    registrationPool := s.registrationPool.remove (r, who)
    bondedRefund := s.bondedRefund.insert (r, target.refundAddress)
      ((s.bondedRefund.getD (r, target.refundAddress) []).filter fun u => u ≠ who) }
  have hold : s.refundOf (r, who) = some target.refundAddress := by
    simp [Registration.refundOf, htarget]
  have hleft : RefundInv left :=
    hs.leave hold (Registration.refundOf_remove rfl) (Registration.usersOf_insert rfl)
  have hpool : (s.setRefund r who target new).registrationPool =
      left.registrationPool.insert (r, who) { target with refundAddress := new } := by
    ext1 k
    simp only [Registration.setRefund, left, StorageMap.get_insert, StorageMap.get_remove]
    split_ifs <;> rfl
  exact hleft.enter (by simp [Registration.refundOf, left])
    (Registration.refundOf_insert hpool) (Registration.usersOf_insert rfl)

lemma RefundInv.refunds (hs : RefundInv s) (h : RefundMove r s s') : RefundInv s' := by
  induction h with
  | refl => exact hs
  | set h hfree htarget ih => exact ih.setRefund htarget _
  | forget p h ih => exact ih

end Index

/-! ## Steps -/

/-- Whoever has the vault of this address is the only user of its refund address. -/
def Registration.Unshared (host : Host AccountId) (s : Registration AccountId) (raw : Bytes) : Prop :=
  ∀ a ∈ (Registration.getCheckedBitcoinAddress host raw).toOption,
    ∀ who ∈ s.bondedVault.get (s.currentRound, a), who ≠ Registration.precompile host →
      ∀ target ∈ s.registrationPool.get (s.currentRound, who),
        ∀ u ∈ s.usersOf (s.currentRound, target.refundAddress), u = who

instance (host : Host AccountId) (s : Registration AccountId) (raw : Bytes) :
    Decidable (s.Unshared host raw) := inferInstanceAs (Decidable (∀ a ∈
      (Registration.getCheckedBitcoinAddress host raw).toOption,
      ∀ who ∈ s.bondedVault.get (s.currentRound, a), who ≠ Registration.precompile host →
        ∀ target ∈ s.registrationPool.get (s.currentRound, who),
          ∀ u ∈ s.usersOf (s.currentRound, target.refundAddress), u = who))

/-- A vault that is cleared has the only user of its refund address. -/
def Step.Unshared (host : Host AccountId) (s : Registration AccountId) : Step AccountId → Prop
  | .clearVault origin raw => IfOk (s.clearVault host origin raw) (s.Unshared host raw)
  | _ => True

instance (host : Host AccountId) (s : Registration AccountId) (i : Step AccountId) :
    Decidable (i.Unshared host s) :=
  match i with
  | .clearVault _ _ => inferInstanceAs (Decidable (IfOk _ _))
  | .requestVault _ _ _ | .submitVaultKey _ _ | .submitSystemVaultKey _ _ | .requestSetRefund _ _
  | .requestSystemVault _ _ _ | .vaultKeyPresubmission _ _ | .migrationControl _ _
  | .dropPreviousRound _ _ | .setMaxPresubmission _ _ | .setMultiSigRatio _ _ | .approveSetRefunds _ _
  | .addMigrationTx _ | .removeMigrationTx _ | .executeMigrationTx _ | .replaceAuthority _ _
  | .processSetRefunds | .changeMembersSorted _ => .isTrue trivial

section Steps

variable {host : Host AccountId} {s t s' : Registration AccountId} {i : Step AccountId}

/-- A user comes in with its refund address. -/
lemma RefundInv.withTarget (hs : RefundInv s) {who : AccountId} {address : Bytes}
    {vault : MultiSigAccount AccountId} (hnone : s.registrationPool.get (s.currentRound, who) = none) :
    RefundInv (s.withTarget who address vault) :=
  hs.enter (by simp [Registration.refundOf, hnone]) (Registration.refundOf_insert rfl)
    (Registration.usersOf_insert rfl)

/-- A step that is unshared changes nothing, or clears a vault with the only user of its refund
address. -/
lemma Step.Unshared.same_or (hu : i.Unshared host s) (h : s.step host i = some s') :
    s' = s ∨ ∀ origin raw, i = .clearVault origin raw → s.Unshared host raw := by
  cases i with
  | clearVault origin raw =>
      obtain rfl := Option.some.inj h
      refine (IfOk.same_or hu).imp id fun halone => ?_
      rintro _ _ ⟨⟩
      exact halone
  | _ => exact .inr fun _ _ hi => by cases hi

/-- Every step that clears no shared refund address keeps the index right. -/
lemma RefundInv.move (hs : RefundInv s)
    (hu : ∀ origin raw, i = .clearVault origin raw → s.Unshared host raw)
    (hm : PoolMove host s i s') : RefundInv s' := by
  cases hm with
  | tuned h => exact hs.congr (by rw [h]; rfl) (by rw [h]; rfl)
  | members new hi h => exact hs.congr (by rw [h]; rfl) (by rw [h]; rfl)
  | refunds h => exact hs.refunds h
  | opened o who raw address keys vault vault' hi hnormal hfree hnone htake hvault h =>
      subst h
      have hkeys : RefundInv { s with preSubmittedPubKeys := keys } := hs.congr rfl rfl
      exact hkeys.withTarget hnone
  | bonded o who raw address keys vault vault' a d t hi hnormal hfree hnone htake hbonds h =>
      rw [h, hbonds.state_eq]
      refine RefundInv.withTarget (hs.congr rfl rfl) hnone
  | keyed o sub target vault' t hi hexec hnormal htarget hkey h =>
      have hframe := hkey.frame
      refine hs.congr ?_ (by rw [h, hframe]; rfl)
      exact Registration.refundOf_vault htarget (by rw [h])
  | systemKeyed o sub r vault vault' t hi hexec hr hvault hkey h =>
      exact hs.congr (by rw [h, hkey.frame]; rfl) (by rw [h, hkey.frame]; rfl)
  | requested o prepare hi hstate hnone h => exact hs.congr (by rw [h]; rfl) (by rw [h]; rfl)
  | presubmitted o sub hi hexec hnormal h => exact hs.congr (by rw [h]; rfl) (by rw [h]; rfl)
  | cleared raw a who target hi ha hnormal hbond hwho htarget h =>
      subst hi
      have hold : s.refundOf (s.currentRound, who) = some target.refundAddress := by
        simp [Registration.refundOf, htarget]
      -- nobody else is in the list that is dropped
      have halone : ∀ u ∈ s.usersOf (s.currentRound, target.refundAddress), u = who :=
        hu _ raw rfl a (by simp [ha, Except.toOption]) who hbond hwho target htarget
      refine hs.leave hold (Registration.refundOf_remove (by rw [h])) ?_
      have hleft : (s.usersOf (s.currentRound, target.refundAddress)).filter (fun u => u ≠ who) =
          [] := by
        rw [List.filter_eq_nil_iff]
        intro u hmem
        simp [halone u hmem]
      rw [hleft]
      funext k
      rw [Registration.usersOf, StorageMap.getD, h, StorageMap.get_remove, Function.update_apply]
      split_ifs <;> rfl
  | systemCleared raw a vault hi hnormal hbond hvault h =>
      exact hs.congr (by rw [h]; rfl) (by rw [h]; rfl)
  | started o hi hstate hready h => exact hs.congr (by rw [h]; rfl) (by rw [h]; rfl)
  | prepared o hi hstate hnone h => exact hs.congr (by rw [h]; rfl) (by rw [h]; rfl)
  | ended o hi hstate h => exact hs.congr (by rw [h]; rfl) (by rw [h]; rfl)
  | dropped round hi hlt hnormal h =>
      intro r a u
      have hcount := hs r a u
      rw [h]
      simp only [Registration.usersOf, Registration.refundOf, StorageMap.getD,
        StorageMap.get_filterKeys, decide_eq_true_eq] at hcount ⊢
      by_cases hr : r = round
      · simp [hr]
      · simpa [hr] using hcount
  | renamed old new hi h =>
      subst h
      exact hs.congr (Registration.replaceAuthority_refundOf s old new) rfl

lemma PoolIf.refundInv (h : PoolIf host (fun s i => i.Unshared host s) s) : RefundInv s := by
  refine Reachable.invariant (P := RefundInv) ?_ ?_ h
  · rintro s ⟨members, rfl⟩ r a u
    simp [Registration.usersOf, Registration.refundOf, Registration.genesis, StorageMap.getD]
  · intro s i s' hs hu hstep
    rcases hu.same_or hstep with rfl | halone
    · exact hs
    · exact hs.move halone (Registration.step_cases hstep)

end Steps

/-! ## Vaults and refund addresses -/

/-- **No address is both** that of a vault and a refund address. -/
def ApartInv (s : Registration AccountId) : Prop :=
  ∀ r a u, s.refundOf (r, u) = some a → s.bondedVault.get (r, a) = none

section Apart

variable {host : Host AccountId} {o : Outlook AccountId} {s t s' : Registration AccountId}
  {i : Step AccountId} {r : ℕ} {who : AccountId}

omit [LinearOrder AccountId] in
/-- Nothing becomes a vault or a refund address. -/
lemma ApartInv.shrink (hs : ApartInv s) (hp : ∀ k a, s'.refundOf k = some a → s.refundOf k = some a)
    (hv : ∀ k, s.bondedVault.get k = none → s'.bondedVault.get k = none) : ApartInv s' := by
  intro r a u h
  exact hv (r, a) (hs r a u (hp (r, u) a h))

omit [LinearOrder AccountId] in
lemma ApartInv.same (hs : ApartInv s) (hp : s'.refundOf = s.refundOf)
    (hv : s'.bondedVault = s.bondedVault) : ApartInv s' :=
  hs.shrink (fun k a h => by rwa [hp] at h) fun k h => by rwa [hv]

/-- A user gets a refund address that is not the address of a vault. -/
lemma ApartInv.refund (hs : ApartInv s) {target : BitcoinRelayTarget AccountId}
    (hfree : s.bondedVault.get (r, target.refundAddress) = none)
    (hp : s'.registrationPool = s.registrationPool.insert (r, who) target)
    (hv : s'.bondedVault = s.bondedVault) : ApartInv s' := by
  intro r' a u h
  rw [Registration.refundOf_insert hp] at h
  rw [hv]
  by_cases hk : (r', u) = (r, who)
  · obtain ⟨rfl, rfl⟩ := Prod.mk.inj hk
    rw [Function.update_self, Option.some.injEq] at h
    rw [← h]
    exact hfree
  · rw [Function.update_of_ne hk] at h
    exact hs r' a u h

/-- A vault gets an address that the index does not have: then it is nobody's refund address. -/
lemma ApartInv.vault (hs : ApartInv s) (hinv : RefundInv s) {a : Bytes}
    (hfree : s.bondedRefund.get (r, a) = none) (hp : s'.refundOf = s.refundOf)
    (hv : s'.bondedVault = s.bondedVault.insert (r, a) who) : ApartInv s' := by
  intro r' a' u h
  rw [hp] at h
  have hne : (r', a') ≠ (r, a) := by
    rintro ⟨⟩
    have hcount := hinv r a u
    rw [h, if_pos rfl, Registration.usersOf, StorageMap.getD, hfree] at hcount
    simp at hcount
  rw [hv, StorageMap.get_insert_of_ne _ hne]
  exact hs r' a' u h

/-- A key is added, and perhaps an address bonded. -/
lemma ApartInv.key (hs : ApartInv s) (hinv : RefundInv s) {vault vault' : MultiSigAccount AccountId}
    {authorityId : AccountId} {pubKey refund : Bytes}
    (hkey : KeyAdded host o s vault authorityId pubKey refund who r vault' t)
    (hp : s'.refundOf = s.refundOf) (hv : s'.bondedVault = t.bondedVault) : ApartInv s' := by
  rcases hkey.outcome with ⟨-, -, rfl⟩ | ⟨a, d, hbonds⟩
  · exact hs.same hp hv
  · have hbonded : s'.bondedVault = s.bondedVault.insert (r, a) who := by
      rw [hv, hbonds.state_eq]
    exact hs.vault hinv hbonds.free hp hbonded

lemma ApartInv.refunds (hs : ApartInv s) (h : RefundMove r s s') : ApartInv s' := by
  induction h with
  | refl => exact hs
  | set h hfree htarget ih =>
      rename_i t who target new
      have hfree : t.bondedVault.get (r, { target with refundAddress := new }.refundAddress) = none :=
        hfree
      exact ih.refund hfree rfl rfl
  | forget p h ih => exact ih

/-- **Every step** from a state with a right index keeps them apart. -/
lemma ApartInv.move (hs : ApartInv s) (hinv : RefundInv s) (hm : PoolMove host s i s') :
    ApartInv s' := by
  cases hm with
  | tuned h => exact hs.same (by rw [h]; rfl) (by rw [h])
  | members new hi h => exact hs.same (by rw [h]; rfl) (by rw [h]; rfl)
  | refunds h => exact hs.refunds h
  | opened o who raw address keys vault vault' hi hnormal hfree hnone htake hvault h =>
      have hpool : s'.registrationPool = s.registrationPool.insert (s.currentRound, who)
          ⟨address, vault'⟩ := by
        rw [h]
        rfl
      exact hs.refund hfree hpool (by rw [h]; rfl)
  | bonded o who raw address keys vault vault' a d t hi hnormal hfree hnone htake hbonds h =>
      have ht : ApartInv t := by
        rw [hbonds.state_eq]
        exact hs.vault hinv hbonds.free rfl rfl
      have hfree' : t.bondedVault.get (s.currentRound, address) = none := by
        rw [hbonds.state_eq, StorageMap.get_insert_of_ne]
        · exact hfree
        · simpa using Ne.symm hbonds.other
      have hpool : s'.registrationPool = t.registrationPool.insert (s.currentRound, who)
          ⟨address, vault'⟩ := by
        rw [h, hbonds.state_eq]
        rfl
      exact ht.refund hfree' hpool (by rw [h]; rfl)
  | keyed o sub target vault' t hi hexec hnormal htarget hkey h =>
      refine hs.key hinv hkey ?_ (by rw [h])
      exact Registration.refundOf_vault htarget (by rw [h])
  | systemKeyed o sub r vault vault' t hi hexec hr hvault hkey h =>
      exact hs.key hinv hkey (by rw [h, hkey.frame]; rfl) (by rw [h])
  | requested o prepare hi hstate hnone h => exact hs.same (by rw [h]; rfl) (by rw [h])
  | presubmitted o sub hi hexec hnormal h => exact hs.same (by rw [h]; rfl) (by rw [h])
  | cleared raw a who target hi ha hnormal hbond hwho htarget h =>
      refine hs.shrink (fun k b hk => ?_) fun k hk => ?_
      · rw [Registration.refundOf_remove (by rw [h]), Function.update_apply] at hk
        split_ifs at hk
        exact hk
      · rw [h, StorageMap.get_remove, hk, ite_self]
  | systemCleared raw a vault hi hnormal hbond hvault h =>
      refine hs.shrink (fun k b hk => ?_) fun k hk => ?_
      · rw [h] at hk
        exact hk
      · rw [h, StorageMap.get_remove, hk, ite_self]
  | started o hi hstate hready h => exact hs.same (by rw [h]; rfl) (by rw [h])
  | prepared o hi hstate hnone h => exact hs.same (by rw [h]; rfl) (by rw [h])
  | ended o hi hstate h => exact hs.same (by rw [h]; rfl) (by rw [h])
  | dropped round hi hlt hnormal h =>
      refine hs.shrink (fun k b hk => ?_) fun k hk => ?_
      · rw [h] at hk
        simp only [Registration.refundOf, StorageMap.get_filterKeys] at hk
        split_ifs at hk
        · exact hk
        · cases hk
      · rw [h, StorageMap.get_filterKeys, hk, ite_self]
  | renamed old new hi h =>
      subst h
      exact hs.same (Registration.replaceAuthority_refundOf s old new) rfl

lemma PoolIf.apartInv (h : PoolIf host (fun s i => i.Unshared host s) s) :
    RefundInv s ∧ ApartInv s := by
  refine Reachable.invariant (P := fun s => RefundInv s ∧ ApartInv s) ?_ ?_ h
  · rintro s ⟨members, rfl⟩
    refine ⟨PoolIf.refundInv (.init ⟨members, rfl⟩), fun r a u hu => ?_⟩
    simp [Registration.genesis]
  · rintro s i s' ⟨hinv, hs⟩ hu hstep
    rcases hu.same_or hstep with rfl | halone
    · exact ⟨hinv, hs⟩
    · have hm := Registration.step_cases hstep
      exact ⟨hinv.move halone hm, hs.move hinv hm⟩

end Apart

/-! ## Results -/

section Results

variable {host : Host AccountId} {s : Registration AccountId}

/-- **The index is right**, in every run in which a vault is cleared only if its owner is the only user
of its refund address: a user is listed under an address exactly if that is its refund address, and
once. -/
theorem refunds_indexed (h : PoolIf host (fun s i => i.Unshared host s) s) (r : ℕ) (a : Bytes)
    (u : AccountId) :
    (u ∈ s.bondedRefund.getD (r, a) [] ↔
      ∃ target, s.registrationPool.get (r, u) = some target ∧ target.refundAddress = a) ∧
    (u ∈ s.bondedRefund.getD (r, a) [] → (s.bondedRefund.getD (r, a) []).count u = 1) := by
  have hcount := h.refundInv r a u
  simp only [Registration.refundOf, Option.map_eq_some_iff] at hcount
  rw [← Registration.usersOf, ← List.count_pos_iff, hcount]
  split_ifs with hu
  · exact ⟨by simpa using hu, fun _ => rfl⟩
  · exact ⟨by simpa using hu, fun hpos => absurd hpos (lt_irrefl 0)⟩

/-- **Vaults and refund addresses are apart**, in every such run. -/
theorem refunds_no_vaults (h : PoolIf host (fun s i => i.Unshared host s) s) (r : ℕ) (a : Bytes)
    (owner u : AccountId) (target : BitcoinRelayTarget AccountId)
    (howner : s.bondedVault.get (r, a) = some owner)
    (htarget : s.registrationPool.get (r, u) = some target) : target.refundAddress ≠ a := by
  rintro rfl
  have hnone := h.apartInv.2 r target.refundAddress u (by simp [Registration.refundOf, htarget])
  rw [howner] at hnone
  cases hnone

end Results

/-! ## Small runs

User 7 gets the vault of the keys 10 and 20. -/

def vaultOfSeven (refundAddress : Bytes) : List (Step ℕ) :=
  [.requestVault regtestOutlook (.signed 7) refundAddress,
    .submitVaultKey regtestOutlook ⟨1, 7, [20], 1⟩, .submitVaultKey regtestOutlook ⟨2, 7, [10], 1⟩]

/-- User 7 is alone with its refund address, its vault is cleared, and it comes back. -/
theorem refunds_indexed_again : ∃ s : Registration ℕ,
    PoolIf regtest (fun s i => i.Unshared regtest s) s ∧
    (s.registrationPool.get (1, 7)).map BitcoinRelayTarget.refundAddress = some [6] ∧
    (s.bondedRefund.getD (1, [6]) []).count 7 = 1 ∧ 7 ∉ s.bondedRefund.getD (1, [5]) [] := by
  have hrun := regtestRun_exists (fun s i => i.Unshared regtest s)
    (vaultOfSeven [5] ++ [.requestVault regtestOutlook (.signed 8) [6], .clearVault .root [1, 10, 20],
      .requestVault regtestOutlook (.signed 7) [6]])
    (P := fun s => (s.registrationPool.get (1, 7)).any fun target =>
      decide (target.refundAddress = [6])) (by decide)
  obtain ⟨s, hs, hP⟩ := hrun
  obtain ⟨target, ht, ha⟩ := (Option.any_eq_true _ _).mp hP
  have ha := of_decide_eq_true ha
  obtain ⟨hiff, hone⟩ := refunds_indexed hs 1 [6] 7
  refine ⟨s, hs, by simp [ht, ha], hone (hiff.mpr ⟨target, ht, ha⟩), fun hmem => ?_⟩
  obtain ⟨target', ht', ha'⟩ := (refunds_indexed hs 1 [5] 7).1.mp hmem
  obtain rfl := Option.some.inj (ht.symm.trans ht')
  rw [ha] at ha'
  cases ha'

/-- **A user falls out of the index.**  Users 7 and 8 have one refund address, and the vault of user 7 is
cleared. -/
theorem refunds_dropped : ∃ s : Registration ℕ, PoolIf regtest anyStep s ∧ s.currentRound = 1 ∧
    ∃ target, s.registrationPool.get (1, 8) = some target ∧ target.refundAddress = [5] ∧
      8 ∉ s.bondedRefund.getD (1, [5]) [] := by
  have hrun := regtestRun_exists anyStep
    (vaultOfSeven [5] ++ [.requestVault regtestOutlook (.signed 8) [5], .clearVault .root [1, 10, 20]])
    (P := fun s => (s.registrationPool.get (1, 8)).any fun target =>
      decide (s.currentRound = 1 ∧ target.refundAddress = [5] ∧
        8 ∉ s.bondedRefund.getD (1, [5]) [])) (by decide)
  obtain ⟨s, hs, hP⟩ := hrun
  obtain ⟨target, ht, hP⟩ := (Option.any_eq_true _ _).mp hP
  obtain ⟨hround, ha, hnot⟩ := of_decide_eq_true hP
  exact ⟨s, hs, hround, target, ht, ha, hnot⟩

/-- User 8 has a refund address, and user 7 a vault with another one. -/
theorem refunds_no_vaults_regtest : ∃ s : Registration ℕ,
    PoolIf regtest (fun s i => i.Unshared regtest s) s ∧
    ∃ target, s.registrationPool.get (1, 8) = some target ∧
      s.bondedVault.get (1, [1, 10, 20]) = some 7 ∧ target.refundAddress ≠ [1, 10, 20] := by
  have hrun := regtestRun_exists (fun s i => i.Unshared regtest s)
    (vaultOfSeven [5] ++ [.requestVault regtestOutlook (.signed 8) [5]])
    (P := fun s => decide (s.bondedVault.get (1, [1, 10, 20]) = some 7) &&
      (s.registrationPool.get (1, 8)).isSome) (by decide)
  obtain ⟨s, hs, hP⟩ := hrun
  simp only [Bool.and_eq_true, decide_eq_true_eq, Option.isSome_iff_exists] at hP
  obtain ⟨hv, target, ht⟩ := hP
  exact ⟨s, hs, target, ht, hv, refunds_no_vaults hs 1 [1, 10, 20] 7 8 target hv ht⟩

/-- **A vault with the refund address of a user.**  Users 7 and 8 have the address of the keys 30 and 40
as their refund address.  After the vault of user 7 is cleared the index does not have it any more, and
user 9 gets a vault with that address. -/
theorem refunds_vault_clash : ∃ s : Registration ℕ, PoolIf regtest anyStep s ∧ s.currentRound = 1 ∧
    ∃ target, s.registrationPool.get (1, 8) = some target ∧
      s.bondedVault.get (1, target.refundAddress) = some 9 := by
  have hrun := regtestRun_exists anyStep
    (vaultOfSeven [1, 30, 40] ++ [.requestVault regtestOutlook (.signed 8) [1, 30, 40],
      .clearVault .root [1, 10, 20], .requestVault regtestOutlook (.signed 9) [6],
      .submitVaultKey regtestOutlook ⟨1, 9, [30], 1⟩, .submitVaultKey regtestOutlook ⟨2, 9, [40], 1⟩])
    (P := fun s => (s.registrationPool.get (1, 8)).any fun target =>
      decide (s.currentRound = 1 ∧ s.bondedVault.get (1, target.refundAddress) = some 9)) (by decide)
  obtain ⟨s, hs, hP⟩ := hrun
  obtain ⟨target, ht, hP⟩ := (Option.any_eq_true _ _).mp hP
  obtain ⟨hround, hv⟩ := of_decide_eq_true hP
  exact ⟨s, hs, hround, target, ht, hv⟩

end BifrostNode.Btc.Pool
