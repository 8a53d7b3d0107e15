import BifrostNode.Btc.Keys
import BifrostNode.Btc.Handover

/-!
# Operators and their accounts

A relayer that gets another account is still the same operator.  `Operators` follows the operators
through such replacements, and records which of them has given a key to which vault.

**The pool follows them** in the pending vaults of its round, and with the keys submitted in advance.
It does not in the vault of the next round, which takes keys during a migration: there the operator can
give a second key under its new account (`operator_gives_two`).

**Where it does** no operator gives two keys to a vault, and no pending vault has a key under an account
that was replaced (`operators_followed`).
-/

namespace BifrostNode.Btc.Pool

open Cccp Staking Transition

variable {AccountId : Type} [LinearOrder AccountId]

/-! ## The record -/

/-- Who is behind an account, which accounts were replaced, and who has given a key to a vault.  An
operator has the name of its first account; the number tells operators with one name apart. -/
structure Operators (AccountId : Type) where
  operator : AccountId → AccountId × ℕ
  count : ℕ
  replaced : Finset AccountId
  givers : ℕ × Option AccountId → List (AccountId × ℕ)

/-- The accounts under which a vault has keys. -/
def accountsOf (v : Option (MultiSigAccount AccountId)) : Finset AccountId :=
  v.elim ∅ fun vault => vault.pubKeys.keys

namespace Operators

/-- Nothing has happened yet. -/
def genesis : Operators AccountId := ⟨fun a => (a, 0), 0, ∅, fun _ => []⟩

/-- The givers of a vault, when its keys change. -/
def giversOf (g : Operators AccountId) (k : ℕ × Option AccountId)
    (v v' : Option (MultiSigAccount AccountId)) : List (AccountId × ℕ) :=
  if v' = none then []
  else g.givers k ++ (StorageMap.ascending (accountsOf v' \ accountsOf v)).map g.operator

/-- An operator goes from one account to another.  The account it leaves is free for a new one. -/
def moved (g : Operators AccountId) (old new : AccountId) : AccountId → AccountId × ℕ :=
  Function.update (Function.update g.operator old (old, g.count + 1)) new (g.operator old)

/-- **The record** of a step. -/
def note (c : Crew AccountId) (j : Crew.Step AccountId) (c' : Crew AccountId)
    (g : Operators AccountId) : Operators AccountId :=
  match j with
  | .pool _ => { g with givers := fun k => g.giversOf k (c.pool.vaultAt k) (c'.pool.vaultAt k) }
  | .change new => { g with replaced := g.replaced \ new }
  | .replace old new => { g with
      operator := g.moved old new
      count := g.count + 1
      replaced := (insert old g.replaced).erase new }

end Operators

/-- **The invariant** of the operators. -/
structure OperatorInv (c : Crew AccountId) (g : Operators AccountId) : Prop where
  seats : ∀ a ∈ c.members, a ∉ g.replaced
  keys : ∀ k vault, c.pool.vaultAt k = some vault → vault.isPending = true →
    ∀ a ∈ vault.pubKeys.keys, a ∉ g.replaced
  distinct : Function.Injective g.operator
  named : ∀ a, (g.operator a).2 ≤ g.count
  once : ∀ k, (g.givers k).Nodup
  past : ∀ k, ∀ p ∈ g.givers k, p.2 ≤ g.count
  given : ∀ k vault, c.pool.vaultAt k = some vault → vault.isPending = true →
    ∀ a, g.operator a ∈ g.givers k → a ∈ vault.pubKeys.keys
  gone : ∀ k, c.pool.vaultAt k = none → g.givers k = []

/-! ## Steps of the pool -/

section Pool

variable {host : Host AccountId} {s : Registration AccountId} {i : Step AccountId}
  {c c' : Crew AccountId} {g : Operators AccountId} {k : ℕ × Option AccountId}
  {v v' : Option (MultiSigAccount AccountId)} {members : Finset AccountId}

/-- **What a step of the pool does to one vault**: accounts come in that belong to members, and only
pending vaults change. -/
lemma VaultChange.accounts (hc : VaultChange host s i k v v') (hsees : i.Sees members)
    {vault' : MultiSigAccount AccountId} (hv' : v' = some vault') :
    (∀ a ∈ vault'.pubKeys.keys, a ∈ accountsOf v ∨ a ∈ members) ∧
    ∀ vault, v = some vault → vault = vault' ∨
      (vault.isPending = true ∧ vault.pubKeys.keys ⊆ vault'.pubKeys.keys) := by
  cases hc with
  | same =>
      subst hv'
      refine ⟨fun a ha => .inl ha, fun vault hvault => .inl (Option.some.inj hvault).symm⟩
  | gone => cases hv'
  | requested m n =>
      obtain rfl := Option.some.inj hv'
      refine ⟨fun a ha => ?_, fun vault hvault => by cases hvault⟩
      simp [MultiSigAccount.new] at ha
  | opened o who raw address keys vault vault' hi hk htake hvault =>
      obtain rfl := Option.some.inj hv'
      subst hi
      have hexec : o.executives = StorageMap.ascending members := hsees
      refine ⟨fun a ha => .inr ?_, fun vault hvault => by cases hvault⟩
      have hnodup : o.executives.Nodup := by
        rw [hexec, StorageMap.ascending_eq_sort]
        exact Finset.sort_nodup _ _
      obtain ⟨-, hget⟩ := Registration.takePreSubmitted_spec hnodup htake fun _ _ => rfl
      have hmem : a ∈ vault.pubKeys.keys := by
        rcases hvault with rfl | rfl | ⟨t, a', d, hbonds⟩
        · exact ha
        · simp at ha
        · rw [hbonds.vault_eq] at ha
          exact ha
      obtain ⟨key, hkey⟩ := StorageMap.mem_keys_iff.mp hmem
      rw [hget a] at hkey
      split_ifs at hkey with he
      · rw [hexec] at he
        exact StorageMap.mem_ascending.mp he
      · simp [MultiSigAccount.new] at hkey
  | keyed o authorityId pubKey refundAddress vault vault' t hexec hi hkey =>
      obtain rfl := Option.some.inj hv'
      have hmember : authorityId ∈ members := by
        obtain ⟨sub, -, rfl | rfl⟩ := hi
        · have hsees : o.executives = StorageMap.ascending members := hsees
          rwa [hsees, StorageMap.mem_ascending] at hexec
        · have hsees : o.executives = StorageMap.ascending members := hsees
          rwa [hsees, StorageMap.mem_ascending] at hexec
      have hkeys : vault'.pubKeys.keys = insert authorityId vault.pubKeys.keys := by
        rcases hkey.outcome with ⟨-, rfl, -⟩ | ⟨a, d, hbonds⟩
        · rfl
        · rw [hbonds.vault_eq]
          rfl
      rw [hkeys]
      refine ⟨fun a ha => ?_, fun vault₁ hvault₁ => .inr ?_⟩
      · rcases Finset.mem_insert.mp ha with rfl | ha
        · exact .inr hmember
        · exact .inl ha
      · obtain rfl := Option.some.inj hvault₁
        exact ⟨hkey.pending, Finset.subset_insert _ _⟩
  | renamed old new vault hi hk hpending =>
      subst hi
      exact hsees.elim

/-- A step of the pool that the members allow keeps the invariant. -/
lemma OperatorInv.pool (hc : OperatorInv c g) {s' : Registration AccountId}
    (hsees : i.Sees c.members) (hstep : c.pool.step host i = some s') :
    OperatorInv { c with pool := s' } (g.note c (.pool i) { c with pool := s' }) := by
  have hchange := (Registration.step_cases hstep).vaultChange
  -- a pending vault was pending before
  have hbefore : ∀ k vault', s'.vaultAt k = some vault' → vault'.isPending = true →
      ∀ vault, c.pool.vaultAt k = some vault → vault.isPending = true := by
    intro k vault' hv' hp vault hv
    rcases ((hchange k).accounts hsees hv').2 vault hv with rfl | ⟨hpending, -⟩
    · exact hp
    · exact hpending
  -- who has a key already does not give another one
  have hnew : ∀ k vault', s'.vaultAt k = some vault' → ∀ a, g.operator a ∈ g.givers k →
      a ∉ accountsOf (s'.vaultAt k) \ accountsOf (c.pool.vaultAt k) := by
    intro k vault' hv' a ha hmem
    obtain ⟨hafter, hnot⟩ := Finset.mem_sdiff.mp hmem
    cases hv : c.pool.vaultAt k with
    | none =>
        rw [hc.gone k hv] at ha
        cases ha
    | some vault =>
        rw [hv] at hnot
        rcases ((hchange k).accounts hsees hv').2 vault hv with rfl | ⟨hpending, -⟩
        · rw [hv'] at hafter
          exact hnot hafter
        · exact hnot (hc.given k vault hv hpending a ha)
  refine ⟨hc.seats, ?_, hc.distinct, hc.named, ?_, ?_, ?_, ?_⟩
  · intro k vault' hv' hp a ha
    rcases ((hchange k).accounts hsees hv').1 a ha with hold | hmember
    · cases hv : c.pool.vaultAt k with
      | none => simp [hv, accountsOf] at hold
      | some vault =>
          rw [hv] at hold
          exact hc.keys k vault hv (hbefore k vault' hv' hp vault hv) a hold
    · exact hc.seats a hmember
  · intro k
    show (g.giversOf k (c.pool.vaultAt k) (s'.vaultAt k)).Nodup
    rw [Operators.giversOf]
    split_ifs with hnone
    · exact List.nodup_nil
    · obtain ⟨vault', hv'⟩ := Option.ne_none_iff_exists'.mp hnone
      refine List.nodup_append.mpr ⟨hc.once k, ?_, ?_⟩
      · rw [StorageMap.ascending_eq_sort]
        exact (Finset.sort_nodup _ _).map hc.distinct
      · rintro p hp q hq rfl
        obtain ⟨a, ha, rfl⟩ := List.mem_map.mp hq
        exact hnew k vault' hv' a hp (StorageMap.mem_ascending.mp ha)
  · intro k p hp
    have hp : p ∈ g.giversOf k (c.pool.vaultAt k) (s'.vaultAt k) := hp
    rw [Operators.giversOf] at hp
    split_ifs at hp with hnone
    · cases hp
    · rcases List.mem_append.mp hp with hp | hp
      · exact hc.past k p hp
      · obtain ⟨a, -, rfl⟩ := List.mem_map.mp hp
        exact hc.named a
  · intro k vault' hv' hp a ha
    have hv' : s'.vaultAt k = some vault' := hv'
    have ha : g.operator a ∈ g.giversOf k (c.pool.vaultAt k) (s'.vaultAt k) := ha
    rw [Operators.giversOf, if_neg (by simp [hv'])] at ha
    rcases List.mem_append.mp ha with ha | ha
    · cases hv : c.pool.vaultAt k with
      | none =>
          rw [hc.gone k hv] at ha
          cases ha
      | some vault =>
          have hpending := hbefore k vault' hv' hp vault hv
          have hmem := hc.given k vault hv hpending a ha
          rcases ((hchange k).accounts hsees hv').2 vault hv with rfl | ⟨-, hsub⟩
          · exact hmem
          · exact hsub hmem
    · obtain ⟨b, hb, heq⟩ := List.mem_map.mp ha
      obtain rfl := hc.distinct heq
      have hb := (Finset.mem_sdiff.mp (StorageMap.mem_ascending.mp hb)).1
      rw [hv'] at hb
      exact hb
  · intro k hnone
    have hnone : s'.vaultAt k = none := hnone
    show g.giversOf k (c.pool.vaultAt k) (s'.vaultAt k) = []
    rw [Operators.giversOf, if_pos hnone]

end Pool

/-! ## Replacements -/

/-- A pending vault has a key under the account. -/
def MultiSigAccount.HasOf (vault : MultiSigAccount AccountId) (authorityId : AccountId) : Prop :=
  vault.isPending = true ∧ authorityId ∈ vault.pubKeys.keys

instance (vault : MultiSigAccount AccountId) (authorityId : AccountId) :
    Decidable (vault.HasOf authorityId) := inferInstanceAs (Decidable (_ ∧ _))

/-- No pending vault of another round has a key under the account. -/
def Registration.OnlyHere (s : Registration AccountId) (authorityId : AccountId) : Prop :=
  (∀ r ∈ s.systemVault.keys, r = s.currentRound ∨
    ∀ vault ∈ s.systemVault.get r, ¬ vault.HasOf authorityId) ∧
  ∀ k ∈ s.registrationPool.keys, k.1 = s.currentRound ∨
    ∀ target ∈ s.registrationPool.get k, ¬ target.vault.HasOf authorityId

instance (s : Registration AccountId) (authorityId : AccountId) : Decidable (s.OnlyHere authorityId) :=
  inferInstanceAs (Decidable (_ ∧ _))

/-- The keys that an account has submitted in advance. -/
def Registration.inAdvance (s : Registration AccountId) (authorityId : AccountId) : Finset Bytes :=
  s.preSubmittedPubKeys.getD (s.currentRound, authorityId) ∅

/-- **A replacement that the pool can follow**: no pending vault of another round has a key under the
old account, the two accounts are not both members, and they have not both submitted keys in advance. -/
def Crew.Step.Followed (c : Crew AccountId) : Crew.Step AccountId → Prop
  | .replace old new => c.pool.OnlyHere old ∧ ¬ (old ∈ c.members ∧ new ∈ c.members) ∧
      (c.pool.inAdvance old = ∅ ∨ c.pool.inAdvance new ⊆ c.pool.inAdvance old)
  | .pool _ | .change _ => True

instance (c : Crew AccountId) (j : Crew.Step AccountId) : Decidable (j.Followed c) :=
  match j with
  | .replace old _ => inferInstanceAs (Decidable (c.pool.OnlyHere old ∧ _))
  | .pool _ | .change _ => .isTrue trivial

section Replacements

variable {host : Host AccountId} {s : Registration AccountId} {c c' : Crew AccountId}
  {g : Operators AccountId} {old new a : AccountId}

omit [LinearOrder AccountId] in
lemma Registration.OnlyHere.elsewhere (h : s.OnlyHere a) {k : ℕ × Option AccountId}
    {vault : MultiSigAccount AccountId} (hv : s.vaultAt k = some vault)
    (hp : vault.isPending = true) (hk : k.1 ≠ s.currentRound) : a ∉ vault.pubKeys.keys := by
  obtain ⟨r, id⟩ := k
  cases id with
  | none =>
      rcases h.1 r (StorageMap.mem_keys_iff.mpr ⟨vault, hv⟩) with hr | hnot
      · exact absurd hr hk
      · exact fun ha => hnot vault hv ⟨hp, ha⟩
  | some who =>
      obtain ⟨target, htarget, rfl⟩ := Option.map_eq_some_iff.mp hv
      rcases h.2 (r, who) (StorageMap.mem_keys_iff.mpr ⟨target, htarget⟩) with hr | hnot
      · exact absurd hr hk
      · exact fun ha => hnot target htarget ⟨hp, ha⟩

/-- The accounts of a vault after a replacement. -/
lemma MultiSigAccount.mem_replaceAuthority {vault : MultiSigAccount AccountId} :
    a ∈ (vault.replaceAuthority old new).pubKeys.keys ↔
      (a = new ∧ old ∈ vault.pubKeys.keys) ∨ (a ≠ old ∧ a ∈ vault.pubKeys.keys) := by
  simp only [StorageMap.mem_keys_iff, replaceAuthority]
  cases hold : vault.pubKeys.get old with
  | none =>
      by_cases ha : a = old
      · simp [ha, hold]
      · simp [ha]
  | some key =>
      simp only [StorageMap.get_insert, StorageMap.get_remove]
      by_cases hnew : a = new
      · simp [hnew]
      · by_cases ha : a = old
        · simp [ha, hold]
        · simp [hnew, ha]

/-- **An operator has one account**, also after it goes to another. -/
lemma OperatorInv.moved (hc : OperatorInv c g) : Function.Injective (g.moved old new) := by
  -- the name for the account that is left is a new one
  have hfresh : ∀ b, g.operator b ≠ (old, g.count + 1) := by
    intro b heq
    have hle := hc.named b
    rw [heq] at hle
    simp at hle
  intro b b' heq
  simp only [Operators.moved, Function.update_apply] at heq
  split_ifs at heq with h₁ h₂ h₃ h₄ h₅ h₆ h₇ h₈
  · rw [h₁, h₂]
  · exact absurd heq (hfresh old)
  · exact absurd (hc.distinct heq).symm h₃
  · exact absurd heq.symm (hfresh old)
  · rw [h₄, h₆]
  · exact absurd heq.symm (hfresh b')
  · exact absurd (hc.distinct heq) h₄
  · exact absurd heq (hfresh b)
  · exact hc.distinct heq

/-- The vaults after a replacement. -/
lemma Crew.replace_vaultAt (c : Crew AccountId) (old new : AccountId) (k : ℕ × Option AccountId) :
    (c.replace old new).pool.vaultAt k = (c.pool.vaultAt k).map fun vault =>
      if k.1 = c.pool.currentRound ∧ vault.isPending then vault.replaceAuthority old new
      else vault := by
  have hvaults : (c.replace old new).pool.vaultAt = (c.pool.replaceAuthority old new).vaultAt := by
    rw [Crew.replace]
    split_ifs
    · exact Registration.vaultAt_congr rfl rfl
    · rfl
  rw [hvaults, Registration.replaceAuthority_vaultAt]

/-- The members after a replacement. -/
lemma Crew.mem_replace (hseat : ¬ (old ∈ c.members ∧ new ∈ c.members)) {b : AccountId}
    (hb : b ∈ (c.replace old new).members) : b = new ∨ (b ≠ old ∧ b ∈ c.members) := by
  rw [Crew.replace] at hb
  split_ifs at hb with h
  · have hb : b ∈ insert new (c.members.erase old) := hb
    simpa using hb
  · refine .inr ⟨?_, hb⟩
    rintro rfl
    exact hseat ⟨hb, by_contra fun hnot => h ⟨hb, hnot⟩⟩

/-- **A replacement** that the pool can follow. -/
lemma OperatorInv.replace (hc : OperatorInv c g) (hf : (Crew.Step.replace old new).Followed c) :
    OperatorInv (c.replace old new) (g.note c (.replace old new) (c.replace old new)) := by
  obtain ⟨hhere, hseat, -⟩ := hf
  -- a pending vault of another round does not change, and has no key under the old account
  have hcases : ∀ k vault', (c.replace old new).pool.vaultAt k = some vault' →
      vault'.isPending = true → ∃ vault, c.pool.vaultAt k = some vault ∧ vault.isPending = true ∧
        (vault' = vault.replaceAuthority old new ∨ (vault' = vault ∧ old ∉ vault.pubKeys.keys)) := by
    intro k vault' hv' hp
    rw [Crew.replace_vaultAt] at hv'
    obtain ⟨vault, hv, rfl⟩ := Option.map_eq_some_iff.mp hv'
    split_ifs at hp ⊢ with h
    · exact ⟨vault, hv, h.2, .inl rfl⟩
    · refine ⟨vault, hv, hp, .inr ⟨rfl, hhere.elsewhere hv hp fun hk => h ⟨hk, hp⟩⟩⟩
  have hreplaced : ∀ b, b ≠ old → b ∉ g.replaced → b ∉ (insert old g.replaced).erase new := by
    intro b hne hb hmem
    rcases Finset.mem_insert.mp (Finset.mem_of_mem_erase hmem) with h | h
    · exact hne h
    · exact hb h
  refine ⟨?_, ?_, hc.moved, ?_, hc.once, ?_, ?_, ?_⟩
  · intro b hb
    rcases Crew.mem_replace hseat hb with rfl | ⟨hne, hb⟩
    · exact Finset.notMem_erase _ _
    · exact hreplaced b hne (hc.seats b hb)
  · intro k vault' hv' hp b hb
    obtain ⟨vault, hv, hpending, rfl | ⟨rfl, hold⟩⟩ := hcases k vault' hv' hp
    · rcases MultiSigAccount.mem_replaceAuthority.mp hb with ⟨rfl, -⟩ | ⟨hne, hb⟩
      · exact Finset.notMem_erase _ _
      · exact hreplaced b hne (hc.keys k vault hv hpending b hb)
    · have hne : b ≠ old := fun h => hold (h ▸ hb)
      exact hreplaced b hne (hc.keys k vault' hv hpending b hb)
  · intro b
    show (g.moved old new b).2 ≤ g.count + 1
    simp only [Operators.moved, Function.update_apply]
    split_ifs
    · exact (hc.named old).trans (Nat.le_succ _)
    · exact le_rfl
    · exact (hc.named b).trans (Nat.le_succ _)
  · intro k p hp
    exact (hc.past k p hp).trans (Nat.le_succ _)
  · intro k vault' hv' hp b hb
    have hb : g.moved old new b ∈ g.givers k := hb
    obtain ⟨vault, hv, hpending, hvault⟩ := hcases k vault' hv' hp
    have hgiven := hc.given k vault hv hpending
    simp only [Operators.moved, Function.update_apply] at hb
    split_ifs at hb with hnew hold
    · -- the operator has come to the new account, and its key with it
      have hmem := hgiven old hb
      rcases hvault with rfl | ⟨rfl, hnot⟩
      · exact MultiSigAccount.mem_replaceAuthority.mpr (.inl ⟨hnew, hmem⟩)
      · exact absurd hmem hnot
    · -- nobody has given a key under a name that is new
      have hle := hc.past k _ hb
      simp at hle
    · have hmem := hgiven b hb
      rcases hvault with rfl | ⟨rfl, -⟩
      · exact MultiSigAccount.mem_replaceAuthority.mpr (.inr ⟨hold, hmem⟩)
      · exact hmem
  · intro k hnone
    refine hc.gone k ?_
    rw [Crew.replace_vaultAt] at hnone
    exact Option.map_eq_none_iff.mp hnone

/-- A change of members keeps the invariant. -/
lemma OperatorInv.change (hc : OperatorInv c g) (new : Finset AccountId) :
    OperatorInv (c.change new) (g.note c (.change new) (c.change new)) := by
  have hvaults : (c.change new).pool.vaultAt = c.pool.vaultAt := Registration.vaultAt_congr rfl rfl
  refine ⟨?_, ?_, hc.distinct, hc.named, hc.once, hc.past, ?_, ?_⟩
  · intro b hb hmem
    exact (Finset.mem_sdiff.mp hmem).2 hb
  · intro k vault hv hp b hb hmem
    rw [hvaults] at hv
    exact hc.keys k vault hv hp b hb (Finset.mem_sdiff.mp hmem).1
  · rw [hvaults]
    exact hc.given
  · rw [hvaults]
    exact hc.gone

/-- **Every step** keeps the invariant, if the pool can follow it. -/
lemma OperatorInv.step {j : Crew.Step AccountId} (hc : OperatorInv c g) (hf : j.Followed c)
    (h : c.step host j = some c') : OperatorInv c' (g.note c j c') := by
  cases j with
  | pool i =>
      simp only [Crew.step] at h
      split_ifs at h with hsees
      obtain ⟨s', hs', rfl⟩ := Option.map_eq_some_iff.mp h
      exact hc.pool hsees hs'
  | change new =>
      obtain rfl := Option.some.inj h
      exact hc.change new
  | replace old new =>
      obtain rfl := Option.some.inj h
      exact hc.replace hf

/-- The keys submitted in advance after a replacement. -/
lemma Crew.replace_inAdvance (c : Crew AccountId) (old new : AccountId) :
    (c.replace old new).pool.inAdvance new =
      if c.pool.inAdvance old = ∅ then c.pool.inAdvance new else c.pool.inAdvance old := by
  have hpool : (c.replace old new).pool.inAdvance = (c.pool.replaceAuthority old new).inAdvance := by
    rw [Crew.replace]
    split_ifs <;> rfl
  have hkeys : (c.pool.replaceAuthority old new).preSubmittedPubKeys =
      if c.pool.inAdvance old = ∅ then
        c.pool.preSubmittedPubKeys.remove (c.pool.currentRound, old)
      else (c.pool.preSubmittedPubKeys.remove (c.pool.currentRound, old)).insert
        (c.pool.currentRound, new) (c.pool.inAdvance old) := rfl
  have hround : (c.pool.replaceAuthority old new).currentRound = c.pool.currentRound := rfl
  rw [hpool, Registration.inAdvance, hkeys, hround]
  split_ifs with hnone
  · rw [StorageMap.getD, StorageMap.get_remove]
    split_ifs with heq
    · obtain rfl := (Prod.mk.inj heq).2
      exact hnone.symm
    · rfl
  · rw [StorageMap.getD, StorageMap.get_insert_self]
    rfl

end Replacements

/-! ## Results -/

section Results

variable {host : Host AccountId} {c : Crew AccountId} {g : Operators AccountId}

/-- The states of runs all of whose steps meet a condition, with the record of the operators. -/
def OperatorsIf (host : Host AccountId) (cond : Crew AccountId → Crew.Step AccountId → Prop) :
    Crew AccountId × Operators AccountId → Prop :=
  Reachable (fun x => ∃ members, x = (.genesis host members, .genesis))
    (watched (Crew.step host) Operators.note) fun x => cond x.1

lemma OperatorsIf.operatorInv {x : Crew AccountId × Operators AccountId}
    (h : OperatorsIf host (fun c j => j.Followed c) x) : OperatorInv x.1 x.2 := by
  refine Reachable.invariant (P := fun x => OperatorInv x.1 x.2) ?_ ?_ h
  · rintro x ⟨members, rfl⟩
    have hnone : ∀ k, (Crew.genesis host members).pool.vaultAt k = none := by
      rintro ⟨r, id⟩
      cases id <;> simp [Crew.genesis, Registration.genesis, Registration.vaultAt]
    refine ⟨fun a _ => Finset.notMem_empty a, fun k vault hv => ?_, fun a b hab => ?_, fun a => le_rfl,
      fun k => List.nodup_nil, fun k p hp => absurd hp List.not_mem_nil, fun k vault hv => ?_,
      fun k _ => rfl⟩
    · simp [hnone] at hv
    · exact (Prod.mk.inj hab).1
    · simp [hnone] at hv
  · intro x j x' hc hf hstep
    obtain ⟨hstep, hnote⟩ := watched_eq_some hstep
    rw [hnote]
    exact hc.step hf hstep

/-- **Operators are followed** through every run all of whose replacements the pool can follow: pending
vaults have no keys under accounts that were replaced, no operator has given two keys to one vault, and
a replacement loses no key that was submitted in advance. -/
theorem operators_followed (h : OperatorsIf host (fun c j => j.Followed c) (c, g)) :
    (∀ k vault a key, c.pool.vaultAt k = some vault → vault.isPending = true →
      vault.pubKeys.get a = some key → a ∉ g.replaced) ∧
    (∀ k, (g.givers k).Nodup) ∧
    ∀ old new, (Crew.Step.replace old new).Followed c →
      c.pool.inAdvance old ∪ c.pool.inAdvance new ⊆ (c.replace old new).pool.inAdvance new := by
  have hinv := h.operatorInv
  refine ⟨fun k vault a key hv hp hkey => ?_, hinv.once, fun old new hf => ?_⟩
  · exact hinv.keys k vault hv hp a (StorageMap.mem_keys_iff.mpr ⟨key, hkey⟩)
  · rw [Crew.replace_inAdvance]
    rcases hf.2.2 with hnone | hsub
    · simp [hnone]
    · split_ifs with hnone
      · simp [hnone]
      · exact Finset.union_subset subset_rfl hsub

end Results

/-! ## Small runs

The members are 1 and 2, and account 1 is replaced by account 3. -/

/-- What the members 2 and 3 see. -/
def successorOutlook : Outlook ℕ := ⟨[2, 3], true, fun _ => true, 1⟩

lemma operatorsRun_exists (cond : Crew ℕ → Crew.Step ℕ → Prop) [∀ c j, Decidable (cond c j)]
    (steps : List (Crew.Step ℕ)) {P : Crew ℕ × Operators ℕ → Bool}
    (h : (runSteps (checked (watched (Crew.step regtest) Operators.note) fun x => cond x.1)
      (.genesis regtest {1, 2}, .genesis) steps).any P = true) :
    ∃ x, OperatorsIf regtest cond x ∧ P x = true := by
  obtain ⟨x, hx, hP⟩ := (Option.any_eq_true _ _).mp h
  exact ⟨x, Reachable.runChecked (.init ⟨_, rfl⟩) hx, hP⟩

/-- User 7 waits for its vault, which has a key of executive 1, now under account 3. -/
theorem operators_followed_regtest : ∃ x : Crew ℕ × Operators ℕ,
    OperatorsIf regtest (fun c j => j.Followed c) x ∧
    (∃ vault, x.1.pool.vaultAt (1, some 7) = some vault ∧ vault.isPending = true ∧
      vault.pubKeys.get 3 = some [10] ∧ 3 ∉ x.2.replaced) ∧ x.2.givers (1, some 7) = [(1, 0)] := by
  have hrun := operatorsRun_exists (fun c j => j.Followed c)
    [.pool (.requestVault regtestOutlook (.signed 7) [5]),
      .pool (.submitVaultKey regtestOutlook ⟨1, 7, [10], 1⟩), .replace 1 3]
    (P := fun x => ((x.1.pool.vaultAt (1, some 7)).any fun vault =>
      decide (vault.isPending = true ∧ vault.pubKeys.get 3 = some [10])) &&
      decide (x.2.givers (1, some 7) = [(1, 0)])) (by decide +kernel)
  obtain ⟨x, hx, hP⟩ := hrun
  simp only [Bool.and_eq_true, Option.any_eq_true, decide_eq_true_eq] at hP
  obtain ⟨⟨vault, hv, hp, hkey⟩, hgivers⟩ := hP
  have hfollowed := (operators_followed hx).1 (1, some 7) vault 3 [10] hv hp hkey
  exact ⟨x, hx, ⟨vault, hv, hp, hkey, hfollowed⟩, hgivers⟩

/-- **An operator gives two keys.**  During a migration executive 1 gives a key to the next vault, and
another one after it is replaced by account 3.  The vault is complete with the keys of one operator. -/
theorem operator_gives_two : ∃ x : Crew ℕ × Operators ℕ, OperatorsIf regtest anyStep x ∧
    x.2.givers (2, none) = [(1, 0), (1, 0)] ∧ ¬ (x.2.givers (2, none)).Nodup ∧
    ∃ vault, x.1.pool.vaultAt (2, none) = some vault ∧ vault.isPending = false ∧
      vault.pubKeys.get 1 = some [10] ∧ vault.pubKeys.get 3 = some [20] := by
  have hrun := operatorsRun_exists anyStep
    [.pool (.migrationControl regtestOutlook .root), .pool (.migrationControl regtestOutlook .root),
      .pool (.submitSystemVaultKey regtestOutlook ⟨1, 256, [10], 2⟩), .replace 1 3,
      .pool (.submitSystemVaultKey successorOutlook ⟨3, 256, [20], 2⟩)]
    (P := fun x => ((x.1.pool.vaultAt (2, none)).any fun vault =>
      decide (vault.isPending = false ∧ vault.pubKeys.get 1 = some [10] ∧
        vault.pubKeys.get 3 = some [20])) &&
      decide (x.2.givers (2, none) = [(1, 0), (1, 0)])) (by decide +kernel)
  obtain ⟨x, hx, hP⟩ := hrun
  simp only [Bool.and_eq_true, Option.any_eq_true, decide_eq_true_eq] at hP
  obtain ⟨⟨vault, hv, hp, hkeys⟩, hgivers⟩ := hP
  refine ⟨x, hx, hgivers, ?_, vault, hv, hp, hkeys⟩
  rw [hgivers]
  decide

end BifrostNode.Btc.Pool
