import BifrostNode.Btc.Records

/-!
# Public keys of vaults

**One vault for a key.**  A key that a vault holds is bonded to the owner of the vault, and no key gets
into a vault while it is bonded.  So no two vaults of a round have a key in common, and then none have
the same address.

**Keys in advance.**  `request_vault` takes a key of every executive that has submitted some in advance,
but bonds them only if there is one of each.  The keys of an incomplete vault are held unbonded, and
another vault can get them too (`keys_shared`).
-/

namespace BifrostNode.Btc.Pool

open Cccp Staking Transition

variable {AccountId : Type} [LinearOrder AccountId]

/-! ## Keys that vaults hold -/

/-- A vault holds a key. -/
def Registration.Holds (s : Registration AccountId) (k : ℕ × Option AccountId) (key : Bytes) : Prop :=
  ∃ vault authorityId, s.vaultAt k = some vault ∧ vault.pubKeys.get authorityId = some key

/-- **The invariant** of the keys. -/
structure KeyInv (host : Host AccountId) (s : Registration AccountId) : Prop where
  bonded : ∀ k key, s.Holds k key → s.bondedPubKey.get (k.1, key) = some (ownerOf host k.2)
  apart : ∀ k k' key, k.1 = k'.1 → s.Holds k key → s.Holds k' key → k = k'

section Invariant

variable {host : Host AccountId} {s s' : Registration AccountId}

lemma MultiSigAccount.mem_rawPubKeys {vault : MultiSigAccount AccountId} {key : Bytes} :
    key ∈ vault.rawPubKeys ↔ ∃ authorityId, vault.pubKeys.get authorityId = some key := by
  simp only [rawPubKeys, List.mem_map, Prod.exists, StorageMap.mem_toList, exists_eq_right]

omit [LinearOrder AccountId] in
/-- Vaults hold no more keys than before. -/
lemma KeyInv.shrink (hs : KeyInv host s) (h : ∀ k key, s'.Holds k key → s.Holds k key)
    (hb : ∀ k key, s'.Holds k key →
      s'.bondedPubKey.get (k.1, key) = s.bondedPubKey.get (k.1, key)) : KeyInv host s' where
  bonded k key hk := (hb k key hk).trans (hs.bonded k key (h k key hk))
  apart k k' key hr hk hk' := hs.apart k k' key hr (h k key hk) (h k' key hk')

omit [LinearOrder AccountId] in
/-- One vault holds more keys, which were not bonded before and are now. -/
lemma KeyInv.extend (hs : KeyInv host s) (k₀ : ℕ × Option AccountId) (new : Bytes → Prop)
    (hfree : ∀ key, new key → s.bondedPubKey.get (k₀.1, key) = none)
    (h : ∀ k key, s'.Holds k key → s.Holds k key ∨ (k = k₀ ∧ new key))
    (hnew : ∀ key, new key → s'.bondedPubKey.get (k₀.1, key) = some (ownerOf host k₀.2))
    (hold : ∀ r key, ¬ (r = k₀.1 ∧ new key) →
      s'.bondedPubKey.get (r, key) = s.bondedPubKey.get (r, key)) : KeyInv host s' := by
  -- a vault that held a key before holds no new one
  have hnot : ∀ k key, s.Holds k key → k.1 = k₀.1 → ¬ new key := by
    intro k key hk hr hn
    have hbond := hs.bonded k key hk
    rw [hr, hfree key hn] at hbond
    cases hbond
  refine ⟨?_, ?_⟩
  · intro k key hk
    rcases h k key hk with hk | ⟨rfl, hn⟩
    · rw [hold k.1 key fun hc => hnot k key hk hc.1 hc.2]
      exact hs.bonded k key hk
    · exact hnew key hn
  · intro k k' key hr hk hk'
    rcases h k key hk with hk | ⟨rfl, hn⟩ <;> rcases h k' key hk' with hk' | ⟨rfl, hn'⟩
    · exact hs.apart k k' key hr hk hk'
    · exact absurd hn' (hnot k key hk hr)
    · exact absurd hn (hnot k' key hk' hr.symm)
    · rfl

omit [LinearOrder AccountId] in
lemma Registration.Holds.congr (h : s'.vaultAt = s.vaultAt) {k : ℕ × Option AccountId} {key : Bytes}
    (hk : s'.Holds k key) : s.Holds k key := by
  rw [Holds, h] at hk
  exact hk

/-- One vault is written. -/
lemma Registration.Holds.of_update {k₀ : ℕ × Option AccountId} {vault : MultiSigAccount AccountId}
    (h : s'.vaultAt = Function.update s.vaultAt k₀ (some vault)) {k : ℕ × Option AccountId}
    {key : Bytes} (hk : s'.Holds k key) :
    s.Holds k key ∨ (k = k₀ ∧ ∃ authorityId, vault.pubKeys.get authorityId = some key) := by
  obtain ⟨v, authorityId, hv, hget⟩ := hk
  rw [h] at hv
  by_cases heq : k = k₀
  · subst heq
    rw [Function.update_self, Option.some.injEq] at hv
    exact .inr ⟨rfl, authorityId, hv ▸ hget⟩
  · rw [Function.update_of_ne heq] at hv
    exact .inl ⟨v, authorityId, hv, hget⟩

end Invariant

/-! ## Keys taken in advance -/

/-- The key that an executive offers: the first that it submitted in advance, unless it is in use. -/
def Registration.offer (s : Registration AccountId) (round : ℕ) (executive : AccountId) :
    Option Bytes :=
  ((StorageMap.ascending (s.preSubmittedPubKeys.getD (round, executive) ∅)).head?).filter
    fun key => !s.bondedPubKey.contains (round, key)

section Taken

variable {host : Host AccountId} {o : Outlook AccountId} {s s' : Registration AccountId}

/-- The first of several executives. -/
lemma Registration.takePreSubmitted_cons {round : ℕ} {v vault : MultiSigAccount AccountId}
    {e : AccountId} {es : List AccountId}
    (h : s.takePreSubmitted round v (e :: es) = .ok (vault, s')) :
    ∃ v' keys, ({ s with preSubmittedPubKeys := s.preSubmittedPubKeys.insert (round, e) keys } :
        Registration AccountId).takePreSubmitted round v' es = .ok (vault, s') ∧
      ((s.offer round e = none ∧ v' = v) ∨ ∃ key, s.offer round e = some key ∧
        v' = { v with pubKeys := v.pubKeys.insert e key }) := by
  simp only [takePreSubmitted, List.foldlM_cons, bind_eq_ok, Prod.exists] at h
  obtain ⟨v', t, hstep, h⟩ := h
  simp only [offer]
  cases hhead : (StorageMap.ascending (s.preSubmittedPubKeys.getD (round, e) ∅)).head? with
  | none =>
      rw [hhead] at hstep
      simp only [pure_eq_ok, Prod.mk.injEq] at hstep
      obtain ⟨rfl, rfl⟩ := hstep
      exact ⟨v, _, h, .inl ⟨rfl, rfl⟩⟩
  | some key =>
      rw [hhead] at hstep
      simp only at hstep
      split_ifs at hstep with hbonded
      · simp only [pure_eq_ok, Prod.mk.injEq] at hstep
        obtain ⟨rfl, rfl⟩ := hstep
        exact ⟨v, _, h, .inl ⟨by simp [Option.filter, hbonded], rfl⟩⟩
      · simp only [bind_eq_ok, okOr_eq_ok, pure_eq_ok, Prod.mk.injEq] at hstep
        obtain ⟨pubKeys, hinsert, rfl, rfl⟩ := hstep
        simp only [StorageMap.tryInsert] at hinsert
        split_ifs at hinsert
        obtain rfl := Option.some.inj hinsert
        exact ⟨_, _, h, .inr ⟨key, by simp [Option.filter, hbonded], rfl⟩⟩

/-- A vault gets the key that every executive offers. -/
lemma Registration.takePreSubmitted_spec {round : ℕ} {executives : List AccountId}
    (hnodup : executives.Nodup) {v vault : MultiSigAccount AccountId}
    (h : s.takePreSubmitted round v executives = .ok (vault, s'))
    (hfree : ∀ e ∈ executives, v.pubKeys.get e = none) :
    vault.n = v.n ∧
      ∀ e, vault.pubKeys.get e = if e ∈ executives then s.offer round e else v.pubKeys.get e := by
  induction executives generalizing s v with
  | nil =>
      simp only [takePreSubmitted, List.foldlM_nil, pure_eq_ok, Prod.mk.injEq] at h
      obtain ⟨rfl, -⟩ := h
      exact ⟨rfl, fun e => by simp⟩
  | cons e es ih =>
      obtain ⟨hnot, hnodup⟩ := List.nodup_cons.mp hnodup
      obtain ⟨v', keys, htake, hv'⟩ := takePreSubmitted_cons h
      -- what the others offer does not depend on what was taken of the first
      have hoffer : ∀ e' ∈ es, ({ s with
          preSubmittedPubKeys := s.preSubmittedPubKeys.insert (round, e) keys } :
            Registration AccountId).offer round e' = s.offer round e' := by
        intro e' he'
        have hne : (round, e') ≠ (round, e) := by
          rintro ⟨⟩
          exact hnot he'
        simp only [offer, StorageMap.getD, StorageMap.get_insert_of_ne _ hne]
      have hget : ∀ e' ≠ e, v'.pubKeys.get e' = v.pubKeys.get e' := by
        intro e' hne
        rcases hv' with ⟨-, rfl⟩ | ⟨key, -, rfl⟩
        · rfl
        · exact StorageMap.get_insert_of_ne _ hne _
      have hself : v'.pubKeys.get e = s.offer round e := by
        rcases hv' with ⟨hnone, rfl⟩ | ⟨key, hkey, rfl⟩
        · rw [hnone]
          exact hfree e List.mem_cons_self
        · rw [hkey]
          exact StorageMap.get_insert_self _ _ _
      have hn : v'.n = v.n := by
        rcases hv' with ⟨-, rfl⟩ | ⟨key, -, rfl⟩ <;> rfl
      obtain ⟨hn', hall⟩ := ih hnodup htake fun e' he' => by
        have hne : e' ≠ e := fun heq => hnot (heq ▸ he')
        rw [hget e' hne]
        exact hfree e' (List.mem_cons_of_mem _ he')
      refine ⟨hn'.trans hn, fun e' => ?_⟩
      rw [hall e']
      by_cases hmem : e' ∈ es
      · rw [if_pos hmem, if_pos (List.mem_cons_of_mem _ hmem), hoffer e' hmem]
      · by_cases heq : e' = e
        · subst heq
          rw [if_neg hmem, if_pos List.mem_cons_self, hself]
        · rw [if_neg hmem, if_neg (by simp [heq, hmem]), hget e' heq]

/-- **All or none.**  Of the executives, either all offer a key or none does. -/
def Registration.AllOrNone (s : Registration AccountId) (executives : List AccountId) : Prop :=
  executives.Nodup ∧ ((∀ e ∈ executives, s.offer s.currentRound e = none) ∨
    ∀ e ∈ executives, s.offer s.currentRound e ≠ none)

instance (s : Registration AccountId) (executives : List AccountId) :
    Decidable (s.AllOrNone executives) := inferInstanceAs (Decidable (_ ∧ _))

/-- Then a new vault has no key or all of them. -/
lemma Registration.AllOrNone.taken (ha : s.AllOrNone o.executives)
    {vault : MultiSigAccount AccountId}
    (h : s.takePreSubmitted s.currentRound (.new (s.getM o) (getN o)) o.executives =
      .ok (vault, s')) :
    (∀ e, vault.pubKeys.get e = none) ∨ vault.isKeyGenerationReady = true := by
  obtain ⟨hnodup, hoffers⟩ := ha
  obtain ⟨hn, hget⟩ := takePreSubmitted_spec hnodup h fun _ _ => rfl
  rcases hoffers with hnone | hall
  · refine .inl fun e => ?_
    rw [hget e]
    split_ifs with he
    · exact hnone e he
    · rfl
  · refine .inr ?_
    have hkeys : vault.pubKeys.keys = o.executives.toFinset := by
      ext e
      rw [StorageMap.mem_keys_iff, ← Option.isSome_iff_exists, Option.isSome_iff_ne_none, hget e,
        List.mem_toFinset]
      by_cases he : e ∈ o.executives
      · simp [he, hall e he]
      · simp [he, MultiSigAccount.new]
    rw [MultiSigAccount.isKeyGenerationReady, hkeys, hn, List.toFinset_card_of_nodup hnodup]
    simp [MultiSigAccount.new, getN]

/-- What was taken is not bonded. -/
lemma Registration.takePreSubmitted_free {round m n : ℕ} {executives : List AccountId}
    {vault : MultiSigAccount AccountId} (hnodup : executives.Nodup)
    (h : s.takePreSubmitted round (.new m n) executives = .ok (vault, s')) {e : AccountId}
    {key : Bytes} (hkey : vault.pubKeys.get e = some key) :
    s.bondedPubKey.get (round, key) = none := by
  obtain ⟨-, hget⟩ := takePreSubmitted_spec hnodup h fun _ _ => rfl
  rw [hget e] at hkey
  split_ifs at hkey with he
  · obtain ⟨-, hfree⟩ := Option.filter_eq_some_iff.mp hkey
    exact StorageMap.not_contains.mp hfree
  · simp [MultiSigAccount.new] at hkey

end Taken

/-! ## Steps -/

/-- A request for a vault succeeds only while all executives offer a key or none does. -/
def Step.Whole (host : Host AccountId) (s : Registration AccountId) : Step AccountId → Prop
  | .requestVault o origin refundAddress =>
      IfOk (s.requestVault host o origin refundAddress) (s.AllOrNone o.executives)
  | _ => True

instance (host : Host AccountId) (s : Registration AccountId) (i : Step AccountId) :
    Decidable (i.Whole host s) :=
  match i with
  | .requestVault _ _ _ => inferInstanceAs (Decidable (IfOk _ _))
  | .submitVaultKey _ _ | .submitSystemVaultKey _ _ | .requestSetRefund _ _
  | .requestSystemVault _ _ _ | .vaultKeyPresubmission _ _ | .clearVault _ _ | .migrationControl _ _
  | .dropPreviousRound _ _ | .setMaxPresubmission _ _ | .setMultiSigRatio _ _ | .approveSetRefunds _ _
  | .addMigrationTx _ | .removeMigrationTx _ | .executeMigrationTx _ | .replaceAuthority _ _
  | .processSetRefunds | .changeMembersSorted _ => .isTrue trivial

section Steps

variable {host : Host AccountId} {o : Outlook AccountId} {s t s' : Registration AccountId}
  {i : Step AccountId}

omit [LinearOrder AccountId] in
lemma KeyInv.same (hs : KeyInv host s) (hv : s'.vaultAt = s.vaultAt)
    (hb : s'.bondedPubKey = s.bondedPubKey) : KeyInv host s' :=
  hs.shrink (fun _ _ => .congr hv) fun k key _ => by rw [hb]

/-- A vault without keys comes in. -/
lemma KeyInv.empty (hs : KeyInv host s) {k₀ : ℕ × Option AccountId}
    {vault : MultiSigAccount AccountId} (hempty : ∀ e, vault.pubKeys.get e = none)
    (hv : s'.vaultAt = Function.update s.vaultAt k₀ (some vault))
    (hb : s'.bondedPubKey = s.bondedPubKey) : KeyInv host s' := by
  refine hs.shrink (fun k key hk => ?_) fun k key _ => by rw [hb]
  rcases hk.of_update hv with hk | ⟨-, e, he⟩
  · exact hk
  · simp [hempty e] at he

/-- A key comes to a vault. -/
lemma KeyInv.key (hs : KeyInv host s) {k₀ : ℕ × Option AccountId}
    {vault vault' : MultiSigAccount AccountId} {authorityId : AccountId} {pubKey refund : Bytes}
    {who : AccountId} (hvault : s.vaultAt k₀ = some vault)
    (hkey : KeyAdded host o s vault authorityId pubKey refund who k₀.1 vault' t)
    (hv : s'.vaultAt = Function.update s.vaultAt k₀ (some vault'))
    (hb : s'.bondedPubKey = s.bondedPubKey.insert (k₀.1, pubKey) (ownerOf host k₀.2)) :
    KeyInv host s' := by
  have hkeys : vault'.pubKeys = vault.pubKeys.insert authorityId pubKey := by
    rcases hkey.outcome with ⟨-, rfl, -⟩ | ⟨a, d, hbonds⟩
    · rfl
    · rw [hbonds.vault_eq]
  refine hs.extend k₀ (· = pubKey) (fun key hkey' => hkey' ▸ hkey.free) (fun k key hk => ?_)
    (fun key hkey' => ?_) fun r key hnot => ?_
  · rcases hk.of_update hv with hk | ⟨rfl, e, he⟩
    · exact .inl hk
    · rw [hkeys, StorageMap.get_insert] at he
      split_ifs at he with heq
      · exact .inr ⟨rfl, (Option.some.inj he).symm⟩
      · exact .inl ⟨vault, e, hvault, he⟩
  · rw [hkey', hb, StorageMap.get_insert_self]
  · rw [hb, StorageMap.get_insert_of_ne]
    simpa using hnot

/-- A vault is removed, and its keys are no longer bonded. -/
lemma KeyInv.removed (hs : KeyInv host s) {k₀ : ℕ × Option AccountId}
    {vault : MultiSigAccount AccountId} (hvault : s.vaultAt k₀ = some vault)
    (hv : ∀ k, s'.vaultAt k = if k = k₀ then none else s.vaultAt k)
    (hb : s'.bondedPubKey = (vault.rawPubKeys.map (k₀.1, ·)).foldl StorageMap.remove
      s.bondedPubKey) : KeyInv host s' := by
  have hold : ∀ k key, s'.Holds k key → k ≠ k₀ ∧ s.Holds k key := by
    rintro k key ⟨v, e, hget, he⟩
    rw [hv k] at hget
    split_ifs at hget with heq
    exact ⟨heq, v, e, hget, he⟩
  refine hs.shrink (fun k key hk => (hold k key hk).2) fun k key hk => ?_
  obtain ⟨hne, hk⟩ := hold k key hk
  rw [hb, StorageMap.get_foldl_remove, if_neg]
  intro hmem
  obtain ⟨key', hkey', heq⟩ := List.mem_map.mp hmem
  obtain ⟨hr, rfl⟩ := Prod.mk.inj heq
  obtain ⟨e, he⟩ := MultiSigAccount.mem_rawPubKeys.mp hkey'
  exact hne (hs.apart k k₀ key' hr.symm hk ⟨vault, e, hvault, he⟩)

omit [LinearOrder AccountId] in
/-- A renamed vault has no other keys. -/
lemma MultiSigAccount.replaceAuthority_keys [DecidableEq AccountId]
    {vault : MultiSigAccount AccountId} {old new e : AccountId} {key : Bytes}
    (h : (vault.replaceAuthority old new).pubKeys.get e = some key) :
    ∃ e', vault.pubKeys.get e' = some key := by
  rw [replaceAuthority] at h
  cases hold : vault.pubKeys.get old with
  | none =>
      rw [hold] at h
      exact ⟨e, h⟩
  | some key' =>
      simp only [hold, StorageMap.get_insert, StorageMap.get_remove] at h
      split_ifs at h with hnew hgone
      · exact ⟨old, hold.trans h⟩
      · exact ⟨e, h⟩

/-- A vault comes in for a user, with keys that are bonded to it. -/
lemma KeyInv.filled (hs : KeyInv host s) {who : AccountId} {vault : MultiSigAccount AccountId}
    (hfree : ∀ e key, vault.pubKeys.get e = some key →
      s.bondedPubKey.get (s.currentRound, key) = none)
    (hv : s'.vaultAt = Function.update s.vaultAt (s.currentRound, some who) (some vault))
    (hb : s'.bondedPubKey = vault.rawPubKeys.foldl (fun m k => m.insert (s.currentRound, k) who)
      s.bondedPubKey) : KeyInv host s' := by
  have hget : ∀ r key, s'.bondedPubKey.get (r, key) =
      if r = s.currentRound ∧ key ∈ vault.rawPubKeys then some who
      else s.bondedPubKey.get (r, key) := by
    intro r key
    rw [hb, StorageMap.get_foldl_insert fun k => (s.currentRound, k)]
    simp only [List.mem_map, Prod.mk.injEq]
    refine if_congr ⟨?_, ?_⟩ rfl rfl
    · rintro ⟨k, hk, rfl, rfl⟩
      exact ⟨rfl, hk⟩
    · rintro ⟨rfl, hk⟩
      exact ⟨key, hk, rfl, rfl⟩
  refine hs.extend (s.currentRound, some who) (· ∈ vault.rawPubKeys) (fun key hkey => ?_)
    (fun k key hk => ?_) (fun key hkey => ?_) fun r key hnot => ?_
  · obtain ⟨e, he⟩ := MultiSigAccount.mem_rawPubKeys.mp hkey
    exact hfree e key he
  · rcases hk.of_update hv with hk | ⟨rfl, hmem⟩
    · exact .inl hk
    · exact .inr ⟨rfl, MultiSigAccount.mem_rawPubKeys.mpr hmem⟩
  · rw [hget, if_pos ⟨rfl, hkey⟩]
    rfl
  · rw [hget, if_neg hnot]

/-- The record of a user is removed with its keys. -/
lemma KeyInv.cleared (hs : KeyInv host s) {who : AccountId} {target : BitcoinRelayTarget AccountId}
    (htarget : s.registrationPool.get (s.currentRound, who) = some target)
    (hv : s'.systemVault = s.systemVault)
    (hp : s'.registrationPool = s.registrationPool.remove (s.currentRound, who))
    (hb : s'.bondedPubKey = (target.vault.rawPubKeys.map (s.currentRound, ·)).foldl
      StorageMap.remove s.bondedPubKey) : KeyInv host s' := by
  have hvault : s.vaultAt (s.currentRound, some who) = some target.vault := by
    simp [Registration.vaultAt, htarget]
  refine hs.removed hvault (fun k => ?_) hb
  obtain ⟨r, id⟩ := k
  cases id with
  | none => simp [Registration.vaultAt, hv]
  | some who' =>
      simp only [Registration.vaultAt, hp, StorageMap.get_remove, Prod.mk.injEq, Option.some.injEq]
      split_ifs <;> rfl

/-- A system vault is removed with its keys. -/
lemma KeyInv.systemCleared (hs : KeyInv host s) {vault : MultiSigAccount AccountId}
    (hvault : s.systemVault.get s.currentRound = some vault)
    (hv : s'.systemVault = s.systemVault.remove s.currentRound)
    (hp : s'.registrationPool = s.registrationPool)
    (hb : s'.bondedPubKey = (vault.rawPubKeys.map (s.currentRound, ·)).foldl StorageMap.remove
      s.bondedPubKey) : KeyInv host s' := by
  have hat : s.vaultAt (s.currentRound, none) = some vault := hvault
  refine hs.removed hat (fun k => ?_) hb
  obtain ⟨r, id⟩ := k
  cases id with
  | none => simp [Registration.vaultAt, hv, StorageMap.get_remove]
  | some who' => simp [Registration.vaultAt, hp]

omit [LinearOrder AccountId] in
/-- A round is dropped with the bonds of its keys. -/
lemma KeyInv.dropped (hs : KeyInv host s) {round : ℕ}
    (hv : s'.systemVault = s.systemVault.remove round)
    (hp : s'.registrationPool = s.registrationPool.filterKeys fun k => k.1 ≠ round)
    (hb : s'.bondedPubKey = s.bondedPubKey.filterKeys fun k => k.1 ≠ round) : KeyInv host s' := by
  have hold : ∀ k key, s'.Holds k key → k.1 ≠ round ∧ s.Holds k key := by
    rintro ⟨r, id⟩ key ⟨v, e, hget, he⟩
    cases id with
    | none =>
        simp only [Registration.vaultAt, hv, StorageMap.get_remove] at hget
        split_ifs at hget with hr
        exact ⟨hr, v, e, hget, he⟩
    | some who =>
        simp only [Registration.vaultAt, hp, StorageMap.get_filterKeys, decide_eq_true_eq] at hget
        split_ifs at hget with hr
        · exact ⟨hr, v, e, hget, he⟩
        · cases hget
  refine hs.shrink (fun k key hk => (hold k key hk).2) fun k key hk => ?_
  have hr := (hold k key hk).1
  rw [hb]
  simp [hr]

/-- The bonds follow when an authority is replaced. -/
lemma KeyInv.renamed (hs : KeyInv host s) (old new : AccountId) :
    KeyInv host (s.replaceAuthority old new) := by
  refine hs.shrink (fun k key hk => ?_) fun k key _ => rfl
  obtain ⟨v, e, hget, he⟩ := hk
  rw [Registration.replaceAuthority_vaultAt] at hget
  obtain ⟨vault, hvault, rfl⟩ := Option.map_eq_some_iff.mp hget
  split_ifs at he
  · obtain ⟨e', he'⟩ := MultiSigAccount.replaceAuthority_keys he
    exact ⟨vault, e', hvault, he'⟩
  · exact ⟨vault, e, hvault, he⟩

/-- Every step, if a vault is requested only while all executives offer a key or none does. -/
lemma KeyInv.move (hs : KeyInv host s)
    (hall : ∀ o origin raw, i = .requestVault o origin raw → s.AllOrNone o.executives)
    (hm : PoolMove host s i s') : KeyInv host s' := by
  cases hm with
  | tuned h => exact hs.same (by rw [h]; rfl) (by rw [h])
  | members new hi h =>
      subst h
      exact hs.same (Registration.vaultAt_congr rfl rfl) rfl
  | refunds h =>
      obtain ⟨hv, hb, -⟩ := h.frame
      exact hs.same hv hb
  | opened o who raw address keys vault vault' hi hnormal hfree hnone htake hvault h =>
      subst h
      have hempty : ∀ e, vault'.pubKeys.get e = none := by
        rcases hvault with ⟨hnot, rfl⟩ | ⟨-, rfl⟩
        · rcases (hall o _ raw hi).taken htake with hempty | hready
          · exact hempty
          · simp [hnot] at hready
        · exact fun e => rfl
      exact hs.empty hempty (Registration.withTarget_vaultAt _ who address vault') rfl
  | bonded o who raw address keys vault vault' a d t hi hnormal hfree hnone htake hbonds h =>
      have hkeys : ∀ e key, vault'.pubKeys.get e = some key →
          s.bondedPubKey.get (s.currentRound, key) = none := by
        intro e key he
        rw [hbonds.vault_eq] at he
        exact Registration.takePreSubmitted_free (hall o _ raw hi).1 htake he
      rw [hbonds.state_eq] at h
      subst h
      exact hs.filled hkeys (Registration.withTarget_vaultAt _ who address vault') rfl
  | keyed o sub target vault' t hi hexec hnormal htarget hkey h =>
      have hvault : s.vaultAt (s.currentRound, some sub.who) = some target.vault := by
        simp [Registration.vaultAt, htarget]
      have hsystem : s'.systemVault = s.systemVault := by rw [h, hkey.frame]
      have hpool : s'.registrationPool = s.registrationPool.insert (s.currentRound, sub.who)
          { target with vault := vault' } := by rw [h]
      exact hs.key hvault hkey (Registration.vaultAt_user hsystem hpool) (by rw [h]; rfl)
  | systemKeyed o sub r vault vault' t hi hexec hr hvault hkey h =>
      have hat : s.vaultAt (r, none) = some vault := hvault
      have hsystem : s'.systemVault = s.systemVault.insert r vault' := by rw [h]
      have hpool : s'.registrationPool = s.registrationPool := by rw [h, hkey.frame]
      exact hs.key hat hkey (Registration.vaultAt_system hsystem hpool) (by rw [h]; rfl)
  | requested o prepare hi hstate hnone h =>
      subst h
      exact hs.empty (fun _ => rfl) (Registration.vaultAt_system rfl rfl) rfl
  | presubmitted o sub hi hexec hnormal h =>
      subst h
      exact hs.same (Registration.vaultAt_congr rfl rfl) rfl
  | cleared raw a who target hi ha hnormal hbond hwho htarget h =>
      exact hs.cleared htarget (by rw [h]) (by rw [h]) (by rw [h])
  | systemCleared raw a vault hi hnormal hbond hvault h =>
      exact hs.systemCleared hvault (by rw [h]) (by rw [h]) (by rw [h])
  | started o hi hstate hready h =>
      subst h
      exact hs.same (Registration.vaultAt_congr rfl rfl) rfl
  | prepared o hi hstate hnone h =>
      subst h
      exact hs.empty (fun _ => rfl) (Registration.vaultAt_system rfl rfl) rfl
  | ended o hi hstate h =>
      subst h
      exact hs.same (Registration.vaultAt_congr rfl rfl) rfl
  | dropped round hi hlt hnormal h =>
      exact hs.dropped (by rw [h]) (by rw [h]) (by rw [h])
  | renamed old new hi h =>
      subst h
      exact hs.renamed old new

/-- A step that is whole changes nothing, or requests a vault while all executives offer a key or none
does. -/
lemma Step.Whole.same_or (hw : i.Whole host s) (h : s.step host i = some s') :
    s' = s ∨ ∀ o origin raw, i = .requestVault o origin raw → s.AllOrNone o.executives := by
  cases i with
  | requestVault o origin raw =>
      obtain rfl := Option.some.inj h
      refine (IfOk.same_or hw).imp id fun hall => ?_
      rintro _ _ _ ⟨⟩
      exact hall
  | _ => exact .inr fun _ _ _ hi => by cases hi

/-- The bonds of keys are right in every run whose steps are whole. -/
lemma PoolIf.keyInv (h : PoolIf host (fun s i => i.Whole host s) s) : KeyInv host s := by
  refine Reachable.invariant (P := KeyInv host) ?_ ?_ h
  · rintro s ⟨members, rfl⟩
    have hnone : ∀ k key, ¬ (Registration.genesis host members).Holds k key := by
      rintro ⟨r, id⟩ key ⟨v, e, hget, -⟩
      cases id <;> simp [Registration.vaultAt, Registration.genesis] at hget
    exact ⟨fun k key hk => absurd hk (hnone k key), fun k _ key _ hk => absurd hk (hnone k key)⟩
  · intro s i s' hs hw hstep
    rcases hw.same_or hstep with rfl | hall
    · exact hs
    · exact hs.move hall (Registration.step_cases hstep)

end Steps

/-! ## Addresses -/

/-- The address of a vault belongs to its keys. -/
def MultiSigAccount.Made (host : Host AccountId) (vault : MultiSigAccount AccountId) : Prop :=
  ∀ a, vault.generated = some a → ∃ m desc,
    Registration.generateDescriptor host m vault.rawPubKeys = some desc ∧
      host.lib.descriptorAddress desc = some a

section Addresses

variable {host : Host AccountId} {o : Outlook AccountId} {s t s' : Registration AccountId}
  {i : Step AccountId}

omit [LinearOrder AccountId] in
lemma MultiSigAccount.generated_of_pending {vault : MultiSigAccount AccountId}
    (h : vault.isPending = true) : vault.generated = none := by
  cases ha : vault.address with
  | pending => simp [generated, ha]
  | generated a => simp [isPending, ha] at h

lemma Bonds.made {vault vault' : MultiSigAccount AccountId} {refundAddress a d : Bytes}
    {who : AccountId} {round : ℕ}
    (h : Bonds host o s vault refundAddress who round vault' t a d) : vault'.Made host := by
  intro a' ha'
  have haddress := h.address
  simp only [Registration.generateVaultAddress, bind_eq_ok, okOr_eq_ok, pure_eq_ok,
    Prod.mk.injEq] at haddress
  obtain ⟨desc, hdesc, address, haddr, bounded, hbounded, rfl, rfl⟩ := haddress
  have hbounded : bounded = address := by
    simp only [boundedAddress] at hbounded
    split_ifs at hbounded
    exact (Option.some.inj hbounded).symm
  rw [h.vault_eq] at ha' ⊢
  have ha' : bounded = a' := Option.some.inj ha'
  exact ⟨s.getM o, desc, hdesc, by rw [← ha', hbounded]; exact haddr⟩

/-- **Every step** keeps the addresses. -/
lemma VaultChange.made {k : ℕ × Option AccountId} {v v' : Option (MultiSigAccount AccountId)}
    (hc : VaultChange host s i k v v') (hv : ∀ vault ∈ v, vault.Made host) :
    ∀ vault ∈ v', vault.Made host := by
  have hpending : ∀ {vault : MultiSigAccount AccountId}, vault.isPending = true →
      vault.Made host := by
    intro vault hp a ha
    simp [MultiSigAccount.generated_of_pending hp] at ha
  intro w hw
  cases hc with
  | same => exact hv w hw
  | gone => cases hw
  | requested m n =>
      obtain rfl := Option.some.inj hw
      exact hpending rfl
  | opened o who raw address keys vault vault' hi hk htake hvault =>
      obtain rfl := Option.some.inj hw
      obtain ⟨hp, -⟩ := Registration.takePreSubmitted_eq_ok htake
      rcases hvault with rfl | rfl | ⟨t, a, d, hbonds⟩
      · exact hpending hp
      · exact hpending hp
      · exact hbonds.made
  | keyed o authorityId pubKey refundAddress vault vault' t hexec hi hkey =>
      obtain rfl := Option.some.inj hw
      rcases hkey.outcome with ⟨-, rfl, -⟩ | ⟨a, d, hbonds⟩
      · exact hpending hkey.pending
      · exact hbonds.made
  | renamed old new vault hi hk hp =>
      obtain rfl := Option.some.inj hw
      refine hpending ?_
      rw [MultiSigAccount.isPending, MultiSigAccount.replaceAuthority_address]
      exact hp

lemma PoolIf.made {cond : Registration AccountId → Step AccountId → Prop} (h : PoolIf host cond s) :
    ∀ k, ∀ vault ∈ s.vaultAt k, vault.Made host := by
  refine Reachable.invariant (P := fun s => ∀ k, ∀ vault ∈ s.vaultAt k,
    MultiSigAccount.Made host vault) ?_ ?_ h
  · rintro s ⟨members, rfl⟩ ⟨r, id⟩ vault hvault
    cases id <;> simp [Registration.vaultAt, Registration.genesis] at hvault
  · intro s i s' hs _ hstep k
    exact ((Registration.step_cases hstep).vaultChange k).made (hs k)

/-- Vaults with one address have their keys in common. -/
lemma MultiSigAccount.Made.common {vault vault' : MultiSigAccount AccountId} {a : Bytes}
    (hkeys : ∀ m desc, host.lib.newWshSortedmulti m [] ≠ some desc)
    (hinj : ∀ m m' keys keys' desc desc' a, keys.all host.lib.isPublicKey = true →
      keys'.all host.lib.isPublicKey = true → host.lib.newWshSortedmulti m keys = some desc →
      host.lib.newWshSortedmulti m' keys' = some desc' → host.lib.descriptorAddress desc = some a →
      host.lib.descriptorAddress desc' = some a → keys.Perm keys')
    (h : vault.Made host) (h' : vault'.Made host) (ha : vault.generated = some a)
    (ha' : vault'.generated = some a) : ∃ key, key ∈ vault.rawPubKeys ∧ key ∈ vault'.rawPubKeys := by
  obtain ⟨m, desc, hdesc, haddr⟩ := h a ha
  obtain ⟨m', desc', hdesc', haddr'⟩ := h' a ha'
  simp only [Registration.generateDescriptor] at hdesc hdesc'
  split_ifs at hdesc hdesc' with hall hall'
  obtain ⟨hdesc, -⟩ := Option.filter_eq_some_iff.mp hdesc
  obtain ⟨hdesc', -⟩ := Option.filter_eq_some_iff.mp hdesc'
  have hsorted : ∀ keys : List Bytes, keys.all host.lib.isPublicKey = true →
      (keys.insertionSort (· ≤ ·)).all host.lib.isPublicKey = true := by
    intro keys hkeys
    simpa using hkeys
  have hsort := hinj _ _ _ _ _ _ _ (hsorted _ hall) (hsorted _ hall') hdesc hdesc' haddr haddr'
  obtain ⟨key, hkey⟩ : ∃ key, key ∈ vault.rawPubKeys.insertionSort (· ≤ ·) := by
    refine List.exists_mem_of_ne_nil _ fun hnil => ?_
    rw [hnil] at hdesc
    exact hkeys _ _ hdesc
  refine ⟨key, (List.mem_insertionSort _).mp hkey, ?_⟩
  exact (List.mem_insertionSort _).mp (hsort.mem_iff.mp hkey)

end Addresses

/-! ## Results -/

section Results

variable {host : Host AccountId} {s : Registration AccountId}

/-- **A key has one vault.**  In every run in which a vault is requested only while all executives offer
a key or none does, the keys of a vault are bonded to its owner, and no two vaults of a round have a key
or an address in common. -/
theorem keys_bonded (hkeys : ∀ m desc, host.lib.newWshSortedmulti m [] ≠ some desc)
    (hinj : ∀ m m' keys keys' desc desc' a, keys.all host.lib.isPublicKey = true →
      keys'.all host.lib.isPublicKey = true → host.lib.newWshSortedmulti m keys = some desc →
      host.lib.newWshSortedmulti m' keys' = some desc' → host.lib.descriptorAddress desc = some a →
      host.lib.descriptorAddress desc' = some a → keys.Perm keys')
    (h : PoolIf host (fun s i => i.Whole host s) s) (r : ℕ) :
    (∀ who target key, s.registrationPool.get (r, who) = some target →
      key ∈ target.vault.rawPubKeys → s.bondedPubKey.get (r, key) = some who) ∧
    (∀ vault key, s.systemVault.get r = some vault → key ∈ vault.rawPubKeys →
      s.bondedPubKey.get (r, key) = some (Registration.precompile host)) ∧
    (∀ id id' vault vault', s.vaultAt (r, id) = some vault → s.vaultAt (r, id') = some vault' →
      id ≠ id' → (∀ key ∈ vault.rawPubKeys, key ∉ vault'.rawPubKeys) ∧
        ∀ a, vault.address = .generated a → vault'.address ≠ .generated a) := by
  have hinv := h.keyInv
  have hholds : ∀ id vault key, s.vaultAt (r, id) = some vault → key ∈ vault.rawPubKeys →
      s.Holds (r, id) key := by
    intro id vault key hvault hkey
    obtain ⟨e, he⟩ := MultiSigAccount.mem_rawPubKeys.mp hkey
    exact ⟨vault, e, hvault, he⟩
  refine ⟨fun who target key htarget hkey => ?_, fun vault key hvault hkey => ?_, ?_⟩
  · have hvault : s.vaultAt (r, some who) = some target.vault := by
      simp [Registration.vaultAt, htarget]
    exact hinv.bonded (r, some who) key (hholds _ _ _ hvault hkey)
  · exact hinv.bonded (r, none) key (hholds none _ _ hvault hkey)
  · intro id id' vault vault' hvault hvault' hne
    have hdisjoint : ∀ key ∈ vault.rawPubKeys, key ∉ vault'.rawPubKeys := by
      intro key hkey hkey'
      have heq := hinv.apart (r, id) (r, id') key rfl (hholds _ _ _ hvault hkey)
        (hholds _ _ _ hvault' hkey')
      exact hne (Prod.mk.inj heq).2
    refine ⟨hdisjoint, fun a ha ha' => ?_⟩
    obtain ⟨key, hkey, hkey'⟩ := (h.made _ vault hvault).common hkeys hinj (h.made _ vault' hvault')
      (a := a) (by simp [MultiSigAccount.generated, ha]) (by simp [MultiSigAccount.generated, ha'])
    exact hdisjoint key hkey hkey'

end Results

/-- Single bytes can be told from their concatenation. -/
lemma flatten_inj_of_length_one {keys keys' : List Bytes} (hk : ∀ k ∈ keys, k.length = 1)
    (hk' : ∀ k ∈ keys', k.length = 1) (h : keys.flatten = keys'.flatten) : keys = keys' := by
  induction keys generalizing keys' with
  | nil =>
      cases keys' with
      | nil => rfl
      | cons k' keys' =>
          have := hk' k' List.mem_cons_self
          simp_all
  | cons k keys ih =>
      cases keys' with
      | nil =>
          have := hk k List.mem_cons_self
          simp_all
      | cons k' keys' =>
          simp only [List.flatten_cons] at h
          have hlength : k.length = k'.length := by
            rw [hk k List.mem_cons_self, hk' k' List.mem_cons_self]
          obtain ⟨hhead, htail⟩ := List.append_inj h hlength
          rw [hhead, ih (fun k hk₁ => hk k (List.mem_cons_of_mem _ hk₁))
            (fun k hk₁ => hk' k (List.mem_cons_of_mem _ hk₁)) htail]

/-- The addresses of the small pool belong to their keys. -/
lemma regtest_address_inj (m m' : ℕ) (keys keys' : List Bytes) (desc desc' : Descriptor) (a : Bytes)
    (hk : keys.all regtest.lib.isPublicKey = true) (hk' : keys'.all regtest.lib.isPublicKey = true)
    (h : regtest.lib.newWshSortedmulti m keys = some desc)
    (h' : regtest.lib.newWshSortedmulti m' keys' = some desc')
    (ha : regtest.lib.descriptorAddress desc = some a)
    (ha' : regtest.lib.descriptorAddress desc' = some a) : keys.Perm keys' := by
  simp only [regtest, regtestLibrary] at h h' ha ha'
  split_ifs at h h'
  obtain rfl := Option.some.inj h
  obtain rfl := Option.some.inj h'
  rw [← ha', Option.some.injEq, List.cons.injEq] at ha
  refine .of_eq (flatten_inj_of_length_one ?_ ?_ ha.2)
  · simpa [regtest, regtestLibrary] using hk
  · simpa [regtest, regtestLibrary] using hk'

/-- User 7 gets its vault from keys submitted in advance. -/
theorem keys_bonded_regtest : ∃ s : Registration ℕ, PoolIf regtest (fun s i => i.Whole regtest s) s ∧
    ∃ target, s.registrationPool.get (1, 7) = some target ∧ [20] ∈ target.vault.rawPubKeys ∧
      s.bondedPubKey.get (1, [20]) = some 7 := by
  have hrun := regtestRun_exists (fun s i => i.Whole regtest s)
    [.vaultKeyPresubmission regtestOutlook ⟨1, [[20]], 1⟩,
      .vaultKeyPresubmission regtestOutlook ⟨2, [[10]], 1⟩,
      .requestVault regtestOutlook (.signed 7) [5]]
    (P := fun s => (s.registrationPool.get (1, 7)).any fun target =>
      decide ([20] ∈ target.vault.rawPubKeys)) (by decide)
  obtain ⟨s, hs, hP⟩ := hrun
  obtain ⟨target, ht, hkey⟩ := (Option.any_eq_true _ _).mp hP
  have hkey := of_decide_eq_true hkey
  have hkeys : ∀ m desc, regtest.lib.newWshSortedmulti m [] ≠ some desc := by
    intro m desc h
    simp only [regtest, regtestLibrary, List.length_nil] at h
    split_ifs at h
    omega
  exact ⟨s, hs, target, ht, hkey,
    (keys_bonded hkeys regtest_address_inj hs 1).1 7 target [20] ht hkey⟩

/-- **A key in two vaults.**  Only executive 1 has submitted a key in advance.  User 7 gets it in an
incomplete vault, where it is not bonded, and executive 2 submits it for user 8. -/
theorem keys_shared : ∃ s : Registration ℕ, PoolIf regtest anyStep s ∧
    ∃ target target', s.registrationPool.get (1, 7) = some target ∧
      s.registrationPool.get (1, 8) = some target' ∧ [20] ∈ target.vault.rawPubKeys ∧
      [20] ∈ target'.vault.rawPubKeys ∧ s.bondedPubKey.get (1, [20]) ≠ some 7 := by
  have hrun := regtestRun_exists anyStep
    [.vaultKeyPresubmission regtestOutlook ⟨1, [[20]], 1⟩,
      .requestVault regtestOutlook (.signed 7) [5], .requestVault regtestOutlook (.signed 8) [6],
      .submitVaultKey regtestOutlook ⟨2, 8, [20], 1⟩]
    (P := fun s => ((s.registrationPool.get (1, 7)).any fun target =>
      (s.registrationPool.get (1, 8)).any fun target' =>
        decide ([20] ∈ target.vault.rawPubKeys ∧ [20] ∈ target'.vault.rawPubKeys)) &&
      decide (s.bondedPubKey.get (1, [20]) ≠ some 7)) (by decide)
  obtain ⟨s, hs, hP⟩ := hrun
  simp only [Bool.and_eq_true, Option.any_eq_true, decide_eq_true_eq] at hP
  obtain ⟨⟨target, ht, target', ht', hkey, hkey'⟩, hbond⟩ := hP
  exact ⟨s, hs, target, target', ht, ht', hkey, hkey', hbond⟩

end BifrostNode.Btc.Pool
