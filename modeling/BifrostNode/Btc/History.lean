import BifrostNode.Btc.Keys
import BifrostNode.Btc.Handover

/-!
# Rounds of the pool

Everything that the registration pool holds of vaults is held for a round, and `Registration.page` is what it
holds for one.

**One step** writes to the page of the round, and to the next one while its system vault is prepared
(`PoolMove.page_elsewhere`, `PoolMove.page_next`).  The round turns without a page being written
(`PoolMove.round`).

**Rounds.**  So a round that is over stays as it was until it is dropped, and a round to come holds nothing
but what was prepared for its system vault (`rounds_kept`).
-/

/-! ## Rows of a double map -/

namespace StorageMap

variable {B V : Type} [DecidableEq B]

/-- The entries whose first key is `r`. -/
def row (m : StorageMap (ℕ × B) V) (r : ℕ) : B → Option V := fun b => m.get (r, b)

variable {m : StorageMap (ℕ × B) V} {r k : ℕ}

lemma row_insert_of_ne (hr : r ≠ k) (b : B) (v : V) : (m.insert (k, b) v).row r = m.row r := by
  funext c
  have hne : (r, c) ≠ (k, b) := fun h => hr (Prod.mk.inj h).1
  exact get_insert_of_ne _ hne _

lemma row_remove_of_ne (hr : r ≠ k) (b : B) : (m.remove (k, b)).row r = m.row r := by
  funext c
  have hne : (r, c) ≠ (k, b) := fun h => hr (Prod.mk.inj h).1
  exact get_remove_of_ne _ hne

lemma row_foldl_insert_of_ne (hr : r ≠ k) (v : V) : ∀ (bs : List B) (m : StorageMap (ℕ × B) V),
    (bs.foldl (fun m b => m.insert (k, b) v) m).row r = m.row r := by
  intro bs
  induction bs with
  | nil => exact fun m => rfl
  | cons b bs ih => exact fun m => (ih _).trans (row_insert_of_ne hr b v)

lemma row_foldl_remove_of_ne (hr : r ≠ k) : ∀ (bs : List B) (m : StorageMap (ℕ × B) V),
    ((bs.map (k, ·)).foldl remove m).row r = m.row r := by
  intro bs
  induction bs with
  | nil => exact fun m => rfl
  | cons b bs ih => exact fun m => (ih _).trans (row_remove_of_ne hr b)

omit [DecidableEq B] in
lemma row_filterKeys_of_ne (hr : r ≠ k) : (m.filterKeys fun i => i.1 ≠ k).row r = m.row r := by
  funext c
  simp [row, get_filterKeys, hr]

omit [DecidableEq B] in
lemma row_filterKeys_self : (m.filterKeys fun i => i.1 ≠ k).row k = fun _ => none := by
  funext c
  simp [row, get_filterKeys]

end StorageMap

namespace BifrostNode.Btc.Pool

open Cccp Staking Transition

variable {AccountId : Type}

/-! ## Pages -/

/-- What the pool holds for one round. -/
@[ext]
structure Page (AccountId : Type) where
  executives : Option (List AccountId)
  systemVault : Option (MultiSigAccount AccountId)
  users : AccountId → Option (BitcoinRelayTarget AccountId)
  vaults : Bytes → Option AccountId
  refunds : Bytes → Option (List AccountId)
  keys : Bytes → Option AccountId
  descriptors : Bytes → Option Bytes
  preSubmitted : AccountId → Option (Finset Bytes)

def Registration.page (s : Registration AccountId) (r : ℕ) : Page AccountId where
  executives := s.relayExecutives.get r
  systemVault := s.systemVault.get r
  users := s.registrationPool.row r
  vaults := s.bondedVault.row r
  refunds := s.bondedRefund.row r
  keys := s.bondedPubKey.row r
  descriptors := s.bondedDescriptor.row r
  preSubmitted := s.preSubmittedPubKeys.row r

namespace Page

variable {host : Host AccountId}

def blank : Page AccountId :=
  ⟨none, none, fun _ => none, fun _ => none, fun _ => none, fun _ => none, fun _ => none, fun _ => none⟩

/-- The page after its round is dropped: only the executives are left. -/
def dropped (p : Page AccountId) : Page AccountId := { blank with executives := p.executives }

/-- Nobody is registered, and addresses and keys are those of the system vault. -/
structure Prepared (host : Host AccountId) (p : Page AccountId) : Prop where
  users : p.users = fun _ => none
  refunds : p.refunds = fun _ => none
  preSubmitted : p.preSubmitted = fun _ => none
  vaults : ∀ a who, p.vaults a = some who → who = Registration.precompile host
  keys : ∀ key who, p.keys key = some who → who = Registration.precompile host

/-- Only the system vault, its address and its keys are written, and the executives. -/
structure Prepares (host : Host AccountId) (p p' : Page AccountId) : Prop where
  users : p'.users = p.users
  refunds : p'.refunds = p.refunds
  preSubmitted : p'.preSubmitted = p.preSubmitted
  vaults : ∀ a who, p'.vaults a = some who → p.vaults a = some who ∨
    who = Registration.precompile host
  keys : ∀ key who, p'.keys key = some who → p.keys key = some who ∨
    who = Registration.precompile host

lemma Prepared.prepares {p p' : Page AccountId} (h : p.Prepared host) (hp : p.Prepares host p') :
    p'.Prepared host where
  users := hp.users.trans h.users
  refunds := hp.refunds.trans h.refunds
  preSubmitted := hp.preSubmitted.trans h.preSubmitted
  vaults a who ha := (hp.vaults a who ha).elim (h.vaults a who) id
  keys key who hkey := (hp.keys key who hkey).elim (h.keys key who) id

/-- Neither addresses nor keys change. -/
lemma Prepares.of_eq {p p' : Page AccountId} (hu : p'.users = p.users) (hr : p'.refunds = p.refunds)
    (hp : p'.preSubmitted = p.preSubmitted) (hv : p'.vaults = p.vaults) (hk : p'.keys = p.keys) :
    p.Prepares host p' :=
  ⟨hu, hr, hp, fun _ _ ha => .inl (hv ▸ ha), fun _ _ hkey => .inl (hk ▸ hkey)⟩

lemma blank_prepared (host : Host AccountId) : (blank : Page AccountId).Prepared host := by
  refine ⟨rfl, rfl, rfl, fun a who h => ?_, fun key who h => ?_⟩
  · cases h
  · cases h

end Page

/-! ## One step -/

section Moves

variable [LinearOrder AccountId] {host : Host AccountId} {s s' t : Registration AccountId}
  {i : Step AccountId} {r : ℕ}

/-- Keys are taken in advance from one round. -/
lemma Registration.takePreSubmitted_row {round : ℕ} (hr : r ≠ round) {v vault : MultiSigAccount AccountId}
    {executives : List AccountId} (h : s.takePreSubmitted round v executives = .ok (vault, s')) :
    s'.preSubmittedPubKeys.row r = s.preSubmittedPubKeys.row r := by
  induction executives generalizing s v with
  | nil =>
      simp only [takePreSubmitted, List.foldlM_nil, pure_eq_ok, Prod.mk.injEq] at h
      obtain ⟨-, rfl⟩ := h
      rfl
  | cons e es ih =>
      obtain ⟨v', keys, htake, -⟩ := takePreSubmitted_cons h
      exact (ih htake).trans (StorageMap.row_insert_of_ne hr e keys)

/-- Refund addresses are set in one round. -/
lemma RefundMove.page_of_ne {k : ℕ} (h : RefundMove k s t) (hr : r ≠ k) : t.page r = s.page r := by
  induction h with
  | refl => rfl
  | @set t who target new h hfree htarget ih =>
      rw [← ih]
      ext1
      case refunds => exact (StorageMap.row_insert_of_ne hr _ _).trans (StorageMap.row_insert_of_ne hr _ _)
      case users => exact StorageMap.row_insert_of_ne hr _ _
      all_goals rfl
  | forget p h ih => exact ih

/-- A key that is added leaves the pages of other rounds alone. -/
lemma KeyAdded.rows {o : Outlook AccountId} {vault vault' : MultiSigAccount AccountId}
    {authorityId who : AccountId} {pubKey refundAddress : Bytes} {round : ℕ}
    (h : KeyAdded host o s vault authorityId pubKey refundAddress who round vault' t) (hr : r ≠ round) :
    t.bondedVault.row r = s.bondedVault.row r ∧ t.bondedDescriptor.row r = s.bondedDescriptor.row r := by
  rcases h.outcome with ⟨-, -, rfl⟩ | ⟨a, d, hbonds⟩
  · exact ⟨rfl, rfl⟩
  · rw [hbonds.state_eq]
    exact ⟨StorageMap.row_insert_of_ne hr _ _, StorageMap.row_insert_of_ne hr _ _⟩

/-- The page of another round when an authority is replaced. -/
lemma Registration.replaceAuthority_page (s : Registration AccountId) (old new : AccountId)
    (hr : r ≠ s.currentRound) : (s.replaceAuthority old new).page r = s.page r := by
  ext1
  case systemVault =>
      show (s.replaceAuthority old new).systemVault.get r = s.systemVault.get r
      rw [replaceAuthority_system]
      simp [hr]
  case users =>
      funext who
      show (s.replaceAuthority old new).registrationPool.get (r, who) = s.registrationPool.get (r, who)
      rw [replaceAuthority_pool]
      simp [hr]
  case preSubmitted =>
      show (replaceAuthority s old new).preSubmittedPubKeys.row r = s.preSubmittedPubKeys.row r
      simp only [replaceAuthority]
      split_ifs
      · exact StorageMap.row_remove_of_ne hr old
      · exact (StorageMap.row_insert_of_ne hr new _).trans (StorageMap.row_remove_of_ne hr old)
  all_goals rfl

/-- The round turns without a page being written. -/
lemma PoolMove.round (hm : PoolMove host s i s') : s'.currentRound = s.currentRound ∨
    (s'.currentRound = s.currentRound + 1 ∧ ∀ r, s'.page r = s.page r) := by
  cases hm with
  | ended o hi hstate h => exact .inr ⟨by rw [h], fun r => by rw [h]; rfl⟩
  | refunds h =>
      obtain ⟨-, -, -, -, hround, -⟩ := h.frame
      exact .inl hround
  | opened o who raw address keys vault vault' hi hnormal hfree hnone htake hvault h =>
      exact .inl (by rw [h]; rfl)
  | bonded o who raw address keys vault vault' a d t hi hnormal hfree hnone htake hbonds h =>
      exact .inl (by rw [h, hbonds.state_eq]; rfl)
  | keyed o sub target vault' t hi hexec hnormal htarget hkey h => exact .inl (by rw [h, hkey.frame])
  | systemKeyed o sub r vault vault' t hi hexec hr hvault hkey h => exact .inl (by rw [h, hkey.frame])
  | members new hi h => exact .inl (by rw [h]; rfl)
  | renamed old new hi h => exact .inl (by rw [h]; rfl)
  | tuned h => exact .inl (by rw [h])
  | requested o prepare hi hstate hnone h => exact .inl (by rw [h])
  | presubmitted o sub hi hexec hnormal h => exact .inl (by rw [h])
  | cleared raw a who target hi ha hnormal hbond hwho htarget h => exact .inl (by rw [h])
  | systemCleared raw a vault hi hnormal hbond hvault h => exact .inl (by rw [h])
  | started o hi hstate hready h => exact .inl (by rw [h])
  | prepared o hi hstate hnone h => exact .inl (by rw [h])
  | dropped round hi hlt hnormal h => exact .inl (by rw [h])

omit [LinearOrder AccountId] in
/-- The system vault that takes keys is that of the round or of the next one. -/
lemma Registration.systemVaultRound_eq_some (h : s.systemVaultRound = some r) :
    r = s.currentRound ∨ r = s.currentRound + 1 := by
  rw [systemVaultRound] at h
  cases hstate : s.serviceState with
  | normal =>
      rw [hstate] at h
      exact .inl (Option.some.inj h).symm
  | prepareNextSystemVault =>
      rw [hstate] at h
      exact .inr (Option.some.inj h).symm
  | setExecutiveMembers =>
      rw [hstate] at h
      cases h
  | utxoTransfer =>
      rw [hstate] at h
      cases h

/-- **What a step does to the page of another round**: nothing, unless the round is dropped or prepared. -/
inductive PageMove (host : Host AccountId) (s : Registration AccountId) (i : Step AccountId) (r : ℕ)
    (s' : Registration AccountId) : Prop
  | kept (h : s'.page r = s.page r) : PageMove host s i r s'
  | dropped (hi : i = .dropPreviousRound .root r) (hlt : r < s.currentRound)
      (h : s'.page r = (s.page r).dropped) : PageMove host s i r s'
  | prepares (hr : r = s.currentRound + 1) (h : (s.page r).Prepares host (s'.page r)) :
      PageMove host s i r s'

/-- A key for a system vault. -/
lemma KeyAdded.prepares {o : Outlook AccountId} {vault vault' : MultiSigAccount AccountId}
    {authorityId : AccountId} {pubKey refundAddress : Bytes}
    (h : KeyAdded host o s vault authorityId pubKey refundAddress (Registration.precompile host) r vault' t)
    {a : Bytes} {who : AccountId} (ha : t.bondedVault.get (r, a) = some who) :
    s.bondedVault.get (r, a) = some who ∨ who = Registration.precompile host := by
  rcases h.outcome with ⟨-, -, rfl⟩ | ⟨b, d, hbonds⟩
  · exact .inl ha
  · rw [hbonds.state_eq, StorageMap.get_insert] at ha
    split_ifs at ha
    · exact .inr (Option.some.inj ha).symm
    · exact .inl ha

/-- **Other pages stay as they are**, but for a round that is dropped and the next one. -/
lemma PoolMove.page_elsewhere (hm : PoolMove host s i s') (hr : r ≠ s.currentRound) :
    PageMove host s i r s' := by
  cases hm with
  | tuned h => exact .kept (by rw [h]; rfl)
  | members new hi h =>
      by_cases hround : r = if s.serviceState = .normal then s.currentRound else s.currentRound + 1
      · have hnext : r = s.currentRound + 1 := by
          split_ifs at hround
          · exact absurd hround hr
          · exact hround
        exact .prepares hnext (by rw [h]; exact .of_eq rfl rfl rfl rfl rfl)
      · refine .kept ?_
        rw [h]
        ext1
        case executives => exact StorageMap.get_insert_of_ne _ hround _
        all_goals rfl
  | refunds h => exact .kept (h.page_of_ne hr)
  | opened o who raw address keys vault vault' hi hnormal hfree hnone htake hvault h =>
      have hkeys := Registration.takePreSubmitted_row hr htake
      refine .kept ?_
      rw [h]
      ext1
      case users => exact StorageMap.row_insert_of_ne hr _ _
      case refunds => exact StorageMap.row_insert_of_ne hr _ _
      case preSubmitted => exact hkeys
      all_goals rfl
  | bonded o who raw address keys vault vault' a d t hi hnormal hfree hnone htake hbonds h =>
      have hkeys := Registration.takePreSubmitted_row hr htake
      refine .kept ?_
      rw [h, hbonds.state_eq]
      ext1
      case users => exact StorageMap.row_insert_of_ne hr _ _
      case vaults => exact StorageMap.row_insert_of_ne hr _ _
      case refunds => exact StorageMap.row_insert_of_ne hr _ _
      case keys => exact StorageMap.row_foldl_insert_of_ne hr who _ _
      case descriptors => exact StorageMap.row_insert_of_ne hr _ _
      case preSubmitted => exact hkeys
      all_goals rfl
  | keyed o sub target vault' t hi hexec hnormal htarget hkey h =>
      obtain ⟨hvaults, hdescriptors⟩ := hkey.rows hr
      refine .kept ?_
      rw [h, hkey.frame]
      ext1
      case users => exact StorageMap.row_insert_of_ne hr _ _
      case vaults => exact hvaults
      case keys => exact StorageMap.row_insert_of_ne hr _ _
      case descriptors => exact hdescriptors
      all_goals rfl
  | systemKeyed o sub k vault vault' t hi hexec hk hvault hkey h =>
      by_cases hround : r = k
      · subst hround
        refine .prepares ((Registration.systemVaultRound_eq_some hk).resolve_left hr) ?_
        rw [h, hkey.frame]
        refine ⟨rfl, rfl, rfl, fun a who ha => hkey.prepares ha, fun key who hbonded => ?_⟩
        simp only [Registration.page, StorageMap.row, StorageMap.get_insert] at hbonded
        split_ifs at hbonded
        · exact .inr (Option.some.inj hbonded).symm
        · exact .inl hbonded
      · obtain ⟨hvaults, hdescriptors⟩ := hkey.rows hround
        refine .kept ?_
        rw [h, hkey.frame]
        ext1
        case systemVault => exact StorageMap.get_insert_of_ne _ hround _
        case vaults => exact hvaults
        case keys => exact StorageMap.row_insert_of_ne hround _ _
        case descriptors => exact hdescriptors
        all_goals rfl
  | requested o prepare hi hstate hnone h =>
      by_cases hround : r = if prepare then s.currentRound + 1 else s.currentRound
      · have hnext : r = s.currentRound + 1 := by
          split_ifs at hround
          · exact hround
          · exact absurd hround hr
        exact .prepares hnext (by rw [h]; exact .of_eq rfl rfl rfl rfl rfl)
      · refine .kept ?_
        rw [h]
        ext1
        case systemVault => exact StorageMap.get_insert_of_ne _ hround _
        all_goals rfl
  | presubmitted o sub hi hexec hnormal h =>
      refine .kept ?_
      rw [h]
      ext1
      case preSubmitted => exact StorageMap.row_insert_of_ne hr _ _
      all_goals rfl
  | cleared raw a who target hi ha hnormal hbond hwho htarget h =>
      refine .kept ?_
      rw [h]
      ext1
      case users => exact StorageMap.row_remove_of_ne hr _
      case vaults => exact StorageMap.row_remove_of_ne hr _
      case refunds => exact StorageMap.row_remove_of_ne hr _
      case keys => exact StorageMap.row_foldl_remove_of_ne hr _ _
      case descriptors => exact StorageMap.row_remove_of_ne hr _
      all_goals rfl
  | systemCleared raw a vault hi hnormal hbond hvault h =>
      refine .kept ?_
      rw [h]
      ext1
      case systemVault => exact StorageMap.get_remove_of_ne _ hr
      case vaults => exact StorageMap.row_remove_of_ne hr _
      case keys => exact StorageMap.row_foldl_remove_of_ne hr _ _
      case descriptors => exact StorageMap.row_remove_of_ne hr _
      all_goals rfl
  | started o hi hstate hready h => exact .kept (by rw [h]; rfl)
  | prepared o hi hstate hnone h =>
      by_cases hround : r = s.currentRound + 1
      · exact .prepares hround (by rw [h]; exact .of_eq rfl rfl rfl rfl rfl)
      · refine .kept ?_
        rw [h]
        ext1
        case systemVault => exact StorageMap.get_insert_of_ne _ hround _
        all_goals rfl
  | ended o hi hstate h => exact .kept (by rw [h]; rfl)
  | dropped round hi hlt hnormal h =>
      by_cases hround : r = round
      · subst hround
        refine .dropped hi hlt ?_
        rw [h]
        ext1
        case executives => rfl
        case systemVault => exact StorageMap.get_remove_self _ _
        all_goals exact StorageMap.row_filterKeys_self
      · refine .kept ?_
        rw [h]
        ext1
        case executives => rfl
        case systemVault => exact StorageMap.get_remove_of_ne _ hround
        all_goals exact StorageMap.row_filterKeys_of_ne hround
  | renamed old new hi h => exact .kept (by rw [h, s.replaceAuthority_page old new hr])

end Moves

/-! ## Runs -/

section Runs

variable [LinearOrder AccountId] {host : Host AccountId} {s s' : Registration AccountId}
  {i : Step AccountId} {r : ℕ}

/-- **Rounds to come** hold what was prepared for the system vault of the next one. -/
structure AheadInv (host : Host AccountId) (s : Registration AccountId) : Prop where
  next : (s.page (s.currentRound + 1)).Prepared host
  later : ∀ r, s.currentRound + 1 < r → s.page r = .blank

lemma AheadInv.step (hs : AheadInv host s) (h : s.step host i = some s') : AheadInv host s' := by
  have hm := Registration.step_cases h
  have hlater : ∀ r, s.currentRound + 1 < r → s'.page r = .blank := by
    intro r hr
    cases hm.page_elsewhere (r := r) (by omega) with
    | kept hpage => rw [hpage, hs.later r hr]
    | dropped hi hlt hpage => omega
    | prepares hround hpage => omega
  rcases hm.round with hround | ⟨hround, hpages⟩
  · refine ⟨?_, fun r hr => hlater r (hround ▸ hr)⟩
    rw [hround]
    cases hm.page_elsewhere (r := s.currentRound + 1) (Nat.succ_ne_self _) with
    | kept hpage => rw [hpage]; exact hs.next
    | dropped hi hlt hpage => omega
    | prepares hnext hpage => exact hs.next.prepares hpage
  · refine ⟨?_, fun r hr => hlater r (by omega)⟩
    rw [hround, hlater _ (by omega)]
    exact Page.blank_prepared host

lemma PoolIf.aheadInv {cond : Registration AccountId → Step AccountId → Prop}
    (h : PoolIf host cond s) : AheadInv host s := by
  refine Reachable.invariant (P := AheadInv host) ?_ (fun s i s' hs _ h => hs.step h) h
  rintro s ⟨members, rfl⟩
  have hblank : ∀ r, 1 < r → (Registration.genesis host members).page r = .blank := by
    intro r hr
    ext1
    case executives => exact StorageMap.get_insert_of_ne _ (by omega) _
    all_goals rfl
  refine ⟨?_, fun r hr => hblank r (by simp only [Registration.genesis] at hr; omega)⟩
  rw [hblank _ (by simp only [Registration.genesis]; omega)]
  exact Page.blank_prepared host

/-- The step drops no round but others than `r`. -/
def Step.Retains (r : ℕ) : Step AccountId → Prop
  | .dropPreviousRound _ round => round ≠ r
  | _ => True

/-- A page after the page of the same round some time before. -/
def Page.Follows (p p' : Page AccountId) : Prop := p' = p ∨ p' = p.dropped

lemma Page.Follows.step {p : Page AccountId} (hp : p.Follows (s.page r)) (hr : r < s.currentRound)
    (h : s.step host i = some s') : r < s'.currentRound ∧ s.currentRound ≤ s'.currentRound ∧
      p.Follows (s'.page r) ∧ (i.Retains r → s'.page r = s.page r) := by
  have hm := Registration.step_cases h
  have hround : s.currentRound ≤ s'.currentRound := by
    rcases hm.round with hround | ⟨hround, -⟩ <;> omega
  refine ⟨hr.trans_le hround, hround, ?_⟩
  cases hm.page_elsewhere (r := r) hr.ne with
  | kept hpage =>
      rw [hpage]
      exact ⟨hp, fun _ => rfl⟩
  | dropped hi hlt hpage =>
      subst hi
      refine ⟨.inr ?_, fun hkept => absurd rfl hkept⟩
      rcases hp with hp | hp
      · rw [hpage, hp]
      · rw [hpage, hp]
        rfl
  | prepares hnext hpage => omega

/-- **Rounds are kept.**  In every run the next round holds only its system vault, and rounds after it hold
nothing.  Whatever happens afterwards, the page of a round that is over is the one it was, or has been
dropped as a whole; and it has not been dropped if nobody has dropped that round. -/
theorem rounds_kept (h : PoolIf host anyStep s) :
    (s.page (s.currentRound + 1)).Prepared host ∧
    (∀ r, s.currentRound + 1 < r → s.page r = .blank) ∧
    ∀ r < s.currentRound, ∀ s',
      (Reachable (fun t => t = s) (Registration.step host) anyStep s' →
        s.currentRound ≤ s'.currentRound ∧ (s.page r).Follows (s'.page r)) ∧
      (Reachable (fun t => t = s) (Registration.step host) (fun _ i => i.Retains r) s' →
        s'.page r = s.page r) := by
  have hinv := h.aheadInv
  refine ⟨hinv.next, hinv.later, fun r hr s' => ⟨fun hrun => ?_, fun hrun => ?_⟩⟩
  · have hall := Reachable.invariant (P := fun t : Registration AccountId => r < t.currentRound ∧
        s.currentRound ≤ t.currentRound ∧ (s.page r).Follows (t.page r))
      (by rintro t rfl; exact ⟨hr, le_rfl, .inl rfl⟩) (fun t i t' ht _ hstep => ?_) hrun
    · exact hall.2
    · obtain ⟨hlt, hle, hpage⟩ := ht
      obtain ⟨hlt', hle', hpage', -⟩ := hpage.step hlt hstep
      exact ⟨hlt', hle.trans hle', hpage'⟩
  · have hall := Reachable.invariant (P := fun t : Registration AccountId => r < t.currentRound ∧
        t.page r = s.page r)
      (by rintro t rfl; exact ⟨hr, rfl⟩) (fun t i t' ht hi hstep => ?_) hrun
    · exact hall.2
    · obtain ⟨hlt, hpage⟩ := ht
      have hself : (t.page r).Follows (t.page r) := .inl rfl
      obtain ⟨hlt', -, -, hkept⟩ := hself.step hlt hstep
      exact ⟨hlt', (hkept hi).trans hpage⟩

/-- What the step that ends a migration leaves behind. -/
lemma Step.Ends.step {o : Outlook AccountId} (h : (Step.migrationControl o .root).Ends s) :
    s.step host (.migrationControl o .root) = some { s with
      currentRound := s.currentRound + 1
      serviceState := .normal
      ongoingVaultMigration := ∅ } := by
  obtain ⟨-, hstate, hsome, hall⟩ := h
  simp only [Registration.step, Registration.migrationControl, hstate, ensure,
    if_pos (show s.ongoingVaultMigration.toList ≠ [] ∧
      ∀ e ∈ s.ongoingVaultMigration.toList, e.2 = true from ⟨hsome, List.all_eq_true.mp hall⟩)]
  rfl

/-- User 7 has a vault of round 1 while the pool migrates to round 2. -/
theorem rounds_kept_regtest : ∃ s : Registration ℕ, PoolIf regtest anyStep s ∧ s.currentRound = 2 ∧
    ((s.page 1).users 7).isSome = true ∧
    ∀ s', Reachable (fun t => t = s) (Registration.step regtest) anyStep s' →
      (s.page 1).Follows (s'.page 1) := by
  have hrun := regtestRun_exists anyStep
    [.requestVault regtestOutlook (.signed 7) [5], .migrationControl regtestOutlook .root,
      .migrationControl regtestOutlook .root, .submitSystemVaultKey regtestOutlook ⟨1, 256, [20], 2⟩,
      .submitSystemVaultKey regtestOutlook ⟨2, 256, [10], 2⟩, .addMigrationTx 0, .executeMigrationTx 0]
    (P := fun s => (Step.migrationControl regtestOutlook .root).Ends s ∧ s.currentRound = 1 ∧
      ((s.page 1).users 7).isSome = true) (by decide +kernel)
  obtain ⟨t, ht, hP⟩ := hrun
  obtain ⟨hends, hround, huser⟩ := of_decide_eq_true hP
  have hs := ht.step trivial hends.step
  refine ⟨_, hs, congrArg Nat.succ hround, huser, fun s' hrun => ?_⟩
  exact (((rounds_kept hs).2.2 1 (by simp [hround]) s').1 hrun).2

end Runs

end BifrostNode.Btc.Pool
