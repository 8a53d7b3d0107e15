import BifrostNode.Staking.NominatorSpec

/-!
# Candidates keep the books

The candidates' side of `BifrostNode/Staking/NominatorSpec.lean`: what the calls of candidates, the
payouts and the round hooks do to the ledger.  All of them keep everything; only the exit of a
candidate needs the cached totals of its lists for the total to follow, which is why `Preserves`
gives the total under that assumption.

**Rebonding.**  Bonding more, bonding less and a slash have one shape: the self-bond and the voting
power move by the same amount, and with them the reserve of the stash and the total.
-/

namespace BifrostNode.Staking

open Transition RankedList

variable {AccountId : Type} [LinearOrder AccountId]

/-! ## Self-bonds -/

section Rebond

variable {cfg : Config AccountId} {l l' : Ledger AccountId} {c : AccountId}
  {m m' : CandidateMetadata AccountId} {top bottom : Nominations AccountId}

/-- `m'` is `m` with another self-bond, and the voting power has followed. -/
structure CandidateMetadata.Rebond (m m' : CandidateMetadata AccountId) : Prop where
  stash : m'.stash = m.stash
  votingPower : m'.votingPower + m.bond = m.votingPower + m'.bond
  nominationCount : m'.nominationCount = m.nominationCount
  lowestTop : m'.lowestTopNominationAmount = m.lowestTopNominationAmount
  highestBottom : m'.highestBottomNominationAmount = m.highestBottomNominationAmount
  lowestBottom : m'.lowestBottomNominationAmount = m.lowestBottomNominationAmount
  topCapacity : m'.topCapacity = m.topCapacity
  bottomCapacity : m'.bottomCapacity = m.bottomCapacity
  request : ∀ r, m'.request = some r → r.amount < m'.bond

omit [LinearOrder AccountId] in
lemma BoardValid.rebond (h : BoardValid cfg m top bottom) (hm : m.Rebond m') :
    BoardValid cfg m' top bottom where
  tiers := h.tiers
  top_exact := h.top_exact
  lowestTop_eq := hm.lowestTop.trans h.lowestTop_eq
  highestBottom_eq := hm.highestBottom.trans h.highestBottom_eq
  lowestBottom_eq := hm.lowestBottom.trans h.lowestBottom_eq
  topCapacity_eq := hm.topCapacity.trans h.topCapacity_eq
  bottomCapacity_eq := hm.bottomCapacity.trans h.bottomCapacity_eq
  count_eq := hm.nominationCount.trans h.count_eq
  votingPower_eq := by
    have hold := h.votingPower_eq
    have hnew := hm.votingPower
    omega

/-- **A self-bond changes**, and the reserve of the stash and the total follow. -/
lemma Balanced.rebond (hc : l.candidateInfo.get c = some m)
    (hm : LedgerInv cfg l → m.Rebond m')
    (hinfo : l'.candidateInfo = l.candidateInfo.insert c m')
    (hns : l'.nominatorState = l.nominatorState) (hstash : l'.bondedStash = l.bondedStash)
    (htop : l'.topNominations = l.topNominations)
    (hbottom : l'.bottomNominations = l.bottomNominations) (hw : l'.warnings = l.warnings)
    (hres : LedgerInv cfg l → ∀ a, l'.currency.reserved a =
      l.currency.reserved a + (if a = m.stash then m'.bond - m.bond else 0) -
        (if a = m.stash then m.bond - m'.bond else 0))
    (htotal : l'.total = l.total + (m'.bond - m.bond) - (m.bond - m'.bond)) :
    Balanced cfg True True l l' := by
  refine Balanced.of_inv fun hl => ?_
  obtain ⟨top, bottom, ht, hb, hv⟩ := hl.books.board c m hc
  have hr : Rewrite l l' c m' top bottom :=
    ⟨hinfo, hstash, by rw [htop, StorageMap.insert_eq_self ht],
      by rw [hbottom, StorageMap.insert_eq_self hb]⟩
  have hport : l'.portfolio = l.portfolio := by
    funext n
    rw [Ledger.portfolio, hns, Ledger.portfolio]
  have hsettled : l.Settled l' := by
    intro a
    have hbonded := hr.selfBonded hc (hm hl).stash a
    have hreserve := hres hl a
    refine ⟨if a = m.stash then m'.bond - m.bond else 0, if a = m.stash then m.bond - m'.bond else 0,
      ?_⟩
    rw [show l'.nominated a = l.nominated a by rw [Ledger.nominated, hport, Ledger.nominated]]
    split_ifs at hbonded hreserve ⊢ <;> omega
  have htotalled : l.Totalled l' := by
    have hstaked := hr.staked hc ht hb
    exact ⟨m'.bond - m.bond, m.bond - m'.bond, by omega, by omega, by omega⟩
  refine ⟨fun _ => ⟨?_, ?_, hw ▸ hl.benign⟩, fun _ _ => hsettled.solvent, ?_,
    fun _ _ _ => htotalled.agrees, fun _ => hsettled.backed, fun _ _ => htotalled.covers⟩
  · rw [hport]
    refine hr.books hl.books hc (hv.rebond (hm hl)) (hm hl).stash (hm hl).request
      (fun _ _ _ => rfl) fun n a => ?_
    rw [hl.books.agree, Ledger.bonds_eq ht hb]
  · rw [Records, hns]
    exact hl.records
  · intro _ _ hbe
    rw [Ledger.BottomExact, hbottom]
    exact hbe

/-- `bond_more`, called on the stored metadata up to fields without stake, and what its callers
write after it. -/
lemma CandidateMetadata.bondMore_preserves {l₁ : Ledger AccountId}
    {m₀ m'' : CandidateMetadata AccountId} {more : ℕ} (hc : l.candidateInfo.get c = some m₀)
    (hm₀ : m₀.SameStake m) (h : m.bondMore l m.stash more = .ok (m', l₁)) (hsame : m'.SameStake m'')
    (hinfo : l'.candidateInfo = l₁.candidateInfo.insert c m'')
    (hns : l'.nominatorState = l₁.nominatorState) (hstash : l'.bondedStash = l₁.bondedStash)
    (htop : l'.topNominations = l₁.topNominations)
    (hbottom : l'.bottomNominations = l₁.bottomNominations) (hw : l'.warnings = l₁.warnings)
    (hres : l'.currency.reserved = l₁.currency.reserved) (htotal : l'.total = l₁.total) :
    Preserves cfg True True l l' := by
  simp only [CandidateMetadata.bondMore, bind_eq_ok, pure_eq_ok, Prod.mk.injEq] at h
  obtain ⟨currency, hcur, rfl, rfl⟩ := h
  have hbond : m''.bond = m₀.bond + more := by
    rw [hsame.bond, ← hm₀.bond]
  have h1 : m''.bond - m₀.bond = more := by omega
  have h2 : m₀.bond - m''.bond = 0 := by omega
  have hm : LedgerInv cfg l → m₀.Rebond m'' := by
    intro hl
    refine ⟨hsame.stash.trans hm₀.stash, ?_, hsame.nominationCount.trans hm₀.nominationCount,
      hsame.lowestTop.trans hm₀.lowestTop, hsame.highestBottom.trans hm₀.highestBottom,
      hsame.lowestBottom.trans hm₀.lowestBottom, hsame.topCapacity.trans hm₀.topCapacity,
      hsame.bottomCapacity.trans hm₀.bottomCapacity, ?_⟩
    · have hvp : m''.votingPower = m.votingPower + more := hsame.votingPower
      have hvp₀ := hm₀.votingPower
      omega
    · intro r hr
      rcases hsame.request r hr with h | h
      · rcases hm₀.request r h with h₀ | h₀
        · have := hl.books.request_lt c m₀ r hc h₀
          omega
        · have := hm₀.bond
          omega
      · exact h
  refine ⟨Balanced.rebond hc hm hinfo hns hstash htop hbottom hw ?_ ?_,
    fun _ => .insert hc hinfo hstash fun hlv => hsame.leaving (hm₀.leaving hlv)⟩
  · intro _ a
    rw [hres, h1, h2]
    simp [Currency.reserve_eq_ok hcur, hm₀.stash]
  · rw [htotal, h1, h2]
    rfl

end Rebond

/-! ## Calls -/

section Calls

variable {cfg : Config AccountId} {l l' : Ledger AccountId} {c stash : AccountId}
  {m : CandidateMetadata AccountId}

omit [LinearOrder AccountId] in
/-- A stash account and its controller. -/
lemma Ledger.bonded_spec (h : l.bonded stash = .ok (c, m)) :
    l.bondedStash.get stash = some c ∧ l.candidateInfo.get c = some m := by
  simp only [Ledger.bonded, bind_eq_ok, okOr_eq_ok, pure_eq_ok, Prod.mk.injEq] at h
  obtain ⟨c', hc', m', hm', rfl, rfl⟩ := h
  exact ⟨hc', hm'⟩

omit [LinearOrder AccountId] in
lemma Books.stash_of_bonded {P : AccountId → StorageMap AccountId ℕ} (hb : Books cfg l P)
    (h : l.bonded stash = .ok (c, m)) : m.stash = stash := by
  obtain ⟨hs, hc⟩ := Ledger.bonded_spec h
  obtain ⟨m', hm', rfl⟩ := (hb.stash_iff stash c).mp hs
  obtain rfl : m = m' := Option.some.inj (hc.symm.trans hm')
  rfl

lemma Ledger.candidateBondMore_preserves {more : ℕ}
    (h : l.candidateBondMore stash more = .ok l') : Preserves cfg True True l l' := by
  refine Preserves.of_inv fun hl => ?_
  simp only [Ledger.candidateBondMore, bind_eq_ok, ensure_eq_ok, pure_eq_ok, exists_const,
    Prod.exists] at h
  obtain ⟨c, m, hbd, -, m', l₁, hmore, rfl⟩ := h
  obtain ⟨-, hc⟩ := Ledger.bonded_spec hbd
  obtain rfl := hl.books.stash_of_bonded hbd
  refine CandidateMetadata.bondMore_preserves hc (Quiet.sameStake_refl m) hmore
    (Quiet.sameStake_refl m') ?_ ?_ ?_ ?_ ?_ ?_ ?_ ?_ <;> simp

/-- `execute_bond_less` gives back what it takes off the bond, and keeps the books. -/
lemma Ledger.executeCandidateBondLess_preserves {now : ℕ}
    (h : l.executeCandidateBondLess now stash = .ok l') : Preserves cfg True True l l' := by
  refine Preserves.of_inv fun hl => ?_
  simp only [Ledger.executeCandidateBondLess, CandidateMetadata.executeBondLess, bind_eq_ok,
    okOr_eq_ok, ensure_eq_ok, pure_eq_ok, exists_const, Prod.exists, Prod.mk.injEq] at h
  obtain ⟨c, m, hbd, m', l₁, ⟨r, hr, -, rfl, rfl⟩, rfl⟩ := h
  obtain ⟨-, hc⟩ := Ledger.bonded_spec hbd
  obtain rfl := hl.books.stash_of_bonded hbd
  have hlt := hl.books.request_lt c m r hc hr
  have h1 : (m.lessBond r.amount).bond - m.bond = 0 := by
    simp only [CandidateMetadata.lessBond]
    omega
  have h2 : m.bond - (m.lessBond r.amount).bond = r.amount := by
    simp only [CandidateMetadata.lessBond]
    omega
  obtain ⟨top, bottom, -, -, hv⟩ := hl.books.board c m hc
  have hm : m.Rebond (m.lessBond r.amount) := by
    refine ⟨rfl, ?_, rfl, rfl, rfl, rfl, rfl, rfl, ?_⟩
    · have hvp := hv.votingPower_eq
      simp only [CandidateMetadata.lessBond]
      omega
    · simp [CandidateMetadata.lessBond]
  refine ⟨Balanced.rebond hc (fun _ => hm) (by simp) (by simp) (by simp) (by simp) (by simp)
    (by simp) ?_ ?_, fun _ => ?_⟩
  · intro _ a
    simp [h1, h2]
  · simp [h1, h2]
  · have hleaving : m.isLeaving = false → (m.lessBond r.amount).isLeaving = false := id
    exact .insert hc (by simp) (by simp) hleaving

/-- A call that rewrites the caller's metadata without touching the stake. -/
lemma Ledger.updateCandidate_preserves
    {f : CandidateMetadata AccountId → Except Error (CandidateMetadata AccountId)}
    (hf : ∀ m m', f m = .ok m' → m.SameStake m') (h : l.updateCandidate c f = .ok l') :
    Preserves cfg True True l l' := by
  simp only [Ledger.updateCandidate, bind_eq_ok, okOr_eq_ok, pure_eq_ok] at h
  obtain ⟨m, hc, m', hm', rfl⟩ := h
  exact (Quiet.putCandidate hc (hf m m' hm')).preserves

lemma Ledger.scheduleCandidateBondLess_preserves {now less : ℕ}
    (h : l.scheduleCandidateBondLess cfg now c less = .ok l') : Preserves cfg True True l l' := by
  refine Ledger.updateCandidate_preserves (fun m m' hm => ?_) h
  simp only [CandidateMetadata.scheduleBondLess, bind_eq_ok, ensure_eq_ok, pure_eq_ok,
    exists_const] at hm
  obtain ⟨-, -, hlt, -, rfl⟩ := hm
  refine ⟨rfl, rfl, rfl, rfl, rfl, rfl, rfl, rfl, rfl, fun r hr => Or.inr ?_, fun hlv => hlv⟩
  obtain rfl := Option.some.inj hr
  exact hlt

lemma Ledger.cancelCandidateBondLess_preserves
    (h : l.cancelCandidateBondLess c = .ok l') : Preserves cfg True True l l' := by
  refine Ledger.updateCandidate_preserves (fun m m' hm => ?_) h
  simp only [CandidateMetadata.cancelBondLess, bind_eq_ok, okOr_eq_ok, pure_eq_ok] at hm
  obtain ⟨-, -, rfl⟩ := hm
  exact ⟨rfl, rfl, rfl, rfl, rfl, rfl, rfl, rfl, rfl, by simp, fun hlv => hlv⟩

lemma Ledger.setCandidateRewardDst_preserves {dst : RewardDestination}
    (h : l.setCandidateRewardDst c dst = .ok l') : Preserves cfg True True l l' := by
  refine Ledger.updateCandidate_preserves (fun m m' hm => ?_) h
  simp only [bind_eq_ok, ensure_eq_ok, pure_eq_ok, exists_const] at hm
  obtain ⟨-, rfl⟩ := hm
  exact ⟨rfl, rfl, rfl, rfl, rfl, rfl, rfl, rfl, rfl, fun r hr => Or.inl hr, fun hlv => hlv⟩

end Calls

/-! ## Joining -/

section Join

variable {cfg : Config AccountId} {l l' : Ledger AccountId} {c stash : AccountId}

omit [LinearOrder AccountId] in
/-- The board of a new candidate is empty and valid. -/
lemma BoardValid.new (cfg : Config AccountId) (full basic : Perbill) (stash : AccountId) (bond : ℕ)
    (tier : TierType) : BoardValid cfg (CandidateMetadata.new full basic stash bond tier)
      .default .default := by
  have hcap : ∀ max, 1 ≤ max → (Nominations.default : Nominations AccountId).capacity max =
      .empty := by
    intro max hmax
    rw [Nominations.capacity, if_neg (by simp [Nominations.default]; omega)]
    rfl
  exact ⟨Leaderboard.Tiers.nil, rfl, rfl, rfl, rfl, (hcap _ cfg.one_le_maxTop).symm,
    (hcap _ cfg.one_le_maxBottom).symm, rfl, rfl⟩

/-- **`join_candidates`** after its checks. -/
lemma Ledger.join_balanced {currency : Currency AccountId} {full basic : Perbill} {bond : ℕ}
    {tier : TierType} (hc : l.candidateInfo.get c = none) (hs : l.bondedStash.get stash = none)
    (hcur : l.currency.reserve stash bond = .ok currency)
    (h : ({ l with currency := currency } : Ledger AccountId).join stash c
      (.new full basic stash bond tier) = .ok l') : Balanced cfg True True l l' := by
  refine Balanced.of_inv fun hl => ?_
  simp only [Ledger.join, Ledger.tryInsertPool, bind_eq_ok, ensure_eq_ok, pure_eq_ok,
    exists_const] at h
  obtain ⟨-, ⟨-, rfl⟩, hl'⟩ := h
  have hinfo : l'.candidateInfo =
      l.candidateInfo.insert c (.new full basic stash bond tier) := by rw [← hl']
  have hstash : l'.bondedStash = l.bondedStash.insert stash c := by rw [← hl']
  have htop : l'.topNominations = l.topNominations.insert c .default := by rw [← hl']
  have hbottom : l'.bottomNominations = l.bottomNominations.insert c .default := by rw [← hl']
  have hport : l'.portfolio = l.portfolio := by
    funext n
    rw [← hl']
    rfl
  obtain ⟨hnt, hnb⟩ := hl.books.no_board c hc
  have hbonds : ∀ k, l'.bonds k = l.bonds k := by
    intro k
    by_cases hk : k = c
    · subst hk
      simp [Ledger.bonds, htop, hbottom, hnt, hnb, Nominations.default]
    · simp [Ledger.bonds, htop, hbottom, hk]
  have hsettled : l.Settled l' := by
    intro a
    have hbonded : l'.selfBonded a = l.selfBonded a + if a = stash then bond else 0 := by
      rw [Ledger.selfBonded, hinfo, StorageMap.sum_insert_of_none _ _ hc, ← Ledger.selfBonded]
      simp only [CandidateMetadata.new, eq_comm (b := a)]
    have hres : l'.currency.reserved a = l.currency.reserved a + if a = stash then bond else 0 := by
      rw [← hl']
      exact Currency.reserve_eq_ok hcur a
    refine ⟨if a = stash then bond else 0, 0, Nat.zero_le _, hres, ?_⟩
    rw [hbonded, Ledger.nominated, hport, ← Ledger.nominated]
    omega
  have htotalled : l.Totalled l' := by
    have hstaked : l'.staked = l.staked + bond := by
      have hsame : l'.candidateInfo.sum l'.backing = l'.candidateInfo.sum l.backing := by
        refine StorageMap.sum_congr fun k m _ => ?_
        rw [Ledger.backing, hbonds, Ledger.backing]
      rw [Ledger.staked, hsame, hinfo, StorageMap.sum_insert_of_none _ _ hc]
      simp [Ledger.staked, Ledger.backing, Ledger.bonds, hnt, hnb, CandidateMetadata.new]
    refine ⟨bond, 0, Nat.zero_le _, ?_, hstaked⟩
    rw [← hl']
    rfl
  refine ⟨fun _ => ⟨⟨?_, ?_, ?_, ?_, ?_⟩, ?_, ?_⟩, fun _ _ => hsettled.solvent, ?_,
    fun _ _ _ => htotalled.agrees, fun _ => hsettled.backed, fun _ _ => htotalled.covers⟩
  · intro k m hk
    rw [hinfo, StorageMap.get_insert] at hk
    split_ifs at hk with hkc
    · obtain rfl := Option.some.inj hk
      exact ⟨_, _, by simp [htop, hkc], by simp [hbottom, hkc], BoardValid.new cfg _ _ _ _ _⟩
    · simpa only [htop, hbottom, StorageMap.get_insert_of_ne _ hkc] using hl.books.board k m hk
  · intro k hk
    rw [hinfo, StorageMap.get_insert] at hk
    split_ifs at hk with hkc
    simpa only [htop, hbottom, StorageMap.get_insert_of_ne _ hkc] using hl.books.no_board k hk
  · intro s k
    rw [hstash, hinfo, StorageMap.get_insert, StorageMap.get_insert]
    have hold := hl.books.stash_iff s k
    by_cases hss : s = stash
    · subst hss
      by_cases hkc : k = c
      · simp [hkc, CandidateMetadata.new]
      · simp only [hs, reduceCtorEq, false_iff] at hold
        simp only [if_true, hkc, if_false, Option.some.injEq, hold, iff_false]
        exact fun h => hkc h.symm
    · by_cases hkc : k = c
      · have hne : stash ≠ s := fun h => hss h.symm
        simp only [hkc, hc, reduceCtorEq, false_and, exists_false, iff_false] at hold
        simp [hss, hkc, hold, CandidateMetadata.new, hne]
      · simp only [hss, hkc, if_false]
        exact hold
  · intro k m r hk hr
    rw [hinfo, StorageMap.get_insert] at hk
    split_ifs at hk
    · obtain rfl := Option.some.inj hk
      simp [CandidateMetadata.new] at hr
    · exact hl.books.request_lt k m r hk hr
  · intro n k a
    rw [hport, hbonds]
    exact hl.books.agree n k a
  · rw [Records, ← hl']
    exact hl.records
  · rw [← hl']
    exact hl.benign
  · intro _ _ hbe k bottom hk
    rw [hbottom, StorageMap.get_insert] at hk
    split_ifs at hk
    · obtain rfl := Option.some.inj hk
      rfl
    · exact hbe k bottom hk

end Join

/-! ## Leaving -/

section Leave

variable {cfg : Config AccountId} {l l₁ l₂ l' : Ledger AccountId} {c stash : AccountId}

/-- What an account owns of a list of bonds. -/
def owned (bonds : List (Bond AccountId)) (a : AccountId) : ℕ :=
  (bonds.map fun x => if a = x.owner then x.amount else 0).sum

/-- **Returned stake.**  The nominations `bonds` on `c` have gone from the records of their owners,
and their amounts are unreserved. -/
structure Returned (cfg : Config AccountId) (l l' : Ledger AccountId) (c : AccountId)
    (bonds : List (Bond AccountId)) : Prop where
  records : Records cfg l'
  portfolio : ∀ n j, (l'.portfolio n).get j =
    if j = c ∧ n ∈ bonds.map Bond.owner then none else (l.portfolio n).get j
  nominated : ∀ a, l'.nominated a + owned bonds a = l.nominated a
  reserved : ∀ a, l'.currency.reserved a = l.currency.reserved a - owned bonds a

omit [LinearOrder AccountId] in
/-- A record whose total is exhausted by one nomination has no other one. -/
lemma Nominator.Valid.remove_eq_empty [DecidableEq AccountId] {st : Nominator AccountId}
    {n : AccountId} {b : ℕ} (h : st.Valid cfg n) (hb : st.nominations.get c = some b)
    (hzero : st.total - b = 0) : st.nominations.remove c = ∅ := by
  have hsum := StorageMap.sum_remove_of_some (fun _ x => x) hb
  have htotal := h.total_eq
  have hrest : (st.nominations.remove c).sum (fun _ x => x) = 0 := by omega
  ext1 k
  cases hk : (st.nominations.remove c).get k with
  | none => rfl
  | some x =>
      have hx : x = 0 := StorageMap.eq_zero_of_sum_eq_zero hrest hk
      rw [StorageMap.get_remove] at hk
      split_ifs at hk
      have hmin := h.min_le k x hk
      have hone := cfg.one_le_minNomination
      omega

/-- One call of `return_stake` gives one nominator its stake back. -/
lemma Ledger.returnStake_spec {x : Bond AccountId} (hrec : Records cfg l)
    (hx : (l.portfolio x.owner).get c = some x.amount) (h : returnStake c l x = .ok l') :
    Returned cfg l l' c [x] := by
  simp only [Ledger.returnStake, bind_eq_ok, okOr_eq_ok] at h
  obtain ⟨st, hst, h⟩ := h
  rw [Ledger.portfolio_of_some hst] at hx
  have hvalid := hrec _ st hst
  have hl' : l' = { l with
      currency := l.currency.unreserve x.owner x.amount
      nominatorState :=
        if st.total - x.amount = 0 then l.nominatorState.remove x.owner
        else l.nominatorState.insert x.owner (st.dropNomination c) } := by
    simp only [Nominator.rmNomination, hx, Option.map_some] at h
    split_ifs at h ⊢
    · exact (Except.ok.inj h).symm
    · exact (Except.ok.inj h).symm
  have hns : l'.nominatorState =
      if st.total - x.amount = 0 then l.nominatorState.remove x.owner
      else l.nominatorState.insert x.owner (st.dropNomination c) := by
    rw [hl']
  obtain ⟨hrec', hport⟩ := hrec.drop hst (hvalid.remove_eq_empty hx) hns
    (hvalid.dropNomination hx) (Nominator.Valid.dropNomination_nominations hx).1
  refine ⟨hrec', ?_, ?_, ?_⟩
  · intro n j
    rw [hport]
    by_cases hn : n = x.owner
    · subst hn
      simp [StorageMap.get_remove]
    · simp [hn]
  · intro a
    rw [← Ledger.portfolio_of_some hst] at hx
    simpa [owned] using Ledger.nominated_remove hx hport a
  · intro a
    rw [hl']
    simp [owned]

lemma Returned.nil (hrec : Records cfg l) : Returned cfg l l c [] :=
  ⟨hrec, by simp, by simp [owned], by simp [owned]⟩

lemma Returned.trans {xs ys : List (Bond AccountId)} (h₁ : Returned cfg l l₁ c xs)
    (h₂ : Returned cfg l₁ l₂ c ys) : Returned cfg l l₂ c (xs ++ ys) where
  records := h₂.records
  portfolio n j := by
    simp only [h₂.portfolio, h₁.portfolio, List.map_append, List.mem_append]
    by_cases hx : n ∈ xs.map Bond.owner
    · by_cases hj : j = c <;> simp only [hx, hj, true_and, true_or, false_and, if_true, if_false,
        ite_self]
    · simp only [hx, false_or, and_false, if_false]
  nominated a := by
    have h1 := h₁.nominated a
    have h2 := h₂.nominated a
    have hown : owned (xs ++ ys) a = owned xs a + owned ys a := by simp [owned]
    omega
  reserved a := by
    have h1 := h₁.reserved a
    have h2 := h₂.reserved a
    have hown : owned (xs ++ ys) a = owned xs a + owned ys a := by simp [owned]
    omega

/-- **The loops of `execute_leave_candidates`** give every nominator its bond back, and touch no other one. -/
lemma Ledger.returnAll_spec : ∀ {bonds : List (Bond AccountId)} {l l' : Ledger AccountId},
    Records cfg l → (bonds.map Bond.owner).Nodup →
    (∀ x ∈ bonds, (l.portfolio x.owner).get c = some x.amount) →
    bonds.foldlM (returnStake c) l = .ok l' → Returned cfg l l' c bonds
  | [], l, l', hrec, _, _, h => by
      obtain rfl : l = l' := by simpa using h
      exact Returned.nil hrec
  | x :: bonds, l, l', hrec, hnodup, hx, h => by
      simp only [List.foldlM_cons, bind_eq_ok] at h
      obtain ⟨l₁, h₁, h⟩ := h
      have hhead := Ledger.returnStake_spec hrec (hx x (by simp)) h₁
      rw [List.map_cons, List.nodup_cons] at hnodup
      refine hhead.trans (Ledger.returnAll_spec hhead.records hnodup.2 ?_ h)
      intro y hy
      have hne : y.owner ≠ x.owner := by
        intro heq
        have hmem := List.mem_map_of_mem (f := Bond.owner) hy
        exact hnodup.1 (heq ▸ hmem)
      rw [hhead.portfolio, if_neg (by simp [hne]), hx y (by simp [hy])]

/-- The loops touch the balances and the records of nominators only. -/
lemma Ledger.returnAll_frame : ∀ {bonds : List (Bond AccountId)} {l l' : Ledger AccountId},
    bonds.foldlM (returnStake c) l = .ok l' →
    l' = { l with currency := l'.currency, nominatorState := l'.nominatorState }
  | [], l, l', h => by
      obtain rfl : l = l' := by simpa using h
      rfl
  | x :: bonds, l, l', h => by
      simp only [List.foldlM_cons, bind_eq_ok] at h
      obtain ⟨l₁, h₁, h⟩ := h
      have hfirst : l₁ = { l with
          currency := l₁.currency, nominatorState := l₁.nominatorState } := by
        simp only [Ledger.returnStake, bind_eq_ok, okOr_eq_ok] at h₁
        obtain ⟨st, -, h₁⟩ := h₁
        split at h₁
        · obtain rfl := Except.ok.inj h₁
          rfl
        · split_ifs at h₁
          · obtain rfl := Except.ok.inj h₁
            rfl
          · obtain rfl := Except.ok.inj h₁
            rfl
      rw [Ledger.returnAll_frame h, hfirst]

/-- Which candidates are left. -/
lemma Ledger.executeLeave_frame {m : CandidateMetadata AccountId}
    (h : l.executeLeave stash c m = .ok l') :
    l'.candidateInfo = l.candidateInfo.remove c ∧ l'.bondedStash = l.bondedStash.remove stash ∧
      l'.candidatePool = l.candidatePool := by
  simp only [Ledger.executeLeave, bind_eq_ok, okOr_eq_ok, pure_eq_ok] at h
  obtain ⟨top, -, l₁, h₁, bottom, -, l₂, h₂, rfl⟩ := h
  rw [Ledger.returnAll_frame h₂, Ledger.returnAll_frame h₁]
  exact ⟨rfl, rfl, rfl⟩

/-- **A candidate leaves.**  What the ledger `l` knows of the candidate, and the ledger `l'` afterwards. -/
structure Departure (cfg : Config AccountId) (l l' : Ledger AccountId) (c : AccountId)
    (m : CandidateMetadata AccountId) (top bottom : Nominations AccountId) : Prop where
  inv : LedgerInv cfg l
  info : l.candidateInfo.get c = some m
  stash : l.bondedStash.get m.stash = some c
  topList : l.topNominations.get c = some top
  bottomList : l.bottomNominations.get c = some bottom
  info_eq : l'.candidateInfo = l.candidateInfo.remove c
  stash_eq : l'.bondedStash = l.bondedStash.remove m.stash
  top_eq : l'.topNominations = l.topNominations.remove c
  bottom_eq : l'.bottomNominations = l.bottomNominations.remove c
  total_eq : l'.total = l.total - (m.bond + top.total + bottom.total)
  warnings_eq : l'.warnings = l.warnings
  records : Records cfg l'
  portfolio : ∀ n j, (l'.portfolio n).get j =
    if j = c ∧ n ∈ (top.nominations ++ bottom.nominations).map Bond.owner then none
    else (l.portfolio n).get j
  nominated : ∀ a, l'.nominated a + owned (top.nominations ++ bottom.nominations) a = l.nominated a
  reserved : ∀ a, l'.currency.reserved a = l.currency.reserved a -
    owned (top.nominations ++ bottom.nominations) a - if a = m.stash then m.bond else 0

/-- `execute_leave_candidates` is a departure: the bonds of the top list go back, then those of the bottom
list. -/
lemma Ledger.executeLeave_departure {m : CandidateMetadata AccountId} (hl : LedgerInv cfg l)
    (hbd : l.bonded stash = .ok (c, m)) (h : l.executeLeave stash c m = .ok l') :
    ∃ top bottom, Departure cfg l l' c m top bottom := by
  obtain ⟨hsc, hc⟩ := Ledger.bonded_spec hbd
  obtain rfl := hl.books.stash_of_bonded hbd
  obtain ⟨top, bottom, htop, hbottom, hv⟩ := hl.books.board c m hc
  simp only [Ledger.executeLeave, htop, okOr_some, ok_bind, bind_eq_ok, okOr_eq_ok,
    pure_eq_ok] at h
  obtain ⟨l₁, h₁, bottom₁, hbottom₁, l₂, h₂, hl'⟩ := h
  have hf₁ := Ledger.returnAll_frame h₁
  have hf₂ := Ledger.returnAll_frame h₂
  obtain rfl : bottom = bottom₁ := by
    rw [hf₁] at hbottom₁
    exact Option.some.inj (hbottom.symm.trans hbottom₁)
  have hmem : ∀ x ∈ top.nominations ++ bottom.nominations,
      (l.portfolio x.owner).get c = some x.amount := by
    intro x hx
    rw [hl.books.agree, Ledger.bonds_eq htop hbottom]
    exact hx
  have hr₁ : Returned cfg l l₁ c top.nominations := by
    have hrec : Records cfg { l with topNominations := l.topNominations.remove c } := hl.records
    have hr := Ledger.returnAll_spec hrec hv.tiers.nodup_top
      (fun x hx => hmem x (List.mem_append_left _ hx)) h₁
    exact ⟨hr.records, hr.portfolio, hr.nominated, hr.reserved⟩
  have hr₂ : Returned cfg l₁ l₂ c bottom.nominations := by
    have hrec : Records cfg { l₁ with bottomNominations := l₁.bottomNominations.remove c } :=
      hr₁.records
    have hleft : ∀ x ∈ bottom.nominations, (l₁.portfolio x.owner).get c = some x.amount := by
      intro x hx
      rw [hr₁.portfolio, if_neg, hmem x (List.mem_append_right _ hx)]
      rintro ⟨-, hin⟩
      obtain ⟨y, hy, hyx⟩ := List.mem_map.mp hin
      exact hv.tiers.owner_ne hy hx hyx
    have hr := Ledger.returnAll_spec hrec hv.tiers.nodup_bottom hleft h₂
    exact ⟨hr.records, hr.portfolio, hr.nominated, hr.reserved⟩
  have hr := hr₁.trans hr₂
  refine ⟨top, bottom, {
    inv := hl
    info := hc
    stash := hsc
    topList := htop
    bottomList := hbottom
    info_eq := by rw [← hl', hf₂, hf₁]
    stash_eq := by rw [← hl', hf₂, hf₁]
    top_eq := by
      rw [← hl', hf₂, hf₁]
      exact StorageMap.remove_of_get_none (StorageMap.get_remove_self _ c)
    bottom_eq := by
      rw [← hl', hf₂, hf₁]
      exact StorageMap.remove_of_get_none (StorageMap.get_remove_self _ c)
    total_eq := by rw [← hl', hf₂, hf₁]
    warnings_eq := by rw [← hl', hf₂, hf₁]
    records := ?_
    portfolio := ?_
    nominated := ?_
    reserved := ?_ }⟩
  · rw [Records, ← hl']
    exact hr.records
  · rw [← hl']
    exact hr.portfolio
  · rw [← hl']
    exact hr.nominated
  · intro a
    rw [← hl', ← hr.reserved a]
    simp

namespace Departure

variable {m : CandidateMetadata AccountId} {top bottom : Nominations AccountId}

lemma bonds_self (h : Departure cfg l l' c m top bottom) : l'.bonds c = [] := by
  simp [Ledger.bonds, h.top_eq, h.bottom_eq]

lemma bonds_ne (h : Departure cfg l l' c m top bottom) {k : AccountId} (hk : k ≠ c) :
    l'.bonds k = l.bonds k := by
  simp [Ledger.bonds, h.top_eq, h.bottom_eq, hk]

/-- Every account gets back exactly what it had staked with the candidate. -/
lemma settled (h : Departure cfg l l' c m top bottom) : l.Settled l' := by
  intro a
  have hnominated := h.nominated a
  have hreserved := h.reserved a
  have hbonded := StorageMap.sum_remove_of_some
    (fun _ (x : CandidateMetadata AccountId) => if x.stash = a then x.bond else 0) h.info
  rw [← h.info_eq, ← Ledger.selfBonded, ← Ledger.selfBonded] at hbonded
  simp only [eq_comm (b := a)] at hbonded
  exact ⟨0, owned (top.nominations ++ bottom.nominations) a + if a = m.stash then m.bond else 0,
    by omega, by omega, by omega⟩

/-- The cached totals of the two lists are what goes from the total. -/
lemma totalled (h : Departure cfg l l' c m top bottom) (hbe : l.BottomExact) : l.Totalled l' := by
  obtain ⟨top₀, bottom₀, ht₀, -, hv⟩ := h.inv.books.board c m h.info
  obtain rfl : top = top₀ := Option.some.inj (h.topList.symm.trans ht₀)
  have hstaked := StorageMap.sum_remove_congr (g := l'.backing) (f := l.backing) h.info
    fun k x hk => by rw [Ledger.backing, Ledger.backing, h.bonds_ne hk]
  rw [← h.info_eq, ← Ledger.staked, ← Ledger.staked, Ledger.backing,
    Ledger.bonds_eq h.topList h.bottomList, List.map_append, List.sum_append] at hstaked
  have htop : top.total = (top.nominations.map Bond.amount).sum := hv.top_exact
  have hbottom : bottom.total = (bottom.nominations.map Bond.amount).sum :=
    hbe c bottom h.bottomList
  have htotal := h.total_eq
  exact ⟨0, m.bond + top.total + bottom.total, by omega, by omega, by omega⟩

/-- The boards of the others stay. -/
lemma board (h : Departure cfg l l' c m top bottom) {k : AccountId} {mk : CandidateMetadata AccountId}
    (hk : l'.candidateInfo.get k = some mk) : ∃ top bottom,
    l'.topNominations.get k = some top ∧ l'.bottomNominations.get k = some bottom ∧
      BoardValid cfg mk top bottom := by
  rw [h.info_eq, StorageMap.get_remove] at hk
  split_ifs at hk with hkc
  simpa only [h.top_eq, h.bottom_eq, StorageMap.get_remove_of_ne _ hkc] using
    h.inv.books.board k mk hk

lemma no_board (h : Departure cfg l l' c m top bottom) {k : AccountId}
    (hk : l'.candidateInfo.get k = none) :
    l'.topNominations.get k = none ∧ l'.bottomNominations.get k = none := by
  rw [h.info_eq, StorageMap.get_remove] at hk
  by_cases hkc : k = c
  · simp [h.top_eq, h.bottom_eq, hkc]
  · rw [if_neg hkc] at hk
    simpa only [h.top_eq, h.bottom_eq, StorageMap.get_remove_of_ne _ hkc] using
      h.inv.books.no_board k hk

/-- The stash account and its controller go together. -/
lemma stash_iff (h : Departure cfg l l' c m top bottom) (s k : AccountId) :
    l'.bondedStash.get s = some k ↔ ∃ mk, l'.candidateInfo.get k = some mk ∧ mk.stash = s := by
  rw [h.stash_eq, h.info_eq, StorageMap.get_remove, StorageMap.get_remove]
  have hold := h.inv.books.stash_iff s k
  by_cases hkc : k = c
  · subst hkc
    by_cases hs : s = m.stash
    · simp [hs]
    · have hne : l.bondedStash.get s ≠ some k := by
        intro hsk
        obtain ⟨mk, hmk, hmks⟩ := hold.mp hsk
        rw [h.info] at hmk
        exact hs (by rw [← hmks, ← Option.some.inj hmk])
      simp [hs, hne]
  · by_cases hs : s = m.stash
    · subst hs
      rw [h.stash] at hold
      simp only [if_true, hkc, if_false, reduceCtorEq, false_iff]
      rw [← hold]
      exact fun hck => hkc (Option.some.inj hck).symm
    · simp only [hs, hkc, if_false]
      exact hold

lemma request_lt (h : Departure cfg l l' c m top bottom) {k : AccountId}
    {mk : CandidateMetadata AccountId} {r : CandidateBondLessRequest} (hk : l'.candidateInfo.get k = some mk)
    (hr : mk.request = some r) : r.amount < mk.bond := by
  rw [h.info_eq, StorageMap.get_remove] at hk
  split_ifs at hk
  exact h.inv.books.request_lt k mk r hk hr

/-- Nobody's portfolio shows the candidate any more, and its boards are gone. -/
lemma agree (h : Departure cfg l l' c m top bottom) (n k : AccountId) (a : ℕ) :
    (l'.portfolio n).get k = some a ↔ (⟨n, a⟩ : Bond AccountId) ∈ l'.bonds k := by
  rw [h.portfolio]
  by_cases hkc : k = c
  · subst hkc
    rw [h.bonds_self]
    by_cases hn : n ∈ (top.nominations ++ bottom.nominations).map Bond.owner
    · simp only [hn, and_self, if_true, reduceCtorEq, List.not_mem_nil]
    · simp only [hn, and_false, if_false, List.not_mem_nil, iff_false]
      rw [h.inv.books.agree, Ledger.bonds_eq h.topList h.bottomList]
      exact fun hin => hn (List.mem_map_of_mem hin)
  · rw [if_neg (by simp [hkc]), h.inv.books.agree, h.bonds_ne hkc]

lemma bottomExact (h : Departure cfg l l' c m top bottom) (hbe : l.BottomExact) : l'.BottomExact := by
  intro k b hk
  rw [h.bottom_eq, StorageMap.get_remove] at hk
  split_ifs at hk
  exact hbe k b hk

/-- A departure keeps the invariant. -/
lemma ledgerInv (h : Departure cfg l l' c m top bottom) : LedgerInv cfg l' where
  books :=
    { board := fun _ _ => h.board
      no_board := fun _ => h.no_board
      stash_iff := h.stash_iff
      request_lt := fun _ _ _ => h.request_lt
      agree := h.agree }
  records := h.records
  benign := h.warnings_eq ▸ h.inv.benign

end Departure

/-- **`execute_leave_candidates`** on the ledger.  The cached totals of the lists are what goes from
the total, so the total follows as far as they are right. -/
lemma Ledger.executeLeave_balanced {m : CandidateMetadata AccountId}
    (hbd : l.bonded stash = .ok (c, m)) (h : l.executeLeave stash c m = .ok l') :
    Balanced cfg True True l l' := by
  refine Balanced.of_inv fun hl => ?_
  obtain ⟨top, bottom, hleft⟩ := Ledger.executeLeave_departure hl hbd h
  exact {
    inv := fun _ => hleft.ledgerInv
    solvent := fun _ _ => hleft.settled.solvent
    bottomExact := fun _ _ => hleft.bottomExact
    total := fun _ _ hbe => (hleft.totalled hbe).agrees
    backed := fun _ => hleft.settled.backed
    covers := fun _ hbe => (hleft.totalled hbe).covers }

end Leave

/-! ## Changing the controller -/

section Rename

variable {cfg : Config AccountId} {l l' : Ledger AccountId} {old new : AccountId}

/-- The record of a nominator after a candidate has been renamed. -/
def Nominator.renamed (st : Nominator AccountId) (old new : AccountId) : Nominator AccountId :=
  (st.replaceNominations old new).replaceRequests old new

/-- `replace_nominator_nominations` renames in the records of the given accounts, and does nothing
else. -/
lemma Ledger.replaceNominatorNominations_spec (old new : AccountId) :
    ∀ {ns : List AccountId} (l : Ledger AccountId), ns.Nodup →
    l.replaceNominatorNominations ns old new =
      { l with
        nominatorState := (l.replaceNominatorNominations ns old new).nominatorState } ∧
    ∀ k, (l.replaceNominatorNominations ns old new).nominatorState.get k =
      if k ∈ ns then (l.nominatorState.get k).map fun st => st.renamed old new
      else l.nominatorState.get k
  | [], l, _ => by simp [Ledger.replaceNominatorNominations]
  | n :: ns, l, hnodup => by
      rw [List.nodup_cons] at hnodup
      cases hn : l.nominatorState.get n with
      | none =>
          have hstep : l.replaceNominatorNominations (n :: ns) old new =
              l.replaceNominatorNominations ns old new := by
            simp only [Ledger.replaceNominatorNominations, List.foldl_cons, hn]
          obtain ⟨hframe, hget⟩ := Ledger.replaceNominatorNominations_spec old new l hnodup.2
          rw [hstep]
          refine ⟨hframe, fun k => ?_⟩
          rw [hget]
          by_cases hk : k = n
          · subst hk
            simp [hnodup.1, hn]
          · simp only [List.mem_cons, hk, false_or]
      | some st =>
          have hstep : l.replaceNominatorNominations (n :: ns) old new =
              ({ l with nominatorState := l.nominatorState.insert n (st.renamed old new) } :
                Ledger AccountId).replaceNominatorNominations ns old new := by
            simp only [Ledger.replaceNominatorNominations, List.foldl_cons, hn, Nominator.renamed]
          obtain ⟨hframe, hget⟩ := Ledger.replaceNominatorNominations_spec old new
            { l with nominatorState := l.nominatorState.insert n (st.renamed old new) } hnodup.2
          rw [hstep]
          refine ⟨?_, fun k => ?_⟩
          · rw [hframe]
          · rw [hget]
            by_cases hk : k = n
            · subst hk
              simp [hnodup.1, hn]
            · simp only [List.mem_cons, hk, false_or, StorageMap.get_insert_of_ne _ hk]

/-- **The ledger after a controller change**, field by field. -/
structure Renamed (l l' : Ledger AccountId) (stash old new : AccountId)
    (m : CandidateMetadata AccountId) (top bottom : Nominations AccountId) : Prop where
  info_eq : l'.candidateInfo = (l.candidateInfo.remove old).insert new m
  stash_eq : l'.bondedStash = l.bondedStash.insert stash new
  top_eq : l'.topNominations = (l.topNominations.remove old).insert new top
  bottom_eq : l'.bottomNominations = (l.bottomNominations.remove old).insert new bottom
  nominator_eq : ∀ k, l'.nominatorState.get k =
    if k ∈ (top.nominations ++ bottom.nominations).map Bond.owner then
      (l.nominatorState.get k).map fun st => st.renamed old new
    else l.nominatorState.get k
  currency_eq : l'.currency = l.currency
  total_eq : l'.total = l.total
  warnings_eq : l'.warnings = l.warnings

lemma Ledger.replaceController_spec {c : DelayedControllerSet AccountId}
    {m : CandidateMetadata AccountId} {top bottom : Nominations AccountId}
    (htop : l.topNominations.get c.old = some top)
    (hbottom : l.bottomNominations.get c.old = some bottom)
    (hnodup : ((top.nominations ++ bottom.nominations).map Bond.owner).Nodup) :
    Renamed l (l.replaceController c m) c.stash c.old c.new m top bottom := by
  rw [List.map_append] at hnodup
  obtain ⟨hnt, hnb, hdisj⟩ := List.nodup_append.mp hnodup
  let l₀ : Ledger AccountId := { l with
    candidateInfo := (l.candidateInfo.remove c.old).insert c.new m
    bondedStash := l.bondedStash.insert c.stash c.new
    candidatePool := l.candidatePool.moveKey c.old c.new id }
  let l₁ : Ledger AccountId := l₀.replaceNominatorNominations top.nominators c.old c.new
  let l₂ : Ledger AccountId :=
    { l₁ with topNominations := (l₁.topNominations.remove c.old).insert c.new top }
  let l₃ : Ledger AccountId := l₂.replaceNominatorNominations bottom.nominators c.old c.new
  obtain ⟨hf₁, hg₁⟩ := Ledger.replaceNominatorNominations_spec c.old c.new l₀ hnt
  obtain ⟨hf₃, hg₃⟩ := Ledger.replaceNominatorNominations_spec c.old c.new l₂ hnb
  have hbot₂ : l₂.bottomNominations.get c.old = some bottom := by
    rw [← hbottom]
    exact congrArg (fun x => x.bottomNominations.get c.old) hf₁
  have heq : l.replaceController c m = { l₃ with
      bottomNominations := (l₃.bottomNominations.remove c.old).insert c.new bottom } := by
    simp only [Ledger.replaceController, htop]
    split
    · next hnone =>
        cases hbot₂.symm.trans hnone
    · next bottom' hsome =>
        obtain rfl : bottom = bottom' := Option.some.inj (hbot₂.symm.trans hsome)
        rfl
  rw [heq]
  refine ⟨?_, ?_, ?_, ?_, ?_, ?_, ?_, ?_⟩
  · exact (congrArg (·.candidateInfo) hf₃).trans (congrArg (·.candidateInfo) hf₁)
  · exact (congrArg (·.bondedStash) hf₃).trans (congrArg (·.bondedStash) hf₁)
  · refine (congrArg (·.topNominations) hf₃).trans ?_
    exact congrArg (fun x => (x.topNominations.remove c.old).insert c.new top) hf₁
  · exact congrArg (fun x => (StorageMap.remove x c.old).insert c.new bottom)
      ((congrArg (·.bottomNominations) hf₃).trans (congrArg (·.bottomNominations) hf₁))
  · intro k
    have h₁ : l₂.nominatorState.get k =
        if k ∈ top.nominations.map Bond.owner then
          (l.nominatorState.get k).map fun st => st.renamed c.old c.new
        else l.nominatorState.get k := hg₁ k
    refine (hg₃ k).trans ?_
    rw [h₁, List.map_append]
    simp only [List.mem_append]
    by_cases hkt : k ∈ top.nominations.map Bond.owner
    · have hkb : k ∉ bottom.nominations.map Bond.owner := fun h => hdisj k hkt k h rfl
      rw [if_neg hkb, if_pos hkt, if_pos (Or.inl hkt)]
    · by_cases hkb : k ∈ bottom.nominations.map Bond.owner
      · rw [if_pos hkb, if_neg hkt, if_pos (Or.inr hkb)]
      · rw [if_neg hkb, if_neg hkt, if_neg (not_or.mpr ⟨hkt, hkb⟩)]
  · exact (congrArg (·.currency) hf₃).trans (congrArg (·.currency) hf₁)
  · exact (congrArg (·.total) hf₃).trans (congrArg (·.total) hf₁)
  · exact (congrArg (·.warnings) hf₃).trans (congrArg (·.warnings) hf₁)

/-- **A controller change between two ledgers.**  The books of `l` are in order, and the new account is not a
candidate. -/
structure ControllerChange (cfg : Config AccountId) (l l' : Ledger AccountId) (stash old new : AccountId)
    (m : CandidateMetadata AccountId) (top bottom : Nominations AccountId) : Prop
    extends Renamed l l' stash old new m top bottom where
  inv : LedgerInv cfg l
  info_old : l.candidateInfo.get old = some m
  info_new : l.candidateInfo.get new = none
  stash_old : m.stash = stash
  top_old : l.topNominations.get old = some top
  bottom_old : l.bottomNominations.get old = some bottom

namespace ControllerChange

variable {stash : AccountId} {m : CandidateMetadata AccountId} {top bottom : Nominations AccountId}

lemma ne (h : ControllerChange cfg l l' stash old new m top bottom) : new ≠ old := by
  rintro rfl
  have hnone := h.info_new
  rw [h.info_old] at hnone
  cases hnone

/-- Nobody nominates the new account yet. -/
lemma portfolio_new (h : ControllerChange cfg l l' stash old new m top bottom) (n : AccountId) :
    (l.portfolio n).get new = none := by
  obtain ⟨htop, hbottom⟩ := h.inv.books.no_board new h.info_new
  cases hn : (l.portfolio n).get new with
  | none => rfl
  | some a =>
      rw [h.inv.books.agree] at hn
      simp [Ledger.bonds, htop, hbottom] at hn

/-- Every portfolio is renamed, also those that do not hold the candidate. -/
lemma portfolio_eq (h : ControllerChange cfg l l' stash old new m top bottom) (n : AccountId) :
    l'.portfolio n = (l.portfolio n).moveKey old new fun a => a := by
  rw [Ledger.portfolio, h.nominator_eq, Ledger.portfolio]
  by_cases hn : n ∈ (top.nominations ++ bottom.nominations).map Bond.owner
  · rw [if_pos hn]
    cases l.nominatorState.get n <;> rfl
  · rw [if_neg hn, ← Ledger.portfolio]
    cases hg : (l.portfolio n).get old with
    | none => simp only [StorageMap.moveKey, hg]
    | some a =>
        rw [h.inv.books.agree, Ledger.bonds_eq h.top_old h.bottom_old] at hg
        exact absurd (List.mem_map_of_mem hg) hn

lemma get_portfolio (h : ControllerChange cfg l l' stash old new m top bottom) (n k : AccountId) :
    (l'.portfolio n).get k =
      if k = new then (l.portfolio n).get old else if k = old then none
      else (l.portfolio n).get k := by
  rw [h.portfolio_eq, StorageMap.get_moveKey old (fun a => a) (h.portfolio_new n)]
  simp

lemma bonds_new (h : ControllerChange cfg l l' stash old new m top bottom) :
    l'.bonds new = l.bonds old := by
  rw [Ledger.bonds_eq h.top_old h.bottom_old]
  simp [Ledger.bonds, h.top_eq, h.bottom_eq]

lemma bonds_old (h : ControllerChange cfg l l' stash old new m top bottom) : l'.bonds old = [] := by
  simp [Ledger.bonds, h.top_eq, h.bottom_eq, h.ne.symm]

lemma bonds_ne (h : ControllerChange cfg l l' stash old new m top bottom) {k : AccountId}
    (hkn : k ≠ new) (hko : k ≠ old) : l'.bonds k = l.bonds k := by
  simp [Ledger.bonds, h.top_eq, h.bottom_eq, hkn, hko]

/-- Nobody's stake changes. -/
lemma settled (h : ControllerChange cfg l l' stash old new m top bottom) : l.Settled l' := by
  intro a
  have hnominated : l'.nominated a = l.nominated a := by
    rw [Ledger.nominated, h.portfolio_eq]
    exact StorageMap.sum_moveKey (fun x => x) (h.portfolio_new a) fun _ => rfl
  have hbonded : l'.selfBonded a = l.selfBonded a := by
    have hmove : l'.candidateInfo = l.candidateInfo.moveKey old new id := by
      simp only [h.info_eq, StorageMap.moveKey, h.info_old, id]
    rw [Ledger.selfBonded, hmove]
    exact StorageMap.sum_moveKey
      (fun x : CandidateMetadata AccountId => if x.stash = a then x.bond else 0) h.info_new
      fun _ => rfl
  refine ⟨0, 0, Nat.zero_le _, ?_, ?_⟩
  · rw [h.currency_eq]
    rfl
  · rw [hnominated, hbonded]

/-- The stake behind the candidates only changes its name. -/
lemma totalled (h : ControllerChange cfg l l' stash old new m top bottom) : l.Totalled l' := by
  have htotal := h.total_eq
  have hfresh : (l.candidateInfo.remove old).get new = none := by
    rw [StorageMap.get_remove_of_ne _ h.ne, h.info_new]
  have hrest : (l.candidateInfo.remove old).sum l'.backing =
      (l.candidateInfo.remove old).sum l.backing := by
    refine StorageMap.sum_congr fun k mk hk => ?_
    have hkn : k ≠ new := by
      rintro rfl
      rw [hfresh] at hk
      cases hk
    have hko : k ≠ old := by
      rintro rfl
      simp at hk
    rw [Ledger.backing, Ledger.backing, h.bonds_ne hkn hko]
  have hsum := StorageMap.sum_remove_of_some l.backing h.info_old
  have hstaked : l'.staked = l.staked := by
    rw [Ledger.staked, h.info_eq, StorageMap.sum_insert_of_none _ _ hfresh, hrest,
      Ledger.staked, ← hsum, Ledger.backing, h.bonds_new, Ledger.backing]
  exact ⟨0, 0, Nat.zero_le _, by omega, by omega⟩

/-- The boards of the candidate stand under the new name. -/
lemma board (h : ControllerChange cfg l l' stash old new m top bottom) {k : AccountId}
    {mk : CandidateMetadata AccountId} (hk : l'.candidateInfo.get k = some mk) : ∃ top bottom,
    l'.topNominations.get k = some top ∧ l'.bottomNominations.get k = some bottom ∧
      BoardValid cfg mk top bottom := by
  rw [h.info_eq, StorageMap.get_insert, StorageMap.get_remove] at hk
  split_ifs at hk with hkn hko
  · obtain rfl := Option.some.inj hk
    obtain ⟨top₀, bottom₀, ht₀, hb₀, hv⟩ := h.inv.books.board old m h.info_old
    obtain rfl : top = top₀ := Option.some.inj (h.top_old.symm.trans ht₀)
    obtain rfl : bottom = bottom₀ := Option.some.inj (h.bottom_old.symm.trans hb₀)
    exact ⟨top, bottom, by simp [h.top_eq, hkn], by simp [h.bottom_eq, hkn], hv⟩
  · simpa only [h.top_eq, h.bottom_eq, StorageMap.get_insert_of_ne _ hkn,
      StorageMap.get_remove_of_ne _ hko] using h.inv.books.board k mk hk

lemma no_board (h : ControllerChange cfg l l' stash old new m top bottom) {k : AccountId}
    (hk : l'.candidateInfo.get k = none) :
    l'.topNominations.get k = none ∧ l'.bottomNominations.get k = none := by
  rw [h.info_eq, StorageMap.get_insert, StorageMap.get_remove] at hk
  split_ifs at hk with hkn hko
  · simp [h.top_eq, h.bottom_eq, hko, h.ne.symm]
  · simpa only [h.top_eq, h.bottom_eq, StorageMap.get_insert_of_ne _ hkn,
      StorageMap.get_remove_of_ne _ hko] using h.inv.books.no_board k hk

/-- No stash account but the candidate's has the old or the new name for its controller. -/
lemma stash_iff (h : ControllerChange cfg l l' stash old new m top bottom) (s k : AccountId) :
    l'.bondedStash.get s = some k ↔ ∃ mk, l'.candidateInfo.get k = some mk ∧ mk.stash = s := by
  rw [h.stash_eq, h.info_eq, StorageMap.get_insert, StorageMap.get_insert, StorageMap.get_remove]
  have hiff := h.inv.books.stash_iff s k
  by_cases hkn : k = new
  · subst hkn
    simp only [if_true, Option.some.injEq, exists_eq_left', h.stash_old]
    by_cases hs : s = stash
    · simp [hs]
    · have hno : l.bondedStash.get s ≠ some k := by
        intro hsk
        obtain ⟨mk, hmk, -⟩ := hiff.mp hsk
        rw [h.info_new] at hmk
        cases hmk
      have hs' : stash ≠ s := fun heq => hs heq.symm
      simp [hs, hno, hs']
  · by_cases hs : s = stash
    · subst hs
      have hold_iff := (h.inv.books.stash_iff s old).mpr ⟨m, h.info_old, h.stash_old⟩
      rw [hold_iff] at hiff
      simp only [if_true, hkn, if_false, Option.some.injEq]
      by_cases hko : k = old
      · simp only [hko, if_true, reduceCtorEq, false_and, exists_false, iff_false]
        exact h.ne
      · simp only [hko, if_false, ← hiff, Option.some.injEq]
        exact ⟨fun heq => absurd heq.symm hkn, fun heq => absurd heq.symm hko⟩
    · by_cases hko : k = old
      · subst hko
        have hno : l.bondedStash.get s ≠ some k := by
          intro hsk
          obtain ⟨mk, hmk, rfl⟩ := hiff.mp hsk
          rw [h.info_old] at hmk
          exact hs (by rw [← h.stash_old, Option.some.inj hmk])
        simp [hs, hkn, hno]
      · simp only [hs, hkn, hko, if_false]
        exact hiff

lemma request_lt (h : ControllerChange cfg l l' stash old new m top bottom) {k : AccountId}
    {mk : CandidateMetadata AccountId} {r : CandidateBondLessRequest} (hk : l'.candidateInfo.get k = some mk)
    (hr : mk.request = some r) : r.amount < mk.bond := by
  rw [h.info_eq, StorageMap.get_insert, StorageMap.get_remove] at hk
  split_ifs at hk
  · obtain rfl := Option.some.inj hk
    exact h.inv.books.request_lt old m r h.info_old hr
  · exact h.inv.books.request_lt k mk r hk hr

/-- Portfolios and boards are renamed alike. -/
lemma agree (h : ControllerChange cfg l l' stash old new m top bottom) (n k : AccountId) (a : ℕ) :
    (l'.portfolio n).get k = some a ↔ (⟨n, a⟩ : Bond AccountId) ∈ l'.bonds k := by
  rw [h.get_portfolio]
  by_cases hkn : k = new
  · rw [if_pos hkn, hkn, h.bonds_new]
    exact h.inv.books.agree n old a
  · by_cases hko : k = old
    · rw [if_neg hkn, if_pos hko, hko, h.bonds_old]
      simp
    · rw [if_neg hkn, if_neg hko, h.bonds_ne hkn hko]
      exact h.inv.books.agree n k a

lemma records (h : ControllerChange cfg l l' stash old new m top bottom) : Records cfg l' := by
  intro n st hst
  rw [h.nominator_eq] at hst
  split_ifs at hst
  · obtain ⟨st₀, hst₀, rfl⟩ := Option.map_eq_some_iff.mp hst
    refine (h.inv.records n st₀ hst₀).rename ?_
    rw [← Ledger.portfolio_of_some hst₀, h.portfolio_new]
  · exact h.inv.records n st hst

lemma bottomExact (h : ControllerChange cfg l l' stash old new m top bottom) (hbe : l.BottomExact) :
    l'.BottomExact := by
  intro k b hk
  rw [h.bottom_eq, StorageMap.get_insert, StorageMap.get_remove] at hk
  split_ifs at hk
  · exact Option.some.inj hk ▸ hbe old bottom h.bottom_old
  · exact hbe k b hk

/-- A controller change keeps the invariant. -/
lemma ledgerInv (h : ControllerChange cfg l l' stash old new m top bottom) : LedgerInv cfg l' where
  books :=
    { board := fun _ _ => h.board
      no_board := fun _ => h.no_board
      stash_iff := h.stash_iff
      request_lt := fun _ _ _ => h.request_lt
      agree := h.agree }
  records := h.records
  benign := h.warnings_eq ▸ h.inv.benign

end ControllerChange

/-- **One controller change** keeps everything, if the new account is not a candidate. -/
lemma Renamed.balanced {stash : AccountId} {m : CandidateMetadata AccountId}
    {top bottom : Nominations AccountId} (h : Renamed l l' stash old new m top bottom)
    (hold : l.candidateInfo.get old = some m) (hnew : l.candidateInfo.get new = none)
    (hstash : m.stash = stash) (htop : l.topNominations.get old = some top)
    (hbottom : l.bottomNominations.get old = some bottom) :
    Balanced cfg True True l l' := by
  refine Balanced.of_inv fun hl => ?_
  have hchange : ControllerChange cfg l l' stash old new m top bottom :=
    ⟨h, hl, hold, hnew, hstash, htop, hbottom⟩
  exact {
    inv := fun _ => hchange.ledgerInv
    solvent := fun _ _ => hchange.settled.solvent
    bottomExact := fun _ _ => hchange.bottomExact
    total := fun _ _ _ => hchange.totalled.agrees
    backed := fun _ => hchange.settled.backed
    covers := fun _ _ => hchange.totalled.covers }

end Rename

end BifrostNode.Staking
