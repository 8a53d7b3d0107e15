import BifrostNode.Staking.Rounds
import BifrostNode.Staking.BoardSpec

/-!
# The books

The ledger keeps every nomination twice: on the board of the candidate and in the record of the
nominator.  The abstract content of both sides is one table of *portfolios*: for every nominator a
finite map from candidates to amounts.

**Books** says that the candidates' side is in order and shows the portfolios `P`; **Records** says
that every nominator's record is valid.  `LedgerInv` puts the two together, with `P` read off the
records.  That `P` is a parameter of `Books` is what lets a loop be followed that has already
updated one side and not yet the other.

More properties speak about amounts: **Solvent** (what is reserved is what is staked), **BottomExact**
(the cached totals of the bottom lists are right), **TotalAgrees** (the total is the sum of all stakes),
and **Backed** and **TotalCovers**, which say of the first and the last that it is at least as much, and
hold in more runs.  `Balanced` bundles what an operation keeps, `Preserves` adds that candidates stay where
they are, and `Quiet` is the case in which no stake moves at all.
-/

namespace BifrostNode.Staking

open Transition RankedList

variable {AccountId : Type} [LinearOrder AccountId]

/-! ## The two sides -/

namespace Ledger

/-- The bonds on the board of a candidate, top list first. -/
def bonds (l : Ledger AccountId) (c : AccountId) : List (Bond AccountId) :=
  (l.topNominations.get c).elim [] Nominations.nominations ++
    (l.bottomNominations.get c).elim [] Nominations.nominations

/-- What a nominator's record says. -/
def portfolio (l : Ledger AccountId) (n : AccountId) : StorageMap AccountId ℕ :=
  (l.nominatorState.get n).elim ∅ Nominator.nominations

/-- The self-bonds whose stash is `a`. -/
def selfBonded (l : Ledger AccountId) (a : AccountId) : ℕ :=
  l.candidateInfo.sum fun _ m => if m.stash = a then m.bond else 0

/-- The nominations of `a`. -/
def nominated (l : Ledger AccountId) (a : AccountId) : ℕ := (l.portfolio a).sum fun _ x => x

/-- The stake behind one candidate. -/
def backing (l : Ledger AccountId) (c : AccountId) (m : CandidateMetadata AccountId) : ℕ :=
  m.bond + ((l.bonds c).map Bond.amount).sum

/-- All stake: self-bonds and nominations of all candidates. -/
def staked (l : Ledger AccountId) : ℕ := l.candidateInfo.sum l.backing

/-- **Solvency**: the pallet holds reserved exactly what is staked. -/
def Solvent (l : Ledger AccountId) : Prop :=
  ∀ a, l.currency.reserved a = l.selfBonded a + l.nominated a

/-- The pallet holds reserved at least what is staked. -/
def Backed (l : Ledger AccountId) : Prop :=
  ∀ a, l.selfBonded a + l.nominated a ≤ l.currency.reserved a

/-- The total is the sum of all stakes. -/
def TotalAgrees (l : Ledger AccountId) : Prop := l.total = l.staked

/-- The total is at least the sum of all stakes. -/
def TotalCovers (l : Ledger AccountId) : Prop := l.staked ≤ l.total

/-- The cached totals of the bottom lists are right. -/
def BottomExact (l : Ledger AccountId) : Prop :=
  ∀ c bottom, l.bottomNominations.get c = some bottom → bottom.Exact

end Ledger

/-- The reserve of every account follows its stake. -/
def Ledger.Settled (l l' : Ledger AccountId) : Prop :=
  ∀ a, ∃ up down, down ≤ l.selfBonded a + l.nominated a ∧
    l'.currency.reserved a = l.currency.reserved a - down + up ∧
    l'.selfBonded a + l'.nominated a + down = l.selfBonded a + l.nominated a + up

namespace Ledger.Settled

variable {l l' : Ledger AccountId}

lemma solvent (h : l.Settled l') (hs : l.Solvent) : l'.Solvent := by
  intro a
  obtain ⟨up, down, hle, hres, hstake⟩ := h a
  have hold := hs a
  omega

lemma backed (h : l.Settled l') (hb : l.Backed) : l'.Backed := by
  intro a
  obtain ⟨up, down, hle, hres, hstake⟩ := h a
  have hold := hb a
  omega

end Ledger.Settled

/-- The total follows all stakes. -/
def Ledger.Totalled (l l' : Ledger AccountId) : Prop :=
  ∃ up down, down ≤ l.staked ∧ l'.total = l.total - down + up ∧ l'.staked + down = l.staked + up

namespace Ledger.Totalled

variable {l l' : Ledger AccountId}

omit [LinearOrder AccountId] in
lemma agrees (h : l.Totalled l') (ht : l.TotalAgrees) : l'.TotalAgrees := by
  obtain ⟨up, down, hle, htotal, hstake⟩ := h
  rw [TotalAgrees] at ht ⊢
  omega

omit [LinearOrder AccountId] in
lemma covers (h : l.Totalled l') (ht : l.TotalCovers) : l'.TotalCovers := by
  obtain ⟨up, down, hle, htotal, hstake⟩ := h
  rw [TotalCovers] at ht ⊢
  omega

end Ledger.Totalled

/-- A logged error that says nothing about the books: a reward that was not compounded because the
nominator had no such nomination, or because the reserve failed. -/
def Warning.Benign : Warning AccountId → Prop
  | .nominatorLeaving _ _ _ => False
  | .compounding _ _ nomination error => nomination = none ∨ error = .currency

/-- **The candidates' side.**  Candidates and only they have boards, every board is valid, stash
accounts and controllers correspond, a pending decrease leaves something of the self-bond, and the
boards show the portfolios `P`. -/
structure Books (cfg : Config AccountId) (l : Ledger AccountId)
    (P : AccountId → StorageMap AccountId ℕ) : Prop where
  board : ∀ c m, l.candidateInfo.get c = some m → ∃ top bottom,
    l.topNominations.get c = some top ∧ l.bottomNominations.get c = some bottom ∧
      BoardValid cfg m top bottom
  no_board : ∀ c, l.candidateInfo.get c = none →
    l.topNominations.get c = none ∧ l.bottomNominations.get c = none
  stash_iff : ∀ s c, l.bondedStash.get s = some c ↔
    ∃ m, l.candidateInfo.get c = some m ∧ m.stash = s
  request_lt : ∀ c m r, l.candidateInfo.get c = some m → m.request = some r → r.amount < m.bond
  agree : ∀ n c a, (P n).get c = some a ↔ (⟨n, a⟩ : Bond AccountId) ∈ l.bonds c

/-- **The nominators' side**: every record of a nominator is valid. -/
def Records (cfg : Config AccountId) (l : Ledger AccountId) : Prop :=
  ∀ n st, l.nominatorState.get n = some st → st.Valid cfg n

/-- **The invariant of the ledger**: books and records are in order, and no warning speaks against them. -/
structure LedgerInv (cfg : Config AccountId) (l : Ledger AccountId) : Prop where
  books : Books cfg l l.portfolio
  records : Records cfg l
  benign : ∀ w ∈ l.warnings, w.Benign

/-- **What an operation keeps.**  `fresh` and `exact` are what the operation may need for the
properties about amounts. -/
structure Balanced (cfg : Config AccountId) (fresh exact : Prop) (l l' : Ledger AccountId) :
    Prop where
  inv : LedgerInv cfg l → LedgerInv cfg l'
  solvent : fresh → LedgerInv cfg l → l.Solvent → l'.Solvent
  bottomExact : exact → LedgerInv cfg l → l.BottomExact → l'.BottomExact
  total : fresh → LedgerInv cfg l → l.BottomExact → l.TotalAgrees → l'.TotalAgrees
  backed : LedgerInv cfg l → l.Backed → l'.Backed
  covers : LedgerInv cfg l → l.BottomExact → l.TotalCovers → l'.TotalCovers

/-- Candidates stay where they are, and nobody starts to leave. -/
structure Steady (l l' : Ledger AccountId) : Prop where
  stashes : l'.bondedStash = l.bondedStash
  absent : ∀ c, l.candidateInfo.get c = none → l'.candidateInfo.get c = none
  present : ∀ c m, l.candidateInfo.get c = some m → ∃ m', l'.candidateInfo.get c = some m' ∧
    (m.isLeaving = false → m'.isLeaving = false)

/-- An operation that keeps the books and the candidates. -/
structure Preserves (cfg : Config AccountId) (fresh exact : Prop) (l l' : Ledger AccountId) : Prop
    extends Balanced cfg fresh exact l l' where
  steady : LedgerInv cfg l → Steady l l'

namespace Steady

variable {l l₁ l₂ : Ledger AccountId}

omit [LinearOrder AccountId] in
lemma refl (l : Ledger AccountId) : Steady l l := ⟨rfl, fun _ h => h, fun _ m h => ⟨m, h, id⟩⟩

omit [LinearOrder AccountId] in
lemma trans (h₁ : Steady l l₁) (h₂ : Steady l₁ l₂) : Steady l l₂ where
  stashes := h₂.stashes.trans h₁.stashes
  absent c h := h₂.absent c (h₁.absent c h)
  present c m h := by
    obtain ⟨m₁, hm₁, h1⟩ := h₁.present c m h
    obtain ⟨m₂, hm₂, h2⟩ := h₂.present c m₁ hm₁
    exact ⟨m₂, hm₂, fun hm => h2 (h1 hm)⟩

omit [LinearOrder AccountId] in
lemma of_eq (hinfo : l₁.candidateInfo = l.candidateInfo) (hs : l₁.bondedStash = l.bondedStash) :
    Steady l l₁ :=
  ⟨hs, fun _ h => hinfo ▸ h, fun _ m h => ⟨m, hinfo ▸ h, id⟩⟩

/-- One candidate is rewritten. -/
lemma insert {c : AccountId} {m m' : CandidateMetadata AccountId}
    (hc : l.candidateInfo.get c = some m) (hinfo : l₁.candidateInfo = l.candidateInfo.insert c m')
    (hs : l₁.bondedStash = l.bondedStash) (hm : m.isLeaving = false → m'.isLeaving = false) :
    Steady l l₁ := by
  refine ⟨hs, fun k hk => ?_, fun k mk hk => ?_⟩
  · have hkc : k ≠ c := by
      rintro rfl
      rw [hc] at hk
      cases hk
    rw [hinfo, StorageMap.get_insert_of_ne _ hkc, hk]
  · by_cases hkc : k = c
    · subst hkc
      obtain rfl : m = mk := Option.some.inj (hc.symm.trans hk)
      exact ⟨m', by simp [hinfo], hm⟩
    · exact ⟨mk, by rw [hinfo, StorageMap.get_insert_of_ne _ hkc, hk], id⟩

end Steady

namespace Balanced

variable {cfg : Config AccountId} {fresh exact : Prop} {l l₁ l₂ : Ledger AccountId}

/-- An operation that needs nothing keeps everything under any circumstances. -/
lemma weaken (h : Balanced cfg True True l l₁) : Balanced cfg fresh exact l l₁ :=
  ⟨h.inv, fun _ => h.solvent trivial, fun _ => h.bottomExact trivial, fun _ => h.total trivial,
    h.backed, h.covers⟩

/-- An operation that keeps everything, after one that does. -/
lemma trans (h₁ : Balanced cfg True True l l₁) (h₂ : Balanced cfg fresh exact l₁ l₂) :
    Balanced cfg fresh exact l l₂ where
  inv hl := h₂.inv (h₁.inv hl)
  solvent hf hl hs := h₂.solvent hf (h₁.inv hl) (h₁.solvent trivial hl hs)
  bottomExact he hl hb := h₂.bottomExact he (h₁.inv hl) (h₁.bottomExact trivial hl hb)
  total hf hl hb ht :=
    h₂.total hf (h₁.inv hl) (h₁.bottomExact trivial hl hb) (h₁.total trivial hl hb ht)
  backed hl hb := h₂.backed (h₁.inv hl) (h₁.backed hl hb)
  covers hl hb hc := h₂.covers (h₁.inv hl) (h₁.bottomExact trivial hl hb) (h₁.covers hl hb hc)

/-- It is enough to look at ledgers that satisfy the invariant. -/
lemma of_inv (h : LedgerInv cfg l → Balanced cfg fresh exact l l₁) :
    Balanced cfg fresh exact l l₁ where
  inv hl := (h hl).inv hl
  solvent hf hl := (h hl).solvent hf hl
  bottomExact he hl := (h hl).bottomExact he hl
  total hf hl := (h hl).total hf hl
  backed hl := (h hl).backed hl
  covers hl := (h hl).covers hl

end Balanced

namespace Preserves

variable {cfg : Config AccountId} {fresh exact : Prop} {l l₁ l₂ : Ledger AccountId}

lemma refl (l : Ledger AccountId) : Preserves cfg fresh exact l l :=
  ⟨⟨id, fun _ _ => id, fun _ _ => id, fun _ _ _ => id, fun _ => id, fun _ _ => id⟩,
    fun _ => .refl l⟩

lemma weaken (h : Preserves cfg True True l l₁) : Preserves cfg fresh exact l l₁ :=
  ⟨h.toBalanced.weaken, h.steady⟩

lemma trans (h₁ : Preserves cfg True True l l₁) (h₂ : Preserves cfg fresh exact l₁ l₂) :
    Preserves cfg fresh exact l l₂ :=
  ⟨h₁.toBalanced.trans h₂.toBalanced, fun hl => (h₁.steady hl).trans (h₂.steady (h₁.inv hl))⟩

/-- It is enough to look at ledgers that satisfy the invariant. -/
lemma of_inv (h : LedgerInv cfg l → Preserves cfg fresh exact l l₁) :
    Preserves cfg fresh exact l l₁ :=
  ⟨.of_inv fun hl => (h hl).toBalanced, fun hl => (h hl).steady hl⟩

end Preserves

/-! ## Membership and sums on boards -/

namespace BoardMove

variable {cfg : Config AccountId} {l l' : Ledger AccountId} {c : AccountId}
  {m m' : CandidateMetadata AccountId} {top bottom top' bottom' : Nominations AccountId}
  {out inn : List (Bond AccountId)} {exact : Prop}

/-- What is on the board after a move. -/
lemma mem_iff (h : BoardMove cfg l c m top bottom out inn exact m' l' top' bottom')
    (hv : BoardValid cfg m top bottom) (hout : out.Nodup)
    (hsub : out ⊆ top.nominations ++ bottom.nominations) (y : Bond AccountId) :
    y ∈ top'.nominations ++ bottom'.nominations ↔
      y ∈ inn ∨ (y ∈ top.nominations ++ bottom.nominations ∧ y ∉ out) := by
  obtain ⟨rest, hbefore⟩ : ∃ rest,
      (out ++ rest).Perm (top.nominations ++ bottom.nominations) := by
    obtain ⟨out', hperm, hsublist⟩ := List.subperm_of_subset hout hsub
    obtain ⟨rest, hrest⟩ := hsublist.exists_perm_append
    exact ⟨rest, (hperm.symm.append_right rest).trans hrest.symm⟩
  have hafter : (top'.nominations ++ bottom'.nominations).Perm (inn ++ rest) := by
    have hchain : (out ++ (top'.nominations ++ bottom'.nominations)).Perm
        (out ++ (inn ++ rest)) := by
      refine h.perm.trans ((hbefore.symm.append_left inn).trans ?_)
      rw [← List.append_assoc, ← List.append_assoc]
      exact List.perm_append_comm.append_right rest
    exact (List.perm_append_left_iff out).mp hchain
  have hnodup : (out ++ rest).Nodup :=
    hbefore.nodup_iff.mpr (List.Nodup.of_map _ hv.tiers.nodup)
  have hdisj := List.disjoint_of_nodup_append hnodup
  rw [hafter.mem_iff, ← hbefore.mem_iff, List.mem_append, List.mem_append]
  constructor
  · rintro (hy | hy)
    · exact Or.inl hy
    · exact Or.inr ⟨Or.inr hy, fun ho => hdisj ho hy⟩
  · rintro (hy | ⟨hy | hy, hno⟩)
    · exact Or.inl hy
    · exact absurd hy hno
    · exact Or.inr hy

/-- How the sum over the board moves. -/
lemma sum_eq (h : BoardMove cfg l c m top bottom out inn exact m' l' top' bottom') :
    (out.map Bond.amount).sum + ((top'.nominations ++ bottom'.nominations).map Bond.amount).sum =
      (inn.map Bond.amount).sum +
        ((top.nominations ++ bottom.nominations).map Bond.amount).sum := by
  have hsum := Nominations.sum_eq_of_perm h.perm
  simpa only [List.map_append, List.sum_append] using hsum

lemma same_fields (h : BoardMove cfg l c m top bottom out inn exact m' l' top' bottom') :
    m'.stash = m.stash ∧ m'.bond = m.bond ∧ m'.request = m.request :=
  ⟨congrArg (·.stash) h.same, congrArg (·.bond) h.same, congrArg (·.request) h.same⟩

lemma isLeaving_eq (h : BoardMove cfg l c m top bottom out inn exact m' l' top' bottom') :
    m'.isLeaving = m.isLeaving :=
  congrArg (·.isLeaving) h.same

end BoardMove

/-! ## Rewriting one candidate -/

/-- `l'` differs from `l`, on the candidates' side, in the metadata and the lists of `c` only. -/
structure Rewrite (l l' : Ledger AccountId) (c : AccountId) (m' : CandidateMetadata AccountId)
    (top' bottom' : Nominations AccountId) : Prop where
  info : l'.candidateInfo = l.candidateInfo.insert c m'
  stashes : l'.bondedStash = l.bondedStash
  top : l'.topNominations = l.topNominations.insert c top'
  bottom : l'.bottomNominations = l.bottomNominations.insert c bottom'

omit [LinearOrder AccountId] in
lemma Ledger.bonds_eq {l : Ledger AccountId} {c : AccountId} {top bottom : Nominations AccountId}
    (htop : l.topNominations.get c = some top) (hbottom : l.bottomNominations.get c = some bottom) :
    l.bonds c = top.nominations ++ bottom.nominations := by
  simp [Ledger.bonds, htop, hbottom]

namespace Rewrite

variable {cfg : Config AccountId} {l l' : Ledger AccountId} {c : AccountId}
  {m m' : CandidateMetadata AccountId} {top bottom top' bottom' : Nominations AccountId}
  {P P' : AccountId → StorageMap AccountId ℕ}

lemma bonds_self (h : Rewrite l l' c m' top' bottom') :
    l'.bonds c = top'.nominations ++ bottom'.nominations := by
  simp [Ledger.bonds, h.top, h.bottom]

lemma bonds_of_ne (h : Rewrite l l' c m' top' bottom') {k : AccountId} (hk : k ≠ c) :
    l'.bonds k = l.bonds k := by
  simp [Ledger.bonds, h.top, h.bottom, hk]

/-- The books after one candidate has been rewritten. -/
lemma books (h : Rewrite l l' c m' top' bottom') (hb : Books cfg l P)
    (hc : l.candidateInfo.get c = some m) (hv : BoardValid cfg m' top' bottom')
    (hstash : m'.stash = m.stash) (hreq : ∀ r, m'.request = some r → r.amount < m'.bond)
    (hother : ∀ n k, k ≠ c → (P' n).get k = (P n).get k)
    (hagree : ∀ n a, (P' n).get c = some a ↔
      (⟨n, a⟩ : Bond AccountId) ∈ top'.nominations ++ bottom'.nominations) : Books cfg l' P' where
  board := by
    intro k mk hk
    rw [h.info, StorageMap.get_insert] at hk
    split_ifs at hk with hkc
    · subst hkc
      obtain rfl := Option.some.inj hk
      exact ⟨top', bottom', by simp [h.top], by simp [h.bottom], hv⟩
    · simpa only [h.top, h.bottom, StorageMap.get_insert_of_ne _ hkc] using hb.board k mk hk
  no_board := by
    intro k hk
    rw [h.info, StorageMap.get_insert] at hk
    split_ifs at hk with hkc
    simpa only [h.top, h.bottom, StorageMap.get_insert_of_ne _ hkc] using hb.no_board k hk
  stash_iff := by
    intro s k
    rw [h.stashes, hb.stash_iff, h.info]
    by_cases hkc : k = c
    · subst hkc
      simp [hc, hstash]
    · simp [hkc]
  request_lt := by
    intro k mk r hk hr
    rw [h.info, StorageMap.get_insert] at hk
    split_ifs at hk
    · obtain rfl := Option.some.inj hk
      exact hreq r hr
    · exact hb.request_lt k mk r hk hr
  agree := by
    intro n k a
    by_cases hkc : k = c
    · subst hkc
      rw [hagree, h.bonds_self]
    · rw [hother n k hkc, hb.agree, h.bonds_of_ne hkc]

/-- How the self-bonds move. -/
lemma selfBonded (h : Rewrite l l' c m' top' bottom') (hc : l.candidateInfo.get c = some m)
    (hstash : m'.stash = m.stash) (a : AccountId) :
    l'.selfBonded a + (if a = m.stash then m.bond else 0) =
      l.selfBonded a + (if a = m.stash then m'.bond else 0) := by
  have hsum := StorageMap.sum_insert_of_some m' (fun _ (x : CandidateMetadata AccountId) =>
    if x.stash = a then x.bond else 0) hc
  simp only [hstash, eq_comm (b := a)] at hsum
  rw [Ledger.selfBonded, Ledger.selfBonded, h.info]
  simp only [eq_comm (b := a)]
  exact hsum

/-- How the stake moves. -/
lemma staked (h : Rewrite l l' c m' top' bottom') (hc : l.candidateInfo.get c = some m)
    (htop : l.topNominations.get c = some top) (hbottom : l.bottomNominations.get c = some bottom) :
    l'.staked + (m.bond + ((top.nominations ++ bottom.nominations).map Bond.amount).sum) =
      l.staked + (m'.bond + ((top'.nominations ++ bottom'.nominations).map Bond.amount).sum) := by
  have hsum := StorageMap.sum_insert_congr m' (g := l'.backing) (f := l.backing) hc
    fun k x hk => by rw [Ledger.backing, Ledger.backing, h.bonds_of_ne hk]
  rw [Ledger.staked, Ledger.staked, h.info]
  rw [Ledger.backing, Ledger.backing, h.bonds_self, Ledger.bonds_eq htop hbottom] at hsum
  exact hsum

/-- How the cached totals of the bottom lists move. -/
lemma bottomExact (h : Rewrite l l' c m' top' bottom') (hl : l.BottomExact)
    (hb : bottom'.Exact) : l'.BottomExact := by
  intro k bk hk
  rw [h.bottom, StorageMap.get_insert] at hk
  split_ifs at hk
  · exact (Option.some.inj hk) ▸ hb
  · exact hl k bk hk

end Rewrite

/-! ## Changes that move no stake -/

/-- The two records agree in everything that has to do with stake; a pending decrease is the old
one or leaves something of the bond. -/
structure CandidateMetadata.SameStake (m m' : CandidateMetadata AccountId) : Prop where
  stash : m'.stash = m.stash
  bond : m'.bond = m.bond
  votingPower : m'.votingPower = m.votingPower
  nominationCount : m'.nominationCount = m.nominationCount
  lowestTop : m'.lowestTopNominationAmount = m.lowestTopNominationAmount
  highestBottom : m'.highestBottomNominationAmount = m.highestBottomNominationAmount
  lowestBottom : m'.lowestBottomNominationAmount = m.lowestBottomNominationAmount
  topCapacity : m'.topCapacity = m.topCapacity
  bottomCapacity : m'.bottomCapacity = m.bottomCapacity
  request : ∀ r, m'.request = some r → m.request = some r ∨ r.amount < m'.bond
  leaving : m.isLeaving = false → m'.isLeaving = false

omit [LinearOrder AccountId] in
lemma BoardValid.sameStake {cfg : Config AccountId} {m m' : CandidateMetadata AccountId}
    {top bottom : Nominations AccountId} (h : BoardValid cfg m top bottom) (hm : m.SameStake m') :
    BoardValid cfg m' top bottom where
  tiers := h.tiers
  top_exact := h.top_exact
  lowestTop_eq := hm.lowestTop.trans h.lowestTop_eq
  highestBottom_eq := hm.highestBottom.trans h.highestBottom_eq
  lowestBottom_eq := hm.lowestBottom.trans h.lowestBottom_eq
  topCapacity_eq := hm.topCapacity.trans h.topCapacity_eq
  bottomCapacity_eq := hm.bottomCapacity.trans h.bottomCapacity_eq
  count_eq := hm.nominationCount.trans h.count_eq
  votingPower_eq := by rw [hm.votingPower, hm.bond]; exact h.votingPower_eq

/-- **No stake moves** from `l` to `l'`. -/
structure Quiet (cfg : Config AccountId) (l l' : Ledger AccountId) : Prop where
  books : ∀ P, Books cfg l P → Books cfg l' P
  records : Records cfg l → Records cfg l'
  portfolio : l'.portfolio = l.portfolio
  selfBonded : l'.selfBonded = l.selfBonded
  staked : l'.staked = l.staked
  bottom : l'.bottomNominations = l.bottomNominations
  reserved : l'.currency.reserved = l.currency.reserved
  total : l'.total = l.total
  warnings : l'.warnings = l.warnings
  steady : Steady l l'

namespace Quiet

variable {cfg : Config AccountId} {l l₁ l₂ : Ledger AccountId}

lemma refl (l : Ledger AccountId) : Quiet cfg l l :=
  ⟨fun _ => id, id, rfl, rfl, rfl, rfl, rfl, rfl, rfl, .refl l⟩

lemma trans (h₁ : Quiet cfg l l₁) (h₂ : Quiet cfg l₁ l₂) : Quiet cfg l l₂ where
  books P h := h₂.books P (h₁.books P h)
  records h := h₂.records (h₁.records h)
  portfolio := h₂.portfolio.trans h₁.portfolio
  selfBonded := h₂.selfBonded.trans h₁.selfBonded
  staked := h₂.staked.trans h₁.staked
  bottom := h₂.bottom.trans h₁.bottom
  reserved := h₂.reserved.trans h₁.reserved
  total := h₂.total.trans h₁.total
  warnings := h₂.warnings.trans h₁.warnings
  steady := h₁.steady.trans h₂.steady

/-- Nothing that the invariant and the amounts depend on has changed. -/
lemma preserves (h : Quiet cfg l l₁) : Preserves cfg True True l l₁ where
  inv hl := ⟨h.portfolio ▸ h.books _ hl.books, h.records hl.records, h.warnings ▸ hl.benign⟩
  solvent _ _ hs a := by
    rw [h.reserved, h.selfBonded, Ledger.nominated, h.portfolio]
    exact hs a
  bottomExact _ _ hb := by
    rw [Ledger.BottomExact, h.bottom]
    exact hb
  total _ _ _ ht := h.total.trans (ht.trans h.staked.symm)
  backed _ hs a := by
    rw [h.reserved, h.selfBonded, Ledger.nominated, h.portfolio]
    exact hs a
  covers _ _ ht := by
    rw [Ledger.TotalCovers, h.total, h.staked]
    exact ht
  steady _ := h.steady

/-- The candidates are, each of them, the same as far as stake goes, and the rest is equal. -/
lemma of_candidates
    (hinfo : ∀ c, Option.Rel CandidateMetadata.SameStake (l.candidateInfo.get c)
      (l₁.candidateInfo.get c))
    (hnom : l₁.nominatorState = l.nominatorState) (hstash : l₁.bondedStash = l.bondedStash)
    (htop : l₁.topNominations = l.topNominations)
    (hbottom : l₁.bottomNominations = l.bottomNominations)
    (hres : l₁.currency.reserved = l.currency.reserved) (htotal : l₁.total = l.total)
    (hwarn : l₁.warnings = l.warnings) : Quiet cfg l l₁ := by
  have hbonds : l₁.bonds = l.bonds := by
    funext c
    rw [Ledger.bonds, htop, hbottom, Ledger.bonds]
  have hback : ∀ c m', l₁.candidateInfo.get c = some m' →
      ∃ m, l.candidateInfo.get c = some m ∧ m.SameStake m' := by
    intro c m' hc
    have hrel := hinfo c
    cases h : l.candidateInfo.get c with
    | none => rw [h, hc] at hrel; cases hrel
    | some m =>
        rw [h, hc] at hrel
        cases hrel with
        | some hsame => exact ⟨m, rfl, hsame⟩
  have hnone : ∀ c, l₁.candidateInfo.get c = none → l.candidateInfo.get c = none := by
    intro c hc
    have hrel := hinfo c
    rw [hc] at hrel
    cases h : l.candidateInfo.get c with
    | none => rfl
    | some m => rw [h] at hrel; cases hrel
  have hnone' : ∀ c, l.candidateInfo.get c = none → l₁.candidateInfo.get c = none := by
    intro c hc
    cases h : l₁.candidateInfo.get c with
    | none => rfl
    | some m' =>
        obtain ⟨m, hm, -⟩ := hback c m' h
        rw [hc] at hm
        cases hm
  have hforth : ∀ c m, l.candidateInfo.get c = some m →
      ∃ m', l₁.candidateInfo.get c = some m' ∧ m.SameStake m' := by
    intro c m hc
    cases h : l₁.candidateInfo.get c with
    | none => rw [hnone c h] at hc; cases hc
    | some m' =>
        obtain ⟨m₀, hm₀, hsame⟩ := hback c m' h
        obtain rfl : m₀ = m := Option.some.inj (hm₀.symm.trans hc)
        exact ⟨m', rfl, hsame⟩
  refine ⟨fun P hb => ⟨?_, ?_, ?_, ?_, ?_⟩, ?_, ?_, ?_, ?_, hbottom, hres, htotal, hwarn,
    ⟨hstash, hnone', fun c m hc => ?_⟩⟩
  · intro c m' hc
    obtain ⟨m, hm, hsame⟩ := hback c m' hc
    obtain ⟨top, bottom, ht, hbt, hv⟩ := hb.board c m hm
    exact ⟨top, bottom, htop ▸ ht, hbottom ▸ hbt, hv.sameStake hsame⟩
  · intro c hc
    rw [htop, hbottom]
    exact hb.no_board c (hnone c hc)
  · intro s c
    rw [hstash, hb.stash_iff]
    constructor
    · rintro ⟨m, hm, rfl⟩
      obtain ⟨m', hm', hsame⟩ := hforth c m hm
      exact ⟨m', hm', hsame.stash⟩
    · rintro ⟨m', hm', rfl⟩
      obtain ⟨m, hm, hsame⟩ := hback c m' hm'
      exact ⟨m, hm, hsame.stash.symm⟩
  · intro c m' r hc hr
    obtain ⟨m, hm, hsame⟩ := hback c m' hc
    rcases hsame.request r hr with h | h
    · rw [hsame.bond]
      exact hb.request_lt c m r hm h
    · exact h
  · intro n c a
    rw [hbonds]
    exact hb.agree n c a
  · intro hrec
    rw [Records, hnom]
    exact hrec
  · funext n
    rw [Ledger.portfolio, hnom, Ledger.portfolio]
  · funext a
    refine StorageMap.sum_eq_sum fun c => ?_
    cases h : l.candidateInfo.get c with
    | none => rw [hnone' c h]
    | some m =>
        obtain ⟨m', hm', hsame⟩ := hforth c m h
        simp [hm', hsame.stash, hsame.bond]
  · refine StorageMap.sum_eq_sum fun c => ?_
    cases h : l.candidateInfo.get c with
    | none => rw [hnone' c h]; rfl
    | some m =>
        obtain ⟨m', hm', hsame⟩ := hforth c m h
        simp [hm', Ledger.backing, hbonds, hsame.bond]
  · obtain ⟨m', hm', hsame⟩ := hforth c m hc
    exact ⟨m', hm', hsame.leaving⟩

omit [LinearOrder AccountId] in
lemma sameStake_refl (m : CandidateMetadata AccountId) : m.SameStake m :=
  ⟨rfl, rfl, rfl, rfl, rfl, rfl, rfl, rfl, rfl, fun _ h => Or.inl h, id⟩

/-- Only the pool, free balances or the awarded tokens have changed. -/
lemma of_eq (hinfo : l₁.candidateInfo = l.candidateInfo)
    (hnom : l₁.nominatorState = l.nominatorState) (hstash : l₁.bondedStash = l.bondedStash)
    (htop : l₁.topNominations = l.topNominations)
    (hbottom : l₁.bottomNominations = l.bottomNominations)
    (hres : l₁.currency.reserved = l.currency.reserved) (htotal : l₁.total = l.total)
    (hwarn : l₁.warnings = l.warnings) : Quiet cfg l l₁ := by
  refine of_candidates (fun c => ?_) hnom hstash htop hbottom hres htotal hwarn
  rw [hinfo]
  cases l.candidateInfo.get c with
  | none => exact .none
  | some m => exact .some (sameStake_refl m)

/-- One candidate is rewritten. -/
lemma putCandidate {c : AccountId} {m m' : CandidateMetadata AccountId}
    (hc : l.candidateInfo.get c = some m) (hsame : m.SameStake m') :
    Quiet cfg l { l with candidateInfo := l.candidateInfo.insert c m' } := by
  refine of_candidates (fun k => ?_) rfl rfl rfl rfl rfl rfl rfl
  simp only [StorageMap.get_insert]
  split_ifs with hk
  · rw [hk, hc]
    exact .some hsame
  · cases l.candidateInfo.get k with
    | none => exact .none
    | some m => exact .some (sameStake_refl m)

/-- A candidate is rewritten if it exists. -/
lemma modifyCandidate {f : CandidateMetadata AccountId → CandidateMetadata AccountId}
    (hf : ∀ m, CandidateMetadata.SameStake m (f m)) (l : Ledger AccountId) (c : AccountId) :
    Quiet cfg l (l.modifyCandidate c f) := by
  rw [Ledger.modifyCandidate]
  cases hc : l.candidateInfo.get c with
  | none => exact refl l
  | some m => exact putCandidate hc (hf m)

/-- One nominator's record is rewritten, its nominations staying as they are. -/
lemma putNominator {n : AccountId} {st st' : Nominator AccountId}
    (hn : l.nominatorState.get n = some st) (hnom : st'.nominations = st.nominations)
    (hvalid : st.Valid cfg n → st'.Valid cfg n) :
    Quiet cfg l { l with nominatorState := l.nominatorState.insert n st' } := by
  refine ⟨fun P hb => ⟨hb.board, hb.no_board, hb.stash_iff, hb.request_lt, hb.agree⟩, ?_, ?_, rfl,
    rfl, rfl, rfl, rfl, rfl, .of_eq rfl rfl⟩
  · intro hrec k sk hk
    simp only [StorageMap.get_insert] at hk
    split_ifs at hk with hkn
    · subst hkn
      exact (Option.some.inj hk) ▸ hvalid (hrec k st hn)
    · exact hrec k sk hk
  · funext k
    simp only [Ledger.portfolio, StorageMap.get_insert]
    split_ifs with hkn
    · simp [hkn, hn, hnom]
    · rfl

end Quiet

end BifrostNode.Staking
