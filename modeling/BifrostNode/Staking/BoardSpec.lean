import BifrostNode.Lib.Leaderboard
import BifrostNode.Staking.Board

/-!
# What the list operations do

`BoardValid` is the invariant of one candidate's board: the two lists form a two-tier leaderboard
of distinct owners, the cached total of the top list is right, and the redundant fields of the
metadata mirror the lists.  The cached total of the bottom list is not part of it: it is tracked
separately, as `Nominations.Exact`, because one operation breaks it.

`BoardOrdered` is the part of it that does not speak of cached totals.

Each operation is described by one lemma.  It says when the operation succeeds.  On an ordered
board it then is a `ListMove`: nothing outside the board changes, and the bonds on it are the old
ones up to what came `inn` and what went `out`.  On a valid board it is a `BoardMove`: the board
stays valid as well.
-/

namespace BifrostNode.Staking

open Leaderboard RankedList Transition

variable {AccountId : Type} [LinearOrder AccountId]

/-! ## Lists and their cached totals -/

namespace Nominations

/-- The cached total is the sum of the amounts. -/
def Exact (self : Nominations AccountId) : Prop := self.total = self.sum

omit [LinearOrder AccountId] in
lemma sum_eq_of_perm {a b : List (Bond AccountId)} (h : a.Perm b) :
    (a.map Bond.amount).sum = (b.map Bond.amount).sum := (h.map _).sum_eq

variable {noms : Nominations AccountId} {x : Bond AccountId}

omit [LinearOrder AccountId] in
/-- On a ranked list the sorted insertion is `rankInsert`. -/
lemma insertSorted_nominations {ns : List (Bond AccountId)} (h : Desc Bond.amount ns)
    (total : ℕ) (x : Bond AccountId) :
    ((⟨ns, total⟩ : Nominations AccountId).insertSortedGreatestToLeast x).nominations =
      rankInsert Bond.amount x ns :=
  insertIdx_insertionIndex h (isSearchResult_binarySearchBy x.amount h)

omit [LinearOrder AccountId] in
/-- A sorted insertion keeps the cached total right. -/
lemma Exact.insertSorted (he : noms.Exact) (h : Desc Bond.amount noms.nominations)
    (x : Bond AccountId) : (noms.insertSortedGreatestToLeast x).Exact := by
  have hsum := sum_eq_of_perm (rankInsert_perm Bond.amount x noms.nominations)
  have hins := insertSorted_nominations h noms.total x
  rw [Exact, sum, hins, hsum, List.map_cons, List.sum_cons, ← sum, ← he]
  exact Nat.add_comm _ _

/-- Taking one owner's nomination out, and its amount off the total. -/
lemma Exact.filter (he : noms.Exact) (hn : (noms.nominations.map Bond.owner).Nodup)
    (hx : x ∈ noms.nominations) :
    (⟨noms.nominations.filter fun d => d.owner ≠ x.owner, noms.total - x.amount⟩ :
      Nominations AccountId).Exact := by
  have hsum := sum_eq_of_perm (perm_cons_filter hn hx)
  rw [List.map_cons, List.sum_cons] at hsum
  simp only [Exact, sum] at he ⊢
  omega

omit [LinearOrder AccountId] in
/-- Popping the last nomination takes its amount off the total. -/
lemma Exact.dropLast {t : List (Bond AccountId)} (he : noms.Exact)
    (ht : noms.nominations = t ++ [x]) :
    (⟨t, noms.total - x.amount⟩ : Nominations AccountId).Exact := by
  simp only [Exact, sum, ht, List.map_append, List.sum_append, List.map_cons, List.map_nil,
    List.sum_cons, List.sum_nil] at he ⊢
  omega

omit [LinearOrder AccountId] in
/-- Popping the first nomination takes its amount off the total. -/
lemma Exact.tail {t : List (Bond AccountId)} (he : noms.Exact)
    (ht : noms.nominations = x :: t) :
    (⟨t, noms.total - x.amount⟩ : Nominations AccountId).Exact := by
  simp only [Exact, sum, ht, List.map_cons, List.sum_cons] at he ⊢
  omega

/-- Rewriting the amount of one owner, up to order. -/
lemma perm_setAmount {ns : List (Bond AccountId)} (hn : (ns.map Bond.owner).Nodup)
    (hx : x ∈ ns) (f : ℕ → ℕ) :
    (sortDesc Bond.amount (ns.map (CandidateMetadata.setAmount x.owner f))).Perm
      (⟨x.owner, f x.amount⟩ :: ns.filter fun d => d.owner ≠ x.owner) :=
  (sortDesc_perm _ _).trans (perm_cons_map hn hx fun d => ⟨d.owner, f d.amount⟩)

/-- Rewriting one amount and the total alike. -/
lemma Exact.setAmount (he : noms.Exact) (hn : (noms.nominations.map Bond.owner).Nodup)
    (hx : x ∈ noms.nominations) {f : ℕ → ℕ} {total : ℕ}
    (ht : total + x.amount = noms.total + f x.amount) :
    ((⟨noms.nominations.map (CandidateMetadata.setAmount x.owner f), total⟩ :
      Nominations AccountId).sortGreatestToLeast).Exact := by
  have hold := sum_eq_of_perm (perm_cons_filter hn hx)
  have hnew := sum_eq_of_perm (perm_setAmount hn hx f)
  simp only [List.map_cons, List.sum_cons] at hold hnew
  simp only [Exact, sum, sortGreatestToLeast] at he ⊢
  omega

/-- The nominations of one owner are at most one. -/
lemma filter_owner {ns : List (Bond AccountId)} (hn : (ns.map Bond.owner).Nodup) (hx : x ∈ ns) :
    ns.filter (fun d => d.owner = x.owner) = [x] := by
  have hperm := (perm_cons_filter hn hx).filter fun d => decide (d.owner = x.owner)
  have hrest : (ns.filter fun d => d.owner ≠ x.owner).filter
      (fun d => decide (d.owner = x.owner)) = [] := by
    rw [List.filter_eq_nil_iff]
    intro d hd
    simpa using (List.mem_filter.mp hd).2
  rw [List.filter_cons_of_pos (by simp), hrest] at hperm
  exact List.perm_singleton.mp hperm

/-- An owner who is not there has none. -/
lemma filter_owner_of_forall {ns : List (Bond AccountId)} {n : AccountId}
    (hn : ∀ x ∈ ns, x.owner ≠ n) : ns.filter (fun d => d.owner = n) = [] := by
  rw [List.filter_eq_nil_iff]
  intro d hd
  simpa using hn d hd

end Nominations

/-! ## The invariant of a board -/

/-- **A valid board**: sorted tiers within their bounds, and a candidate whose cached sums match them. -/
structure BoardValid (cfg : Config AccountId) (m : CandidateMetadata AccountId)
    (top bottom : Nominations AccountId) : Prop where
  tiers : Tiers Bond.amount Bond.owner cfg.maxTopNominationsPerCandidate
    cfg.maxBottomNominationsPerCandidate top.nominations bottom.nominations
  top_exact : top.Exact
  lowestTop_eq : m.lowestTopNominationAmount = top.lowestNominationAmount
  highestBottom_eq : m.highestBottomNominationAmount = bottom.highestNominationAmount
  lowestBottom_eq : m.lowestBottomNominationAmount = bottom.lowestNominationAmount
  topCapacity_eq : m.topCapacity = top.topCapacity cfg
  bottomCapacity_eq : m.bottomCapacity = bottom.bottomCapacity cfg
  count_eq : m.nominationCount = top.nominations.length + bottom.nominations.length
  votingPower_eq : m.votingPower = m.bond + top.sum

/-- **An ordered board.**  The shape of the two lists, and the mirrors of them that do not depend
on a cached total. -/
structure BoardOrdered (cfg : Config AccountId) (m : CandidateMetadata AccountId)
    (top bottom : Nominations AccountId) : Prop where
  tiers : Tiers Bond.amount Bond.owner cfg.maxTopNominationsPerCandidate
    cfg.maxBottomNominationsPerCandidate top.nominations bottom.nominations
  lowestTop_eq : m.lowestTopNominationAmount = top.lowestNominationAmount
  highestBottom_eq : m.highestBottomNominationAmount = bottom.highestNominationAmount
  lowestBottom_eq : m.lowestBottomNominationAmount = bottom.lowestNominationAmount
  topCapacity_eq : m.topCapacity = top.topCapacity cfg
  bottomCapacity_eq : m.bottomCapacity = bottom.bottomCapacity cfg
  count_eq : m.nominationCount = top.nominations.length + bottom.nominations.length
  votingPower_eq : m.votingPower = m.bond + top.sum

omit [LinearOrder AccountId] in
lemma BoardValid.ordered {cfg : Config AccountId} {m : CandidateMetadata AccountId}
    {top bottom : Nominations AccountId} (hv : BoardValid cfg m top bottom) :
    BoardOrdered cfg m top bottom where
  tiers := hv.tiers
  lowestTop_eq := hv.lowestTop_eq
  highestBottom_eq := hv.highestBottom_eq
  lowestBottom_eq := hv.lowestBottom_eq
  topCapacity_eq := hv.topCapacity_eq
  bottomCapacity_eq := hv.bottomCapacity_eq
  count_eq := hv.count_eq
  votingPower_eq := hv.votingPower_eq

/-- The two records differ at most in the fields that mirror the lists. -/
def CandidateMetadata.SameButLists (m m' : CandidateMetadata AccountId) : Prop :=
  m' = { m with
    nominationCount := m'.nominationCount
    votingPower := m'.votingPower
    lowestTopNominationAmount := m'.lowestTopNominationAmount
    highestBottomNominationAmount := m'.highestBottomNominationAmount
    lowestBottomNominationAmount := m'.lowestBottomNominationAmount
    topCapacity := m'.topCapacity
    bottomCapacity := m'.bottomCapacity }

/-- The ledger with other lists for one candidate, and another pool. -/
def Ledger.withLists (l : Ledger AccountId) (candidate : AccountId)
    (top bottom : Nominations AccountId) (pool : StorageMap AccountId ℕ) : Ledger AccountId :=
  { l with
    topNominations := l.topNominations.insert candidate top
    bottomNominations := l.bottomNominations.insert candidate bottom
    candidatePool := pool }

/-- **One move on the lists of `c`.**  `out` left and `inn` entered; outside the lists only their
mirrors and the pool may have changed. -/
structure ListMove (l : Ledger AccountId) (c : AccountId) (m : CandidateMetadata AccountId)
    (top bottom : Nominations AccountId) (out inn : List (Bond AccountId))
    (m' : CandidateMetadata AccountId) (l' : Ledger AccountId)
    (top' bottom' : Nominations AccountId) : Prop where
  ledger_eq : l' = l.withLists c top' bottom' l'.candidatePool
  same : m.SameButLists m'
  perm : (out ++ (top'.nominations ++ bottom'.nominations)).Perm
    (inn ++ (top.nominations ++ bottom.nominations))

/-- **One move on the board of `c`.**  `out` left and `inn` entered.  The cached bottom total
stays right if `exact` holds. -/
structure BoardMove (cfg : Config AccountId) (l : Ledger AccountId) (c : AccountId)
    (m : CandidateMetadata AccountId) (top bottom : Nominations AccountId)
    (out inn : List (Bond AccountId)) (exact : Prop) (m' : CandidateMetadata AccountId)
    (l' : Ledger AccountId) (top' bottom' : Nominations AccountId) : Prop where
  ledger_eq : l' = l.withLists c top' bottom' l'.candidatePool
  same : m.SameButLists m'
  valid : BoardValid cfg m' top' bottom'
  perm : (out ++ (top'.nominations ++ bottom'.nominations)).Perm
    (inn ++ (top.nominations ++ bottom.nominations))
  bottom_exact : exact → bottom.Exact → bottom'.Exact

lemma Ledger.updateActive_eq (l : Ledger AccountId) (c : AccountId) (v : ℕ) :
    l.updateActive c v = { l with candidatePool := (l.updateActive c v).candidatePool } := by
  cases h : l.candidatePool.get c <;> simp [Ledger.updateActive, h]

@[simp] lemma Ledger.updateActive_candidateInfo (l : Ledger AccountId) (c : AccountId) (v : ℕ) :
    (l.updateActive c v).candidateInfo = l.candidateInfo := by rw [l.updateActive_eq]

@[simp] lemma Ledger.updateActive_nominatorState (l : Ledger AccountId) (c : AccountId) (v : ℕ) :
    (l.updateActive c v).nominatorState = l.nominatorState := by rw [l.updateActive_eq]

@[simp] lemma Ledger.updateActive_bondedStash (l : Ledger AccountId) (c : AccountId) (v : ℕ) :
    (l.updateActive c v).bondedStash = l.bondedStash := by rw [l.updateActive_eq]

@[simp] lemma Ledger.updateActive_topNominations (l : Ledger AccountId) (c : AccountId) (v : ℕ) :
    (l.updateActive c v).topNominations = l.topNominations := by rw [l.updateActive_eq]

@[simp] lemma Ledger.updateActive_bottomNominations (l : Ledger AccountId) (c : AccountId) (v : ℕ) :
    (l.updateActive c v).bottomNominations = l.bottomNominations := by rw [l.updateActive_eq]

@[simp] lemma Ledger.updateActive_total (l : Ledger AccountId) (c : AccountId) (v : ℕ) :
    (l.updateActive c v).total = l.total := by rw [l.updateActive_eq]

@[simp] lemma Ledger.updateActive_currency (l : Ledger AccountId) (c : AccountId) (v : ℕ) :
    (l.updateActive c v).currency = l.currency := by rw [l.updateActive_eq]

@[simp] lemma Ledger.updateActive_warnings (l : Ledger AccountId) (c : AccountId) (v : ℕ) :
    (l.updateActive c v).warnings = l.warnings := by rw [l.updateActive_eq]

/-- A move on a board leaves the rest of the ledger alone. -/
lemma BoardMove.ledger_fields {cfg : Config AccountId} {l l' : Ledger AccountId} {c : AccountId}
    {m m' : CandidateMetadata AccountId} {top bottom top' bottom' : Nominations AccountId}
    {out inn : List (Bond AccountId)} {exact : Prop}
    (h : BoardMove cfg l c m top bottom out inn exact m' l' top' bottom') :
    l'.candidateInfo = l.candidateInfo ∧ l'.nominatorState = l.nominatorState ∧
      l'.bondedStash = l.bondedStash ∧ l'.topNominations = l.topNominations.insert c top' ∧
      l'.bottomNominations = l.bottomNominations.insert c bottom' ∧ l'.total = l.total ∧
      l'.currency = l.currency ∧ l'.warnings = l.warnings := by
  rw [h.ledger_eq]
  exact ⟨rfl, rfl, rfl, rfl, rfl, rfl, rfl, rfl⟩

namespace BoardOrdered

variable {cfg : Config AccountId} {l : Ledger AccountId} {c : AccountId}
  {m : CandidateMetadata AccountId} {top bottom : Nominations AccountId}

omit [LinearOrder AccountId] in
lemma topCapacity_eq_full (h : BoardOrdered cfg m top bottom) :
    m.topCapacity = .full ↔ top.nominations.length = cfg.maxTopNominationsPerCandidate := by
  have hle := h.tiers.top_le
  rw [h.topCapacity_eq, Nominations.topCapacity, Nominations.capacity]
  split_ifs <;> simp <;> omega

omit [LinearOrder AccountId] in
lemma bottomCapacity_eq_full (h : BoardOrdered cfg m top bottom) :
    m.bottomCapacity = .full ↔
      bottom.nominations.length = cfg.maxBottomNominationsPerCandidate := by
  have hle := h.tiers.bottom_le
  rw [h.bottomCapacity_eq, Nominations.bottomCapacity, Nominations.capacity]
  split_ifs <;> simp <;> omega

omit [LinearOrder AccountId] in
lemma bottomCapacity_eq_empty (h : BoardOrdered cfg m top bottom) :
    m.bottomCapacity = .empty ↔ bottom.nominations = [] := by
  have hpos := cfg.one_le_maxBottom
  rw [h.bottomCapacity_eq, Nominations.bottomCapacity, Nominations.capacity]
  split_ifs with hfull hempty
  · have : bottom.nominations ≠ [] := by
      intro hnil
      rw [hnil, List.length_nil] at hfull
      omega
    simp [this]
  · simpa using hempty
  · simpa using hempty

omit [LinearOrder AccountId] in
/-- A full top list has a last nomination, and the metadata knows its amount. -/
lemma exists_lowestTop (h : BoardOrdered cfg m top bottom)
    (hfull : top.nominations.length = cfg.maxTopNominationsPerCandidate) :
    ∃ t y, top.nominations = t ++ [y] ∧ m.lowestTopNominationAmount = y.amount := by
  have hpos := cfg.one_le_maxTop
  have hne : top.nominations ≠ [] := by
    intro hnil
    rw [hnil, List.length_nil] at hfull
    omega
  refine ⟨_, _, (List.dropLast_append_getLast hne).symm, ?_⟩
  rw [h.lowestTop_eq, Nominations.lowestNominationAmount, List.getLast?_eq_some_getLast hne]
  rfl

omit [LinearOrder AccountId] in
lemma exists_lowestBottom (h : BoardOrdered cfg m top bottom)
    (hfull : bottom.nominations.length = cfg.maxBottomNominationsPerCandidate) :
    ∃ t y, bottom.nominations = t ++ [y] ∧ m.lowestBottomNominationAmount = y.amount := by
  have hpos := cfg.one_le_maxBottom
  have hne : bottom.nominations ≠ [] := by
    intro hnil
    rw [hnil, List.length_nil] at hfull
    omega
  refine ⟨_, _, (List.dropLast_append_getLast hne).symm, ?_⟩
  rw [h.lowestBottom_eq, Nominations.lowestNominationAmount, List.getLast?_eq_some_getLast hne]
  rfl

omit [LinearOrder AccountId] in
lemma lowestTop_le (h : BoardOrdered cfg m top bottom) {x : Bond AccountId}
    (hx : x ∈ top.nominations) : m.lowestTopNominationAmount ≤ x.amount := by
  have hne := List.ne_nil_of_mem hx
  have hsplit := List.dropLast_append_getLast hne
  have hdesc : Desc Bond.amount (top.nominations.dropLast ++ [top.nominations.getLast hne]) := by
    rw [hsplit]
    exact h.tiers.top_desc
  rw [h.lowestTop_eq, Nominations.lowestNominationAmount, List.getLast?_eq_some_getLast hne]
  refine hdesc.last_le x ?_
  rw [hsplit]
  exact hx

omit [LinearOrder AccountId] in
lemma le_highestBottom (h : BoardOrdered cfg m top bottom) {x : Bond AccountId}
    (hx : x ∈ bottom.nominations) : x.amount ≤ m.highestBottomNominationAmount := by
  rw [h.highestBottom_eq, Nominations.highestNominationAmount]
  have hdesc := h.tiers.bottom_desc
  cases hb : bottom.nominations with
  | nil => simp [hb] at hx
  | cons y t =>
      rw [hb] at hdesc hx
      exact hdesc.head_ge x hx

omit [LinearOrder AccountId] in
/-- What the metadata records as the first bottom amount never exceeds the last top amount. -/
lemma highestBottom_le_lowestTop (h : BoardOrdered cfg m top bottom)
    (hne : bottom.nominations ≠ []) :
    m.highestBottomNominationAmount ≤ m.lowestTopNominationAmount := by
  obtain ⟨t, y, hty, hlow⟩ := h.exists_lowestTop (h.tiers.full hne)
  rw [h.highestBottom_eq, Nominations.highestNominationAmount, hlow]
  have horder := h.tiers.order
  cases hb : bottom.nominations with
  | nil => exact absurd hb hne
  | cons z r =>
      rw [hb, hty] at horder
      exact horder z (by simp) y (by simp)

end BoardOrdered

/-! ## The mirrors -/

namespace CandidateMetadata

variable {cfg : Config AccountId} {l : Ledger AccountId} {c n : AccountId}
  {m : CandidateMetadata AccountId} {top bottom : Nominations AccountId}

/-- Besides the metadata only the pool may follow the voting power. -/
lemma resetTopData_ledger (cfg : Config AccountId) (l : Ledger AccountId)
    (m : CandidateMetadata AccountId) (c : AccountId) (top : Nominations AccountId) :
    ∃ pool, (resetTopData cfg l m c top).2 = { l with candidatePool := pool } := by
  simp only [resetTopData]
  split_ifs
  · exact ⟨_, l.updateActive_eq c _⟩
  · exact ⟨_, rfl⟩

end CandidateMetadata

/-! ## Moves -/

section Moves

variable {cfg : Config AccountId} {l l' : Ledger AccountId} {c : AccountId}
  {m m' : CandidateMetadata AccountId} {top bottom top' bottom' : Nominations AccountId}

omit [LinearOrder AccountId] in
/-- Mirroring the list that is already mirrored changes nothing. -/
lemma BoardValid.resetBottomData_self (hv : BoardValid cfg m top bottom) :
    m.resetBottomData cfg bottom = m := by
  rw [CandidateMetadata.resetBottomData, ← hv.lowestBottom_eq, ← hv.highestBottom_eq,
    ← hv.bottomCapacity_eq]

omit [LinearOrder AccountId] in
lemma BoardValid.mirrorTop_self (hv : BoardValid cfg m top bottom) :
    m.mirrorTop cfg top = m := by
  have htotal : m.bond + top.total = m.votingPower := by
    rw [hv.votingPower_eq]
    exact congrArg (m.bond + ·) hv.top_exact
  rw [CandidateMetadata.mirrorTop, ← hv.lowestTop_eq, ← hv.topCapacity_eq, htotal]

/-- Mirroring the new lists makes a valid board of them, if they form a leaderboard and the
count follows. -/
lemma BoardMove.of_lists {out inn : List (Bond AccountId)} {exact : Prop}
    (hv : BoardValid cfg m top bottom)
    (htiers : Tiers Bond.amount Bond.owner cfg.maxTopNominationsPerCandidate
      cfg.maxBottomNominationsPerCandidate top'.nominations bottom'.nominations)
    (htop : top'.Exact) (hbottom : exact → bottom.Exact → bottom'.Exact)
    (hperm : (out ++ (top'.nominations ++ bottom'.nominations)).Perm
      (inn ++ (top.nominations ++ bottom.nominations)))
    (hcount : out.length + m'.nominationCount = inn.length + m.nominationCount)
    (hm : m' = { (m.resetBottomData cfg bottom').mirrorTop cfg top' with
      nominationCount := m'.nominationCount })
    (hl : l' = l.withLists c top' bottom' l'.candidatePool) :
    BoardMove cfg l c m top bottom out inn exact m' l' top' bottom' := by
  have hlen := hperm.length_eq
  simp only [List.length_append] at hlen
  have hold := hv.count_eq
  obtain ⟨k, rfl⟩ : ∃ k, m' = { (m.resetBottomData cfg bottom').mirrorTop cfg top' with
      nominationCount := k } := ⟨_, hm⟩
  refine ⟨hl, rfl, ⟨htiers, htop, rfl, rfl, rfl, rfl, rfl, ?_, ?_⟩, hperm, hbottom⟩
  · simp only at hcount ⊢
    omega
  · exact congrArg (m.bond + ·) htop

/-- Writing the top list after `reset_top_data`. -/
lemma Ledger.putTop_reset (cfg : Config AccountId) (m : CandidateMetadata AccountId)
    (top' : Nominations AccountId) (hb : l.bottomNominations.get c = some bottom) :
    (CandidateMetadata.resetTopData cfg l m c top').2.putTop c top' =
      l.withLists c top' bottom
        (CandidateMetadata.resetTopData cfg l m c top').2.candidatePool := by
  obtain ⟨pool, hpool⟩ := CandidateMetadata.resetTopData_ledger cfg l m c top'
  rw [hpool, Ledger.withLists, StorageMap.insert_eq_self hb]
  rfl

/-- Writing both lists, the bottom one first. -/
lemma Ledger.putTop_reset_putBottom (cfg : Config AccountId) (m : CandidateMetadata AccountId)
    (top' bottom' : Nominations AccountId) :
    (CandidateMetadata.resetTopData cfg (l.putBottom c bottom') m c top').2.putTop c top' =
      l.withLists c top' bottom'
        (CandidateMetadata.resetTopData cfg (l.putBottom c bottom') m c top').2.candidatePool := by
  have hb : (l.putBottom c bottom').bottomNominations.get c = some bottom' :=
    StorageMap.get_insert_self _ _ _
  rw [Ledger.putTop_reset cfg m top' hb]
  simp only [Ledger.withLists, Ledger.putBottom, StorageMap.insert_insert]

/-- Writing both lists, the top one first. -/
lemma Ledger.putBottom_putTop_reset (cfg : Config AccountId) (m : CandidateMetadata AccountId)
    (top' bottom' : Nominations AccountId) :
    ((CandidateMetadata.resetTopData cfg l m c top').2.putTop c top').putBottom c bottom' =
      l.withLists c top' bottom'
        (CandidateMetadata.resetTopData cfg l m c top').2.candidatePool := by
  obtain ⟨pool, hpool⟩ := CandidateMetadata.resetTopData_ledger cfg l m c top'
  rw [hpool]
  rfl

lemma Ledger.putBottom_eq (bottom' : Nominations AccountId)
    (ht : l.topNominations.get c = some top) :
    l.putBottom c bottom' = l.withLists c top bottom' l.candidatePool := by
  rw [Ledger.withLists, StorageMap.insert_eq_self ht]
  rfl

end Moves

/-! ## Remove -/

namespace CandidateMetadata

variable {cfg : Config AccountId} {l l' : Ledger AccountId} {c n : AccountId}
  {m m' : CandidateMetadata AccountId} {top bottom : Nominations AccountId} {b : Bool}

lemma mem_of_getLast?_filter {ns : List (Bond AccountId)} {x : Bond AccountId}
    (h : (ns.filter fun d => d.owner = n).getLast? = some x) : x ∈ ns ∧ x.owner = n := by
  have := List.mem_filter.mp (List.mem_of_getLast? h)
  simpa using this

/-- `rm_top_nomination` takes the nominator's nomination off the board. -/
lemma rmTopNomination_moves (ho : BoardOrdered cfg m top bottom)
    (htop : l.topNominations.get c = some top) (hbottom : l.bottomNominations.get c = some bottom)
    (h : rmTopNomination cfg l m c n = .ok (b, m', l')) :
    ∃ x ∈ top.nominations, x.owner = n ∧ ∃ top' bottom',
      ListMove l c m top bottom [x] [] m' l' top' bottom' ∧
      (BoardValid cfg m top bottom →
        BoardMove cfg l c m top bottom [x] [] True m' l' top' bottom') := by
  have hcount : ∀ x ∈ top.nominations, 1 ≤ m.nominationCount := by
    intro x hx
    have := List.length_pos_of_mem hx
    have := ho.count_eq
    omega
  cases hb : bottom.nominations with
  | nil =>
      simp only [rmTopNomination, bind_eq_ok, okOr_eq_ok, htop, Option.some.injEq, exists_eq_left',
        ho.bottomCapacity_eq_empty.mpr hb, ne_eq, not_true_eq_false, if_false, pure_eq_ok,
        Prod.mk.injEq] at h
      obtain ⟨x, hx, -, rfl, rfl⟩ := h
      obtain ⟨hmem, rfl⟩ := mem_of_getLast?_filter hx
      have hperm := perm_cons_filter ho.tiers.nodup_top hmem
      have hmoved : ([x] ++ ((top.nominations.filter fun d => d.owner ≠ x.owner) ++
          bottom.nominations)).Perm ([] ++ (top.nominations ++ bottom.nominations)) := by
        simpa [hb] using hperm.symm
      refine ⟨x, hmem, rfl, _, bottom, ⟨Ledger.putTop_reset cfg m _ hbottom, rfl, hmoved⟩,
        fun hv => BoardMove.of_lists hv ?_ (hv.top_exact.filter hv.tiers.nodup_top hmem)
          (fun _ h => h) hmoved ?_ ?_ (Ledger.putTop_reset cfg m _ hbottom)⟩
      · rw [hb]
        exact (hb ▸ ho.tiers).leaveTop fun d => d.owner ≠ x.owner
      · have := hcount x hmem
        simp [decrementNominationCount, resetTopData, mirrorTop]
        omega
      · rw [hv.resetBottomData_self]
        rfl
  | cons y rest =>
      simp only [rmTopNomination, bind_eq_ok, okOr_eq_ok, htop, exists_eq_left', hb, hbottom,
        ho.bottomCapacity_eq_empty, ne_eq, List.cons_ne_nil, not_false_eq_true, if_true,
        pure_eq_ok, Prod.mk.injEq, okOr_some, ok_bind, List.head?_cons, List.tail_cons] at h
      obtain ⟨x, hx, -, rfl, rfl⟩ := h
      obtain ⟨hmem, rfl⟩ := mem_of_getLast?_filter hx
      have hperm := perm_cons_filter ho.tiers.nodup_top hmem
      have hdesc : Desc Bond.amount (top.nominations.filter fun d => d.owner ≠ x.owner) :=
        ho.tiers.top_desc.sublist List.filter_sublist
      have hins := Nominations.insertSorted_nominations hdesc (top.total - x.amount) y
      have hmoved : ([x] ++ (((⟨top.nominations.filter fun d => d.owner ≠ x.owner,
          top.total - x.amount⟩ : Nominations AccountId).insertSortedGreatestToLeast
            y).nominations ++ rest)).Perm ([] ++ (top.nominations ++ bottom.nominations)) := by
        rw [hins, hb]
        refine (((rankInsert_perm _ _ _).append_right rest).cons x).trans ?_
        exact ((hperm.append_right _).trans (List.perm_middle.cons x)).symm
      refine ⟨x, hmem, rfl, _, ⟨rest, bottom.total - y.amount⟩,
        ⟨Ledger.putTop_reset_putBottom cfg _ _ _, rfl, hmoved⟩,
        fun hv => BoardMove.of_lists hv ?_
          ((hv.top_exact.filter hv.tiers.nodup_top hmem).insertSorted hdesc y)
          (fun _ he => he.tail hb) hmoved ?_ rfl (Ledger.putTop_reset_putBottom cfg _ _ _)⟩
      · rw [hins]
        exact (hb ▸ ho.tiers).promote hmem
      · have := hcount x hmem
        simp [decrementNominationCount, resetTopData, mirrorTop, resetBottomData]
        omega

/-- It fails exactly when the nominator is not in the top list. -/
lemma rmTopNomination_of_mem (ho : BoardOrdered cfg m top bottom)
    (htop : l.topNominations.get c = some top) (hbottom : l.bottomNominations.get c = some bottom)
    {x : Bond AccountId} (hx : x ∈ top.nominations) :
    ∃ r, rmTopNomination cfg l m c x.owner = .ok r := by
  have hf := Nominations.filter_owner ho.tiers.nodup_top hx
  cases hb : bottom.nominations with
  | nil =>
      simp only [rmTopNomination, htop, hf, ho.bottomCapacity_eq_empty.mpr hb, okOr_some, ok_bind,
        List.getLast?_singleton, ne_eq, not_true_eq_false, if_false]
      exact ⟨_, rfl⟩
  | cons y rest =>
      simp only [rmTopNomination, htop, hf, hb, hbottom, ho.bottomCapacity_eq_empty, okOr_some,
        ok_bind, List.getLast?_singleton, ne_eq, List.cons_ne_nil, not_false_eq_true, if_true,
        List.head?_cons]
      exact ⟨_, rfl⟩

lemma rmTopNomination_of_forall (cfg : Config AccountId) (m : CandidateMetadata AccountId)
    (htop : l.topNominations.get c = some top) (hn : ∀ x ∈ top.nominations, x.owner ≠ n) :
    rmTopNomination cfg l m c n = .error .nominationDNE := by
  simp only [rmTopNomination, htop, Nominations.filter_owner_of_forall hn, okOr_some, ok_bind,
    List.getLast?_nil, okOr_none, error_bind]

/-- `rm_bottom_nomination` takes the nominator's nomination off the board. -/
lemma rmBottomNomination_moves (ho : BoardOrdered cfg m top bottom)
    (htop : l.topNominations.get c = some top) (hbottom : l.bottomNominations.get c = some bottom)
    (h : rmBottomNomination cfg l m c n = .ok (b, m', l')) :
    ∃ x ∈ bottom.nominations, x.owner = n ∧ ∃ top' bottom',
      ListMove l c m top bottom [x] [] m' l' top' bottom' ∧
      (BoardValid cfg m top bottom →
        BoardMove cfg l c m top bottom [x] [] True m' l' top' bottom') := by
  simp only [rmBottomNomination, bind_eq_ok, okOr_eq_ok, hbottom, Option.some.injEq,
    exists_eq_left', pure_eq_ok, Prod.mk.injEq] at h
  obtain ⟨x, hx, -, rfl, rfl⟩ := h
  obtain ⟨hmem, rfl⟩ := mem_of_getLast?_filter hx
  have hperm := perm_cons_filter ho.tiers.nodup_bottom hmem
  have hmoved : ([x] ++ (top.nominations ++ bottom.nominations.filter fun d =>
      d.owner ≠ x.owner)).Perm ([] ++ (top.nominations ++ bottom.nominations)) := by
    rw [List.singleton_append, List.nil_append]
    exact List.perm_middle.symm.trans (hperm.symm.append_left _)
  refine ⟨x, hmem, rfl, top, _, ⟨Ledger.putBottom_eq _ htop, rfl, hmoved⟩,
    fun hv => BoardMove.of_lists hv (ho.tiers.leaveBottom fun d => d.owner ≠ x.owner) hv.top_exact
      (fun _ he => he.filter hv.tiers.nodup_bottom hmem) hmoved ?_ ?_
      (Ledger.putBottom_eq _ htop)⟩
  · have := List.length_pos_of_mem hmem
    have := ho.count_eq
    simp only [decrementNominationCount, resetBottomData, List.length_singleton, List.length_nil]
    omega
  · rw [← hv.mirrorTop_self]
    rfl

lemma rmBottomNomination_of_mem (ho : BoardOrdered cfg m top bottom)
    (hbottom : l.bottomNominations.get c = some bottom) {x : Bond AccountId}
    (hx : x ∈ bottom.nominations) : ∃ r, rmBottomNomination cfg l m c x.owner = .ok r := by
  simp only [rmBottomNomination, hbottom, Nominations.filter_owner ho.tiers.nodup_bottom hx,
    okOr_some, ok_bind, List.getLast?_singleton]
  exact ⟨_, rfl⟩

/-- A result of `topElseBottom` comes from one of the two. -/
lemma topElseBottom_eq_ok {β : Type} {t u : Except Error β} {r : β}
    (h : topElseBottom t u = .ok r) : t = .ok r ∨ u = .ok r := by
  simp only [topElseBottom] at h
  split at h
  · exact Or.inr h
  · exact Or.inl h

/-- **`rm_nomination_if_exists`.**  Whatever amount it is called with, a success takes exactly the
nominator's nomination off the board. -/
lemma rmNominationIfExists_moves {amount : ℕ} (ho : BoardOrdered cfg m top bottom)
    (htop : l.topNominations.get c = some top) (hbottom : l.bottomNominations.get c = some bottom)
    (h : rmNominationIfExists cfg l m c n amount = .ok (b, m', l')) :
    ∃ x ∈ top.nominations ++ bottom.nominations, x.owner = n ∧ ∃ top' bottom',
      ListMove l c m top bottom [x] [] m' l' top' bottom' ∧
      (BoardValid cfg m top bottom →
        BoardMove cfg l c m top bottom [x] [] True m' l' top' bottom') := by
  have key : rmTopNomination cfg l m c n = .ok (b, m', l') ∨
      rmBottomNomination cfg l m c n = .ok (b, m', l') := by
    simp only [rmNominationIfExists] at h
    split_ifs at h
    · exact Or.inl h
    · exact topElseBottom_eq_ok h
    · exact Or.inr h
  rcases key with h | h
  · obtain ⟨x, hx, hn, hmove⟩ := rmTopNomination_moves ho htop hbottom h
    exact ⟨x, List.mem_append_left _ hx, hn, hmove⟩
  · obtain ⟨x, hx, hn, hmove⟩ := rmBottomNomination_moves ho htop hbottom h
    exact ⟨x, List.mem_append_right _ hx, hn, hmove⟩

/-- On a valid board the board stays valid. -/
lemma rmNominationIfExists_spec {amount : ℕ} (hv : BoardValid cfg m top bottom)
    (htop : l.topNominations.get c = some top) (hbottom : l.bottomNominations.get c = some bottom)
    (h : rmNominationIfExists cfg l m c n amount = .ok (b, m', l')) :
    ∃ x ∈ top.nominations ++ bottom.nominations, x.owner = n ∧ ∃ top' bottom',
      BoardMove cfg l c m top bottom [x] [] True m' l' top' bottom' := by
  obtain ⟨x, hx, hn, top', bottom', -, hmove⟩ :=
    rmNominationIfExists_moves hv.ordered htop hbottom h
  exact ⟨x, hx, hn, top', bottom', hmove hv⟩

/-- Called with the amount that is on the board, it succeeds. -/
lemma rmNominationIfExists_of_mem (ho : BoardOrdered cfg m top bottom)
    (htop : l.topNominations.get c = some top) (hbottom : l.bottomNominations.get c = some bottom)
    {x : Bond AccountId} (hx : x ∈ top.nominations ++ bottom.nominations) :
    ∃ r, rmNominationIfExists cfg l m c x.owner x.amount = .ok r := by
  simp only [rmNominationIfExists]
  rcases List.mem_append.mp hx with hx | hx
  · have hlow := ho.lowestTop_le hx
    obtain ⟨r, hr⟩ := rmTopNomination_of_mem ho htop hbottom hx
    simp only [hlow, true_and, hr, topElseBottom]
    split_ifs <;> first | exact ⟨_, rfl⟩ | omega
  · have hfull := ho.tiers.full (List.ne_nil_of_mem hx)
    have hhigh := ho.le_highestBottom hx
    have hbound := ho.highestBottom_le_lowestTop (List.ne_nil_of_mem hx)
    obtain ⟨r, hr⟩ := rmBottomNomination_of_mem ho hbottom hx
    have hnot := rmTopNomination_of_forall cfg m htop fun y hy => ho.tiers.owner_ne hy hx
    simp only [ho.topCapacity_eq_full.mpr hfull, hr, hnot, topElseBottom]
    split_ifs with h1
    · simp at h1
      omega
    · exact ⟨_, rfl⟩
    · exact ⟨_, rfl⟩

end CandidateMetadata

/-! ## Increase -/

namespace CandidateMetadata

variable {cfg : Config AccountId} {l l' : Ledger AccountId} {c n : AccountId}
  {m m' : CandidateMetadata AccountId} {top bottom : Nominations AccountId} {b : Bool}
  {bond more less : ℕ}

/-- `increase_top_nomination` raises the nominator's amount. -/
lemma increaseTopNomination_moves (ho : BoardOrdered cfg m top bottom)
    (htop : l.topNominations.get c = some top) (hbottom : l.bottomNominations.get c = some bottom)
    (hx : (⟨n, bond⟩ : Bond AccountId) ∈ top.nominations ++ bottom.nominations)
    (h : increaseTopNomination cfg l m c n more = .ok (b, m', l')) :
    ∃ top' bottom',
      ListMove l c m top bottom [⟨n, bond⟩] [⟨n, bond + more⟩] m' l' top' bottom' ∧
      (BoardValid cfg m top bottom → BoardMove cfg l c m top bottom [⟨n, bond⟩]
        [⟨n, bond + more⟩] True m' l' top' bottom') := by
  simp only [increaseTopNomination, bind_eq_ok, okOr_eq_ok, htop, Option.some.injEq,
    exists_eq_left', ensure_eq_ok, pure_eq_ok, Prod.mk.injEq] at h
  obtain ⟨-, ⟨x, hmem, howner⟩, -, rfl, rfl⟩ := h
  obtain rfl : x = ⟨n, bond⟩ := ho.tiers.eq_of_owner (List.mem_append_left _ hmem) hx howner
  have hmoved := perm_exchange (Nominations.perm_setAmount ho.tiers.nodup_top hmem (· + more))
    (perm_cons_filter ho.tiers.nodup_top hmem) bottom.nominations
  refine ⟨_, bottom, ⟨Ledger.putTop_reset cfg m _ hbottom, rfl, hmoved⟩,
    fun hv => BoardMove.of_lists hv ?_ ?_ (fun _ h => h) hmoved rfl ?_
      (Ledger.putTop_reset cfg m _ hbottom)⟩
  · refine ho.tiers.reweighTop (g := fun d => ⟨d.owner, d.amount + more⟩) hmem rfl ?_
    intro y hy
    exact (ho.tiers.order y hy _ hmem).trans (Nat.le_add_right _ _)
  · exact hv.top_exact.setAmount hv.tiers.nodup_top hmem (by simp only; omega)
  · rw [hv.resetBottomData_self]
    rfl

lemma increaseTopNomination_of_mem (htop : l.topNominations.get c = some top)
    (hn : ∃ x ∈ top.nominations, x.owner = n) :
    ∃ r, increaseTopNomination cfg l m c n more = .ok r := by
  simp only [increaseTopNomination, htop, okOr_some, ok_bind, ensure_pos hn]
  exact ⟨_, rfl⟩

lemma increaseTopNomination_of_forall (cfg : Config AccountId) (m : CandidateMetadata AccountId)
    (more : ℕ) (htop : l.topNominations.get c = some top)
    (hn : ∀ x ∈ top.nominations, x.owner ≠ n) :
    increaseTopNomination cfg l m c n more = .error .nominationDNE := by
  have hnot : ¬ ∃ x ∈ top.nominations, x.owner = n := fun ⟨x, hx, ho⟩ => hn x hx ho
  simp only [increaseTopNomination, htop, okOr_some, ok_bind, ensure_neg hnot, error_bind]

/-- `increase_bottom_nomination` raises the nominator's amount. -/
lemma increaseBottomNomination_moves (ho : BoardOrdered cfg m top bottom)
    (htop : l.topNominations.get c = some top) (hbottom : l.bottomNominations.get c = some bottom)
    (hx : (⟨n, bond⟩ : Bond AccountId) ∈ top.nominations ++ bottom.nominations)
    (h : increaseBottomNomination cfg l m c n bond more = .ok (b, m', l')) :
    ∃ top' bottom',
      ListMove l c m top bottom [⟨n, bond⟩] [⟨n, bond + more⟩] m' l' top' bottom' ∧
      (BoardValid cfg m top bottom → BoardMove cfg l c m top bottom [⟨n, bond⟩]
        [⟨n, bond + more⟩] True m' l' top' bottom') := by
  simp only [increaseBottomNomination, hbottom, okOr_some, ok_bind] at h
  by_cases hlow : m.lowestTopNominationAmount < bond + more
  · -- it outgrows the lowest top nomination, which takes its place at the bottom
    rw [if_pos hlow] at h
    simp only [bind_eq_ok, okOr_eq_ok, htop, Option.some.injEq, exists_eq_left'] at h
    obtain ⟨x, hlast, h⟩ := h
    obtain ⟨hmem, howner⟩ := mem_of_getLast?_filter hlast
    obtain rfl : x = ⟨n, bond⟩ := ho.tiers.eq_of_owner (List.mem_append_right _ hmem) hx howner
    have hfull := ho.tiers.full (List.ne_nil_of_mem hmem)
    obtain ⟨t, y, ht, hy⟩ := ho.exists_lowestTop hfull
    have hcap : top.topCapacity cfg = .full := by
      rw [← ho.topCapacity_eq, ho.topCapacity_eq_full]
      exact hfull
    have htiers := ht ▸ ho.tiers
    have htdesc : Desc Bond.amount t := htiers.top_desc.sublist (List.sublist_append_left _ _)
    have hbdesc : Desc Bond.amount (bottom.nominations.filter fun d => d.owner ≠ n) :=
      ho.tiers.bottom_desc.sublist List.filter_sublist
    have hrest := perm_cons_filter ho.tiers.nodup_bottom hmem
    simp only [if_pos hcap, ht, List.getLast?_concat, List.dropLast_concat, bind_eq_ok, okOr_eq_ok,
      Option.some.injEq, exists_eq_left', pure_eq_ok, Prod.mk.injEq] at h
    obtain ⟨-, rfl, rfl⟩ := h
    have hmoved : ([(⟨n, bond⟩ : Bond AccountId)] ++ (((⟨t, top.total - y.amount⟩ : Nominations
        AccountId).insertSortedGreatestToLeast ⟨n, bond + more⟩).nominations ++
          ((⟨bottom.nominations.filter fun d => d.owner ≠ n, bottom.total - bond⟩ :
            Nominations AccountId).insertSortedGreatestToLeast y).nominations)).Perm
        ([(⟨n, bond + more⟩ : Bond AccountId)] ++ (top.nominations ++ bottom.nominations)) := by
      rw [Nominations.insertSorted_nominations htdesc, Nominations.insertSorted_nominations hbdesc,
        ht]
      refine (((rankInsert_perm _ _ _).append (rankInsert_perm _ _ _)).cons _).trans ?_
      refine (List.Perm.swap _ _ _).trans (List.Perm.cons _ ?_)
      rw [List.append_assoc]
      refine List.perm_middle.symm.trans (List.Perm.append_left t ?_)
      exact (List.Perm.swap _ _ _).trans (hrest.symm.cons y)
    refine ⟨_, _, ⟨Ledger.putBottom_putTop_reset cfg m _ _, rfl, hmoved⟩, fun hv => BoardMove.of_lists hv ?_
      ((hv.top_exact.dropLast ht).insertSorted htdesc _)
      (fun _ he => (he.filter hv.tiers.nodup_bottom hmem).insertSorted hbdesc y) hmoved rfl rfl
      (Ledger.putBottom_putTop_reset cfg m _ _)⟩
    rw [Nominations.insertSorted_nominations htdesc, Nominations.insertSorted_nominations hbdesc]
    exact htiers.overtake hmem rfl (hy ▸ hlow)
  · -- it stays where it is
    rw [if_neg hlow] at h
    simp only [bind_eq_ok, ensure_eq_ok, pure_eq_ok, exists_eq_left', Prod.mk.injEq] at h
    obtain ⟨-, ⟨x, hmem, howner⟩, -, rfl, rfl⟩ := h
    obtain rfl : x = ⟨n, bond⟩ := ho.tiers.eq_of_owner (List.mem_append_right _ hmem) hx howner
    have hmoved := perm_exchange_right
      (Nominations.perm_setAmount ho.tiers.nodup_bottom hmem (· + more))
      (perm_cons_filter ho.tiers.nodup_bottom hmem) top.nominations
    refine ⟨top, _, ⟨Ledger.putBottom_eq _ htop, rfl, hmoved⟩,
      fun hv => BoardMove.of_lists hv ?_ hv.top_exact
        (fun _ he => he.setAmount hv.tiers.nodup_bottom hmem (by simp only; omega)) hmoved rfl ?_
        (Ledger.putBottom_eq _ htop)⟩
    · refine ho.tiers.reweighBottom (g := fun d => ⟨d.owner, d.amount + more⟩) hmem rfl ?_
      intro t ht
      have := ho.lowestTop_le ht
      simp only
      omega
    · rw [← hv.mirrorTop_self]
      rfl

lemma increaseBottomNomination_of_mem (ho : BoardOrdered cfg m top bottom)
    (htop : l.topNominations.get c = some top) (hbottom : l.bottomNominations.get c = some bottom)
    {x : Bond AccountId} (hx : x ∈ bottom.nominations) :
    ∃ r, increaseBottomNomination cfg l m c x.owner bond more = .ok r := by
  obtain ⟨t, y, ht, -⟩ := ho.exists_lowestTop (ho.tiers.full (List.ne_nil_of_mem hx))
  have hn : ∃ d ∈ bottom.nominations, d.owner = x.owner := ⟨x, hx, rfl⟩
  simp only [increaseBottomNomination, htop, hbottom, okOr_some, ok_bind, ht,
    Nominations.filter_owner ho.tiers.nodup_bottom hx, List.getLast?_singleton,
    List.getLast?_concat, ensure_pos hn]
  split_ifs <;> exact ⟨_, rfl⟩

omit [LinearOrder AccountId] in
/-- **The choice between the two lists.**  Called with the amount that is on the board, the shared
branching of increase and decrease runs the function of the list the nomination is on. -/
lemma dispatch {β : Type} {t u : Except Error β} (ho : BoardOrdered cfg m top bottom)
    (hx : (⟨n, bond⟩ : Bond AccountId) ∈ top.nominations ++ bottom.nominations)
    (ht : (⟨n, bond⟩ : Bond AccountId) ∈ top.nominations → ∃ r, t = .ok r)
    (hu : (⟨n, bond⟩ : Bond AccountId) ∈ bottom.nominations → ∃ r, u = .ok r)
    (hnot : (∀ x ∈ top.nominations, x.owner ≠ n) → t = .error .nominationDNE) :
    ∃ r, (if m.lowestTopNominationAmount ≤ bond ∧
          ¬ m.lowestTopNominationAmount = m.highestBottomNominationAmount then t
        else if m.lowestTopNominationAmount ≤ bond ∧
          m.lowestTopNominationAmount = m.highestBottomNominationAmount then topElseBottom t u
        else u) = .ok r ∧
      ((⟨n, bond⟩ : Bond AccountId) ∈ top.nominations ∧ t = .ok r ∨
        (⟨n, bond⟩ : Bond AccountId) ∈ bottom.nominations ∧ u = .ok r) := by
  rcases List.mem_append.mp hx with hmem | hmem
  · obtain ⟨r, rfl⟩ := ht hmem
    have hlow : m.lowestTopNominationAmount ≤ bond := ho.lowestTop_le hmem
    refine ⟨r, ?_, Or.inl ⟨hmem, rfl⟩⟩
    simp only [hlow, true_and, topElseBottom]
    split_ifs <;> rfl
  · obtain ⟨r, rfl⟩ := hu hmem
    have hhigh : bond ≤ m.highestBottomNominationAmount := ho.le_highestBottom hmem
    have hbound := ho.highestBottom_le_lowestTop (List.ne_nil_of_mem hmem)
    have hnot := hnot fun y hy => ho.tiers.owner_ne hy hmem
    refine ⟨r, ?_, Or.inr ⟨hmem, rfl⟩⟩
    simp only [hnot, topElseBottom]
    split_ifs with h1
    · omega
    · rfl
    · rfl

/-- **`increase_nomination`.**  Called with the amount that is on the board, it succeeds and
raises that amount. -/
lemma increaseNomination_moves (more : ℕ) (ho : BoardOrdered cfg m top bottom)
    (htop : l.topNominations.get c = some top) (hbottom : l.bottomNominations.get c = some bottom)
    (hx : (⟨n, bond⟩ : Bond AccountId) ∈ top.nominations ++ bottom.nominations) :
    ∃ b m' l' top' bottom', increaseNomination cfg l m c n bond more = .ok (b, m', l') ∧
      ListMove l c m top bottom [⟨n, bond⟩] [⟨n, bond + more⟩] m' l' top' bottom' ∧
      (BoardValid cfg m top bottom → BoardMove cfg l c m top bottom [⟨n, bond⟩]
        [⟨n, bond + more⟩] True m' l' top' bottom') := by
  obtain ⟨⟨b, m', l'⟩, hr, hcases⟩ := dispatch ho hx
    (t := increaseTopNomination cfg l m c n more)
    (u := increaseBottomNomination cfg l m c n bond more)
    (fun hmem => increaseTopNomination_of_mem htop ⟨_, hmem, rfl⟩)
    (fun hmem => increaseBottomNomination_of_mem ho htop hbottom hmem)
    (increaseTopNomination_of_forall cfg m more htop)
  rcases hcases with ⟨-, h⟩ | ⟨-, h⟩
  · obtain ⟨top', bottom', hmove⟩ := increaseTopNomination_moves ho htop hbottom hx h
    exact ⟨b, m', l', top', bottom', hr, hmove⟩
  · obtain ⟨top', bottom', hmove⟩ := increaseBottomNomination_moves ho htop hbottom hx h
    exact ⟨b, m', l', top', bottom', hr, hmove⟩

/-- On a valid board the board stays valid. -/
lemma increaseNomination_spec (more : ℕ) (hv : BoardValid cfg m top bottom)
    (htop : l.topNominations.get c = some top) (hbottom : l.bottomNominations.get c = some bottom)
    (hx : (⟨n, bond⟩ : Bond AccountId) ∈ top.nominations ++ bottom.nominations) :
    ∃ b m' l' top' bottom', increaseNomination cfg l m c n bond more = .ok (b, m', l') ∧
      BoardMove cfg l c m top bottom [⟨n, bond⟩] [⟨n, bond + more⟩] True m' l' top' bottom' := by
  obtain ⟨b, m', l', top', bottom', hr, -, hmove⟩ :=
    increaseNomination_moves more hv.ordered htop hbottom hx
  exact ⟨b, m', l', top', bottom', hr, hmove hv⟩

/-! ## Decrease -/

/-- `decrease_top_nomination` lowers the nominator's amount. -/
lemma decreaseTopNomination_moves (ho : BoardOrdered cfg m top bottom)
    (htop : l.topNominations.get c = some top) (hbottom : l.bottomNominations.get c = some bottom)
    (hx : (⟨n, bond⟩ : Bond AccountId) ∈ top.nominations ++ bottom.nominations)
    (h : decreaseTopNomination cfg l m c n bond less = .ok (b, m', l')) :
    ∃ top' bottom',
      ListMove l c m top bottom [⟨n, bond⟩] [⟨n, bond - less⟩] m' l' top' bottom' ∧
      (less ≤ bond → BoardValid cfg m top bottom → BoardMove cfg l c m top bottom [⟨n, bond⟩]
        [⟨n, bond - less⟩] True m' l' top' bottom') := by
  simp only [decreaseTopNomination, htop, okOr_some, ok_bind] at h
  by_cases hfall : bond - less < m.highestBottomNominationAmount ∧
      m.topCapacity = .full ∧ m.bottomCapacity ≠ .empty
  · -- it falls below the highest bottom nomination, which takes its place at the top
    rw [if_pos hfall] at h
    obtain ⟨hlow, -, hne⟩ := hfall
    rw [ne_eq, ho.bottomCapacity_eq_empty] at hne
    obtain ⟨y, rest, hb⟩ := List.exists_cons_of_ne_nil hne
    have hhigh : m.highestBottomNominationAmount = y.amount := by
      rw [ho.highestBottom_eq, Nominations.highestNominationAmount, hb]
      rfl
    simp only [bind_eq_ok, okOr_eq_ok, hbottom, Option.some.injEq, exists_eq_left', hb,
      List.head?_cons, List.tail_cons, pure_eq_ok, Prod.mk.injEq] at h
    obtain ⟨x, hlast, -, rfl, rfl⟩ := h
    obtain ⟨hmem, howner⟩ := mem_of_getLast?_filter hlast
    obtain rfl : x = ⟨n, bond⟩ := ho.tiers.eq_of_owner (List.mem_append_left _ hmem) hx howner
    have hf := Nominations.filter_owner ho.tiers.nodup_top hmem
    simp only at hf
    have htiers := hb ▸ ho.tiers
    have htdesc : Desc Bond.amount (top.nominations.filter fun d => d.owner ≠ n) :=
      ho.tiers.top_desc.sublist List.filter_sublist
    have hbdesc : Desc Bond.amount rest := (List.pairwise_cons.mp htiers.bottom_desc).2
    have hrest := perm_cons_filter ho.tiers.nodup_top hmem
    have hmoved : ([(⟨n, bond⟩ : Bond AccountId)] ++ (((⟨top.nominations.filter fun d => d.owner ≠ n,
        top.total - bond⟩ : Nominations AccountId).insertSortedGreatestToLeast y).nominations ++
          ((⟨rest, bottom.total - y.amount⟩ : Nominations AccountId).insertSortedGreatestToLeast
            ⟨n, bond - less⟩).nominations)).Perm
        ([(⟨n, bond - less⟩ : Bond AccountId)] ++ (top.nominations ++ bottom.nominations)) := by
      rw [Nominations.insertSorted_nominations htdesc, Nominations.insertSorted_nominations hbdesc,
        hb]
      refine (((rankInsert_perm _ _ _).append (rankInsert_perm _ _ _)).cons _).trans ?_
      rw [List.cons_append]
      refine ((List.perm_middle.cons y).cons _).trans ?_
      refine ((List.Perm.swap _ _ _).cons _).trans ((List.Perm.swap _ _ _).trans ?_)
      refine List.Perm.cons _ (((List.Perm.cons _ List.perm_middle.symm)).trans ?_)
      exact hrest.symm.append_right _
    simp only [hf, List.foldl_cons, List.foldl_nil]
    refine ⟨_, _, ⟨Ledger.putTop_reset_putBottom cfg _ _ _, rfl, hmoved⟩,
      fun _ hv => BoardMove.of_lists hv ?_
        ((hv.top_exact.filter hv.tiers.nodup_top hmem).insertSorted htdesc y)
        (fun _ he => (he.tail hb).insertSorted hbdesc _) hmoved rfl rfl
        (Ledger.putTop_reset_putBottom cfg _ _ _)⟩
    rw [Nominations.insertSorted_nominations htdesc, Nominations.insertSorted_nominations hbdesc]
    exact htiers.fallBehind hmem rfl (hhigh ▸ hlow)
  · -- it stays where it is
    rw [if_neg hfall] at h
    simp only [bind_eq_ok, ensure_eq_ok, pure_eq_ok, exists_eq_left', Prod.mk.injEq] at h
    obtain ⟨-, ⟨x, hmem, howner⟩, -, rfl, rfl⟩ := h
    obtain rfl : x = ⟨n, bond⟩ := ho.tiers.eq_of_owner (List.mem_append_left _ hmem) hx howner
    have hmoved := perm_exchange (Nominations.perm_setAmount ho.tiers.nodup_top hmem (· - less))
      (perm_cons_filter ho.tiers.nodup_top hmem) bottom.nominations
    refine ⟨_, bottom, ⟨Ledger.putTop_reset cfg m _ hbottom, rfl, hmoved⟩,
      fun hless hv => BoardMove.of_lists hv ?_ ?_ (fun _ h => h) hmoved rfl ?_
        (Ledger.putTop_reset cfg m _ hbottom)⟩
    · refine ho.tiers.reweighTop (g := fun d => ⟨d.owner, d.amount - less⟩) hmem rfl ?_
      intro y hy
      have hne := List.ne_nil_of_mem hy
      have hhigh := ho.le_highestBottom hy
      have hnot : ¬ bond - less < m.highestBottomNominationAmount := fun hlt => hfall
        ⟨hlt, ho.topCapacity_eq_full.mpr (ho.tiers.full hne), fun he =>
          hne (ho.bottomCapacity_eq_empty.mp he)⟩
      simp only
      omega
    · refine hv.top_exact.setAmount hv.tiers.nodup_top hmem ?_
      have hle : bond ≤ top.total := by
        rw [hv.top_exact]
        exact List.single_le_sum (by simp) _ (List.mem_map_of_mem (f := Bond.amount) hmem)
      simp only
      omega
    · rw [hv.resetBottomData_self]
      rfl

lemma decreaseTopNomination_of_mem (ho : BoardOrdered cfg m top bottom)
    (htop : l.topNominations.get c = some top) (hbottom : l.bottomNominations.get c = some bottom)
    {x : Bond AccountId} (hx : x ∈ top.nominations) :
    ∃ r, decreaseTopNomination cfg l m c x.owner bond less = .ok r := by
  have hn : ∃ d ∈ top.nominations, d.owner = x.owner := ⟨x, hx, rfl⟩
  simp only [decreaseTopNomination, htop, hbottom, okOr_some, ok_bind,
    Nominations.filter_owner ho.tiers.nodup_top hx, List.getLast?_singleton, ensure_pos hn]
  split_ifs with hfall
  · have hne := hfall.2.2
    rw [ne_eq, ho.bottomCapacity_eq_empty] at hne
    obtain ⟨y, rest, hb⟩ := List.exists_cons_of_ne_nil hne
    simp only [hb, List.head?_cons, okOr_some, ok_bind]
    exact ⟨_, rfl⟩
  · exact ⟨_, rfl⟩

lemma decreaseTopNomination_of_forall (cfg : Config AccountId) (m : CandidateMetadata AccountId)
    (bond less : ℕ) (htop : l.topNominations.get c = some top)
    (hn : ∀ x ∈ top.nominations, x.owner ≠ n) :
    decreaseTopNomination cfg l m c n bond less = .error .nominationDNE := by
  have hnot : ¬ ∃ x ∈ top.nominations, x.owner = n := fun ⟨x, hx, ho⟩ => hn x hx ho
  simp only [decreaseTopNomination, htop, okOr_some, ok_bind, ensure_neg hnot, error_bind,
    Nominations.filter_owner_of_forall hn, List.getLast?_nil, okOr_none, ite_self]

/-- `decrease_bottom_nomination` lowers the nominator's amount; the cached total of the list is
right afterwards only if there was nothing to take off it. -/
lemma decreaseBottomNomination_moves (ho : BoardOrdered cfg m top bottom)
    (htop : l.topNominations.get c = some top) (hbottom : l.bottomNominations.get c = some bottom)
    (hx : (⟨n, bond⟩ : Bond AccountId) ∈ top.nominations ++ bottom.nominations)
    (h : decreaseBottomNomination cfg l m c n less = .ok (b, m', l')) :
    ∃ top' bottom',
      ListMove l c m top bottom [⟨n, bond⟩] [⟨n, bond - less⟩] m' l' top' bottom' ∧
      (BoardValid cfg m top bottom → BoardMove cfg l c m top bottom [⟨n, bond⟩]
        [⟨n, bond - less⟩] (less = 0) m' l' top' bottom') := by
  simp only [decreaseBottomNomination, bind_eq_ok, okOr_eq_ok, hbottom, Option.some.injEq,
    exists_eq_left', ensure_eq_ok, pure_eq_ok, Prod.mk.injEq] at h
  obtain ⟨-, ⟨x, hmem, howner⟩, -, rfl, rfl⟩ := h
  obtain rfl : x = ⟨n, bond⟩ := ho.tiers.eq_of_owner (List.mem_append_right _ hmem) hx howner
  have hmoved := perm_exchange_right
    (Nominations.perm_setAmount ho.tiers.nodup_bottom hmem (· - less))
    (perm_cons_filter ho.tiers.nodup_bottom hmem) top.nominations
  refine ⟨top, _, ⟨Ledger.putBottom_eq _ htop, rfl, hmoved⟩,
    fun hv => BoardMove.of_lists hv ?_ hv.top_exact ?_ hmoved rfl ?_ (Ledger.putBottom_eq _ htop)⟩
  · refine ho.tiers.reweighBottom (g := fun d => ⟨d.owner, d.amount - less⟩) hmem rfl ?_
    intro t ht
    exact (Nat.sub_le _ _).trans (ho.tiers.order _ hmem t ht)
  · intro hzero he
    exact he.setAmount hv.tiers.nodup_bottom hmem (by simp [hzero])
  · rw [← hv.mirrorTop_self]
    rfl

lemma decreaseBottomNomination_of_mem (hbottom : l.bottomNominations.get c = some bottom)
    (hn : ∃ x ∈ bottom.nominations, x.owner = n) :
    ∃ r, decreaseBottomNomination cfg l m c n less = .ok r := by
  simp only [decreaseBottomNomination, hbottom, okOr_some, ok_bind, ensure_pos hn]
  exact ⟨_, rfl⟩

/-- **`decrease_nomination`.**  Called with the amount that is on the board, it succeeds and
lowers that amount. -/
lemma decreaseNomination_moves (less : ℕ) (ho : BoardOrdered cfg m top bottom)
    (htop : l.topNominations.get c = some top) (hbottom : l.bottomNominations.get c = some bottom)
    (hx : (⟨n, bond⟩ : Bond AccountId) ∈ top.nominations ++ bottom.nominations) :
    ∃ b m' l' top' bottom', decreaseNomination cfg l m c n bond less = .ok (b, m', l') ∧
      ListMove l c m top bottom [⟨n, bond⟩] [⟨n, bond - less⟩] m' l' top' bottom' ∧
      (less ≤ bond → BoardValid cfg m top bottom →
        BoardMove cfg l c m top bottom [⟨n, bond⟩] [⟨n, bond - less⟩]
          ((⟨n, bond⟩ : Bond AccountId) ∈ bottom.nominations → less = 0) m' l' top' bottom') := by
  obtain ⟨⟨b, m', l'⟩, hr, hcases⟩ := dispatch ho hx
    (t := decreaseTopNomination cfg l m c n bond less)
    (u := decreaseBottomNomination cfg l m c n less)
    (fun hmem => decreaseTopNomination_of_mem ho htop hbottom hmem)
    (fun hmem => decreaseBottomNomination_of_mem hbottom ⟨_, hmem, rfl⟩)
    (decreaseTopNomination_of_forall cfg m bond less htop)
  rcases hcases with ⟨-, h⟩ | ⟨hmem, h⟩
  · obtain ⟨top', bottom', hlists, hboard⟩ := decreaseTopNomination_moves ho htop hbottom hx h
    refine ⟨b, m', l', top', bottom', hr, hlists, fun hless hv => ?_⟩
    have hmove := hboard hless hv
    exact { hmove with bottom_exact := fun _ => hmove.bottom_exact trivial }
  · obtain ⟨top', bottom', hlists, hboard⟩ := decreaseBottomNomination_moves ho htop hbottom hx h
    refine ⟨b, m', l', top', bottom', hr, hlists, fun _ hv => ?_⟩
    have hmove := hboard hv
    exact { hmove with bottom_exact := fun hz => hmove.bottom_exact (hz hmem) }

/-- On a valid board the board stays valid. -/
lemma decreaseNomination_spec (hv : BoardValid cfg m top bottom)
    (htop : l.topNominations.get c = some top) (hbottom : l.bottomNominations.get c = some bottom)
    (hx : (⟨n, bond⟩ : Bond AccountId) ∈ top.nominations ++ bottom.nominations)
    (hless : less ≤ bond) :
    ∃ b m' l' top' bottom', decreaseNomination cfg l m c n bond less = .ok (b, m', l') ∧
      BoardMove cfg l c m top bottom [⟨n, bond⟩] [⟨n, bond - less⟩]
        ((⟨n, bond⟩ : Bond AccountId) ∈ bottom.nominations → less = 0) m' l' top' bottom' := by
  obtain ⟨b, m', l', top', bottom', hr, -, hmove⟩ :=
    decreaseNomination_moves less hv.ordered htop hbottom hx
  exact ⟨b, m', l', top', bottom', hr, hmove hless hv⟩

end CandidateMetadata

/-! ## Add -/

/-- What a kick does outside the board: the kicked amount is unreserved and the nomination is
dropped from its owner's record, or the record goes if it was the only one. -/
def Kicked (l l' : Ledger AccountId) (c : AccountId) : Option (Bond AccountId) → Prop
  | none => l' = l
  | some k => ∃ st, l.nominatorState.get k.owner = some st ∧
      l' = { l with
        currency := l.currency.unreserve k.owner k.amount
        nominatorState :=
          if st.nominations.keys.card = 1 then l.nominatorState.remove k.owner
          else l.nominatorState.insert k.owner (st.dropNomination c) }

/-- A kick leaves the lists and everything else on the candidates' side alone. -/
lemma Kicked.lists {l l' : Ledger AccountId} {c : AccountId} {kicked : Option (Bond AccountId)}
    (h : Kicked l l' c kicked) :
    l'.topNominations = l.topNominations ∧ l'.bottomNominations = l.bottomNominations ∧
      l'.candidateInfo = l.candidateInfo ∧ l'.bondedStash = l.bondedStash ∧
      l'.total = l.total ∧ l'.warnings = l.warnings := by
  cases kicked with
  | none =>
      obtain rfl := h
      simp
  | some k =>
      obtain ⟨st, -, rfl⟩ := h
      simp

namespace CandidateMetadata

variable {cfg : Config AccountId} {l l' : Ledger AccountId} {c n : AccountId}
  {m m' : CandidateMetadata AccountId} {top bottom : Nominations AccountId} {x : Bond AccountId}

/-- `add_bottom_nomination` inserts into the bottom list, from which it first kicks the last
nomination if the list is full. -/
lemma addBottomNomination_inv {bumped : Bool} (hbottom : l.bottomNominations.get c = some bottom)
    (hle : bottom.nominations.length ≤ cfg.maxBottomNominationsPerCandidate)
    (h : addBottomNomination cfg l m bumped c x = .ok (m', l')) :
    ∃ (kicked : Option (Bond AccountId)) (rest : Nominations AccountId) (l₁ : Ledger AccountId),
      Kicked l l₁ c kicked ∧
      bottom.nominations = rest.nominations ++ kicked.toList ∧
      (kicked.isSome ↔ bottom.nominations.length = cfg.maxBottomNominationsPerCandidate) ∧
      rest.nominations.length < cfg.maxBottomNominationsPerCandidate ∧
      (bottom.Exact → rest.Exact) ∧
      m' = ((if kicked.isNone && !bumped then m.incrementNominationCount else m).resetBottomData
        cfg (rest.insertSortedGreatestToLeast x)) ∧
      l' = l₁.putBottom c (rest.insertSortedGreatestToLeast x) := by
  simp only [addBottomNomination, hbottom, okOr_some, ok_bind] at h
  by_cases hfull : bottom.nominations.length = cfg.maxBottomNominationsPerCandidate
  · rw [if_pos hfull] at h
    simp only [kickLowestBottom, bind_eq_ok, okOr_eq_ok, pure_eq_ok, Prod.exists,
      Prod.mk.injEq] at h
    obtain ⟨rest, l₁, ⟨k, hk, st, hst, rfl, rfl⟩, h⟩ := h
    obtain ⟨_, _, _, ⟨rfl, rfl, rfl⟩, rfl, rfl⟩ := h
    have hsplit := List.dropLast_append_getLast? k hk
    have hlen := congrArg List.length hsplit
    refine ⟨some k, ⟨bottom.nominations.dropLast, bottom.total - k.amount⟩, _,
      ⟨st, hst, rfl⟩, hsplit.symm, by simpa using hfull, ?_, fun he => he.dropLast hsplit.symm,
      by simp, rfl⟩
    simp only [List.length_append, List.length_singleton] at hlen ⊢
    omega
  · rw [if_neg hfull] at h
    simp only [pure_eq_ok, bind_eq_ok, exists_eq_left', Prod.mk.injEq] at h
    obtain ⟨rfl, rfl⟩ := h
    refine ⟨none, bottom, l, rfl, by simp, by simp [hfull], by omega, fun h => h, ?_, rfl⟩
    cases bumped <;> simp

omit [LinearOrder AccountId] in
/-- A full bottom list gives up its last nomination, and the shape stays. -/
lemma tiers_of_kick {rest : Nominations AccountId} {kicked : Option (Bond AccountId)}
    {ts bs : List (Bond AccountId)} {maxTop maxBottom : ℕ}
    (h : Tiers Bond.amount Bond.owner maxTop maxBottom ts bs)
    (hsplit : bs = rest.nominations ++ kicked.toList) :
    Tiers Bond.amount Bond.owner maxTop maxBottom ts rest.nominations := by
  cases kicked with
  | none =>
      rw [Option.toList_none, List.append_nil] at hsplit
      exact hsplit ▸ h
  | some k =>
      have hdrop : bs.dropLast = rest.nominations := by
        rw [hsplit]
        exact List.dropLast_concat
      exact hdrop ▸ h.dropLowest

omit [LinearOrder AccountId] in
/-- The remainder that is reported before the kick is the amount of the kicked nomination. -/
lemma lessTotalStaked_eq {rest : Nominations AccountId} {kicked : Option (Bond AccountId)}
    (hv : BoardValid cfg m top bottom)
    (hsplit : bottom.nominations = rest.nominations ++ kicked.toList)
    (hiff : kicked.isSome ↔ bottom.nominations.length = cfg.maxBottomNominationsPerCandidate) :
    (if m.bottomCapacity = .full then some m.lowestBottomNominationAmount else none) =
      kicked.map Bond.amount := by
  cases kicked with
  | none =>
      have hnot : ¬ m.bottomCapacity = .full := by
        rw [hv.ordered.bottomCapacity_eq_full, ← hiff]
        simp
      rw [if_neg hnot]
      rfl
  | some k =>
      have hbfull := hiff.mp rfl
      obtain ⟨t', z, hz, hlow⟩ := hv.ordered.exists_lowestBottom hbfull
      rw [hz] at hsplit
      obtain ⟨-, hzk⟩ := List.append_inj' hsplit rfl
      rw [if_pos (hv.ordered.bottomCapacity_eq_full.mpr hbfull), hlow, (List.cons.inj hzk).1]
      rfl

/-- `add_top_nomination` puts the newcomer on the board.  It is called when there is room at the
top or the newcomer outbids the lowest top nomination. -/
lemma addTopNomination_spec {less : Option ℕ} (hv : BoardValid cfg m top bottom)
    (htop : l.topNominations.get c = some top) (hbottom : l.bottomNominations.get c = some bottom)
    (hx : ∀ y ∈ top.nominations ++ bottom.nominations, y.owner ≠ x.owner)
    (hbid : m.topCapacity = .full → m.lowestTopNominationAmount < x.amount)
    (h : addTopNomination cfg l m c x = .ok (less, m', l')) :
    ∃ kicked l₁ top' bottom', Kicked l l₁ c kicked ∧
      (∀ k, kicked = some k → k ∈ bottom.nominations ∧ k.amount < x.amount) ∧
      less = kicked.map Bond.amount ∧ (m.topCapacity ≠ .full → kicked = none) ∧
      BoardMove cfg l₁ c m top bottom kicked.toList [x] True m' l' top' bottom' := by
  simp only [addTopNomination, htop, okOr_some, ok_bind] at h
  by_cases hfull : top.nominations.length = cfg.maxTopNominationsPerCandidate
  · -- the lowest top nomination makes room, and may in turn kick the lowest bottom one
    have hcap := hv.ordered.topCapacity_eq_full.mpr hfull
    obtain ⟨t, y, ht, hy⟩ := hv.ordered.exists_lowestTop hfull
    rw [if_pos hfull, ht] at h
    simp only [bind_eq_ok, okOr_eq_ok, List.getLast?_concat, List.dropLast_concat,
      Option.some.injEq, exists_eq_left', pure_eq_ok, Prod.exists, Prod.mk.injEq] at h
    obtain ⟨m₁, l₂, hadd, rfl, rfl, rfl⟩ := h
    obtain ⟨kicked, rest, l₁, hkick, hsplit, hiff, hroom, hrexact, rfl, rfl⟩ :=
      addBottomNomination_inv hbottom hv.tiers.bottom_le hadd
    have htiers := tiers_of_kick (ht ▸ hv.tiers) hsplit
    have hlt : y.amount < x.amount := hy ▸ hbid hcap
    have hless := lessTotalStaked_eq hv hsplit hiff
    have htdesc : Desc Bond.amount t := htiers.top_desc.sublist (List.sublist_append_left _ _)
    refine ⟨kicked, l₁, _, rest.insertSortedGreatestToLeast y, hkick, ?_, hless,
      fun hne => absurd hcap hne, BoardMove.of_lists hv ?_
      ((hv.top_exact.dropLast ht).insertSorted htdesc x)
      (fun _ he => (hrexact he).insertSorted htiers.bottom_desc y) ?_ ?_ ?_
      (Ledger.putTop_reset_putBottom cfg _ _ _)⟩
    · rintro k rfl
      have hk : k ∈ bottom.nominations := by
        rw [hsplit]
        simp
      exact ⟨hk, lt_of_le_of_lt (hv.tiers.order k hk y (by simp [ht])) hlt⟩
    · rw [Nominations.insertSorted_nominations htdesc,
        Nominations.insertSorted_nominations htiers.bottom_desc rest.total]
      refine htiers.bump hroom (ht ▸ hfull) hlt ?_
      intro z hz
      refine hx z ?_
      rw [hsplit, ht]
      rcases List.mem_append.mp hz with hz | hz
      · exact List.mem_append_left _ hz
      · exact List.mem_append_right _ (List.mem_append_left _ hz)
    · rw [Nominations.insertSorted_nominations htdesc,
        Nominations.insertSorted_nominations htiers.bottom_desc rest.total, hsplit, ht]
      refine ((rankInsert_perm _ _ _).append (rankInsert_perm _ _ _)).append_left _ |>.trans ?_
      refine List.perm_append_comm.trans ?_
      simp only [List.cons_append, List.append_assoc, List.nil_append]
      exact List.Perm.refl _
    · rw [hless]
      cases kicked with
      | none => simp [resetTopData, mirrorTop, resetBottomData, incrementNominationCount]; omega
      | some k => simp [resetTopData, mirrorTop, resetBottomData]
    · rw [hless]
      cases kicked <;> rfl
  · have hlt := lt_of_le_of_ne hv.tiers.top_le hfull
    have hnil := hv.tiers.bottom_eq_nil hlt
    rw [if_neg hfull] at h
    simp only [pure_eq_ok, bind_eq_ok, exists_eq_left', Prod.mk.injEq] at h
    obtain ⟨rfl, rfl, rfl⟩ := h
    have hins := Nominations.insertSorted_nominations hv.tiers.top_desc top.total x
    refine ⟨none, l, _, bottom, rfl, by simp, rfl, fun _ => rfl, BoardMove.of_lists hv ?_
      (hv.top_exact.insertSorted hv.tiers.top_desc x) (fun _ h => h) ?_ ?_ ?_
      (Ledger.putTop_reset cfg m _ hbottom)⟩
    · rw [hins]
      exact hv.tiers.enterTop hlt hx
    · rw [hins]
      exact (rankInsert_perm _ _ _).append_right _
    · simp [resetTopData, mirrorTop, incrementNominationCount]
      omega
    · rw [hv.resetBottomData_self]
      rfl

/-- A newcomer that does not outbid the lowest top nomination goes to the bottom. -/
lemma addBottomNomination_spec (hv : BoardValid cfg m top bottom)
    (htop : l.topNominations.get c = some top) (hbottom : l.bottomNominations.get c = some bottom)
    (hx : ∀ y ∈ top.nominations ++ bottom.nominations, y.owner ≠ x.owner)
    (hcap : m.topCapacity = .full) (hlow : ¬ m.lowestTopNominationAmount < x.amount)
    (hbid : m.bottomCapacity = .full → m.lowestBottomNominationAmount < x.amount)
    (h : addBottomNomination cfg l m false c x = .ok (m', l')) :
    ∃ kicked l₁ top' bottom', Kicked l l₁ c kicked ∧
      (∀ k, kicked = some k → k ∈ bottom.nominations ∧ k.amount < x.amount) ∧
      (if m.bottomCapacity = .full then some m.lowestBottomNominationAmount else none) =
        kicked.map Bond.amount ∧
      BoardMove cfg l₁ c m top bottom kicked.toList [x] True m' l' top' bottom' := by
  obtain ⟨kicked, rest, l₁, hkick, hsplit, hiff, hroom, hrexact, rfl, rfl⟩ :=
    addBottomNomination_inv hbottom hv.tiers.bottom_le h
  have htiers := tiers_of_kick hv.tiers hsplit
  have hless := lessTotalStaked_eq hv hsplit hiff
  have hins := Nominations.insertSorted_nominations htiers.bottom_desc rest.total x
  refine ⟨kicked, l₁, top, rest.insertSortedGreatestToLeast x, hkick, ?_, hless,
    BoardMove.of_lists hv ?_ hv.top_exact
    (fun _ he => (hrexact he).insertSorted htiers.bottom_desc x) ?_ ?_ ?_
    (Ledger.putBottom_eq _ (hkick.lists.1 ▸ htop))⟩
  · rintro k rfl
    have hbcap := hv.ordered.bottomCapacity_eq_full.mpr (hiff.mp rfl)
    rw [if_pos hbcap] at hless
    refine ⟨by rw [hsplit]; simp, ?_⟩
    have := Option.some.inj hless
    have := hbid hbcap
    omega
  · rw [hins]
    refine htiers.enterBottom hroom (hv.ordered.topCapacity_eq_full.mp hcap) ?_ ?_
    · intro t ht
      have := hv.ordered.lowestTop_le ht
      omega
    · intro y hy
      refine hx y ?_
      rw [hsplit, ← List.append_assoc]
      exact List.mem_append_left _ hy
  · rw [hins, hsplit]
    refine ((rankInsert_perm _ _ _).append_left _).append_left _ |>.trans ?_
    refine List.perm_append_comm.trans ?_
    rw [List.append_assoc, List.cons_append]
    exact List.perm_middle.trans (List.Perm.refl _)
  · cases kicked with
    | none => simp [resetBottomData, incrementNominationCount]; omega
    | some k => simp [resetBottomData]
  · rw [← hv.mirrorTop_self]
    cases kicked <;> rfl

/-- **`add_nomination`.**  A success puts the newcomer on the board and kicks at most one
nomination off it, a lower one, whose amount is reported. -/
lemma addNomination_spec {pos : NominatorAdded} {less : Option ℕ} (hv : BoardValid cfg m top bottom)
    (htop : l.topNominations.get c = some top) (hbottom : l.bottomNominations.get c = some bottom)
    (hx : ∀ y ∈ top.nominations ++ bottom.nominations, y.owner ≠ x.owner)
    (h : addNomination cfg l m c x = .ok ((pos, less), m', l')) :
    ∃ kicked l₁ top' bottom', Kicked l l₁ c kicked ∧
      (∀ k, kicked = some k → k ∈ bottom.nominations ∧ k.amount < x.amount) ∧
      less = kicked.map Bond.amount ∧
      BoardMove cfg l₁ c m top bottom kicked.toList [x] True m' l' top' bottom' := by
  simp only [addNomination] at h
  split_ifs at h with hcap hlow hbcap
  · simp only [bind_eq_ok, pure_eq_ok, Prod.exists, Prod.mk.injEq] at h
    obtain ⟨less, m₁, l₁, hadd, ⟨-, rfl⟩, rfl, rfl⟩ := h
    obtain ⟨kicked, l₁, top', bottom', hkick, hk, hless, -, hmove⟩ :=
      addTopNomination_spec hv htop hbottom hx (fun _ => hlow) hadd
    exact ⟨kicked, l₁, top', bottom', hkick, hk, hless, hmove⟩
  · simp only [bind_eq_ok, ensure_eq_ok, pure_eq_ok, Prod.exists, Prod.mk.injEq, exists_eq_left',
      exists_const] at h
    obtain ⟨hbid, m₁, l₁, hadd, ⟨-, rfl⟩, rfl, rfl⟩ := h
    obtain ⟨kicked, l₁, top', bottom', hkick, hk, hless, hmove⟩ :=
      addBottomNomination_spec hv htop hbottom hx hcap hlow (fun _ => hbid) hadd
    exact ⟨kicked, l₁, top', bottom', hkick, hk, by rw [← hless, if_pos hbcap], hmove⟩
  · simp only [bind_eq_ok, pure_eq_ok, Prod.exists, Prod.mk.injEq, exists_eq_left'] at h
    obtain ⟨m₁, l₁, hadd, ⟨-, rfl⟩, rfl, rfl⟩ := h
    obtain ⟨kicked, l₁, top', bottom', hkick, hk, hless, hmove⟩ :=
      addBottomNomination_spec hv htop hbottom hx hcap hlow (fun h => absurd h hbcap) hadd
    exact ⟨kicked, l₁, top', bottom', hkick, hk, by rw [← hless, if_neg hbcap], hmove⟩
  · simp only [bind_eq_ok, pure_eq_ok, Prod.exists, Prod.mk.injEq] at h
    obtain ⟨less', m₁, l₁, hadd, ⟨-, rfl⟩, rfl, rfl⟩ := h
    obtain ⟨kicked, l₁, top', bottom', hkick, hk, -, hnone, hmove⟩ :=
      addTopNomination_spec hv htop hbottom hx (fun h => absurd h hcap) hadd
    exact ⟨kicked, l₁, top', bottom', hkick, hk, by rw [hnone hcap]; rfl, hmove⟩

end CandidateMetadata

end BifrostNode.Staking
