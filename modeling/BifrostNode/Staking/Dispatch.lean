import BifrostNode.Staking.Safety

/-!
# The right list is found without a search

`rm_nomination_if_exists`, `increase_nomination` and `decrease_nomination` choose between the top
and the bottom list of a candidate by comparing the amount they are called with to two cached
amounts, and fall back from one list to the other only where these two are equal.

**Frame.**  `Relists` says what such a call may do to the ledger: the bonds of one candidate
become the given ones, in some order, and no other candidate's do anything.

**Dispatch.**  On an ordered board, and called with the amount that is on it, none of the three
fails, and each of them moves exactly the bond it is meant for (`nomination_dispatched`).  The
cached totals need not be right for that.
-/

namespace BifrostNode.Staking

open Leaderboard RankedList

variable {AccountId : Type} [LinearOrder AccountId]

/-- From `l` to `l'` the bonds on the board of `c` became `bonds`, up to order, and no bond of an
owner other than `n` changed; the boards of the other candidates and everything that is neither a
list nor the pool stayed as it was. -/
structure Relists (l l' : Ledger AccountId) (c n : AccountId) (bonds : List (Bond AccountId)) :
    Prop where
  perm : (l'.bonds c).Perm bonds
  kept : ∀ x : Bond AccountId, x.owner ≠ n → (x ∈ l'.bonds c ↔ x ∈ l.bonds c)
  others : ∀ d, d ≠ c → l'.topNominations.get d = l.topNominations.get d ∧
    l'.bottomNominations.get d = l.bottomNominations.get d
  frame : l' = { l with
    topNominations := l'.topNominations
    bottomNominations := l'.bottomNominations
    candidatePool := l'.candidatePool }

namespace ListMove

variable {cfg : Config AccountId} {l l' : Ledger AccountId} {c : AccountId}
  {m m' : CandidateMetadata AccountId} {top bottom top' bottom' : Nominations AccountId}
  {out inn : List (Bond AccountId)} {x : Bond AccountId}

lemma bonds_eq (h : ListMove l c m top bottom out inn m' l' top' bottom') :
    l'.bonds c = top'.nominations ++ bottom'.nominations := by
  have htop : l'.topNominations.get c = some top' := by
    rw [h.ledger_eq]
    exact StorageMap.get_insert_self _ _ _
  have hbottom : l'.bottomNominations.get c = some bottom' := by
    rw [h.ledger_eq]
    exact StorageMap.get_insert_self _ _ _
  exact Ledger.bonds_eq htop hbottom

/-- A move is told by the bonds it leaves on the board. -/
lemma relists {n : AccountId} {bonds : List (Bond AccountId)}
    (h : ListMove l c m top bottom out inn m' l' top' bottom')
    (hbonds : (top'.nominations ++ bottom'.nominations).Perm bonds)
    (hkept : ∀ y : Bond AccountId, y.owner ≠ n → (y ∈ bonds ↔ y ∈ l.bonds c)) :
    Relists l l' c n bonds where
  perm := h.bonds_eq ▸ hbonds
  kept := by
    intro y hy
    rw [h.bonds_eq, hbonds.mem_iff]
    exact hkept y hy
  others := by
    intro d hd
    rw [h.ledger_eq]
    exact ⟨StorageMap.get_insert_of_ne _ hd _, StorageMap.get_insert_of_ne _ hd _⟩
  frame := by
    rw [h.ledger_eq]
    rfl

/-- The bond that left is the only one that is missing. -/
lemma removed (hn : ((top.nominations ++ bottom.nominations).map Bond.owner).Nodup)
    (hx : x ∈ top.nominations ++ bottom.nominations)
    (h : ListMove l c m top bottom [x] [] m' l' top' bottom') :
    (top'.nominations ++ bottom'.nominations).Perm
      ((top.nominations ++ bottom.nominations).filter fun y => y.owner ≠ x.owner) := by
  have hout : (x :: (top'.nominations ++ bottom'.nominations)).Perm
      (top.nominations ++ bottom.nominations) := h.perm
  exact (hout.trans (perm_cons_filter hn hx)).cons_inv

/-- The bond that came in the place of another is the only one that differs. -/
lemma rewritten (hn : ((top.nominations ++ bottom.nominations).map Bond.owner).Nodup)
    (hx : x ∈ top.nominations ++ bottom.nominations) (f : ℕ → ℕ)
    (h : ListMove l c m top bottom [x] [⟨x.owner, f x.amount⟩] m' l' top' bottom') :
    (top'.nominations ++ bottom'.nominations).Perm
      ((top.nominations ++ bottom.nominations).map (CandidateMetadata.setAmount x.owner f)) := by
  have hrest := perm_cons_filter hn hx
  have hexchange : (x :: (top'.nominations ++ bottom'.nominations)).Perm
      (x :: ⟨x.owner, f x.amount⟩ :: (top.nominations ++ bottom.nominations).filter fun y =>
        y.owner ≠ x.owner) :=
    h.perm.trans ((hrest.cons _).trans (List.Perm.swap _ _ _))
  have hmap := perm_cons_map hn hx fun y => (⟨y.owner, f y.amount⟩ : Bond AccountId)
  exact hexchange.cons_inv.trans hmap.symm

end ListMove

namespace CandidateMetadata

/-- Rewriting one owner's amount leaves the bonds of the others. -/
lemma mem_map_setAmount {bonds : List (Bond AccountId)} {n : AccountId} {f : ℕ → ℕ}
    {y : Bond AccountId} (hy : y.owner ≠ n) : y ∈ bonds.map (setAmount n f) ↔ y ∈ bonds := by
  rw [List.mem_map]
  constructor
  · rintro ⟨x, hx, rfl⟩
    have hx' : x.owner ≠ n := by
      intro howner
      rw [setAmount, if_pos howner] at hy
      exact hy howner
    rw [setAmount, if_neg hx']
    exact hx
  · intro hmem
    exact ⟨y, hmem, by rw [setAmount, if_neg hy]⟩

variable {cfg : Config AccountId} {l : Ledger AccountId} {c n : AccountId}
  {m : CandidateMetadata AccountId} {top bottom : Nominations AccountId} {amount : ℕ}

/-- **The right nomination list is found.**  Let the lists of a candidate be in order and its
metadata agree with them, and let a nominator's bond in the two lists have the amount that is
passed.  Then the three functions succeed, so they never return `NominationDNE`; the bonds over
both lists are, up to order, the old ones with exactly that owner's entry removed, increased by
`more` or decreased by `less`; and no other board is touched. -/
theorem nomination_dispatched (ho : BoardOrdered cfg m top bottom)
    (htop : l.topNominations.get c = some top) (hbottom : l.bottomNominations.get c = some bottom)
    (hbond : (⟨n, amount⟩ : Bond AccountId) ∈ top.nominations ++ bottom.nominations)
    (more less : ℕ) :
    (∃ b m' l', rmNominationIfExists cfg l m c n amount = .ok (b, m', l') ∧
      Relists l l' c n ((l.bonds c).filter fun x => x.owner ≠ n) ∧ m.SameButLists m') ∧
    (∃ b m' l', increaseNomination cfg l m c n amount more = .ok (b, m', l') ∧
      Relists l l' c n ((l.bonds c).map (setAmount n fun a => a + more)) ∧ m.SameButLists m') ∧
    ∃ b m' l', decreaseNomination cfg l m c n amount less = .ok (b, m', l') ∧
      Relists l l' c n ((l.bonds c).map (setAmount n fun a => a - less)) ∧ m.SameButLists m' := by
  have hnodup := ho.tiers.nodup
  have hbonds := Ledger.bonds_eq htop hbottom
  refine ⟨?_, ?_, ?_⟩
  · obtain ⟨⟨b, m', l'⟩, hr⟩ := rmNominationIfExists_of_mem ho htop hbottom hbond
    obtain ⟨x, hx, howner, top', bottom', hmove, -⟩ := rmNominationIfExists_moves ho htop hbottom hr
    obtain rfl : x = ⟨n, amount⟩ := ho.tiers.eq_of_owner hx hbond howner
    refine ⟨b, m', l', hr, hmove.relists ?_ fun y hy => ?_, hmove.same⟩
    · rw [hbonds]
      exact hmove.removed hnodup hbond
    · rw [List.mem_filter]
      exact and_iff_left (decide_eq_true hy)
  · obtain ⟨b, m', l', top', bottom', hr, hmove, -⟩ :=
      increaseNomination_moves more ho htop hbottom hbond
    refine ⟨b, m', l', hr, hmove.relists ?_ fun y hy => mem_map_setAmount hy, hmove.same⟩
    rw [hbonds]
    exact ListMove.rewritten hnodup hbond (fun a => a + more) hmove
  · obtain ⟨b, m', l', top', bottom', hr, hmove, -⟩ :=
      decreaseNomination_moves less ho htop hbottom hbond
    refine ⟨b, m', l', hr, hmove.relists ?_ fun y hy => mem_map_setAmount hy, hmove.same⟩
    rw [hbonds]
    exact ListMove.rewritten hnodup hbond (fun a => a - less) hmove

/-- A nominator at the bottom whose amount is tied with the lowest top and the highest bottom
amount. -/
theorem nomination_dispatched_devnet : ∃ (m : CandidateMetadata ℕ) (l l' : Ledger ℕ) (b : Bool)
    (m' : CandidateMetadata ℕ),
    m.lowestTopNominationAmount = 50 ∧ m.highestBottomNominationAmount = 50 ∧
      decreaseNomination devnet l m 2 7 50 20 = .ok (b, m', l') ∧
      Relists l l' 2 7 ((l.bonds 2).map (setAmount 7 fun a => a - 20)) := by
  have hrun : (devnetRun [.call (.signed 7) (.nominate 2 50 2 0)]).any (fun s =>
      (s.ledger.candidateInfo.get 2).any fun m =>
        decide (m.lowestTopNominationAmount = 50 ∧ m.highestBottomNominationAmount = 50) &&
          (s.ledger.bonds 2).contains ⟨7, 50⟩) = true := by
    decide
  obtain ⟨s, hs, hany⟩ := devnetRun_exists hrun
  obtain ⟨m, hm, hany⟩ := (Option.any_eq_true _ _).mp hany
  obtain ⟨hties, hmem⟩ := Bool.and_eq_true_iff.mp hany
  obtain ⟨hlow, hhigh⟩ := of_decide_eq_true hties
  obtain ⟨top, bottom, htop, hbottom, hv⟩ := hs.inv.ledger.books.board 2 m hm
  have hbond : (⟨7, 50⟩ : Bond ℕ) ∈ top.nominations ++ bottom.nominations := by
    rw [← Ledger.bonds_eq htop hbottom]
    exact List.contains_iff_mem.mp hmem
  obtain ⟨-, -, b, m', l', hr, hrelists, -⟩ :=
    nomination_dispatched hv.ordered htop hbottom hbond 10 20
  exact ⟨m, _, l', b, m', hlow, hhigh, hr, hrelists⟩

end CandidateMetadata

end BifrostNode.Staking
