import BifrostNode.Staking.HookSpec

/-!
# The roster of candidates

`CandidatePool` repeats, for the candidates that are active, one number of their records: the voting
power.  Operations on stakes change that number in a copy of the record, tell the pool, and write the
copy back.

* `Follows`: between the two, the pool agrees with the copy.
* `OnRoll`: once the copy is written, the pool agrees with the records again, and the standing of no
  candidate (status, selection and tier) has changed.
* `OnTerms`: the decreases of self-bonds that are pending stay above the minimum of the tier, and
  nominators do not become candidates nor candidates nominators.
-/

namespace BifrostNode.Staking

open Transition

variable {AccountId : Type} [LinearOrder AccountId]

/-! ## Standing -/

/-- What operations on stakes do not change. -/
def CandidateMetadata.standing (m : CandidateMetadata AccountId) :
    ValidatorStatus × Bool × TierType :=
  (m.status, m.isSelected, m.tier)

/-- What the pool should say about a candidate. -/
def CandidateMetadata.entry (m : CandidateMetadata AccountId) : Option ℕ :=
  if m.isActive then some m.votingPower else none

/-- **The pool agrees with the records**: it holds the active candidates, with their voting power. -/
def Ledger.PoolAgrees (l : Ledger AccountId) : Prop :=
  ∀ c, l.candidatePool.get c = (l.candidateInfo.get c).bind CandidateMetadata.entry

/-- The standing of a candidate. -/
def Ledger.standing (l : Ledger AccountId) (c : AccountId) :
    Option (ValidatorStatus × Bool × TierType) :=
  (l.candidateInfo.get c).map CandidateMetadata.standing

omit [LinearOrder AccountId] in
lemma CandidateMetadata.isActive_congr {m m' : CandidateMetadata AccountId}
    (h : m'.standing = m.standing) : m'.isActive = m.isActive :=
  congrArg (fun x : ValidatorStatus × Bool × TierType => decide (x.1 = .active)) h

omit [LinearOrder AccountId] in
lemma CandidateMetadata.entry_congr {m m' : CandidateMetadata AccountId}
    (h : m'.standing = m.standing) (hv : m'.votingPower = m.votingPower) : m'.entry = m.entry := by
  rw [entry, isActive_congr h, hv, entry]

/-! ## Between the copy and the pool -/

/-- **The pool follows a copy.**  The records are as before; if the pool agreed with the copy `m`, it
agrees with `m'`. -/
structure Follows (c : AccountId) (l : Ledger AccountId) (m : CandidateMetadata AccountId)
    (l' : Ledger AccountId) (m' : CandidateMetadata AccountId) : Prop where
  info : l'.candidateInfo = l.candidateInfo
  standing : m'.standing = m.standing
  other : ∀ k, k ≠ c → l'.candidatePool.get k = l.candidatePool.get k
  self : l.candidatePool.get c = m.entry → l'.candidatePool.get c = m'.entry

namespace Follows

variable {c : AccountId} {l l₁ l₂ : Ledger AccountId} {m m₁ m₂ : CandidateMetadata AccountId}

omit [LinearOrder AccountId] in
lemma refl (l : Ledger AccountId) (m : CandidateMetadata AccountId) : Follows c l m l m :=
  ⟨rfl, rfl, fun _ _ => rfl, id⟩

omit [LinearOrder AccountId] in
lemma trans (h₁ : Follows c l m l₁ m₁) (h₂ : Follows c l₁ m₁ l₂ m₂) : Follows c l m l₂ m₂ where
  info := h₂.info.trans h₁.info
  standing := h₂.standing.trans h₁.standing
  other k hk := (h₂.other k hk).trans (h₁.other k hk)
  self h := h₂.self (h₁.self h)

omit [LinearOrder AccountId] in
/-- Neither the pool nor the voting power changes. -/
lemma of_eq (hinfo : l₁.candidateInfo = l.candidateInfo) (hpool : l₁.candidatePool = l.candidatePool)
    (hm : m₁.standing = m.standing) (hv : m₁.votingPower = m.votingPower) :
    Follows c l m l₁ m₁ where
  info := hinfo
  standing := hm
  other k _ := by rw [hpool]
  self h := by rw [hpool, h, CandidateMetadata.entry_congr hm hv]

/-- `update_active` with the voting power of the copy. -/
lemma updateActive (m₁ : CandidateMetadata AccountId) (hm : m₁.standing = m.standing) :
    Follows c l m (l.updateActive c m₁.votingPower) m₁ := by
  refine ⟨l.updateActive_candidateInfo c _, hm, fun k hk => ?_, fun h => ?_⟩
  · cases hc : l.candidatePool.get c with
    | none => simp [Ledger.updateActive, hc]
    | some v => simp [Ledger.updateActive, hc, hk]
  · rw [CandidateMetadata.entry] at h ⊢
    rw [CandidateMetadata.isActive_congr hm]
    split_ifs at h ⊢ with hactive
    · simp [Ledger.updateActive, h]
    · simp [Ledger.updateActive, h]

/-- After `reset_top_data` the pool has the voting power of the copy. -/
lemma resetTopData (cfg : Config AccountId) (l : Ledger AccountId)
    (m : CandidateMetadata AccountId) (top : Nominations AccountId) :
    Follows c l m (CandidateMetadata.resetTopData cfg l m c top).2
      (CandidateMetadata.resetTopData cfg l m c top).1 := by
  have hstand : (m.mirrorTop cfg top).standing = m.standing := rfl
  simp only [CandidateMetadata.resetTopData]
  split_ifs with hv
  · exact updateActive _ hstand
  · exact of_eq rfl rfl hstand (not_not.mp hv).symm

end Follows

/-- **The board moves nominations about.**  The pool follows the copy, the self-bond stays as it is
with its pending decrease, and nobody becomes a nominator. -/
structure Shuffles (c : AccountId) (l : Ledger AccountId) (m : CandidateMetadata AccountId)
    (l' : Ledger AccountId) (m' : CandidateMetadata AccountId) : Prop extends
    Follows c l m l' m' where
  bond : m'.bond = m.bond
  request : m'.request = m.request
  nominators : ∀ n st', l'.nominatorState.get n = some st' →
    ∃ st, l.nominatorState.get n = some st ∧ st'.id = st.id

namespace Shuffles

variable {c : AccountId} {l l₁ l₂ : Ledger AccountId} {m m₁ m₂ : CandidateMetadata AccountId}

omit [LinearOrder AccountId] in
lemma refl (l : Ledger AccountId) (m : CandidateMetadata AccountId) : Shuffles c l m l m :=
  ⟨.refl l m, rfl, rfl, fun _ st h => ⟨st, h, rfl⟩⟩

omit [LinearOrder AccountId] in
lemma trans (h₁ : Shuffles c l m l₁ m₁) (h₂ : Shuffles c l₁ m₁ l₂ m₂) : Shuffles c l m l₂ m₂ where
  toFollows := h₁.toFollows.trans h₂.toFollows
  bond := h₂.bond.trans h₁.bond
  request := h₂.request.trans h₁.request
  nominators n st h := by
    obtain ⟨st₁, h₁', hid⟩ := h₂.nominators n st h
    obtain ⟨st₀, h₀, hid'⟩ := h₁.nominators n st₁ h₁'
    exact ⟨st₀, h₀, hid.trans hid'⟩

omit [LinearOrder AccountId] in
/-- Only the lists change, and what the copy repeats of them. -/
lemma of_eq (hinfo : l₁.candidateInfo = l.candidateInfo) (hpool : l₁.candidatePool = l.candidatePool)
    (hnom : l₁.nominatorState = l.nominatorState) (hm : m₁.standing = m.standing)
    (hv : m₁.votingPower = m.votingPower) (hb : m₁.bond = m.bond) (hr : m₁.request = m.request) :
    Shuffles c l m l₁ m₁ :=
  ⟨.of_eq hinfo hpool hm hv, hb, hr, fun _ st h => ⟨st, hnom ▸ h, rfl⟩⟩

/-- `reset_top_data` leaves the records of nominators and the bonds alone. -/
lemma resetTopData (cfg : Config AccountId) (l : Ledger AccountId)
    (m : CandidateMetadata AccountId) (top : Nominations AccountId) :
    Shuffles c l m (CandidateMetadata.resetTopData cfg l m c top).2
      (CandidateMetadata.resetTopData cfg l m c top).1 := by
  have hsame : (CandidateMetadata.resetTopData cfg l m c top).2.nominatorState =
      l.nominatorState := by
    simp only [CandidateMetadata.resetTopData]
    split_ifs
    · exact l.updateActive_nominatorState c _
    · rfl
  exact ⟨.resetTopData cfg l m top, rfl, rfl, fun _ st h => ⟨st, hsame ▸ h, rfl⟩⟩

end Shuffles

/-! ## Boards -/

lemma Nominator.rmNominationIgnore_id (st : Nominator AccountId) (c : AccountId) :
    (st.rmNominationIgnore c).id = st.id := by
  simp only [Nominator.rmNominationIgnore, Nominator.rmNomination]
  cases st.nominations.get c <;> rfl

lemma Nominator.dropNomination_id (st : Nominator AccountId) (c : AccountId) :
    (st.dropNomination c).id = st.id := st.rmNominationIgnore_id c

namespace CandidateMetadata

variable {cfg : Config AccountId} {l : Ledger AccountId} {m : CandidateMetadata AccountId}
  {c n : AccountId}

/-- Kicking the lowest bottom nomination concerns its nominator only. -/
lemma kickLowestBottom_shuffles (bottom : Nominations AccountId) :
    Returns (fun r => Shuffles c l m r.2 m) (kickLowestBottom l c bottom) := by
  intro r h
  simp only [kickLowestBottom, bind_eq_ok, okOr_eq_ok, pure_eq_ok] at h
  obtain ⟨kicked, -, st, hst, rfl⟩ := h
  refine ⟨.of_eq rfl rfl rfl rfl, rfl, rfl, fun n st' hn => ?_⟩
  dsimp only at hn
  split_ifs at hn
  · rw [StorageMap.get_remove] at hn
    split_ifs at hn
    exact ⟨st', hn, rfl⟩
  · rw [StorageMap.get_insert] at hn
    split_ifs at hn with hk
    · obtain rfl := Option.some.inj hn
      exact ⟨st, hk ▸ hst, st.dropNomination_id c⟩
    · exact ⟨st', hn, rfl⟩

lemma addBottomNomination_shuffles (b : Bool) (x : Bond AccountId) :
    Returns (fun r => Shuffles c l m r.2 r.1) (addBottomNomination cfg l m b c x) := by
  refine .bind fun bottom => ?_
  extract_lets rest
  have hrest : ∀ r, Shuffles c l m r.2.1 m →
      Returns (fun r => Shuffles c l m r.2 r.1) (rest r) := by
    rintro ⟨bottom', l₁, b'⟩ h
    refine .pure (h.trans (.of_eq rfl rfl rfl ?_ ?_ ?_ ?_)) <;> dsimp only <;> split_ifs <;> rfl
  clear_value rest
  refine .ite (.bind_of (kickLowestBottom_shuffles (m := m) bottom) ?_) (.jump (hrest _ (.refl l m)))
  rintro ⟨bottom', l₁⟩ h
  exact .jump (hrest _ h)

lemma addTopNomination_shuffles (x : Bond AccountId) :
    Returns (fun r => Shuffles c l m r.2.2 r.2.1) (addTopNomination cfg l m c x) := by
  refine .bind fun top => ?_
  extract_lets rest
  have hrest : ∀ r, Shuffles c l m r.2.2.2 r.2.2.1 →
      Returns (fun r => Shuffles c l m r.2.2 r.2.1) (rest r) := by
    rintro ⟨top', less, m₁, l₁⟩ h
    refine .pure (h.trans ((Shuffles.resetTopData cfg l₁ m₁ _).trans
      (.of_eq rfl rfl rfl ?_ ?_ ?_ ?_))) <;> dsimp only <;> split_ifs <;> rfl
  clear_value rest
  refine .ite (.bind fun y => .bind_of (addBottomNomination_shuffles true y) ?_)
    (.jump (hrest _ (.refl l m)))
  rintro ⟨m₁, l₁⟩ h
  exact .jump (hrest _ h)

lemma addNomination_shuffles (x : Bond AccountId) :
    Returns (fun r => Shuffles c l m r.2.2 r.2.1) (addNomination cfg l m c x) := by
  have htop : ∀ f : Option ℕ → CandidateMetadata AccountId → NominatorAdded × Option ℕ,
      Returns (fun r => Shuffles c l m r.2.2 r.2.1) (addTopNomination cfg l m c x >>= fun r =>
        (pure (f r.1 r.2.1, r.2.1, r.2.2) : Except Error _)) := fun f =>
    .bind_of (addTopNomination_shuffles x) fun _ h => .pure h
  have hbottom : ∀ less : Option ℕ,
      Returns (fun r => Shuffles c l m r.2.2 r.2.1) (addBottomNomination cfg l m false c x >>= fun r =>
        (pure ((NominatorAdded.addedToBottom, less), r.1, r.2) : Except Error _)) := fun less =>
    .bind_of (addBottomNomination_shuffles false x) fun _ h => .pure h
  refine .ite (.ite (htop fun less m => (.addedToTop m.votingPower, less)) (.ite ?_ ?_))
    (htop fun _ m => (.addedToTop m.votingPower, none))
  · exact .bind fun _ => .jump (hbottom _)
  · exact .jump (hbottom _)

lemma rmTopNomination_shuffles :
    Returns (fun r => Shuffles c l m r.2.2 r.2.1) (rmTopNomination cfg l m c n) := by
  refine .bind fun top => .bind fun x => ?_
  extract_lets top₁ rest
  have hrest : ∀ r, Shuffles c l m r.2.2 r.2.1 →
      Returns (fun r => Shuffles c l m r.2.2 r.2.1) (rest r) := by
    rintro ⟨top', m₁, l₁⟩ h
    exact .pure (h.trans ((Shuffles.resetTopData cfg l₁ m₁ _).trans (.of_eq rfl rfl rfl rfl rfl rfl rfl)))
  clear_value rest
  refine .ite (.bind fun bottom => .bind fun y => .jump (hrest _ (.of_eq rfl rfl rfl rfl rfl rfl rfl)))
    (.jump (hrest _ (.refl l m)))

lemma rmBottomNomination_shuffles :
    Returns (fun r => Shuffles c l m r.2.2 r.2.1) (rmBottomNomination cfg l m c n) :=
  .bind fun _ => .bind fun _ => .pure (.of_eq rfl rfl rfl rfl rfl rfl rfl)

omit [LinearOrder AccountId] in
lemma topElseBottom_returns {β : Type} {P : β → Prop} {top bottom : Except Error β}
    (ht : Returns P top) (hb : Returns P bottom) : Returns P (topElseBottom top bottom) := by
  unfold topElseBottom
  split
  · exact hb
  · exact ht

lemma rmNominationIfExists_shuffles (amount : ℕ) :
    Returns (fun r => Shuffles c l m r.2.2 r.2.1) (rmNominationIfExists cfg l m c n amount) :=
  .ite rmTopNomination_shuffles
    (.ite (topElseBottom_returns rmTopNomination_shuffles rmBottomNomination_shuffles)
      rmBottomNomination_shuffles)

lemma increaseTopNomination_shuffles (more : ℕ) :
    Returns (fun r => Shuffles c l m r.2.2 r.2.1) (increaseTopNomination cfg l m c n more) :=
  .bind fun _ => .bind fun _ => .pure ((Shuffles.resetTopData cfg l m _).trans
    (.of_eq rfl rfl rfl rfl rfl rfl rfl))

lemma increaseBottomNomination_shuffles (bond more : ℕ) :
    Returns (fun r => Shuffles c l m r.2.2 r.2.1)
      (increaseBottomNomination cfg l m c n bond more) := by
  refine .bind fun bottom => ?_
  extract_lets rest
  have hrest : ∀ r, Shuffles c l m r.2.2.2 r.2.2.1 →
      Returns (fun r => Shuffles c l m r.2.2 r.2.1) (rest r) := by
    rintro ⟨b, bottom', m₁, l₁⟩ h
    exact .pure (h.trans (.of_eq rfl rfl rfl rfl rfl rfl rfl))
  clear_value rest
  refine .ite (.bind fun x => ?_) (.bind fun _ => .jump (hrest _ (.refl l m)))
  extract_lets y rest₁
  have hrest₁ : ∀ r, Returns (fun r => Shuffles c l m r.2.2 r.2.1) (rest₁ r) := by
    rintro ⟨top', bottom'⟩
    exact .jump (hrest _ ((Shuffles.resetTopData cfg l m _).trans (.of_eq rfl rfl rfl rfl rfl rfl rfl)))
  clear_value rest₁
  exact .bind fun top => .ite (.bind fun _ => .jump (hrest₁ _)) (.jump (hrest₁ _))

lemma increaseNomination_shuffles (bond more : ℕ) :
    Returns (fun r => Shuffles c l m r.2.2 r.2.1) (increaseNomination cfg l m c n bond more) :=
  .ite (increaseTopNomination_shuffles more)
    (.ite (topElseBottom_returns (increaseTopNomination_shuffles more)
      (increaseBottomNomination_shuffles bond more)) (increaseBottomNomination_shuffles bond more))

lemma decreaseTopNomination_shuffles (bond less : ℕ) :
    Returns (fun r => Shuffles c l m r.2.2 r.2.1) (decreaseTopNomination cfg l m c n bond less) := by
  rw [decreaseTopNomination]
  extract_lets rest
  have hrest : ∀ r, Shuffles c l m r.2.2.2 r.2.2.1 →
      Returns (fun r => Shuffles c l m r.2.2 r.2.1) (rest r) := by
    rintro ⟨b, top', m₁, l₁⟩ h
    exact .pure (h.trans ((Shuffles.resetTopData cfg l₁ m₁ _).trans (.of_eq rfl rfl rfl rfl rfl rfl rfl)))
  clear_value rest
  refine .bind fun top => .ite ?_ (.bind fun _ => .jump (hrest _ (.refl l m)))
  exact .bind fun _ => .bind fun _ => .bind fun _ => .jump (hrest _ (.of_eq rfl rfl rfl rfl rfl rfl rfl))

lemma decreaseBottomNomination_shuffles (less : ℕ) :
    Returns (fun r => Shuffles c l m r.2.2 r.2.1) (decreaseBottomNomination cfg l m c n less) :=
  .bind fun _ => .bind fun _ => .pure (.of_eq rfl rfl rfl rfl rfl rfl rfl)

lemma decreaseNomination_shuffles (bond less : ℕ) :
    Returns (fun r => Shuffles c l m r.2.2 r.2.1) (decreaseNomination cfg l m c n bond less) :=
  .ite (decreaseTopNomination_shuffles bond less)
    (.ite (topElseBottom_returns (decreaseTopNomination_shuffles bond less)
      (decreaseBottomNomination_shuffles less)) (decreaseBottomNomination_shuffles less))

end CandidateMetadata

/-! ## Terms -/

/-- **A pending decrease is covered**: it leaves what the tier asks for. -/
def CandidateMetadata.Covered (cfg : Config AccountId) (m : CandidateMetadata AccountId) : Prop :=
  ∀ r, m.request = some r →
    r.amount < m.bond ∧ CandidateMetadata.minCandidateStk cfg m.tier ≤ m.bond - r.amount

/-- Every pending decrease of a self-bond is covered. -/
def Ledger.Covered (cfg : Config AccountId) (l : Ledger AccountId) : Prop :=
  ∀ c m, l.candidateInfo.get c = some m → m.Covered cfg

/-- Nominators, each under its own account, none of whom is a candidate. -/
def Ledger.Admits (l : Ledger AccountId) (ns : StorageMap AccountId (Nominator AccountId)) : Prop :=
  ∀ n st, ns.get n = some st → st.id = n ∧ l.candidateInfo.get n = none

/-- **Nobody is both** a nominator and a candidate. -/
def Ledger.Apart (l : Ledger AccountId) : Prop := l.Admits l.nominatorState

section Terms

variable {cfg : Config AccountId} {l : Ledger AccountId} {m m' : CandidateMetadata AccountId}
  {ns ns' : StorageMap AccountId (Nominator AccountId)} {c n : AccountId} {st : Nominator AccountId}

omit [LinearOrder AccountId] in
lemma CandidateMetadata.tier_congr (h : m'.standing = m.standing) : m'.tier = m.tier :=
  congrArg (fun x : ValidatorStatus × Bool × TierType => x.2.2) h

omit [LinearOrder AccountId] in
/-- Nothing is pending, or the request is the old one and the bond has not become smaller. -/
lemma CandidateMetadata.Covered.of_le (h : m.Covered cfg) (ht : m'.tier = m.tier)
    (hr : m'.request = none ∨ m'.request = m.request) (hb : m.bond ≤ m'.bond) : m'.Covered cfg := by
  intro r hreq
  rcases hr with hr | hr
  · rw [hr] at hreq
    cases hreq
  · obtain ⟨hlt, hmin⟩ := h r (hr ▸ hreq)
    rw [ht]
    exact ⟨by omega, by omega⟩

omit [LinearOrder AccountId] in
lemma Shuffles.covered {l' : Ledger AccountId} (h : Shuffles c l m l' m') (hm : m.Covered cfg) :
    m'.Covered cfg :=
  hm.of_le (CandidateMetadata.tier_congr h.standing) (Or.inr h.request) h.bond.ge

omit [LinearOrder AccountId] in
/-- Records are rewritten, or go. -/
lemma Ledger.Admits.of_old (h : l.Admits ns)
    (hold : ∀ n st', ns'.get n = some st' → ∃ st, ns.get n = some st ∧ st'.id = st.id) :
    l.Admits ns' := by
  intro n st' hst'
  obtain ⟨st, hst, hid⟩ := hold n st' hst'
  obtain ⟨hkey, hfree⟩ := h n st hst
  exact ⟨hid.trans hkey, hfree⟩

lemma Ledger.Admits.remove (h : l.Admits ns) (n : AccountId) : l.Admits (ns.remove n) := by
  refine h.of_old fun k st' hk => ?_
  rw [StorageMap.get_remove] at hk
  split_ifs at hk
  exact ⟨st', hk, rfl⟩

/-- The record of somebody who is not a candidate. -/
lemma Ledger.Admits.insert (h : l.Admits ns) (hid : st.id = n)
    (hfree : l.candidateInfo.get n = none) : l.Admits (ns.insert n st) := by
  intro k st' hk
  rw [StorageMap.get_insert] at hk
  split_ifs at hk with hkn
  · obtain rfl := Option.some.inj hk
    exact ⟨hid.trans hkn.symm, hkn ▸ hfree⟩
  · exact h k st' hk

/-- The record of a nominator is written back. -/
lemma Ledger.Admits.put (h : l.Admits ns) {st' : Nominator AccountId} (hst : ns.get n = some st)
    (hid : st'.id = st.id) : l.Admits (ns.insert n st') :=
  h.insert (hid.trans (h n st hst).1) (h n st hst).2

omit [LinearOrder AccountId] in
lemma Shuffles.admits {l₀ l' : Ledger AccountId} (h : Shuffles c l m l' m')
    (hl : l₀.Admits l.nominatorState) : l₀.Admits l'.nominatorState := hl.of_old h.nominators

end Terms

/-! ## Operations on stakes -/

/-- **An operation on stakes**: nobody's standing changes, and the pool goes on agreeing. -/
structure OnRoll (l l' : Ledger AccountId) : Prop where
  standing : l'.standing = l.standing
  pool : l.PoolAgrees → l'.PoolAgrees

namespace OnRoll

variable {l l₁ l₂ : Ledger AccountId} {c : AccountId} {m m' : CandidateMetadata AccountId}

omit [LinearOrder AccountId] in
lemma refl (l : Ledger AccountId) : OnRoll l l := ⟨rfl, id⟩

omit [LinearOrder AccountId] in
lemma trans (h₁ : OnRoll l l₁) (h₂ : OnRoll l₁ l₂) : OnRoll l l₂ :=
  ⟨h₂.standing.trans h₁.standing, fun h => h₂.pool (h₁.pool h)⟩

omit [LinearOrder AccountId] in
lemma of_eq (hinfo : l₁.candidateInfo = l.candidateInfo)
    (hpool : l₁.candidatePool = l.candidatePool) : OnRoll l l₁ := by
  refine ⟨?_, fun h c => ?_⟩
  · funext c
    rw [Ledger.standing, hinfo, Ledger.standing]
  · rw [hpool, hinfo]
    exact h c

/-- The copy of a record is written back. -/
lemma write (hc : l.candidateInfo.get c = some m) (h : Follows c l m l₁ m')
    (hinfo : l₂.candidateInfo = l.candidateInfo.insert c m')
    (hpool : l₂.candidatePool = l₁.candidatePool) : OnRoll l l₂ := by
  refine ⟨?_, fun hagree k => ?_⟩
  · funext k
    simp only [Ledger.standing, hinfo, StorageMap.get_insert]
    split_ifs with hk
    · rw [hk, hc, Option.map_some, Option.map_some, h.standing]
    · rfl
  · simp only [hpool, hinfo, StorageMap.get_insert]
    split_ifs with hk
    · subst hk
      have hentry := hagree k
      rw [hc] at hentry
      exact h.self hentry
    · rw [h.other k hk]
      exact hagree k

end OnRoll

/-- **An operation on stakes, with its terms**: besides, pending decreases stay covered, and nobody
becomes both a nominator and a candidate. -/
structure OnTerms (cfg : Config AccountId) (l l' : Ledger AccountId) : Prop extends OnRoll l l' where
  covered : l.Covered cfg → l'.Covered cfg
  apart : l.Apart → l'.Apart

omit [LinearOrder AccountId] in
/-- The candidates are the same accounts as before. -/
lemma OnRoll.admits {l l' : Ledger AccountId} {ns : StorageMap AccountId (Nominator AccountId)}
    (h : OnRoll l l') (hl : l.Admits ns) : l'.Admits ns := by
  intro n st hst
  obtain ⟨hid, hfree⟩ := hl n st hst
  have hstand : l'.standing n = none := by rw [h.standing, Ledger.standing, hfree, Option.map_none]
  exact ⟨hid, Option.map_eq_none_iff.mp hstand⟩

namespace OnTerms

variable {cfg : Config AccountId} {l l₁ l₂ : Ledger AccountId} {c : AccountId}
  {m m' : CandidateMetadata AccountId}

omit [LinearOrder AccountId] in
lemma refl (l : Ledger AccountId) : OnTerms cfg l l := ⟨.refl l, id, id⟩

omit [LinearOrder AccountId] in
lemma trans (h₁ : OnTerms cfg l l₁) (h₂ : OnTerms cfg l₁ l₂) : OnTerms cfg l l₂ :=
  ⟨h₁.toOnRoll.trans h₂.toOnRoll, fun h => h₂.covered (h₁.covered h),
    fun h => h₂.apart (h₁.apart h)⟩

omit [LinearOrder AccountId] in
/-- Nothing happens to the candidates. -/
lemma of_nominators (hinfo : l₁.candidateInfo = l.candidateInfo)
    (hpool : l₁.candidatePool = l.candidatePool) (hnom : l.Apart → l.Admits l₁.nominatorState) :
    OnTerms cfg l l₁ := by
  have hroll : OnRoll l l₁ := .of_eq hinfo hpool
  refine ⟨hroll, fun h c m hc => h c m ?_, fun h => hroll.admits (hnom h)⟩
  rw [← hinfo]
  exact hc

omit [LinearOrder AccountId] in
lemma of_eq (hinfo : l₁.candidateInfo = l.candidateInfo)
    (hpool : l₁.candidatePool = l.candidatePool) (hnom : l₁.nominatorState = l.nominatorState) :
    OnTerms cfg l l₁ :=
  of_nominators hinfo hpool fun h => hnom ▸ h

/-- The copy of a record is written back. -/
lemma write (hc : l.candidateInfo.get c = some m) (h : Follows c l m l₁ m')
    (hinfo : l₂.candidateInfo = l.candidateInfo.insert c m')
    (hpool : l₂.candidatePool = l₁.candidatePool) (hcov : m.Covered cfg → m'.Covered cfg)
    (hnom : l.Apart → l.Admits l₂.nominatorState) : OnTerms cfg l l₂ := by
  have hroll : OnRoll l l₂ := .write hc h hinfo hpool
  refine ⟨hroll, fun hl k mk hk => ?_, fun hl => hroll.admits (hnom hl)⟩
  rw [hinfo, StorageMap.get_insert] at hk
  split_ifs at hk
  · obtain rfl := Option.some.inj hk
    exact hcov (hl c m hc)
  · exact hl k mk hk

end OnTerms

lemma Ledger.updateActive_candidatePool (l : Ledger AccountId) (c : AccountId) (v : ℕ) :
    (l.updateActive c v).candidatePool =
      if (l.candidatePool.get c).isSome then l.candidatePool.insert c v else l.candidatePool := by
  cases h : l.candidatePool.get c <;> simp [Ledger.updateActive, h]

namespace Ledger

variable {cfg : Config AccountId} {l : Ledger AccountId} {c n : AccountId}

/-- A record is rewritten without its voting power. -/
lemma updateCandidate_onTerms
    {f : CandidateMetadata AccountId → Except Error (CandidateMetadata AccountId)}
    (hf : ∀ m, Returns (fun m' => m'.standing = m.standing ∧ m'.votingPower = m.votingPower ∧
      (m.Covered cfg → m'.Covered cfg)) (f m)) :
    Returns (OnTerms cfg l) (l.updateCandidate c f) := by
  intro l' h
  simp only [updateCandidate, bind_eq_ok, okOr_eq_ok, pure_eq_ok] at h
  obtain ⟨m, hc, m', hm', rfl⟩ := h
  obtain ⟨hs, hv, hcov⟩ := hf m m' hm'
  exact .write hc (.of_eq rfl rfl hs hv : Follows c l m l m') rfl rfl hcov id

variable (cfg) in
lemma setCandidateRewardDst_onTerms (dst : RewardDestination) :
    Returns (OnTerms cfg l) (l.setCandidateRewardDst c dst) :=
  updateCandidate_onTerms fun _ => .bind fun _ => .pure ⟨rfl, rfl, id⟩

/-- The decrease is checked when it is scheduled. -/
lemma scheduleCandidateBondLess_onTerms (now less : ℕ) :
    Returns (OnTerms cfg l) (l.scheduleCandidateBondLess cfg now c less) := by
  refine updateCandidate_onTerms fun m m' h => ?_
  simp only [CandidateMetadata.scheduleBondLess, bind_eq_ok, ensure_eq_ok, pure_eq_ok,
    exists_const] at h
  obtain ⟨-, -, hlt, hmin, rfl⟩ := h
  refine ⟨rfl, rfl, fun _ r hr => ?_⟩
  obtain rfl := Option.some.inj hr
  exact ⟨hlt, hmin⟩

variable (cfg) in
lemma cancelCandidateBondLess_onTerms : Returns (OnTerms cfg l) (l.cancelCandidateBondLess c) :=
  updateCandidate_onTerms fun _ => .bind fun _ => .pure
    ⟨rfl, rfl, fun h => h.of_le rfl (Or.inl rfl) le_rfl⟩

variable (cfg) in
lemma candidateBondMore_onTerms (more : ℕ) :
    Returns (OnTerms cfg l) (l.candidateBondMore c more) := by
  intro l' h
  simp only [candidateBondMore, CandidateMetadata.bondMore, bind_eq_ok, ensure_eq_ok, pure_eq_ok,
    exists_const, Prod.exists, Prod.mk.injEq] at h
  obtain ⟨controller, m, hb, -, m', l₁, ⟨currency, -, rfl, rfl⟩, rfl⟩ := h
  have hm := (bonded_spec hb).2
  refine .write hm (Follows.updateActive { m with
    bond := m.bond + more, votingPower := m.votingPower + more } rfl) ?_ ?_
    (fun hcov => hcov.of_le rfl (Or.inr rfl) (Nat.le_add_right _ _)) fun hl => ?_
  · simp
  · simp only [updateActive_candidatePool]
  · rw [updateActive_nominatorState]
    exact hl

variable (cfg) in
lemma executeCandidateBondLess_onTerms (now : ℕ) :
    Returns (OnTerms cfg l) (l.executeCandidateBondLess now c) := by
  intro l' h
  simp only [executeCandidateBondLess, CandidateMetadata.executeBondLess, bind_eq_ok, okOr_eq_ok,
    ensure_eq_ok, pure_eq_ok, exists_const, Prod.exists, Prod.mk.injEq] at h
  obtain ⟨controller, m, hb, m', l₁, ⟨request, -, -, rfl, rfl⟩, rfl⟩ := h
  have hm := (bonded_spec hb).2
  refine .write hm (Follows.updateActive (m.lessBond request.amount) rfl) ?_ ?_
    (fun _ r hr => by cases hr) fun hl => ?_
  · simp
  · simp only [updateActive_candidatePool]
  · rw [updateActive_nominatorState]
    exact hl

/-- Whoever nominates for the first time is not a candidate. -/
lemma nominatorWith_admits {amount count : ℕ} {st : Nominator AccountId}
    (h : l.nominatorWith cfg n c amount count = .ok st) (hl : l.Apart) :
    st.id = n ∧ l.candidateInfo.get n = none := by
  cases hn : l.nominatorState.get n with
  | none =>
      simp only [nominatorWith, hn, bind_eq_ok, ensure_eq_ok, pure_eq_ok, exists_const,
        isCandidate, Bool.not_eq_true', Option.isSome_eq_false_iff,
        Option.isNone_iff_eq_none] at h
      obtain ⟨-, hfree, rfl⟩ := h
      exact ⟨rfl, hfree⟩
  | some st₀ =>
      simp only [nominatorWith, hn, Nominator.addNomination, bind_eq_ok, ensure_eq_ok, pure_eq_ok,
        exists_const] at h
      obtain ⟨-, -, -, -, -, rfl⟩ := h
      exact hl n st₀ hn

lemma nominate_onTerms (amount i j : ℕ) :
    Returns (OnTerms cfg l) (l.nominate cfg n c amount i j) := by
  intro l' h
  simp only [nominate, bind_eq_ok, okOr_eq_ok, ensure_eq_ok, pure_eq_ok, exists_const,
    Prod.exists] at h
  obtain ⟨-, st, hst, m, hm, -, added, less, m', l₁, hadd, currency, -, rfl⟩ := h
  have hshuffle := CandidateMetadata.addNomination_shuffles _ _ hadd
  refine .write hm hshuffle.toFollows ?_ rfl hshuffle.covered fun hl => ?_
  · rw [← hshuffle.info]
  · obtain ⟨hid, hfree⟩ := nominatorWith_admits hst hl
    exact (hshuffle.admits hl).insert hid hfree

lemma nominatorLeavesCandidate_onTerms (amount : ℕ) :
    Returns (OnTerms cfg l) (l.nominatorLeavesCandidate cfg c n amount) := by
  intro l' h
  simp only [nominatorLeavesCandidate, bind_eq_ok, okOr_eq_ok, pure_eq_ok, Prod.exists] at h
  obtain ⟨m, hm, b, m', l₁, hrm, rfl⟩ := h
  have hshuffle := CandidateMetadata.rmNominationIfExists_shuffles _ _ hrm
  refine .write hm hshuffle.toFollows ?_ rfl hshuffle.covered hshuffle.admits
  rw [← hshuffle.info]

end Ledger

namespace Nominator

variable {cfg : Config AccountId} {l : Ledger AccountId} {st st₀ : Nominator AccountId}
  {c n : AccountId}

/-- `increase_nomination` writes the record under its own id. -/
lemma increaseNomination_id {amount : ℕ} {st' : Nominator AccountId} {l' : Ledger AccountId}
    (h : st.increaseNomination cfg l c amount = (.ok st', l')) : st'.id = st.id := by
  simp only [increaseNomination] at h
  split at h
  · cases h
  · split at h
    · cases h
    · split at h
      · cases h
      · split at h
        · cases h
        · simp only [Prod.mk.injEq, Except.ok.injEq] at h
          exact h.1 ▸ rfl

/-- `increase_nomination` of the record of a nominator, whether it succeeds or not. -/
lemma increaseNomination_onTerms (hn : l.nominatorState.get n = some st₀) (hid : st.id = st₀.id)
    (c : AccountId) (amount : ℕ) : OnTerms cfg l (st.increaseNomination cfg l c amount).2 := by
  cases hb : st.nominations.get c with
  | none =>
      simp only [increaseNomination, hb]
      exact .refl l
  | some before =>
      cases hm : l.candidateInfo.get c with
      | none =>
          simp only [increaseNomination, hb, hm]
          exact .refl l
      | some m =>
          cases hcur : l.currency.reserve st.id amount with
          | error e =>
              simp only [increaseNomination, hb, hm, setNomination_id, hcur]
              exact .refl l
          | ok currency =>
              cases hinc : m.increaseNomination cfg { l with currency := currency } c st.id before
                  amount with
              | error e =>
                  simp only [increaseNomination, hb, hm, setNomination_id, hcur, hinc]
                  exact .of_eq rfl rfl rfl
              | ok r =>
                  obtain ⟨b, m', l₁⟩ := r
                  simp only [increaseNomination, hb, hm, setNomination_id, hcur, hinc]
                  have hshuffle := CandidateMetadata.increaseNomination_shuffles _ _ _ hinc
                  have hl : Follows c l m { l with currency := currency } m :=
                    .of_eq rfl rfl rfl rfl
                  have hinfo : l₁.candidateInfo = l.candidateInfo := hshuffle.info
                  refine .write hm (hl.trans (hshuffle.toFollows.trans (Follows.updateActive m' rfl)))
                    ?_ rfl hshuffle.covered fun hapart => ?_
                  · simp only [Ledger.settle, Ledger.updateActive_candidateInfo, hinfo]
                  · simp only [Ledger.settle, Ledger.updateActive_nominatorState, setNomination_id]
                    obtain ⟨hkey, hfree⟩ := hapart n st₀ hn
                    have hst : st.id = n := hid.trans hkey
                    exact (hshuffle.admits hapart).insert rfl (hst ▸ hfree)

lemma executePendingRequest_onTerms (hn : l.nominatorState.get n = some st) (now : ℕ) :
    Returns (OnTerms cfg l) (st.executePendingRequest cfg l now c) := by
  refine .bind fun request => .bind fun _ => ?_
  cases request.action with
  | revoke =>
      refine .bind fun _ => .bind_of (Ledger.nominatorLeavesCandidate_onTerms _) fun l₁ h =>
        .pure ⟨h.toOnRoll.trans (.of_eq rfl rfl), h.covered, fun hapart => ?_⟩
      have hl₁ : l₁.Apart := h.apart hapart
      obtain ⟨hkey, hfree⟩ := h.toOnRoll.admits hapart n st hn
      show l₁.Admits (if _ then _ else _)
      split_ifs
      · exact hl₁.remove _
      · refine hl₁.insert rfl ?_
        rw [rmNominationIgnore_id, hkey]
        exact hfree
  | decrease =>
      intro l' h
      simp only [executeDecrease, bind_eq_ok, okOr_eq_ok, ensure_eq_ok, pure_eq_ok, exists_const,
        Prod.exists] at h
      obtain ⟨before, -, -, -, -, m, hm, b, m', l₁, hdec, rfl⟩ := h
      have hshuffle := CandidateMetadata.decreaseNomination_shuffles _ _ _ hdec
      have hl : ∀ currency, Follows c l m { l with currency := currency } m :=
        fun _ => .of_eq rfl rfl rfl rfl
      have hinfo : l₁.candidateInfo = l.candidateInfo := hshuffle.info
      refine .write hm ((hl _).trans hshuffle.toFollows) ?_ rfl hshuffle.covered fun hapart => ?_
      · simp only [Ledger.settle, hinfo]
      · obtain ⟨hkey, hfree⟩ := hapart n st hn
        exact (hshuffle.admits hapart).insert rfl (by simpa [Ledger.settle, hkey] using hfree)

end Nominator

namespace Ledger

variable {cfg : Config AccountId} {l : Ledger AccountId} {c n : AccountId}

/-- A nominator rewrites its record, under the same id. -/
lemma updateNominator_onTerms {f : Nominator AccountId → Except Error (Nominator AccountId)}
    (hf : ∀ st, Returns (fun st' => st'.id = st.id) (f st)) :
    Returns (OnTerms cfg l) (l.updateNominator n f) := by
  intro l' h
  simp only [updateNominator, bind_eq_ok, okOr_eq_ok, pure_eq_ok] at h
  obtain ⟨st, hst, st', hst', rfl⟩ := h
  exact .of_nominators rfl rfl fun hl => hl.put hst (hf st st' hst')

variable (cfg) in
lemma scheduleLeaveNominators_onTerms (now : ℕ) :
    Returns (OnTerms cfg l) (l.scheduleLeaveNominators cfg now n) :=
  updateNominator_onTerms fun _ => .bind fun _ => .bind fun _ => .pure rfl

variable (cfg) in
lemma cancelLeaveNominators_onTerms : Returns (OnTerms cfg l) (l.cancelLeaveNominators n) :=
  updateNominator_onTerms fun _ => .bind fun _ => .pure rfl

variable (cfg) in
lemma setNominatorRewardDst_onTerms (dst : RewardDestination) :
    Returns (OnTerms cfg l) (l.setNominatorRewardDst n dst) :=
  updateNominator_onTerms fun _ => .bind fun _ => .pure rfl

lemma scheduleRevokeNomination_onTerms (now : ℕ) :
    Returns (OnTerms cfg l) (l.scheduleRevokeNomination cfg now n c) :=
  updateNominator_onTerms fun st => .bind fun _ => .bind_of (Q := fun r => r.2.id = st.id)
    (.bind fun _ => .bind fun _ => .pure rfl) fun _ h => .pure h

lemma scheduleNominatorBondLess_onTerms (now less : ℕ) :
    Returns (OnTerms cfg l) (l.scheduleNominatorBondLess cfg now n c less) := by
  refine updateNominator_onTerms fun st => .bind fun _ => .bind_of (Q := fun r => r.2.id = st.id)
    ?_ fun _ h => .pure h
  exact .bind fun _ => .bind fun _ => .bind fun _ => .bind fun _ => .bind fun _ => .pure rfl

variable (cfg) in
lemma cancelNominationRequest_onTerms :
    Returns (OnTerms cfg l) (l.cancelNominationRequest n c) :=
  updateNominator_onTerms fun st => .bind_of (Q := fun r => r.2.id = st.id)
    (.bind fun _ => .pure rfl) fun _ h => .pure h

lemma executeNominationRequest_onTerms (now : ℕ) :
    Returns (OnTerms cfg l) (l.executeNominationRequest cfg now n c) := by
  intro l' h
  obtain ⟨st, hst, h⟩ := bind_eq_ok.mp h
  exact Nominator.executePendingRequest_onTerms (okOr_eq_ok.mp hst) now l' h

lemma nominatorBondMore_onTerms (more : ℕ) :
    Returns (OnTerms cfg l) (l.nominatorBondMore cfg n c more) := by
  intro l' h
  simp only [nominatorBondMore, bind_eq_ok, okOr_eq_ok, pure_eq_ok] at h
  obtain ⟨st, hst, -, -, rfl⟩ := h
  exact Nominator.increaseNomination_onTerms hst rfl c more

/-- The loop over the nominations of a nominator that leaves. -/
lemma leaveAll_onTerms :
    ∀ (bonds : List (AccountId × ℕ)) (l : Ledger AccountId),
      OnTerms cfg l (leaveAll cfg n l bonds) := by
  intro bonds
  induction bonds with
  | nil => exact .refl
  | cons bond bonds ih =>
      intro l
      rw [leaveAll, List.foldl_cons, ← leaveAll]
      cases hleave : l.nominatorLeavesCandidate cfg bond.1 n bond.2 with
      | ok l₁ => exact (nominatorLeavesCandidate_onTerms _ _ hleave).trans (ih _)
      | error e =>
          have hlog : OnTerms cfg l
              { l with warnings := .nominatorLeaving n bond.1 e :: l.warnings } :=
            .of_eq rfl rfl rfl
          exact hlog.trans (ih _)

lemma executeLeaveNominators_onTerms (now count : ℕ) :
    Returns (OnTerms cfg l) (l.executeLeaveNominators cfg now n count) :=
  .bind fun _ => .bind fun _ => .pure ((leaveAll_onTerms _ l).trans
    (.of_nominators rfl rfl fun hl => hl.remove n))

variable (cfg) in
lemma mintReward_onTerms (amount : ℕ) (dest : AccountId) :
    OnTerms cfg l (l.mintReward amount dest) := by
  rw [mintReward]
  cases l.currency.depositIntoExisting dest amount with
  | none => exact .refl l
  | some currency => exact .of_eq rfl rfl rfl

variable (cfg) in
lemma handleValidatorRewardPayout_onTerms (stash : AccountId) (reward : ℕ) :
    Returns (OnTerms cfg l) (l.handleValidatorRewardPayout c stash reward) := by
  intro l' h
  have hmint := l.mintReward_onTerms cfg reward stash
  have hinfo : (l.mintReward reward stash).candidateInfo = l.candidateInfo := by
    rw [mintReward]
    cases l.currency.depositIntoExisting stash reward <;> rfl
  cases hm : l.candidateInfo.get c with
  | none =>
      simp only [handleValidatorRewardPayout, hm, Except.ok.injEq] at h
      exact h ▸ .refl l
  | some m =>
      rw [← hinfo] at hm
      refine hmint.trans ?_
      rw [handleValidatorRewardPayout, ← hinfo, hm] at h
      dsimp only at h
      generalize l.mintReward reward stash = l₀ at h hm
      have hfollow : Follows c l₀ m l₀ (m.incrementAwardedTokens reward) := .of_eq rfl rfl rfl rfl
      have hcov : m.Covered cfg → (m.incrementAwardedTokens reward).Covered cfg := id
      generalize m.incrementAwardedTokens reward = m₁ at h hfollow hcov
      cases hdst : m₁.rewardDst with
      | staked =>
          simp only [hdst, CandidateMetadata.bondMore, bind_eq_ok, pure_eq_ok, Prod.exists,
            Prod.mk.injEq] at h
          obtain ⟨m', l₁, ⟨currency, -, rfl, rfl⟩, rfl⟩ := h
          refine .write hm (hfollow.trans (Follows.updateActive { m₁ with
            bond := m₁.bond + reward, votingPower := m₁.votingPower + reward } rfl)) ?_ ?_
            (fun h => (hcov h).of_le rfl (Or.inr rfl) (Nat.le_add_right _ _)) fun hl => ?_
          · simp [hdst]
          · simp only [updateActive_candidatePool]
          · rw [updateActive_nominatorState]
            exact hl
      | account =>
          simp only [hdst, Except.ok.injEq] at h
          subst h
          exact .write hm hfollow rfl rfl hcov id

lemma handleNominatorRewardPayout_onTerms (reward : ℕ) :
    OnTerms cfg l (l.handleNominatorRewardPayout cfg c n reward) := by
  have hsame : (l.mintReward reward n).nominatorState = l.nominatorState := by
    rw [mintReward]
    cases l.currency.depositIntoExisting n reward <;> rfl
  rw [handleNominatorRewardPayout]
  cases hn : l.nominatorState.get n with
  | none => exact .refl l
  | some st =>
      dsimp only
      rw [← hsame] at hn
      split_ifs
      · refine (l.mintReward_onTerms cfg reward n).trans ?_
        generalize l.mintReward reward n = l₀ at hn
        cases (st.incrementAwardedTokens c reward).rewardDst with
        | staked =>
            have hid : (st.incrementAwardedTokens c reward).id = st.id := rfl
            have hinc : OnTerms cfg l₀ _ :=
              Nominator.increaseNomination_onTerms hn hid c reward
            dsimp only
            split
            · rename_i st' l₁ heq
              rw [heq] at hinc
              refine ⟨hinc.toOnRoll.trans (.of_eq rfl rfl), hinc.covered, fun hl => ?_⟩
              obtain ⟨hkey, hfree⟩ := hinc.toOnRoll.admits hl n st hn
              exact (hinc.apart hl).insert ((Nominator.increaseNomination_id heq).trans hkey) hfree
            · rename_i heq
              rw [heq] at hinc
              exact hinc.trans (.of_eq rfl rfl rfl)
        | account => exact .of_nominators rfl rfl fun hl => hl.put hn rfl
      · exact .refl l

lemma payNominators_onTerms (total due : ℕ) :
    ∀ (bonds : List (Bond AccountId)) (l : Ledger AccountId),
      OnTerms cfg l (l.payNominators cfg c total due bonds) := by
  intro bonds
  induction bonds with
  | nil => exact .refl
  | cons b bonds ih =>
      intro l
      rw [payNominators, List.foldl_cons, ← payNominators]
      dsimp only
      split_ifs
      · exact ih l
      · exact (handleNominatorRewardPayout_onTerms _).trans (ih _)

/-- **The payments of one validator** change nobody's standing, and no terms. -/
lemma payValidator_onTerms {m : CandidateMetadata AccountId} {info : DelayedPayout}
    {pts points paid : ℕ} {snapshot : ValidatorSnapshot AccountId} {l' : Ledger AccountId}
    (h : l.payValidator cfg c m info pts points snapshot = some (paid, l')) : OnTerms cfg l l' := by
  simp only [payValidator] at h
  split_ifs at h
  · simp only [Option.map_eq_some_iff, Prod.mk.injEq] at h
    obtain ⟨l₁, h₁, -, rfl⟩ := h
    exact handleValidatorRewardPayout_onTerms cfg _ _ _ (toOption_eq_some.mp h₁)
  · simp only [Option.map_eq_some_iff, Prod.mk.injEq] at h
    obtain ⟨l₁, h₁, -, rfl⟩ := h
    exact (handleValidatorRewardPayout_onTerms cfg _ _ _ (toOption_eq_some.mp h₁)).trans
      (payNominators_onTerms _ _ _ _)

end Ledger

end BifrostNode.Staking
