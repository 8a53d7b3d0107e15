import BifrostNode.Staking.Books

/-!
# Nominators keep the books

One lemma for each call of a nominator, saying what it keeps.  All of them but two keep everything.
The two exceptions are the two ways a pending request is executed:

* **a revocation** removes the whole nomination but returns the amount that the request was made
  for, so the reserve and the total follow only if that is still the amount of the nomination;
* **a decrease** of a nomination in the bottom list leaves the cached total of that list behind.
-/

namespace BifrostNode.Staking

open Transition RankedList

variable {AccountId : Type} [LinearOrder AccountId]

/-! ## The nominators' side -/

section Records

variable {cfg : Config AccountId} {l l' : Ledger AccountId} {n c : AccountId}
  {st st' : Nominator AccountId}

omit [LinearOrder AccountId] in
lemma Ledger.portfolio_of_some (h : l.nominatorState.get n = some st) :
    l.portfolio n = st.nominations := by
  simp [Ledger.portfolio, h]

/-- A record is written. -/
lemma Ledger.portfolio_put (h : l'.nominatorState = l.nominatorState.insert n st') :
    l'.portfolio = Function.update l.portfolio n st'.nominations := by
  funext k
  by_cases hk : k = n
  · subst hk
    simp [Ledger.portfolio, h]
  · simp [Ledger.portfolio, h, hk]

/-- A record is deleted. -/
lemma Ledger.portfolio_remove (h : l'.nominatorState = l.nominatorState.remove n) :
    l'.portfolio = Function.update l.portfolio n ∅ := by
  funext k
  by_cases hk : k = n
  · subst hk
    simp [Ledger.portfolio, h]
  · simp [Ledger.portfolio, h, hk]

lemma Records.put (hrec : Records cfg l) (h : l'.nominatorState = l.nominatorState.insert n st')
    (hst' : st'.Valid cfg n) : Records cfg l' := by
  intro k sk hk
  rw [h, StorageMap.get_insert] at hk
  split_ifs at hk with hkn
  · subst hkn
    exact (Option.some.inj hk) ▸ hst'
  · exact hrec k sk hk

lemma Records.remove (hrec : Records cfg l) (h : l'.nominatorState = l.nominatorState.remove n) :
    Records cfg l' := by
  intro k sk hk
  rw [h, StorageMap.get_remove] at hk
  split_ifs at hk
  exact hrec k sk hk

/-- A nomination goes, and with the last one the record. -/
lemma Records.drop {p : Prop} [Decidable p] (hrec : Records cfg l)
    (hn : l.nominatorState.get n = some st) (hlast : p → st.nominations.remove c = ∅)
    (h : l'.nominatorState =
      if p then l.nominatorState.remove n else l.nominatorState.insert n st')
    (hst' : st'.Valid cfg n) (hnom : st'.nominations = st.nominations.remove c) :
    Records cfg l' ∧
      l'.portfolio = Function.update l.portfolio n ((l.portfolio n).remove c) := by
  rw [Ledger.portfolio_of_some hn]
  split_ifs at h with hp
  · rw [hlast hp]
    exact ⟨hrec.remove h, Ledger.portfolio_remove h⟩
  · rw [← hnom]
    exact ⟨hrec.put h hst', Ledger.portfolio_put h⟩

/-- How the nominations of an account move when one of them is rewritten. -/
lemma Ledger.nominated_insert {b : ℕ} (b' : ℕ) (hb : (l.portfolio n).get c = some b)
    (h : l'.portfolio = Function.update l.portfolio n ((l.portfolio n).insert c b'))
    (a : AccountId) :
    l'.nominated a + (if a = n then b else 0) = l.nominated a + (if a = n then b' else 0) := by
  rw [Ledger.nominated, Ledger.nominated, h]
  by_cases ha : a = n
  · subst ha
    simpa using StorageMap.sum_insert_of_some b' (fun _ x => x) hb
  · simp [ha]

/-- How they move when there is a new one. -/
lemma Ledger.nominated_insert_new (b' : ℕ) (hb : (l.portfolio n).get c = none)
    (h : l'.portfolio = Function.update l.portfolio n ((l.portfolio n).insert c b'))
    (a : AccountId) : l'.nominated a = l.nominated a + (if a = n then b' else 0) := by
  rw [Ledger.nominated, Ledger.nominated, h]
  by_cases ha : a = n
  · subst ha
    simpa using StorageMap.sum_insert_of_none b' (fun _ x => x) hb
  · simp [ha]

/-- How they move when one of them goes. -/
lemma Ledger.nominated_remove {b : ℕ} (hb : (l.portfolio n).get c = some b)
    (h : l'.portfolio = Function.update l.portfolio n ((l.portfolio n).remove c))
    (a : AccountId) : l'.nominated a + (if a = n then b else 0) = l.nominated a := by
  rw [Ledger.nominated, Ledger.nominated, h]
  by_cases ha : a = n
  · subst ha
    simpa using StorageMap.sum_remove_of_some (fun _ x => x) hb
  · simp [ha]

end Records

/-! ## Both sides -/

section Moves

variable {cfg : Config AccountId} {l l₁ l₂ l' : Ledger AccountId} {n c : AccountId}
  {m m' : CandidateMetadata AccountId} {top bottom top' bottom' : Nominations AccountId}
  {out inn : List (Bond AccountId)} {exact : Prop} {P P' : AccountId → StorageMap AccountId ℕ}

/-- The candidates' side after a move on one board. -/
lemma Books.move (hb : Books cfg l P) (hc : l.candidateInfo.get c = some m)
    (hv : BoardValid cfg m top bottom) (htop : l.topNominations.get c = some top)
    (hbottom : l.bottomNominations.get c = some bottom)
    (hmove : BoardMove cfg l₁ c m top bottom out inn exact m' l₂ top' bottom')
    (hr : Rewrite l l' c m' top' bottom') (hout : out.Nodup)
    (hsub : out ⊆ top.nominations ++ bottom.nominations)
    (hother : ∀ k j, j ≠ c → (P' k).get j = (P k).get j)
    (hP' : ∀ k a, (P' k).get c = some a ↔
      (⟨k, a⟩ : Bond AccountId) ∈ inn ∨ ((P k).get c = some a ∧ (⟨k, a⟩ : Bond AccountId) ∉ out)) :
    Books cfg l' P' := by
  obtain ⟨hstash, hbond, hreq⟩ := hmove.same_fields
  refine hr.books hb hc hmove.valid hstash ?_ hother ?_
  · intro r hr
    rw [hbond]
    exact hb.request_lt c m r hc (hreq ▸ hr)
  · intro k a
    rw [hP', hmove.mem_iff hv hout hsub, hb.agree, Ledger.bonds_eq htop hbottom]

lemma Rewrite.selfBonded_of_move (hr : Rewrite l l' c m' top' bottom')
    (hmove : BoardMove cfg l₁ c m top bottom out inn exact m' l₂ top' bottom')
    (hc : l.candidateInfo.get c = some m) (a : AccountId) : l'.selfBonded a = l.selfBonded a := by
  obtain ⟨hstash, hbond, -⟩ := hmove.same_fields
  have hsum := hr.selfBonded hc hstash a
  rw [hbond] at hsum
  omega

lemma Rewrite.steady_of_move (hr : Rewrite l l' c m' top' bottom')
    (hmove : BoardMove cfg l₁ c m top bottom out inn exact m' l₂ top' bottom')
    (hc : l.candidateInfo.get c = some m) : Steady l l' :=
  .insert hc hr.info hr.stashes fun h => hmove.isLeaving_eq.trans h

lemma Rewrite.staked_of_move (hr : Rewrite l l' c m' top' bottom')
    (hmove : BoardMove cfg l₁ c m top bottom out inn exact m' l₂ top' bottom')
    (hc : l.candidateInfo.get c = some m) (htop : l.topNominations.get c = some top)
    (hbottom : l.bottomNominations.get c = some bottom) :
    l'.staked + (out.map Bond.amount).sum = l.staked + (inn.map Bond.amount).sum := by
  have hsum := hr.staked hc htop hbottom
  have hlists := hmove.sum_eq
  rw [hmove.same_fields.2.1] at hsum
  omega

/-- A nomination changes its amount, on both sides. -/
lemma LedgerInv.reweigh {st st' : Nominator AccountId} {b b' : ℕ} (hl : LedgerInv cfg l)
    (hc : l.candidateInfo.get c = some m) (hv : BoardValid cfg m top bottom)
    (htop : l.topNominations.get c = some top) (hbottom : l.bottomNominations.get c = some bottom)
    (hn : l.nominatorState.get n = some st) (hb : st.nominations.get c = some b)
    (hmove : BoardMove cfg l₁ c m top bottom [⟨n, b⟩] [⟨n, b'⟩] exact m' l₂ top' bottom')
    (hr : Rewrite l l' c m' top' bottom') (hst' : st'.Valid cfg n)
    (hnom : st'.nominations = st.nominations.insert c b')
    (hns : l'.nominatorState = l.nominatorState.insert n st') (hw : l'.warnings = l.warnings) :
    LedgerInv cfg l' ∧ ∀ a, l'.nominated a + (if a = n then b else 0) =
      l.nominated a + (if a = n then b' else 0) := by
  have hport : l'.portfolio = Function.update l.portfolio n ((l.portfolio n).insert c b') := by
    rw [Ledger.portfolio_put hns, hnom, Ledger.portfolio_of_some hn]
  have hbefore : (l.portfolio n).get c = some b := by rw [Ledger.portfolio_of_some hn, hb]
  refine ⟨⟨?_, hl.records.put hns hst', hw ▸ hl.benign⟩, Ledger.nominated_insert b' hbefore hport⟩
  refine hl.books.move hc hv htop hbottom hmove hr (List.nodup_singleton _) ?_ ?_ ?_
  · have := (hl.books.agree n c b).mp hbefore
    rw [Ledger.bonds_eq htop hbottom] at this
    simpa using this
  · intro k j hj
    rw [hport]
    by_cases hk : k = n
    · subst hk
      simp [hj]
    · simp [hk]
  · intro k a
    rw [hport]
    by_cases hk : k = n
    · subst hk
      simp [hbefore, eq_comm]
    · simp [hk]

/-- A nomination changes its amount, on both sides, and the reserve and the total follow. -/
lemma Preserves.reweigh {st st' : Nominator AccountId} {b b' : ℕ}
    (hc : l.candidateInfo.get c = some m) (hv : BoardValid cfg m top bottom)
    (htop : l.topNominations.get c = some top) (hbottom : l.bottomNominations.get c = some bottom)
    (hn : l.nominatorState.get n = some st) (hb : st.nominations.get c = some b)
    (hmove : BoardMove cfg l₁ c m top bottom [⟨n, b⟩] [⟨n, b'⟩] exact m' l₂ top' bottom')
    (hr : Rewrite l l' c m' top' bottom') (hst' : st'.Valid cfg n)
    (hnom : st'.nominations = st.nominations.insert c b')
    (hns : l'.nominatorState = l.nominatorState.insert n st') (hw : l'.warnings = l.warnings)
    (hres : ∀ a, l'.currency.reserved a =
      l.currency.reserved a + (if a = n then b' - b else 0) - (if a = n then b - b' else 0))
    (htotal : l'.total = l.total + (b' - b) - (b - b')) : Preserves cfg True exact l l' := by
  have hsettled : LedgerInv cfg l → l.Settled l' := by
    intro hl a
    have hnominated := (hl.reweigh hc hv htop hbottom hn hb hmove hr hst' hnom hns hw).2 a
    have hbonded := hr.selfBonded_of_move hmove hc a
    have hreserve := hres a
    refine ⟨if a = n then b' - b else 0, if a = n then b - b' else 0, ?_⟩
    split_ifs at hnominated hreserve ⊢ <;> omega
  have htotalled : l.Totalled l' := by
    have hstaked := hr.staked_of_move hmove hc htop hbottom
    simp only [List.map_cons, List.map_nil, List.sum_cons, List.sum_nil] at hstaked
    exact ⟨b' - b, b - b', by omega, by omega, by omega⟩
  refine ⟨⟨fun hl => (hl.reweigh hc hv htop hbottom hn hb hmove hr hst' hnom hns hw).1,
    fun _ hl => (hsettled hl).solvent, fun he _ hbe => ?_, fun _ _ _ => htotalled.agrees,
    fun hl => (hsettled hl).backed, fun _ _ => htotalled.covers⟩,
    fun _ => hr.steady_of_move hmove hc⟩
  exact hr.bottomExact hbe (hmove.bottom_exact he (hbe c bottom hbottom))

end Moves

/-! ## Bonding more -/

namespace Nominator

variable {cfg : Config AccountId} {l : Ledger AccountId} {n : AccountId}
  {st : Nominator AccountId}

/-- **`increase_nomination`.**  Called with the record of a nominator, up to its awarded tokens, it
either reports that there is no such nomination, or that the reserve failed, leaving no trace, or
it raises the nomination on both sides. -/
lemma increaseNomination_spec (self : Nominator AccountId) (c : AccountId)
    (hl : LedgerInv cfg l) (hn : l.nominatorState.get n = some st) (hid : self.id = st.id)
    (hnom : self.nominations = st.nominations)
    (htotal : self.total = st.total) (hreq : self.requests = st.requests) (amount : ℕ) :
    (self.nominations.get c = none ∧
      self.increaseNomination cfg l c amount = (.error .nominationDNE, l)) ∨
    self.increaseNomination cfg l c amount = (.error .currency, l) ∨
    ∃ self' l', self.increaseNomination cfg l c amount = (.ok self', l') ∧
      l'.nominatorState.get n = some self' ∧ Preserves cfg True True l l' := by
  have hvalid := hl.records n st hn
  cases hb : self.nominations.get c with
  | none => exact Or.inl ⟨rfl, by simp only [increaseNomination, hb]⟩
  | some b =>
      have hmem : (⟨n, b⟩ : Bond AccountId) ∈ l.bonds c := by
        rw [← hl.books.agree, Ledger.portfolio_of_some hn, ← hnom, hb]
      -- a nominated account is a candidate
      cases hc : l.candidateInfo.get c with
      | none =>
          obtain ⟨htop, hbottom⟩ := hl.books.no_board c hc
          simp [Ledger.bonds, htop, hbottom] at hmem
      | some m =>
          obtain ⟨top, bottom, htop, hbottom, hv⟩ := hl.books.board c m hc
          rw [Ledger.bonds_eq htop hbottom] at hmem
          have hidn : self.id = n := hid.trans hvalid.id_eq
          cases hcur : l.currency.reserve n amount with
          | error e =>
              refine Or.inr (Or.inl ?_)
              simp only [increaseNomination, hb, hc, setNomination_id, hidn, hcur,
                Currency.reserve_eq_error hcur]
          | ok currency =>
              obtain ⟨bb, m', l₁, top', bottom', hinc, hmove⟩ :=
                CandidateMetadata.increaseNomination_spec amount hv
                  (l := { l with currency := currency }) htop hbottom hmem
              have heq : self.increaseNomination cfg l c amount =
                  (.ok (self.setNomination c (b + amount) (self.total + amount)),
                    (l₁.updateActive c m'.votingPower).settle
                      ((l₁.updateActive c m'.votingPower).total + amount) c m'
                      (self.setNomination c (b + amount) (self.total + amount))) := by
                simp only [increaseNomination, hb, hc, setNomination_id, hidn, hcur, hinc]
              refine Or.inr (Or.inr ⟨_, _, heq, ?_, ?_⟩)
              · simp [Ledger.settle, hidn]
              · obtain ⟨hinfo, hns, hstash, htop', hbottom', htot, hcurr, hw⟩ := hmove.ledger_fields
                have hst' : (self.setNomination c (b + amount) (self.total + amount)).Valid cfg n :=
                  (hvalid.of_eq hid hnom htotal hreq).increase hb amount rfl rfl rfl rfl
                refine Preserves.reweigh hc hv htop hbottom hn (hnom ▸ hb) hmove ?_ hst'
                  (congrArg (StorageMap.insert · c (b + amount)) hnom) ?_ ?_ ?_ ?_
                · exact ⟨by simp [Ledger.settle, hinfo], by simp [Ledger.settle, hstash],
                    by simp [Ledger.settle, htop'], by simp [Ledger.settle, hbottom']⟩
                · simp [Ledger.settle, hns, hidn]
                · simp [Ledger.settle, hw]
                · intro a
                  simp [Ledger.settle, hcurr, Currency.reserve_eq_ok hcur]
                · simp [Ledger.settle, htot]

end Nominator

/-- `nominator_bond_more` keeps everything. -/
lemma Ledger.nominatorBondMore_preserves {cfg : Config AccountId} {l l' : Ledger AccountId}
    {n c : AccountId} {more : ℕ} (h : l.nominatorBondMore cfg n c more = .ok l') :
    Preserves cfg True True l l' := by
  refine Preserves.of_inv fun hl => ?_
  simp only [Ledger.nominatorBondMore, bind_eq_ok, okOr_eq_ok, pure_eq_ok] at h
  obtain ⟨st, hst, st', hres, rfl⟩ := h
  rcases Nominator.increaseNomination_spec st c hl hst rfl rfl rfl rfl more with
    ⟨-, heq⟩ | heq | ⟨self', l', heq, -, hpres⟩
  · rw [heq] at hres
    cases hres
  · rw [heq] at hres
    cases hres
  · rw [heq]
    exact hpres

/-! ## Leaving a candidate -/

/-- **One nomination goes from a board.**  The candidates' side loses the nomination of `n` on `c`,
which was of the amount `b`; `amount` is what is unreserved. -/
structure Withdrawn (cfg : Config AccountId) (l l' : Ledger AccountId)
    (P : AccountId → StorageMap AccountId ℕ) (n c : AccountId) (b amount : ℕ) : Prop where
  before : (P n).get c = some b
  books : Books cfg l' (Function.update P n ((P n).remove c))
  selfBonded : ∀ a, l'.selfBonded a = l.selfBonded a
  staked : l'.staked + b = l.staked
  bottomExact : l.BottomExact → l'.BottomExact
  nominatorState : l'.nominatorState = l.nominatorState
  reserved : ∀ a, l'.currency.reserved a = l.currency.reserved a - if a = n then amount else 0
  total : l'.total = l.total - amount
  warnings : l'.warnings = l.warnings
  steady : Steady l l'

/-- The nominators' side follows: the reserve and the total are right if the amount was. -/
lemma Withdrawn.preserves {cfg : Config AccountId} {l l₁ : Ledger AccountId} {n c : AccountId}
    {b amount : ℕ} {ns : StorageMap AccountId (Nominator AccountId)}
    (hw : Withdrawn cfg l l₁ l.portfolio n c b amount) (hle : amount ≤ b) (hl : LedgerInv cfg l)
    (hrec : Records cfg { l₁ with nominatorState := ns })
    (hport : ({ l₁ with nominatorState := ns } : Ledger AccountId).portfolio =
      Function.update l.portfolio n ((l.portfolio n).remove c)) :
    Preserves cfg (b = amount) True l { l₁ with nominatorState := ns } where
  inv _ := by
    refine ⟨?_, hrec, hw.warnings ▸ hl.benign⟩
    rw [hport]
    exact ⟨hw.books.board, hw.books.no_board, hw.books.stash_iff, hw.books.request_lt,
      hw.books.agree⟩
  solvent hfresh _ hs a := by
    have hold := hs a
    have hnominated := Ledger.nominated_remove hw.before hport a
    have hbonded : ({ l₁ with nominatorState := ns } : Ledger AccountId).selfBonded a =
      l.selfBonded a := hw.selfBonded a
    have hres := hw.reserved a
    rw [hbonded]
    show l₁.currency.reserved a = _
    split_ifs at hnominated hres <;> omega
  bottomExact _ _ hbe := hw.bottomExact hbe
  total hfresh _ _ ht := by
    have hstaked := hw.staked
    have htotal := hw.total
    show l₁.total = l₁.staked
    rw [Ledger.TotalAgrees] at ht
    omega
  backed _ hs a := by
    -- what is unreserved is at most what is withdrawn
    have hold := hs a
    have hnominated := Ledger.nominated_remove hw.before hport a
    have hbonded : ({ l₁ with nominatorState := ns } : Ledger AccountId).selfBonded a =
      l.selfBonded a := hw.selfBonded a
    have hres := hw.reserved a
    rw [hbonded]
    show _ ≤ l₁.currency.reserved a
    split_ifs at hnominated hres <;> omega
  covers _ _ ht := by
    have hstaked := hw.staked
    have htotal := hw.total
    show l₁.staked ≤ l₁.total
    rw [Ledger.TotalCovers] at ht
    omega
  steady _ := hw.steady.trans (.of_eq rfl rfl)

namespace Ledger

variable {cfg : Config AccountId} {l l' : Ledger AccountId} {n c : AccountId} {amount : ℕ}
  {P : AccountId → StorageMap AccountId ℕ}

/-- A success of `nominator_leaves_candidate`, whatever amount it is called with. -/
lemma nominatorLeavesCandidate_spec (hb : Books cfg l P)
    (h : l.nominatorLeavesCandidate cfg c n amount = .ok l') :
    ∃ b, Withdrawn cfg l l' P n c b amount := by
  simp only [nominatorLeavesCandidate, bind_eq_ok, okOr_eq_ok, pure_eq_ok, Prod.exists] at h
  obtain ⟨m, hc, flag, m', l₁, hrm, rfl⟩ := h
  obtain ⟨top, bottom, htop, hbottom, hv⟩ := hb.board c m hc
  obtain ⟨x, hx, rfl, top', bottom', hmove⟩ :=
    CandidateMetadata.rmNominationIfExists_spec hv htop hbottom hrm
  obtain ⟨hinfo, hns, hstash, htop', hbottom', htot, hcurr, hw⟩ := hmove.ledger_fields
  have hbefore : (P x.owner).get c = some x.amount := by
    rw [hb.agree, bonds_eq htop hbottom]
    exact hx
  have hr : Rewrite l { l₁ with
      currency := l₁.currency.unreserve x.owner amount
      total := l₁.total - amount
      candidateInfo := l₁.candidateInfo.insert c m' } c m' top' bottom' :=
    ⟨by simp [hinfo], hstash, htop', hbottom'⟩
  refine ⟨x.amount, hbefore, ?_, fun a => hr.selfBonded_of_move hmove hc a, ?_, ?_, hns, ?_, ?_, hw,
    hr.steady_of_move hmove hc⟩
  · refine hb.move hc hv htop hbottom hmove hr (List.nodup_singleton x) (by simpa using hx) ?_ ?_
    · intro k j hj
      by_cases hk : k = x.owner
      · subst hk
        simp [hj]
      · simp [hk]
    · intro k a
      by_cases hk : k = x.owner
      · subst hk
        simp only [Function.update_self, StorageMap.get_remove_self, hbefore, List.not_mem_nil,
          List.mem_singleton, false_or, reduceCtorEq, false_iff, not_and, not_not,
          Option.some.injEq]
        rintro rfl
        rfl
      · have hne : (⟨k, a⟩ : Bond AccountId) ≠ x := by
          rintro rfl
          exact hk rfl
        simp [hk, hne]
  · simpa using hr.staked_of_move hmove hc htop hbottom
  · intro hbe
    exact hr.bottomExact hbe (hmove.bottom_exact trivial (hbe c bottom hbottom))
  · intro a
    simp [hcurr]
  · simp [htot]

/-- Called with the amount of an existing nomination it succeeds. -/
lemma nominatorLeavesCandidate_ok (hb : Books cfg l P) {b : ℕ} (hP : (P n).get c = some b) :
    ∃ l', l.nominatorLeavesCandidate cfg c n b = .ok l' := by
  have hmem := (hb.agree n c b).mp hP
  cases hc : l.candidateInfo.get c with
  | none =>
      obtain ⟨htop, hbottom⟩ := hb.no_board c hc
      simp [bonds, htop, hbottom] at hmem
  | some m =>
      obtain ⟨top, bottom, htop, hbottom, hv⟩ := hb.board c m hc
      rw [bonds_eq htop hbottom] at hmem
      obtain ⟨⟨flag, m', l₁⟩, hrm⟩ :=
        CandidateMetadata.rmNominationIfExists_of_mem hv.ordered htop hbottom hmem
      simp only [nominatorLeavesCandidate, hc, okOr_some, ok_bind, hrm]
      exact ⟨_, rfl⟩

end Ledger

/-! ## Executing a request -/

namespace Ledger

/-- A revocation that is executed asks for the amount that is nominated. -/
def FreshRequest (cfg : Config AccountId) (l : Ledger AccountId) (now : ℕ) (n c : AccountId) : Prop :=
  IfOk (l.executeNominationRequest cfg now n c) (∀ st ∈ l.nominatorState.get n,
    ∀ r ∈ st.requests.requests.get c, r.action = .revoke → st.nominations.get c = some r.amount)

/-- A decrease that is executed is not of a nomination in the bottom list, or is of nothing. -/
def TopRequest (cfg : Config AccountId) (l : Ledger AccountId) (now : ℕ) (n c : AccountId) : Prop :=
  IfOk (l.executeNominationRequest cfg now n c) (∀ st ∈ l.nominatorState.get n,
    ∀ r ∈ st.requests.requests.get c, r.action = .decrease →
      ∀ bottom ∈ l.bottomNominations.get c, ∀ x ∈ bottom.nominations, x.owner = n → r.amount = 0)

instance (cfg : Config AccountId) (l : Ledger AccountId) (now : ℕ) (n c : AccountId) :
    Decidable (l.FreshRequest cfg now n c) := inferInstanceAs (Decidable (IfOk _ _))

instance (cfg : Config AccountId) (l : Ledger AccountId) (now : ℕ) (n c : AccountId) :
    Decidable (l.TopRequest cfg now n c) := inferInstanceAs (Decidable (IfOk _ _))

end Ledger

namespace Nominator

variable {cfg : Config AccountId} {l l' : Ledger AccountId} {n c : AccountId}
  {st : Nominator AccountId} {r : NominationRequest AccountId}

/-- The record without the request that is being executed. -/
def withoutRequest (st : Nominator AccountId) (c : AccountId) : Nominator AccountId :=
  { st with requests := { st.requests with requests := st.requests.requests.remove c } }

/-- **A revocation** keeps the invariant, and the balances if the whole nomination is revoked. -/
lemma executeRevoke_preserves (hn : l.nominatorState.get n = some st)
    (hreq : st.requests.requests.get c = some r) (hact : r.action = .revoke)
    (h : (st.withoutRequest c).executeRevoke cfg l c r.amount = .ok l') :
    Preserves cfg (st.nominations.get c = some r.amount) True l l' := by
  refine Preserves.of_inv fun hl => ?_
  have hvalid := hl.records n st hn
  simp only [executeRevoke, bind_eq_ok, ensure_eq_ok, pure_eq_ok, exists_const] at h
  obtain ⟨-, l₁, hleave, rfl⟩ := h
  -- dropping the request by hand is `remove_request`
  have hself : ({ st.withoutRequest c with requests := { (st.withoutRequest c).requests with
      lessTotal := (st.withoutRequest c).requests.lessTotal - r.amount
      revocationsCount := (st.withoutRequest c).requests.revocationsCount - 1 } } :
        Nominator AccountId).rmNominationIgnore c = st.dropNomination c := by
    rw [Valid.dropNomination_eq]
    simp [withoutRequest, PendingNominationRequests.removeRequest, hreq, hact]
  rw [hself] at hleave ⊢
  obtain ⟨b, hb, hle⟩ := hvalid.request_le c r hreq
  have hid : (st.dropNomination c).id = n := (hvalid.dropNomination hb).id_eq
  rw [hid] at hleave ⊢
  obtain ⟨b', hw⟩ := Ledger.nominatorLeavesCandidate_spec hl.books hleave
  obtain rfl : b = b' := by
    have := hw.before
    rw [Ledger.portfolio_of_some hn, hb] at this
    exact Option.some.inj this
  have hns : ({ l₁ with
      nominatorState :=
        if (st.withoutRequest c).nominations.keys.card = 1 then l₁.nominatorState.remove n
        else l₁.nominatorState.insert n (st.dropNomination c) } :
          Ledger AccountId).nominatorState =
      if (st.withoutRequest c).nominations.keys.card = 1 then l.nominatorState.remove n
      else l.nominatorState.insert n (st.dropNomination c) := by
    simp only [hw.nominatorState]
  obtain ⟨hrec, hport⟩ := hl.records.drop hn
    (fun hp => StorageMap.remove_eq_empty hp (by simp [hb])) hns (hvalid.dropNomination hb)
    (Valid.dropNomination_nominations hb).1
  have hpres := hw.preserves hle hl hrec hport
  have hfresh : st.nominations.get c = some r.amount → b = r.amount :=
    fun hf => Option.some.inj (hb.symm.trans hf)
  exact ⟨⟨hpres.inv, fun hf => hpres.solvent (hfresh hf), hpres.bottomExact,
    fun hf => hpres.total (hfresh hf), hpres.backed, hpres.covers⟩, hpres.steady⟩

/-- **A decrease** keeps the invariant and the balances, and the cached totals if no bottom nomination
shrinks. -/
lemma executeDecrease_preserves (hn : l.nominatorState.get n = some st)
    (hreq : st.requests.requests.get c = some r) (hact : r.action = .decrease)
    (h : (st.withoutRequest c).executeDecrease cfg l c r.amount = .ok l') :
    Preserves cfg True (∀ bottom, l.bottomNominations.get c = some bottom →
      ∀ x ∈ bottom.nominations, x.owner = n → r.amount = 0) l l' := by
  refine Preserves.of_inv fun hl => ?_
  have hvalid := hl.records n st hn
  simp only [executeDecrease, bind_eq_ok, ensure_eq_ok, okOr_eq_ok, pure_eq_ok, exists_const,
    Prod.exists] at h
  obtain ⟨b, hb, hlt, -, -, m, hc, flag, m', l₁, hdec, rfl⟩ := h
  replace hb : st.nominations.get c = some b := hb
  have hself : ({ st.withoutRequest c with requests := { (st.withoutRequest c).requests with
      lessTotal := (st.withoutRequest c).requests.lessTotal - r.amount } } :
        Nominator AccountId) = { st with requests := st.requests.removeRequest c } := by
    simp [withoutRequest, PendingNominationRequests.removeRequest, hreq, hact]
  rw [hself] at hdec ⊢
  have hidn : st.id = n := hvalid.id_eq
  simp only [setNomination_id, hidn] at hdec
  have hmem : (⟨n, b⟩ : Bond AccountId) ∈ l.bonds c := by
    rw [← hl.books.agree, Ledger.portfolio_of_some hn, hb]
  obtain ⟨top, bottom, htop, hbottom, hv⟩ := hl.books.board c m hc
  rw [Ledger.bonds_eq htop hbottom] at hmem
  obtain ⟨flag', m'', l₂, top', bottom', hdec', hmove⟩ :=
    CandidateMetadata.decreaseNomination_spec hv
      (l := { l with currency := l.currency.unreserve n r.amount }) htop hbottom hmem hlt.le
  obtain ⟨rfl, rfl, rfl⟩ : flag = flag' ∧ m' = m'' ∧ l₁ = l₂ := by
    simpa using hdec.symm.trans hdec'
  obtain ⟨hinfo, hns, hstash, htop', hbottom', htot, hcurr, hw⟩ := hmove.ledger_fields
  have hst' : (({ st with requests := st.requests.removeRequest c } :
      Nominator AccountId).setNomination c (b - r.amount) (st.total - r.amount)).Valid cfg n :=
    (hvalid.removeRequest c).decrease hb (by simp [Valid.get_removeRequest])
      (hvalid.decrease_le c r b hreq hact hb) rfl rfl rfl rfl
  have h1 : b - r.amount - b = 0 := by omega
  have h2 : b - (b - r.amount) = r.amount := by omega
  have hpres : Preserves cfg True
      ((⟨n, b⟩ : Bond AccountId) ∈ bottom.nominations → r.amount = 0) l
      (l₁.settle (l₁.total - r.amount) c m'
        (({ st with requests := st.requests.removeRequest c } : Nominator AccountId).setNomination
          c (b - r.amount) (st.total - r.amount))) := by
    refine Preserves.reweigh hc hv htop hbottom hn hb hmove
      ⟨by simp [Ledger.settle, hinfo], by simp [Ledger.settle, hstash],
        by simp [Ledger.settle, htop'], by simp [Ledger.settle, hbottom']⟩ hst' rfl
      (by simp [Ledger.settle, hns, hidn]) (by simp [Ledger.settle, hw]) ?_ ?_
    · intro a
      simp [Ledger.settle, hcurr, h1, h2]
    · simp [Ledger.settle, htot, h1, h2]
  refine ⟨⟨hpres.inv, fun _ => hpres.solvent trivial, fun he => hpres.bottomExact ?_,
    fun _ => hpres.total trivial, hpres.backed, hpres.covers⟩, hpres.steady⟩
  intro hx
  exact he bottom hbottom _ hx rfl

end Nominator

/-- **`execute_nomination_request`.**  The reserve and the total follow if a revocation is fresh;
the cached totals follow if a decrease is not in the bottom list. -/
lemma Ledger.executeNominationRequest_preserves {cfg : Config AccountId} {l l' : Ledger AccountId}
    {now : ℕ} {n c : AccountId} (h : l.executeNominationRequest cfg now n c = .ok l') :
    Preserves cfg (l.FreshRequest cfg now n c) (l.TopRequest cfg now n c) l l' := by
  have hok := h
  simp only [Ledger.executeNominationRequest, Nominator.executePendingRequest, bind_eq_ok,
    okOr_eq_ok, ensure_eq_ok, exists_const] at h
  obtain ⟨st, hn, r, hreq, hdue, h⟩ := h
  cases hact : r.action with
  | revoke =>
      rw [hact] at h
      have hpres := Nominator.executeRevoke_preserves hn hreq hact h
      have hfresh : l.FreshRequest cfg now n c → st.nominations.get c = some r.amount :=
        fun hf => IfOk.of_ok hf hok st hn r hreq hact
      exact ⟨⟨hpres.inv, fun hf => hpres.solvent (hfresh hf), fun _ => hpres.bottomExact trivial,
        fun hf => hpres.total (hfresh hf), hpres.backed, hpres.covers⟩, hpres.steady⟩
  | decrease =>
      rw [hact] at h
      have hpres := Nominator.executeDecrease_preserves hn hreq hact h
      exact ⟨⟨hpres.inv, fun _ => hpres.solvent trivial,
        fun ht => hpres.bottomExact (IfOk.of_ok ht hok st hn r hreq hact),
        fun _ => hpres.total trivial, hpres.backed, hpres.covers⟩, hpres.steady⟩

/-! ## Nominating -/

section Nominate

variable {cfg : Config AccountId} {l l₀ l' : Ledger AccountId} {n c : AccountId} {amount : ℕ}

/-- The part of a kick that concerns one account. -/
def kickedFrom (kicked : Option (Bond AccountId)) (a : AccountId) : ℕ :=
  kicked.elim 0 fun k => if a = k.owner then k.amount else 0

/-- **A kick on the nominators' side**: the nomination goes from its owner's record and its amount
is unreserved. -/
structure KickedRecords (cfg : Config AccountId) (l l₀ : Ledger AccountId) (c : AccountId)
    (kicked : Option (Bond AccountId)) : Prop where
  records : Records cfg l₀
  others : ∀ k j, j ≠ c → (l₀.portfolio k).get j = (l.portfolio k).get j
  agree : ∀ k a, (l₀.portfolio k).get c = some a ↔
    (l.portfolio k).get c = some a ∧ (⟨k, a⟩ : Bond AccountId) ∉ kicked.toList
  untouched : ∀ k, (∀ x, kicked = some x → x.owner ≠ k) →
    l₀.nominatorState.get k = l.nominatorState.get k
  nominated : ∀ a, l₀.nominated a + kickedFrom kicked a = l.nominated a
  reserved : ∀ a, l₀.currency.reserved a = l.currency.reserved a - kickedFrom kicked a

lemma Kicked.records {kicked : Option (Bond AccountId)} (hl : LedgerInv cfg l)
    (h : Kicked l l₀ c kicked) (hk : ∀ k, kicked = some k → k ∈ l.bonds c) :
    KickedRecords cfg l l₀ c kicked := by
  cases kicked with
  | none =>
      obtain rfl : l₀ = l := h
      exact ⟨hl.records, fun _ _ _ => rfl, by simp, fun _ _ => rfl, by simp [kickedFrom],
        by simp [kickedFrom]⟩
  | some k =>
      obtain ⟨st, hst, hl₀⟩ := h
      have hbefore : (l.portfolio k.owner).get c = some k.amount :=
        (hl.books.agree _ _ _).mpr (hk k rfl)
      have hb : st.nominations.get c = some k.amount := by
        rw [← Ledger.portfolio_of_some hst, hbefore]
      have hvalid := hl.records _ _ hst
      have hns : l₀.nominatorState =
          if st.nominations.keys.card = 1 then l.nominatorState.remove k.owner
          else l.nominatorState.insert k.owner (st.dropNomination c) := by
        rw [hl₀]
      obtain ⟨hrec, hport⟩ := hl.records.drop hst
        (fun hp => StorageMap.remove_eq_empty hp (by simp [hb])) hns (hvalid.dropNomination hb)
        (Nominator.Valid.dropNomination_nominations hb).1
      refine ⟨hrec, ?_, ?_, ?_, ?_, ?_⟩
      · intro i j hj
        rw [hport]
        by_cases hi : i = k.owner
        · subst hi
          simp [hj]
        · simp [hi]
      · intro i a
        rw [hport]
        by_cases hi : i = k.owner
        · subst hi
          simp only [Function.update_self, StorageMap.get_remove_self, reduceCtorEq, hbefore,
            Option.toList_some, List.mem_singleton, false_iff, not_and, not_not,
            Option.some.injEq]
          rintro rfl
          rfl
        · have hne : (⟨i, a⟩ : Bond AccountId) ≠ k := by
            rintro rfl
            exact hi rfl
          simp [hi, hne]
      · intro i hi
        have hne : i ≠ k.owner := (hi k rfl).symm
        rw [hl₀]
        show (if _ then _ else _ : StorageMap AccountId (Nominator AccountId)).get i = _
        split_ifs <;> simp [hne]
      · intro a
        exact Ledger.nominated_remove hbefore hport a
      · intro a
        rw [hl₀]
        simp [kickedFrom]

/-- The record that `nominate` writes for the caller. -/
lemma Ledger.nominatorWith_spec {count : ℕ} {st' : Nominator AccountId} (hrec : Records cfg l)
    (h : l.nominatorWith cfg n c amount count = .ok st') :
    st'.Valid cfg n ∧ (l.portfolio n).get c = none ∧
      st'.nominations = (l.portfolio n).insert c amount := by
  cases hn : l.nominatorState.get n with
  | some st =>
      simp only [Ledger.nominatorWith, hn, bind_eq_ok, ensure_eq_ok, exists_const] at h
      obtain ⟨-, hmin, -, -, hadd⟩ := h
      obtain ⟨hnone, -, -, hnom, -⟩ := Nominator.Valid.addNomination_eq hadd
      rw [Ledger.portfolio_of_some hn]
      exact ⟨(hrec n st hn).addNomination hmin hadd, hnone, hnom⟩
  | none =>
      simp only [Ledger.nominatorWith, hn, bind_eq_ok, ensure_eq_ok, exists_const, pure_eq_ok] at h
      obtain ⟨hmin, -, rfl⟩ := h
      have hle := cfg.minNomination_le_minNominatorStk
      have hport : l.portfolio n = ∅ := by simp [Ledger.portfolio, hn]
      rw [hport]
      exact ⟨Nominator.Valid.new (hle.trans hmin), rfl, rfl⟩

/-- **`nominate`** keeps everything: what is kicked is returned, and what is new is reserved. -/
lemma Ledger.nominate_preserves {i j : ℕ} (h : l.nominate cfg n c amount i j = .ok l') :
    Preserves cfg True True l l' := by
  refine Preserves.of_inv fun hl => ?_
  simp only [Ledger.nominate, bind_eq_ok, ensure_eq_ok, okOr_eq_ok, pure_eq_ok, exists_const,
    Prod.exists] at h
  obtain ⟨-, st', hwith, m, hc, -, pos, less, m', l₁, hadd, currency, hcur, hl'⟩ := h
  obtain ⟨hst', hnone, hnom⟩ := Ledger.nominatorWith_spec hl.records hwith
  obtain ⟨top, bottom, htop, hbottom, hv⟩ := hl.books.board c m hc
  have hbonds := Ledger.bonds_eq htop hbottom
  have hnew : ∀ y ∈ top.nominations ++ bottom.nominations, y.owner ≠ n := by
    rintro ⟨o, a⟩ hy rfl
    rw [← hbonds, ← hl.books.agree, hnone] at hy
    cases hy
  obtain ⟨kicked, l₀, top', bottom', hkick, hlow, rfl, hmove⟩ :=
    CandidateMetadata.addNomination_spec hv htop hbottom hnew hadd
  have hkmem : ∀ k, kicked = some k → k ∈ top.nominations ++ bottom.nominations :=
    fun k hk => List.mem_append_right _ (hlow k hk).1
  have hk := hkick.records hl (hbonds.symm ▸ hkmem)
  obtain ⟨htop₀, hbottom₀, hinfo₀, hstash₀, htotal₀, hwarn₀⟩ := hkick.lists
  obtain ⟨hinfo, hns, hstash, htop', hbottom', htot, hcurr, hw⟩ := hmove.ledger_fields
  have hown : l₀.portfolio n = l.portfolio n := by
    rw [Ledger.portfolio, Ledger.portfolio, hk.untouched n fun x hx => hnew x (hkmem x hx)]
  have hr : Rewrite l l' c m' top' bottom' := by
    rw [← hl']
    exact ⟨by simp [hinfo, hinfo₀], by simp [hstash, hstash₀], by simp [htop', htop₀],
      by simp [hbottom', hbottom₀]⟩
  have hns' : l'.nominatorState = l₀.nominatorState.insert n st' := by
    rw [← hl', hns]
  have hport : l'.portfolio = Function.update l₀.portfolio n ((l₀.portfolio n).insert c amount) := by
    rw [Ledger.portfolio_put hns', hnom, hown]
  have hout : kicked.toList.Nodup := by cases kicked <;> simp
  have hsub : kicked.toList ⊆ top.nominations ++ bottom.nominations := by
    intro x hx
    exact hkmem x (by simpa using hx)
  have hnone₀ : (l₀.portfolio n).get c = none := hown ▸ hnone
  have hsettled : l.Settled l' := by
    intro a
    have hbonded := hr.selfBonded_of_move hmove hc a
    have hkicked := hk.nominated a
    have hnominated := Ledger.nominated_insert_new amount hnone₀ hport a
    have hres : l'.currency.reserved a = l₀.currency.reserved a + if a = n then amount else 0 := by
      rw [← hl']
      exact hcurr ▸ Currency.reserve_eq_ok hcur a
    have hres₀ := hk.reserved a
    exact ⟨if a = n then amount else 0, kickedFrom kicked a, by omega, by omega, by omega⟩
  have htotalled : l.Totalled l' := by
    have hstaked := hr.staked_of_move hmove hc htop hbottom
    have htotal : l'.total = l.total +
        (kicked.map Bond.amount).elim amount fun less => wrappingSub amount less := by
      rw [← hl', ← htotal₀, ← htot]
    cases kicked with
    | none =>
        simp only [Option.toList_none, List.map_cons, List.map_nil, List.sum_cons, List.sum_nil,
          Option.map_none, Option.elim_none] at hstaked htotal
        exact ⟨amount, 0, Nat.zero_le _, htotal, hstaked⟩
    | some k =>
        have hlt : k.amount < amount := (hlow k rfl).2
        simp only [Option.toList_some, List.map_cons, List.map_nil, List.sum_cons, List.sum_nil,
          Option.map_some, Option.elim_some] at hstaked htotal
        rw [wrappingSub, if_pos hlt.le] at htotal
        exact ⟨amount - k.amount, 0, Nat.zero_le _, htotal, by omega⟩
  refine ⟨⟨fun _ => ⟨?_, hk.records.put hns' hst', ?_⟩, fun _ _ => hsettled.solvent, ?_,
    fun _ _ _ => htotalled.agrees, fun _ => hsettled.backed, fun _ _ => htotalled.covers⟩,
    fun _ => hr.steady_of_move hmove hc⟩
  · refine hl.books.move hc hv htop hbottom hmove hr hout hsub ?_ ?_
    · intro k j hj
      rw [hport, ← hk.others k j hj]
      by_cases hkn : k = n
      · subst hkn
        simp [hj]
      · simp [hkn]
    · intro k a
      rw [← hk.agree, hport]
      by_cases hkn : k = n
      · subst hkn
        simp [hnone₀, eq_comm]
      · simp [hkn]
  · rw [← hl']
    simpa only [hw, hwarn₀] using hl.benign
  · intro _ _ hbe
    exact hr.bottomExact hbe (hmove.bottom_exact trivial (hbe c bottom hbottom))

end Nominate

/-! ## Leaving altogether -/

section Leave

variable {cfg : Config AccountId} {l l' : Ledger AccountId} {n : AccountId}

/-- **The exit loop on the candidates' side.**  `bonds` are nominations of `n` that are still on the
boards; afterwards they are gone, and nothing was logged. -/
structure LeftAll (cfg : Config AccountId) (l l' : Ledger AccountId)
    (P : AccountId → StorageMap AccountId ℕ) (n : AccountId) (bonds : List (AccountId × ℕ)) :
    Prop where
  books : Books cfg l' (Function.update P n (bonds.foldl (fun p b => p.remove b.1) (P n)))
  selfBonded : ∀ a, l'.selfBonded a = l.selfBonded a
  staked : l'.staked + (bonds.map Prod.snd).sum = l.staked
  bottomExact : l.BottomExact → l'.BottomExact
  nominatorState : l'.nominatorState = l.nominatorState
  reserved : ∀ a, l'.currency.reserved a =
    l.currency.reserved a - if a = n then (bonds.map Prod.snd).sum else 0
  total : l'.total = l.total - (bonds.map Prod.snd).sum
  warnings : l'.warnings = l.warnings
  steady : Steady l l'

lemma Ledger.leaveAll_spec : ∀ {bonds : List (AccountId × ℕ)} {l : Ledger AccountId}
    {P : AccountId → StorageMap AccountId ℕ}, Books cfg l P → (bonds.map Prod.fst).Nodup →
    (∀ b ∈ bonds, (P n).get b.1 = some b.2) →
    LeftAll cfg l (Ledger.leaveAll cfg n l bonds) P n bonds
  | [], l, P, hb, _, _ => by
      refine ⟨?_, fun _ => rfl, by simp [leaveAll], id, rfl, by simp [leaveAll],
        by simp [leaveAll], rfl, .refl l⟩
      simpa [leaveAll] using hb
  | (c, b) :: bonds, l, P, hb, hnodup, hP => by
      have hhead : (P n).get c = some b := hP (c, b) (by simp)
      obtain ⟨l₁, hl₁⟩ := Ledger.nominatorLeavesCandidate_ok hb hhead
      obtain ⟨b', hw⟩ := Ledger.nominatorLeavesCandidate_spec hb hl₁
      obtain rfl : b = b' := Option.some.inj (hhead.symm.trans hw.before)
      rw [List.map_cons, List.nodup_cons] at hnodup
      have hrest : ∀ x ∈ bonds,
          (Function.update P n ((P n).remove c) n).get x.1 = some x.2 := by
        intro x hx
        have hne : x.1 ≠ c := by
          intro heq
          have hmem := List.mem_map_of_mem (f := Prod.fst) hx
          exact hnodup.1 (heq ▸ hmem)
        simp [hne, hP x (by simp [hx])]
      have ih := Ledger.leaveAll_spec hw.books hnodup.2 hrest
      have hstep : Ledger.leaveAll cfg n l ((c, b) :: bonds) = Ledger.leaveAll cfg n l₁ bonds := by
        simp only [leaveAll, List.foldl_cons, hl₁]
      rw [hstep]
      refine ⟨?_, fun a => (ih.selfBonded a).trans (hw.selfBonded a), ?_,
        fun h => ih.bottomExact (hw.bottomExact h), ih.nominatorState.trans hw.nominatorState,
        ?_, ?_, ih.warnings.trans hw.warnings, hw.steady.trans ih.steady⟩
      · simpa using ih.books
      · have h1 := ih.staked
        have h2 := hw.staked
        simp only [List.map_cons, List.sum_cons]
        omega
      · intro a
        rw [ih.reserved, hw.reserved]
        simp only [List.map_cons, List.sum_cons]
        split_ifs <;> omega
      · have h1 := ih.total
        have h2 := hw.total
        simp only [List.map_cons, List.sum_cons]
        omega

/-- **`execute_leave_nominators`** keeps everything, and its loop logs no error. -/
lemma Ledger.executeLeaveNominators_preserves {now count : ℕ}
    (h : l.executeLeaveNominators cfg now n count = .ok l') : Preserves cfg True True l l' := by
  refine Preserves.of_inv fun hl => ?_
  simp only [Ledger.executeLeaveNominators, bind_eq_ok, okOr_eq_ok, pure_eq_ok] at h
  obtain ⟨st, hn, -, -, hl'⟩ := h
  have hport : l.portfolio n = st.nominations := Ledger.portfolio_of_some hn
  have hleft := Ledger.leaveAll_spec (n := n) hl.books st.nominations.nodup_keys_toList
    fun b hb => by rw [hport, StorageMap.mem_toList.mp hb]
  have hsum : (st.nominations.toList.map Prod.snd).sum = l.nominated n := by
    rw [Ledger.nominated, hport]
    exact st.nominations.sum_toList fun _ x => x
  have hns : l'.nominatorState = l.nominatorState.remove n := by
    rw [← hl', ← hleft.nominatorState]
  have hport' : l'.portfolio = Function.update l.portfolio n ∅ := Ledger.portfolio_remove hns
  have hsettled : l.Settled l' := by
    intro a
    have hbonded : l'.selfBonded a = l.selfBonded a := by
      rw [← hl']
      exact hleft.selfBonded a
    have hres : l'.currency.reserved a =
        l.currency.reserved a - if a = n then l.nominated n else 0 := by
      rw [← hl', ← hsum]
      exact hleft.reserved a
    have hnominated : l'.nominated a = if a = n then 0 else l.nominated a := by
      rw [Ledger.nominated, hport']
      by_cases ha : a = n
      · simp [ha]
      · simp [ha, Ledger.nominated]
    refine ⟨0, if a = n then l.nominated n else 0, ?_⟩
    by_cases ha : a = n
    · subst ha
      simp only [if_true] at hres hnominated ⊢
      omega
    · simp only [ha, if_false] at hres hnominated ⊢
      omega
  have htotalled : l.Totalled l' := by
    have hstaked := hleft.staked
    have htotal := hleft.total
    rw [← hl']
    exact ⟨0, (st.nominations.toList.map Prod.snd).sum, by omega, htotal, hstaked⟩
  refine ⟨⟨fun _ => ⟨?_, hl.records.remove hns, ?_⟩, fun _ _ => hsettled.solvent, ?_,
    fun _ _ _ => htotalled.agrees, fun _ => hsettled.backed, fun _ _ => htotalled.covers⟩,
    fun _ => hl' ▸ hleft.steady.trans (.of_eq rfl rfl)⟩
  · have hbooks := hleft.books
    rw [hport, StorageMap.foldl_remove_toList, ← hport'] at hbooks
    rw [← hl'] at hbooks ⊢
    exact ⟨hbooks.board, hbooks.no_board, hbooks.stash_iff, hbooks.request_lt, hbooks.agree⟩
  · rw [← hl']
    exact hleft.warnings ▸ hl.benign
  · intro _ _ hbe
    rw [← hl']
    exact hleft.bottomExact hbe

end Leave

/-! ## Calls that only touch the caller's record -/

section Quiet

variable {cfg : Config AccountId} {l l' : Ledger AccountId} {n : AccountId}

/-- A call that rewrites the caller's record without touching the nominations. -/
lemma Ledger.updateNominator_quiet {f : Nominator AccountId → Except Error (Nominator AccountId)}
    (hf : ∀ st st', st.Valid cfg n → f st = .ok st' →
      st'.Valid cfg n ∧ st'.nominations = st.nominations)
    (h : l.updateNominator n f = .ok l') : Preserves cfg True True l l' := by
  refine Preserves.of_inv fun hl => ?_
  simp only [Ledger.updateNominator, bind_eq_ok, okOr_eq_ok, pure_eq_ok] at h
  obtain ⟨st, hn, st', hst', rfl⟩ := h
  obtain ⟨hvalid, hnom⟩ := hf st st' (hl.records n st hn) hst'
  exact (Quiet.putNominator hn hnom fun _ => hvalid).preserves

lemma Ledger.scheduleLeaveNominators_preserves {now : ℕ}
    (h : l.scheduleLeaveNominators cfg now n = .ok l') : Preserves cfg True True l l' := by
  refine Ledger.updateNominator_quiet (fun st st' hst hf => ?_) h
  simp only [bind_eq_ok, ensure_eq_ok, pure_eq_ok, exists_const] at hf
  obtain ⟨-, -, rfl⟩ := hf
  exact ⟨hst.of_eq rfl rfl rfl rfl, rfl⟩

lemma Ledger.cancelLeaveNominators_preserves
    (h : l.cancelLeaveNominators n = .ok l') : Preserves cfg True True l l' := by
  refine Ledger.updateNominator_quiet (fun st st' hst hf => ?_) h
  simp only [bind_eq_ok, ensure_eq_ok, pure_eq_ok, exists_const] at hf
  obtain ⟨-, rfl⟩ := hf
  exact ⟨hst.of_eq rfl rfl rfl rfl, rfl⟩

lemma Ledger.setNominatorRewardDst_preserves {dst : RewardDestination}
    (h : l.setNominatorRewardDst n dst = .ok l') : Preserves cfg True True l l' := by
  refine Ledger.updateNominator_quiet (fun st st' hst hf => ?_) h
  simp only [bind_eq_ok, ensure_eq_ok, pure_eq_ok, exists_const] at hf
  obtain ⟨-, rfl⟩ := hf
  exact ⟨hst.of_eq rfl rfl rfl rfl, rfl⟩

lemma Ledger.scheduleRevokeNomination_preserves {now : ℕ} {c : AccountId}
    (h : l.scheduleRevokeNomination cfg now n c = .ok l') : Preserves cfg True True l l' := by
  refine Ledger.updateNominator_quiet (fun st st' hst hf => ?_) h
  simp only [bind_eq_ok, ensure_eq_ok, pure_eq_ok, exists_const, Prod.exists] at hf
  obtain ⟨-, w, st'', hs, rfl⟩ := hf
  refine ⟨hst.scheduleRevoke hs, ?_⟩
  simp only [Nominator.scheduleRevoke, bind_eq_ok, okOr_eq_ok, pure_eq_ok, Prod.mk.injEq] at hs
  obtain ⟨-, -, -, -, -, rfl⟩ := hs
  rfl

lemma Ledger.scheduleNominatorBondLess_preserves {now less : ℕ} {c : AccountId}
    (h : l.scheduleNominatorBondLess cfg now n c less = .ok l') : Preserves cfg True True l l' := by
  refine Ledger.updateNominator_quiet (fun st st' hst hf => ?_) h
  simp only [bind_eq_ok, ensure_eq_ok, pure_eq_ok, exists_const, Prod.exists] at hf
  obtain ⟨-, w, st'', hs, rfl⟩ := hf
  refine ⟨hst.scheduleDecreaseNomination hs, ?_⟩
  simp only [Nominator.scheduleDecreaseNomination, bind_eq_ok, okOr_eq_ok, ensure_eq_ok,
    pure_eq_ok, exists_const, Prod.mk.injEq] at hs
  obtain ⟨-, -, -, -, -, -, -, -, rfl⟩ := hs
  rfl

lemma Ledger.cancelNominationRequest_preserves {c : AccountId}
    (h : l.cancelNominationRequest n c = .ok l') : Preserves cfg True True l l' := by
  refine Ledger.updateNominator_quiet (fun st st' hst hf => ?_) h
  simp only [Nominator.cancelPendingRequest, bind_eq_ok, okOr_eq_ok, pure_eq_ok, Prod.exists,
    Prod.mk.injEq] at hf
  obtain ⟨-, -, ⟨-, -, -, rfl⟩, rfl⟩ := hf
  exact ⟨hst.removeRequest c, rfl⟩

end Quiet

end BifrostNode.Staking
