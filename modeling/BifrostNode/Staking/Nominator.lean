import BifrostNode.Lib.Transition
import BifrostNode.Staking.Types

/-!
# The nominator record

`Nominator` and `PendingNominationRequests` of `lib.rs`: the methods that read and write only the
record itself.  Those that also touch the candidate's side are in
`BifrostNode/Staking/NominatorCalls.lean`.

`Nominator.Valid` is the invariant of one record.  Every method keeps it, under the conditions
its callers check; the lemmas `Valid.*` below say so, one per method.
-/

namespace BifrostNode.Staking

variable {AccountId : Type} [LinearOrder AccountId]

namespace PendingNominationRequests

/-- `PendingNominationRequests::new`. -/
def new : PendingNominationRequests AccountId := ⟨0, ∅, 0⟩

/-- `remove_request`: drop the request on one candidate, if there is one. -/
def removeRequest (self : PendingNominationRequests AccountId) (address : AccountId) :
    PendingNominationRequests AccountId :=
  match self.requests.get address with
  | none => self
  | some request =>
      { requests := self.requests.remove address
        lessTotal := self.lessTotal - request.amount
        revocationsCount :=
          if request.action = .revoke then self.revocationsCount - 1 else self.revocationsCount }

/-- The shared body of `bond_less` and `revoke`: at most one request per nomination. -/
def push (self : PendingNominationRequests AccountId) (validator : AccountId) (amount : ℕ)
    (whenExecutable : ℕ) (action : NominationChange) :
    Except Error (PendingNominationRequests AccountId) := do
  ensure ((self.requests.get validator).isNone) .pendingNominationRequestAlreadyExists
  return { requests := self.requests.insert validator ⟨validator, amount, whenExecutable, action⟩
           lessTotal := self.lessTotal + amount
           revocationsCount :=
             if action = .revoke then self.revocationsCount + 1 else self.revocationsCount }

def bondLess (self : PendingNominationRequests AccountId) (validator : AccountId) (amount : ℕ)
    (whenExecutable : ℕ) : Except Error (PendingNominationRequests AccountId) :=
  self.push validator amount whenExecutable .decrease

def revoke (self : PendingNominationRequests AccountId) (validator : AccountId) (amount : ℕ)
    (whenExecutable : ℕ) : Except Error (PendingNominationRequests AccountId) :=
  self.push validator amount whenExecutable .revoke

end PendingNominationRequests

namespace Nominator

/-- `Nominator::new`. -/
def new (id validator : AccountId) (amount : ℕ) : Nominator AccountId where
  id := id
  nominations := (∅ : StorageMap AccountId ℕ).insert validator amount
  initialNominations := (∅ : StorageMap AccountId ℕ).insert validator amount
  total := amount
  requests := .new
  status := .active
  rewardDst := .staked
  awardedTokens := 0
  awardedTokensPerCandidate := (∅ : StorageMap AccountId ℕ).insert validator 0

def isActive (self : Nominator AccountId) : Bool := self.status = .active

def isLeaving (self : Nominator AccountId) : Bool :=
  match self.status with
  | .leaving _ => true
  | .active => false

/-- The shared test of `is_revoking` and `is_decreasing`. -/
def hasRequest (self : Nominator AccountId) (candidate : AccountId) (action : NominationChange) :
    Bool :=
  (self.requests.requests.get candidate).elim false fun request => request.action = action

def isRevoking (self : Nominator AccountId) (candidate : AccountId) : Bool :=
  self.hasRequest candidate .revoke

def isDecreasing (self : Nominator AccountId) (candidate : AccountId) : Bool :=
  self.hasRequest candidate .decrease

/-- `replace_nominations`. -/
def replaceNominations (self : Nominator AccountId) (old new : AccountId) : Nominator AccountId :=
  { self with
    nominations := self.nominations.moveKey old new fun a => a
    initialNominations := self.initialNominations.moveKey old new fun a => a }

/-- `replace_requests`: the moved request also names the new candidate. -/
def replaceRequests (self : Nominator AccountId) (old new : AccountId) : Nominator AccountId :=
  { self with
    requests := { self.requests with
      requests := self.requests.requests.moveKey old new fun r => { r with validator := new } } }

/-- `increment_awarded_tokens`: the per-candidate entry moves only if it exists. -/
def incrementAwardedTokens (self : Nominator AccountId) (validator : AccountId) (tokens : ℕ) :
    Nominator AccountId :=
  { self with
    awardedTokensPerCandidate :=
      match self.awardedTokensPerCandidate.get validator with
      | some x => self.awardedTokensPerCandidate.insert validator (x + tokens)
      | none => self.awardedTokensPerCandidate
    awardedTokens := self.awardedTokens + tokens }

/-- `can_execute_leave`. -/
def canExecuteLeave (self : Nominator AccountId) (now nominationWeightHint : ℕ) :
    Except Error Unit := do
  ensure (self.nominations.keys.card ≤ nominationWeightHint)
    .tooLowNominationCountToLeaveNominators
  match self.status with
  | .leaving w => ensure (w ≤ now) .nominatorCannotLeaveYet
  | .active => .error .nominatorNotLeaving

/-- `schedule_leave`. -/
def scheduleLeave (cfg : Config AccountId) (self : Nominator AccountId) (now : ℕ) :
    Nominator AccountId :=
  { self with status := .leaving (now + cfg.leaveNominatorsDelay) }

/-- `cancel_leave`. -/
def cancelLeave (self : Nominator AccountId) : Nominator AccountId :=
  { self with status := .active }

/-- `add_nomination`. -/
def addNomination (self : Nominator AccountId) (candidate : AccountId) (amount : ℕ) :
    Except Error (Nominator AccountId) := do
  ensure ((self.nominations.get candidate).isNone) .alreadyNominatedCandidate
  return { self with
    nominations := self.nominations.insert candidate amount
    total := self.total + amount
    initialNominations := self.initialNominations.insert candidate amount
    awardedTokensPerCandidate := self.awardedTokensPerCandidate.insert candidate 0 }

/-- `rm_nomination`: the remaining total and the record, or `none` if there is no such
nomination. -/
def rmNomination (self : Nominator AccountId) (validator : AccountId) :
    Option (ℕ × Nominator AccountId) :=
  (self.nominations.get validator).map fun amount =>
    (self.total - amount,
      { self with
        nominations := self.nominations.remove validator
        initialNominations := self.initialNominations.remove validator
        awardedTokensPerCandidate := self.awardedTokensPerCandidate.remove validator
        total := self.total - amount })

/-- The record after `rm_nomination`, where the caller drops the returned total. -/
def rmNominationIgnore (self : Nominator AccountId) (validator : AccountId) :
    Nominator AccountId :=
  (self.rmNomination validator).elim self Prod.snd

/-- A nomination that somebody else takes away, by a kick or by a candidate's exit: `rm_nomination`,
then `remove_request`. -/
def dropNomination (self : Nominator AccountId) (validator : AccountId) : Nominator AccountId :=
  let remaining := self.rmNominationIgnore validator
  { remaining with requests := remaining.requests.removeRequest validator }

/-- `schedule_decrease_nomination`.  The two subtractions of the source are unchecked. -/
def scheduleDecreaseNomination (cfg : Config AccountId) (self : Nominator AccountId) (now : ℕ)
    (validator : AccountId) (less : ℕ) : Except Error (ℕ × Nominator AccountId) := do
  let amount ← okOr (self.nominations.get validator) .nominationDNE
  ensure (less < amount) .nominatorBondBelowMin
  ensure (cfg.minNomination ≤ amount - less) .nominationBelowMin
  let netTotal := wrappingSub self.total self.requests.lessTotal
  let maxSubtractedAmount := wrappingSub netTotal cfg.minNominatorStk
  ensure (less ≤ maxSubtractedAmount) .nominatorBondBelowMin
  let w := now + cfg.nominationBondLessDelay
  let requests ← self.requests.bondLess validator less w
  return (w, { self with requests := requests })

/-- `schedule_revoke`: the request carries the amount of the nomination at scheduling time. -/
def scheduleRevoke (cfg : Config AccountId) (self : Nominator AccountId) (now : ℕ)
    (validator : AccountId) : Except Error (ℕ × Nominator AccountId) := do
  let amount ← okOr (self.nominations.get validator) .nominationDNE
  let w := now + cfg.revokeNominationDelay
  let requests ← self.requests.revoke validator amount w
  return (w, { self with requests := requests })

/-- `cancel_pending_request`. -/
def cancelPendingRequest (self : Nominator AccountId) (candidate : AccountId) :
    Except Error (NominationRequest AccountId × Nominator AccountId) := do
  let order ← okOr (self.requests.requests.get candidate) .pendingNominationRequestDNE
  return (order, { self with requests := self.requests.removeRequest candidate })

/-! ## The invariant of one record -/

/-- **The nominator ledger.**  The record is stored under its own id; its total is the sum of its
nominations, none of which is below the minimum; every request sits under the candidate it names,
targets an existing nomination and takes at most its amount, and a decrease leaves the minimum;
and the two counters of the pending requests are what they count. -/
structure Valid (cfg : Config AccountId) (n : AccountId) (st : Nominator AccountId) : Prop where
  id_eq : st.id = n
  total_eq : st.total = st.nominations.sum fun _ a => a
  min_le : ∀ c a, st.nominations.get c = some a → cfg.minNomination ≤ a
  request_key : ∀ c r, st.requests.requests.get c = some r → r.validator = c
  request_le : ∀ c r, st.requests.requests.get c = some r →
    ∃ a, st.nominations.get c = some a ∧ r.amount ≤ a
  decrease_le : ∀ c r a, st.requests.requests.get c = some r → r.action = .decrease →
    st.nominations.get c = some a → cfg.minNomination + r.amount ≤ a
  lessTotal_eq : st.requests.lessTotal = st.requests.requests.sum fun _ r => r.amount
  revocations_eq : st.requests.revocationsCount =
    st.requests.requests.count fun r => r.action = .revoke

namespace Valid

variable {cfg : Config AccountId} {n c : AccountId} {self st : Nominator AccountId} {amount : ℕ}

omit [LinearOrder AccountId] in
/-- The pending requests never ask for more than is nominated, so `total - less_total` does not
underflow. -/
lemma lessTotal_le (h : self.Valid cfg n) : self.requests.lessTotal ≤ self.total := by
  rw [h.lessTotal_eq, h.total_eq, StorageMap.sum, StorageMap.sum]
  have hsub : self.requests.requests.keys ⊆ self.nominations.keys := by
    intro k hk
    obtain ⟨r, hr⟩ := StorageMap.mem_keys_iff.mp hk
    obtain ⟨a, ha, -⟩ := h.request_le k r hr
    exact StorageMap.mem_keys_iff.mpr ⟨a, ha⟩
  refine (Finset.sum_le_sum fun k hk => ?_).trans
    (Finset.sum_le_sum_of_subset (f := fun k => (self.nominations.get k).elim 0 fun a => a) hsub)
  obtain ⟨r, hr⟩ := StorageMap.mem_keys_iff.mp hk
  obtain ⟨a, ha, hle⟩ := h.request_le k r hr
  simp [hr, ha, hle]

omit [LinearOrder AccountId] in
/-- The invariant reads the id, the nominations, their total and the requests only. -/
lemma of_eq (h : self.Valid cfg n) (hid : st.id = self.id)
    (hnom : st.nominations = self.nominations) (htotal : st.total = self.total)
    (hreq : st.requests = self.requests) : st.Valid cfg n where
  id_eq := hid.trans h.id_eq
  total_eq := by rw [htotal, hnom]; exact h.total_eq
  min_le := by rw [hnom]; exact h.min_le
  request_key := by rw [hreq]; exact h.request_key
  request_le := by rw [hreq, hnom]; exact h.request_le
  decrease_le := by rw [hreq, hnom]; exact h.decrease_le
  lessTotal_eq := by rw [hreq]; exact h.lessTotal_eq
  revocations_eq := by rw [hreq]; exact h.revocations_eq

/-- The record of a first nomination is valid. -/
lemma new (hmin : cfg.minNomination ≤ amount) : (Nominator.new n c amount).Valid cfg n where
  id_eq := rfl
  total_eq := by
    rw [Nominator.new, StorageMap.sum_insert_of_none _ _ (StorageMap.get_empty c)]
    simp
  min_le := by
    intro k a hk
    simp only [Nominator.new, StorageMap.get_insert] at hk
    split_ifs at hk
    · obtain rfl := Option.some.inj hk
      exact hmin
    · simp at hk
  request_key := by simp [Nominator.new, PendingNominationRequests.new]
  request_le := by simp [Nominator.new, PendingNominationRequests.new]
  decrease_le := by simp [Nominator.new, PendingNominationRequests.new]
  lessTotal_eq := by simp [Nominator.new, PendingNominationRequests.new]
  revocations_eq := by simp [Nominator.new, PendingNominationRequests.new, StorageMap.count]

/-- What a successful `add_nomination` does. -/
lemma addNomination_eq (hadd : self.addNomination c amount = .ok st) :
    self.nominations.get c = none ∧ st.id = self.id ∧ st.requests = self.requests ∧
      st.nominations = self.nominations.insert c amount ∧ st.total = self.total + amount := by
  simp only [Nominator.addNomination, Transition.bind_eq_ok, Transition.ensure_eq_ok,
    Transition.pure_eq_ok] at hadd
  obtain ⟨-, hnone, rfl⟩ := hadd
  exact ⟨by simpa using hnone, rfl, rfl, rfl, rfl⟩

/-- A further nomination adds to the total of the record. -/
lemma addNomination (h : self.Valid cfg n) (hmin : cfg.minNomination ≤ amount)
    (hadd : self.addNomination c amount = .ok st) : st.Valid cfg n := by
  obtain ⟨hnone, hid, hreq, hnom, htotal⟩ := addNomination_eq hadd
  have hkeep : ∀ k a, self.nominations.get k = some a → st.nominations.get k = some a := by
    intro k a hk
    rw [hnom, StorageMap.get_insert_of_ne _ (by rintro rfl; simp [hnone] at hk), hk]
  refine ⟨hid.trans h.id_eq, ?_, ?_, hreq ▸ h.request_key, ?_, ?_, hreq ▸ h.lessTotal_eq,
    hreq ▸ h.revocations_eq⟩
  · rw [htotal, hnom, StorageMap.sum_insert_of_none _ _ hnone, h.total_eq]
  · intro k a hk
    rw [hnom, StorageMap.get_insert] at hk
    split_ifs at hk
    · exact (Option.some.inj hk) ▸ hmin
    · exact h.min_le k a hk
  · intro k r hr
    obtain ⟨a, ha, hle⟩ := h.request_le k r (hreq ▸ hr)
    exact ⟨a, hkeep k a ha, hle⟩
  · intro k r a hr hd ha
    obtain ⟨b, hb, -⟩ := h.request_le k r (hreq ▸ hr)
    obtain rfl : b = a := Option.some.inj ((hkeep k b hb).symm.trans ha)
    exact h.decrease_le k r b (hreq ▸ hr) hd hb

/-- Dropping the request on `c`, if there is one, leaves the requests on the others. -/
lemma get_removeRequest (q : PendingNominationRequests AccountId) (c k : AccountId) :
    (q.removeRequest c).requests.get k = if k = c then none else q.requests.get k := by
  cases hc : q.requests.get c with
  | none =>
      simp only [PendingNominationRequests.removeRequest, hc]
      split_ifs with hk
      · rw [hk, hc]
      · rfl
  | some r => simp only [PendingNominationRequests.removeRequest, hc, StorageMap.get_remove]

/-- The two counters follow the requests when one of them is dropped. -/
lemma removeRequest (h : self.Valid cfg n) (c : AccountId) :
    ({ self with requests := self.requests.removeRequest c } : Nominator AccountId).Valid
      cfg n := by
  have hkeep : ∀ k r, (self.requests.removeRequest c).requests.get k = some r →
      self.requests.requests.get k = some r := by
    intro k r hr
    rw [get_removeRequest] at hr
    split_ifs at hr
    exact hr
  refine ⟨h.id_eq, h.total_eq, h.min_le, fun k r hr => h.request_key k r (hkeep k r hr),
    fun k r hr => h.request_le k r (hkeep k r hr),
    fun k r a hr => h.decrease_le k r a (hkeep k r hr), ?_, ?_⟩
  · cases hc : self.requests.requests.get c with
    | none => simpa only [PendingNominationRequests.removeRequest, hc] using h.lessTotal_eq
    | some r =>
        have hsum := StorageMap.sum_remove_of_some (fun _ r => r.amount) hc
        simp only [PendingNominationRequests.removeRequest, hc]
        rw [h.lessTotal_eq]
        omega
  · cases hc : self.requests.requests.get c with
    | none => simpa only [PendingNominationRequests.removeRequest, hc] using h.revocations_eq
    | some r =>
        have hsum := StorageMap.sum_remove_of_some
          (fun _ r => if decide (r.action = .revoke) then 1 else 0) hc
        simp only [PendingNominationRequests.removeRequest, hc]
        rw [h.revocations_eq]
        simp only [StorageMap.count, decide_eq_true_eq] at hsum ⊢
        split_ifs at hsum ⊢ <;> omega

/-- What is left of a record when one of its nominations goes. -/
lemma rmNominationIgnore_eq {a : ℕ} (hc : self.nominations.get c = some a) :
    (self.rmNominationIgnore c).id = self.id ∧
      (self.rmNominationIgnore c).requests = self.requests ∧
      (self.rmNominationIgnore c).nominations = self.nominations.remove c ∧
      (self.rmNominationIgnore c).total = self.total - a := by
  simp [Nominator.rmNominationIgnore, Nominator.rmNomination, hc]

/-- A nomination may go once there is no request on it. -/
lemma rmNomination (h : self.Valid cfg n) {a : ℕ} (hc : self.nominations.get c = some a)
    (hreq : self.requests.requests.get c = none) : (self.rmNominationIgnore c).Valid cfg n := by
  obtain ⟨hid, hr, hnom, htotal⟩ := rmNominationIgnore_eq hc
  have hkeep : ∀ k r, self.requests.requests.get k = some r →
      (self.nominations.remove c).get k = self.nominations.get k := by
    intro k r hk
    exact StorageMap.get_remove_of_ne _ (by rintro rfl; simp [hreq] at hk)
  refine ⟨hid.trans h.id_eq, ?_, ?_, hr ▸ h.request_key, ?_, ?_, hr ▸ h.lessTotal_eq,
    hr ▸ h.revocations_eq⟩
  · have hsum := StorageMap.sum_remove_of_some (fun _ x => x) hc
    rw [htotal, hnom, h.total_eq]
    omega
  · intro k x hk
    rw [hnom, StorageMap.get_remove] at hk
    split_ifs at hk
    exact h.min_le k x hk
  · intro k r hk
    rw [hr] at hk
    rw [hnom, hkeep k r hk]
    exact h.request_le k r hk
  · intro k r x hk hd hx
    rw [hr] at hk
    rw [hnom, hkeep k r hk] at hx
    exact h.decrease_le k r x hk hd hx

/-- Dropping the request and then the nomination is dropping them the other way round. -/
lemma dropNomination_eq (self : Nominator AccountId) (c : AccountId) :
    self.dropNomination c =
      ({ self with requests := self.requests.removeRequest c } :
        Nominator AccountId).rmNominationIgnore c := by
  cases h : self.nominations.get c <;>
    simp [Nominator.dropNomination, Nominator.rmNominationIgnore, Nominator.rmNomination, h]

lemma dropNomination_nominations {a : ℕ} (hc : self.nominations.get c = some a) :
    (self.dropNomination c).nominations = self.nominations.remove c ∧
      (self.dropNomination c).total = self.total - a := by
  obtain ⟨-, -, hnom, htotal⟩ := rmNominationIgnore_eq hc
  exact ⟨hnom, htotal⟩

/-- A nomination may be taken away together with the request on it. -/
lemma dropNomination (h : self.Valid cfg n) {a : ℕ} (hc : self.nominations.get c = some a) :
    (self.dropNomination c).Valid cfg n := by
  rw [dropNomination_eq]
  refine (h.removeRequest c).rmNomination hc ?_
  simp [get_removeRequest]

/-- A nomination may be raised. -/
lemma increase (h : self.Valid cfg n) {a : ℕ} (hc : self.nominations.get c = some a)
    (more : ℕ) (hid : st.id = self.id) (hreq : st.requests = self.requests)
    (hnom : st.nominations = self.nominations.insert c (a + more))
    (htotal : st.total = self.total + more) : st.Valid cfg n := by
  have hge : ∀ k x, self.nominations.get k = some x →
      ∃ y, st.nominations.get k = some y ∧ x ≤ y := by
    intro k x hk
    rw [hnom, StorageMap.get_insert]
    split_ifs with hkc
    · subst hkc
      obtain rfl : a = x := Option.some.inj (hc.symm.trans hk)
      exact ⟨_, rfl, by omega⟩
    · exact ⟨x, hk, le_rfl⟩
  refine ⟨hid.trans h.id_eq, ?_, ?_, hreq ▸ h.request_key, ?_, ?_, hreq ▸ h.lessTotal_eq,
    hreq ▸ h.revocations_eq⟩
  · have hsum := StorageMap.sum_insert_of_some (a + more) (fun _ x => x) hc
    rw [htotal, hnom, h.total_eq]
    omega
  · intro k x hk
    rw [hnom, StorageMap.get_insert] at hk
    split_ifs at hk
    · have := h.min_le c a hc
      have := Option.some.inj hk
      omega
    · exact h.min_le k x hk
  · intro k r hk
    obtain ⟨x, hx, hle⟩ := h.request_le k r (hreq ▸ hk)
    obtain ⟨y, hy, hxy⟩ := hge k x hx
    exact ⟨y, hy, hle.trans hxy⟩
  · intro k r y hk hd hy
    obtain ⟨x, hx, -⟩ := h.request_le k r (hreq ▸ hk)
    obtain ⟨y', hy', hxy⟩ := hge k x hx
    obtain rfl : y' = y := Option.some.inj (hy'.symm.trans hy)
    exact (h.decrease_le k r x (hreq ▸ hk) hd hx).trans hxy

/-- A nomination without a request on it may be lowered as long as the minimum is left. -/
lemma decrease (h : self.Valid cfg n) {a less : ℕ} (hc : self.nominations.get c = some a)
    (hnone : self.requests.requests.get c = none) (hmin : cfg.minNomination + less ≤ a)
    (hid : st.id = self.id) (hreq : st.requests = self.requests)
    (hnom : st.nominations = self.nominations.insert c (a - less))
    (htotal : st.total = self.total - less) : st.Valid cfg n := by
  have hkeep : ∀ k r, self.requests.requests.get k = some r →
      st.nominations.get k = self.nominations.get k := by
    intro k r hk
    rw [hnom]
    exact StorageMap.get_insert_of_ne _ (by rintro rfl; simp [hnone] at hk) _
  refine ⟨hid.trans h.id_eq, ?_, ?_, hreq ▸ h.request_key, ?_, ?_, hreq ▸ h.lessTotal_eq,
    hreq ▸ h.revocations_eq⟩
  · have hsum := StorageMap.sum_insert_of_some (a - less) (fun _ x => x) hc
    rw [htotal, hnom, h.total_eq]
    omega
  · intro k x hk
    rw [hnom, StorageMap.get_insert] at hk
    split_ifs at hk
    · have := Option.some.inj hk
      omega
    · exact h.min_le k x hk
  · intro k r hk
    rw [hreq] at hk
    rw [hkeep k r hk]
    exact h.request_le k r hk
  · intro k r x hk hd hx
    rw [hreq] at hk
    rw [hkeep k r hk] at hx
    exact h.decrease_le k r x hk hd hx

/-- A new request on a nomination that has none. -/
lemma push (h : self.Valid cfg n) {a w : ℕ} {action : NominationChange}
    {q : PendingNominationRequests AccountId} (hc : self.nominations.get c = some a)
    (hle : amount ≤ a) (hdec : action = .decrease → cfg.minNomination + amount ≤ a)
    (hpush : self.requests.push c amount w action = .ok q) :
    ({ self with requests := q } : Nominator AccountId).Valid cfg n := by
  simp only [PendingNominationRequests.push, Transition.bind_eq_ok, Transition.ensure_eq_ok,
    Transition.pure_eq_ok] at hpush
  obtain ⟨-, hnone, rfl⟩ := hpush
  replace hnone : self.requests.requests.get c = none := by simpa using hnone
  refine ⟨h.id_eq, h.total_eq, h.min_le, ?_, ?_, ?_, ?_, ?_⟩
  · intro k r hr
    simp only [StorageMap.get_insert] at hr
    split_ifs at hr with hk
    · rw [← Option.some.inj hr, hk]
    · exact h.request_key k r hr
  · intro k r hr
    simp only [StorageMap.get_insert] at hr
    split_ifs at hr with hk
    · rw [← Option.some.inj hr, hk]
      exact ⟨a, hc, hle⟩
    · exact h.request_le k r hr
  · intro k r x hr hd hx
    simp only [StorageMap.get_insert] at hr
    split_ifs at hr with hk
    · obtain rfl := Option.some.inj hr
      obtain rfl : a = x := by rw [hk, hc] at hx; exact Option.some.inj hx
      exact hdec hd
    · exact h.decrease_le k r x hr hd hx
  · simp only [StorageMap.sum_insert_of_none _ _ hnone, h.lessTotal_eq]
  · simp only [StorageMap.count, StorageMap.sum_insert_of_none _ _ hnone, h.revocations_eq,
      decide_eq_true_eq]
    split_ifs <;> rfl

/-- `schedule_decrease_nomination` keeps the invariant. -/
lemma scheduleDecreaseNomination (h : self.Valid cfg n) {now w less : ℕ}
    (hs : self.scheduleDecreaseNomination cfg now c less = .ok (w, st)) : st.Valid cfg n := by
  simp only [Nominator.scheduleDecreaseNomination, Transition.bind_eq_ok,
    Transition.ensure_eq_ok, Transition.okOr_eq_ok, Transition.pure_eq_ok] at hs
  obtain ⟨a, hc, -, hlt, -, hmin, -, -, q, hq, heq⟩ := hs
  obtain ⟨-, rfl⟩ := Prod.mk.inj heq
  exact h.push hc hlt.le (fun _ => by omega) hq

/-- `schedule_revoke` keeps the invariant. -/
lemma scheduleRevoke (h : self.Valid cfg n) {now w : ℕ}
    (hs : self.scheduleRevoke cfg now c = .ok (w, st)) : st.Valid cfg n := by
  simp only [Nominator.scheduleRevoke, Transition.bind_eq_ok, Transition.okOr_eq_ok,
    Transition.pure_eq_ok] at hs
  obtain ⟨a, hc, q, hq, heq⟩ := hs
  obtain ⟨-, rfl⟩ := Prod.mk.inj heq
  exact h.push hc le_rfl (by simp) hq

/-- A candidate of the record may be renamed to an account the record does not nominate. -/
lemma rename (h : self.Valid cfg n) {old new : AccountId}
    (hnew : self.nominations.get new = none) :
    ((self.replaceNominations old new).replaceRequests old new).Valid cfg n := by
  have hrnew : self.requests.requests.get new = none := by
    cases hr : self.requests.requests.get new with
    | none => rfl
    | some r =>
        obtain ⟨a, ha, -⟩ := h.request_le new r hr
        simp [hnew] at ha
  -- every entry of the renamed maps comes from an entry of the old ones, under the same rename
  have hnom := StorageMap.get_moveKey old (fun a : ℕ => a) hnew
  let hrenamed : NominationRequest AccountId → NominationRequest AccountId :=
    fun r => { r with validator := new }
  have hreq := StorageMap.get_moveKey old hrenamed hrnew
  have hback : ∀ k r,
      ((self.replaceNominations old new).replaceRequests old new).requests.requests.get k = some r →
      ∃ k' r', self.requests.requests.get k' = some r' ∧ r'.amount = r.amount ∧
        r'.action = r.action ∧ (k = k' → r.validator = r'.validator) ∧
        (k ≠ k' → k = new ∧ r.validator = new) ∧
        ((self.replaceNominations old new).replaceRequests old new).nominations.get k =
          self.nominations.get k' := by
    intro k r hr
    simp only [Nominator.replaceRequests, Nominator.replaceNominations] at hr ⊢
    rw [hreq] at hr
    rw [hnom]
    split_ifs at hr with h1 h2
    · obtain ⟨r', hr', rfl⟩ := Option.map_eq_some_iff.mp hr
      refine ⟨old, r', hr', rfl, rfl, ?_, fun _ => ⟨h1, rfl⟩, by simp [h1]⟩
      rintro rfl
      simp [h1 ▸ hrnew] at hr'
    · exact ⟨k, r, hr, rfl, rfl, fun _ => rfl, fun hne => absurd rfl hne, by simp [h1, h2]⟩
  refine ⟨h.id_eq, ?_, ?_, ?_, ?_, ?_, ?_, ?_⟩
  · exact h.total_eq.trans (StorageMap.sum_moveKey (fun a => a) hnew fun _ => rfl).symm
  · intro k a hk
    simp only [Nominator.replaceRequests, Nominator.replaceNominations, hnom] at hk
    split_ifs at hk
    · exact h.min_le old a (by simpa using hk)
    · exact h.min_le k a hk
  · intro k r hr
    obtain ⟨k', r', hr', -, -, hsame, hmoved, -⟩ := hback k r hr
    by_cases hk : k = k'
    · rw [hsame hk, h.request_key k' r' hr', hk]
    · rw [(hmoved hk).2, (hmoved hk).1]
  · intro k r hr
    obtain ⟨k', r', hr', hamt, -, -, -, hget⟩ := hback k r hr
    rw [hget, ← hamt]
    exact h.request_le k' r' hr'
  · intro k r a hr hd ha
    obtain ⟨k', r', hr', hamt, hact, -, -, hget⟩ := hback k r hr
    rw [← hamt]
    exact h.decrease_le k' r' a hr' (hact.trans hd) (hget ▸ ha)
  · exact h.lessTotal_eq.trans (StorageMap.sum_moveKey (f := hrenamed) (fun r => r.amount)
      hrnew fun _ => rfl).symm
  · exact h.revocations_eq.trans (StorageMap.sum_moveKey (f := hrenamed)
      (fun r => if decide (r.action = .revoke) then 1 else 0) hrnew fun _ => rfl).symm

end Valid

end Nominator

end BifrostNode.Staking
