import BifrostNode.Btc.Refunds
import BifrostNode.Lib.Tally

/-!
# Two ways to set the refund addresses

**The two loops.**  The executives approve a list of the requests of the round
(`approve_set_refunds`), or all of them are settled when a migration begins (`process_set_refunds`).
What both do for one user is `Registration.change`.

**The order.**  The users of a refund address are a list in the order in which they came.  Up to that
order the changes of different users commute, also where one user leaves an address that another one
enters: a `Book` holds the refund addresses with the users as multisets, and `Book.change` is what a
change does to it.

**Where they differ.**  A user who is not registered any more is passed over by `process_set_refunds`,
and makes the whole `approve_set_refunds` fail.  `clear_vault` takes a user out of the pool and leaves
its request there.
-/

namespace BifrostNode.Btc.Pool

open Cccp Staking Transition

variable {AccountId : Type} [LinearOrder AccountId]

/-! ## The requests of the round -/

/-- The users that wait for a new refund address, each with that address. -/
def Registration.pendingPairs (s : Registration AccountId) : List (AccountId × Bytes) :=
  (s.pendingSetRefunds.iterPrefix s.currentRound).map fun e => (e.1, e.2.new)

/-- A request can be answered: it is denied because the address is a vault, or there is a user who gets
it. -/
def Registration.Answers (s : Registration AccountId) (r : ℕ) (e : AccountId × Bytes) : Prop :=
  s.bondedVault.contains (r, e.2) = true ∨ (s.registrationPool.get (r, e.1)).isSome = true

/-- Each pending request of the round can be answered. -/
def Registration.Answerable (s : Registration AccountId) : Prop :=
  ∀ who state, s.pendingSetRefunds.get (s.currentRound, who) = some state →
    s.Answers s.currentRound (who, state.new)

/-- **The same pool**, but for the order of the users that share a refund address. -/
structure SameRefunds (s t : Registration AccountId) : Prop where
  pool : s.registrationPool = t.registrationPool
  pending : s.pendingSetRefunds = t.pendingSetRefunds
  bonds : ∀ k, (s.bondedRefund.get k).map Multiset.ofList =
    (t.bondedRefund.get k).map Multiset.ofList
  rest : s = { t with
    registrationPool := s.registrationPool
    bondedRefund := s.bondedRefund
    pendingSetRefunds := s.pendingSetRefunds }

/-- What both loops do for one user. -/
def Registration.change (r : ℕ) (s : Registration AccountId) (e : AccountId × Bytes) :
    Registration AccountId :=
  if s.bondedVault.contains (r, e.2) then s
  else match s.registrationPool.get (r, e.1) with
    | some target => s.setRefund r e.1 target e.2
    | none => s

section Requests

variable {s : Registration AccountId} {r : ℕ}

lemma Registration.mem_pendingPairs {e : AccountId × Bytes} :
    e ∈ s.pendingPairs ↔
      ∃ state, s.pendingSetRefunds.get (s.currentRound, e.1) = some state ∧ state.new = e.2 := by
  simp only [pendingPairs, List.mem_map, StorageMap.mem_iterPrefix]
  constructor
  · rintro ⟨p, hp, rfl⟩
    exact ⟨p.2, hp, rfl⟩
  · rintro ⟨state, hstate, hnew⟩
    exact ⟨(e.1, state), hstate, Prod.ext rfl hnew⟩

/-- No user is in the list twice. -/
lemma Registration.nodup_pendingPairs (s : Registration AccountId) :
    (s.pendingPairs.map Prod.fst).Nodup := by
  have hfst : s.pendingPairs.map Prod.fst =
      (s.pendingSetRefunds.iterPrefix s.currentRound).map Prod.fst := by
    rw [pendingPairs, List.map_map]
    rfl
  rw [hfst]
  exact StorageMap.nodup_iterPrefix _ _

lemma Registration.answerable_iff :
    s.Answerable ↔ ∀ e ∈ s.pendingPairs, s.Answers s.currentRound e := by
  constructor
  · intro h e he
    obtain ⟨state, hstate, hnew⟩ := mem_pendingPairs.mp he
    have hanswer := h e.1 state hstate
    rwa [hnew] at hanswer
  · intro h who state hstate
    exact h (who, state.new) (mem_pendingPairs.mpr ⟨state, hstate, rfl⟩)

end Requests

/-! ## One change -/

section Change

variable {s t : Registration AccountId} {r : ℕ} {e f : AccountId × Bytes}

lemma Registration.change_vault (h : s.bondedVault.contains (r, e.2) = true) : s.change r e = s :=
  if_pos h

lemma Registration.change_absent (h : s.registrationPool.get (r, e.1) = none) : s.change r e = s := by
  rw [change, h]
  split_ifs <;> rfl

lemma Registration.change_set {target : BitcoinRelayTarget AccountId}
    (hfree : s.bondedVault.contains (r, e.2) = false)
    (h : s.registrationPool.get (r, e.1) = some target) :
    s.change r e = s.setRefund r e.1 target e.2 := by
  rw [change, hfree, h]
  rfl

/-- A change touches the refund addresses only. -/
lemma Registration.change_rest (s : Registration AccountId) (r : ℕ) (e : AccountId × Bytes) :
    s.change r e = { s with
      registrationPool := (s.change r e).registrationPool
      bondedRefund := (s.change r e).bondedRefund } := by
  rw [change]
  split_ifs
  · rfl
  · cases s.registrationPool.get (r, e.1) <;> rfl

@[simp] lemma Registration.change_bondedVault : (s.change r e).bondedVault = s.bondedVault := by
  rw [change_rest]

/-- The same users are registered. -/
lemma Registration.change_isSome (k : ℕ × AccountId) :
    ((s.change r e).registrationPool.get k).isSome = (s.registrationPool.get k).isSome := by
  cases hfree : s.bondedVault.contains (r, e.2) with
  | true => rw [change_vault hfree]
  | false =>
      cases htarget : s.registrationPool.get (r, e.1) with
      | none => rw [change_absent htarget]
      | some target =>
          rw [change_set hfree htarget]
          simp only [setRefund, StorageMap.get_insert]
          split_ifs with hk
          · rw [hk, htarget]
            rfl
          · rfl

/-- So the same requests can be answered. -/
lemma Registration.change_answers : (s.change r e).Answers r f ↔ s.Answers r f := by
  rw [Answers, Answers, change_bondedVault, change_isSome]

/-- The requests do not matter for it. -/
lemma Registration.change_pending (p : StorageMap (ℕ × AccountId) SetRefundState) :
    { s with pendingSetRefunds := p }.change r e = { s.change r e with pendingSetRefunds := p } := by
  simp only [change]
  split_ifs
  · rfl
  · cases s.registrationPool.get (r, e.1) <;> rfl

end Change

/-! ## The two loops -/

section Loops

variable {s t : Registration AccountId} {r : ℕ}

/-- A list of changes. -/
def Registration.changes (r : ℕ) (s : Registration AccountId) (es : List (AccountId × Bytes)) :
    Registration AccountId :=
  es.foldl (Registration.change r) s

lemma Registration.changes_rest (r : ℕ) (es : List (AccountId × Bytes)) :
    ∀ s : Registration AccountId, s.changes r es = { s with
      registrationPool := (s.changes r es).registrationPool
      bondedRefund := (s.changes r es).bondedRefund } := by
  induction es with
  | nil => exact fun s => rfl
  | cons e es ih =>
      intro s
      have hcons : s.changes r (e :: es) = (s.change r e).changes r es := rfl
      rw [hcons]
      exact (ih _).trans (congrArg (fun t : Registration AccountId => { t with
        registrationPool := ((s.change r e).changes r es).registrationPool
        bondedRefund := ((s.change r e).changes r es).bondedRefund }) (change_rest s r e))

lemma Registration.changes_pending (p : StorageMap (ℕ × AccountId) SetRefundState)
    (es : List (AccountId × Bytes)) : ∀ s : Registration AccountId,
      { s with pendingSetRefunds := p }.changes r es =
        { s.changes r es with pendingSetRefunds := p } := by
  induction es with
  | nil => exact fun s => rfl
  | cons e es ih =>
      intro s
      have hcons : ∀ t : Registration AccountId, t.changes r (e :: es) = (t.change r e).changes r es :=
        fun t => rfl
      rw [hcons, hcons, change_pending, ih]

/-- **`process_set_refunds`** makes the changes of all requests of the round. -/
lemma Registration.processSetRefunds_eq (s : Registration AccountId) :
    s.processSetRefunds = { s.changes s.currentRound s.pendingPairs with
      pendingSetRefunds := s.pendingSetRefunds.filterKeys fun k => k.1 ≠ s.currentRound } := by
  have hloop : s.changes s.currentRound s.pendingPairs =
      (s.pendingSetRefunds.iterPrefix s.currentRound).foldl (fun t e =>
        t.change s.currentRound (e.1, e.2.new)) s := by
    rw [changes, pendingPairs, List.foldl_map]
  have hpending : (s.changes s.currentRound s.pendingPairs).pendingSetRefunds =
      s.pendingSetRefunds := by
    rw [changes_rest]
  rw [← hpending, hloop]
  rfl

/-- **`approve_set_refunds` for one user**: there is this request, it can be answered, and the change is
made. -/
lemma Registration.approveSetRefund_eq_ok {e : AccountId × Bytes} :
    s.approveSetRefund r e = .ok t ↔
      (∃ state, s.pendingSetRefunds.get (r, e.1) = some state ∧ state.new = e.2) ∧ s.Answers r e ∧
        { s.change r e with pendingSetRefunds := s.pendingSetRefunds.remove (r, e.1) } = t := by
  simp only [approveSetRefund, bind_eq_ok, okOr_eq_ok, ensure_eq_ok, exists_const]
  constructor
  · rintro ⟨state, hstate, hnew, h⟩
    rw [hnew] at h
    refine ⟨⟨state, hstate, hnew⟩, ?_⟩
    split_ifs at h with hvault
    · simp only [bind_eq_ok, pure_eq_ok] at h
      obtain ⟨_, rfl, rfl⟩ := h
      exact ⟨.inl hvault, by rw [change_vault hvault]⟩
    · simp only [bind_eq_ok, okOr_eq_ok, pure_eq_ok] at h
      obtain ⟨target, htarget, _, rfl, rfl⟩ := h
      refine ⟨.inr (by rw [htarget]; rfl), ?_⟩
      rw [change_set (Bool.eq_false_iff.mpr hvault) htarget]
      rfl
  · rintro ⟨⟨state, hstate, hnew⟩, hanswer, rfl⟩
    refine ⟨state, hstate, hnew, ?_⟩
    rw [hnew]
    split_ifs with hvault
    · rw [change_vault hvault]
      rfl
    · obtain ⟨target, htarget⟩ := Option.isSome_iff_exists.mp (hanswer.resolve_left hvault)
      rw [htarget, change_set (Bool.eq_false_iff.mpr hvault) htarget]
      rfl

/-- **The whole loop**: each request can be answered, and the changes are made one after the other.  No
user comes twice, so that what one turn does to a user leaves the others as they were. -/
lemma Registration.approveLoop_eq_ok {es : List (AccountId × Bytes)} :
    ∀ {s : Registration AccountId}, (es.map Prod.fst).Nodup →
      (∀ e ∈ es, ∃ state, s.pendingSetRefunds.get (r, e.1) = some state ∧ state.new = e.2) →
      (es.foldlM (approveSetRefund r) s = .ok t ↔ (∀ e ∈ es, s.Answers r e) ∧
        { s.changes r es with
          pendingSetRefunds :=
            (es.map fun e => (r, e.1)).foldl StorageMap.remove s.pendingSetRefunds } = t) := by
  induction es with
  | nil =>
      intro s _ _
      simp [changes]
  | cons e es ih =>
      intro s hnodup hpending
      rw [List.map_cons, List.nodup_cons] at hnodup
      rw [List.foldlM_cons, bind_eq_ok, List.forall_mem_cons]
      have hrest : ∀ f ∈ es, ∃ state,
          (s.pendingSetRefunds.remove (r, e.1)).get (r, f.1) = some state ∧ state.new = f.2 := by
        intro f hf
        have hne : f.1 ≠ e.1 := fun heq => hnodup.1 (heq ▸ List.mem_map_of_mem hf)
        rw [StorageMap.get_remove_of_ne _ (by simpa using hne)]
        exact hpending f (List.mem_cons_of_mem _ hf)
      have hanswers : ∀ p f, Answers { s.change r e with pendingSetRefunds := p } r f ↔ s.Answers r f :=
        fun p f => change_answers
      simp only [approveSetRefund_eq_ok]
      constructor
      · rintro ⟨_, ⟨-, hanswer, rfl⟩, h⟩
        rw [ih hnodup.2 hrest] at h
        simp only [hanswers, changes_pending] at h
        exact ⟨⟨hanswer, h.1⟩, h.2⟩
      · rintro ⟨⟨hanswer, hall⟩, h⟩
        refine ⟨_, ⟨hpending e List.mem_cons_self, hanswer, rfl⟩, ?_⟩
        rw [ih hnodup.2 hrest]
        simp only [hanswers, changes_pending]
        exact ⟨hall, h⟩

end Loops

/-! ## The order of the changes -/

/-- The refund addresses of the users, and the users of the refund addresses in no order. -/
@[ext] structure Book (AccountId : Type) where
  targets : StorageMap (ℕ × AccountId) (BitcoinRelayTarget AccountId)
  users : StorageMap (ℕ × Bytes) (Multiset AccountId)

/-- The book that a pool keeps. -/
def Registration.book (s : Registration AccountId) : Book AccountId :=
  ⟨s.registrationPool, s.bondedRefund.mapVals Multiset.ofList⟩

namespace Book

/-- A user leaves one address and enters another: what this does to the users of any address. -/
def moved (who : AccountId) (old new : ℕ × Bytes) (k : ℕ × Bytes)
    (users : Option (Multiset AccountId)) : Option (Multiset AccountId) :=
  let left := if k = old then some ((users.getD 0).filter fun u => u ≠ who) else users
  if k = new then some (left.getD 0 + {who}) else left

/-- Two users move in any order, and every address shows the same users. -/
lemma moved_comm {u v : AccountId} (huv : u ≠ v) (old new old' new' k : ℕ × Bytes)
    (users : Option (Multiset AccountId)) :
    moved v old' new' k (moved u old new k users) = moved u old new k (moved v old' new' k users) := by
  have hu : Multiset.filter (fun w => w ≠ v) {u} = {u} := by simp [huv]
  have hv : Multiset.filter (fun w => w ≠ u) {v} = {v} := by simp [huv.symm]
  simp only [moved]
  split_ifs <;>
    simp [Multiset.filter_add, hu, hv, Multiset.filter_filter, and_comm, add_right_comm]

/-- A change, as the book has it: the vaults stay what they are. -/
def change (vaults : StorageMap (ℕ × Bytes) AccountId) (r : ℕ) (b : Book AccountId)
    (e : AccountId × Bytes) : Book AccountId :=
  if vaults.contains (r, e.2) then b
  else match b.targets.get (r, e.1) with
    | some target =>
        let left := b.users.insert (r, target.refundAddress)
          ((b.users.getD (r, target.refundAddress) 0).filter fun u => u ≠ e.1)
        ⟨b.targets.insert (r, e.1) { target with refundAddress := e.2 },
          left.insert (r, e.2) (left.getD (r, e.2) 0 + {e.1})⟩
    | none => b

variable {vaults : StorageMap (ℕ × Bytes) AccountId} {r : ℕ} {b : Book AccountId}
  {e f : AccountId × Bytes}

lemma change_vault (h : vaults.contains (r, e.2) = true) : b.change vaults r e = b := if_pos h

lemma change_absent (h : b.targets.get (r, e.1) = none) : b.change vaults r e = b := by
  rw [change, h]
  split_ifs <;> rfl

/-- What a change of a registered user does, address by address. -/
lemma change_set {target : BitcoinRelayTarget AccountId} (hfree : vaults.contains (r, e.2) = false)
    (h : b.targets.get (r, e.1) = some target) :
    (b.change vaults r e).targets =
        b.targets.insert (r, e.1) { target with refundAddress := e.2 } ∧
      ∀ k, (b.change vaults r e).users.get k =
        moved e.1 (r, target.refundAddress) (r, e.2) k (b.users.get k) := by
  rw [change, hfree, h]
  refine ⟨rfl, fun k => ?_⟩
  simp only [Bool.false_eq_true, if_false, moved, StorageMap.getD, StorageMap.get_insert]
  by_cases hnew : k = (r, e.2)
  · subst hnew
    by_cases hold : (r, e.2) = (r, target.refundAddress)
    · simp [hold]
    · simp [hold]
  · by_cases hold : k = (r, target.refundAddress)
    · subst hold
      simp [hnew]
    · simp [hnew, hold]

/-- A change of one user leaves another user as it was. -/
lemma change_targets_of_ne (hne : f.1 ≠ e.1) :
    (b.change vaults r e).targets.get (r, f.1) = b.targets.get (r, f.1) := by
  cases hfree : vaults.contains (r, e.2) with
  | true => rw [change_vault hfree]
  | false =>
      cases htarget : b.targets.get (r, e.1) with
      | none => rw [change_absent htarget]
      | some target =>
          rw [(change_set hfree htarget).1, StorageMap.get_insert_of_ne _ (by simpa using hne)]

/-- **Changes of different users commute**, whether they are denied or not. -/
lemma change_comm (hne : e.1 ≠ f.1) :
    (b.change vaults r e).change vaults r f = (b.change vaults r f).change vaults r e := by
  cases he : vaults.contains (r, e.2) with
  | true => rw [change_vault he, change_vault he]
  | false =>
      cases hf : vaults.contains (r, f.2) with
      | true => rw [change_vault hf, change_vault hf]
      | false =>
          have hf₁ : (b.change vaults r e).targets.get (r, f.1) = b.targets.get (r, f.1) :=
            change_targets_of_ne hne.symm
          have he₁ : (b.change vaults r f).targets.get (r, e.1) = b.targets.get (r, e.1) :=
            change_targets_of_ne hne
          cases hte : b.targets.get (r, e.1) with
          | none => rw [change_absent hte, change_absent (he₁.trans hte)]
          | some te =>
              cases htf : b.targets.get (r, f.1) with
              | none => rw [change_absent htf, change_absent (hf₁.trans htf)]
              | some tf =>
                  obtain ⟨hpool, husers⟩ := change_set he hte
                  obtain ⟨hpool', husers'⟩ := change_set hf htf
                  obtain ⟨hpool₂, husers₂⟩ := change_set hf (hf₁.trans htf)
                  obtain ⟨hpool₂', husers₂'⟩ := change_set he (he₁.trans hte)
                  refine Book.ext ?_ ?_
                  · ext1 k
                    have hkeys : (r, e.1) ≠ (r, f.1) := by simpa using hne
                    simp only [hpool₂, hpool₂', hpool, hpool', StorageMap.get_insert]
                    split_ifs with h₁ h₂
                    · exact absurd (h₂.symm.trans h₁) hkeys
                    all_goals rfl
                  · ext1 k
                    rw [husers₂, husers₂', husers, husers', moved_comm hne]

end Book

section Order

variable {s : Registration AccountId} {r : ℕ}

/-- What a change does to the users of any address. -/
lemma Registration.setRefund_users {who : AccountId} {target : BitcoinRelayTarget AccountId}
    {new : Bytes} (k : ℕ × Bytes) :
    (s.setRefund r who target new).bondedRefund.get k =
      if k = (r, new) then
        some ((if k = (r, target.refundAddress) then
          some (((s.bondedRefund.get k).getD []).filter fun u => u ≠ who)
          else s.bondedRefund.get k).getD [] ++ [who])
      else if k = (r, target.refundAddress) then
        some (((s.bondedRefund.get k).getD []).filter fun u => u ≠ who)
      else s.bondedRefund.get k := by
  simp only [setRefund, StorageMap.getD, StorageMap.get_insert]
  by_cases hnew : k = (r, new)
  · rw [if_pos hnew, if_pos hnew, hnew]
    split_ifs with hold
    · rw [hold]
    · rfl
  · rw [if_neg hnew, if_neg hnew]
    split_ifs with hold
    · rw [hold]
    · rfl

/-- The book of the pool after a change is the changed book. -/
lemma Registration.book_change (e : AccountId × Bytes) :
    (s.change r e).book = s.book.change s.bondedVault r e := by
  cases hfree : s.bondedVault.contains (r, e.2) with
  | true => rw [change_vault hfree, Book.change_vault hfree]
  | false =>
      cases htarget : s.registrationPool.get (r, e.1) with
      | none => rw [change_absent htarget, Book.change_absent htarget]
      | some target =>
          have htarget' : s.book.targets.get (r, e.1) = some target := htarget
          obtain ⟨hpool, husers⟩ := Book.change_set hfree htarget'
          rw [change_set hfree htarget]
          refine Book.ext hpool.symm ?_
          ext1 k
          rw [husers]
          show (((s.setRefund r e.1 target e.2).bondedRefund.get k).map Multiset.ofList) = _
          rw [setRefund_users, Book.moved]
          have hget : s.book.users.get k = (s.bondedRefund.get k).map Multiset.ofList := rfl
          have hpush : ∀ us : List AccountId,
              (Multiset.ofList (us ++ [e.1])) = Multiset.ofList us + {e.1} :=
            fun us => (Multiset.coe_add us [e.1]).symm
          rw [hget]
          cases s.bondedRefund.get k <;> split_ifs <;> simp [hpush]

/-- ... and of a list of changes. -/
lemma Registration.book_changes (es : List (AccountId × Bytes)) : ∀ s : Registration AccountId,
    (s.changes r es).book = es.foldl (Book.change s.bondedVault r) s.book := by
  induction es with
  | nil => exact fun s => rfl
  | cons e es ih =>
      intro s
      have hcons : s.changes r (e :: es) = (s.change r e).changes r es := rfl
      rw [hcons, ih, change_bondedVault, book_change, List.foldl_cons]

/-- **The order does not matter**: the same changes of different users lead to the same book. -/
lemma Registration.book_changes_perm {es fs : List (AccountId × Bytes)} (hperm : es.Perm fs)
    (hnodup : (es.map Prod.fst).Nodup) : (s.changes r es).book = (s.changes r fs).book := by
  rw [book_changes, book_changes]
  refine hperm.foldl_eq' (fun e he f hf b => ?_) _
  by_cases heq : e = f
  · rw [heq]
  · exact Book.change_comm fun hfst => heq (List.inj_on_of_nodup_map hnodup he hf hfst)

end Order

/-! ## Requests and registrations -/

section Requests

variable {host : Host AccountId} {o : Outlook AccountId} {s s' : Registration AccountId}

/-- The requests stay. -/
abbrev KeepsRequests (s : Registration AccountId) (x : Except Error (Registration AccountId)) : Prop :=
  Returns (fun t => t.pendingSetRefunds = s.pendingSetRefunds) x

lemma Registration.tryBondVaultAddress_keepsRequests {vault : MultiSigAccount AccountId}
    {refundAddress : Bytes} {who : AccountId} {round : ℕ} :
    Returns (fun p => p.2.pendingSetRefunds = s.pendingSetRefunds)
      (s.tryBondVaultAddress host o vault refundAddress who round) :=
  .bind fun _ => .bind fun _ => .bind fun _ => .pure rfl

lemma Registration.addKey_keepsRequests {vault : MultiSigAccount AccountId} {authorityId : AccountId}
    {pubKey refundAddress : Bytes} {who : AccountId} {round : ℕ} :
    Returns (fun p => p.2.pendingSetRefunds = s.pendingSetRefunds)
      (s.addKey host o vault authorityId pubKey refundAddress who round) :=
  .bind fun _ => .bind fun _ => .bind fun _ => .bind fun _ => .bind fun _ => .bind fun _ =>
    .ite tryBondVaultAddress_keepsRequests (.pure rfl)

lemma Registration.requestVault_keepsRequests {origin : Origin AccountId} {raw : Bytes} :
    KeepsRequests s (s.requestVault host o origin raw) := by
  intro t h
  simp only [requestVault, bind_eq_ok, ensure_eq_ok, pure_eq_ok, exists_const, Prod.exists] at h
  obtain ⟨-, who, -, address, -, -, -, vault, s₁, htake, rfl⟩ := h
  obtain ⟨-, -, keys, rfl⟩ := takePreSubmitted_eq_ok htake
  dsimp only
  split_ifs with hready
  · cases hbond : ({ s with preSubmittedPubKeys := keys } :
        Registration AccountId).tryBondVaultAddress host o vault address who s.currentRound with
    | error e => rfl
    | ok p =>
        obtain ⟨a, d, hbonds⟩ := tryBondVaultAddress_bonds hready hbond
        dsimp only
        rw [hbonds.state_eq]
  · rfl

lemma Registration.clearVault_keepsRequests {origin : Origin AccountId} {raw : Bytes} :
    KeepsRequests s (s.clearVault host origin raw) := by
  intro t h
  simp only [clearVault, bind_eq_ok, ensure_eq_ok, okOr_eq_ok, exists_const] at h
  obtain ⟨-, -, a, -, who, -, h⟩ := h
  split_ifs at h with hwho
  · simp only [bind_eq_ok, okOr_eq_ok, pure_eq_ok] at h
    obtain ⟨vault, -, _, rfl, rfl⟩ := h
    rfl
  · simp only [bind_eq_ok, okOr_eq_ok, pure_eq_ok] at h
    obtain ⟨target, -, _, rfl, rfl⟩ := h
    rfl

omit [LinearOrder AccountId] in
lemma Registration.requestSystemVault_keepsRequests {origin : Origin AccountId} {prepare : Bool} :
    KeepsRequests s (s.requestSystemVault o origin prepare) :=
  .bind fun _ => .bind fun _ => .bind fun _ => .pure rfl

omit [LinearOrder AccountId] in
lemma Registration.migrationControl_keepsRequests {origin : Origin AccountId} :
    KeepsRequests s (s.migrationControl o origin) := by
  refine .bind fun _ => ?_
  cases s.serviceState with
  | normal => exact .bind fun _ => .pure rfl
  | setExecutiveMembers => exact requestSystemVault_keepsRequests
  | prepareNextSystemVault => exact fun t ht => by cases ht
  | utxoTransfer => exact .bind fun _ => .pure rfl

/-- **Where a request comes from**: it was there before, or a registered user makes it. -/
lemma Registration.step_pending {i : Step AccountId} (h : s.step host i = some s')
    {k : ℕ × AccountId} (hk : (s'.pendingSetRefunds.get k).isSome = true) :
    (s.pendingSetRefunds.get k).isSome = true ∨ (∃ origin new, i = .requestSetRefund origin new) ∧
      k.1 = s.currentRound ∧ (s.registrationPool.get k).isSome = true := by
  have hsame : s'.pendingSetRefunds = s.pendingSetRefunds → (s.pendingSetRefunds.get k).isSome = true :=
    fun heq => heq ▸ hk
  have hkept : ∀ {x : Except Error (Registration AccountId)}, some (commit s x) = some s' →
      KeepsRequests s x → s'.pendingSetRefunds = s.pendingSetRefunds := by
    intro x heq hx
    obtain rfl := Option.some.inj heq
    exact commit_induction
      (P := fun t : Registration AccountId => t.pendingSetRefunds = s.pendingSetRefunds) rfl hx
  cases i with
  | requestSetRefund origin new =>
      obtain rfl := Option.some.inj h
      revert hk
      refine commit_induction (P := fun t : Registration AccountId =>
        (t.pendingSetRefunds.get k).isSome = true → _) Or.inl fun t ht hk => ?_
      simp only [requestSetRefund, bind_eq_ok, ensure_eq_ok, okOr_eq_ok, pure_eq_ok, exists_const] at ht
      obtain ⟨-, who, -, a, -, target, htarget, -, -, -, rfl⟩ := ht
      rw [StorageMap.get_insert] at hk
      split_ifs at hk with hkey
      · subst hkey
        exact .inr ⟨⟨origin, new, rfl⟩, rfl, by rw [htarget]; rfl⟩
      · exact .inl hk
  | approveSetRefunds o approval =>
      obtain rfl := Option.some.inj h
      have hloop : Returns (fun t : Registration AccountId =>
          (t.pendingSetRefunds.get k).isSome = true → (s.pendingSetRefunds.get k).isSome = true)
          (s.approveSetRefunds o approval) := by
        refine .bind fun _ => .bind fun _ => .bind fun _ => .bind fun _ => ?_
        refine Returns.foldlM (fun t e ht t' ht' hk => ht ?_) id
        obtain ⟨-, -, rfl⟩ := approveSetRefund_eq_ok.mp ht'
        rw [StorageMap.get_remove] at hk
        split_ifs at hk
        · cases hk
        · exact hk
      exact .inl (commit_induction (P := fun t : Registration AccountId =>
        (t.pendingSetRefunds.get k).isSome = true → (s.pendingSetRefunds.get k).isSome = true) id hloop hk)
  | processSetRefunds =>
      obtain rfl := Option.some.inj h
      rw [processSetRefunds_eq, StorageMap.get_filterKeys] at hk
      split_ifs at hk
      · exact .inl hk
      · cases hk
  | requestVault o origin raw => exact .inl (hsame (hkept h requestVault_keepsRequests))
  | submitVaultKey o sub =>
      refine .inl (hsame (hkept h ?_))
      exact .bind fun _ => .bind fun _ => .bind fun _ => .bind fun _ =>
        .bind_of addKey_keepsRequests fun p hp => .pure hp
  | submitSystemVaultKey o sub =>
      refine .inl (hsame (hkept h ?_))
      exact .bind fun _ => .bind fun _ => .bind fun _ => .bind fun _ => .bind fun _ =>
        .bind_of addKey_keepsRequests fun p hp => .pure hp
  | clearVault origin raw => exact .inl (hsame (hkept h clearVault_keepsRequests))
  | migrationControl o origin => exact .inl (hsame (hkept h migrationControl_keepsRequests))
  | requestSystemVault o origin prepare =>
      exact .inl (hsame (hkept h requestSystemVault_keepsRequests))
  | vaultKeyPresubmission o sub =>
      exact .inl (hsame (hkept h (.bind fun _ => .bind fun _ => .bind fun _ => .bind fun _ =>
        .bind fun _ => .bind fun _ => .pure rfl)))
  | dropPreviousRound origin round =>
      exact .inl (hsame (hkept h (.bind fun _ => .bind fun _ => .bind fun _ => .pure rfl)))
  | setMaxPresubmission origin max =>
      exact .inl (hsame (hkept h (.bind fun _ => .bind fun _ => .pure rfl)))
  | setMultiSigRatio origin new =>
      exact .inl (hsame (hkept h (.bind fun _ => .bind fun _ => .bind fun _ => .pure rfl)))
  | addMigrationTx txid =>
      obtain rfl := Option.some.inj h
      refine .inl (hsame ?_)
      rw [addMigrationTx]
      split_ifs <;> rfl
  | executeMigrationTx txid =>
      obtain rfl := Option.some.inj h
      refine .inl (hsame ?_)
      rw [executeMigrationTx]
      split_ifs <;> rfl
  | removeMigrationTx txid =>
      obtain rfl := Option.some.inj h
      exact .inl hk
  | replaceAuthority old new =>
      obtain rfl := Option.some.inj h
      exact .inl hk
  | changeMembersSorted new =>
      obtain rfl := Option.some.inj h
      exact .inl hk

end Requests

/-! ## Runs -/

/-- A vault is cleared only if its owner does not wait for a new refund address. -/
def Step.Unasked (host : Host AccountId) (s : Registration AccountId) : Step AccountId → Prop
  | .clearVault _ raw => ∀ a ∈ (Registration.getCheckedBitcoinAddress host raw).toOption,
      ∀ who ∈ s.bondedVault.get (s.currentRound, a), who ≠ Registration.precompile host →
        (s.pendingSetRefunds.get (s.currentRound, who)).isSome = false
  | _ => True

instance (host : Host AccountId) (s : Registration AccountId) (i : Step AccountId) :
    Decidable (i.Unasked host s) :=
  match i with
  | .clearVault _ raw => inferInstanceAs (Decidable (∀ a ∈
      (Registration.getCheckedBitcoinAddress host raw).toOption,
      ∀ who ∈ s.bondedVault.get (s.currentRound, a), who ≠ Registration.precompile host →
        (s.pendingSetRefunds.get (s.currentRound, who)).isSome = false))
  | .requestVault _ _ _ | .submitVaultKey _ _ | .submitSystemVaultKey _ _ | .requestSetRefund _ _
  | .requestSystemVault _ _ _ | .vaultKeyPresubmission _ _ | .migrationControl _ _
  | .dropPreviousRound _ _ | .setMaxPresubmission _ _ | .setMultiSigRatio _ _ | .approveSetRefunds _ _
  | .addMigrationTx _ | .removeMigrationTx _ | .executeMigrationTx _ | .replaceAuthority _ _
  | .processSetRefunds | .changeMembersSorted _ => .isTrue trivial

/-- **Requests are of registered users**: none is of a later round, and the users of those of the round
are registered. -/
def AskedInv (s : Registration AccountId) : Prop :=
  ∀ k, (s.pendingSetRefunds.get k).isSome = true →
    k.1 ≤ s.currentRound ∧ (k.1 = s.currentRound → (s.registrationPool.get k).isSome = true)

section Runs

variable {host : Host AccountId} {s s' t : Registration AccountId} {r : ℕ} {i : Step AccountId}

/-- Users stay registered while refund addresses are set. -/
lemma RefundMove.stay (h : RefundMove r s t) : t.currentRound = s.currentRound ∧
    ∀ k, (s.registrationPool.get k).isSome = true → (t.registrationPool.get k).isSome = true := by
  induction h with
  | refl => exact ⟨rfl, fun _ hk => hk⟩
  | set _ _ _ ih =>
      refine ⟨ih.1, fun k hk => ?_⟩
      simp only [Registration.setRefund, StorageMap.get_insert]
      split_ifs
      · rfl
      · exact ih.2 k hk
  | forget _ _ ih => exact ih

/-- The users of a round are registered as long as it is the round of the pool, unless their vault is
cleared. -/
lemma PoolMove.stay (hm : PoolMove host s i s') {k : ℕ × AccountId} (hk : k.1 ≤ s.currentRound)
    (hreg : k.1 = s.currentRound → (s.registrationPool.get k).isSome = true)
    (hclear : ∀ raw a who, i = .clearVault .root raw →
      Registration.getCheckedBitcoinAddress host raw = .ok a →
      s.bondedVault.get (s.currentRound, a) = some who → who ≠ Registration.precompile host →
      k ≠ (s.currentRound, who)) :
    k.1 ≤ s'.currentRound ∧
      (k.1 = s'.currentRound → (s'.registrationPool.get k).isSome = true) := by
  -- a record that is written keeps its user registered
  have hinsert : ∀ (j : ℕ × AccountId) (target : BitcoinRelayTarget AccountId),
      k.1 = s.currentRound → ((s.registrationPool.insert j target).get k).isSome = true := by
    intro j target hround
    rw [StorageMap.get_insert]
    split_ifs
    · rfl
    · exact hreg hround
  cases hm with
  | tuned h => rw [h]; exact ⟨hk, hreg⟩
  | members new hi h => rw [h]; exact ⟨hk, hreg⟩
  | refunds h =>
      obtain ⟨hround, hstay⟩ := h.stay
      rw [hround]
      exact ⟨hk, fun heq => hstay k (hreg heq)⟩
  | opened o who raw address keys vault vault' hi hnormal hfree hnone htake hvault h =>
      rw [h]
      exact ⟨hk, hinsert _ _⟩
  | bonded o who raw address keys vault vault' a d t hi hnormal hfree hnone htake hbonds h =>
      rw [h, hbonds.state_eq]
      exact ⟨hk, hinsert _ _⟩
  | keyed o sub target vault' t hi hexec hnormal htarget hkey h =>
      rw [h, hkey.frame]
      exact ⟨hk, hinsert _ _⟩
  | systemKeyed o sub r vault vault' t hi hexec hr hvault hkey h =>
      rw [h, hkey.frame]
      exact ⟨hk, hreg⟩
  | requested o prepare hi hstate hnone h => rw [h]; exact ⟨hk, hreg⟩
  | presubmitted o sub hi hexec hnormal h => rw [h]; exact ⟨hk, hreg⟩
  | cleared raw a who target hi ha hnormal hbond hwho htarget h =>
      rw [h]
      refine ⟨hk, fun heq => ?_⟩
      have hne := hclear raw a who hi ha hbond hwho
      show ((s.registrationPool.remove (s.currentRound, who)).get k).isSome = true
      rw [StorageMap.get_remove_of_ne _ hne]
      exact hreg heq
  | systemCleared raw a vault hi hnormal hbond hvault h => rw [h]; exact ⟨hk, hreg⟩
  | started o hi hstate hready h => rw [h]; exact ⟨hk, hreg⟩
  | prepared o hi hstate hnone h => rw [h]; exact ⟨hk, hreg⟩
  | ended o hi hstate h =>
      rw [h]
      exact ⟨Nat.le_succ_of_le hk, fun heq => absurd (heq ▸ hk) (Nat.not_succ_le_self _)⟩
  | dropped round hi hlt hnormal h =>
      rw [h]
      refine ⟨hk, fun heq => ?_⟩
      have hne : k.1 ≠ round := fun hround => absurd (hround ▸ heq) hlt.ne
      simp only [StorageMap.get_filterKeys, hne, ne_eq, not_false_eq_true, decide_true, if_true]
      exact hreg heq
  | renamed old new hi h =>
      rw [h]
      refine ⟨hk, fun heq => ?_⟩
      rw [Registration.replaceAuthority_pool, Option.isSome_map]
      exact hreg heq

lemma AskedInv.step (hs : AskedInv s) (hi : i.Unasked host s) (h : s.step host i = some s') :
    AskedInv s' := by
  intro k hk
  have hm := Registration.step_cases h
  rcases Registration.step_pending h hk with hold | ⟨⟨origin, new, rfl⟩, hround, hreg⟩
  · obtain ⟨hle, hreg⟩ := hs k hold
    refine hm.stay hle hreg fun raw a who heq ha hbond hwho hkey => ?_
    subst heq hkey
    have hnone := hi a (toOption_eq_some.mpr ha) who hbond hwho
    rw [hold] at hnone
    cases hnone
  · exact hm.stay hround.le (fun _ => hreg) fun raw a who heq => by cases heq

/-- **In every run** in which no vault of a waiting user is cleared, the users who wait are registered. -/
lemma PoolIf.askedInv (h : PoolIf host (fun s i => i.Unasked host s) s) : AskedInv s := by
  refine Reachable.invariant (P := AskedInv) ?_ (fun s i s' hs hi h => hs.step hi h) h
  rintro s ⟨members, rfl⟩ k hk
  cases hk

omit [LinearOrder AccountId] in
lemma AskedInv.answerable (hs : AskedInv s) : s.Answerable := by
  intro who state hstate
  have hk : (s.pendingSetRefunds.get (s.currentRound, who)).isSome = true := by
    rw [hstate]
    rfl
  exact .inr ((hs (s.currentRound, who) hk).2 rfl)

end Runs

/-! ## Results -/

section Results

variable {host : Host AccountId} {o : Outlook AccountId} {s : Registration AccountId}
  {approval : SetRefundsApproval AccountId}

/-- What is left when all requests of the round are approved. -/
lemma Registration.approveAll_same (hperm : approval.refundSets.Perm s.pendingPairs) :
    SameRefunds { s.changes s.currentRound approval.refundSets with
      pendingSetRefunds := (approval.refundSets.map fun e => (s.currentRound, e.1)).foldl
        StorageMap.remove s.pendingSetRefunds } s.processSetRefunds := by
  have hnodup : (approval.refundSets.map Prod.fst).Nodup :=
    (hperm.map Prod.fst).nodup_iff.mpr s.nodup_pendingPairs
  have hbook := book_changes_perm (s := s) (r := s.currentRound) hperm hnodup
  rw [processSetRefunds_eq]
  refine ⟨congrArg Book.targets hbook, ?_, fun k => ?_, ?_⟩
  · ext1 k
    rw [StorageMap.get_foldl_remove, StorageMap.get_filterKeys]
    by_cases hround : k.1 = s.currentRound
    · have hdrop : ¬ decide (k.1 ≠ s.currentRound) = true := by simpa using hround
      rw [if_neg hdrop]
      cases hk : s.pendingSetRefunds.get k with
      | none => rw [ite_self]
      | some state =>
          have hmem : (k.2, state.new) ∈ approval.refundSets := by
            refine hperm.mem_iff.mpr (mem_pendingPairs.mpr ⟨state, ?_, rfl⟩)
            rw [← hround]
            exact hk
          have hkey : (s.currentRound, k.2) = k := Prod.ext hround.symm rfl
          exact if_pos (List.mem_map.mpr ⟨_, hmem, hkey⟩)
    · have hkeep : decide (k.1 ≠ s.currentRound) = true := by simpa using hround
      rw [if_pos hkeep, if_neg]
      intro hmem
      obtain ⟨e, -, rfl⟩ := List.mem_map.mp hmem
      exact hround rfl
  · exact congrArg (fun b => StorageMap.get (Book.users b) k) hbook
  · rw [changes_rest s.currentRound approval.refundSets s, changes_rest s.currentRound s.pendingPairs s]

/-- **The two ways agree exactly if each request of the round can be answered**, for every order in which
the requests are approved; and that is so in every run in which no vault is cleared whose owner waits for
a new refund address. -/
theorem approvals_agree_iff (hnormal : s.serviceState = .normal)
    (hauthority : o.isLegacyAuthority approval.authorityId = true) (htime : o.now ≤ approval.deadline)
    (hround : s.currentRound = approval.poolRound)
    (hperm : approval.refundSets.Perm s.pendingPairs) :
    ((∃ t, s.approveSetRefunds o approval = .ok t ∧ SameRefunds t s.processSetRefunds) ↔
      s.Answerable) ∧
    (PoolIf host (fun s i => i.Unasked host s) s →
      ∃ t, s.approveSetRefunds o approval = .ok t ∧ SameRefunds t s.processSetRefunds) := by
  have hnodup : (approval.refundSets.map Prod.fst).Nodup :=
    (hperm.map Prod.fst).nodup_iff.mpr s.nodup_pendingPairs
  have hpending : ∀ e ∈ approval.refundSets, ∃ state,
      s.pendingSetRefunds.get (s.currentRound, e.1) = some state ∧ state.new = e.2 :=
    fun e he => Registration.mem_pendingPairs.mp (hperm.mem_iff.mp he)
  have hanswerable : s.Answerable ↔ ∀ e ∈ approval.refundSets, s.Answers s.currentRound e := by
    rw [Registration.answerable_iff]
    exact forall_congr' fun e => by rw [hperm.mem_iff]
  have hagree : (∃ t, s.approveSetRefunds o approval = .ok t ∧ SameRefunds t s.processSetRefunds) ↔
      s.Answerable := by
    simp only [Registration.approveSetRefunds, bind_eq_ok, ensure_eq_ok, exists_const, hauthority,
      htime, hnormal, hround.symm, true_and, Registration.approveLoop_eq_ok hnodup hpending]
    rw [hanswerable]
    constructor
    · rintro ⟨t, ⟨hall, -⟩, -⟩
      exact hall
    · intro hall
      exact ⟨_, ⟨hall, rfl⟩, Registration.approveAll_same hperm⟩
  exact ⟨hagree, fun h => hagree.mpr h.askedInv.answerable⟩

end Results

/-! ## Small runs -/

/-- Users 7 and 8 exchange their refund addresses, and the requests are approved last one first. -/
theorem approvals_agree_exchange : ∃ s t : Registration ℕ,
    PoolIf regtest (fun s i => i.Unasked regtest s) s ∧ s.pendingPairs = [(7, [6]), (8, [5])] ∧
    s.approveSetRefunds regtestOutlook ⟨1, [(8, [5]), (7, [6])], 1, 1⟩ = .ok t ∧
    SameRefunds t s.processSetRefunds := by
  have hrun := regtestRun_exists (fun s i => i.Unasked regtest s)
    [.requestVault regtestOutlook (.signed 7) [5], .requestVault regtestOutlook (.signed 8) [6],
      .requestSetRefund (.signed 7) [6], .requestSetRefund (.signed 8) [5]]
    (P := fun s => decide (s.serviceState = .normal ∧ s.currentRound = 1 ∧
      s.pendingPairs = [(7, [6]), (8, [5])])) (by decide)
  obtain ⟨s, hs, hP⟩ := hrun
  obtain ⟨hnormal, hround, hpairs⟩ := of_decide_eq_true hP
  have hperm : [(8, [5]), (7, [6])].Perm s.pendingPairs := by
    rw [hpairs]
    exact .swap _ _ _
  have hagree : ∃ t, s.approveSetRefunds regtestOutlook ⟨1, [(8, [5]), (7, [6])], 1, 1⟩ = .ok t ∧
      SameRefunds t s.processSetRefunds :=
    (approvals_agree_iff hnormal rfl le_rfl hround hperm).2 hs
  obtain ⟨t, ht, hsame⟩ := hagree
  exact ⟨s, t, hs, hpairs, ht, hsame⟩

/-- **One cleared vault and no approval goes through.**  Users 7 and 8 wait for new refund addresses when
the vault of user 7 is cleared.  The approval of both fails, and user 8 keeps the old address; a
migration that begins would give it the new one. -/
theorem approvals_stuck : ∃ s : Registration ℕ, PoolIf regtest anyStep s ∧
    s.serviceState = .normal ∧ s.pendingPairs = [(7, [6]), (8, [9])] ∧
    s.approveSetRefunds regtestOutlook ⟨1, s.pendingPairs, s.currentRound, 1⟩ = .error .userDNE ∧
    s.processSetRefunds.getRefundAddress 8 = some [9] ∧ s.processSetRefunds.pendingPairs = [] := by
  have hrun := regtestRun_exists anyStep
    (vaultOfSeven [5] ++ [.requestVault regtestOutlook (.signed 8) [5],
      .requestSetRefund (.signed 7) [6], .requestSetRefund (.signed 8) [9],
      .clearVault .root [1, 10, 20]])
    (P := fun s => decide (s.serviceState = .normal ∧ s.pendingPairs = [(7, [6]), (8, [9])] ∧
      s.processSetRefunds.getRefundAddress 8 = some [9] ∧ s.processSetRefunds.pendingPairs = []) &&
      decide ((s.approveSetRefunds regtestOutlook ⟨1, s.pendingPairs, s.currentRound, 1⟩).map
        (fun _ => ()) = .error .userDNE)) (by decide)
  obtain ⟨s, hs, hP⟩ := hrun
  obtain ⟨hP, herror⟩ := Bool.and_eq_true_iff.mp hP
  obtain ⟨hnormal, hpairs, haddress, hempty⟩ := of_decide_eq_true hP
  refine ⟨s, hs, hnormal, hpairs, ?_, haddress, hempty⟩
  have hmap := of_decide_eq_true herror
  cases hr : s.approveSetRefunds regtestOutlook ⟨1, s.pendingPairs, s.currentRound, 1⟩ with
  | error e =>
      rw [hr, Except.map, Except.error.injEq] at hmap
      rw [hmap]
  | ok t =>
      rw [hr] at hmap
      cases hmap

end BifrostNode.Btc.Pool
