import BifrostNode.Lib.Tally
import BifrostNode.Btc.CoinMoves
import BifrostNode.Btc.Rollbacks

/-!
# The quota of unconfirmed coins

A relayer may have a limited number of unconfirmed coins that it was the first to submit.  Its counter is
raised with a new coin, and lowered for the first voter of a coin that becomes available or is cleared.

**Submitters.**  The bridge is watched, and the relayer that submits a coin is noted and followed when it
is replaced (`noteSubmitters`).  The storage only has the list of voters, and a replaced voter goes to
its end.

**Where it goes wrong.**  A replacement loses the submitter of a coin that others have voted for, and
writes one counter over another; and coins that are still unconfirmed can be locked, given back or
spent.  While nothing of this happens, the counters are right (`coins_counted`).
-/

namespace BifrostNode.Btc

open Cccp Staking Transition Pool Queue StorageMap

variable {AccountId : Type} [LinearOrder AccountId]

namespace Blaze

/-- The relayer that a coin counts for. -/
def Utxo.submitter (u : Utxo AccountId) : Option AccountId :=
  if u.status = .unconfirmed then u.voters.head? else none

/-- The number of unconfirmed coins that a relayer submitted. -/
def unconfirmedOf (b : Blaze AccountId) (submitters : H256 → Option AccountId) (r : AccountId) : ℕ :=
  b.utxos.sum fun hash u => if u.status = .unconfirmed ∧ submitters hash = some r then 1 else 0

/-- None of the coins is unconfirmed. -/
def Confirmed (b : Blaze AccountId) (inputs : List UtxoInfoWithSize) : Prop :=
  ∀ input ∈ inputs, (b.utxos.get input.hash).all (fun u => u.status ≠ .unconfirmed) = true

/-- A replacement keeps the counters apart, and the submitter of every unconfirmed coin at the front of
its voters. -/
structure Apart (b : Blaze AccountId) (old new : AccountId) : Prop where
  counters : old = new ∨ b.unconfirmedUtxoCount.getD old 0 = 0 ∨ b.unconfirmedUtxoCount.getD new 0 = 0
  voters : ∀ e ∈ b.utxos.toList, e.2.submitter = some old →
    (e.2.voters.filter (· ≠ old)).head?.all (· = new) = true

instance (b : Blaze AccountId) (old new : AccountId) : Decidable (b.Apart old new) :=
  decidable_of_iff ((old = new ∨ b.unconfirmedUtxoCount.getD old 0 = 0 ∨
      b.unconfirmedUtxoCount.getD new 0 = 0) ∧
    ∀ e ∈ b.utxos.toList, e.2.submitter = some old →
      (e.2.voters.filter (· ≠ old)).head?.all (· = new) = true)
    ⟨fun h => ⟨h.1, h.2⟩, fun h => ⟨h.counters, h.voters⟩⟩

/-- **The invariant** of the counters. -/
structure CoinInv (b : Blaze AccountId) (submitters : H256 → Option AccountId) : Prop where
  tallies : Tallies b.unconfirmedUtxoCount b.utxos Utxo.submitter
  first : ∀ k u, b.utxos.get k = some u → u.status = .unconfirmed →
    u.voters.head? = submitters k ∧ u.voters ≠ []
  keyed : ∀ k u, b.utxos.get k = some u → u.inner.hash = k
  bounded : ∀ a, b.unconfirmedUtxoCount.getD a 0 ≤ maxUnconfirmedUtxosPerRelayer

section Changes

variable {host : Host AccountId} {b b' : Blaze AccountId} {submitters : H256 → Option AccountId}

/-- The first voter of an unconfirmed coin is the one that it counts for. -/
lemma CoinInv.submitter (hb : CoinInv b submitters) {k : H256} {u : Utxo AccountId}
    (hu : b.utxos.get k = some u) (r : AccountId) :
    u.submitter = some r ↔ u.status = .unconfirmed ∧ submitters k = some r := by
  rw [Utxo.submitter]
  split_ifs with hstatus
  · rw [(hb.first k u hu hstatus).1]
    exact ⟨fun h => ⟨hstatus, h⟩, fun h => h.2⟩
  · exact ⟨fun h => (by cases h), fun h => absurd h.1 hstatus⟩

/-- The counters say how many unconfirmed coins a relayer submitted. -/
lemma CoinInv.counted (hb : CoinInv b submitters) (r : AccountId) :
    b.unconfirmedUtxoCount.getD r 0 = b.unconfirmedOf submitters r := by
  rw [hb.tallies r, tally, StorageMap.count, unconfirmedOf]
  refine sum_congr fun k u hu => ?_
  simp only [decide_eq_true_eq, hb.submitter hu r]

/-! ## The operations -/

omit [LinearOrder AccountId] in
/-- What is not unconfirmed counts for nobody. -/
lemma Utxo.submitter_eq_none {u : Utxo AccountId} (h : u.status ≠ .unconfirmed) :
    u.submitter = none := if_neg h

/-- The submitters of the coins that are there are the same. -/
lemma CoinInv.congr (hb : CoinInv b submitters) {submitters' : H256 → Option AccountId}
    (h : ∀ k, b.utxos.contains k = true → submitters' k = submitters k) : CoinInv b submitters' := by
  refine ⟨hb.tallies, fun k u hu hstatus => ?_, hb.keyed, hb.bounded⟩
  rw [h k (by simp [StorageMap.contains, hu])]
  exact hb.first k u hu hstatus

/-- Coins get another status, and none of them was unconfirmed. -/
lemma CoinInv.restamped (hb : CoinInv b submitters) {inputs : List UtxoInfoWithSize}
    (h : b.Restamped inputs b') (hconfirmed : b.Confirmed inputs) : CoinInv b' submitters := by
  obtain ⟨hcount, -, hutxos⟩ := h
  have hwas : ∀ k u, (∃ input ∈ inputs, input.hash = k) → b.utxos.get k = some u →
      u.status ≠ .unconfirmed := by
    rintro k u ⟨input, hmem, rfl⟩ hu
    have hall := hconfirmed input hmem
    rw [hu] at hall
    simpa using hall
  refine ⟨?_, fun k u hu hstatus => ?_, fun k u hu => ?_, ?_⟩
  · rw [hcount]
    refine hb.tallies.congr fun k => ?_
    rcases hutxos k with hk | ⟨u, status, hinput, hstatus, hu, hk⟩
    · rw [hk]
    · rw [hk, hu, Option.bind_some, Option.bind_some, Utxo.submitter_eq_none (hwas k u hinput hu),
        Utxo.submitter_eq_none hstatus]
  · rcases hutxos k with hk | ⟨u', status, -, hne, -, hk⟩
    · exact hb.first k u (hk.symm.trans hu) hstatus
    · rw [hk] at hu
      obtain rfl := Option.some.inj hu
      exact absurd hstatus hne
  · rcases hutxos k with hk | ⟨u', status, -, -, hu', hk⟩
    · exact hb.keyed k u (hk.symm.trans hu)
    · rw [hk] at hu
      obtain rfl := Option.some.inj hu
      exact hb.keyed k u' hu'
  · rw [hcount]
    exact hb.bounded

lemma discount_eq (b : Blaze AccountId) (voters : List AccountId) : b.discount voters =
    { b with unconfirmedUtxoCount := decrement b.unconfirmedUtxoCount voters.head? } := by
  rw [discount]
  cases voters.head? with
  | none => rfl
  | some a => rfl

/-- A coin is removed, and no longer counts if it was unconfirmed. -/
lemma CoinInv.remove (hb : CoinInv b submitters) {k : H256} {u : Utxo AccountId}
    (hu : b.utxos.get k = some u) : CoinInv { b with
      unconfirmedUtxoCount := decrement b.unconfirmedUtxoCount u.submitter
      utxos := b.utxos.remove k } submitters := by
  have hget : ∀ j w, (b.utxos.remove k).get j = some w → b.utxos.get j = some w := by
    intro j w hw
    rw [get_remove] at hw
    split_ifs at hw
    exact hw
  refine ⟨hb.tallies.leave hu, fun j w hw => hb.first j w (hget j w hw),
    fun j w hw => hb.keyed j w (hget j w hw), fun a => ?_⟩
  exact (decrement_le _ _ a).trans (hb.bounded a)

/-- A coin that counts for nobody is put in a free place. -/
lemma CoinInv.put (hb : CoinInv b submitters) {k : H256} {u : Utxo AccountId}
    (hk : b.utxos.get k = none) (hstatus : u.status ≠ .unconfirmed) (hhash : u.inner.hash = k) :
    CoinInv { b with utxos := b.utxos.insert k u } submitters := by
  refine ⟨hb.tallies.congr fun j => ?_, fun j w hw hunconfirmed => ?_, fun j w hw => ?_, hb.bounded⟩
  · simp only [get_insert]
    split_ifs with hj
    · rw [hj, hk, Option.bind_some, Utxo.submitter_eq_none hstatus]
      rfl
    · rfl
  · simp only [get_insert] at hw
    split_ifs at hw with hj
    · obtain rfl := Option.some.inj hw
      exact absurd hunconfirmed hstatus
    · exact hb.first j w hw hunconfirmed
  · simp only [get_insert] at hw
    split_ifs at hw with hj
    · obtain rfl := Option.some.inj hw
      rw [hj]
      exact hhash
    · exact hb.keyed j w hw

/-- A coin gets another status, and no longer counts. -/
lemma CoinInv.promote (hb : CoinInv b submitters) {k : H256} {u w : Utxo AccountId}
    (hu : b.utxos.get k = some u) (hstatus : w.status ≠ .unconfirmed) (hinner : w.inner = u.inner) :
    CoinInv { b with
      unconfirmedUtxoCount := decrement b.unconfirmedUtxoCount u.submitter
      utxos := b.utxos.insert k w } submitters := by
  have hput := (hb.remove hu).put (get_remove_self b.utxos k) hstatus
    ((congrArg UtxoInfoWithSize.hash hinner).trans (hb.keyed k u hu))
  have hmap : (b.utxos.remove k).insert k w = b.utxos.insert k w := by
    ext1 j
    rw [get_insert, get_insert, get_remove]
    split_ifs <;> rfl
  simp only [hmap] at hput
  exact hput

/-- Another vote for a coin leaves its submitter as it was. -/
lemma CoinInv.voted (hb : CoinInv b submitters) {authorityId : AccountId} {k : H256} {u : Utxo AccountId}
    (hu : b.utxos.get k = some u) (hstatus : u.status = .unconfirmed) : CoinInv { b with
      utxos := b.utxos.insert k { u with voters := u.voters ++ [authorityId] } } submitters := by
  obtain ⟨hfirst, hvoted⟩ := hb.first k u hu hstatus
  have hhead : (u.voters ++ [authorityId]).head? = u.voters.head? := List.head?_append_of_ne_nil _ hvoted
  refine ⟨hb.tallies.congr fun j => ?_, fun j w hw hunconfirmed => ?_, fun j w hw => ?_, hb.bounded⟩
  · simp only [get_insert]
    split_ifs with hj
    · rw [hj, hu, Option.bind_some, Option.bind_some, Utxo.submitter, Utxo.submitter, hhead]
    · rfl
  · simp only [get_insert] at hw
    split_ifs at hw with hj
    · obtain rfl := Option.some.inj hw
      rw [hj, hhead]
      exact ⟨hfirst, by simp⟩
    · exact hb.first j w hw hunconfirmed
  · simp only [get_insert] at hw
    split_ifs at hw with hj
    · obtain rfl := Option.some.inj hw
      rw [hj]
      exact hb.keyed k u hu
    · exact hb.keyed j w hw

/-- The vote that makes a coin available takes it off the count of its submitter. -/
lemma CoinInv.confirmed (hb : CoinInv b submitters) {authorityId : AccountId} {k : H256}
    {u : Utxo AccountId} (hu : b.utxos.get k = some u) (hstatus : u.status = .unconfirmed) :
    CoinInv { b.discount (u.voters ++ [authorityId]) with
      utxos := b.utxos.insert k
        { u with voters := u.voters ++ [authorityId], status := .available } } submitters := by
  obtain ⟨-, hvoted⟩ := hb.first k u hu hstatus
  have hlabel : (u.voters ++ [authorityId]).head? = u.submitter := by
    rw [Utxo.submitter, if_pos hstatus, List.head?_append_of_ne_nil _ hvoted]
  rw [discount_eq, hlabel]
  exact hb.promote hu (by simp) rfl

/-- A relayer that submits a new coin has one more to its count. -/
lemma CoinInv.enter (hb : CoinInv b submitters) {authorityId : AccountId} {k : H256}
    {inner : UtxoInfoWithSize} (hk : b.utxos.get k = none)
    (hquota : b.unconfirmedUtxoCount.getD authorityId 0 < maxUnconfirmedUtxosPerRelayer)
    (hnote : submitters k = some authorityId) (hhash : inner.hash = k) : CoinInv { b with
      utxos := b.utxos.insert k ⟨inner, .unconfirmed, [authorityId]⟩
      unconfirmedUtxoCount := b.unconfirmedUtxoCount.insert authorityId
        (b.unconfirmedUtxoCount.getD authorityId 0 + 1) } submitters := by
  refine ⟨hb.tallies.enter hk rfl, fun j w hw hunconfirmed => ?_, fun j w hw => ?_, fun a => ?_⟩
  · simp only [get_insert] at hw
    split_ifs at hw with hj
    · obtain rfl := Option.some.inj hw
      rw [hj]
      exact ⟨hnote.symm, by simp⟩
    · exact hb.first j w hw hunconfirmed
  · simp only [get_insert] at hw
    split_ifs at hw with hj
    · obtain rfl := Option.some.inj hw
      rw [hj]
      exact hhash
    · exact hb.keyed j w hw
  · simp only [getD_insert]
    split_ifs
    · exact hquota
    · exact hb.bounded a

/-- The submitters while a relayer submits coins: those that are new are its own. -/
def during (start : Blaze AccountId) (authorityId : AccountId) (submitters : H256 → Option AccountId) :
    H256 → Option AccountId :=
  fun k => if start.utxos.contains k then submitters k else some authorityId

/-- `submit_utxos` counts every new coin for the relayer that submits it. -/
lemma CoinInv.submitUtxos (hb : CoinInv b submitters) {relayers : Relayers AccountId}
    {getBondedDescriptor : Bytes → Option Descriptor} {authorityId : AccountId}
    {utxos : List UtxoInfo}
    (h : utxos.foldlM (Blaze.submitUtxo host relayers getBondedDescriptor authorityId) b = .ok b') :
    CoinInv b' (during b authorityId submitters) := by
  have hstart : CoinInv b (during b authorityId submitters) := by
    refine hb.congr fun k hk => ?_
    rw [during, if_pos hk]
  have hgrow : ∀ (c : Blaze AccountId) k (w : Utxo AccountId),
      (∀ j, b.utxos.contains j = true → c.utxos.contains j = true) →
      ∀ j, b.utxos.contains j = true → (c.utxos.insert k w).contains j = true := by
    intro c k w hkeys j hj
    have hj := hkeys j hj
    simp only [StorageMap.contains, get_insert] at hj ⊢
    split_ifs
    · rfl
    · exact hj
  -- a coin that comes in was not there at the start
  refine (submitUtxos_rule (P := fun c => CoinInv c (during b authorityId submitters) ∧
    ∀ k, b.utxos.contains k = true → c.utxos.contains k = true) ⟨hstart, fun _ hk => hk⟩ ?_ ?_ ?_ b' h).1
  · exact fun c k u hc hu hstatus _ _ => ⟨hc.1.confirmed hu hstatus, hgrow c k _ hc.2⟩
  · exact fun c k u hc hu hstatus _ => ⟨hc.1.voted hu hstatus, hgrow c k _ hc.2⟩
  · intro c utxo descriptor inner hc _ hinner hnone hquota
    refine ⟨hc.1.enter hnone hquota ?_ (withSize_eq_some hinner).1, hgrow c _ _ hc.2⟩
    have hnew : b.utxos.contains (utxo.hash host) = false := by
      by_contra hne
      have hthere := hc.2 _ (by simpa using hne)
      rw [StorageMap.contains, hnone] at hthere
      cases hthere
    rw [during, hnew]
    rfl

/-- **`force_push_utxos`**, after clearing. -/
lemma CoinInv.forcePushUtxos (hb : CoinInv b submitters)
    {getBondedDescriptor : Bytes → Option Descriptor} {utxos : List UtxoInfo} :
    CoinInv (utxos.foldl (Blaze.forcePushUtxo host getBondedDescriptor) b) submitters :=
  forcePushUtxos_rule (P := fun c => CoinInv c submitters) hb fun _ _ _ _ hc _ hinner hnone =>
    hc.put hnone (by simp) (withSize_eq_some hinner).1

/-- `clear_utxos` keeps the counters right. -/
lemma CoinInv.clearUtxos (hb : CoinInv b submitters) : CoinInv (b.clearUtxos host) submitters := by
  refine clearUtxos_rule (P := fun c => CoinInv c submitters) hb ?_ ?_
  · intro c k u hc hu hstatus
    have hremoved := hc.remove hu
    rw [Utxo.submitter, if_pos hstatus] at hremoved
    rw [discount_eq]
    exact hremoved
  · intro c k u hc hu hstatus _
    have hremoved := hc.remove hu
    rw [Utxo.submitter_eq_none hstatus] at hremoved
    exact hremoved

/-- **`replace_authority`**, if it keeps the counters apart. -/
lemma CoinInv.replaceAuthority (hb : CoinInv b submitters) {old new : AccountId}
    (hapart : b.Apart old new) : CoinInv (b.replaceAuthority old new)
      fun k => (submitters k).map fun a => if a = old then new else a := by
  -- the first voter is renamed, wherever the list gets its new entry
  have hhead : ∀ k u, b.utxos.get k = some u → u.status = .unconfirmed → old ∈ u.voters →
      (replaceVoter old new u.voters).head? = u.voters.head?.map fun a => if a = old then new else a := by
    intro k u hu hstatus hold
    have hvoters := hapart.voters (k, u) (mem_toList.mpr hu)
    simp only [Utxo.submitter, if_pos hstatus] at hvoters
    rw [replaceVoter]
    cases hlist : u.voters with
    | nil =>
        rw [hlist] at hold
        cases hold
    | cons a voters =>
        rw [hlist] at hvoters
        by_cases ha : a = old
        · subst ha
          have hnext := hvoters rfl
          simp only [List.head?_cons, Option.map_some, if_true, List.head?_append]
          generalize ((a :: voters).filter (· ≠ a)).head? = next at hnext
          cases next with
          | none => rfl
          | some c =>
              have hc : c = new := by simpa using hnext
              rw [hc]
              rfl
        · simp [ha]
  have hsub : ∀ k, ((b.replaceAuthority old new).utxos.get k).bind Utxo.submitter =
      ((b.utxos.get k).bind Utxo.submitter).map fun a => if a = old then new else a := by
    intro k
    simp only [Blaze.replaceAuthority, get_mapVals]
    cases hu : b.utxos.get k with
    | none => rfl
    | some u =>
        simp only [Option.map_some, Option.bind_some]
        by_cases hstatus : u.status = .unconfirmed
        · by_cases hold : old ∈ u.voters
          · rw [if_pos ⟨hstatus, hold⟩, Utxo.submitter, Utxo.submitter, if_pos hstatus, if_pos hstatus,
              hhead k u hu hstatus hold]
          · rw [if_neg (fun h => hold h.2), Utxo.submitter, if_pos hstatus]
            cases hvoters : u.voters.head? with
            | none => rfl
            | some a =>
                have ha : a ≠ old := by
                  rintro rfl
                  exact hold (List.mem_of_mem_head? hvoters)
                simp [ha]
        · rw [if_neg (fun h => hstatus h.1), Utxo.submitter_eq_none hstatus]
          rfl
  have hcount : (b.replaceAuthority old new).unconfirmedUtxoCount =
      b.unconfirmedUtxoCount.renameCount old new := rfl
  have hwas : ∀ k u, (b.replaceAuthority old new).utxos.get k = some u →
      ∃ w, b.utxos.get k = some w ∧ w.status = u.status ∧ w.inner = u.inner ∧
        (w.voters ≠ [] → u.voters ≠ []) := by
    intro k u hu
    simp only [Blaze.replaceAuthority, get_mapVals, Option.map_eq_some_iff] at hu
    obtain ⟨w, hw, rfl⟩ := hu
    refine ⟨w, hw, ?_⟩
    split_ifs
    · exact ⟨rfl, rfl, fun _ => by simp [replaceVoter]⟩
    · exact ⟨rfl, rfl, fun h => h⟩
  refine ⟨?_, fun k u hu hstatus => ?_, fun k u hu => ?_, fun a => ?_⟩
  · rw [hcount]
    exact hb.tallies.rename hsub hapart.counters
  · obtain ⟨w, hw, hwstatus, -, hvoted⟩ := hwas k u hu
    obtain ⟨hfirst, hne⟩ := hb.first k w hw (hwstatus.trans hstatus)
    refine ⟨?_, hvoted hne⟩
    have hk := hsub k
    rw [hu, hw, Option.bind_some, Option.bind_some, Utxo.submitter, Utxo.submitter, if_pos hstatus,
      if_pos (hwstatus.trans hstatus), hfirst] at hk
    exact hk
  · obtain ⟨w, hw, -, hinner, -⟩ := hwas k u hu
    rw [← hinner]
    exact hb.keyed k w hw
  · rw [hcount]
    exact renameCount_le _ _ _ _ hb.bounded

end Changes

end Blaze

/-! ## Runs -/

/-- Who submitted the coins, after a step: a relayer is noted with the coins that are new when it
submits some, and followed when it is replaced. -/
def noteSubmitters (s : Bridge AccountId) (i : Bridge.Step AccountId) (s' : Bridge AccountId)
    (submitters : H256 → Option AccountId) : H256 → Option AccountId :=
  match i with
  | .replaceAuthority old new => fun k => (submitters k).map fun a => if a = old then new else a
  | .blaze _ (.submitUtxos sub) => fun k =>
      if !s.blaze.utxos.contains k && s'.blaze.utxos.contains k then some sub.authorityId
      else submitters k
  | _ => submitters

/-- The watched runs all of whose steps meet a condition. -/
def CoinsIf (host : Host AccountId) (cond : Bridge AccountId → Bridge.Step AccountId → Prop)
    (x : Bridge AccountId × (H256 → Option AccountId)) : Prop :=
  Reachable (fun x => (∃ members authority, x.1 = .genesis host members authority) ∧
    x.2 = fun _ => none) (watched (Bridge.step host) noteSubmitters) (fun x i => cond x.1 i) x

/-- A replacement keeps the counters and the submitters. -/
def Bridge.Step.KeepsApart (s : Bridge AccountId) : Bridge.Step AccountId → Prop
  | .replaceAuthority old new => s.blaze.Apart old new
  | _ => True

/-- **The condition.**  No coin that is still unconfirmed is locked, given back or spent, and a
replacement keeps the counters and the submitters. -/
structure Bridge.Step.Counted (host : Host AccountId) (s : Bridge AccountId)
    (i : Bridge.Step AccountId) : Prop where
  confirmed : s.blaze.Confirmed (s.touched host i)
  apart : i.KeepsApart s

section Runs

variable {host : Host AccountId} {s s' : Bridge AccountId} {i : Bridge.Step AccountId}
  {submitters : H256 → Option AccountId}

/-- The submitters of coins that were there before are as they were. -/
lemma noteSubmitters_eq (hi : ∀ old new, i ≠ .replaceAuthority old new)
    (hkeys : ∀ k, s'.blaze.utxos.contains k = true → s.blaze.utxos.contains k = true ∨
      ∀ v sub, i ≠ .blaze v (.submitUtxos sub)) :
    ∀ k, s'.blaze.utxos.contains k = true → noteSubmitters s i s' submitters k = submitters k := by
  intro k hk
  unfold noteSubmitters
  split
  case h_1 old new => exact absurd rfl (hi old new)
  case h_2 v sub =>
    rcases hkeys k hk with hthere | hother
    · rw [hthere]
      rfl
    · exact absurd rfl (hother v sub)
  case h_3 => rfl

omit [LinearOrder AccountId] in
lemma Blaze.Restamped.contains {b b' : Blaze AccountId} {inputs : List UtxoInfoWithSize}
    (h : b.Restamped inputs b') {k : H256} (hk : b'.utxos.contains k = true) :
    b.utxos.contains k = true := by
  have hinner := congrArg Option.isSome (h.inner k)
  rw [Option.isSome_map, Option.isSome_map] at hinner
  rw [StorageMap.contains, ← hinner]
  exact hk

/-- **Every step** that meets the condition keeps the counters right. -/
lemma Blaze.CoinInv.step (hs : s.blaze.CoinInv submitters) (hcond : i.Counted host s)
    (h : s.step host i = some s') : s'.blaze.CoinInv (noteSubmitters s i s' submitters) := by
  by_cases hrename : ∃ old new, i = .replaceAuthority old new
  · obtain ⟨old, new, rfl⟩ := hrename
    obtain rfl := Option.some.inj h
    exact hs.replaceAuthority hcond.apart
  · have hi : ∀ old new, i ≠ .replaceAuthority old new := fun old new h => hrename ⟨old, new, h⟩
    cases Bridge.step_blaze h with
    | submitted v sub hcall hloop =>
        subst hcall
        refine (hs.submitUtxos hloop).congr fun k hk => ?_
        simp only [noteSubmitters, Blaze.during, hk, Bool.and_true]
        cases s.blaze.utxos.contains k <;> rfl
    | rated v sub hcall hrate =>
        subst hcall
        simp only [Blaze.submitFeeRate, bind_eq_ok, ensure_eq_ok, okOr_eq_ok, pure_eq_ok, exists_const,
          Blaze.verifyAuthority, Blaze.ensureActivation] at hrate
        obtain ⟨-, -, -, -, -, feeRates, -, hrate⟩ := hrate
        rw [← hrate]
        exact ⟨hs.tallies, hs.first, hs.keyed, hs.bounded⟩
    | touched hstamp =>
        exact (hs.restamped hstamp hcond.confirmed).congr
          (noteSubmitters_eq hi fun k hk => .inl (hstamp.contains hk))
    | locked selected hstamp havailable =>
        refine (hs.restamped hstamp fun input hmem => ?_).congr
          (noteSubmitters_eq hi fun k hk => .inl (hstamp.contains hk))
        obtain ⟨k, u, hu, hstatus, rfl⟩ := havailable input hmem
        rw [hs.keyed k u hu, hu, Option.all_some, hstatus]
        rfl
    | cleared utxos hother heq =>
        rw [heq]
        refine hs.clearUtxos.forcePushUtxos.congr ?_
        rw [← heq]
        exact noteSubmitters_eq hi fun k hk => .inr hother
    | renamed old new hcall => exact absurd hcall (hi old new)

lemma CoinsIf.inv {x : Bridge AccountId × (H256 → Option AccountId)}
    (h : CoinsIf host (fun s i => i.Counted host s) x) : x.1.blaze.CoinInv x.2 := by
  refine Reachable.invariant (P := fun x => x.1.blaze.CoinInv x.2) ?_ ?_ h
  · rintro x ⟨⟨members, authority, hx⟩, -⟩
    rw [hx]
    refine ⟨fun a => rfl, fun k u hu => ?_, fun k u hu => ?_, fun a => Nat.zero_le _⟩
    · cases hu
    · cases hu
  · intro x i x' hx hcond hstep
    obtain ⟨hstep, hnote⟩ := watched_eq_some hstep
    rw [hnote]
    exact hx.step hcond hstep

/-- **The quota is exact**, in every run in which no unconfirmed coin is locked, given back or spent and
every replacement keeps counters and submitters: the counter of a relayer is the number of unconfirmed
coins that it submitted, and it is within the limit. -/
theorem coins_counted {x : Bridge AccountId × (H256 → Option AccountId)}
    (h : CoinsIf host (fun s i => i.Counted host s) x) (r : AccountId) :
    x.1.blaze.unconfirmedUtxoCount.getD r 0 = x.1.blaze.unconfirmedOf x.2 r ∧
    x.1.blaze.unconfirmedUtxoCount.getD r 0 ≤ Blaze.maxUnconfirmedUtxosPerRelayer :=
  ⟨h.inv.counted r, h.inv.bounded r⟩

end Runs

/-! ## Small runs

A coin is kept under the txid of its transaction.  User 7 has the address `[1, 10, 20]`. -/

section Small

def coinHost : Host ℕ := { smallHost with
  codec := { sampleCodec with keccak256 := fun bytes => Fin.ofNat _ (bytes.getD 31 0).toNat }
  lib := { smallHost.lib with descriptorFromStr := fun text => some ⟨text, [9], [1], []⟩ } }

/-- Three votes are a majority of the relayers. -/
def coinView : View ℕ := { smallView with relayers := ⟨fun a => a ≤ 4, 3⟩ }

/-- A relayer submits the coin of a transaction. -/
def coinVote (authority : ℕ) (txid : H256) : Bridge.Step ℕ :=
  .blaze coinView (.submitUtxos ⟨authority, [⟨txid, 0, 1000, [1, 10, 20]⟩]⟩)

/-- A vault for user 7, and Blaze is activated. -/
def coinStart : List (Bridge.Step ℕ) :=
  [.pool coinView (.requestVault regtestOutlook (.signed 7) [5]),
    .pool coinView (.submitVaultKey regtestOutlook ⟨1, 7, [20], 1⟩),
    .pool coinView (.submitVaultKey regtestOutlook ⟨2, 7, [10], 1⟩),
    .blaze coinView (.setActivation .root true)]

instance (s : Bridge ℕ) (i : Bridge.Step ℕ) : Decidable (i.KeepsApart s) :=
  match i with
  | .replaceAuthority old new => inferInstanceAs (Decidable (s.blaze.Apart old new))
  | .pool _ _ | .blaze _ _ | .queue _ _ | .onInitialize _ => .isTrue trivial

instance (s : Bridge ℕ) (i : Bridge.Step ℕ) : Decidable (i.Counted coinHost s) :=
  decidable_of_iff
    ((∀ input ∈ s.touched coinHost i,
      (s.blaze.utxos.get input.hash).all (fun u => u.status ≠ .unconfirmed) = true) ∧ i.KeepsApart s)
    ⟨fun h => ⟨h.1, h.2⟩, fun h => ⟨h.confirmed, h.apart⟩⟩

/-- What a run shows, it shows of a reachable state. -/
lemma coinRun_exists (cond : Bridge ℕ → Bridge.Step ℕ → Prop) [∀ s i, Decidable (cond s i)]
    (steps : List (Bridge.Step ℕ)) {P : Bridge ℕ × (H256 → Option ℕ) → Bool}
    (h : (runSteps (checked (watched (Bridge.step coinHost) noteSubmitters) fun x i => cond x.1 i)
      (.genesis coinHost [1, 2] none, fun _ => none) steps).any P = true) :
    ∃ x, CoinsIf coinHost cond x ∧ P x = true := by
  obtain ⟨x, hx, hP⟩ := (Option.any_eq_true _ _).mp h
  exact ⟨x, Reachable.runChecked (.init ⟨⟨_, _, rfl⟩, rfl⟩) hx, hP⟩

/-- Relayer 1 submits two coins, account 4 takes its place, and one of the coins gets its majority. -/
theorem coins_counted_small : ∃ x : Bridge ℕ × (H256 → Option ℕ),
    CoinsIf coinHost (fun s i => i.Counted coinHost s) x ∧
    x.1.blaze.unconfirmedUtxoCount.getD 4 0 = 1 ∧ x.1.blaze.unconfirmedOf x.2 4 = 1 := by
  have hrun := coinRun_exists (fun s i => i.Counted coinHost s)
    (coinStart ++ [coinVote 1 50, coinVote 1 60, .replaceAuthority 1 4, coinVote 2 60, coinVote 3 60])
    (P := fun x => x.1.blaze.unconfirmedUtxoCount.getD 4 0 = 1) (by decide +kernel)
  obtain ⟨x, hx, hP⟩ := hrun
  have hcount : x.1.blaze.unconfirmedUtxoCount.getD 4 0 = 1 := of_decide_eq_true hP
  exact ⟨x, hx, hcount, (coins_counted hx 4).1.symm.trans hcount⟩

/-- **A submitter is lost.**  Relayer 1 submits a coin and relayer 2 votes for it.  Account 4 takes the
place of relayer 1, and the coin gets its majority.  It still counts for account 4. -/
theorem coins_miscounted : ∃ x : Bridge ℕ × (H256 → Option ℕ), CoinsIf coinHost anyStep x ∧
    x.1.blaze.unconfirmedUtxoCount.getD 4 0 = 1 ∧ x.1.blaze.unconfirmedOf x.2 4 = 0 := by
  have hrun := coinRun_exists anyStep
    (coinStart ++ [coinVote 1 50, coinVote 2 50, .replaceAuthority 1 4, coinVote 3 50])
    (P := fun x => decide (x.1.blaze.unconfirmedUtxoCount.getD 4 0 = 1) &&
      decide (x.1.blaze.unconfirmedOf x.2 4 = 0)) (by decide +kernel)
  obtain ⟨x, hx, hP⟩ := hrun
  simp only [Bool.and_eq_true, decide_eq_true_eq] at hP
  exact ⟨x, hx, hP⟩

end Small

end BifrostNode.Btc
