import BifrostNode.Cccp.Lifecycle
import BifrostNode.Lib.Ballots

/-!
# Who votes for transfers

**Votes** keep whatever is good about the ballots of the relay queue, if a vote of somebody new does
(`EveryBallot.step`).

**Every ballot has distinct voters**, as far as votes go: `add_voter_to_list` looks at the ballot.
`replace_authority` does not, so it puts somebody on a ballot twice exactly if it finds both accounts
there.  It rewrites the voters of pending transfers and those for the end of a transfer on flight, and no
others.
-/

namespace BifrostNode.Cccp

open Staking Transition StorageMap

variable {AccountId : Type}

namespace RelayQueue

/-- **Nobody is on a ballot twice**, at any stage of a transfer. -/
structure VotersDistinct (s : RelayQueue AccountId) : Prop where
  pending : s.pendingTransfers.Every fun _ t => t.onFlightVoters.Nodup
  onFlight : s.onFlightTransfers.Every fun _ t => t.onFlightVoters.Nodup ∧ t.finalizationVoters.Nodup
  finalized : s.finalizedTransfers.Every fun _ t => t.onFlightVoters.Nodup ∧ t.finalizationVoters.Nodup

/-- No ballot that `replace_authority` rewrites has both accounts on it. -/
structure Uncontested (old new : AccountId) (s : RelayQueue AccountId) : Prop where
  pending : s.pendingTransfers.Every fun _ t => Ballots.Uncontested old new t.onFlightVoters
  onFlight : s.onFlightTransfers.Every fun _ t => Ballots.Uncontested old new t.finalizationVoters

/-- **Every ballot** is good. -/
structure EveryBallot (good : List AccountId → Prop) (s : RelayQueue AccountId) : Prop where
  pending : s.pendingTransfers.Every fun _ t => good t.onFlightVoters
  onFlight : s.onFlightTransfers.Every fun _ t => good t.onFlightVoters ∧ good t.finalizationVoters
  finalized : s.finalizedTransfers.Every fun _ t => good t.onFlightVoters ∧ good t.finalizationVoters

lemma genesis_everyBallot {good : List AccountId → Prop} :
    (genesis : RelayQueue AccountId).EveryBallot good := ⟨.empty, .empty, .empty⟩

lemma votersDistinct_iff {s : RelayQueue AccountId} : s.VotersDistinct ↔ s.EveryBallot List.Nodup :=
  ⟨fun h => ⟨h.pending, h.onFlight, h.finalized⟩, fun h => ⟨h.pending, h.onFlight, h.finalized⟩⟩

lemma genesis_votersDistinct : (genesis : RelayQueue AccountId).VotersDistinct :=
  votersDistinct_iff.mpr genesis_everyBallot

end RelayQueue

/-- The step takes votes only from those who may vote. -/
def Step.TakesFrom (may : AccountId → Prop) : Step AccountId → Prop
  | .onFlightPoll o _ => ∀ a, o.isAuthority a = true → may a
  | .finalizePoll o _ => ∀ a, o.isAuthority a = true → may a
  | _ => True

lemma Step.takesFrom_true (i : Step AccountId) : i.TakesFrom fun _ => True := by
  cases i <;> simp only [TakesFrom, implies_true]

section Steps

variable {i : Step AccountId} {s s' : RelayQueue AccountId} {good : List AccountId → Prop}
  {may : AccountId → Prop}

lemma RelayQueue.EveryBallot.aside (hs : s.EveryBallot good) (h : Aside s s') : s'.EveryBallot good := by
  obtain ⟨hpending, hflight, hfinal⟩ := h
  refine ⟨?_, ?_, ?_⟩
  · rw [hpending]
    exact hs.pending
  · rw [hflight]
    exact hs.onFlight
  · rw [hfinal]
    exact hs.finalized

variable [LinearOrder AccountId] {host : Host}

instance decidableUncontested (old new : AccountId) (s : RelayQueue AccountId) :
    Decidable (s.Uncontested old new) :=
  decidable_of_iff
    (s.pendingTransfers.Every (fun _ t => Ballots.Uncontested old new t.onFlightVoters) ∧
      s.onFlightTransfers.Every fun _ t => Ballots.Uncontested old new t.finalizationVoters)
    ⟨fun h => ⟨h.1, h.2⟩, fun h => ⟨h.pending, h.onFlight⟩⟩

omit [LinearOrder AccountId] in
/-- The entry that a vote leads to. -/
lemma Polled.ballot {o : Outlook AccountId} {sub : OnFlightPollSubmission AccountId}
    {parsed : SocketMessage} {info : TransferInfo AccountId} (h : Polled host o s sub parsed info)
    (hgood : Ballots.KeptByVotes good may) (ho : ∀ a, o.isAuthority a = true → may a)
    (hs : s.EveryBallot good) : good info.onFlightVoters := by
  have hvoter := ho _ h.authority
  rcases h.entry with ⟨pending, hpending, hfresh, hinfo⟩ | ⟨-, hvoters, -⟩
  · rw [hinfo]
    exact hgood.vote _ _ (hs.pending _ pending hpending) hvoter hfresh
  · rw [hvoters]
    exact hgood.single hvoter

lemma onFlightPoll_everyBallot {o : Outlook AccountId} {sub : OnFlightPollSubmission AccountId}
    (hgood : Ballots.KeptByVotes good may) (ho : ∀ a, o.isAuthority a = true → may a)
    (hs : s.EveryBallot good) :
    Returns (RelayQueue.EveryBallot good) (s.onFlightPoll host o sub) := by
  intro s' h
  obtain ⟨parsed, info, hp, ⟨-, s₁, h₁, rfl⟩ | ⟨-, rfl⟩⟩ := onFlightPoll_ok h
  · have hs₁ := hs.aside (takeCap_aside s₁ h₁)
    exact ⟨hs₁.pending.filterKeys _, hs₁.onFlight.insert ⟨hp.ballot hgood ho hs, hgood.nil⟩,
      hs₁.finalized⟩
  · exact ⟨hs.pending.insert (hp.ballot hgood ho hs), hs.onFlight, hs.finalized⟩

lemma finalizePoll_everyBallot {o : Outlook AccountId} {sub : FinalizePollSubmission AccountId}
    (hgood : Ballots.KeptByVotes good may) (ho : ∀ a, o.isAuthority a = true → may a)
    (hs : s.EveryBallot good) :
    Returns (RelayQueue.EveryBallot good) (s.finalizePoll host o sub) := by
  intro s' h
  obtain ⟨parsed, t, hc, hcase⟩ := finalizePoll_ok h
  have hvoters : good (t.closedBy sub.authorityId).onFlightVoters ∧
      good (t.closedBy sub.authorityId).finalizationVoters := by
    obtain ⟨hflight, hend⟩ := hs.onFlight _ t hc.onFlight
    exact ⟨hflight, hgood.vote _ _ hend (ho _ hc.authority) hc.fresh⟩
  rcases hcase with ⟨hfinal, -⟩ | ⟨-, rfl⟩
  · obtain ⟨caps, rfl, -⟩ := finalize_ok hfinal
    exact ⟨hs.pending, hs.onFlight.remove _, hs.finalized.insert hvoters⟩
  · exact ⟨hs.pending, hs.onFlight.insert hvoters, hs.finalized⟩

/-- **Step lemma**, for everything but replacements. -/
lemma RelayQueue.EveryBallot.step (hs : s.EveryBallot good) (hgood : Ballots.KeptByVotes good may)
    (hmay : i.TakesFrom may) (hi : ∀ old new, i ≠ .replaceAuthority old new)
    (h : s.step host i = some s') : s'.EveryBallot good := by
  rcases step_cases h with hside | ⟨o, sub, rfl, hpoll⟩ | ⟨o, sub, rfl, hpoll⟩ | ⟨old, new, heq, -⟩
  · exact hs.aside hside
  · exact onFlightPoll_everyBallot hgood hmay hs s' hpoll
  · exact finalizePoll_everyBallot hgood hmay hs s' hpoll
  · exact absurd heq (hi old new)

lemma RelayQueue.VotersDistinct.step (hs : s.VotersDistinct) (hi : ∀ old new, i ≠ .replaceAuthority old new)
    (h : s.step host i = some s') : s'.VotersDistinct :=
  votersDistinct_iff.mpr ((votersDistinct_iff.mp hs).step Ballots.nodup_kept i.takesFrom_true hi h)

/-- **A replacement** keeps voters distinct exactly if no ballot has both accounts. -/
lemma RelayQueue.VotersDistinct.replaceAuthority_iff (hs : s.VotersDistinct) (old new : AccountId) :
    (s.replaceAuthority old new).VotersDistinct ↔ s.Uncontested old new := by
  have hpending : (s.replaceAuthority old new).pendingTransfers.Every
        (fun _ t => t.onFlightVoters.Nodup) ↔
      s.pendingTransfers.Every fun _ t => Ballots.Uncontested old new t.onFlightVoters := by
    rw [RelayQueue.replaceAuthority, every_mapVals]
    exact every_congr fun k t ht => Ballots.nodup_replace_iff (hs.pending k t ht)
  have hflight : (s.replaceAuthority old new).onFlightTransfers.Every
        (fun _ t => t.onFlightVoters.Nodup ∧ t.finalizationVoters.Nodup) ↔
      s.onFlightTransfers.Every fun _ t => Ballots.Uncontested old new t.finalizationVoters := by
    rw [RelayQueue.replaceAuthority, every_mapVals]
    refine every_congr fun k t ht => ?_
    obtain ⟨honce, hend⟩ := hs.onFlight k t ht
    exact (and_iff_right honce).trans (Ballots.nodup_replace_iff hend)
  exact ⟨fun h => ⟨hpending.mp h.pending, hflight.mp h.onFlight⟩,
    fun h => ⟨hpending.mpr h.pending, hflight.mpr h.onFlight, hs.finalized⟩⟩

/-! ## Majorities -/

/-- **A transfer gets on flight** by a vote that makes a majority. -/
lemma launched_by_majority (h : s.step host i = some s') {k : H256}
    {t : TransferInfoWithTxId AccountId} (hk : s.onFlightTransfers.get k = none)
    (ht : s'.onFlightTransfers.get k = some t) :
    ∃ o sub, i = .onFlightPoll o sub ∧ o.majority ≤ t.onFlightVoters.length := by
  rcases step_cases h with ⟨-, hflight, -⟩ | ⟨o, sub, rfl, hpoll⟩ | ⟨o, sub, rfl, hpoll⟩ |
    ⟨old, new, rfl, rfl⟩
  · rw [hflight, hk] at ht
    cases ht
  · obtain ⟨parsed, info, hp, ⟨hmajority, s₁, h₁, rfl⟩ | ⟨-, rfl⟩⟩ := onFlightPoll_ok hpoll
    · obtain ⟨-, hflight, -⟩ : Aside s s₁ := takeCap_aside s₁ h₁
      replace ht : (s₁.onFlightTransfers.insert sub.msgHash (.fromTransferInfo info sub.srcTxId)).get k =
        some t := ht
      rw [get_insert, hflight, hk] at ht
      split_ifs at ht
      obtain rfl := Option.some.inj ht
      exact ⟨o, sub, rfl, hmajority⟩
    · cases hk.symm.trans ht
  · obtain ⟨parsed, transfer, hc, ⟨hfinal, -⟩ | ⟨-, rfl⟩⟩ := finalizePoll_ok hpoll
    · obtain ⟨caps, rfl, -⟩ := finalize_ok hfinal
      simp only [get_remove, hk, ite_self] at ht
      cases ht
    · simp only [get_insert] at ht
      split_ifs at ht with heq
      · rw [heq, hc.onFlight] at hk
        cases hk
      · cases hk.symm.trans ht
  · simp only [RelayQueue.replaceAuthority, get_mapVals, hk, Option.map_none] at ht
    cases ht

/-- **A transfer is finalized** by a vote that makes a majority, if it is not an outbound one. -/
lemma finalized_by_majority (h : s.step host i = some s') {k : H256}
    {t : TransferInfoWithTxId AccountId} (hk : s.finalizedTransfers.get k = none)
    (ht : s'.finalizedTransfers.get k = some t) :
    ∃ o sub parsed, i = .finalizePoll o sub ∧
      SocketMessage.tryFrom host.codec sub.msg = some parsed ∧
      (parsed.isOutbound host.chainId = true ∨ o.majority ≤ t.finalizationVoters.length) := by
  rcases step_cases h with ⟨-, -, hfinal⟩ | ⟨o, sub, rfl, hpoll⟩ | ⟨o, sub, rfl, hpoll⟩ |
    ⟨old, new, rfl, rfl⟩
  · rw [hfinal, hk] at ht
    cases ht
  · obtain ⟨parsed, info, hp, ⟨-, s₁, h₁, rfl⟩ | ⟨-, rfl⟩⟩ := onFlightPoll_ok hpoll
    · obtain ⟨-, -, hfinal⟩ : Aside s s₁ := takeCap_aside s₁ h₁
      replace ht : s₁.finalizedTransfers.get k = some t := ht
      rw [hfinal, hk] at ht
      cases ht
    · cases hk.symm.trans ht
  · obtain ⟨parsed, transfer, hc, ⟨hclose, hmajority⟩ | ⟨-, rfl⟩⟩ := finalizePoll_ok hpoll
    · obtain ⟨caps, rfl, -⟩ := finalize_ok hclose
      simp only [get_insert, hk] at ht
      split_ifs at ht
      obtain rfl := Option.some.inj ht
      exact ⟨o, sub, parsed, rfl, hc.parses, hmajority⟩
    · cases hk.symm.trans ht
  · cases hk.symm.trans ht

end Steps

end BifrostNode.Cccp
