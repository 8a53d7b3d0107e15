import BifrostNode.Relay.Pallets
import BifrostNode.Btc.Votes
import BifrostNode.Cccp.Votes

/-!
# Majorities are made of relayers

A transfer, a coin or a broadcast is decided by a ballot that is as long as the majority of the relayers.
That is a majority as long as nobody is on a ballot twice.

* **Votes** never put somebody on a ballot twice.
* **Replacements** do, if a relayer is replaced by an account that has voted for the same thing: relayers
  that leave keep their votes, and their accounts may become relayers again (`voter_counted_twice`).
* **Every majority is one of distinct voters** in runs in which no replacement meets such a ballot.
-/

namespace BifrostNode.Relay

open Staking Transition

/-! ## Ballots of the pallets -/

namespace Pallets

variable {AccountId : Type} {q : Pallets AccountId}

/-- **Nobody is on a ballot twice**, in the relay queue or in Blaze. -/
structure VotersDistinct (q : Pallets AccountId) : Prop where
  relayQueue : q.relayQueue.VotersDistinct
  blaze : q.bridge.blaze.VotersDistinct

/-- No ballot that a replacement rewrites has both accounts on it. -/
structure Uncontested (old new : AccountId) (q : Pallets AccountId) : Prop where
  relayQueue : q.relayQueue.Uncontested old new
  blaze : q.bridge.blaze.Uncontested old new

variable [LinearOrder AccountId]

instance decidableUncontested (old new : AccountId) (q : Pallets AccountId) :
    Decidable (q.Uncontested old new) :=
  decidable_of_iff (q.relayQueue.Uncontested old new ∧ q.bridge.blaze.Uncontested old new)
    ⟨fun h => ⟨h.1, h.2⟩, fun h => ⟨h.relayQueue, h.blaze⟩⟩

/-- **A replacement** keeps voters distinct exactly if no ballot has both accounts. -/
lemma VotersDistinct.replaceAuthority_iff (h : q.VotersDistinct) (old new : AccountId) :
    (q.replaceAuthority old new).VotersDistinct ↔ q.Uncontested old new := by
  have hqueue := h.relayQueue.replaceAuthority_iff old new
  have hblaze := h.blaze.replaceAuthority_iff old new
  exact ⟨fun h' => ⟨hqueue.mp h'.relayQueue, hblaze.mp h'.blaze⟩,
    fun h' => ⟨hqueue.mpr h'.relayQueue, hblaze.mpr h'.blaze⟩⟩

/-! ## Steps of the pallets -/

section Steps

variable {host : Btc.Host AccountId} {r : Relayers AccountId (Pallets AccountId)} {q' : Pallets AccountId}

omit [LinearOrder AccountId] in
/-- Replacements are not steps of the pallets. -/
lemma queueStep_ne {f : Cccp.Outlook AccountId → Cccp.Outlook AccountId} {i j : Cccp.Step AccountId}
    (h : queueStep f i = some j) (old new : AccountId) : j ≠ .replaceAuthority old new := by
  rintro rfl
  cases i <;> cases h

omit [LinearOrder AccountId] in
lemma bridgeStep_ne {f : Btc.View AccountId → Btc.View AccountId} {i j : Btc.Bridge.Step AccountId}
    (h : bridgeStep f i = some j) (old new : AccountId) : j ≠ .replaceAuthority old new := by
  rintro rfl
  cases i <;> cases h

/-- **Step lemma.**  No step of a pallet puts anybody on a ballot twice. -/
lemma VotersDistinct.step {i : Step AccountId} (hr : r.queues.VotersDistinct)
    (h : Pallets.step host r i = some q') : q'.VotersDistinct := by
  rcases step_cases h with ⟨k, j, -, hj, hstep, hbridge⟩ | ⟨k, j, -, hj, hstep, hqueue⟩
  · refine ⟨hr.relayQueue.step (queueStep_ne hj) hstep, ?_⟩
    rw [hbridge]
    exact hr.blaze
  · refine ⟨?_, hr.blaze.step (bridgeStep_ne hj) hstep⟩
    rw [hqueue]
    exact hr.relayQueue

end Steps

end Pallets

/-! ## Replacements -/

section Replacements

variable {AccountId : Type} [LinearOrder AccountId]

/-- The requests, taken one after the other, do not meet a ballot with both accounts. -/
def Relayers.ReplacesUncontested :
    Relayers AccountId (Pallets AccountId) → List (DelayedRelayerSet AccountId) → Prop
  | _, [] => True
  | r, x :: sets => ((r.relayerState.get x.old).isSome → r.queues.Uncontested x.old x.new) ∧
      (r.applyRelayerSet Pallets.replaceAuthority x).ReplacesUncontested sets

instance Relayers.decidableReplacesUncontested : ∀ (sets : List (DelayedRelayerSet AccountId))
    (r : Relayers AccountId (Pallets AccountId)), Decidable (r.ReplacesUncontested sets)
  | [], _ => .isTrue trivial
  | _ :: sets, _ =>
      have := decidableReplacesUncontested sets
      inferInstanceAs (Decidable (_ ∧ _))

/-- Replacements that are uncontested when they come put nobody on a ballot twice. -/
lemma Relayers.ReplacesUncontested.votersDistinct :
    ∀ {sets : List (DelayedRelayerSet AccountId)} {r : Relayers AccountId (Pallets AccountId)},
      r.ReplacesUncontested sets → r.queues.VotersDistinct →
      (sets.foldl (applyRelayerSet Pallets.replaceAuthority) r).queues.VotersDistinct := by
  intro sets
  induction sets with
  | nil => exact fun _ hr => hr
  | cons x sets ih =>
      intro r hsets hr
      rw [List.foldl_cons]
      refine ih hsets.2 ?_
      rw [applyRelayerSet_queues]
      split_ifs with hold
      · exact (hr.replaceAuthority_iff x.old x.new).mpr (hsets.1 hold)
      · exact hr

/-- No replacement of a turn meets a ballot with both accounts. -/
def UncontestedTurn (s : State AccountId (Option (Relayers AccountId (Pallets AccountId)))) :
    Turn AccountId → Prop
  | .network i => ∀ r ∈ roundBegins s i,
      Relayers.ReplacesUncontested { r with delayedRelayerSets := r.delayedRelayerSets.remove s.now }
        (r.delayedRelayerSets.getD s.now [])
  | .pallets _ => True

instance (s : State AccountId (Option (Relayers AccountId (Pallets AccountId)))) (i : Turn AccountId) :
    Decidable (UncontestedTurn s i) :=
  match i with
  | .network j => inferInstanceAs (Decidable (∀ r ∈ roundBegins s j,
      Relayers.ReplacesUncontested { r with delayedRelayerSets := r.delayedRelayerSets.remove s.now }
        (r.delayedRelayerSets.getD s.now [])))
  | .pallets _ => .isTrue trivial

end Replacements

/-! ## Majorities -/

section Majorities

variable {AccountId : Type} [LinearOrder AccountId] {cfg : Config AccountId} {host : Btc.Host AccountId}
  {s s' : State AccountId (Option (Relayers AccountId (Pallets AccountId)))}
  {r r' : Relayers AccountId (Pallets AccountId)}

/-- **What is decided in a turn, a majority of distinct voters decides.**  The end of a transfer that
leaves is decided by one vote, together with the Socket contract. -/
structure Decides (host : Btc.Host AccountId) (i : Turn AccountId)
    (r r' : Relayers AccountId (Pallets AccountId)) : Prop where
  launched : ∀ k t, r.queues.relayQueue.onFlightTransfers.get k = none →
    r'.queues.relayQueue.onFlightTransfers.get k = some t →
    r.majority ≤ t.onFlightVoters.toFinset.card
  finalized : ∀ k t, r.queues.relayQueue.finalizedTransfers.get k = none →
    r'.queues.relayQueue.finalizedTransfers.get k = some t →
    r.majority ≤ t.finalizationVoters.toFinset.card ∨
      ∃ o sub parsed, i = .pallets (.relayQueue (.finalizePoll o sub)) ∧
        Cccp.SocketMessage.tryFrom host.codec sub.msg = some parsed ∧
        parsed.isOutbound host.chainId = true
  available : ∀ v sub, i = .pallets (.bridge (.blaze v (.submitUtxos sub))) → ∀ k u,
    (∀ w, r.queues.bridge.blaze.utxos.get k = some w → w.status ≠ .available) →
    r'.queues.bridge.blaze.utxos.get k = some u → u.status = .available →
    r.majority ≤ u.voters.toFinset.card
  confirmed : ∀ k tx, r.queues.bridge.blaze.confirmedTxs.get k = none →
    r'.queues.bridge.blaze.confirmedTxs.get k = some tx → r.majority ≤ tx.voters.toFinset.card

/-- Nothing is on file that was not. -/
structure Pallets.Files (q q' : Pallets AccountId) : Prop where
  onFlight : ∀ k, q.relayQueue.onFlightTransfers.get k = none →
    q'.relayQueue.onFlightTransfers.get k = none
  finalized : ∀ k, q.relayQueue.finalizedTransfers.get k = none →
    q'.relayQueue.finalizedTransfers.get k = none
  confirmed : ∀ k, q.bridge.blaze.confirmedTxs.get k = none →
    q'.bridge.blaze.confirmedTxs.get k = none

omit [LinearOrder AccountId] in
lemma Pallets.Files.refl (q : Pallets AccountId) : q.Files q :=
  ⟨fun _ h => h, fun _ h => h, fun _ h => h⟩

/-- **A replacement** files nothing. -/
lemma Pallets.replaceAuthority_files (q : Pallets AccountId) (old new : AccountId) :
    q.Files (q.replaceAuthority old new) := by
  refine ⟨fun k hk => ?_, fun k hk => hk, fun k hk => hk⟩
  show StorageMap.get (StorageMap.mapVals _ _) k = none
  rw [StorageMap.get_mapVals, hk, Option.map_none]

lemma Relayers.applyRelayerSets_files : ∀ (sets : List (DelayedRelayerSet AccountId))
    (r : Relayers AccountId (Pallets AccountId)),
      r.queues.Files (sets.foldl (applyRelayerSet Pallets.replaceAuthority) r).queues := by
  intro sets
  induction sets with
  | nil => exact fun r => .refl r.queues
  | cons x sets ih =>
      intro r
      have hone : r.queues.Files (r.applyRelayerSet Pallets.replaceAuthority x).queues := by
        rw [applyRelayerSet_queues]
        split_ifs
        · exact r.queues.replaceAuthority_files x.old x.new
        · exact .refl r.queues
      have hrest := ih (r.applyRelayerSet Pallets.replaceAuthority x)
      rw [List.foldl_cons]
      exact ⟨fun k hk => hrest.onFlight k (hone.onFlight k hk),
        fun k hk => hrest.finalized k (hone.finalized k hk),
        fun k hk => hrest.confirmed k (hone.confirmed k hk)⟩

lemma Decides.of_files {i : Turn AccountId} (h : r.queues.Files r'.queues)
    (hi : ∀ j, i ≠ .pallets j) : Decides host i r r' := by
  refine ⟨fun k t hk ht => ?_, fun k t hk ht => ?_, fun v sub hsub => absurd hsub (hi _),
    fun k tx hk htx => ?_⟩
  · cases (h.onFlight k hk).symm.trans ht
  · cases (h.finalized k hk).symm.trans ht
  · cases (h.confirmed k hk).symm.trans htx

/-- A step of a pallet decides only what a majority of distinct voters has decided. -/
lemma Decides.of_step {i : Pallets.Step AccountId} (hr : r.queues.VotersDistinct)
    (h : Pallets.step host r i = some r'.queues) : Decides host (.pallets i) r r' := by
  have hr' := hr.step h
  rcases Pallets.step_cases h with ⟨k, j, rfl, hj, hstep, hbridge⟩ | ⟨k, j, rfl, hj, hstep, hqueue⟩
  · refine ⟨fun n t hn ht => ?_, fun n t hn ht => ?_, fun v sub hsub => (by cases hsub),
      fun n tx hn htx => ?_⟩
    · obtain ⟨o, sub, rfl, hlen⟩ := Cccp.launched_by_majority hstep hn ht
      refine Ballots.le_card (hr'.relayQueue.onFlight n t ht).1 ?_
      cases k with
      | onFlightPoll o' sub' =>
          obtain ⟨rfl, rfl⟩ := Cccp.Step.onFlightPoll.inj (Option.some.inj hj)
          exact hlen
      | _ => cases hj
    · obtain ⟨o, sub, parsed, rfl, hparses, hcase⟩ := Cccp.finalized_by_majority hstep hn ht
      cases k with
      | finalizePoll o' sub' =>
          obtain ⟨rfl, rfl⟩ := Cccp.Step.finalizePoll.inj (Option.some.inj hj)
          rcases hcase with hout | hlen
          · exact .inr ⟨o', sub', parsed, rfl, hparses, hout⟩
          · exact .inl (Ballots.le_card (hr'.relayQueue.finalized n t ht).2 hlen)
      | _ => cases hj
    · rw [hbridge, hn] at htx
      cases htx
  · refine ⟨fun n t hn ht => ?_, fun n t hn ht => ?_, fun v sub hsub n u hwas hu hstatus => ?_,
      fun n tx hn htx => ?_⟩
    · rw [hqueue, hn] at ht
      cases ht
    · rw [hqueue, hn] at ht
      cases ht
    · cases hsub
      obtain rfl := Option.some.inj hj
      exact Ballots.le_card (hr'.blaze.coins n u hu)
        (Btc.Bridge.available_by_majority hstep hwas hu hstatus)
    · obtain ⟨v, sub, rfl, hlen⟩ :=
        Btc.Bridge.confirmed_by_majority (Pallets.bridgeStep_ne hj) hstep hn htx
      refine Ballots.le_card (hr'.blaze.confirmed n tx htx) ?_
      cases k with
      | blaze v' call =>
          obtain ⟨rfl, rfl⟩ := Btc.Bridge.Step.blaze.inj (Option.some.inj hj)
          exact hlen
      | _ => cases hj

/-- **Voters are distinct** in every run in which no replacement meets a ballot with both accounts. -/
lemma TurnsIf.votersDistinct (h : TurnsIf cfg host UncontestedTurn s) :
    ∃ r, s.relay = some r ∧ r.queues.VotersDistinct := by
  refine TurnsIf.invariant (P := Pallets.VotersDistinct) (fun members authority => ?_)
    (fun t i r q _ _ hr hstep => hr.step hstep) (fun t i r hc hbegins hr => ?_) h
  · exact ⟨Cccp.RelayQueue.genesis_votersDistinct, Btc.Blaze.genesis_votersDistinct⟩
  · exact (hc r hbegins).votersDistinct hr

/-- **Majorities are made of distinct voters**, in every run in which no replacement meets a ballot with
both accounts on it: nobody is on a ballot twice, and whatever is decided by votes in the next turn is
decided by as many accounts as the relay manager asks for.  The condition on replacements is exact: one
of them keeps voters distinct if and only if it meets no such ballot. -/
theorem ballots_counted (h : TurnsIf cfg host UncontestedTurn s) :
    (∃ r, s.relay = some r ∧ r.queues.VotersDistinct ∧ ∀ i s', turnStep cfg host s i = some s' →
      ∃ r', s'.relay = some r' ∧ Decides host i r r') ∧
    ∀ q : Pallets AccountId, q.VotersDistinct → ∀ old new,
      ((q.replaceAuthority old new).VotersDistinct ↔ q.Uncontested old new) := by
  refine ⟨?_, fun q hq => hq.replaceAuthority_iff⟩
  obtain ⟨r, hr, hdistinct⟩ := h.votersDistinct
  refine ⟨r, hr, hdistinct, fun i s' hstep => ?_⟩
  obtain ⟨r₀, htied, hround⟩ := h.network.tied
  obtain rfl : r₀ = r := Option.some.inj (htied.relay.symm.trans hr)
  obtain ⟨r', hr', hturned⟩ := turnStep_turned h.network.staking.inv hstep htied hround
  refine ⟨r', hr', ?_⟩
  cases hturned with
  | kept j hi hqueues =>
      subst hi
      refine .of_files ?_ (by simp)
      rw [hqueues]
      exact .refl r₀.queues
  | pallets j hi hpallet =>
      subst hi
      exact .of_step hdistinct hpallet
  | begins j r₁ hi hbegins hqueues hqueues' =>
      subst hi
      refine .of_files ?_ (by simp)
      rw [hqueues', ← hqueues]
      exact Relayers.applyRelayerSets_files (r₁.delayedRelayerSets.getD (s.now + 1 - 1) []) { r₁ with
        delayedRelayerSets := r₁.delayedRelayerSets.remove (s.now + 1 - 1) }

end Majorities

/-! ## Small runs -/

section Small

open Cccp (sampleHash)

/-- Relayer 3 votes and is replaced by account 5, and relayer 13 votes.  The third vote is a majority. -/
theorem ballots_counted_small : ∃ s s' r r' t, TurnsIf bridgedConfig Btc.smallHost UncontestedTurn s ∧
    s.relay = some r ∧ turnStep bridgedConfig Btc.smallHost s (bridgedVote 23) = some s' ∧
    s'.relay = some r' ∧ r'.queues.relayQueue.onFlightTransfers.get sampleHash = some t ∧
    r.majority = 3 ∧ 3 ≤ t.onFlightVoters.toFinset.card := by
  have hrun := bridgedRun_exists UncontestedTurn
    (bridgedStart ++ [bridgedVote 3, .network (.relay (.setRelayer (.signed 2) 5)), bridgedRound,
      bridgedVote 13])
    (P := fun s => (s.relay.any fun r => decide (r.majority = 3) &&
        (r.queues.relayQueue.onFlightTransfers.get sampleHash).isNone) &&
      ((turnStep bridgedConfig Btc.smallHost s (bridgedVote 23)).any fun s' => s'.relay.any fun r' =>
        (r'.queues.relayQueue.onFlightTransfers.get sampleHash).isSome)) (by decide +kernel)
  obtain ⟨s, hs, hP⟩ := hrun
  rw [Bool.and_eq_true] at hP
  obtain ⟨⟨r, hr, hbefore⟩, hafter⟩ := And.imp_left (Option.any_eq_true _ _).mp hP
  obtain ⟨s', hs', hafter⟩ := (Option.any_eq_true _ _).mp hafter
  obtain ⟨r', hr', hsome⟩ := (Option.any_eq_true _ _).mp hafter
  obtain ⟨t, ht⟩ := Option.isSome_iff_exists.mp hsome
  rw [Bool.and_eq_true, decide_eq_true_eq, Option.isNone_iff_eq_none] at hbefore
  obtain ⟨r₀, hr₀, -, hturns⟩ := (ballots_counted hs).1
  obtain ⟨r₁, hr₁, hdecides⟩ := hturns _ s' hs'
  obtain rfl : r₀ = r := Option.some.inj (hr₀.symm.trans hr)
  obtain rfl : r₁ = r' := Option.some.inj (hr₁.symm.trans hr')
  refine ⟨s, s', r₀, r₁, t, hs, hr, hs', hr', ht, hbefore.1, ?_⟩
  rw [← hbefore.1]
  exact hdecides.launched sampleHash t hbefore.2 ht

/-- **A voter is counted twice.**  Relayers 3 and 13 vote.  The second one leaves, and its account takes
the place of the first.  With one more vote there is a majority of three, of two accounts. -/
theorem voter_counted_twice : ∃ s s' r r' t, TurnsIf bridgedConfig Btc.smallHost anyStep s ∧
    s.relay = some r ∧ turnStep bridgedConfig Btc.smallHost s (bridgedVote 23) = some s' ∧
    s'.relay = some r' ∧ r.queues.relayQueue.onFlightTransfers.get sampleHash = none ∧
    r'.queues.relayQueue.onFlightTransfers.get sampleHash = some t ∧
    t.onFlightVoters.toFinset.card < r.majority := by
  have hrun := bridgedRun_exists anyStep
    (bridgedStart ++ [bridgedVote 3, bridgedVote 13,
      .network (.call (.signed 11) (.setValidatorTier 0 .basic none)),
      .network (.relay (.setRelayer (.signed 2) 13)), bridgedRound])
    (P := fun s => s.relay.any fun r =>
      (r.queues.relayQueue.onFlightTransfers.get sampleHash).isNone &&
      ((turnStep bridgedConfig Btc.smallHost s (bridgedVote 23)).any fun s' => s'.relay.any fun r' =>
        (r'.queues.relayQueue.onFlightTransfers.get sampleHash).any fun t =>
          decide (t.onFlightVoters.toFinset.card < r.majority))) (by decide +kernel)
  obtain ⟨s, hs, hP⟩ := hrun
  obtain ⟨r, hr, hP⟩ := (Option.any_eq_true _ _).mp hP
  rw [Bool.and_eq_true, Option.isNone_iff_eq_none] at hP
  obtain ⟨s', hs', hafter⟩ := (Option.any_eq_true _ _).mp hP.2
  obtain ⟨r', hr', hafter⟩ := (Option.any_eq_true _ _).mp hafter
  obtain ⟨t, ht, hcard⟩ := (Option.any_eq_true _ _).mp hafter
  exact ⟨s, s', r, r', t, hs, hr, hs', hr', hP.1, ht, of_decide_eq_true hcard⟩

end Small

end BifrostNode.Relay
