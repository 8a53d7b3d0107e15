import BifrostNode.Relay.Votes

/-!
# Ballots that wait

A ballot is looked at when somebody votes, and not when relayers leave and a smaller majority would do.

* **What waits is short.**  No ballot that waits is as long as the largest majority there has been, as
  each of them was decided by the vote that completed it.
* **A coin waits for a second vote** at least: `submit_utxos` does not count the first one.
* **So somebody can still vote**, as long as enough relayers are selected.  One relayer that is left alone
  after it has voted has to wait for the next round (`ballot_alone`).
-/

namespace BifrostNode

open Staking Transition StorageMap

/-! ## The relay queue -/

namespace Cccp

variable {AccountId : Type} {n n' : ℕ}

/-- **Ballots that wait** are shorter than `n`. -/
structure RelayQueue.Waits (n : ℕ) (s : RelayQueue AccountId) : Prop where
  pending : s.pendingTransfers.Every fun _ t => t.onFlightVoters.length < n
  onFlight : s.onFlightTransfers.Every fun _ t => t.finalizationVoters.length < n

lemma RelayQueue.genesis_waits : (genesis : RelayQueue AccountId).Waits n := ⟨.empty, .empty⟩

lemma RelayQueue.Waits.mono {s : RelayQueue AccountId} (hs : s.Waits n) (hn : n ≤ n') : s.Waits n' :=
  ⟨fun k t ht => (hs.pending k t ht).trans_le hn, fun k t ht => (hs.onFlight k t ht).trans_le hn⟩

lemma RelayQueue.Waits.aside {s s' : RelayQueue AccountId} (hs : s.Waits n) (h : Aside s s') :
    s'.Waits n := by
  obtain ⟨hpending, hflight, -⟩ := h
  refine ⟨?_, ?_⟩
  · rw [hpending]
    exact hs.pending
  · rw [hflight]
    exact hs.onFlight

/-- The majority that a step asks for is at most `n`. -/
def Step.AsksAtMost (n : ℕ) : Step AccountId → Prop
  | .onFlightPoll o _ => o.majority ≤ n
  | .finalizePoll o _ => o.majority ≤ n
  | _ => True

section Steps

variable [LinearOrder AccountId] {host : Host} {o : Outlook AccountId} {i : Step AccountId}
  {s s' : RelayQueue AccountId}

lemma onFlightPoll_waits {sub : OnFlightPollSubmission AccountId} (hs : s.Waits n) (hn : 0 < n)
    (ho : o.majority ≤ n) : Returns (RelayQueue.Waits n) (s.onFlightPoll host o sub) := by
  intro s' h
  obtain ⟨parsed, info, hp, ⟨-, s₁, h₁, rfl⟩ | ⟨hless, rfl⟩⟩ := onFlightPoll_ok h
  · have hs₁ := hs.aside (takeCap_aside s₁ h₁)
    exact ⟨hs₁.pending.filterKeys _, hs₁.onFlight.insert hn⟩
  · exact ⟨hs.pending.insert (hless.trans_le ho), hs.onFlight⟩

/-- **A vote on an end that is kept** does not make a majority. -/
lemma finalizePoll_waits {sub : FinalizePollSubmission AccountId} (hs : s.Waits n)
    (ho : o.majority ≤ n) : Returns (RelayQueue.Waits n) (s.finalizePoll host o sub) := by
  intro s' h
  have hfinal {msgHash index : H256} {amount : ℕ} {t : TransferInfoWithTxId AccountId}
      (hclose : s.finalize msgHash index amount t = .ok s') : s'.Waits n := by
    obtain ⟨caps, rfl, -⟩ := finalize_ok hclose
    exact ⟨hs.pending, hs.onFlight.remove _⟩
  simp only [RelayQueue.finalizePoll, bind_eq_ok, ensure_eq_ok, okOr_eq_ok, exists_const,
    RelayQueue.verifyAuthority] at h
  obtain ⟨-, parsed, -, src, -, dst, -, -, transfer, -, request, -, voters, -, h⟩ := h
  split_ifs at h with hout hmajority
  · simp only [bind_eq_ok, ensure_eq_ok, exists_const] at h
    exact hfinal h.2
  · simp only [bind_eq_ok, ensure_eq_ok, exists_const] at h
    exact hfinal h.2
  · simp only [bind_eq_ok, ensure_eq_ok, exists_const, pure_eq_ok] at h
    obtain ⟨-, rfl⟩ := h
    exact ⟨hs.pending, hs.onFlight.insert ((not_le.mp hmajority).trans_le ho)⟩

lemma RelayQueue.Waits.replaceAuthority (hs : s.Waits n) (old new : AccountId) :
    (s.replaceAuthority old new).Waits n := by
  refine ⟨every_mapVals.mpr fun k t ht => ?_, every_mapVals.mpr fun k t ht => ?_⟩
  · show (t.onFlightVoters.replace old new).length < n
    rw [List.length_replace]
    exact hs.pending k t ht
  · show (t.finalizationVoters.replace old new).length < n
    rw [List.length_replace]
    exact hs.onFlight k t ht

/-- **Step lemma.**  As long as no majority above `n` is asked for, the ballots of the relay queue stay
below it. -/
lemma RelayQueue.Waits.step (hs : s.Waits n) (hn : 0 < n) (hi : i.AsksAtMost n)
    (h : s.step host i = some s') : s'.Waits n := by
  rcases step_cases h with hside | ⟨o, sub, rfl, hpoll⟩ | ⟨o, sub, rfl, hpoll⟩ |
    ⟨old, new, rfl, rfl⟩
  · exact hs.aside hside
  · exact onFlightPoll_waits hs hn hi s' hpoll
  · exact finalizePoll_waits hs hi s' hpoll
  · exact hs.replaceAuthority old new

end Steps

end Cccp

/-! ## Blaze -/

namespace Btc

open Cccp Pool Queue

variable {AccountId : Type} {n n' : ℕ}

/-- **Ballots that wait** are shorter than `n`, and those on coins shorter than two if that is more. -/
structure Blaze.Waits (n : ℕ) (b : Blaze AccountId) : Prop where
  coins : b.utxos.Every fun _ u => u.status = .unconfirmed → u.voters.length < max n 2
  pending : b.pendingTxs.Every fun _ tx => tx.voters.length < n

lemma Blaze.genesis_waits : (genesis : Blaze AccountId).Waits n := ⟨.empty, .empty⟩

lemma Blaze.Waits.mono {b : Blaze AccountId} (hb : b.Waits n) (hn : n ≤ n') : b.Waits n' :=
  ⟨fun k u hu hstatus => (hb.coins k u hu hstatus).trans_le (max_le_max_right 2 hn),
    fun k tx htx => (hb.pending k tx htx).trans_le hn⟩

/-- The majority that a step asks for is at most `n`. -/
def Bridge.Step.AsksAtMost (n : ℕ) : Bridge.Step AccountId → Prop
  | .blaze v _ => v.relayers.majority ≤ n
  | _ => True

section Steps

variable [LinearOrder AccountId] {host : Host AccountId} {b b' : Blaze AccountId}
  {s s' : Bridge AccountId} {i : Bridge.Step AccountId}

/-- `submit_utxos` leaves no unconfirmed coin with the votes of a majority. -/
lemma Blaze.submitUtxos_waits {relayers : Relayers AccountId}
    {getBondedDescriptor : Bytes → Option Descriptor} {authorityId : AccountId} {utxos : List UtxoInfo}
    (hn : relayers.majority ≤ n)
    (hb : b.utxos.Every fun _ u => u.status = .unconfirmed → u.voters.length < max n 2) :
    Returns (fun b' => b'.utxos.Every fun _ u => u.status = .unconfirmed → u.voters.length < max n 2)
      (utxos.foldlM (submitUtxo host relayers getBondedDescriptor authorityId) b) := by
  refine Returns.foldlM (fun c utxo hc => ?_) hb
  rw [submitUtxo]
  split
  case h_1 => exact .pure hc
  case h_2 descriptor hdescriptor =>
    split
    case h_1 u hu =>
      split_ifs with hskip
      · exact .pure hc
      · rw [voteUtxo]
        refine .bind fun _ => ?_
        dsimp only
        split_ifs with hmajority
        · rw [discount_utxos]
          exact .pure (hc.insert fun hstatus => (by cases hstatus))
        · have hless := (not_le.mp hmajority).trans_le hn
          exact .pure (hc.insert fun _ => lt_max_of_lt_left hless)
    case h_2 hnone =>
      dsimp only
      split_ifs with hquota
      · exact .pure hc
      · split
        case h_1 => exact .pure hc
        case h_2 inner hinner => exact .pure (hc.insert fun _ => lt_max_of_lt_right Nat.one_lt_two)

omit [LinearOrder AccountId] in
lemma Blaze.Restamped.waits {inputs : List UtxoInfoWithSize} (h : b.Restamped inputs b')
    (hb : b.utxos.Every fun _ u => u.status = .unconfirmed → u.voters.length < n) :
    b'.utxos.Every fun _ u => u.status = .unconfirmed → u.voters.length < n := by
  intro k u hu hstatus
  rcases h.utxos k with hk | ⟨w, status, -, hother, hw, hk⟩
  · exact hb k u (hk ▸ hu) hstatus
  · obtain rfl := Option.some.inj (hk.symm.trans hu)
    exact absurd hstatus hother

/-- Clearing and pushing leaves no ballot that waits for anything. -/
lemma Blaze.cleared_waits {getBondedDescriptor : Bytes → Option Descriptor} {utxos : List UtxoInfo}
    (hb : b.utxos.Every fun _ u => u.status = .unconfirmed → u.voters.length < n) :
    (utxos.foldl (forcePushUtxo host getBondedDescriptor) (b.clearUtxos host)).utxos.Every
      fun _ u => u.status = .unconfirmed → u.voters.length < n := by
  refine forcePushUtxos_rule (P := fun c => c.utxos.Every fun _ u => u.status = .unconfirmed →
    u.voters.length < n) ?_ ?_
  · refine clearUtxos_rule (P := fun c => c.utxos.Every fun _ u => u.status = .unconfirmed →
      u.voters.length < n) hb ?_ ?_
    · exact fun c k u hc _ _ => hc.remove k
    · exact fun c k u hc _ _ _ => hc.remove k
  · intro c utxo descriptor inner hc _ _ _
    refine hc.insert fun hstatus => ?_
    cases hstatus

lemma Blaze.broadcastPoll_waits {relayers : Relayers AccountId} {sub : BroadcastSubmission AccountId}
    (hn : relayers.majority ≤ n) (hb : b.pendingTxs.Every fun _ tx => tx.voters.length < n) :
    Returns (fun b' => b'.pendingTxs.Every fun _ tx => tx.voters.length < n)
      (b.broadcastPoll relayers sub) := by
  intro b' h
  simp only [broadcastPoll, bind_eq_ok, ensure_eq_ok, okOr_eq_ok, exists_const, verifyAuthority,
    ensureActivation] at h
  obtain ⟨-, -, -, tx, -, -, -, h⟩ := h
  split_ifs at h with hmajority
  · rw [(setStatus_coinsOnly b' h).pendingTxs_eq]
    exact hb.remove _
  · obtain rfl := pure_eq_ok.mp h
    exact hb.insert ((not_le.mp hmajority).trans_le hn)

lemma Blaze.Waits.replaceAuthority (hb : b.Waits n) (old new : AccountId) :
    (b.replaceAuthority old new).Waits n := by
  refine ⟨every_mapVals.mpr fun k u hu => ?_, every_mapVals.mpr fun k tx htx => ?_⟩
  · dsimp only
    split_ifs with hold
    · intro hstatus
      exact (Ballots.length_refile_le hold.2).trans_lt (hb.coins k u hu hold.1)
    · exact hb.coins k u hu
  · dsimp only
    split_ifs with hold
    · exact (Ballots.length_refile_le hold).trans_lt (hb.pending k tx htx)
    · exact hb.pending k tx htx

/-- **Step lemma.**  As long as no majority above `n` is asked for, the ballots of Blaze stay below it. -/
lemma Blaze.Waits.step (hs : s.blaze.Waits n) (hn : 0 < n) (hi : i.AsksAtMost n)
    (h : s.step host i = some s') : s'.blaze.Waits n := by
  by_cases hrenames : ∃ old new, i = .replaceAuthority old new
  · obtain ⟨old, new, rfl⟩ := hrenames
    obtain rfl := Option.some.inj h
    exact hs.replaceAuthority old new
  · have hkept : ∀ old new, i ≠ .replaceAuthority old new :=
      fun old new heq => hrenames ⟨old, new, heq⟩
    refine ⟨?_, ?_⟩
    · cases Bridge.step_blaze h with
      | submitted v sub heq hloop =>
          subst heq
          exact Blaze.submitUtxos_waits hi hs.coins s'.blaze hloop
      | rated v sub _ hrate =>
          simp only [Blaze.submitFeeRate, bind_eq_ok, ensure_eq_ok, okOr_eq_ok, pure_eq_ok,
            exists_const, Blaze.verifyAuthority, Blaze.ensureActivation] at hrate
          obtain ⟨-, -, -, -, -, feeRates, -, hblaze⟩ := hrate
          rw [← hblaze]
          exact hs.coins
      | touched hstamp => exact hstamp.waits hs.coins
      | locked selected hstamp _ => exact hstamp.waits hs.coins
      | cleared utxos _ heq =>
          rw [heq]
          exact Blaze.cleared_waits hs.coins
      | renamed old new heq _ => exact absurd heq (hkept old new)
    · rcases Bridge.step_tabled hkept h with htabled | ⟨v, sub, rfl, hpoll⟩
      · intro k tx htx
        rcases htabled.pending k tx htx with hsame | hnew
        · exact hs.pending k tx hsame
        · rw [hnew]
          exact hn
      · exact Blaze.broadcastPoll_waits hi hs.pending s'.blaze hpoll

end Steps

end Btc

/-! ## The network -/

namespace Relay

/-! ### Pallets -/

namespace Pallets

variable {AccountId : Type} {n n' : ℕ} {q : Pallets AccountId}

/-- **Ballots that wait** are shorter than `n`, but for those on coins. -/
structure Waits (n : ℕ) (q : Pallets AccountId) : Prop where
  relayQueue : q.relayQueue.Waits n
  blaze : q.bridge.blaze.Waits n

lemma Waits.mono (hq : q.Waits n) (hn : n ≤ n') : q.Waits n' := ⟨hq.relayQueue.mono hn, hq.blaze.mono hn⟩

/-- **Somebody can still vote.**  Every ballot that waits lacks one of the relayers. -/
structure Votable (relayers : Finset AccountId) (q : Pallets AccountId) : Prop where
  onFlight : q.relayQueue.pendingTransfers.Every fun _ t => ∃ a ∈ relayers, a ∉ t.onFlightVoters
  finalization : q.relayQueue.onFlightTransfers.Every fun _ t =>
    ∃ a ∈ relayers, a ∉ t.finalizationVoters
  coins : q.bridge.blaze.utxos.Every fun _ u =>
    u.status = .unconfirmed → ∃ a ∈ relayers, a ∉ u.voters
  broadcasts : q.bridge.blaze.pendingTxs.Every fun _ tx => ∃ a ∈ relayers, a ∉ tx.voters

variable [LinearOrder AccountId]

lemma Waits.votable {relayers : Finset AccountId} (hq : q.Waits n) (hn : max n 2 ≤ relayers.card) :
    q.Votable relayers := by
  have hless : n ≤ relayers.card := (le_max_left n 2).trans hn
  exact ⟨fun k t ht => Ballots.exists_absent ((hq.relayQueue.pending k t ht).trans_le hless),
    fun k t ht => Ballots.exists_absent ((hq.relayQueue.onFlight k t ht).trans_le hless),
    fun k u hu hstatus => Ballots.exists_absent ((hq.blaze.coins k u hu hstatus).trans_le hn),
    fun k tx htx => Ballots.exists_absent ((hq.blaze.pending k tx htx).trans_le hless)⟩

variable {host : Btc.Host AccountId} {r : Relayers AccountId (Pallets AccountId)} {q' : Pallets AccountId}

/-- **Step lemma.**  The majority that the pallets ask for is that of the relay manager. -/
lemma Waits.step {i : Step AccountId} (hr : r.queues.Waits n) (hn : 0 < n) (hmajority : r.majority ≤ n)
    (h : Pallets.step host r i = some q') : q'.Waits n := by
  rcases step_cases h with ⟨k, j, -, hj, hstep, hbridge⟩ | ⟨k, j, -, hj, hstep, hqueue⟩
  · have hasks : j.AsksAtMost n := by
      cases k with
      | replaceAuthority old new => cases hj
      | onFlightPoll o sub =>
          obtain rfl := Option.some.inj hj
          exact hmajority
      | finalizePoll o sub =>
          obtain rfl := Option.some.inj hj
          exact hmajority
      | _ =>
          obtain rfl := Option.some.inj hj
          trivial
    refine ⟨hr.relayQueue.step hn hasks hstep, ?_⟩
    rw [hbridge]
    exact hr.blaze
  · have hasks : j.AsksAtMost n := by
      cases k with
      | replaceAuthority old new => cases hj
      | blaze v call =>
          obtain rfl := Option.some.inj hj
          exact hmajority
      | _ =>
          obtain rfl := Option.some.inj hj
          trivial
    refine ⟨?_, hr.blaze.step hn hasks hstep⟩
    rw [hqueue]
    exact hr.relayQueue

lemma Waits.replaceAuthority (hq : q.Waits n) (old new : AccountId) : (q.replaceAuthority old new).Waits n :=
  ⟨hq.relayQueue.replaceAuthority old new, hq.blaze.replaceAuthority old new⟩

end Pallets

/-! ### Turns -/

section Turns

variable {AccountId : Type} [LinearOrder AccountId]

/-- The largest majority there has been. -/
def highest (n : ℕ) (s : State AccountId (Option (Relayers AccountId (Pallets AccountId)))) : ℕ :=
  s.relay.elim n fun r => max n r.majority

/-- The watched runs, with the largest majority there has been. -/
def TurnsWatched (cfg : Config AccountId) (host : Btc.Host AccountId)
    (x : State AccountId (Option (Relayers AccountId (Pallets AccountId))) × ℕ) : Prop :=
  Reachable (fun x => IsFirst cfg host x.1 ∧ x.2 = highest 1 x.1)
    (watched (turnStep cfg host) fun _ _ s' n => highest n s') anyStep x

variable {cfg : Config AccountId} {host : Btc.Host AccountId}
  {s : State AccountId (Option (Relayers AccountId (Pallets AccountId)))}
  {x : State AccountId (Option (Relayers AccountId (Pallets AccountId))) × ℕ}

/-- **Ballots wait for somebody.**  In every run, ballots that wait are shorter than the largest majority
there has been, or than two if they are on coins.  So as long as that many relayers are selected, one of
them can still vote for each of them. -/
theorem ballots_wait (h : TurnsWatched cfg host x) :
    ∃ r, x.1.relay = some r ∧ r.majority ≤ x.2 ∧ r.queues.Waits x.2 ∧
      (max x.2 2 ≤ r.selectedRelayers.card → r.queues.Votable r.selectedRelayers) := by
  have hall := Reachable.invariant
    (P := fun x : State AccountId (Option (Relayers AccountId (Pallets AccountId))) × ℕ =>
      TurnsIf cfg host anyStep x.1 ∧ 0 < x.2 ∧
        ∃ r, x.1.relay = some r ∧ r.majority ≤ x.2 ∧ r.queues.Waits x.2) ?_ ?_ h
  · obtain ⟨-, -, r, hr, hmajority, hwaits⟩ := hall
    exact ⟨r, hr, hmajority, hwaits, hwaits.votable⟩
  · rintro ⟨s, n⟩ ⟨hs, hn⟩
    replace hn : n = highest 1 s := hn
    subst hn
    obtain ⟨r, members, authority, hr, hqueues⟩ := hs.queues
    have hn : highest 1 s = max 1 r.majority := by
      rw [highest, hr]
      rfl
    refine ⟨.init hs, ?_, r, hr, ?_, ?_⟩
    · rw [hn]
      exact lt_max_of_lt_left Nat.one_pos
    · rw [hn]
      exact le_max_right ..
    · rw [hqueues]
      exact ⟨Cccp.RelayQueue.genesis_waits, Btc.Blaze.genesis_waits⟩
  · rintro ⟨s, n⟩ i ⟨s', n'⟩ ⟨hrun, hn, r, hr, hmajority, hwaits⟩ - hwatched
    obtain ⟨hstep, hnote⟩ := watched_eq_some hwatched
    replace hnote : n' = highest n s' := hnote
    subst hnote
    obtain ⟨r₀, htied, hround⟩ := hrun.network.tied
    obtain rfl : r₀ = r := Option.some.inj (htied.relay.symm.trans hr)
    obtain ⟨r', hr', hturned⟩ := turnStep_turned hrun.network.staking.inv hstep htied hround
    have hn' : highest n s' = max n r'.majority := by
      rw [highest, hr']
      rfl
    have hless : n ≤ highest n s' := by
      rw [hn']
      exact le_max_left ..
    refine ⟨.step hrun trivial hstep, hn.trans_le hless, r', hr', ?_, Pallets.Waits.mono ?_ hless⟩
    · rw [hn']
      exact le_max_right ..
    · cases hturned with
      | kept k _ hqueues =>
          rw [hqueues]
          exact hwaits
      | pallets k _ hpallet => exact hwaits.step hn hmajority hpallet
      | begins k r₁ _ _ hqueues hqueues' =>
          rw [hqueues']
          refine Relayers.applyRelayerSets_keeps (P := Pallets.Waits n)
            (fun q old new hq => hq.replaceAuthority old new) _ _ ?_
          show r₁.queues.Waits n
          rw [hqueues]
          exact hwaits

end Turns

/-! ### Small runs -/

section Small

open Cccp (sampleHash)

/-- Two of five relayers have voted, so there is somebody who has not. -/
theorem ballots_wait_small : ∃ x r t, TurnsWatched bridgedConfig Btc.smallHost x ∧ x.2 = 3 ∧
    x.1.relay = some r ∧ r.queues.relayQueue.pendingTransfers.get (sampleHash, 77) = some t ∧
    ∃ a ∈ r.selectedRelayers, a ∉ t.onFlightVoters := by
  have hrun : (bridgedGenesis.build bridgedConfig (Strict.manager Pallets.replaceAuthority)).any (fun s =>
      (runSteps (watched (turnStep bridgedConfig Btc.smallHost) fun _ _ s' n => highest n s')
        (s, highest 1 s) (bridgedStart ++ [bridgedVote 3, bridgedVote 13])).any fun x =>
          x.1.relay.any fun r => decide (x.2 = 3 ∧ r.selectedRelayers.card = 5) &&
            (r.queues.relayQueue.pendingTransfers.get (sampleHash, 77)).isSome) = true := by
    decide +kernel
  obtain ⟨s, hs, hP⟩ := (Option.any_eq_true _ _).mp hrun
  obtain ⟨x, hx, hP⟩ := (Option.any_eq_true _ _).mp hP
  obtain ⟨r, hr, hP⟩ := (Option.any_eq_true _ _).mp hP
  rw [Bool.and_eq_true, decide_eq_true_eq] at hP
  obtain ⟨⟨hn, hcard⟩, hsome⟩ := hP
  obtain ⟨t, ht⟩ := Option.isSome_iff_exists.mp hsome
  have hwatched : TurnsWatched bridgedConfig Btc.smallHost x :=
    .runSteps (.init ⟨⟨bridgedGenesis, ⟨4, false, .zero, [3, 13], none, rfl⟩, hs⟩, rfl⟩) hx
  obtain ⟨r₀, hr₀, -, -, hvotable⟩ := ballots_wait hwatched
  obtain rfl : r₀ = r := Option.some.inj (hr₀.symm.trans hr)
  exact ⟨x, r₀, t, hwatched, hn, hr, ht, (hvotable (by omega)).onFlight _ t ht⟩

/-- **A ballot is left alone.**  Relayer 3 votes, and the others go offline.  Its vote would do now, but
there is nobody else to vote. -/
theorem ballot_alone : ∃ s r t, TurnsIf bridgedConfig Btc.smallHost anyStep s ∧ s.relay = some r ∧
    r.majority = 1 ∧ r.queues.relayQueue.pendingTransfers.get (sampleHash, 77) = some t ∧
    ∀ a ∈ r.selectedRelayers, a ∈ t.onFlightVoters := by
  have hrun := bridgedRun_exists anyStep
    (bridgedStart ++ [bridgedVote 3] ++
      [12, 22, 32, 42].map fun a => .network (.call (.signed a) .goOffline))
    (P := fun s => s.relay.any fun r => decide (r.majority = 1) &&
      (r.queues.relayQueue.pendingTransfers.get (sampleHash, 77)).any fun t =>
        decide (∀ a ∈ r.selectedRelayers, a ∈ t.onFlightVoters)) (by decide +kernel)
  obtain ⟨s, hs, hP⟩ := hrun
  obtain ⟨r, hr, hP⟩ := (Option.any_eq_true _ _).mp hP
  rw [Bool.and_eq_true, decide_eq_true_eq] at hP
  obtain ⟨t, ht, halone⟩ := (Option.any_eq_true _ _).mp hP.2
  exact ⟨s, r, t, hs, hr, hP.1, ht, of_decide_eq_true halone⟩

end Small

end Relay

end BifrostNode
