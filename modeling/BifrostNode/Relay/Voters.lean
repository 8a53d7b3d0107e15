import BifrostNode.Relay.Votes

/-!
# Where voters come from

Only selected relayers vote on transfers, coins, broadcasts and rollbacks.  They keep their votes when
they leave, and hand them on when they are replaced.

* **Everybody on a ballot** was a selected relayer once, or has taken the place of somebody who was.
* **Stand-ins.**  The second kind there is: a relayer that has left can still be replaced, and the account
  that takes its place has a vote without ever being selected (`voter_stands_in`).
-/

namespace BifrostNode

open Staking Transition StorageMap

/-! ## The relay queue -/

namespace Cccp

variable {AccountId : Type} {set set' : Finset AccountId}

namespace RelayQueue.EveryBallot

variable {s : RelayQueue AccountId}

lemma mono (hs : s.EveryBallot (Ballots.Within set)) (hset : set ⊆ set') :
    s.EveryBallot (Ballots.Within set') where
  pending k t ht := (hs.pending k t ht).mono hset
  onFlight k t ht := (hs.onFlight k t ht).imp (.mono · hset) (.mono · hset)
  finalized k t ht := (hs.finalized k t ht).imp (.mono · hset) (.mono · hset)

lemma replaceAuthority [LinearOrder AccountId] {old new : AccountId}
    (hs : s.EveryBallot (Ballots.Within set)) (hnew : old ∈ set → new ∈ set) :
    (s.replaceAuthority old new).EveryBallot (Ballots.Within set) where
  pending := every_mapVals.mpr fun k t ht => (hs.pending k t ht).replace hnew
  onFlight := every_mapVals.mpr fun k t ht => (hs.onFlight k t ht).imp_right fun hend => hend.replace hnew
  finalized := hs.finalized

end RelayQueue.EveryBallot

end Cccp

/-! ## Blaze -/

namespace Btc

open Cccp Pool Queue

variable {AccountId : Type} {set set' : Finset AccountId}

namespace Blaze.EveryBallot

variable {b : Blaze AccountId}

lemma mono (hb : b.EveryBallot (Ballots.Within set)) (hset : set ⊆ set') :
    b.EveryBallot (Ballots.Within set') where
  coins k u hu := (hb.coins k u hu).mono hset
  pending k tx htx := (hb.pending k tx htx).mono hset
  confirmed k tx htx := (hb.confirmed k tx htx).mono hset

lemma replaceAuthority [LinearOrder AccountId] {old new : AccountId}
    (hb : b.EveryBallot (Ballots.Within set)) (hnew : old ∈ set → new ∈ set) :
    (b.replaceAuthority old new).EveryBallot (Ballots.Within set) := by
  refine ⟨every_mapVals.mpr fun k u hu => ?_, every_mapVals.mpr fun k tx htx => ?_, hb.confirmed⟩
  · dsimp only
    split_ifs with hold
    · exact (hb.coins k u hu).refile hold.2 hnew
    · exact hb.coins k u hu
  · dsimp only
    split_ifs with hold
    · exact (hb.pending k tx htx).refile hold hnew
    · exact hb.pending k tx htx

end Blaze.EveryBallot

/-! ## The socket queue -/

/-- **Everybody who votes on a rollback** is in the set. -/
def SocketQueue.VotersIn (set : Finset AccountId) (q : SocketQueue AccountId) : Prop :=
  q.rollbackRequests.Every fun _ rb => rb.votes.Every fun a _ => a ∈ set

namespace SocketQueue.VotersIn

variable {q : SocketQueue AccountId}

lemma genesis {host : Host AccountId} {authority : Option AccountId} :
    (genesis host authority).VotersIn set := .empty

lemma mono (hq : q.VotersIn set) (hset : set ⊆ set') : q.VotersIn set' :=
  fun k rb hrb a vote hvote => hset (hq k rb hrb a vote hvote)

variable [LinearOrder AccountId]

lemma replaceAuthority {old new : AccountId} (hq : q.VotersIn set) (hnew : old ∈ set → new ∈ set) :
    (q.replaceAuthority old new).VotersIn set := by
  refine every_mapVals.mpr fun k rb hrb => ?_
  have hvotes : rb.votes.Every fun a _ => a ∈ set := hq k rb hrb
  dsimp only
  split_ifs
  · exact hvotes
  · show (rb.votes.moveKey old new id).Every fun a _ => a ∈ set
    rw [moveKey]
    cases hold : rb.votes.get old with
    | none => exact hvotes
    | some vote => exact (hvotes.remove old).insert (hnew (hvotes old vote hold))

section Calls

variable {host : Host AccountId} {v : View AccountId} {s s' : Bridge AccountId}

/-- `submit_rollback_poll` puts an authority on the ballot. -/
lemma submitRollbackPoll {msg : RollbackPollMessage AccountId} (hs : s.queue.VotersIn set)
    (hv : ∀ a, v.relayers.isAuthority a = true → a ∈ set) :
    Returns (fun t => t.queue.VotersIn set) (s.submitRollbackPoll v msg) := by
  intro t h
  simp only [Bridge.submitRollbackPoll, bind_eq_ok, ensure_eq_ok, okOr_eq_ok, exists_const] at h
  obtain ⟨hauthority, rb, hrb, -, -, votes, hinsert, h⟩ := h
  have hvotes : votes.Every fun a _ => a ∈ set := by
    rw [tryInsert] at hinsert
    split_ifs at hinsert
    obtain rfl := Option.some.inj hinsert
    exact (hs _ rb hrb).insert (hv _ hauthority)
  split_ifs at h
  · obtain rfl := pure_eq_ok.mp h
    exact Every.insert hs hvotes
  · obtain rfl := pure_eq_ok.mp h
    exact Every.insert hs hvotes

/-- **`submit_bump_fee_request`** moves a rollback request with its votes. -/
lemma submitBumpFeeRequest {origin : Origin AccountId} {oldTxid : H256} {new : Bytes}
    (hs : s.queue.VotersIn set) :
    Returns (fun t => t.queue.VotersIn set) (s.submitBumpFeeRequest host origin oldTxid new) := by
  intro t h
  simp only [Bridge.submitBumpFeeRequest, bind_eq_ok, ensure_eq_ok, okOr_eq_ok, pure_eq_ok,
    Unique.exists_iff, tryGetCheckedPsbt] at h
  obtain ⟨-, request, -, -, -, oldPsbt, -, newPsbt, -, -, -, -, -, -, s₁, h₁, s₂, h₂, s₃, h₃, rfl⟩ := h
  have hbump : s₁.queue.VotersIn set := by
    rw [Bridge.bumpRecords] at h₁
    split at h₁
    · simp only [bind_eq_ok, pure_eq_ok] at h₁
      obtain ⟨messages, -, rfl⟩ := h₁
      exact hs
    · obtain rfl := pure_eq_ok.mp h₁
      exact hs
    · simp only [bind_eq_ok, okOr_eq_ok, pure_eq_ok] at h₁
      obtain ⟨rb, hrb, rfl⟩ := h₁
      exact (Every.remove hs _).insert (hs _ rb hrb)
  obtain ⟨-, hunlock⟩ := Bridge.unlockIfActivated_same s₂ h₂
  obtain ⟨-, hlock⟩ := Bridge.lockIfActivated_same s₃ h₃
  show s₃.queue.rollbackRequests.Every fun _ rb => rb.votes.Every fun a _ => a ∈ set
  rw [hlock, hunlock]
  exact hbump

/-- A call of the socket queue lets only authorities vote. -/
lemma queueCall {call : Queue.Call AccountId} (hs : s.queue.VotersIn set)
    (hv : ∀ a, v.relayers.isAuthority a = true → a ∈ set) :
    Returns (fun t => t.queue.VotersIn set) (s.queueCall host v call) := by
  intro t h
  have hkept : Returns (fun t => t.queue.rollbackRequests = s.queue.rollbackRequests)
      (s.queueCall host v call) → t.queue.VotersIn set := by
    intro hsame
    rw [SocketQueue.VotersIn, hsame t h]
    exact hs
  cases call with
  | setAuthority origin new => exact hkept (.bind fun _ => .bind fun _ => .pure rfl)
  | setSocket origin new isBitcoin =>
      exact hkept (.bind fun _ => .ite (.bind fun _ => .pure rfl) (.bind fun _ => .pure rfl))
  | setMaxFeeRate origin new =>
      exact hkept (.bind fun _ => .bind fun _ => .bind fun _ => .pure rfl)
  | setMaxSocketMessageBytes origin new => exact hkept (.bind fun _ => .bind fun _ => .pure rfl)
  | submitUnsignedPsbt msg =>
      simp only [Bridge.queueCall, Bridge.submitUnsignedPsbt, bind_eq_ok, ensure_eq_ok, pure_eq_ok,
        Unique.exists_iff] at h
      obtain ⟨-, -, -, psbt, -, -, -, -, verified, -, rfl⟩ := h
      exact hs
  | submitSignedPsbt msg =>
      simp only [Bridge.queueCall, Bridge.submitSignedPsbt, bind_eq_ok, ensure_eq_ok, okOr_eq_ok,
        exists_const] at h
      obtain ⟨-, unsigned, -, signed, -, request, -, -, -, combined, -, combined', -, signedPsbts, -,
        h⟩ := h
      split at h
      · obtain rfl := pure_eq_ok.mp h
        exact hs
      · obtain rfl := pure_eq_ok.mp h
        exact hs
  | submitExecutedRequest msg =>
      simp only [Bridge.queueCall, Bridge.submitExecutedRequest, bind_eq_ok, ensure_eq_ok, okOr_eq_ok,
        exists_const, Prod.exists] at h
      obtain ⟨-, request, -, confirmations, shouldExecute, -, h⟩ := h
      by_cases hexec : shouldExecute = true
      · rw [if_pos hexec] at h
        obtain rfl := pure_eq_ok.mp h
        exact hs
      · rw [if_neg hexec] at h
        obtain rfl := pure_eq_ok.mp h
        exact hs
  | submitRollbackRequest origin msg =>
      simp only [Bridge.queueCall, Bridge.submitRollbackRequest, bind_eq_ok, ensure_eq_ok, okOr_eq_ok,
        pure_eq_ok, Unique.exists_iff, tryGetCheckedPsbt] at h
      obtain ⟨-, -, psbt, -, -, -, -, -, vault, -, refund, -, refund', -, txInfo, -, -, -,
        systemVault, -, systemVault', -, -, t₁, hlock, rfl⟩ := h
      obtain ⟨-, hqueue⟩ := Bridge.lockIfActivated_same t₁ hlock
      refine Every.insert ?_ .empty
      rw [hqueue]
      exact hs
  | submitRollbackPoll msg => exact submitRollbackPoll hs hv t h
  | submitMigrationRequest origin raw =>
      simp only [Bridge.queueCall, Bridge.submitMigrationRequest, bind_eq_ok, ensure_eq_ok,
        Unique.exists_iff] at h
      obtain ⟨-, -, psbt, -, -, -, h⟩ := h
      split at h
      · simp only [bind_eq_ok, ensure_eq_ok, okOr_eq_ok, pure_eq_ok, Unique.exists_iff] at h
        obtain ⟨systemVault, -, address, -, -, rfl⟩ := h
        exact hs
      · cases h
  | submitBumpFeeRequest origin oldTxid new => exact submitBumpFeeRequest hs t h
  | dropPendingRollbackRequest origin txid =>
      simp only [Bridge.queueCall, Bridge.dropPendingRollbackRequest, bind_eq_ok, ensure_eq_ok,
        okOr_eq_ok, exists_const] at h
      obtain ⟨-, -, request, -, -, h⟩ := h
      obtain ⟨-, hqueue⟩ := Bridge.unlockIfActivated_same t h
      rw [hqueue]
      exact Every.remove hs txid

/-- **Step lemma**, for everything but replacements. -/
lemma step {i : Bridge.Step AccountId} (hs : s.queue.VotersIn set) (hi : i.TakesFrom (· ∈ set))
    (hkept : ∀ old new, i ≠ .replaceAuthority old new) (h : s.step host i = some s') :
    s'.queue.VotersIn set := by
  cases i with
  | pool v i =>
      simp only [Bridge.step, Option.bind_eq_bind, Option.bind_eq_some_iff, Option.pure_def,
        Option.some.injEq] at h
      obtain ⟨k, -, pool, -, rfl⟩ := h
      exact hs
  | blaze v call =>
      obtain rfl := Option.some.inj h
      exact hs
  | queue v call =>
      obtain rfl := Option.some.inj h
      exact commit_induction (P := fun t : Bridge AccountId => t.queue.VotersIn set) hs
        fun t ht => queueCall hs hi t ht
  | onInitialize v =>
      obtain ⟨plan, -, h⟩ := Option.bind_eq_some_iff.mp h
      have hprepared : (s.prepare v).1.queue.VotersIn set := by
        simp only [Bridge.prepare]
        split_ifs <;> exact hs
      cases plan with
      | idle =>
          obtain rfl := Option.some.inj h
          exact hprepared
      | fail =>
          obtain rfl := Option.some.inj h
          exact hprepared
      | build psbt messages selected =>
          simp only [Bridge.execute, Option.bind_eq_bind, Option.bind_eq_some_iff, Option.pure_def,
            Option.some.injEq] at h
          obtain ⟨parsed, -, b, -, rfl⟩ := h
          exact hprepared
  | replaceAuthority old new => exact absurd rfl (hkept old new)

end Calls

end SocketQueue.VotersIn

end Btc

/-! ## The network -/

namespace Relay

/-! ### Pallets -/

namespace Pallets

variable {AccountId : Type} {set set' : Finset AccountId} {q : Pallets AccountId}

/-- **Everybody on a ballot** is in the set. -/
structure VotersIn (set : Finset AccountId) (q : Pallets AccountId) : Prop where
  relayQueue : q.relayQueue.EveryBallot (Ballots.Within set)
  blaze : q.bridge.blaze.EveryBallot (Ballots.Within set)
  rollbacks : q.bridge.queue.VotersIn set

namespace VotersIn

lemma mono (hq : q.VotersIn set) (hset : set ⊆ set') : q.VotersIn set' :=
  ⟨hq.relayQueue.mono hset, hq.blaze.mono hset, hq.rollbacks.mono hset⟩

variable [LinearOrder AccountId]

lemma replaceAuthority {old new : AccountId} (hq : q.VotersIn set) (hnew : old ∈ set → new ∈ set) :
    (q.replaceAuthority old new).VotersIn set :=
  ⟨hq.relayQueue.replaceAuthority hnew, hq.blaze.replaceAuthority hnew,
    hq.rollbacks.replaceAuthority hnew⟩

/-- **Step lemma.**  The pallets take votes from selected relayers. -/
lemma step {host : Btc.Host AccountId} {r : Relayers AccountId (Pallets AccountId)}
    {q' : Pallets AccountId} {i : Step AccountId} (hr : r.queues.VotersIn set)
    (hselected : r.selectedRelayers ⊆ set) (h : Pallets.step host r i = some q') :
    q'.VotersIn set := by
  have hauthority : ∀ a, r.isAuthority a = true → a ∈ set :=
    fun a ha => hselected (of_decide_eq_true ha)
  rcases step_cases h with ⟨k, j, -, hj, hstep, hbridge⟩ | ⟨k, j, -, hj, hstep, hqueue⟩
  · have htakes : j.TakesFrom (· ∈ set) := by
      cases k with
      | replaceAuthority old new => cases hj
      | onFlightPoll o sub =>
          obtain rfl := Option.some.inj hj
          exact hauthority
      | finalizePoll o sub =>
          obtain rfl := Option.some.inj hj
          exact hauthority
      | _ =>
          obtain rfl := Option.some.inj hj
          trivial
    refine ⟨hr.relayQueue.step Ballots.Within.kept htakes (queueStep_ne hj) hstep, ?_, ?_⟩
    · rw [hbridge]
      exact hr.blaze
    · rw [hbridge]
      exact hr.rollbacks
  · have htakes : j.TakesFrom (· ∈ set) := by
      cases k with
      | replaceAuthority old new => cases hj
      | blaze v call =>
          obtain rfl := Option.some.inj hj
          exact hauthority
      | queue v call =>
          obtain rfl := Option.some.inj hj
          exact hauthority
      | _ =>
          obtain rfl := Option.some.inj hj
          trivial
    refine ⟨?_, hr.blaze.step Ballots.Within.kept htakes (bridgeStep_ne hj) hstep,
      hr.rollbacks.step htakes (bridgeStep_ne hj) hstep⟩
    rw [hqueue]
    exact hr.relayQueue

end VotersIn

end Pallets

/-! ### Turns -/

section Turns

variable {AccountId : Type} [LinearOrder AccountId]

/-- The requests are carried out one after the other, and whoever takes the place of a member becomes
one. -/
def Relayers.heirs : Relayers AccountId (Pallets AccountId) → Finset AccountId →
    List (DelayedRelayerSet AccountId) → Finset AccountId
  | _, set, [] => set
  | r, set, x :: sets => (r.applyRelayerSet Pallets.replaceAuthority x).heirs
      (if (r.relayerState.get x.old).isSome ∧ x.old ∈ set then insert x.new set else set) sets

lemma Relayers.subset_heirs : ∀ (sets : List (DelayedRelayerSet AccountId))
    (r : Relayers AccountId (Pallets AccountId)) (set : Finset AccountId), set ⊆ r.heirs set sets := by
  intro sets
  induction sets with
  | nil => exact fun _ set => subset_rfl
  | cons x sets ih =>
      intro r set
      refine Finset.Subset.trans ?_ (ih _ _)
      split_ifs
      · exact Finset.subset_insert _ _
      · exact subset_rfl

/-- **Replacements** put nobody but heirs on ballots. -/
lemma Relayers.heirs_votersIn : ∀ (sets : List (DelayedRelayerSet AccountId))
    (r : Relayers AccountId (Pallets AccountId)) (set : Finset AccountId), r.queues.VotersIn set →
    (sets.foldl (applyRelayerSet Pallets.replaceAuthority) r).queues.VotersIn (r.heirs set sets) := by
  intro sets
  induction sets with
  | nil => exact fun _ _ hr => hr
  | cons x sets ih =>
      intro r set hr
      rw [List.foldl_cons]
      refine ih _ _ ?_
      rw [applyRelayerSet_queues]
      by_cases hold : (r.relayerState.get x.old).isSome
      · rw [if_pos hold]
        by_cases hmem : x.old ∈ set
        · rw [if_pos ⟨hold, hmem⟩]
          exact (hr.mono (Finset.subset_insert _ _)).replaceAuthority
            fun _ => Finset.mem_insert_self _ _
        · rw [if_neg fun h => hmem h.2]
          exact hr.replaceAuthority fun h => absurd h hmem
      · rw [if_neg hold, if_neg fun h => hold h.1]
        exact hr

/-- The relay manager as it is when a turn begins a round. -/
def Turn.begins (s : State AccountId (Option (Relayers AccountId (Pallets AccountId)))) :
    Turn AccountId → Option (Relayers AccountId (Pallets AccountId))
  | .network i => roundBegins s i
  | .pallets _ => none

/-- The relayers that are selected. -/
def selected (s : State AccountId (Option (Relayers AccountId (Pallets AccountId)))) :
    Finset AccountId := s.relay.elim ∅ (·.selectedRelayers)

/-- Those who have been selected, and those who have taken their places. -/
def enrolled (s : State AccountId (Option (Relayers AccountId (Pallets AccountId))))
    (i : Turn AccountId) (s' : State AccountId (Option (Relayers AccountId (Pallets AccountId))))
    (set : Finset AccountId) : Finset AccountId :=
  ((i.begins s).elim set fun r =>
    Relayers.heirs { r with delayedRelayerSets := r.delayedRelayerSets.remove s.now } set
      (r.delayedRelayerSets.getD s.now [])) ∪ selected s'

/-- The watched runs, with those who have been selected and those who have taken their places. -/
def TurnsEnrolled (cfg : Config AccountId) (host : Btc.Host AccountId)
    (x : State AccountId (Option (Relayers AccountId (Pallets AccountId))) × Finset AccountId) : Prop :=
  Reachable (fun x => IsFirst cfg host x.1 ∧ x.2 = selected x.1)
    (watched (turnStep cfg host) enrolled) anyStep x

variable {cfg : Config AccountId} {host : Btc.Host AccountId}
  {s s' : State AccountId (Option (Relayers AccountId (Pallets AccountId)))}
  {r r' : Relayers AccountId (Pallets AccountId)} {set : Finset AccountId}
  {x : State AccountId (Option (Relayers AccountId (Pallets AccountId))) × Finset AccountId}

omit [LinearOrder AccountId] in
lemma selected_eq (hr : s.relay = some r) : selected s = r.selectedRelayers := by
  rw [selected, hr, Option.elim_some]

lemma subset_enrolled {i : Turn AccountId} : set ⊆ enrolled s i s' set := by
  refine Finset.Subset.trans ?_ Finset.subset_union_left
  cases i.begins s with
  | none => exact subset_rfl
  | some r => exact Relayers.subset_heirs _ _ _

/-- **Step lemma.**  After a turn all voters are still enrolled. -/
lemma Turned.votersIn {i : Turn AccountId} (h : Turned host s i r r')
    (hselected : r.selectedRelayers ⊆ set) (hr : r.queues.VotersIn set) :
    r'.queues.VotersIn (enrolled s i s' set) := by
  cases h with
  | kept j _ hqueues =>
      rw [hqueues]
      exact hr.mono subset_enrolled
  | pallets j _ hpallet => exact (hr.step hselected hpallet).mono subset_enrolled
  | begins j r₁ hi hbegins hqueues hqueues' =>
      subst hi
      have hbegun : (Turn.network j).begins s = some r₁ := hbegins
      rw [hqueues']
      refine Pallets.VotersIn.mono (Relayers.heirs_votersIn (r₁.delayedRelayerSets.getD s.now [])
        { r₁ with delayedRelayerSets := r₁.delayedRelayerSets.remove s.now } set ?_) ?_
      · show r₁.queues.VotersIn set
        rw [hqueues]
        exact hr
      · rw [enrolled, hbegun, Option.elim_some]
        exact Finset.subset_union_left

/-- **Voters are enrolled.**  In every run, everybody on a ballot was a selected relayer at some time, or
has taken the place of somebody who was, or who has taken such a place before. -/
theorem voters_enrolled (h : TurnsEnrolled cfg host x) :
    ∃ r, x.1.relay = some r ∧ r.selectedRelayers ⊆ x.2 ∧ r.queues.VotersIn x.2 := by
  have hall := Reachable.invariant
    (P := fun x : State AccountId (Option (Relayers AccountId (Pallets AccountId))) ×
      Finset AccountId => TurnsIf cfg host anyStep x.1 ∧
        ∃ r, x.1.relay = some r ∧ r.selectedRelayers ⊆ x.2 ∧ r.queues.VotersIn x.2) ?_ ?_ h
  · exact hall.2
  · rintro ⟨s, set⟩ ⟨hs, hset⟩
    replace hset : set = selected s := hset
    obtain ⟨r, members, authority, hr, hqueues⟩ := hs.queues
    rw [selected_eq hr] at hset
    subst hset
    refine ⟨.init hs, r, hr, subset_rfl, ?_⟩
    rw [hqueues]
    exact ⟨Cccp.RelayQueue.genesis_everyBallot, Btc.Blaze.genesis_everyBallot, .genesis⟩
  · rintro ⟨s, set⟩ i ⟨s', set'⟩ ⟨hrun, r, hr, hselected, hvoters⟩ - hwatched
    obtain ⟨hstep, hnote⟩ := watched_eq_some hwatched
    replace hnote : set' = enrolled s i s' set := hnote
    subst hnote
    obtain ⟨r₀, htied, hround⟩ := hrun.network.tied
    obtain rfl : r₀ = r := Option.some.inj (htied.relay.symm.trans hr)
    obtain ⟨r', hr', hturned⟩ := turnStep_turned hrun.network.staking.inv hstep htied hround
    refine ⟨.step hrun trivial hstep, r', hr', ?_, hturned.votersIn hselected hvoters⟩
    show r'.selectedRelayers ⊆ enrolled s i s' set
    rw [enrolled, selected_eq hr']
    exact Finset.subset_union_right

end Turns

/-! ### Small runs -/

section Small

open Cccp (sampleHash)

/-- Relayer 3 votes and is replaced by account 5, and relayer 13 votes.  Both accounts are enrolled. -/
theorem voters_enrolled_small : ∃ x r t, TurnsEnrolled bridgedConfig Btc.smallHost x ∧
    x.1.relay = some r ∧ r.queues.relayQueue.pendingTransfers.get (sampleHash, 77) = some t ∧
    t.onFlightVoters = [5, 13] ∧ 5 ∈ x.2 ∧ 13 ∈ x.2 := by
  have hrun : (bridgedGenesis.build bridgedConfig (Strict.manager Pallets.replaceAuthority)).any (fun s =>
      (runSteps (watched (turnStep bridgedConfig Btc.smallHost) enrolled) (s, selected s)
        (bridgedStart ++ [bridgedVote 3, .network (.relay (.setRelayer (.signed 2) 5)), bridgedRound,
          bridgedVote 13])).any fun x => x.1.relay.any fun r =>
            (r.queues.relayQueue.pendingTransfers.get (sampleHash, 77)).any fun t =>
              decide (t.onFlightVoters = [5, 13])) = true := by
    decide +kernel
  obtain ⟨s, hs, hP⟩ := (Option.any_eq_true _ _).mp hrun
  obtain ⟨x, hx, hP⟩ := (Option.any_eq_true _ _).mp hP
  obtain ⟨r, hr, hP⟩ := (Option.any_eq_true _ _).mp hP
  obtain ⟨t, ht, hP⟩ := (Option.any_eq_true _ _).mp hP
  have hvoters : t.onFlightVoters = [5, 13] := of_decide_eq_true hP
  have henrolled : TurnsEnrolled bridgedConfig Btc.smallHost x :=
    .runSteps (.init ⟨⟨bridgedGenesis, ⟨4, false, .zero, [3, 13], none, rfl⟩, hs⟩, rfl⟩) hx
  obtain ⟨r₀, hr₀, -, hin⟩ := voters_enrolled henrolled
  obtain rfl : r₀ = r := Option.some.inj (hr₀.symm.trans hr)
  have hballot : Ballots.Within x.2 t.onFlightVoters := hin.relayQueue.pending _ t ht
  rw [hvoters] at hballot
  exact ⟨x, r₀, t, henrolled, hr, ht, hvoters, hballot 5 (by simp), hballot 13 (by simp)⟩

/-- **A voter stands in.**  Relayer 3 votes and goes offline, and account 5 takes its place.  It has a
vote, and has never been selected. -/
theorem voter_stands_in : ∃ x r t,
    Reachable (fun x => IsFirst bridgedConfig Btc.smallHost x.1 ∧ x.2 = selected x.1)
      (watched (turnStep bridgedConfig Btc.smallHost) fun _ _ s' set => set ∪ selected s') anyStep x ∧
    x.1.relay = some r ∧ r.queues.relayQueue.pendingTransfers.get (sampleHash, 77) = some t ∧
    5 ∈ t.onFlightVoters ∧ 5 ∉ x.2 := by
  have hrun : (bridgedGenesis.build bridgedConfig (Strict.manager Pallets.replaceAuthority)).any (fun s =>
      (runSteps (watched (turnStep bridgedConfig Btc.smallHost) fun _ _ s' set => set ∪ selected s')
        (s, selected s) (bridgedStart ++ [bridgedVote 3, .network (.call (.signed 2) .goOffline),
          .network (.relay (.setRelayer (.signed 2) 5)), bridgedRound])).any fun x =>
            x.1.relay.any fun r =>
              (r.queues.relayQueue.pendingTransfers.get (sampleHash, 77)).any fun t =>
                decide (5 ∈ t.onFlightVoters ∧ 5 ∉ x.2)) = true := by
    decide +kernel
  obtain ⟨s, hs, hP⟩ := (Option.any_eq_true _ _).mp hrun
  obtain ⟨x, hx, hP⟩ := (Option.any_eq_true _ _).mp hP
  obtain ⟨r, hr, hP⟩ := (Option.any_eq_true _ _).mp hP
  obtain ⟨t, ht, hP⟩ := (Option.any_eq_true _ _).mp hP
  exact ⟨x, r, t,
    .runSteps (.init ⟨⟨bridgedGenesis, ⟨4, false, .zero, [3, 13], none, rfl⟩, hs⟩, rfl⟩) hx,
    hr, ht, of_decide_eq_true hP⟩

end Small

end Relay

end BifrostNode
