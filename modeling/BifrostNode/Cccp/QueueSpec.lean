import BifrostNode.Cccp.Queue

/-!
# What the calls of the relay queue do

One lemma for each call takes its success apart.  `Polled` and `Closing` are what the two polls find
out before they write, and the lemmas about them are the only ones that unfold the polls.
-/

namespace BifrostNode.Cccp

open Staking Transition

variable {AccountId : Type}

/-! ## Caps -/

section Caps

variable {s s' : RelayQueue AccountId}

lemma toBalance_eq_some {n b : ℕ} : RelayQueue.toBalance n = some b ↔ n < 2 ^ 128 ∧ n = b := by
  rw [RelayQueue.toBalance]
  split_ifs with hn
  · simp only [Option.some.injEq, hn, true_and]
  · simp only [hn, false_and]

/-- The option of a transfer and the cap it takes, if it is fast. -/
lemma currentOption_ok {index : H256} {amount : ℕ} {option : TransferOption}
    (h : s.currentOption index amount = .ok option) (hfast : option = .fast) :
    ∃ assetId cap, s.getAssetInfo index = some (assetId, cap) ∧
      cap.onFlightCap + amount ≤ cap.maxOnFlightCap := by
  rw [RelayQueue.currentOption] at h
  cases hinfo : s.getAssetInfo index with
  | none =>
      simp only [hinfo, pure_eq_ok] at h
      rw [hfast] at h
      cases h
  | some asset =>
      obtain ⟨assetId, cap⟩ := asset
      simp only [hinfo, RelayQueue.determineTransferOption, bind_eq_ok, okOr_eq_ok, pure_eq_ok] at h
      obtain ⟨after, hafter, h⟩ := h
      refine ⟨assetId, cap, rfl, ?_⟩
      have hsum : after = cap.onFlightCap + amount := by
        rw [RelayQueue.checkedAdd] at hafter
        split_ifs at hafter
        exact (Option.some.inj hafter).symm
      rw [← hsum]
      by_contra hlt
      rw [if_pos (not_le.mp hlt), hfast] at h
      cases h

lemma getAssetInfo_eq_some {index : H256} {assetId : H160} {cap : AssetCapInfo} :
    s.getAssetInfo index = some (assetId, cap) ↔
      s.assetIndexes.get index = some assetId ∧ s.assetCaps.get assetId = some cap := by
  simp only [RelayQueue.getAssetInfo, Option.bind_eq_bind, Option.bind_eq_some_iff, Option.pure_def,
    Option.some.injEq, Prod.mk.injEq]
  constructor
  · rintro ⟨a, ha, c, hc, rfl, rfl⟩
    exact ⟨ha, hc⟩
  · rintro ⟨ha, hc⟩
    exact ⟨assetId, ha, cap, hc, rfl, rfl⟩

lemma updateFastTransferCap_ok {assetId : H160} {cap : AssetCapInfo} {amount : ℕ} {add : Bool}
    (h : s.updateFastTransferCap assetId cap amount add = .ok s') :
    ∃ new, s' = { s with assetCaps := s.assetCaps.insert assetId { cap with onFlightCap := new } } ∧
      (if add then new = cap.onFlightCap + amount
        else amount ≤ cap.onFlightCap ∧ new = cap.onFlightCap - amount) := by
  simp only [RelayQueue.updateFastTransferCap, bind_eq_ok, okOr_eq_ok, pure_eq_ok] at h
  obtain ⟨new, hnew, balance, hbalance, rfl⟩ := h
  obtain ⟨-, rfl⟩ := toBalance_eq_some.mp hbalance
  refine ⟨new, rfl, ?_⟩
  cases add with
  | true =>
      simp only [if_true, RelayQueue.checkedAdd] at hnew ⊢
      split_ifs at hnew
      exact (Option.some.inj hnew).symm
  | false =>
      simp only [Bool.false_eq_true, if_false, RelayQueue.checkedSub] at hnew ⊢
      split_ifs at hnew with hle
      exact ⟨hle, (Option.some.inj hnew).symm⟩

/-- **Taking up the cap.**  A standard transfer takes nothing, and a fast one fits under the cap of its
asset. -/
lemma takeCap_ok {info : TransferInfo AccountId} {index : H256} {amount : ℕ}
    (hoption : s.currentOption index amount = .ok info.option)
    (h : s.takeCap info index amount = .ok s') :
    (info.option = .standard ∧ s' = s) ∨
    (info.option = .fast ∧ ∃ assetId cap, s.assetIndexes.get index = some assetId ∧
      s.assetCaps.get assetId = some cap ∧ cap.onFlightCap + amount ≤ cap.maxOnFlightCap ∧
      s' = { s with
        assetCaps :=
          s.assetCaps.insert assetId { cap with onFlightCap := cap.onFlightCap + amount } }) := by
  cases hkind : info.option with
  | standard =>
      refine .inl ⟨rfl, ?_⟩
      rw [RelayQueue.takeCap] at h
      split at h
      · rw [if_neg (by simp [hkind]), pure_eq_ok] at h
        exact h.symm
      · rw [pure_eq_ok] at h
        exact h.symm
  | fast =>
      refine .inr ⟨rfl, ?_⟩
      obtain ⟨assetId, cap, hinfo, hle⟩ := currentOption_ok hoption hkind
      obtain ⟨hindex, hcap⟩ := getAssetInfo_eq_some.mp hinfo
      simp only [RelayQueue.takeCap, hinfo, hkind, if_true] at h
      obtain ⟨new, rfl, hnew⟩ := updateFastTransferCap_ok h
      simp only [if_true] at hnew
      exact ⟨assetId, cap, hindex, hcap, hle, by rw [hnew]⟩

/-- **Finalizing.**  The transfer moves from the on-flight to the finalized ones, and only caps change. -/
lemma finalize_ok {msgHash index : H256} {amount : ℕ} {transfer : TransferInfoWithTxId AccountId}
    (h : s.finalize msgHash index amount transfer = .ok s') :
    ∃ caps, s' = { s with
        onFlightTransfers := s.onFlightTransfers.remove msgHash
        finalizedTransfers := s.finalizedTransfers.insert msgHash transfer
        assetCaps := caps } ∧
      ((caps = s.assetCaps ∧ (transfer.option = .standard ∨ s.getAssetInfo index = none)) ∨
        (transfer.option = .fast ∧ ∃ assetId cap, s.assetIndexes.get index = some assetId ∧
          s.assetCaps.get assetId = some cap ∧ amount ≤ cap.onFlightCap ∧
          caps = s.assetCaps.insert assetId
            { cap with onFlightCap := cap.onFlightCap - amount })) := by
  simp only [RelayQueue.finalize] at h
  cases hkind : transfer.option with
  | standard =>
      simp only [hkind, reduceCtorEq, if_false, pure_eq_ok] at h
      exact ⟨s.assetCaps, h.symm, .inl ⟨rfl, .inl rfl⟩⟩
  | fast =>
      simp only [hkind, if_true] at h
      cases hinfo : s.getAssetInfo index with
      | none =>
          simp only [hinfo, pure_eq_ok] at h
          exact ⟨s.assetCaps, h.symm, .inl ⟨rfl, .inr rfl⟩⟩
      | some asset =>
          obtain ⟨assetId, cap⟩ := asset
          obtain ⟨hindex, hcap⟩ := getAssetInfo_eq_some.mp hinfo
          simp only [hinfo] at h
          obtain ⟨new, rfl, hnew⟩ := updateFastTransferCap_ok h
          simp only [Bool.false_eq_true, if_false] at hnew
          exact ⟨_, rfl, .inr ⟨rfl, assetId, cap, hindex, hcap, hnew.1, by rw [hnew.2]⟩⟩

end Caps

variable [LinearOrder AccountId]

/-! ## The machine -/

/-- What can happen to the queue. -/
inductive Step (AccountId : Type)
  | onFlightPoll (o : Outlook AccountId) (sub : OnFlightPollSubmission AccountId)
  | finalizePoll (o : Outlook AccountId) (sub : FinalizePollSubmission AccountId)
  | setSocket (origin : Origin AccountId) (new : AccountId)
  | addAsset (origin : Origin AccountId) (assetId : H160) (maxOnFlightCap : ℕ)
      (assetIndexes : List AssetIndexInfo)
  | removeAsset (origin : Origin AccountId) (assetId : H160)
  | updateAsset (origin : Origin AccountId) (assetId : H160) (newMaxOnFlightCap : Option ℕ)
      (add update : Option (List AssetIndexInfo)) (remove : Option (List H256))
  | replaceAuthority (old new : AccountId)

/-- Calls are transactional. -/
def RelayQueue.step (host : Host) (s : RelayQueue AccountId) :
    Step AccountId → Option (RelayQueue AccountId)
  | .onFlightPoll o sub => some (commit s (s.onFlightPoll host o sub))
  | .finalizePoll o sub => some (commit s (s.finalizePoll host o sub))
  | .setSocket origin new => some (commit s (s.setSocket origin new))
  | .addAsset origin assetId maxOnFlightCap assetIndexes =>
      some (commit s (s.addAsset origin assetId maxOnFlightCap assetIndexes))
  | .removeAsset origin assetId => some (commit s (s.removeAsset origin assetId))
  | .updateAsset origin assetId newMaxOnFlightCap add update remove =>
      some (commit s (s.updateAsset origin assetId newMaxOnFlightCap add update remove))
  | .replaceAuthority old new => some (s.replaceAuthority old new)

/-- The states of runs all of whose steps meet a condition. -/
def ReachableIf (host : Host) (cond : RelayQueue AccountId → Step AccountId → Prop)
    (s : RelayQueue AccountId) : Prop :=
  Reachable (fun s => s = RelayQueue.genesis) (RelayQueue.step host) cond s

/-! ### A sample transfer

A thousand units of the asset with the index `0x10000000100000bfcff..ff` from chain 1 to chain 3068, in
the form in which the ABI writes it: words of 32 bytes, fixed bytes to the left and numbers to the
right.  Hashes are those of these bytes. -/

section Sample

def word (n : ℕ) : Bytes := (List.range 32).map fun i => .ofNat (n / 256 ^ (31 - i))

def sampleIndex : H256 := 0x10000000100000bfcffffffffffffffffffffffffffffffffffffffff

def sampleMessage (status : U256) : SocketMessage where
  reqId := ⟨[0, 0, 0, 1], 0, 7⟩
  status := status
  insCode := ⟨[0, 0, 11, 252], [0, 0, 0, 0, 0, 0, 0, 0, 0, 0, 0, 0, 0, 0, 0, 3]⟩
  params := ⟨word sampleIndex.val, word sampleIndex.val, 0xa1, 0xb2, 1000, []⟩

def sampleRequestBytes : Bytes :=
  [0x20, 3068 * 2 ^ 224, 3 * 2 ^ 128, 3 * 32, sampleIndex.val, sampleIndex.val, 0xa1, 0xb2, 1000,
    6 * 32, 0].flatMap word

def sampleBytes (status : U256) : Bytes :=
  [0x20, 2 ^ 224, 0, 7, status.val, 3068 * 2 ^ 224, 3 * 2 ^ 128, 7 * 32, sampleIndex.val,
    sampleIndex.val, 0xa1, 0xb2, 1000, 6 * 32, 0].flatMap word

def sampleHash : H256 := 0xc19fab6ab37f57619f0b40cf5845486d75a5c09665cccc2a240f1e6cc28af3de

def sampleRequestHash : H256 := 0x7814a3f3943591cffc12dbb6e65bdd69585efa15a2f48ea3800c25c4247541ed

/-- The codec and the hash, on what the sample needs of them. -/
def sampleCodec : Codec where
  decode _ bytes :=
    ([1, 5].find? fun status => bytes = sampleBytes status).map fun status =>
      let m := sampleMessage status
      [.tuple [.tuple m.reqId.tokens, .uint m.status, .tuple m.insCode.tokens,
        .tuple m.params.tokens]]
  encode
    | [.tuple [_, .uint status, _, _]] => sampleBytes status
    | [.tuple _] => sampleRequestBytes
    | _ => [2 ^ 224, 0, 7].flatMap word
  keccak256 bytes :=
    if bytes = sampleBytes 1 then sampleHash
    else if bytes = sampleRequestBytes then sampleRequestHash else 0

def sampleHost : Host := ⟨sampleCodec, 3068⟩

/-- Everyone is a relayer, and the contract gives the same answer to everything. -/
def sampleOutlook (majority : ℕ) (status : U256) : Outlook ℕ where
  isAuthority _ := true
  majority := majority
  getRequest _ _ := some ⟨status, sampleRequestHash⟩
  maxSocketMessageBytes := 1000

/-- A vote for the sample, which has not been registered yet. -/
def sampleVote (majority authority : ℕ) : Step ℕ :=
  .onFlightPoll (sampleOutlook majority 0) ⟨authority, sampleBytes 1, sampleHash, 77⟩

/-- A vote for its acceptance. -/
def sampleEnd (majority authority : ℕ) : Step ℕ :=
  .finalizePoll (sampleOutlook majority 5) ⟨authority, sampleBytes 5⟩

/-- The asset of the sample gets a cap. -/
def sampleAsset : List (Step ℕ) :=
  [.setSocket .root 9, .addAsset .root 5 10000 [⟨sampleIndex, false⟩]]

end Sample

/-! ## Polls -/

section Polls

variable {host : Host} {o : Outlook AccountId} {s s' : RelayQueue AccountId}

lemma validateAndParse_ok {message : Bytes} {check : SocketMessage → Bool} {msg : SocketMessage}
    (h : RelayQueue.validateAndParseSocketMessage host message check = .ok msg) :
    SocketMessage.tryFrom host.codec message = some msg ∧ check msg = true := by
  simp only [RelayQueue.validateAndParseSocketMessage, bind_eq_ok, ensure_eq_ok, okOr_eq_ok,
    pure_eq_ok, exists_const] at h
  obtain ⟨-, m, hm, hcheck, rfl⟩ := h
  exact ⟨hm, hcheck⟩

lemma addVoterToList_ok {voters voters' : List AccountId} {authorityId : AccountId}
    (h : RelayQueue.addVoterToList voters authorityId = .ok voters') :
    authorityId ∉ voters ∧ voters' = voters ++ [authorityId] := by
  simp only [RelayQueue.addVoterToList, bind_eq_ok, ensure_eq_ok, pure_eq_ok, exists_const] at h
  exact ⟨h.1, h.2.2.symm⟩

/-- **A vote on a source transaction**, before anything is written.  `info` is the entry that the vote
leads to. -/
structure Polled (host : Host) (o : Outlook AccountId) (s : RelayQueue AccountId)
    (sub : OnFlightPollSubmission AccountId) (parsed : SocketMessage) (info : TransferInfo AccountId) :
    Prop where
  parses : SocketMessage.tryFrom host.codec sub.msg = some parsed
  requested : parsed.isRequested = true
  hash_eq : sub.msgHash = parsed.hash host.codec
  authority : o.isAuthority sub.authorityId = true
  not_onFlight : s.onFlightTransfers.get sub.msgHash = none
  not_finalized : s.finalizedTransfers.get sub.msgHash = none
  quota : s.pendingTransfers.get (sub.msgHash, sub.srcTxId) = none →
    s.pendingTransferCount.getD sub.authorityId 0 < maxPendingTransfersPerRelayer
  option_eq : s.currentOption (h256FromSlice parsed.params.tokenIdx0) parsed.params.amount.val =
    .ok info.option
  entry : (∃ pending, s.pendingTransfers.get (sub.msgHash, sub.srcTxId) = some pending ∧
      sub.authorityId ∉ pending.onFlightVoters ∧
      info = { pending with
        onFlightVoters := pending.onFlightVoters ++ [sub.authorityId], option := info.option }) ∨
    (s.pendingTransfers.get (sub.msgHash, sub.srcTxId) = none ∧
      info.onFlightVoters = [sub.authorityId] ∧ info.amount = parsed.params.amount.val ∧
      info.assetIndexHash = h256FromSlice parsed.params.tokenIdx0)

/-- **`on_flight_poll`**: the transfer gets on flight, or the vote is kept. -/
lemma onFlightPoll_ok {sub : OnFlightPollSubmission AccountId}
    (h : s.onFlightPoll host o sub = .ok s') :
    ∃ parsed info, Polled host o s sub parsed info ∧
      ((o.majority ≤ info.onFlightVoters.length ∧ ∃ s₁,
          s.takeCap info (h256FromSlice parsed.params.tokenIdx0) parsed.params.amount.val = .ok s₁ ∧
          s' = { s₁.clearPending sub.msgHash with
            onFlightTransfers := (s₁.clearPending sub.msgHash).onFlightTransfers.insert sub.msgHash
              (.fromTransferInfo info sub.srcTxId) }) ∨
        (info.onFlightVoters.length < o.majority ∧
          s' = s.keepPending sub.authorityId sub.msgHash sub.srcTxId info)) := by
  simp only [RelayQueue.onFlightPoll, bind_eq_ok, ensure_eq_ok, okOr_eq_ok, exists_const,
    RelayQueue.verifyAuthority] at h
  obtain ⟨-, hauth, parsed, hparse, -, hhash, amount, hamount, src, hsrc, dst, hdst, hflight, hfinal,
    hquota, option, hoption, ⟨⟩, hdir, info, hcast, h⟩ := h
  obtain ⟨hparses, hrequested⟩ := validateAndParse_ok hparse
  obtain ⟨-, rfl⟩ := toBalance_eq_some.mp hamount
  have hnone : ∀ {K V : Type} {m : StorageMap K V} {k : K}, (!m.contains k) = true →
      m.get k = none := by
    intro K V m k hk
    simpa [StorageMap.contains] using hk
  have hentry : info.option = option ∧ ((∃ pending,
      s.pendingTransfers.get (sub.msgHash, sub.srcTxId) = some pending ∧
      sub.authorityId ∉ pending.onFlightVoters ∧
      info = { pending with
        onFlightVoters := pending.onFlightVoters ++ [sub.authorityId], option := info.option }) ∨
    (s.pendingTransfers.get (sub.msgHash, sub.srcTxId) = none ∧
      info.onFlightVoters = [sub.authorityId] ∧ info.amount = parsed.params.amount.val ∧
      info.assetIndexHash = h256FromSlice parsed.params.tokenIdx0)) := by
    rw [RelayQueue.castVote] at hcast
    cases hpending : s.pendingTransfers.get (sub.msgHash, sub.srcTxId) with
    | none =>
        simp only [hpending, pure_eq_ok] at hcast
        subst hcast
        exact ⟨rfl, .inr ⟨rfl, rfl, rfl, rfl⟩⟩
    | some pending =>
        simp only [hpending, bind_eq_ok, pure_eq_ok] at hcast
        obtain ⟨voters, hvoters, rfl⟩ := hcast
        obtain ⟨hfresh, rfl⟩ := addVoterToList_ok hvoters
        exact ⟨rfl, .inl ⟨pending, rfl, hfresh, rfl⟩⟩
  obtain ⟨rfl, hentry⟩ := hentry
  refine ⟨parsed, info, ⟨hparses, hrequested, hhash, hauth, hnone hflight, hnone hfinal,
    fun hpending => ?_, hoption, hentry⟩, ?_⟩
  · simpa [StorageMap.contains, hpending] using hquota
  · split_ifs at h with hmajority
    · simp only [bind_eq_ok, pure_eq_ok] at h
      obtain ⟨s₁, h₁, rfl⟩ := h
      exact .inl ⟨hmajority, s₁, h₁, rfl⟩
    · simp only [pure_eq_ok] at h
      exact .inr ⟨not_le.mp hmajority, h.symm⟩

/-- **A vote on an end**, before anything is written. -/
structure Closing (host : Host) (o : Outlook AccountId) (s : RelayQueue AccountId)
    (sub : FinalizePollSubmission AccountId) (parsed : SocketMessage)
    (transfer : TransferInfoWithTxId AccountId) : Prop where
  parses : SocketMessage.tryFrom host.codec sub.msg = some parsed
  authority : o.isAuthority sub.authorityId = true
  not_finalized : s.finalizedTransfers.get (parsed.requested.hash host.codec) = none
  onFlight : s.onFlightTransfers.get (parsed.requested.hash host.codec) = some transfer
  fresh : sub.authorityId ∉ transfer.finalizationVoters

/-- The transfer with another vote on its end. -/
def TransferInfoWithTxId.closedBy (transfer : TransferInfoWithTxId AccountId)
    (authorityId : AccountId) : TransferInfoWithTxId AccountId :=
  { transfer with finalizationVoters := transfer.finalizationVoters ++ [authorityId] }

/-- **`finalize_poll`**: the transfer is finalized, or the vote is kept. -/
lemma finalizePoll_ok {sub : FinalizePollSubmission AccountId}
    (h : s.finalizePoll host o sub = .ok s') :
    ∃ parsed transfer, Closing host o s sub parsed transfer ∧
      ((s.finalize (parsed.requested.hash host.codec) (h256FromSlice parsed.params.tokenIdx0)
            parsed.params.amount.val (transfer.closedBy sub.authorityId) = .ok s' ∧
          (parsed.isOutbound host.chainId = true ∨
            o.majority ≤ (transfer.closedBy sub.authorityId).finalizationVoters.length)) ∨
        (parsed.isOutbound host.chainId = false ∧ s' = { s with
          onFlightTransfers := s.onFlightTransfers.insert (parsed.requested.hash host.codec)
            (transfer.closedBy sub.authorityId) })) := by
  simp only [RelayQueue.finalizePoll, bind_eq_ok, ensure_eq_ok, okOr_eq_ok, exists_const,
    RelayQueue.verifyAuthority] at h
  obtain ⟨hauth, parsed, hparse, src, hsrc, dst, hdst, hfinal, transfer, htransfer, request, hrequest,
    voters, hvoters, h⟩ := h
  obtain ⟨hfresh, rfl⟩ := addVoterToList_ok hvoters
  refine ⟨parsed, transfer, ⟨(validateAndParse_ok hparse).1, hauth, ?_, htransfer, hfresh⟩, ?_⟩
  · simpa [StorageMap.contains] using hfinal
  · split_ifs at h with hout hmajority
    · simp only [bind_eq_ok, ensure_eq_ok, exists_const] at h
      exact .inl ⟨h.2, .inl hout⟩
    · simp only [bind_eq_ok, ensure_eq_ok, exists_const] at h
      exact .inl ⟨h.2, .inr hmajority⟩
    · simp only [bind_eq_ok, ensure_eq_ok, exists_const, pure_eq_ok] at h
      exact .inr ⟨by simpa using hout, h.2.symm⟩

end Polls

end BifrostNode.Cccp
