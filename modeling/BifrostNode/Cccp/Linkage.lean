import BifrostNode.Cccp.Abi
import BifrostNode.Cccp.Lifecycle

/-!
# Ends and their transfers

An end names its transfer by what it says.  It is read from bytes, its status is overwritten, and what is
written then is hashed to the key under which the transfer has to be on flight.

**Bytes and messages.**  Many byte strings are read as one message, but a message is written in one way,
and only one message that can be read is written so (`SocketMessage.hash_injective`).  Keys stand for
messages therefore, and not for the bytes that were sent.

**Records.**  Whatever is kept under a hash has been filed for a message with that hash
(`Reachable.filed`).

**Request ids.**  The contract is asked for the hash of the request alone, which has neither the request
id nor the status in it.  As long as it sticks to its answers, there is one message for a request id.
-/

namespace BifrostNode.Cccp

open Staking Transition

/-! ## Messages and tokens -/

namespace Token

variable {t : Token}

lemma toFixedBytes_eq_some {b : Bytes} : t.toFixedBytes = some b ↔ t = .fixedBytes b := by
  cases t <;> simp [toFixedBytes]

lemma toUint_eq_some {n : U256} : t.toUint = some n ↔ t = .uint n := by
  cases t <;> simp [toUint]

lemma toAddress_eq_some {a : H160} : t.toAddress = some a ↔ t = .address a := by
  cases t <;> simp [toAddress]

lemma toBytes_eq_some {b : Bytes} : t.toBytes = some b ↔ t = .bytes b := by
  cases t <;> simp [toBytes]

lemma toTuple_eq_some {ts : List Token} : t.toTuple = some ts ↔ t = .tuple ts := by
  cases t <;> simp [toTuple]

end Token

open Token

lemma RequestID.tryFrom_eq_some {ts : List Token} {id : RequestID} :
    RequestID.tryFrom ts = some id ↔ ts = id.tokens := by
  constructor
  · intro h
    unfold RequestID.tryFrom at h
    split at h
    · simp only [Option.bind_eq_bind, Option.bind_eq_some_iff, Option.pure_def, Option.some.injEq,
        toFixedBytes_eq_some, toUint_eq_some] at h
      obtain ⟨chain, rfl, roundId, rfl, sequence, rfl, rfl⟩ := h
      rfl
    · cases h
  · rintro rfl
    rfl

lemma Instruction.tryFrom_eq_some {ts : List Token} {code : Instruction} :
    Instruction.tryFrom ts = some code ↔ ts = code.tokens := by
  constructor
  · intro h
    unfold Instruction.tryFrom at h
    split at h
    · simp only [Option.bind_eq_bind, Option.bind_eq_some_iff, Option.pure_def, Option.some.injEq,
        toFixedBytes_eq_some] at h
      obtain ⟨chain, rfl, method, rfl, rfl⟩ := h
      rfl
    · cases h
  · rintro rfl
    rfl

lemma TaskParams.tryFrom_eq_some {ts : List Token} {params : TaskParams} :
    TaskParams.tryFrom ts = some params ↔ ts = params.tokens := by
  constructor
  · intro h
    unfold TaskParams.tryFrom at h
    split at h
    · simp only [Option.bind_eq_bind, Option.bind_eq_some_iff, Option.pure_def, Option.some.injEq,
        toFixedBytes_eq_some, toAddress_eq_some, toUint_eq_some, toBytes_eq_some] at h
      obtain ⟨idx0, rfl, idx1, rfl, refund, rfl, toUser, rfl, amount, rfl, variants, rfl, rfl⟩ := h
      rfl
    · cases h
  · rintro rfl
    rfl

namespace SocketMessage

def tokens (self : SocketMessage) : List Token :=
  [.tuple self.reqId.tokens, .uint self.status, .tuple self.insCode.tokens, .tuple self.params.tokens]

lemma tryFromTokens_eq_some {ts : List Token} {m : SocketMessage} :
    tryFromTokens ts = some m ↔ ts = m.tokens := by
  constructor
  · intro h
    unfold tryFromTokens at h
    split at h
    · simp only [Option.bind_eq_bind, Option.bind_eq_some_iff, Option.pure_def, Option.some.injEq,
        toTuple_eq_some, toUint_eq_some, RequestID.tryFrom_eq_some, Instruction.tryFrom_eq_some,
        TaskParams.tryFrom_eq_some] at h
      obtain ⟨-, rfl, reqId, rfl, status, rfl, -, rfl, code, rfl, -, rfl, params, rfl, rfl⟩ := h
      rfl
    · cases h
  · rintro rfl
    rfl

lemma tokens_injective : Function.Injective tokens := by
  intro m m' h
  have hm : tryFromTokens m.tokens = some m := tryFromTokens_eq_some.mpr rfl
  have hm' : tryFromTokens m.tokens = some m' := tryFromTokens_eq_some.mpr h
  exact Option.some.inj (hm.symm.trans hm')

/-- The tokens have the kinds that a message is read with. -/
def WellTyped (self : SocketMessage) : Prop := ParamKind.HasAll kinds [.tuple self.tokens]

lemma WellTyped.requested {m : SocketMessage} (h : m.WellTyped) : m.requested.WellTyped := h

end SocketMessage

namespace UserRequest

def kinds : List ParamKind :=
  [.tuple [.tuple [.fixedBytes 4, .fixedBytes 16],
    .tuple [.fixedBytes 32, .fixedBytes 32, .address, .address, .uint 256, .bytes]]]

def tokens (self : UserRequest) : List Token :=
  [.tuple self.insCode.tokens, .tuple self.params.tokens]

lemma tokens_injective : Function.Injective tokens := by
  rintro ⟨code, params⟩ ⟨code', params'⟩ h
  simp only [tokens, List.cons.injEq, Token.tuple.injEq, and_true] at h
  have hcode : Instruction.tryFrom code.tokens = some code := Instruction.tryFrom_eq_some.mpr rfl
  have hparams : TaskParams.tryFrom params.tokens = some params := TaskParams.tryFrom_eq_some.mpr rfl
  have hcode' : Instruction.tryFrom code.tokens = some code' := Instruction.tryFrom_eq_some.mpr h.1
  have hparams' : TaskParams.tryFrom params.tokens = some params' :=
    TaskParams.tryFrom_eq_some.mpr h.2
  rw [Option.some.inj (hcode.symm.trans hcode'), Option.some.inj (hparams.symm.trans hparams')]

end UserRequest

/-- The request that the user has made with a message. -/
def SocketMessage.request (self : SocketMessage) : UserRequest := ⟨self.insCode, self.params⟩

lemma SocketMessage.WellTyped.request {m : SocketMessage} (h : m.WellTyped) :
    ParamKind.HasAll UserRequest.kinds [.tuple m.request.tokens] := by
  simp only [WellTyped, kinds, tokens, ParamKind.HasAll, ParamKind.Has] at h
  simp only [UserRequest.kinds, UserRequest.tokens, ParamKind.HasAll, ParamKind.Has]
  obtain ⟨⟨-, -, hcode, hparams, -⟩, -⟩ := h
  exact ⟨⟨hcode, hparams, trivial⟩, trivial⟩

/-! ## Messages and bytes -/

section Codec

variable {codec : Codec} {B : Set Bytes} {m m' : SocketMessage}

/-- Tokens of one kind are told apart by their hash. -/
lemma Codec.LawfulOn.tokens_eq (hcodec : codec.LawfulOn B) {kinds : List ParamKind}
    {ts ts' : List Token} (hts : ParamKind.HasAll kinds ts) (hts' : ParamKind.HasAll kinds ts')
    (hB : codec.encode ts ∈ B) (hB' : codec.encode ts' ∈ B)
    (h : codec.keccak256 (codec.encode ts) = codec.keccak256 (codec.encode ts')) : ts = ts' := by
  have hbytes : codec.encode ts = codec.encode ts' := hcodec.keccak_injOn hB hB' h
  have hread := hcodec.decode_encode hts hB
  rw [hbytes, hcodec.decode_encode hts' hB'] at hread
  exact (Option.some.inj hread).symm

/-- What is read is well typed. -/
lemma wellTyped_of_tryFrom (hcodec : codec.LawfulOn B) {bytes : Bytes}
    (h : SocketMessage.tryFrom codec bytes = some m) : m.WellTyped := by
  simp only [SocketMessage.tryFrom, Option.bind_eq_bind, Option.bind_eq_some_iff] at h
  obtain ⟨ts, hts, h⟩ := h
  have htyped := hcodec.decode_typed hts
  split at h
  · rename_i msg rest
    obtain rfl := SocketMessage.tryFromTokens_eq_some.mp h
    cases rest with
    | nil => exact htyped
    | cons t rest => exact htyped.2.elim
  · cases h

/-- **Keys stand for messages.**  Where the codec is lawful, two messages with one hash are equal. -/
lemma SocketMessage.hash_injective (hcodec : codec.LawfulOn B) (hm : m.WellTyped) (hm' : m'.WellTyped)
    (hB : m.encode codec ∈ B) (hB' : m'.encode codec ∈ B) (h : m.hash codec = m'.hash codec) :
    m = m' := by
  have htokens := hcodec.tokens_eq hm hm' hB hB' h
  simp only [List.cons.injEq, Token.tuple.injEq, and_true] at htokens
  exact tokens_injective htokens

/-- The hashes that the contract keeps stand for requests. -/
lemma UserRequest.hash_injective (hcodec : codec.LawfulOn B) (hm : m.WellTyped) (hm' : m'.WellTyped)
    (hB : m.request.encode codec ∈ B) (hB' : m'.request.encode codec ∈ B)
    (h : codec.keccak256 (m.request.encode codec) = codec.keccak256 (m'.request.encode codec)) :
    m.insCode = m'.insCode ∧ m.params = m'.params := by
  have htokens := hcodec.tokens_eq hm.request hm'.request hB hB' h
  simp only [List.cons.injEq, Token.tuple.injEq, and_true] at htokens
  have hrequest : m.request = m'.request := tokens_injective htokens
  exact ⟨congrArg UserRequest.insCode hrequest, congrArg UserRequest.params hrequest⟩

end Codec

/-! ## Records -/

/-- A record has been filed for a message: it was read from the bytes that are kept, and the key and
what is recorded come from it. -/
structure Record.Files (codec : Codec) (r : Record) (k : H256) (m : SocketMessage) : Prop where
  parses : SocketMessage.tryFrom codec r.socketMessage = some m
  requested : m.isRequested = true
  key : k = m.hash codec
  amount : r.amount = m.params.amount.val
  assetIndexHash : r.assetIndexHash = h256FromSlice m.params.tokenIdx0

variable {AccountId : Type}

/-- A record is kept under a hash, at any stage. -/
def RelayQueue.Kept (s : RelayQueue AccountId) (k : H256) (r : Record) : Prop :=
  (∃ tx, (s.pendingTransfers.get (k, tx)).map TransferInfo.record = some r) ∨
    (s.won k).map (fun t => t.record) = some r

section Steps

variable {s s' : RelayQueue AccountId} {k : H256} {r : Record}

lemma Aside.kept (h : Aside s s') (hr : s'.Kept k r) : s.Kept k r := by
  obtain ⟨hp, ho, hf⟩ := h
  simpa only [RelayQueue.Kept, RelayQueue.won, hp, ho, hf] using hr

variable [LinearOrder AccountId] {host : Host} {o : Outlook AccountId}

lemma replaceAuthority_kept {old new : AccountId} (hr : (s.replaceAuthority old new).Kept k r) :
    s.Kept k r := by
  rcases hr with ⟨tx, hr⟩ | hr
  · simp only [RelayQueue.replaceAuthority, StorageMap.get_mapVals, Option.map_map] at hr
    exact .inl ⟨tx, hr⟩
  · refine .inr ?_
    simp only [RelayQueue.won, RelayQueue.replaceAuthority, StorageMap.get_mapVals] at hr ⊢
    cases hf : s.finalizedTransfers.get k with
    | some t => simpa [hf] using hr
    | none =>
        simp only [hf, Option.none_or, Option.map_map] at hr ⊢
        exact hr

/-- **A vote on an end** goes to one transfer, and the others stay where they are. -/
lemma finalizePoll_votes {sub : FinalizePollSubmission AccountId}
    (h : s.finalizePoll host o sub = .ok s') :
    ∃ f t, Closing host o s sub f t ∧ s'.pendingTransfers = s.pendingTransfers ∧
      s'.won (f.requested.hash host.codec) = some (t.closedBy sub.authorityId) ∧
      ∀ k, k ≠ f.requested.hash host.codec →
        s'.onFlightTransfers.get k = s.onFlightTransfers.get k ∧
        s'.finalizedTransfers.get k = s.finalizedTransfers.get k := by
  obtain ⟨f, t, hc, hcase⟩ := finalizePoll_ok h
  rcases hcase with ⟨hfin, -⟩ | ⟨-, rfl⟩
  · obtain ⟨caps, rfl, -⟩ := finalize_ok hfin
    refine ⟨f, t, hc, rfl, ?_, fun k hk => ⟨StorageMap.get_remove_of_ne _ hk,
      StorageMap.get_insert_of_ne _ hk _⟩⟩
    simp only [RelayQueue.won, StorageMap.get_insert_self, Option.some_or]
  · refine ⟨f, t, hc, rfl, ?_, fun k hk => ⟨StorageMap.get_insert_of_ne _ hk _, rfl⟩⟩
    simp only [RelayQueue.won, hc.not_finalized, StorageMap.get_insert_self, Option.none_or]

lemma finalizePoll_kept {sub : FinalizePollSubmission AccountId}
    (h : s.finalizePoll host o sub = .ok s') (hr : s'.Kept k r) : s.Kept k r := by
  obtain ⟨f, t, hc, hpending, hwon, hothers⟩ := finalizePoll_votes h
  rcases hr with ⟨tx, hr⟩ | hr
  · rw [hpending] at hr
    exact .inl ⟨tx, hr⟩
  · refine .inr ?_
    by_cases hk : k = f.requested.hash host.codec
    · subst hk
      rw [hwon] at hr
      rw [RelayQueue.won, hc.not_finalized, hc.onFlight]
      exact hr
    · rwa [RelayQueue.won, (hothers k hk).1, (hothers k hk).2] at hr

/-- The entry that a vote leads to has the record of the one that was there, or a new one. -/
lemma castVote_record {authorityId : AccountId} {msgHash tx : H256} {fresh info : TransferInfo AccountId}
    (h : s.castVote authorityId msgHash tx fresh = .ok info) :
    (s.pendingTransfers.get (msgHash, tx)).map TransferInfo.record = some info.record ∨
      info.record = fresh.record := by
  rw [RelayQueue.castVote] at h
  split at h
  · rename_i pending hpending
    simp only [bind_eq_ok, pure_eq_ok] at h
    obtain ⟨voters, -, rfl⟩ := h
    rw [hpending]
    exact .inl rfl
  · rw [← pure_eq_ok.mp h]
    exact .inr rfl

/-- **A vote for a source transaction** files its message, unless the source transaction has a record
already. -/
lemma onFlightPoll_kept {sub : OnFlightPollSubmission AccountId}
    (h : s.onFlightPoll host o sub = .ok s') (hr : s'.Kept k r) :
    s.Kept k r ∨ ∃ m, SocketMessage.tryFrom host.codec sub.msg = some m ∧
      r.Files host.codec k m ∧ s.validateDirection host o m = .ok () := by
  simp only [RelayQueue.onFlightPoll, bind_eq_ok, ensure_eq_ok, okOr_eq_ok, exists_const,
    RelayQueue.verifyAuthority] at h
  obtain ⟨-, -, m, hparse, -, hhash, amount, hamount, src, -, dst, -, -, hfinal, -, option, -, ⟨⟩, hdir,
    info, hcast, h⟩ := h
  obtain ⟨hparses, hrequested⟩ := validateAndParse_ok hparse
  obtain ⟨-, rfl⟩ := toBalance_eq_some.mp hamount
  -- what is new is kept under the hash of the message
  have hnew : k = sub.msgHash → info.record = r → s.Kept k r ∨
      ∃ m, SocketMessage.tryFrom host.codec sub.msg = some m ∧ r.Files host.codec k m ∧
        s.validateDirection host o m = .ok () := by
    rintro rfl rfl
    rcases castVote_record hcast with hold | hfresh
    · exact .inl (.inl ⟨sub.srcTxId, hold⟩)
    · refine .inr ⟨m, hparses, ?_, hdir⟩
      rw [hfresh]
      exact ⟨hparses, hrequested, hhash, rfl, rfl⟩
  split_ifs at h with hmajority
  · simp only [bind_eq_ok, pure_eq_ok] at h
    obtain ⟨s₁, h₁, rfl⟩ := h
    have haside : Aside s s₁ := takeCap_aside s₁ h₁
    by_cases hk : k = sub.msgHash
    · have hfin : s₁.finalizedTransfers.get sub.msgHash = none := by
        rw [haside.2.2]
        simpa [StorageMap.contains] using hfinal
      rcases hr with ⟨tx, hr⟩ | hr
      · simp [RelayQueue.clearPending, hk] at hr
      · subst hk
        simp only [RelayQueue.won, RelayQueue.clearPending, hfin, StorageMap.get_insert_self,
          Option.none_or, Option.map_some, Option.some.injEq] at hr
        exact hnew rfl hr
    · refine .inl (haside.kept ?_)
      simpa [RelayQueue.Kept, RelayQueue.won, RelayQueue.clearPending, hk] using hr
  · rw [pure_eq_ok] at h
    subst h
    rcases hr with ⟨tx, hr⟩ | hr
    · simp only [RelayQueue.keepPending, StorageMap.get_insert, Prod.mk.injEq] at hr
      split_ifs at hr with hk
      · exact hnew hk.1 (Option.some.inj hr)
      · exact .inl (.inl ⟨tx, hr⟩)
    · exact .inl (.inr hr)

lemma step_kept {i : Step AccountId} (h : s.step host i = some s') (hr : s'.Kept k r) :
    s.Kept k r ∨ ∃ o sub m, i = .onFlightPoll o sub ∧
      SocketMessage.tryFrom host.codec sub.msg = some m ∧ r.Files host.codec k m ∧
      s.validateDirection host o m = .ok () := by
  rcases step_cases h with hs | ⟨o, sub, rfl, hs⟩ | ⟨o, sub, rfl, hs⟩ | ⟨old, new, rfl, rfl⟩
  · exact .inl (hs.kept hr)
  · rcases onFlightPoll_kept hs hr with hold | ⟨m, hm⟩
    · exact .inl hold
    · exact .inr ⟨o, sub, m, rfl, hm⟩
  · exact .inl (finalizePoll_kept hs hr)
  · exact .inl (replaceAuthority_kept hr)

end Steps

/-! ## Runs -/

section Runs

/-- The message of a poll, if it can be read. -/
def Step.message (host : Host) : Step AccountId → Option SocketMessage
  | .onFlightPoll _ sub => SocketMessage.tryFrom host.codec sub.msg
  | .finalizePoll _ sub => SocketMessage.tryFrom host.codec sub.msg
  | _ => none

/-- What a poll hashes of its message: the message with the first status, and its request. -/
def Step.HashesIn (host : Host) (B : Set Bytes) (i : Step AccountId) : Prop :=
  ∀ m ∈ i.message host,
    m.requested.encode host.codec ∈ B ∧ m.request.encode host.codec ∈ B

/-- The Socket contract sticks to the hashes of the requests that it knows. -/
def Step.Sticks (stored : Bytes → H256) (s : RelayQueue AccountId) : Step AccountId → Prop
  | .onFlightPoll o _ | .finalizePoll o _ => ∀ socket ∈ s.socket, ∀ reqId,
      ∀ info ∈ o.getRequest socket reqId, info.status ≠ 0 → info.msgHash = stored reqId
  | _ => True

variable {host : Host} {B : Set Bytes} {s s' : RelayQueue AccountId}
  {cond : RelayQueue AccountId → Step AccountId → Prop} {k : H256} {r : Record}

/-- What the contract has said of a message that goes out. -/
lemma stored_of_validateDirection {stored : Bytes → H256} {o : Outlook AccountId}
    {sub : OnFlightPollSubmission AccountId} {m : SocketMessage}
    (hsticks : (Step.onFlightPoll o sub).Sticks stored s)
    (hdir : s.validateDirection host o m = .ok ()) (hout : m.isOutbound host.chainId = true) :
    host.codec.keccak256 (m.request.encode host.codec) = stored (m.encodeReqId host.codec) := by
  simp only [RelayQueue.validateDirection, hout, if_true, RelayQueue.validateOnChainExistence,
    RelayQueue.tryGetRequest, bind_eq_ok, ensure_eq_ok, okOr_eq_ok, pure_eq_ok, exists_const] at hdir
  obtain ⟨info, ⟨info', ⟨socket, hsocket, hinfo⟩, hhash, rfl⟩, hrequested⟩ := hdir
  have hregistered : info'.status ≠ 0 := by
    have hone : info'.status = 1 := of_decide_eq_true hrequested
    rw [hone]
    decide
  rw [← hsticks socket hsocket _ info' hinfo hregistered]
  exact (of_decide_eq_true hhash).symm

variable [LinearOrder AccountId]

/-- **Every record has been filed** for a message, and the message was known to be good. -/
lemma filed_of_reachable {P : SocketMessage → Prop}
    (hcond : ∀ s o sub m, cond s (.onFlightPoll o sub) →
      SocketMessage.tryFrom host.codec sub.msg = some m → m.isRequested = true →
      s.validateDirection host o m = .ok () → P m)
    (h : ReachableIf host cond s) (hr : s.Kept k r) : ∃ m, r.Files host.codec k m ∧ P m := by
  have hall : ∀ k r, s.Kept k r → ∃ m, r.Files host.codec k m ∧ P m := by
    refine Reachable.invariant (P := fun s : RelayQueue AccountId =>
      ∀ k r, s.Kept k r → ∃ m, r.Files host.codec k m ∧ P m) ?_ ?_ h
    · rintro s rfl k r (⟨tx, hr⟩ | hr)
      · simp [RelayQueue.genesis] at hr
      · simp [RelayQueue.genesis, RelayQueue.won] at hr
    · intro s i s' hs hi hstep k r hr
      rcases step_kept hstep hr with hold | ⟨o, sub, m, rfl, hparses, hfiles, hdir⟩
      · exact hs k r hold
      · exact ⟨m, hfiles, hcond s o sub m hi hparses hfiles.requested hdir⟩
  exact hall k r hr

/-- The first message of a transfer agrees with a message in everything but the status. -/
def Record.Opens (codec : Codec) (r : Record) (f : SocketMessage) : Prop :=
  ∃ m, SocketMessage.tryFrom codec r.socketMessage = some m ∧ m.isRequested = true ∧
    m.reqId = f.reqId ∧ m.insCode = f.insCode ∧ m.params = f.params

lemma opens_iff {codec : Codec} {f : SocketMessage} :
    r.Opens codec f ↔ SocketMessage.tryFrom codec r.socketMessage = some f.requested := by
  constructor
  · rintro ⟨⟨reqId, status, code, params⟩, hparses, hstatus, rfl, rfl, rfl⟩
    have hone : status = 1 := of_decide_eq_true hstatus
    rw [hparses, hone]
    rfl
  · intro h
    exact ⟨f.requested, h, rfl, rfl, rfl, rfl⟩

/-- A message has got on flight, or further, under a hash. -/
def RelayQueue.Carries (codec : Codec) (s : RelayQueue AccountId) (k : H256) (m : SocketMessage) :
    Prop :=
  ∃ t, s.won k = some t ∧ SocketMessage.tryFrom codec t.socketMessage = some m

/-- **An end finds its transfer**: what it finalizes was filed for the request that it answers. -/
lemma finalizePoll_linked (hcodec : host.codec.LawfulOn B)
    (h : ReachableIf host (fun _ i => i.HashesIn host B) s) {o : Outlook AccountId}
    {sub : FinalizePollSubmission AccountId} {f : SocketMessage} {t : TransferInfoWithTxId AccountId}
    (hhashes : (Step.finalizePoll o sub).HashesIn host B) (hc : Closing host o s sub f t) :
    t.record.Files host.codec (f.requested.hash host.codec) f.requested := by
  have hkept : s.Kept (f.requested.hash host.codec) t.record := by
    refine .inr ?_
    rw [RelayQueue.won, hc.not_finalized, hc.onFlight]
    rfl
  obtain ⟨m, hfiles, hmem⟩ := filed_of_reachable
    (P := fun m => m.requested.encode host.codec ∈ B)
    (fun _ _ _ m hi hparses _ _ => (hi m hparses).1) h hkept
  rw [SocketMessage.requested_of_isRequested hfiles.requested] at hmem
  have hsame : f.requested = m :=
    SocketMessage.hash_injective hcodec (wellTyped_of_tryFrom hcodec hc.parses).requested
      (wellTyped_of_tryFrom hcodec hfiles.parses) (hhashes f hc.parses).1 hmem hfiles.key
  rw [hsame] at hfiles ⊢
  exact hfiles

/-- **One message for a request id**, in every state. -/
lemma carries_unique (hcodec : host.codec.LawfulOn B) {stored : Bytes → H256}
    (h : ReachableIf host (fun s i => i.HashesIn host B ∧ i.Sticks stored s) s) {k k' : H256}
    {m m' : SocketMessage} (hm : s.Carries host.codec k m) (hm' : s.Carries host.codec k' m')
    (hout : m.isOutbound host.chainId = true) (hid : m'.reqId = m.reqId) : k' = k := by
  have hfiled : ∀ {k m}, s.Carries host.codec k m → k = m.hash host.codec ∧ m.WellTyped ∧
      m.isRequested = true ∧ m.request.encode host.codec ∈ B ∧ (m.isOutbound host.chainId = true →
        host.codec.keccak256 (m.request.encode host.codec) = stored (m.encodeReqId host.codec)) := by
    rintro k m ⟨t, ht, hparses⟩
    have hkept : s.Kept k t.record := .inr (by rw [ht]; rfl)
    obtain ⟨m₀, hfiles, hP⟩ := filed_of_reachable
      (P := fun m => m.request.encode host.codec ∈ B ∧ (m.isOutbound host.chainId = true →
        host.codec.keccak256 (m.request.encode host.codec) = stored (m.encodeReqId host.codec)))
      (fun s o sub m hi hparses _ hdir =>
        ⟨(hi.1 m hparses).2, stored_of_validateDirection hi.2 hdir⟩) h hkept
    obtain rfl := Option.some.inj (hparses.symm.trans hfiles.parses)
    exact ⟨hfiles.key, wellTyped_of_tryFrom hcodec hparses, hfiles.requested, hP⟩
  obtain ⟨rfl, htyped, hrequested, hB, hstored⟩ := hfiled hm
  obtain ⟨rfl, htyped', hrequested', hB', hstored'⟩ := hfiled hm'
  have hout' : m'.isOutbound host.chainId = true := by
    rw [SocketMessage.isOutbound, hid]
    exact hout
  have hanswer : host.codec.keccak256 (m'.request.encode host.codec) =
      host.codec.keccak256 (m.request.encode host.codec) := by
    rw [hstored hout, hstored' hout', SocketMessage.encodeReqId, hid, SocketMessage.encodeReqId]
  obtain ⟨hcode, hparams⟩ := UserRequest.hash_injective hcodec htyped' htyped hB' hB hanswer
  have hstatus : m'.status = m.status :=
    (of_decide_eq_true hrequested').trans (of_decide_eq_true hrequested).symm
  have hsame : m' = m := by
    cases m
    cases m'
    simp only [SocketMessage.mk.injEq] at *
    exact ⟨hid, hstatus, hcode, hparams⟩
  rw [hsame]

/-- **Ends and their transfers.**  An end that is accepted is a vote on the one transfer on flight that
began with the same request id, instruction and parameters, however the end was written, and the
transfer has the amount and the asset index that the end says.  Of the messages that go out, one at most
gets on flight for a request id, in the whole run. -/
theorem finalization_linked (hcodec : host.codec.LawfulOn B) :
    (∀ s : RelayQueue AccountId, ReachableIf host (fun _ i => i.HashesIn host B) s →
      ∀ o sub s', (Step.finalizePoll o sub).HashesIn host B → s.finalizePoll host o sub = .ok s' →
        ∃ f k t, SocketMessage.tryFrom host.codec sub.msg = some f ∧
          s.onFlightTransfers.get k = some t ∧ t.record.Opens host.codec f ∧
          (∀ k' t', s.onFlightTransfers.get k' = some t' → t'.record.Opens host.codec f → k' = k) ∧
          t.amount = f.params.amount.val ∧ t.assetIndexHash = h256FromSlice f.params.tokenIdx0 ∧
          s'.won k = some (t.closedBy sub.authorityId) ∧
          ∀ k', k' ≠ k → s'.onFlightTransfers.get k' = s.onFlightTransfers.get k' ∧
            s'.finalizedTransfers.get k' = s.finalizedTransfers.get k') ∧
    ∀ (stored : Bytes → H256) (s s' : RelayQueue AccountId),
      ReachableIf host (fun s i => i.HashesIn host B ∧ i.Sticks stored s) s →
      Reachable (fun u => u = s) (RelayQueue.step host)
        (fun s i => i.HashesIn host B ∧ i.Sticks stored s) s' →
        (∀ k t, s.won k = some t → ∃ m, s.Carries host.codec k m ∧ k = m.hash host.codec) ∧
        ∀ k k' m m', s.Carries host.codec k m → s'.Carries host.codec k' m' →
          m.isOutbound host.chainId = true → m'.reqId = m.reqId → k' = k := by
  refine ⟨fun s h o sub s' hhashes hok => ?_, fun stored s s' h hrun => ⟨fun k t ht => ?_, ?_⟩⟩
  · obtain ⟨f, t, hc, -, hwon, hothers⟩ := finalizePoll_votes hok
    have hfiles := finalizePoll_linked hcodec h hhashes hc
    refine ⟨f, _, t, hc.parses, hc.onFlight, opens_iff.mpr hfiles.parses, fun k' t' ht' hopens => ?_,
      hfiles.amount, hfiles.assetIndexHash, hwon, hothers⟩
    have hkept : s.Kept k' t'.record := by
      have hnot := (ReachableIf.atMostOnce (h.mono fun _ _ _ => trivial) k').onFlight t' ht'
      refine .inr ?_
      rw [RelayQueue.won, hnot, ht']
      rfl
    obtain ⟨m, hm, -⟩ := filed_of_reachable (P := fun _ => True) (fun _ _ _ _ _ _ _ _ => trivial) h hkept
    rw [hm.key, Option.some.inj (hm.parses.symm.trans (opens_iff.mp hopens))]
  · have hkept : s.Kept k t.record := .inr (by rw [ht]; rfl)
    obtain ⟨m, hm, -⟩ := filed_of_reachable (P := fun _ => True) (fun _ _ _ _ _ _ _ _ => trivial) h hkept
    exact ⟨m, ⟨t, ht, hm.parses⟩, hm.key⟩
  · rintro k k' m m' ⟨t, ht, hparses⟩ hm' hout hid
    -- what has got on flight is still there
    have hlater : ReachableIf host (fun s i => i.HashesIn host B ∧ i.Sticks stored s) s' ∧
        s'.Carries host.codec k m := by
      refine Reachable.invariant (P := fun u : RelayQueue AccountId =>
        ReachableIf host (fun s i => i.HashesIn host B ∧ i.Sticks stored s) u ∧
          u.Carries host.codec k m) ?_ ?_ hrun
      · rintro u rfl
        exact ⟨h, t, ht, hparses⟩
      · rintro u i u' ⟨hu, v, hv, hmsg⟩ hi hstep
        obtain ⟨v', hv', -, hrecord⟩ := (step_slide hstep).won hv
        have hbytes : v'.socketMessage = v.socketMessage := congrArg Record.socketMessage hrecord
        exact ⟨hu.step hi hstep, v', hv', by rw [hbytes, hmsg]⟩
    exact carries_unique hcodec hlater.1 hlater.2 hm' hout hid

end Runs

/-! ### The sample

The sample transfer goes out of chain 1.  Its end comes with another byte behind it. -/

section Sample

def linkedHost : Host := ⟨abi sampleCodec.keccak256, 1⟩

def linkedVote : Step ℕ := .onFlightPoll (sampleOutlook 1 1) ⟨3, sampleBytes 1, sampleHash, 77⟩

def linkedEnd : FinalizePollSubmission ℕ := ⟨3, sampleBytes 7 ++ [9]⟩

lemma linkedHost_lawfulOn :
    linkedHost.codec.LawfulOn {b | b = sampleBytes 1 ∨ b = sampleRequestBytes} := by
  have hne : sampleBytes 1 ≠ sampleRequestBytes := by decide +kernel
  have hfirst : sampleCodec.keccak256 (sampleBytes 1) = sampleHash := by decide +kernel
  have hrequest : sampleCodec.keccak256 sampleRequestBytes = sampleRequestHash := by decide +kernel
  have hhash : sampleHash ≠ sampleRequestHash := by decide +kernel
  refine abi_lawfulOn ?_ ?_
  · rintro b (rfl | rfl)
    · decide +kernel
    · decide +kernel
  · rintro b (rfl | rfl) b' (rfl | rfl) h
    · rfl
    · rw [hfirst, hrequest] at h
      exact absurd h hhash
    · rw [hfirst, hrequest] at h
      exact absurd h.symm hhash
    · rfl

lemma linked_hashesIn {i : Step ℕ} {status : U256}
    (h : i.message linkedHost = some (sampleMessage status)) :
    i.HashesIn linkedHost {b | b = sampleBytes 1 ∨ b = sampleRequestBytes} := by
  have hfirst : (sampleMessage 1).encode linkedHost.codec = sampleBytes 1 := by decide +kernel
  have hrequest : (sampleMessage 1).request.encode linkedHost.codec = sampleRequestBytes := by
    decide +kernel
  intro m hm
  obtain rfl := Option.some.inj (h.symm.trans hm)
  exact ⟨.inl hfirst, .inr hrequest⟩

/-- The sample gets on flight and is finalized, and it is the only message for its request id. -/
theorem finalization_linked_sample : ∃ s s' : RelayQueue ℕ,
    s.finalizePoll linkedHost (sampleOutlook 1 7) linkedEnd = .ok s' ∧
    (∃ f t, SocketMessage.tryFrom linkedHost.codec linkedEnd.msg = some f ∧
      s.onFlightTransfers.get sampleHash = some t ∧ t.record.Opens linkedHost.codec f) ∧
    s'.Carries linkedHost.codec sampleHash (sampleMessage 1) ∧
    ∀ k m, s'.Carries linkedHost.codec k m → m.reqId = (sampleMessage 1).reqId → k = sampleHash := by
  have hrun : (runSteps (RelayQueue.step linkedHost) RelayQueue.genesis
      [.setSocket .root 9, linkedVote]).any (fun s =>
        (s.finalizePoll linkedHost (sampleOutlook 1 7) linkedEnd).toOption.any fun s' =>
          (s'.won sampleHash).any fun t =>
            decide (SocketMessage.tryFrom linkedHost.codec t.socketMessage = some (sampleMessage 1)))
      = true := by decide +kernel
  obtain ⟨s, hs, h⟩ := (Option.any_eq_true _ _).mp hrun
  obtain ⟨s', hs', h⟩ := (Option.any_eq_true _ _).mp h
  obtain ⟨t', ht', h⟩ := (Option.any_eq_true _ _).mp h
  have hok : s.finalizePoll linkedHost (sampleOutlook 1 7) linkedEnd = .ok s' :=
    toOption_eq_some.mp hs'
  have hvote : linkedVote.message linkedHost = some (sampleMessage 1) := by decide +kernel
  have hend : (Step.finalizePoll (sampleOutlook 1 7) linkedEnd).message linkedHost =
      some (sampleMessage 7) := by decide +kernel
  have hreach : ReachableIf linkedHost (fun s i => i.HashesIn linkedHost
      {b | b = sampleBytes 1 ∨ b = sampleRequestBytes} ∧ i.Sticks (fun _ => sampleRequestHash) s) s := by
    refine Reachable.runSteps_of (.init rfl) (fun i hi s => ?_) hs
    simp only [List.mem_cons, List.not_mem_nil, or_false] at hi
    rcases hi with rfl | rfl
    · exact ⟨fun m hm => (by cases hm), trivial⟩
    · refine ⟨linked_hashesIn hvote, fun socket _ reqId info hinfo _ => ?_⟩
      rw [← Option.some.inj hinfo]
  have hstep : s.step linkedHost (.finalizePoll (sampleOutlook 1 7) linkedEnd) = some s' := by
    rw [RelayQueue.step, hok]
    rfl
  have hlater : Reachable (fun u => u = s) (RelayQueue.step linkedHost) (fun s i =>
      i.HashesIn linkedHost {b | b = sampleBytes 1 ∨ b = sampleRequestBytes} ∧
        i.Sticks (fun _ => sampleRequestHash) s) s' := by
    refine .step (.init rfl) ⟨linked_hashesIn hend, fun socket _ reqId info hinfo _ => ?_⟩ hstep
    rw [← Option.some.inj hinfo]
  obtain ⟨hends, hids⟩ := @finalization_linked ℕ linkedHost _ _ linkedHost_lawfulOn
  obtain ⟨f, k, t, hf, ht, hopens, -⟩ :=
    hends s (hreach.mono fun _ _ hi => hi.1) _ _ s' (linked_hashesIn hend) hok
  obtain rfl : sampleMessage 7 = f := Option.some.inj (hend.symm.trans hf)
  have hbefore : s.Carries linkedHost.codec k (sampleMessage 1) := by
    have hnot := (ReachableIf.atMostOnce (hreach.mono fun _ _ _ => trivial) k).onFlight t ht
    refine ⟨t, ?_, opens_iff.mp hopens⟩
    rw [RelayQueue.won, hnot, ht]
    rfl
  have hafter : s'.Carries linkedHost.codec sampleHash (sampleMessage 1) :=
    ⟨t', ht', of_decide_eq_true h⟩
  have honly : ∀ k' m, s'.Carries linkedHost.codec k' m → m.reqId = (sampleMessage 1).reqId →
      k' = k := by
    intro k' m hm hid
    exact (hids _ s s' hreach hlater).2 k k' _ m hbefore hm (by decide) hid
  obtain rfl : sampleHash = k := honly _ _ hafter rfl
  exact ⟨s, s', hok, ⟨_, t, hf, ht, hopens⟩, hafter, honly⟩

end Sample

end BifrostNode.Cccp
