import BifrostNode.Btc.Outbound

/-!
# The outputs of a submitted transaction

Before Blaze takes over, the authority submits the transactions itself, and says which messages each output
pays for.  `try_psbt_output_verification` goes over the outputs and looks their addresses up in what was
listed.

**One output** contributes the messages that are listed under its address (`OutputChecked`), and the messages
of all of them have different sequences (`parts_of_verified`).

**All outputs.**  `OutputsExact` is what the verification is for: the outputs pay for all the messages, and
for nothing else.  Since the lookup forgets what was listed twice, and an address with no message is paid
nothing, this takes that every address but the system vault's comes with a message, and that the change goes
to one output (`outputs_exact_iff`).
-/

namespace BifrostNode.Btc

open Cccp Staking Transition Pool Queue

/-! ## Keyed parts -/

section Parts

variable {K E : Type} [DecidableEq K] {parts : List (K × List E)} {owner : E → Option K} {p : K × List E}

/-- What has the key of a part is the part, when the keys differ. -/
lemma filter_flatMap_of_keyed (hkeys : (parts.map Prod.fst).Nodup)
    (howner : ∀ p ∈ parts, ∀ e ∈ p.2, owner e = some p.1) (hp : p ∈ parts) :
    (parts.flatMap Prod.snd).filter (fun e => owner e = some p.1) = p.2 := by
  induction parts with
  | nil => cases hp
  | cons q parts ih =>
      rw [List.map_cons, List.nodup_cons] at hkeys
      rw [List.flatMap_cons, List.filter_append]
      rcases List.mem_cons.mp hp with rfl | hp
      · have hown : p.2.filter (fun e => owner e = some p.1) = p.2 := by
          refine List.filter_eq_self.mpr fun e he => ?_
          rw [decide_eq_true_eq]
          exact howner p List.mem_cons_self e he
        have hrest : (parts.flatMap Prod.snd).filter (fun e => owner e = some p.1) = [] := by
          refine List.filter_eq_nil_iff.mpr fun e he => ?_
          obtain ⟨q, hq, heq⟩ := List.mem_flatMap.mp he
          rw [howner q (List.mem_cons_of_mem _ hq) e heq, decide_eq_true_eq, Option.some.injEq]
          intro hsame
          exact hkeys.1 (hsame ▸ List.mem_map_of_mem hq)
        rw [hown, hrest, List.append_nil]
      · have hother : q.2.filter (fun e => owner e = some p.1) = [] := by
          refine List.filter_eq_nil_iff.mpr fun e he => ?_
          rw [howner q List.mem_cons_self e he, decide_eq_true_eq, Option.some.injEq]
          intro hsame
          exact hkeys.1 (hsame ▸ List.mem_map_of_mem hp)
        rw [hother, List.nil_append]
        exact ih hkeys.2 (fun r hr => howner r (List.mem_cons_of_mem _ hr)) hp

/-- A map that was filled in order has what was listed, and all the keys. -/
lemma get_foldl_insert {V : Type} {listed : List (K × V)} {m : StorageMap K V} {k : K} {v : V}
    (h : (listed.foldl (fun m e => m.insert e.1 e.2) m).get k = some v) :
    (k, v) ∈ listed ∨ m.get k = some v := by
  induction listed generalizing m with
  | nil => exact .inr h
  | cons e listed ih =>
      rcases ih h with hmem | hget
      · exact .inl (List.mem_cons_of_mem _ hmem)
      · rw [StorageMap.get_insert] at hget
        split_ifs at hget with heq
        · left
          rw [heq, ← Option.some.inj hget]
          exact List.mem_cons_self
        · exact .inr hget

end Parts

variable {AccountId : Type} {host : Host AccountId} {v : View AccountId}
  {pool : Registration AccountId} {s : SocketQueue AccountId} {systemVault address : Bytes}
  {listed : StorageMap Bytes (List Bytes)} {verified verified' msgs : List (SocketMessage × Bytes)}
  {psbt : Psbt} {uncheckedOutputs : List (Bytes × List Bytes)}

namespace SocketQueue

/-! ## One output -/

/-- The refund address of the user of a message. -/
def refundOf (host : Host AccountId) (pool : Registration AccountId) (e : SocketMessage × Bytes) :
    Option Bytes := pool.getRefundAddress (host.accountOf e.1.params.toUser)

/-- The sequences of the messages. -/
def sequences (verified : List (SocketMessage × Bytes)) : List U256 :=
  verified.map fun e => e.1.reqId.sequence

/-- What the messages add up to. -/
def total (verified : List (SocketMessage × Bytes)) : ℕ :=
  (verified.map fun e => e.1.params.amount.val).sum

/-- A message that was found good under an address. -/
structure MessageChecked (host : Host AccountId) (v : View AccountId) (pool : Registration AccountId)
    (s : SocketQueue AccountId) (address : Bytes) (e : SocketMessage × Bytes) : Prop where
  parsed : SocketMessage.tryFrom host.codec e.2 = some e.1
  verified : s.verifySocketMessage host v e.2 = .ok ()
  refund : refundOf host pool e = some address

/-- An output, and the messages that it pays for. -/
structure OutputChecked (host : Host AccountId) (v : View AccountId) (pool : Registration AccountId)
    (s : SocketQueue AccountId) (systemVault : Bytes) (listed : StorageMap Bytes (List Bytes))
    (output : TxOut) (part : Bytes × List (SocketMessage × Bytes)) : Prop where
  address : outputAddress host output = .ok part.1
  messages : listed.get part.1 = some (part.2.map Prod.snd)
  vault : part.1 = systemVault → part.2 = []
  value : part.1 ≠ systemVault → output.value = total part.2
  each : ∀ e ∈ part.2, MessageChecked host v pool s part.1 e

/-- The loop over the messages of an address. -/
lemma verifyOutputMessages_ok {messages : List Bytes} {amount amount' : ℕ}
    (h : messages.foldlM (s.verifyOutputMessage host v pool address) (verified, amount) =
      .ok (verified', amount')) :
    ∃ part, verified' = verified ++ part ∧ part.map Prod.snd = messages ∧ amount' = amount + total part ∧
      (∀ e ∈ part, MessageChecked host v pool s address e) ∧
      ((sequences verified).Nodup → (sequences verified').Nodup) := by
  induction messages generalizing verified amount with
  | nil =>
      simp only [List.foldlM_nil, pure_eq_ok, Prod.mk.injEq] at h
      rcases h with ⟨rfl, rfl⟩
      exact ⟨[], (List.append_nil _).symm, rfl, rfl, fun e he => (by cases he), id⟩
  | cons message messages ih =>
      simp only [List.foldlM_cons, verifyOutputMessage, bind_eq_ok, okOr_eq_ok, ensure_eq_ok, pure_eq_ok,
        exists_const] at h
      rcases h with ⟨_, ⟨msg, hmsg, hfresh, ⟨⟩, hverified, refund, hrefund, rfl, sum, hsum, rfl⟩, h⟩
      obtain ⟨part, rfl, hpart, rfl, heach, hnodup⟩ := ih h
      have hsum' : sum = amount + msg.params.amount.val := by
        rw [RelayQueue.checkedAdd] at hsum
        split_ifs at hsum
        exact (Option.some.inj hsum).symm
      refine ⟨(msg, message) :: part, ?_, ?_, ?_, ?_, ?_⟩
      · rw [List.append_assoc, List.singleton_append]
      · rw [List.map_cons, hpart]
      · simp only [hsum', total, List.map_cons, List.sum_cons, Nat.add_assoc]
      · intro e he
        rcases List.mem_cons.mp he with rfl | he
        · exact ⟨hmsg, hverified, hrefund⟩
        · exact heach e he
      · intro hold
        refine hnodup ?_
        rw [sequences, List.map_append, List.map_singleton, List.nodup_append]
        refine ⟨hold, List.nodup_singleton _, fun a ha b hb => ?_⟩
        rw [List.mem_singleton] at hb
        rintro rfl
        exact hfresh (hb ▸ ha)

/-- What the check of one output says. -/
lemma verifyOutput_ok {outputs : ℕ} {output : TxOut}
    (h : s.verifyOutput host v pool systemVault outputs listed verified output = .ok verified') :
    ∃ part, OutputChecked host v pool s systemVault listed output part ∧ verified' = verified ++ part.2 ∧
      ((sequences verified).Nodup → (sequences verified').Nodup) ∧ (part.1 = systemVault → outputs ≠ 1) := by
  simp only [verifyOutput, bind_eq_ok, okOr_eq_ok] at h
  rcases h with ⟨address, haddress, messages, hmessages, h⟩
  split_ifs at h with hvault
  · simp only [bind_eq_ok, ensure_eq_ok, pure_eq_ok, exists_const] at h
    rcases h with ⟨hmany, rfl, rfl⟩
    refine ⟨(address, []), ⟨haddress, hmessages, fun _ => rfl, fun hne => absurd hvault hne,
      fun e he => (by cases he)⟩, (List.append_nil _).symm, id, fun _ => hmany⟩
  · simp only [bind_eq_ok, ensure_eq_ok, pure_eq_ok, exists_const, Prod.exists] at h
    rcases h with ⟨verified₁, amount, hloop, hvalue, rfl⟩
    obtain ⟨part, rfl, hpart, rfl, heach, hnodup⟩ := verifyOutputMessages_ok hloop
    refine ⟨(address, part), ⟨haddress, by rw [hpart]; exact hmessages, fun heq => absurd heq hvault,
      fun _ => by rw [hvalue, Nat.zero_add], heach⟩, rfl, hnodup, fun heq => absurd heq hvault⟩

/-! ## All outputs -/

/-- The loop over the outputs checks each of them, and collects what they pay for. -/
lemma verifyOutputs_ok {count : ℕ} {outputs : List TxOut}
    (h : outputs.foldlM (s.verifyOutput host v pool systemVault count listed) verified = .ok verified') :
    ∃ parts, List.Forall₂ (OutputChecked host v pool s systemVault listed) outputs parts ∧
      verified' = verified ++ parts.flatMap Prod.snd ∧
      ((sequences verified).Nodup → (sequences verified').Nodup) ∧
      ∀ part ∈ parts, part.1 = systemVault → count ≠ 1 := by
  induction outputs generalizing verified with
  | nil =>
      simp only [List.foldlM_nil, pure_eq_ok] at h
      subst h
      exact ⟨[], .nil, (List.append_nil _).symm, id, fun p hp => (by cases hp)⟩
  | cons output outputs ih =>
      simp only [List.foldlM_cons, bind_eq_ok] at h
      rcases h with ⟨verified₁, h₁, h⟩
      obtain ⟨part, hpart, rfl, hnodup₁, hmany₁⟩ := verifyOutput_ok h₁
      obtain ⟨parts, hparts, rfl, hnodup, hmany⟩ := ih h
      refine ⟨part :: parts, .cons hpart hparts, ?_, hnodup ∘ hnodup₁, ?_⟩
      · rw [List.flatMap_cons, List.append_assoc]
      · intro q hq
        rcases List.mem_cons.mp hq with rfl | hq
        · exact hmany₁
        · exact hmany q hq

/-- What was listed, as it is looked up. -/
def lookup (uncheckedOutputs : List (Bytes × List Bytes)) : StorageMap Bytes (List Bytes) :=
  uncheckedOutputs.foldl (fun m e => m.insert e.1 e.2) ∅

/-- The addresses and the amounts of the outputs. -/
def payments (host : Host AccountId) (psbt : Psbt) : List (Bytes × ℕ) :=
  psbt.unsignedTx.output.filterMap fun output =>
    (outputAddress host output).toOption.map fun address => (address, output.value)

/-- A verification that has gone through, output by output. -/
structure Accepted (host : Host AccountId) (v : View AccountId) (pool : Registration AccountId)
    (s : SocketQueue AccountId) (psbt : Psbt) (uncheckedOutputs : List (Bytes × List Bytes))
    (systemVault : Bytes) (msgs : List (SocketMessage × Bytes))
    (parts : List (Bytes × List (SocketMessage × Bytes))) : Prop where
  length : psbt.unsignedTx.output.length = uncheckedOutputs.length
  nonempty : psbt.unsignedTx.output ≠ []
  checked : List.Forall₂ (OutputChecked host v pool s systemVault (lookup uncheckedOutputs))
    psbt.unsignedTx.output parts
  msgs_eq : msgs = parts.flatMap Prod.snd
  sequences : (sequences msgs).Nodup
  single : ∀ part ∈ parts, part.1 = systemVault → psbt.unsignedTx.output.length ≠ 1

lemma accepted_of_ok
    (h : s.tryPsbtOutputVerification host v pool psbt uncheckedOutputs = .ok msgs) :
    ∃ systemVault parts, pool.getSystemVault pool.currentRound = some systemVault ∧
      Accepted host v pool s psbt uncheckedOutputs systemVault msgs parts := by
  simp only [tryPsbtOutputVerification, bind_eq_ok, ensure_eq_ok, okOr_eq_ok, exists_const] at h
  rcases h with ⟨hlength, hpos, systemVault, hvault, h⟩
  obtain ⟨parts, hparts, rfl, hnodup, hmany⟩ := verifyOutputs_ok h
  refine ⟨systemVault, parts, hvault, hlength, ?_, hparts, List.nil_append _, hnodup List.nodup_nil, hmany⟩
  exact List.ne_nil_of_length_pos hpos

section Acceptance

variable {parts : List (Bytes × List (SocketMessage × Bytes))}

/-- The outputs that do not pay the system vault, with what their messages add up to. -/
lemma payments_of_checked {outputs : List TxOut}
    (h : List.Forall₂ (OutputChecked host v pool s systemVault listed) outputs parts) :
    let paid := outputs.filterMap fun output =>
      (outputAddress host output).toOption.map fun address => (address, output.value)
    paid.map Prod.fst = parts.map Prod.fst ∧
      paid.filter (fun e => e.1 ≠ systemVault) =
        (parts.filter fun p => p.1 ≠ systemVault).map fun p => (p.1, total p.2) := by
  induction h with
  | nil => exact ⟨rfl, rfl⟩
  | @cons output part outputs parts hpart _ ih =>
      have haddress : (outputAddress host output).toOption = some part.1 := by
        rw [hpart.address]
        rfl
      simp only [List.filterMap_cons, haddress, Option.map_some, List.map_cons] at ih ⊢
      refine ⟨by rw [ih.1], ?_⟩
      by_cases hvault : part.1 = systemVault
      · rw [List.filter_cons_of_neg (by simpa using hvault),
          List.filter_cons_of_neg (by simpa using hvault)]
        exact ih.2
      · rw [List.filter_cons_of_pos (by simpa using hvault),
          List.filter_cons_of_pos (by simpa using hvault), List.map_cons, ih.2, hpart.value hvault]

namespace Accepted

variable (h : Accepted host v pool s psbt uncheckedOutputs systemVault msgs parts)

include h

lemma payments_fst : (payments host psbt).map Prod.fst = parts.map Prod.fst :=
  (payments_of_checked h.checked).1

lemma payments_filter : (payments host psbt).filter (fun e => e.1 ≠ systemVault) =
    (parts.filter fun p => p.1 ≠ systemVault).map fun p => (p.1, total p.2) :=
  (payments_of_checked h.checked).2

lemma output_of_mem {part : Bytes × List (SocketMessage × Bytes)} (hp : part ∈ parts) :
    ∃ output ∈ psbt.unsignedTx.output,
      OutputChecked host v pool s systemVault (lookup uncheckedOutputs) output part := by
  have hall := List.forall₂_iff_get.mp h.checked
  obtain ⟨i, hi, rfl⟩ := List.getElem_of_mem hp
  have hi' : i < psbt.unsignedTx.output.length := by
    rw [hall.1]
    exact hi
  exact ⟨_, List.getElem_mem hi', hall.2 i hi' hi⟩

/-- The messages of a part were listed under its address. -/
lemma listed_of_mem {part : Bytes × List (SocketMessage × Bytes)} (hp : part ∈ parts) :
    (part.1, part.2.map Prod.snd) ∈ uncheckedOutputs := by
  obtain ⟨output, -, hchecked⟩ := h.output_of_mem hp
  rcases get_foldl_insert hchecked.messages with hmem | hget
  · exact hmem
  · cases hget

lemma owned {part : Bytes × List (SocketMessage × Bytes)} (hp : part ∈ parts)
    {e : SocketMessage × Bytes} (he : e ∈ part.2) : refundOf host pool e = some part.1 := by
  obtain ⟨output, -, hchecked⟩ := h.output_of_mem hp
  exact (hchecked.each e he).refund

/-- With distinct addresses, what was listed is what the outputs pay for. -/
lemma listed_perm (hkeys : (parts.map Prod.fst).Nodup) :
    (parts.map fun p => (p.1, p.2.map Prod.snd)).Perm uncheckedOutputs := by
  have hnodup : (parts.map fun p => (p.1, p.2.map Prod.snd)).Nodup := by
    refine List.Nodup.of_map Prod.fst ?_
    rw [List.map_map]
    exact hkeys
  have hsub : parts.map (fun p => (p.1, p.2.map Prod.snd)) ⊆ uncheckedOutputs := by
    intro e he
    obtain ⟨p, hp, rfl⟩ := List.mem_map.mp he
    exact h.listed_of_mem hp
  refine (List.subperm_of_subset hnodup hsub).perm_of_length_le ?_
  rw [List.length_map, ← h.length, h.checked.length_eq]

/-- Parts with a message have different addresses. -/
lemma keys_nodup (hlisted : ∀ e ∈ uncheckedOutputs, e.1 ≠ systemVault → e.2 ≠ [])
    (hvault : ((payments host psbt).map Prod.fst).count systemVault ≤ 1) :
    (parts.map Prod.fst).Nodup := by
  have hsequences := h.sequences
  rw [SocketQueue.sequences, h.msgs_eq, List.map_flatMap, List.nodup_flatMap] at hsequences
  have hapart : parts.Pairwise fun p q => p.1 = q.1 → p.1 = systemVault := by
    refine hsequences.2.imp_of_mem fun {p q} hp hq hdisjoint heq => ?_
    by_contra hne
    obtain ⟨output, -, hcheckedp⟩ := h.output_of_mem hp
    obtain ⟨output', -, hcheckedq⟩ := h.output_of_mem hq
    -- both parts have the messages that are listed under the address, and there is one
    have hsame : p.2.map Prod.snd = q.2.map Prod.snd := by
      have hget := hcheckedq.messages
      rw [← heq, hcheckedp.messages] at hget
      exact Option.some.inj hget
    have hsome : p.2.map Prod.snd ≠ [] := hlisted _ (h.listed_of_mem hp) hne
    obtain ⟨message, hmessage⟩ := List.exists_mem_of_ne_nil _ hsome
    obtain ⟨e, he, rfl⟩ := List.mem_map.mp hmessage
    rw [hsame] at hmessage
    obtain ⟨e', he', hbytes⟩ := List.mem_map.mp hmessage
    have hmsg : e'.1 = e.1 := by
      have hparsed := (hcheckedq.each e' he').parsed
      rw [hbytes, (hcheckedp.each e he).parsed] at hparsed
      exact (Option.some.inj hparsed).symm
    refine hdisjoint (a := e.1.reqId.sequence) ?_ ?_
    · exact List.mem_map_of_mem he
    · rw [← hmsg]
      exact List.mem_map_of_mem he'
  have hkeys : (parts.map Prod.fst).Pairwise fun a b => a = b → a = systemVault :=
    List.pairwise_map.mpr hapart
  refine List.nodup_iff_count_le_one.mpr fun a => ?_
  by_cases ha : a = systemVault
  · rw [ha, ← h.payments_fst]
    exact hvault
  · by_contra hmany
    have htwice : List.Sublist [a, a] (parts.map Prod.fst) :=
      List.replicate_sublist_iff.mpr (show 2 ≤ _ by omega)
    have hpair := hkeys.sublist htwice
    rw [List.pairwise_pair] at hpair
    exact ha (hpair rfl)

/-- There is a message when the vault is not the only one that is paid. -/
lemma someone (hkeys : (parts.map Prod.fst).Nodup) : ∃ part ∈ parts, part.1 ≠ systemVault := by
  by_contra hnone
  push Not at hnone
  have hlength := h.checked.length_eq
  have hpos := List.length_pos_of_ne_nil h.nonempty
  have hall : parts.map Prod.fst = List.replicate parts.length systemVault := by
    refine List.eq_replicate_iff.mpr ⟨List.length_map _, fun a ha => ?_⟩
    obtain ⟨part, hpart, rfl⟩ := List.mem_map.mp ha
    exact hnone part hpart
  rw [hall, List.nodup_replicate] at hkeys
  have hone : parts.length = 1 := by omega
  obtain ⟨part, hpart⟩ := List.length_eq_one_iff.mp hone
  have hmem : part ∈ parts := hpart ▸ List.mem_singleton_self part
  exact h.single part hmem (hnone part hmem) (hlength.trans hone)

end Accepted

end Acceptance

/-! ## What the verification is for -/

/-- The refund addresses of the messages, with what the messages of each add up to. -/
def refunds (host : Host AccountId) (pool : Registration AccountId)
    (msgs : List (SocketMessage × Bytes)) : List (Bytes × ℕ) :=
  (msgs.filterMap (refundOf host pool)).dedup.map fun a =>
    (a, total (msgs.filter fun e => refundOf host pool e = some a))

/-- **The outputs are exact**: they pay for all messages that were listed, each to the refund address of its
user, one output for each address, and for nothing else. -/
structure OutputsExact (host : Host AccountId) (v : View AccountId) (pool : Registration AccountId)
    (s : SocketQueue AccountId) (psbt : Psbt) (uncheckedOutputs : List (Bytes × List Bytes))
    (systemVault : Bytes) (msgs : List (SocketMessage × Bytes)) : Prop where
  all : (msgs.map Prod.snd).Perm (uncheckedOutputs.flatMap Prod.snd)
  sequences : (sequences msgs).Nodup
  nonempty : msgs ≠ []
  checked : ∀ e ∈ msgs, ∃ entry ∈ uncheckedOutputs, e.2 ∈ entry.2 ∧
    MessageChecked host v pool s entry.1 e
  paid : ((payments host psbt).filter fun e => e.1 ≠ systemVault).Perm (refunds host pool msgs)
  once : ((payments host psbt).map Prod.fst).Nodup
  listed : ∀ entry ∈ uncheckedOutputs, entry.1 ∈ (payments host psbt).map Prod.fst
  someone : ∃ e ∈ payments host psbt, e.1 ≠ systemVault

/-- **The listing is orderly**: every address but the system vault's comes with a message, and the change
goes to one output. -/
structure Orderly (host : Host AccountId) (psbt : Psbt) (uncheckedOutputs : List (Bytes × List Bytes))
    (systemVault : Bytes) : Prop where
  messages : ∀ entry ∈ uncheckedOutputs, entry.1 ≠ systemVault → entry.2 ≠ []
  change : ((payments host psbt).map Prod.fst).count systemVault ≤ 1

namespace Accepted

variable {parts : List (Bytes × List (SocketMessage × Bytes))}
  (h : Accepted host v pool s psbt uncheckedOutputs systemVault msgs parts)

include h

/-- The refunds of the messages are the parts of those that are paid. -/
lemma refunds_perm (hkeys : (parts.map Prod.fst).Nodup)
    (hlisted : ∀ e ∈ uncheckedOutputs, e.1 ≠ systemVault → e.2 ≠ []) :
    ((parts.filter fun p => p.1 ≠ systemVault).map fun p => (p.1, total p.2)).Perm
      (refunds host pool msgs) := by
  have howned : ∀ p ∈ parts, ∀ e ∈ p.2, refundOf host pool e = some p.1 := fun p hp e he => h.owned hp he
  have hfilter : ∀ p ∈ parts.filter (fun p => p.1 ≠ systemVault),
      (p.1, total p.2) = (p.1, total (msgs.filter fun e => refundOf host pool e = some p.1)) := by
    intro p hp
    rw [h.msgs_eq, filter_flatMap_of_keyed hkeys howned (List.mem_of_mem_filter hp)]
  have haddresses : ((parts.filter fun p => p.1 ≠ systemVault).map Prod.fst).Perm
      (msgs.filterMap (refundOf host pool)).dedup := by
    refine (List.perm_ext_iff_of_nodup ?_ (List.nodup_dedup _)).mpr fun a => ?_
    · exact hkeys.sublist (List.filter_sublist.map Prod.fst)
    · simp only [List.mem_map, List.mem_filter, List.mem_dedup, List.mem_filterMap, h.msgs_eq,
        List.mem_flatMap, decide_eq_true_eq]
      constructor
      · rintro ⟨p, ⟨hp, hvault⟩, rfl⟩
        have hsome : p.2.map Prod.snd ≠ [] := hlisted _ (h.listed_of_mem hp) hvault
        have hne : p.2 ≠ [] := fun hnil => hsome (by rw [hnil]; rfl)
        obtain ⟨e, he⟩ := List.exists_mem_of_ne_nil _ hne
        exact ⟨e, ⟨p, hp, he⟩, h.owned hp he⟩
      · rintro ⟨e, ⟨p, hp, he⟩, hrefund⟩
        rw [h.owned hp he] at hrefund
        obtain ⟨output, -, hchecked⟩ := h.output_of_mem hp
        refine ⟨p, ⟨hp, fun hvault => ?_⟩, Option.some.inj hrefund⟩
        rw [hchecked.vault hvault] at he
        cases he
  have hmap := haddresses.map fun a => (a, total (msgs.filter fun e => refundOf host pool e = some a))
  rw [List.map_map] at hmap
  rw [List.map_congr_left hfilter]
  exact hmap

/-- An orderly listing is verified exactly. -/
lemma exact_of_orderly (ho : Orderly host psbt uncheckedOutputs systemVault) :
    OutputsExact host v pool s psbt uncheckedOutputs systemVault msgs := by
  have hkeys := h.keys_nodup ho.messages ho.change
  have hperm := h.listed_perm hkeys
  obtain ⟨part, hpart, hvault⟩ := h.someone hkeys
  refine ⟨?_, h.sequences, ?_, ?_, ?_, ?_, ?_, ?_⟩
  · have hflat : msgs.map Prod.snd =
        (parts.map fun p => (p.1, p.2.map Prod.snd)).flatMap Prod.snd := by
      rw [h.msgs_eq, List.map_flatMap, List.flatMap_map]
    rw [hflat]
    exact hperm.flatMap_right _
  · have hsome : part.2.map Prod.snd ≠ [] := ho.messages _ (h.listed_of_mem hpart) hvault
    have hne : part.2 ≠ [] := fun hnil => hsome (by rw [hnil]; rfl)
    obtain ⟨e, he⟩ := List.exists_mem_of_ne_nil _ hne
    rw [h.msgs_eq]
    exact List.ne_nil_of_mem (List.mem_flatMap.mpr ⟨part, hpart, he⟩)
  · intro e he
    rw [h.msgs_eq] at he
    obtain ⟨p, hp, hep⟩ := List.mem_flatMap.mp he
    obtain ⟨output, -, hchecked⟩ := h.output_of_mem hp
    exact ⟨_, h.listed_of_mem hp, List.mem_map_of_mem hep, hchecked.each e hep⟩
  · rw [h.payments_filter]
    exact h.refunds_perm hkeys ho.messages
  · rw [h.payments_fst]
    exact hkeys
  · intro entry hentry
    rw [h.payments_fst]
    obtain ⟨p, hp, rfl⟩ := List.mem_map.mp (hperm.mem_iff.mpr hentry)
    exact List.mem_map_of_mem hp
  · have hmem : part.1 ∈ (payments host psbt).map Prod.fst := by
      rw [h.payments_fst]
      exact List.mem_map_of_mem hpart
    obtain ⟨e, he, heq⟩ := List.mem_map.mp hmem
    exact ⟨e, he, heq ▸ hvault⟩

/-- What is verified exactly was listed in order. -/
lemma orderly_of_exact (he : OutputsExact host v pool s psbt uncheckedOutputs systemVault msgs) :
    Orderly host psbt uncheckedOutputs systemVault := by
  have hkeys : (parts.map Prod.fst).Nodup := h.payments_fst ▸ he.once
  refine ⟨fun entry hentry hvault => ?_, List.nodup_iff_count_le_one.mp he.once systemVault⟩
  -- the entry is paid, so there is a message with its address, and its part is what was listed
  obtain ⟨p, hp, rfl⟩ := List.mem_map.mp ((h.listed_perm hkeys).mem_iff.mpr hentry)
  have hpaid : (p.1, total p.2) ∈ refunds host pool msgs := by
    refine he.paid.mem_iff.mp ?_
    rw [h.payments_filter]
    exact List.mem_map.mpr ⟨p, List.mem_filter.mpr ⟨hp, decide_eq_true hvault⟩, rfl⟩
  obtain ⟨a, ha, heq⟩ := List.mem_map.mp hpaid
  rw [List.mem_dedup, List.mem_filterMap] at ha
  obtain ⟨e, hmem, hrefund⟩ := ha
  have howned : ∀ q ∈ parts, ∀ e ∈ q.2, refundOf host pool e = some q.1 := fun q hq e he => h.owned hq he
  have hpart : e ∈ p.2 := by
    rw [← filter_flatMap_of_keyed hkeys howned hp, List.mem_filter, ← h.msgs_eq, decide_eq_true_eq, hrefund]
    exact ⟨hmem, congrArg some (Prod.ext_iff.mp heq).1⟩
  exact List.ne_nil_of_mem (List.mem_map_of_mem hpart)

end Accepted

end SocketQueue

/-! ## Results -/

/-- **When the verification is exact.**  What it accepts is exact if and only if every listed address but the
system vault's comes with a message, and the system vault is paid by one output at most. -/
theorem outputs_exact_iff
    (h : s.tryPsbtOutputVerification host v pool psbt uncheckedOutputs = .ok msgs) :
    ∃ systemVault, pool.getSystemVault pool.currentRound = some systemVault ∧
      (SocketQueue.OutputsExact host v pool s psbt uncheckedOutputs systemVault msgs ↔
        SocketQueue.Orderly host psbt uncheckedOutputs systemVault) := by
  obtain ⟨systemVault, parts, hvault, haccepted⟩ := SocketQueue.accepted_of_ok h
  exact ⟨systemVault, hvault, haccepted.orderly_of_exact, haccepted.exact_of_orderly⟩

/-- A transaction with the outputs. -/
def paying (outputs : List TxOut) : Psbt := ⟨⟨2, 0, [], outputs⟩, []⟩

/-- What a run before the activation of Blaze shows, it shows of a reachable state. -/
lemma legacyRun_exists {P : Bridge ℕ → Bool}
    (h : (runSteps (Bridge.step outboundHost) (.genesis outboundHost [1, 2] none)
      ((outboundRun 20000).take 8)).any P = true) :
    ∃ s, BridgeIf outboundHost anyStep s ∧ P s = true :=
  smallRun_exists outboundHost anyStep ((outboundRun 20000).take 8) (fun _ _ _ => trivial) h

/-- Users 7 and 6 are paid, and the system vault gets the change. -/
def bothPaid : Psbt := paying [⟨20000, [5]⟩, ⟨45000, [1, 30, 40]⟩, ⟨30000, [6]⟩]

def bothListed : List (Bytes × List Bytes) :=
  [([5], [outboundBytes 20000]), ([6], [otherBytes]), ([1, 30, 40], [])]

theorem outputs_exact_iff_paid : ∃ (b : Bridge ℕ) (msgs : List (SocketMessage × Bytes)),
    BridgeIf bothHost anyStep b ∧
    b.queue.tryPsbtOutputVerification bothHost bothView b.pool bothPaid bothListed = .ok msgs ∧
    msgs.length = 2 ∧
    SocketQueue.OutputsExact bothHost bothView b.pool b.queue bothPaid bothListed [1, 30, 40] msgs := by
  have hrun := smallRun_exists bothHost anyStep
    (.pool smallView (.requestVault regtestOutlook (.signed 6) [6]) :: (outboundRun 20000).take 8)
    (fun _ _ _ => trivial)
    (P := fun b => decide (b.pool.getSystemVault b.pool.currentRound = some [1, 30, 40]) &&
      (b.queue.tryPsbtOutputVerification bothHost bothView b.pool bothPaid bothListed).toOption.any
        fun msgs => msgs.length = 2) (by decide +kernel)
  obtain ⟨b, hb, hP⟩ := hrun
  simp only [Bool.and_eq_true, decide_eq_true_eq, Option.any_eq_true] at hP
  obtain ⟨hvault, msgs, hmsgs, hlength⟩ := hP
  have hok := toOption_eq_some.mp hmsgs
  obtain ⟨systemVault, hvault', hiff⟩ := outputs_exact_iff hok
  obtain rfl : systemVault = [1, 30, 40] := Option.some.inj (hvault'.symm.trans hvault)
  exact ⟨b, msgs, hb, hok, hlength, hiff.mpr ⟨by decide, by decide⟩⟩

/-- **A message gets lost.**  Both outputs pay the system vault, and the message of user 7 is neither paid
nor refused. -/
theorem outputs_inexact : ∃ b : Bridge ℕ, BridgeIf outboundHost anyStep b ∧
    b.pool.getSystemVault b.pool.currentRound = some [1, 30, 40] ∧
    b.queue.tryPsbtOutputVerification outboundHost (outboundView 20000) b.pool
      (paying [⟨1000, [1, 30, 40]⟩, ⟨2000, [1, 30, 40]⟩])
      [([1, 30, 40], []), ([5], [outboundBytes 20000])] = .ok [] ∧
    ¬ SocketQueue.OutputsExact outboundHost (outboundView 20000) b.pool b.queue
      (paying [⟨1000, [1, 30, 40]⟩, ⟨2000, [1, 30, 40]⟩])
      [([1, 30, 40], []), ([5], [outboundBytes 20000])] [1, 30, 40] [] := by
  have hrun := legacyRun_exists (P := fun b =>
    decide (b.pool.getSystemVault b.pool.currentRound = some [1, 30, 40]) &&
      decide ((b.queue.tryPsbtOutputVerification outboundHost (outboundView 20000) b.pool
        (paying [⟨1000, [1, 30, 40]⟩, ⟨2000, [1, 30, 40]⟩])
        [([1, 30, 40], []), ([5], [outboundBytes 20000])]).toOption = some [])) (by decide +kernel)
  obtain ⟨b, hb, hP⟩ := hrun
  simp only [Bool.and_eq_true, decide_eq_true_eq] at hP
  exact ⟨b, hb, hP.1, toOption_eq_some.mp hP.2, fun h => h.nonempty rfl⟩

end BifrostNode.Btc
