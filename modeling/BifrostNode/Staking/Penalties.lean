import BifrostNode.Staking.Roster

/-!
# Offences and what they cost

A record of offences is opened by the first offence of a validator and grows with the next ones.  The
offence that would exceed the maximum of the tier is not recorded: it closes the record, and the
validator is kicked out and slashed.

* **Records.**  Every record is tallied, and was within the maximum when it last grew.  The maximum may
  be changed afterwards, so the run is watched, and the maximum is noted whenever a record grows.
* **Verdicts.**  What becomes of one offence: it is ignored, recorded or punished.  A punishment takes
  the same amount out of the reserve, the self-bond and the voting power, since each of these is at least
  the self-bond; and out of the total, as long as the total covers what is staked.
* **Exclusion.**  Whoever has been kicked out stays out until it goes online, and nothing is added to its
  record.  The controller may change in the meantime, so it is the stash that is followed.
-/

namespace BifrostNode.Staking

open Transition

variable {AccountId R : Type} [LinearOrder AccountId]

/-! ## Records -/

/-- **A record is tallied**: it counts its offences, and adds up their fractions up to the whole. -/
structure ValidatorOffenceInfo.Tallied (info : ValidatorOffenceInfo) : Prop where
  count : info.offenceCount = info.offences.length
  fraction : info.aggregatedSlashFraction.parts =
    min (info.offences.map fun o => o.slashFraction.parts).sum 1000000000

namespace ValidatorOffenceInfo.Tallied

lemma new (offence : Offence) : (ValidatorOffenceInfo.new offence).Tallied := by
  refine ⟨rfl, ?_⟩
  have hle := offence.slashFraction.parts_le
  simp only [ValidatorOffenceInfo.new, List.map_cons, List.map_nil, List.sum_cons, List.sum_nil]
  omega

lemma addOffence {info : ValidatorOffenceInfo} (h : info.Tallied) (offence : Offence) :
    (info.addOffence offence).Tallied := by
  have hfraction := h.fraction
  refine ⟨?_, ?_⟩
  · simp only [ValidatorOffenceInfo.addOffence, List.length_append, List.length_singleton, h.count]
  · simp only [ValidatorOffenceInfo.addOffence, Perbill.fromParts, List.map_append, List.map_cons,
      List.map_nil, List.sum_append, List.sum_cons, List.sum_nil]
    omega

end ValidatorOffenceInfo.Tallied

namespace Offences

/-- How many offences a record of the tier may hold. -/
def maximumOffenceCount (o : Offences AccountId) (tier : TierType) : ℕ :=
  if tier = .full then o.fullMaximumOffenceCount else o.basicMaximumOffenceCount

/-- The record of `who` with one more offence. -/
def written (o : Offences AccountId) (who : AccountId) (offence : Offence) : ValidatorOffenceInfo :=
  match o.validatorOffences.get who with
  | some info => info.addOffence offence
  | none => .new offence

/-- What a punishment costs. -/
def slashAmount (o : Offences AccountId) (info : ValidatorOffenceInfo) (bond : ℕ) : ℕ :=
  if o.isSlashActive then info.aggregatedSlashFraction.mul bond else 0

variable {o : Offences AccountId} {who stash : AccountId} {tier : TierType} {offence : Offence}
  {currency : Currency AccountId} {info : ValidatorOffenceInfo}

omit [LinearOrder AccountId] in
lemma isOffenceCountExceeds_iff {count : ℕ} :
    o.isOffenceCountExceeds count tier = true ↔ o.maximumOffenceCount tier < count := by
  rw [isOffenceCountExceeds, maximumOffenceCount]
  split_ifs <;> exact decide_eq_true_iff

/-- Nothing happens while offences are not managed. -/
lemma tryHandleOffence_inactive (hactive : o.isOffenceActive = false) :
    o.tryHandleOffence currency who stash tier offence = ((false, 0), o, currency) := by
  simp [tryHandleOffence, hactive]

/-- The offence is within the maximum, or the first one. -/
lemma tryHandleOffence_recorded (hactive : o.isOffenceActive = true)
    (hwithin : ∀ info, o.validatorOffences.get who = some info →
      info.offenceCount + 1 ≤ o.maximumOffenceCount tier) :
    o.tryHandleOffence currency who stash tier offence = ((false, 0),
      { o with validatorOffences := o.validatorOffences.insert who (o.written who offence) },
      currency) := by
  rw [tryHandleOffence, if_pos hactive, handleOffence, written]
  cases hinfo : o.validatorOffences.get who with
  | none => rfl
  | some info =>
      have hno : ¬ o.isOffenceCountExceeds (info.offenceCount + 1) tier = true := by
        rw [isOffenceCountExceeds_iff, not_lt]
        exact hwithin info hinfo
      exact if_neg hno

variable (stash offence currency) in
/-- The offence is one too many. -/
lemma tryHandleOffence_punished (hactive : o.isOffenceActive = true)
    (hinfo : o.validatorOffences.get who = some info)
    (hexceeds : o.maximumOffenceCount tier < info.offenceCount + 1) :
    ∃ currency', o.tryHandleOffence currency who stash tier offence =
      ((true, o.slashAmount info offence.selfBond),
        { o with validatorOffences := o.validatorOffences.remove who }, currency') := by
  rw [tryHandleOffence, if_pos hactive, handleOffence, hinfo, slashAmount]
  simp only [if_pos (isOffenceCountExceeds_iff.mpr hexceeds), trySlash]
  split_ifs
  · exact ⟨_, rfl⟩
  · exact ⟨_, rfl⟩

variable (stash offence currency) in
/-- The three things that can happen to an offence. -/
lemma tryHandleOffence_cases (o : Offences AccountId) (who : AccountId) (tier : TierType) :
    o.tryHandleOffence currency who stash tier offence = ((false, 0), o, currency) ∨
    ((∀ info, o.validatorOffences.get who = some info →
        info.offenceCount + 1 ≤ o.maximumOffenceCount tier) ∧
      o.tryHandleOffence currency who stash tier offence = ((false, 0),
        { o with validatorOffences := o.validatorOffences.insert who (o.written who offence) },
        currency)) ∨
    ∃ amount currency', o.tryHandleOffence currency who stash tier offence = ((true, amount),
      { o with validatorOffences := o.validatorOffences.remove who }, currency') := by
  by_cases hactive : o.isOffenceActive = true
  · refine Or.inr ?_
    by_cases hwithin : ∀ info, o.validatorOffences.get who = some info →
        info.offenceCount + 1 ≤ o.maximumOffenceCount tier
    · exact Or.inl ⟨hwithin, tryHandleOffence_recorded hactive hwithin⟩
    · push Not at hwithin
      obtain ⟨info, hinfo, hexceeds⟩ := hwithin
      obtain ⟨currency', heq⟩ :=
        tryHandleOffence_punished stash offence currency hactive hinfo hexceeds
      exact Or.inr ⟨_, currency', heq⟩
  · exact Or.inl (tryHandleOffence_inactive (Bool.eq_false_of_not_eq_true hactive))

/-- A new session removes records only. -/
lemma refreshOffences_get (o : Offences AccountId) (session : ℕ) (c : AccountId) :
    (o.refreshOffences session).validatorOffences.get c = o.validatorOffences.get c ∨
      (o.refreshOffences session).validatorOffences.get c = none := by
  rw [refreshOffences]
  refine List.foldlRecOn (motive := fun m : StorageMap AccountId ValidatorOffenceInfo =>
    m.get c = o.validatorOffences.get c ∨ m.get c = none) _ _ (Or.inl rfl) fun m hm who _ => ?_
  cases m.get who with
  | none => exact hm
  | some info =>
      dsimp only
      split_ifs
      · rw [StorageMap.get_remove]
        split_ifs
        · exact Or.inr rfl
        · exact hm
      · exact hm

end Offences

/-! ## Verdicts -/

/-- **A punishment**: `who` has lost `amount` and is out.  `exact` is what it takes for the total to
lose the same. -/
structure Punished (exact : Prop) (t t' : State AccountId R) (who : AccountId)
    (m : CandidateMetadata AccountId) (amount : ℕ) : Prop where
  le_bond : amount ≤ m.bond
  record : t'.offences =
    { t.offences with validatorOffences := t.offences.validatorOffences.remove who }
  reserve : ∀ a, t'.ledger.currency.reserved a + (if a = m.stash then amount else 0) =
    t.ledger.currency.reserved a
  candidate : ∃ m', t'.ledger.candidateInfo.get who = some m' ∧ m'.isKickedOut = true ∧
    m'.bond + amount = m.bond ∧ m'.votingPower + amount = m.votingPower
  total : t'.ledger.total = t.ledger.total - amount
  total_exact : exact → t'.ledger.total + amount = t.ledger.total
  pool : t'.ledger.candidatePool.get who = none
  selected : who ∉ t'.selection.selectedCandidates
  part : who ∉ if m.tier = .full then t'.selection.selectedFullCandidates
    else t'.selection.selectedBasicCandidates
  parts : Parts t → InItsPart t who →
    who ∉ t'.selection.selectedFullCandidates ∧ who ∉ t'.selection.selectedBasicCandidates

/-- **What becomes of one offence**: what is slashed, what is recorded, and who is kicked out. -/
structure Verdict (exact : Prop) (t t' : State AccountId R) (slashSession : ℕ) (who : AccountId)
    (fraction : Perbill) : Prop where
  /-- Nothing, while offences are not managed, or if nobody can be punished. -/
  ignored : t.offences.isOffenceActive = false ∨
    (∀ m, t.ledger.candidateInfo.get who = some m → m.isKickedOut = true) → t' = t
  /-- It is recorded, if it is within the maximum or the first one. -/
  recorded : ∀ m, t.ledger.candidateInfo.get who = some m → m.isKickedOut = false →
    t.offences.isOffenceActive = true →
    (∀ info, t.offences.validatorOffences.get who = some info →
      info.offenceCount + 1 ≤ t.offences.maximumOffenceCount m.tier) →
    t' = { t with offences := { t.offences with
      validatorOffences := t.offences.validatorOffences.insert who
        (t.offences.written who (t.offence m slashSession fraction)) } }
  /-- It is punished, if it is one too many. -/
  punished : ∀ m info, t.ledger.candidateInfo.get who = some m → m.isKickedOut = false →
    t.offences.isOffenceActive = true → t.offences.validatorOffences.get who = some info →
    t.offences.maximumOffenceCount m.tier < info.offenceCount + 1 →
    Punished exact t t' who m (t.offences.slashAmount info m.bond)

section Verdicts

variable {cfg : Config AccountId} {rm : RelayManager AccountId R} {t t' : State AccountId R}
  {l : Ledger AccountId} {who : AccountId} {m : CandidateMetadata AccountId}

/-- The self-bond of a candidate is reserved. -/
lemma Ledger.Backed.bond_le (h : l.Backed) (hm : l.candidateInfo.get who = some m) :
    m.bond ≤ l.currency.reserved m.stash := by
  have hself : m.bond ≤ l.selfBonded m.stash := by
    have hle := StorageMap.le_sum (fun _ x => if x.stash = m.stash then x.bond else 0) hm
    rwa [if_pos rfl] at hle
  have hback := h m.stash
  omega

omit [LinearOrder AccountId] in
/-- It is part of what is staked. -/
lemma Ledger.TotalCovers.bond_le (h : l.TotalCovers) (hm : l.candidateInfo.get who = some m) :
    m.bond ≤ l.total := by
  have hstaked : l.backing who m ≤ l.staked := StorageMap.le_sum l.backing hm
  have hbond : m.bond ≤ l.backing who m := Nat.le_add_right _ _
  rw [Ledger.TotalCovers] at h
  omega

omit [LinearOrder AccountId] in
/-- It is part of the voting power. -/
lemma LedgerInv.bond_le (h : LedgerInv cfg l) (hm : l.candidateInfo.get who = some m) :
    m.bond ≤ m.votingPower := by
  obtain ⟨top, bottom, -, -, hv⟩ := h.books.board who m hm
  have hvp := hv.votingPower_eq
  omega

/-- **`kickout_validator` and `slash_reserved_bonds`**, with the slash before them. -/
lemma State.punished_spec {exact : Prop} {amount : ℕ} {offences : Offences AccountId}
    {currency : Currency AccountId} (hl : LedgerInv cfg t.ledger) (hback : t.ledger.Backed)
    (hcovers : exact → t.ledger.TotalCovers) (hm : t.ledger.candidateInfo.get who = some m)
    (hle : amount ≤ m.bond)
    (hreserved : ∀ a, currency.reserved a =
      t.ledger.currency.reserved a - if a = m.stash then amount else 0)
    (hrecord : offences =
      { t.offences with validatorOffences := t.offences.validatorOffences.remove who }) :
    Punished exact t (t.punished cfg rm who m amount offences currency) who m amount := by
  obtain ⟨request, hm', -⟩ := State.slashed_eq cfg m.kickOut amount
  have hdrop : Dropped t (t.punished cfg rm who m amount offences currency) who m.tier _ :=
    t.punished_dropped who m amount offences currency
  refine ⟨hle, hrecord, fun a => ?_, ⟨_, StorageMap.get_insert_self _ _ _, ?_, ?_, ?_⟩, rfl,
    fun hexact => ?_, StorageMap.get_remove_self _ _, ?_, ?_, fun hparts hpart => ?_⟩
  · show currency.reserved a + _ = _
    have hbond := hback.bond_le hm
    rw [hreserved]
    split_ifs with ha
    · subst ha
      omega
    · omega
  · rw [hm']
    rfl
  · rw [hm']
    show m.bond - amount + amount = m.bond
    omega
  · have hvp := hl.bond_le hm
    rw [hm']
    show m.votingPower - amount + amount = m.votingPower
    omega
  · have htotal := (hcovers hexact).bond_le hm
    show t.ledger.total - amount + amount = t.ledger.total
    omega
  · rw [hdrop.selected]
    exact Finset.notMem_erase _ _
  · split_ifs with htier
    · rw [hdrop.full, if_pos htier]
      exact Finset.notMem_erase _ _
    · rw [hdrop.basic, if_neg htier]
      exact Finset.notMem_erase _ _
  · have hstand : t.ledger.standing who = some (m.status, m.isSelected, m.tier) := by
      rw [Ledger.standing, hm]
      rfl
    have hunion := (hparts.dropped hpart hstand hdrop).selected
    have hout : who ∉ t.selection.selectedCandidates.erase who := Finset.notMem_erase _ _
    rw [← hdrop.selected, hunion, Finset.mem_union, not_or] at hout
    exact hout

/-- **One offence** gets the verdict that the source has for it. -/
lemma State.offend_verdict {exact : Prop} {slashSession : ℕ} {fraction : Perbill}
    (hl : LedgerInv cfg t.ledger) (hback : t.ledger.Backed)
    (hcovers : exact → t.ledger.TotalCovers)
    (h : t.offend cfg rm slashSession (who, fraction) = some t') :
    Verdict exact t t' slashSession who fraction := by
  cases State.offend_cases h with
  | ignored hignored =>
      refine ⟨fun _ => rfl, fun m hm hkicked => ?_, fun m info hm hkicked => ?_⟩
      · rw [hignored m hm] at hkicked
        cases hkicked
      · rw [hignored m hm] at hkicked
        cases hkicked
  | @recorded m amount offences currency hm hkicked hres =>
      refine ⟨fun hign => ?_, fun m₁ hm₁ _ hactive hwithin => ?_,
        fun m₁ info hm₁ _ hactive hinfo hexceeds => ?_⟩
      · rcases hign with hinactive | hout
        · rw [Offences.tryHandleOffence_inactive hinactive] at hres
          cases hres
          rfl
        · rw [hout m hm] at hkicked
          cases hkicked
      · obtain rfl := Option.some.inj (hm.symm.trans hm₁)
        rw [Offences.tryHandleOffence_recorded hactive hwithin] at hres
        cases hres
        rfl
      · obtain rfl := Option.some.inj (hm.symm.trans hm₁)
        obtain ⟨currency', heq⟩ := Offences.tryHandleOffence_punished m.stash
          (t.offence m slashSession fraction) t.ledger.currency hactive hinfo hexceeds
        rw [heq] at hres
        cases hres
  | @punished m amount offences currency hm hkicked hres =>
      refine ⟨fun hign => ?_, fun m₁ hm₁ _ hactive hwithin => ?_,
        fun m₁ info hm₁ _ hactive hinfo hexceeds => ?_⟩
      · rcases hign with hinactive | hout
        · rw [Offences.tryHandleOffence_inactive hinactive] at hres
          cases hres
        · rw [hout m hm] at hkicked
          cases hkicked
      · obtain rfl := Option.some.inj (hm.symm.trans hm₁)
        rw [Offences.tryHandleOffence_recorded hactive hwithin] at hres
        cases hres
      · obtain rfl := Option.some.inj (hm.symm.trans hm₁)
        obtain ⟨hle, -, hreserved⟩ := Offences.tryHandleOffence_spec hres
        obtain ⟨currency', heq⟩ := Offences.tryHandleOffence_punished m.stash
          (t.offence m slashSession fraction) t.ledger.currency hactive hinfo hexceeds
        rw [heq] at hres
        cases hres
        exact State.punished_spec hl hback hcovers hm hle hreserved rfl

end Verdicts

/-! ## What else touches the records -/

section Frame

variable {cfg : Config AccountId} {rm : RelayManager AccountId R} {s s' : State AccountId R}

/-- **No call** touches the records. -/
lemma State.dispatch_offences {origin : Origin AccountId} {call : Call AccountId}
    (h : s.dispatch cfg rm origin call = .ok s') : s'.offences = s.offences := by
  have hsigned := State.signed_of_dispatch h
  cases call with
  | joinCandidates controller relayer bond count =>
      obtain ⟨who, -, hcall⟩ := hsigned rfl
      have hsame : Returns (fun s' => s'.offences = s.offences)
          (s.joinCandidates cfg rm who controller relayer bond count) :=
        .bind fun _ => .bind fun _ => .bind fun _ => .bind fun _ => .bind fun _ => .bind fun _ =>
          .bind fun _ => .bind fun _ => .bind fun _ => .bind fun _ => .pure rfl
      exact hsame s' hcall
  | executeLeaveCandidates count =>
      obtain ⟨who, -, hcall⟩ := hsigned rfl
      have hsame : Returns (fun s' => s'.offences = s.offences)
          (s.executeLeaveCandidates rm who count) :=
        .bind fun _ => .bind fun _ => .bind fun _ => .bind fun _ => .pure rfl
      exact hsame s' hcall
  | setValidatorTier more new relayer =>
      obtain ⟨who, -, hcall⟩ := hsigned rfl
      have hsame : Returns (fun s' => s'.offences = s.offences)
          (s.setValidatorTier cfg rm who more new relayer) :=
        .bind fun _ => .bind fun _ => .bind fun _ => .pure rfl
      exact hsame s' hcall
  | scheduleLeaveCandidates count =>
      obtain ⟨who, -, hcall⟩ := hsigned rfl
      have hsame : Returns (fun s' => s'.offences = s.offences)
          (s.scheduleLeaveCandidates cfg who count) :=
        .bind fun _ => .bind fun _ => .bind fun _ => .bind fun _ => .bind fun _ => .bind fun _ =>
          .pure rfl
      exact hsame s' hcall
  | cancelLeaveCandidates count =>
      obtain ⟨who, -, hcall⟩ := hsigned rfl
      have hsame : Returns (fun s' => s'.offences = s.offences)
          (s.cancelLeaveCandidates who count) :=
        .bind fun _ => .bind fun _ => .bind fun _ => .bind fun _ => .pure rfl
      exact hsame s' hcall
  | goOnline =>
      obtain ⟨who, -, hcall⟩ := hsigned rfl
      have hsame : Returns (fun s' => s'.offences = s.offences) (s.goOnline who) :=
        .bind fun _ => .bind fun _ => .bind fun _ => .bind fun _ => .pure rfl
      exact hsame s' hcall
  | goOffline =>
      obtain ⟨who, -, hcall⟩ := hsigned rfl
      have hsame : Returns (fun s' => s'.offences = s.offences) (s.goOffline rm who) :=
        .bind fun _ => .bind fun _ => .bind fun _ => .pure rfl
      exact hsame s' hcall
  | _ => exact (State.dispatch_routine rfl h).offences

/-- Controller changes leave the records where they are. -/
lemma State.applyControllerSets_offences (rm : RelayManager AccountId R) (now : ℕ) :
    ∀ (cs : List (DelayedControllerSet AccountId)) (s : State AccountId R),
      (cs.foldl (State.applyControllerSet rm now) s).offences = s.offences := by
  intro cs
  induction cs with
  | nil => exact fun _ => rfl
  | cons c cs ih =>
      intro s
      have hone : (s.applyControllerSet rm now c).offences = s.offences := by
        rw [State.applyControllerSet]
        cases s.ledger.candidateInfo.get c.old <;> rfl
      exact (ih _).trans hone

lemma State.newRound_offences {now : ℕ} {full basic : List AccountId}
    (h : s.newRound cfg rm now full basic = some s') : s'.offences = s.offences := by
  simp only [State.newRound, Option.map_eq_some_iff, Prod.exists] at h
  obtain ⟨count, s₁, h₁, rfl⟩ := h
  exact (State.applyControllerSets_offences rm _ _ _).trans
    (State.selectForRound_prepares h₁).offences

/-- A new session removes records only. -/
lemma State.newSession_records {now newIndex : ℕ} {validators : List AccountId}
    {hasKeys : AccountId → Bool} {out : Option (List AccountId)}
    (h : s.newSession cfg rm now newIndex validators hasKeys = some (out, s')) (c : AccountId) :
    s'.offences.validatorOffences.get c = s.offences.validatorOffences.get c ∨
      s'.offences.validatorOffences.get c = none := by
  simp only [State.newSession, State.tryNewRound, Option.bind_eq_bind, Option.bind_eq_some_iff,
    Option.pure_def, Option.some.injEq, Prod.mk.injEq] at h
  obtain ⟨s₁, h₁, -, rfl⟩ := h
  have hround : s₁.offences = s.offences := by
    split_ifs at h₁
    · have hsame : s₁.offences = (s.enterSession now newIndex validators).offences :=
        State.newRound_offences h₁
      exact hsame
    · obtain rfl := Option.some.inj h₁
      rfl
  rw [← hround]
  exact s₁.offences.refreshOffences_get (wrappingSubU32 newIndex 1) c

/-- Only offences add to the records. -/
lemma State.step_records {i : Step AccountId R}
    (hi : ∀ offenders slashSession, i ≠ .onOffence offenders slashSession)
    (h : s.step cfg rm i = some s') (c : AccountId) :
    s'.offences.validatorOffences.get c = s.offences.validatorOffences.get c ∨
      s'.offences.validatorOffences.get c = none := by
  cases i with
  | call origin call =>
      obtain rfl := Option.some.inj h
      refine Or.inl ?_
      refine commit_induction (P := fun t : State AccountId R =>
        t.offences.validatorOffences.get c = s.offences.validatorOffences.get c) rfl
        fun t ht => ?_
      rw [State.dispatch_offences ht]
  | onInitialize n drained =>
      obtain ⟨⟨paid, s₁⟩, h₁, rfl⟩ := Option.map_eq_some_iff.mp h
      rcases State.onInitialize_cases h₁ with ⟨snapshot, -, hpay⟩
      cases hpay with
      | idle => exact Or.inl rfl
      | closed => exact Or.inl rfl
      | lost => exact Or.inl rfl
      | paid _ _ _ _ => exact Or.inl rfl
  | newSession now newIndex validators hasKeys =>
      obtain ⟨⟨out, s₁⟩, h₁, rfl⟩ := Option.map_eq_some_iff.mp h
      exact State.newSession_records h₁ c
  | onOffence offenders slashSession => exact absurd rfl (hi offenders slashSession)
  | noteAuthor author => exact Option.some.inj h ▸ Or.inl rfl
  | endSession => exact Option.some.inj h ▸ Or.inl rfl
  | balances free others => exact Option.some.inj h ▸ Or.inl rfl
  | relay state => exact Option.some.inj h ▸ Or.inl rfl
  | offenceSettings isOffenceActive isSlashActive expiration full basic =>
      exact Option.some.inj h ▸ Or.inl rfl

end Frame

/-! ## The maximum when a record last grew -/

/-- How many offences are on record. -/
def State.recordLength (s : State AccountId R) (who : AccountId) : ℕ :=
  (s.offences.validatorOffences.get who).elim 0 fun info => info.offences.length

/-- The record of an offender has grown: the maximum of its tier is noted. -/
def noteLimit (s : State AccountId R) (offender : AccountId × Perbill) (s' : State AccountId R)
    (limits : AccountId → ℕ) : AccountId → ℕ :=
  match s.ledger.candidateInfo.get offender.1 with
  | some m =>
      if s.recordLength offender.1 < s'.recordLength offender.1 then
        Function.update limits offender.1 (s.offences.maximumOffenceCount m.tier)
      else limits
  | none => limits

/-- One step of a run that is watched. -/
def noteLimits (cfg : Config AccountId) (rm : RelayManager AccountId R) (s : State AccountId R) :
    Step AccountId R → State AccountId R → (AccountId → ℕ) → AccountId → ℕ
  | .onOffence offenders slashSession, _, limits =>
      ((offenders.foldlM (watched (State.offend cfg rm slashSession) noteLimit) (s, limits)).map
        Prod.snd).getD limits
  | _, _, limits => limits

/-- **The records are in order**, and each was within the maximum when it last grew, or is about one
offence. -/
def RecordsKept (s : State AccountId R) (limits : AccountId → ℕ) : Prop :=
  ∀ c info, s.offences.validatorOffences.get c = some info →
    info.Tallied ∧ info.offenceCount ≤ max 1 (limits c)

section Limits

variable {cfg : Config AccountId} {rm : RelayManager AccountId R} {s s' : State AccountId R}
  {limits : AccountId → ℕ} {offender : AccountId × Perbill}

lemma noteLimit_of_le (h : s'.recordLength offender.1 ≤ s.recordLength offender.1) :
    noteLimit s offender s' limits = limits := by
  rw [noteLimit]
  cases s.ledger.candidateInfo.get offender.1 with
  | none => rfl
  | some m => exact if_neg (Nat.not_lt.mpr h)

omit [LinearOrder AccountId] in
lemma RecordsKept.of_records (h : RecordsKept s limits)
    (hsame : ∀ c, s'.offences.validatorOffences.get c = s.offences.validatorOffences.get c ∨
      s'.offences.validatorOffences.get c = none) : RecordsKept s' limits := by
  intro c info hinfo
  rcases hsame c with hc | hc
  · exact h c info (hc ▸ hinfo)
  · rw [hc] at hinfo
    cases hinfo

omit [LinearOrder AccountId] in
/-- The record that one more offence leaves. -/
lemma RecordsKept.written (h : RecordsKept s limits) (who : AccountId) (offence : Offence)
    {maximum : ℕ} (hwithin : ∀ info, s.offences.validatorOffences.get who = some info →
      info.offenceCount + 1 ≤ maximum) :
    (s.offences.written who offence).Tallied ∧
      (s.offences.written who offence).offenceCount ≤ max 1 maximum ∧
      s.recordLength who < (s.offences.written who offence).offences.length := by
  rw [Offences.written, State.recordLength]
  cases hinfo : s.offences.validatorOffences.get who with
  | none => exact ⟨.new offence, le_max_left _ _, Nat.zero_lt_one⟩
  | some info =>
      refine ⟨(h who info hinfo).1.addOffence offence, le_max_of_le_right (hwithin info hinfo), ?_⟩
      show info.offences.length < (info.offences ++ [offence]).length
      rw [List.length_append, List.length_singleton]
      exact Nat.lt_succ_self _

/-- **An offence is recorded**, and the maximum of this moment is noted as the limit of the record. -/
lemma RecordsKept.record {who : AccountId} {fraction : Perbill} {offence : Offence}
    {m : CandidateMetadata AccountId} (hs : RecordsKept s limits)
    (hm : s.ledger.candidateInfo.get who = some m)
    (hwithin : ∀ info, s.offences.validatorOffences.get who = some info →
      info.offenceCount + 1 ≤ s.offences.maximumOffenceCount m.tier)
    (hrecord : s'.offences.validatorOffences =
      s.offences.validatorOffences.insert who (s.offences.written who offence)) :
    RecordsKept s' (noteLimit s (who, fraction) s' limits) := by
  obtain ⟨htallied, hcount, hlonger⟩ := hs.written who offence hwithin
  have hgrown : s.recordLength who < s'.recordLength who := by
    show _ < (s'.offences.validatorOffences.get who).elim 0 fun info => info.offences.length
    rw [hrecord, StorageMap.get_insert_self]
    exact hlonger
  have hnote : noteLimit s (who, fraction) s' limits =
      Function.update limits who (s.offences.maximumOffenceCount m.tier) := by
    simp only [noteLimit, hm, if_pos hgrown]
  intro c info hinfo
  rw [hrecord, StorageMap.get_insert] at hinfo
  rw [hnote, Function.update_apply]
  split_ifs at hinfo ⊢ with hc
  · obtain rfl := Option.some.inj hinfo
    exact ⟨htallied, hcount⟩
  · exact hs c info hinfo

/-- One offender leaves the records in order. -/
lemma RecordsKept.offend {slashSession : ℕ} (hs : RecordsKept s limits)
    (h : s.offend cfg rm slashSession offender = some s') :
    RecordsKept s' (noteLimit s offender s' limits) := by
  obtain ⟨who, fraction⟩ := offender
  cases State.offend_cases h with
  | ignored _ =>
      rw [noteLimit_of_le le_rfl]
      exact hs
  | @recorded m amount offences currency hm _ hres =>
      rcases Offences.tryHandleOffence_cases m.stash (s.offence m slashSession fraction)
        s.ledger.currency s.offences who m.tier with heq | ⟨hwithin, heq⟩ | ⟨_, _, heq⟩
      · rw [heq] at hres
        cases hres
        rw [noteLimit_of_le le_rfl]
        exact hs
      · rw [heq] at hres
        cases hres
        exact hs.record hm hwithin rfl
      · rw [heq] at hres
        cases hres
  | @punished m amount offences currency hm _ hres =>
      rcases Offences.tryHandleOffence_cases m.stash (s.offence m slashSession fraction)
        s.ledger.currency s.offences who m.tier with heq | ⟨_, heq⟩ | ⟨_, _, heq⟩
      · rw [heq] at hres
        cases hres
      · rw [heq] at hres
        cases hres
      · rw [heq] at hres
        cases hres
        have hremoved : (s.punished cfg rm who m amount
            { s.offences with validatorOffences := s.offences.validatorOffences.remove who }
            currency).recordLength who = 0 := by
          show ((s.offences.validatorOffences.remove who).get who).elim 0 _ = 0
          rw [StorageMap.get_remove_self]
          rfl
        rw [noteLimit_of_le (hremoved.le.trans (Nat.zero_le _))]
        refine hs.of_records fun c => ?_
        by_cases hc : c = who
        · exact Or.inr (hc ▸ StorageMap.get_remove_self _ _)
        · exact Or.inl (StorageMap.get_remove_of_ne _ hc)

/-- **Step lemma.**  One step of a watched run leaves the records in order. -/
lemma RecordsKept.step {i : Step AccountId R} (hs : RecordsKept s limits)
    (h : s.step cfg rm i = some s') : RecordsKept s' (noteLimits cfg rm s i s' limits) := by
  cases i with
  | onOffence offenders slashSession =>
      obtain ⟨limits', hwatched⟩ := foldlM_watched noteLimit limits h
      have hkept := foldlM_invariant (P := fun x : State AccountId R × (AccountId → ℕ) =>
        RecordsKept x.1 x.2) (fun x offender x' hx hstep => ?_) hwatched hs
      · have hnote : noteLimits cfg rm s (.onOffence offenders slashSession) s' limits = limits' := by
          simp only [noteLimits, hwatched, Option.map_some, Option.getD_some]
        rw [hnote]
        exact hkept
      · obtain ⟨hoffend, hnote⟩ := watched_eq_some hstep
        rw [hnote]
        exact hx.offend hoffend
  | _ => exact hs.of_records (State.step_records (fun _ _ hi => by cases hi) h)

end Limits

/-! ## Exclusion -/

/-- The controller of the stash is `c`, which has been kicked out. -/
structure OutAs (l : Ledger AccountId) (stash c : AccountId) : Prop where
  stash : l.bondedStash.get stash = some c
  record : ∃ m, l.candidateInfo.get c = some m ∧ m.status = .kickedOut

/-- The validator of the stash has been kicked out. -/
def State.KickedOut (s : State AccountId R) (stash : AccountId) : Prop :=
  ∃ c, OutAs s.ledger stash c

/-- The step does not bring the validator of the stash back online. -/
def Step.StaysOut (stash : AccountId) (s : State AccountId R) : Step AccountId R → Prop
  | .call (.signed c) .goOnline => s.ledger.bondedStash.get stash ≠ some c
  | _ => True

omit [LinearOrder AccountId] in
/-- Whether a validator has been kicked out can be looked up. -/
lemma State.kickedOut_iff {s : State AccountId R} {stash : AccountId} : s.KickedOut stash ↔
    ((s.ledger.bondedStash.get stash).any fun c =>
      (s.ledger.candidateInfo.get c).any CandidateMetadata.isKickedOut) = true := by
  constructor
  · rintro ⟨c, hstash, m, hm, hstatus⟩
    rw [hstash, Option.any_some, hm, Option.any_some]
    exact decide_eq_true hstatus
  · intro h
    obtain ⟨c, hstash, h⟩ := (Option.any_eq_true _ _).mp h
    obtain ⟨m, hm, hstatus⟩ := (Option.any_eq_true _ _).mp h
    exact ⟨c, hstash, m, hm, of_decide_eq_true hstatus⟩

instance (s : State AccountId R) (stash : AccountId) : Decidable (s.KickedOut stash) :=
  decidable_of_iff _ State.kickedOut_iff.symm

section Out

variable {cfg : Config AccountId} {rm : RelayManager AccountId R} {s s' : State AccountId R}
  {l l' : Ledger AccountId} {stash c k : AccountId} {m m' : CandidateMetadata AccountId}

namespace OutAs

omit [LinearOrder AccountId] in
/-- Nobody's standing changes. -/
lemma of_standing (h : OutAs l stash c) (hstash : l'.bondedStash = l.bondedStash)
    (hstand : l'.standing = l.standing) : OutAs l' stash c := by
  refine ⟨hstash ▸ h.stash, ?_⟩
  obtain ⟨m, hm, hstatus⟩ := h.record
  have hc := congrFun hstand c
  rw [Ledger.standing, Ledger.standing, hm, Option.map_some, Option.map_eq_some_iff] at hc
  obtain ⟨m', hm', hsame⟩ := hc
  have hstatus' : m'.status = m.status := congrArg Prod.fst hsame
  exact ⟨m', hm', hstatus'.trans hstatus⟩

/-- A record is rewritten, of somebody else or without the status. -/
lemma put (h : OutAs l stash c) (hstash : l'.bondedStash = l.bondedStash)
    (hm : l.candidateInfo.get k = some m) (hinfo : l'.candidateInfo = l.candidateInfo.insert k m')
    (hstatus : m.status = .kickedOut → m'.status = .kickedOut) : OutAs l' stash c := by
  refine ⟨hstash ▸ h.stash, ?_⟩
  obtain ⟨mc, hmc, hout⟩ := h.record
  rw [hinfo, StorageMap.get_insert]
  split_ifs with hc
  · subst hc
    obtain rfl := Option.some.inj (hm.symm.trans hmc)
    exact ⟨m', rfl, hstatus hout⟩
  · exact ⟨mc, hmc, hout⟩

end OutAs

/-- **Every call** but its own to go online. -/
lemma State.dispatch_outAs {origin : Origin AccountId} {call : Call AccountId}
    (hl : LedgerInv cfg s.ledger) (hpool : s.ledger.PoolAgrees) (hout : OutAs s.ledger stash c)
    (hi : Step.StaysOut stash s (.call origin call)) (h : s.dispatch cfg rm origin call = .ok s') :
    OutAs s'.ledger stash c := by
  have hsigned := State.signed_of_dispatch h
  obtain ⟨mc, hmc, hkicked⟩ := hout.record
  cases call with
  | joinCandidates controller relayer bond count =>
      obtain ⟨who, -, hcall⟩ := hsigned rfl
      simp only [State.signed, State.joinCandidates, Ledger.join, Ledger.tryInsertPool, bind_eq_ok,
        ensure_eq_ok, pure_eq_ok, exists_const] at hcall
      obtain ⟨hbonded, hfree, -, -, -, -, -, currency, -, relay, -, l, ⟨l₁, ⟨-, rfl⟩, rfl⟩, rfl⟩ :=
        hcall
      have hstash : stash ≠ who := by
        rintro rfl
        rw [hout.stash] at hbonded
        cases hbonded
      have hc : c ≠ controller := by
        rintro rfl
        rw [hmc] at hfree
        cases hfree
      exact ⟨(StorageMap.get_insert_of_ne _ hstash _).trans hout.stash, mc,
        (StorageMap.get_insert_of_ne _ hc _).trans hmc, hkicked⟩
  | executeLeaveCandidates count =>
      obtain ⟨who, -, hcall⟩ := hsigned rfl
      simp only [State.signed, State.executeLeaveCandidates, bind_eq_ok, ensure_eq_ok, pure_eq_ok,
        exists_const, Prod.exists] at hcall
      obtain ⟨controller, m, hbd, -, ⟨⟩, hcan, l, hleave, rfl⟩ := hcall
      obtain ⟨hbonded, hm⟩ := Ledger.bonded_spec hbd
      obtain ⟨hinfo, hstashes, -⟩ := Ledger.executeLeave_frame hleave
      have hc : c ≠ controller := by
        rintro rfl
        obtain rfl := Option.some.inj (hm.symm.trans hmc)
        simp [CandidateMetadata.canLeave, hkicked] at hcan
      have hstash : stash ≠ who := by
        rintro rfl
        exact hc (Option.some.inj (hout.stash.symm.trans hbonded))
      refine ⟨?_, mc, ?_, hkicked⟩
      · show l.bondedStash.get stash = some c
        rw [hstashes, StorageMap.get_remove_of_ne _ hstash, hout.stash]
      · show l.candidateInfo.get c = some mc
        rw [hinfo, StorageMap.get_remove_of_ne _ hc, hmc]
  | setValidatorTier more new relayer =>
      obtain ⟨who, -, hcall⟩ := hsigned rfl
      obtain ⟨controller, m, m', hm, hstatus, -, hinfo, -⟩ := State.setValidatorTier_rewrites hcall
      exact hout.put (State.setValidatorTier_stashes hcall) hm hinfo fun hk => hstatus.trans hk
  | scheduleLeaveCandidates count =>
      obtain ⟨who, -, hcall⟩ := hsigned rfl
      simp only [State.signed, State.scheduleLeaveCandidates, Ledger.removeFromCandidatePool,
        CandidateMetadata.scheduleLeave, bind_eq_ok, okOr_eq_ok, ensure_eq_ok, pure_eq_ok,
        exists_const] at hcall
      obtain ⟨m, hm, -, -, -, ⟨⟩, hremoved, m', ⟨-, -, rfl⟩, rfl⟩ := hcall
      refine hout.put rfl hm rfl fun hk => ?_
      -- whoever is in the pool is active
      have hentry : s.ledger.candidatePool.get who = none := by
        rw [hpool who, hm, Option.bind_some, CandidateMetadata.entry, CandidateMetadata.isActive, hk]
        rfl
      replace hremoved : (s.ledger.candidatePool.get who).isSome = true := ensure_eq_ok.mp hremoved
      rw [hentry] at hremoved
      cases hremoved
  | cancelLeaveCandidates count =>
      obtain ⟨who, -, hcall⟩ := hsigned rfl
      simp only [State.signed, State.cancelLeaveCandidates, Ledger.tryInsertPool, bind_eq_ok,
        okOr_eq_ok, ensure_eq_ok, pure_eq_ok, exists_const] at hcall
      obtain ⟨m, hm, hleaving, -, l, ⟨-, rfl⟩, rfl⟩ := hcall
      refine hout.put rfl hm rfl fun hk => ?_
      rw [CandidateMetadata.isLeaving, hk] at hleaving
      cases hleaving
  | goOnline =>
      obtain ⟨who, rfl, hcall⟩ := hsigned rfl
      simp only [State.signed, State.goOnline, Ledger.tryInsertPool, bind_eq_ok, okOr_eq_ok,
        ensure_eq_ok, pure_eq_ok, exists_const] at hcall
      obtain ⟨m, hm, -, -, l, ⟨-, rfl⟩, rfl⟩ := hcall
      have hc : c ≠ who := by
        rintro rfl
        exact hi hout.stash
      exact ⟨hout.stash, mc, (StorageMap.get_insert_of_ne _ hc _).trans hmc, hkicked⟩
  | goOffline =>
      obtain ⟨who, -, hcall⟩ := hsigned rfl
      simp only [State.signed, State.goOffline, Ledger.removeFromCandidatePool, bind_eq_ok,
        okOr_eq_ok, ensure_eq_ok, pure_eq_ok, exists_const] at hcall
      obtain ⟨m, hm, hactive, ⟨⟩, -, rfl⟩ := hcall
      refine hout.put rfl hm rfl fun hk => ?_
      rw [CandidateMetadata.isActive, hk] at hactive
      cases hactive
  | _ =>
      have hroutine : Routine cfg s s' := State.dispatch_routine rfl h
      exact hout.of_standing (hroutine.stashes hl) hroutine.terms.standing

/-- Whoever has been kicked out stays out, and its record as it is, whoever the offender is. -/
lemma State.offend_outAs {slashSession : ℕ} {offender : AccountId × Perbill}
    (hout : OutAs s.ledger stash c) (h : s.offend cfg rm slashSession offender = some s') :
    OutAs s'.ledger stash c ∧
      s'.offences.validatorOffences.get c = s.offences.validatorOffences.get c := by
  obtain ⟨who, fraction⟩ := offender
  obtain ⟨mc, hmc, hkicked⟩ := hout.record
  -- an offence of `c` itself would have been ignored
  have hother : ∀ m, s.ledger.candidateInfo.get who = some m → m.isKickedOut = false → c ≠ who := by
    rintro m hm hno rfl
    obtain rfl := Option.some.inj (hm.symm.trans hmc)
    rw [CandidateMetadata.isKickedOut, hkicked] at hno
    cases hno
  cases State.offend_cases h with
  | ignored _ => exact ⟨hout, rfl⟩
  | @recorded m amount offences currency hm hno hres =>
      have hc := hother m hm hno
      refine ⟨⟨hout.stash, mc, hmc, hkicked⟩, ?_⟩
      rcases Offences.tryHandleOffence_cases m.stash (s.offence m slashSession fraction)
        s.ledger.currency s.offences who m.tier with heq | ⟨-, heq⟩ | ⟨_, _, heq⟩
      · rw [heq] at hres
        cases hres
        rfl
      · rw [heq] at hres
        cases hres
        exact StorageMap.get_insert_of_ne _ hc _
      · rw [heq] at hres
        cases hres
  | @punished m amount offences currency hm hno hres =>
      have hc := hother m hm hno
      refine ⟨⟨hout.stash, mc, (StorageMap.get_insert_of_ne _ hc _).trans hmc, hkicked⟩, ?_⟩
      rcases Offences.tryHandleOffence_cases m.stash (s.offence m slashSession fraction)
        s.ledger.currency s.offences who m.tier with heq | ⟨-, heq⟩ | ⟨_, _, heq⟩
      · rw [heq] at hres
        cases hres
      · rw [heq] at hres
        cases hres
      · rw [heq] at hres
        cases hres
        exact StorageMap.get_remove_of_ne _ hc

/-- `on_offence` does not bring a candidate back that has been kicked out. -/
lemma State.onOffence_outAs {offenders : List (AccountId × Perbill)} {slashSession : ℕ}
    (hout : OutAs s.ledger stash c) (h : s.onOffence cfg rm offenders slashSession = some s') :
    OutAs s'.ledger stash c ∧
      s'.offences.validatorOffences.get c = s.offences.validatorOffences.get c := by
  refine foldlM_invariant (P := fun t : State AccountId R => OutAs t.ledger stash c ∧
    t.offences.validatorOffences.get c = s.offences.validatorOffences.get c)
    (fun t offender t' ht hstep => ?_) h ⟨hout, rfl⟩
  obtain ⟨hout', hsame⟩ := State.offend_outAs ht.1 hstep
  exact ⟨hout', hsame.trans ht.2⟩

/-- **The controller changes of a round**: the validator stays out, perhaps under another account. -/
lemma State.applyControllerSets_outAs {now : ℕ} :
    ∀ {cs : List (DelayedControllerSet AccountId)} {s : State AccountId R} {c : AccountId},
      LedgerInv cfg s.ledger → Pending s.ledger cs → OutAs s.ledger stash c →
      ∃ c', OutAs (cs.foldl (State.applyControllerSet rm now) s).ledger stash c' := by
  intro cs
  induction cs with
  | nil => exact fun _ _ hout => ⟨_, hout⟩
  | cons d cs ih =>
      intro s c hl hp hout
      obtain ⟨m, top, bottom, hm, hren, hbal⟩ :=
        @State.applyControllerSet_renamed _ _ _ cfg rm s now d cs hl hp
      obtain ⟨mc, hmc, hkicked⟩ := hout.record
      have hold := hp.stash d List.mem_cons_self
      have hone : ∃ c', OutAs (s.applyControllerSet rm now d).ledger stash c' := by
        by_cases hd : stash = d.stash
        · subst hd
          obtain rfl := Option.some.inj (hout.stash.symm.trans hold)
          obtain rfl := Option.some.inj (hm.symm.trans hmc)
          refine ⟨d.new, ?_, m, ?_, hkicked⟩
          · rw [hren.stash_eq, StorageMap.get_insert_self]
          · rw [hren.info_eq, StorageMap.get_insert_self]
        · have hcold : c ≠ d.old := by
            rintro rfl
            obtain ⟨x, hx, hxs⟩ := (hl.books.stash_iff _ _).mp hout.stash
            obtain ⟨y, hy, hys⟩ := (hl.books.stash_iff _ _).mp hold
            obtain rfl := Option.some.inj (hx.symm.trans hy)
            exact hd (hxs.symm.trans hys)
          have hcnew : c ≠ d.new := by
            rintro rfl
            rw [hp.unused d List.mem_cons_self] at hmc
            cases hmc
          refine ⟨c, ?_, mc, ?_, hkicked⟩
          · rw [hren.stash_eq, StorageMap.get_insert_of_ne _ hd, hout.stash]
          · rw [hren.info_eq, StorageMap.get_insert_of_ne _ hcnew,
              StorageMap.get_remove_of_ne _ hcold, hmc]
      obtain ⟨c', hout'⟩ := hone
      exact ih (hbal.inv hl) (hp.tail hren) hout'

/-- After `new_round` the stash still has a controller that has been kicked out. -/
lemma State.newRound_outAs {now : ℕ} {full basic : List AccountId} (hs : StateInv cfg s)
    (hq : Qualified s.ledger full basic) (hout : OutAs s.ledger stash c)
    (h : s.newRound cfg rm now full basic = some s') : s'.KickedOut stash := by
  simp only [State.newRound, Option.map_eq_some_iff, Prod.exists] at h
  obtain ⟨count, s₁, h₁, rfl⟩ := h
  let s₃ : State AccountId R := (s₁.startRound rm (s.round.updateRound s.session now)
    count).handleDelayedCommissionSets (s.now + 1)
  obtain ⟨hinv, hpending, -, hchosen⟩ := State.selectForRound_midway hs hq h₁ rfl
  have hquiet : Quiet cfg s.ledger s₃.ledger := State.selectForRound_quiet h₁ rfl
  have hsteady := hquiet.steady
  have hout₃ : OutAs s₃.ledger stash c := by
    obtain ⟨m, hm, hkicked⟩ := hout.record
    have hstand := hchosen.standing c
    rw [Ledger.standing, Ledger.standing, hm, Option.map_some, Option.map_some,
      Option.map_eq_some_iff] at hstand
    obtain ⟨m₃, hm₃, hsame⟩ := hstand
    have hstatus : m₃.status = m.status := congrArg Prod.fst hsame
    exact ⟨hsteady.stashes ▸ hout.stash, m₃, hm₃, hstatus.trans hkicked⟩
  let s₄ : State AccountId R :=
    { s₃ with delayedControllerSets := s₃.delayedControllerSets.remove (s.now + 1 - 1) }
  exact State.applyControllerSets_outAs (s := s₄) hinv hpending hout₃

/-- After `new_session` the stash still has a controller that has been kicked out. -/
lemma State.newSession_outAs {now newIndex : ℕ} {validators : List AccountId}
    {hasKeys : AccountId → Bool} {out : Option (List AccountId)} (hs : StateInv cfg s)
    (hout : OutAs s.ledger stash c)
    (h : s.newSession cfg rm now newIndex validators hasKeys = some (out, s')) :
    s'.KickedOut stash := by
  simp only [State.newSession, State.tryNewRound, Option.bind_eq_bind, Option.bind_eq_some_iff,
    Option.pure_def, Option.some.injEq, Prod.mk.injEq] at h
  obtain ⟨s₁, h₁, -, rfl⟩ := h
  have hquiet : Quiet cfg s.ledger (s.enterSession now newIndex validators).ledger :=
    s.ledger.computeProductivity_quiet _ _
  have henter : OutAs (s.enterSession now newIndex validators).ledger stash c :=
    hout.of_standing hquiet.steady.stashes (s.enterSession_onRoll now newIndex validators).standing
  split_ifs at h₁
  · obtain ⟨c', hout'⟩ := State.newRound_outAs ((s.enterSession_keeps now newIndex validators).inv hs)
      (State.computeTopCandidates_qualified cfg _ hasKeys) henter h₁
    exact ⟨c', hout'⟩
  · obtain rfl := Option.some.inj h₁
    exact ⟨c, henter⟩

/-- **Whoever has been kicked out stays out** until it goes online. -/
lemma State.step_staysOut {i : Step AccountId R} (hs : StateInv cfg s)
    (hpool : s.ledger.PoolAgrees) (hout : s.KickedOut stash) (hi : i.StaysOut stash s)
    (h : s.step cfg rm i = some s') : s'.KickedOut stash := by
  obtain ⟨c, hout⟩ := hout
  cases i with
  | call origin call =>
      obtain rfl := Option.some.inj h
      exact ⟨c, commit_induction (P := fun t : State AccountId R => OutAs t.ledger stash c) hout
        fun t ht => State.dispatch_outAs hs.ledger hpool hout hi ht⟩
  | onInitialize n drained =>
      obtain ⟨⟨paid, s₁⟩, h₁, rfl⟩ := Option.map_eq_some_iff.mp h
      rcases State.onInitialize_cases h₁ with ⟨snapshot, -, hpay⟩
      cases hpay with
      | idle => exact ⟨c, hout.stash, hout.record⟩
      | closed => exact ⟨c, hout.stash, hout.record⟩
      | lost => exact ⟨c, hout.stash, hout.record⟩
      | paid _ _ _ hl =>
          exact ⟨c, hout.of_standing ((Ledger.payValidator_preserves hl).steady hs.ledger).stashes
            (Ledger.payValidator_onTerms hl).standing⟩
  | noteAuthor author =>
      obtain rfl := Option.some.inj h
      have hquiet : Quiet cfg s.ledger (s.noteAuthor author).ledger := State.noteAuthor_quiet author
      exact ⟨c, hout.of_standing hquiet.steady.stashes (s.noteAuthor_onRoll author).standing⟩
  | newSession now newIndex validators hasKeys =>
      obtain ⟨⟨o, s₁⟩, h₁, rfl⟩ := Option.map_eq_some_iff.mp h
      exact State.newSession_outAs hs hout h₁
  | onOffence offenders slashSession => exact ⟨c, (State.onOffence_outAs hout h).1⟩
  | endSession => exact Option.some.inj h ▸ ⟨c, hout⟩
  | balances free others => exact Option.some.inj h ▸ ⟨c, hout.stash, hout.record⟩
  | relay state => exact Option.some.inj h ▸ ⟨c, hout⟩
  | offenceSettings isOffenceActive isSlashActive expiration full basic =>
      exact Option.some.inj h ▸ ⟨c, hout⟩

/-- **Nothing is recorded** of whoever has been kicked out. -/
lemma State.step_recordsNothing {i : Step AccountId R} (hout : s.KickedOut stash)
    (h : s.step cfg rm i = some s')
    (hc : s.ledger.bondedStash.get stash = some c ∨ s'.ledger.bondedStash.get stash = some c) :
    s'.offences.validatorOffences.get c = s.offences.validatorOffences.get c ∨
      s'.offences.validatorOffences.get c = none := by
  obtain ⟨k, hout⟩ := hout
  cases i with
  | onOffence offenders slashSession =>
      obtain ⟨hout', hsame⟩ := State.onOffence_outAs hout h
      have hck : c = k := by
        rcases hc with hc | hc
        · exact Option.some.inj (hc.symm.trans hout.stash)
        · exact Option.some.inj (hc.symm.trans hout'.stash)
      exact hck ▸ Or.inl hsame
  | _ => exact State.step_records (fun _ _ hi => by cases hi) h c

end Out

/-! ## Runs -/

/-- The watched runs from a genesis without records. -/
def OffendersWatched (cfg : Config AccountId) (rm : RelayManager AccountId R)
    (x : State AccountId R × (AccountId → ℕ)) : Prop :=
  Reachable (fun x => IsGenesis cfg rm x.1 ∧ x.1.offences.validatorOffences = ∅ ∧ x.2 = fun _ => 0)
    (watched (State.step cfg rm) (noteLimits cfg rm)) anyStep x

section Runs

variable {cfg : Config AccountId} {rm : RelayManager AccountId R} {s t t' : State AccountId R}
  {x : State AccountId R × (AccountId → ℕ)} {stash : AccountId}

lemma OffendersWatched.reachable (h : OffendersWatched cfg rm x) :
    ReachableIf cfg rm anyStep x.1 := by
  refine Reachable.invariant (P := fun x : State AccountId R × (AccountId → ℕ) =>
    ReachableIf cfg rm anyStep x.1) (fun x hx => .init hx.1) (fun x i x' hx _ hstep => ?_) h
  exact .step hx trivial (watched_eq_some hstep).1

lemma OffendersWatched.recordsKept (h : OffendersWatched cfg rm x) : RecordsKept x.1 x.2 := by
  refine Reachable.invariant (P := fun x : State AccountId R × (AccountId → ℕ) =>
    RecordsKept x.1 x.2) (fun x hx c info hinfo => ?_) (fun x i x' hx _ hstep => ?_) h
  · rw [hx.2.1] at hinfo
    cases hinfo
  · obtain ⟨hs, hnote⟩ := watched_eq_some hstep
    rw [hnote]
    exact hx.step hs

/-- **Every offence of a batch** gets its verdict. -/
lemma ReachableIf.verdict (h : ReachableIf cfg rm anyStep s) {slashSession : ℕ}
    {before : List (AccountId × Perbill)} {who : AccountId} {fraction : Perbill}
    (hbefore : before.foldlM (State.offend cfg rm slashSession) s = some t)
    (hoffend : t.offend cfg rm slashSession (who, fraction) = some t') :
    Verdict (ReachableIf cfg rm (fun s i => Step.Top cfg s i) s) t t' slashSession who fraction := by
  have hkeeps : Keeps cfg True True s t :=
    foldlM_invariant (P := Keeps cfg True True s)
      (fun _ _ _ ht hstep => ht.trans (State.offend_keeps hstep)) hbefore (.refl s)
  have hbal := hkeeps.balanced h.inv
  refine State.offend_verdict (hbal.inv h.inv.ledger) (hbal.backed h.inv.ledger h.backed)
    (fun hexact => ?_) hoffend
  obtain ⟨hbottom, hcovers⟩ := hexact.covers fun _ _ htop => htop
  exact hbal.covers h.inv.ledger hbottom hcovers

/-- **Once out, a validator stays out**, whatever happens until it goes online. -/
lemma State.KickedOut.run (h : ReachableIf cfg rm anyStep s) (hout : s.KickedOut stash)
    (hrun : Reachable (· = s) (State.step cfg rm) (fun s i => Step.StaysOut stash s i) t) :
    t.KickedOut stash := by
  have hboth : ReachableIf cfg rm anyStep t ∧ t.KickedOut stash := by
    refine Reachable.invariant (P := fun t => ReachableIf cfg rm anyStep t ∧ t.KickedOut stash)
      (fun t ht => ?_) (fun t i t' ht hi hstep => ?_) hrun
    · subst ht
      exact ⟨h, hout⟩
    · exact ⟨.step ht.1 trivial hstep,
        State.step_staysOut ht.1.inv ht.1.poolAgrees ht.2 hi hstep⟩
  exact hboth.2

/-- **The ledger of offences.**  Every record is tallied and was within the maximum when it last grew;
every offence is ignored, recorded or punished, as the record and the settings say; and of whoever has
been kicked out nothing is recorded until it goes online. -/
theorem offence_ledger (h : OffendersWatched cfg rm x) :
    (∀ c info, x.1.offences.validatorOffences.get c = some info →
      info.Tallied ∧ info.offenceCount ≤ max 1 (x.2 c)) ∧
    (∀ slashSession (before : List (AccountId × Perbill)) who fraction t t',
      before.foldlM (State.offend cfg rm slashSession) x.1 = some t →
      t.offend cfg rm slashSession (who, fraction) = some t' →
      Verdict (ReachableIf cfg rm (fun s i => Step.Top cfg s i) x.1) t t' slashSession who fraction) ∧
    ∀ stash t, x.1.KickedOut stash →
      Reachable (· = x.1) (State.step cfg rm) (fun s i => Step.StaysOut stash s i) t →
      t.KickedOut stash ∧ ∀ i t', t.step cfg rm i = some t' →
        ∀ c, t.ledger.bondedStash.get stash = some c ∨ t'.ledger.bondedStash.get stash = some c →
          t'.offences.validatorOffences.get c = t.offences.validatorOffences.get c ∨
            t'.offences.validatorOffences.get c = none := by
  have hreach := h.reachable
  refine ⟨h.recordsKept, fun _ _ _ _ _ _ hbefore hoffend => hreach.verdict hbefore hoffend,
    fun stash t hout hrun => ?_⟩
  have hstays := hout.run hreach hrun
  exact ⟨hstays, fun i t' hstep c hc => State.step_recordsNothing hstays hstep hc⟩

end Runs

section Devnet

/-- What a watched run of the small network shows, it shows of a reachable state. -/
lemma devnetOffenders_exists {steps : List (Step ℕ Unit)} {P : State ℕ Unit × (ℕ → ℕ) → Bool}
    (h : (devnetGenesis.build devnet devnetRelays).any (fun s =>
      decide (s.offences.validatorOffences.keys = ∅) &&
        (runSteps (watched (State.step devnet devnetRelays) (noteLimits devnet devnetRelays))
          (s, fun _ => 0) steps).any P) = true) :
    ∃ x, OffendersWatched devnet devnetRelays x ∧ P x = true := by
  obtain ⟨s, hs, h⟩ := (Option.any_eq_true _ _).mp h
  rw [Bool.and_eq_true, decide_eq_true_eq] at h
  obtain ⟨x, hx, hP⟩ := (Option.any_eq_true _ _).mp h.2
  have hnone : s.offences.validatorOffences = ∅ := by
    refine StorageMap.ext fun k => ?_
    cases hk : s.offences.validatorOffences.get k with
    | none => rfl
    | some info =>
        have hmem := StorageMap.mem_keys_iff.mpr ⟨info, hk⟩
        rw [h.1] at hmem
        cases hmem
  exact ⟨x, .runSteps (.init ⟨⟨devnetGenesis, hs⟩, hnone, rfl⟩) hx, hP⟩

/-- Three offences of a full node are on record, and the fourth one is punished. -/
theorem offence_ledger_devnet : ∃ x : State ℕ Unit × (ℕ → ℕ),
    OffendersWatched devnet devnetRelays x ∧ x.2 2 = 3 ∧ ∃ m info t,
    x.1.offences.validatorOffences.get 2 = some info ∧ info.Tallied ∧
    info.offenceCount ≤ max 1 (x.2 2) ∧
    x.1.offend devnet devnetRelays 1 (2, .fromPercent 10) = some t ∧
    Punished (ReachableIf devnet devnetRelays (fun s i => Step.Top devnet s i) x.1) x.1 t 2 m
      (x.1.offences.slashAmount info m.bond) ∧
    x.1.offences.slashAmount info m.bond = 300 := by
  have hrun : (devnetGenesis.build devnet devnetRelays).any (fun s =>
      decide (s.offences.validatorOffences.keys = ∅) &&
        (runSteps (watched (State.step devnet devnetRelays) (noteLimits devnet devnetRelays))
          (s, fun _ => 0) (List.replicate 3 (.onOffence [(2, .fromPercent 10)] 1))).any fun x =>
          decide (x.2 2 = 3 ∧ x.1.offences.isOffenceActive = true ∧
            (x.1.offend devnet devnetRelays 1 (2, .fromPercent 10)).isSome) &&
          (x.1.ledger.candidateInfo.get 2).any fun m =>
            (x.1.offences.validatorOffences.get 2).any fun info =>
              decide (m.isKickedOut = false ∧
                x.1.offences.maximumOffenceCount m.tier < info.offenceCount + 1 ∧
                x.1.offences.slashAmount info m.bond = 300)) = true := by decide
  obtain ⟨x, hx, hP⟩ := devnetOffenders_exists hrun
  rw [Bool.and_eq_true, decide_eq_true_eq] at hP
  obtain ⟨⟨hlimit, hactive, hsome⟩, hP⟩ := hP
  obtain ⟨m, hm, hP⟩ := (Option.any_eq_true _ _).mp hP
  obtain ⟨info, hinfo, hP⟩ := (Option.any_eq_true _ _).mp hP
  obtain ⟨hkicked, hexceeds, hamount⟩ := of_decide_eq_true hP
  obtain ⟨t, ht⟩ := Option.isSome_iff_exists.mp hsome
  obtain ⟨hrecords, hverdict, -⟩ := offence_ledger hx
  exact ⟨x, hx, hlimit, m, info, t, hinfo, (hrecords 2 info hinfo).1, (hrecords 2 info hinfo).2, ht,
    (hverdict 1 [] 2 _ x.1 t rfl ht).punished m info hm hkicked hactive hinfo hexceeds, hamount⟩

/-- The small network after three offences of a full node and a change of the settings, and after the
fourth offence, which is one too many. -/
lemma devnetFourth_exists {setting : Step ℕ Unit} {Q : State ℕ Unit → State ℕ Unit → Bool}
    (h : (devnetRun (List.replicate 3 (.onOffence [(2, .fromPercent 10)] 1) ++ [setting])).any
      (fun s => (s.offend devnet devnetRelays 1 (2, .fromPercent 10)).any fun t => Q s t &&
        (s.ledger.candidateInfo.get 2).any fun m =>
          (s.offences.validatorOffences.get 2).any fun info =>
            decide (s.offences.maximumOffenceCount m.tier < info.offenceCount + 1 ∧
              info.aggregatedSlashFraction.mul m.bond = 300)) = true) :
    ∃ s t : State ℕ Unit, ReachableIf devnet devnetRelays anyStep s ∧
      s.offend devnet devnetRelays 1 (2, .fromPercent 10) = some t ∧ (∃ m info,
        s.ledger.candidateInfo.get 2 = some m ∧ s.offences.validatorOffences.get 2 = some info ∧
        s.offences.maximumOffenceCount m.tier < info.offenceCount + 1 ∧
        info.aggregatedSlashFraction.mul m.bond = 300) ∧ Q s t = true := by
  obtain ⟨s, hs, h⟩ := devnetRun_exists h
  obtain ⟨t, ht, h⟩ := (Option.any_eq_true _ _).mp h
  rw [Bool.and_eq_true] at h
  obtain ⟨m, hm, hP⟩ := (Option.any_eq_true _ _).mp h.2
  obtain ⟨info, hinfo, hP⟩ := (Option.any_eq_true _ _).mp hP
  obtain ⟨hexceeds, hamount⟩ := of_decide_eq_true hP
  exact ⟨s, t, hs, ht, ⟨m, info, hm, hinfo, hexceeds, hamount⟩, h.1⟩

/-- **What switches and settings do.**  The fourth offence is one too many.  While slashing is not
active, it costs nothing although the validator is kicked out; while offences are not managed, it is not
even punished; and where the maximum is zero from the start, the first offence is recorded all the
same. -/
theorem offence_unslashed :
    (∃ s t : State ℕ Unit, ReachableIf devnet devnetRelays anyStep s ∧
      s.offend devnet devnetRelays 1 (2, .fromPercent 10) = some t ∧ (∃ m info,
        s.ledger.candidateInfo.get 2 = some m ∧ s.offences.validatorOffences.get 2 = some info ∧
        s.offences.maximumOffenceCount m.tier < info.offenceCount + 1 ∧
        info.aggregatedSlashFraction.mul m.bond = 300) ∧
      t.KickedOut 1 ∧ (t.offences.validatorOffences.get 2).isNone ∧
      t.ledger.currency.reserved 1 = s.ledger.currency.reserved 1) ∧
    (∃ s t : State ℕ Unit, ReachableIf devnet devnetRelays anyStep s ∧
      s.offend devnet devnetRelays 1 (2, .fromPercent 10) = some t ∧ (∃ m info,
        s.ledger.candidateInfo.get 2 = some m ∧ s.offences.validatorOffences.get 2 = some info ∧
        s.offences.maximumOffenceCount m.tier < info.offenceCount + 1 ∧
        info.aggregatedSlashFraction.mul m.bond = 300) ∧
      ¬ t.KickedOut 1 ∧ (t.offences.validatorOffences.get 2).isSome) ∧
    ∃ s : State ℕ Unit, ReachableIf devnet devnetRelays anyStep s ∧ ∃ m info,
      s.ledger.candidateInfo.get 2 = some m ∧ s.offences.validatorOffences.get 2 = some info ∧
      s.offences.maximumOffenceCount m.tier < info.offenceCount := by
  refine ⟨?_, ?_, ?_⟩
  · obtain ⟨s, t, hs, ht, hfourth, hQ⟩ := @devnetFourth_exists (.offenceSettings true false 10 3 3)
      (fun s t => decide (t.KickedOut 1 ∧ (t.offences.validatorOffences.get 2).isNone ∧
        t.ledger.currency.reserved 1 = s.ledger.currency.reserved 1)) (by decide)
    exact ⟨s, t, hs, ht, hfourth, of_decide_eq_true hQ⟩
  · obtain ⟨s, t, hs, ht, hfourth, hQ⟩ := @devnetFourth_exists (.offenceSettings false true 10 3 3)
      (fun _ t => decide (¬ t.KickedOut 1 ∧ (t.offences.validatorOffences.get 2).isSome)) (by decide)
    exact ⟨s, t, hs, ht, hfourth, of_decide_eq_true hQ⟩
  · let g : GenesisConfig ℕ Unit := { devnetGenesis with offences := ⟨∅, true, true, 10, 0, 0⟩ }
    have hrun : (g.build devnet devnetRelays).any (fun s₀ =>
        (s₀.step devnet devnetRelays (.onOffence [(2, .fromPercent 10)] 1)).any fun s =>
          (s.ledger.candidateInfo.get 2).any fun m =>
            (s.offences.validatorOffences.get 2).any fun info =>
              decide (s.offences.maximumOffenceCount m.tier < info.offenceCount)) = true := by decide
    obtain ⟨s₀, h₀, hrun⟩ := (Option.any_eq_true _ _).mp hrun
    obtain ⟨s, hs, hrun⟩ := (Option.any_eq_true _ _).mp hrun
    obtain ⟨m, hm, hrun⟩ := (Option.any_eq_true _ _).mp hrun
    obtain ⟨info, hinfo, hexceeds⟩ := (Option.any_eq_true _ _).mp hrun
    exact ⟨s, .step (.init ⟨g, h₀⟩) trivial hs, m, info, hm, hinfo, of_decide_eq_true hexceeds⟩

end Devnet

end BifrostNode.Staking
