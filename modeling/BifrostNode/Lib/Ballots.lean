import Mathlib.Data.Finset.Card
import Mathlib.Data.List.Perm.Basic

/-!
# Ballots

A ballot is the list of those who have voted for something, and carries it when it is long enough.  Its
length is a number of voters as long as nobody is on it twice.

* **A vote** is only taken from somebody who is not on the ballot, so it keeps voters distinct.
* **A replacement** puts the new account where the old one was, or at the end.  Either way it keeps voters
  distinct exactly if the two accounts have not both voted.
* **Voters come from somewhere**: a vote from those who may vote, and a replacement from those who have
  voted.
-/

namespace BifrostNode.Ballots

variable {V : Type} {voters : List V} {old new a : V}

/-- A replacement does not meet the new account on the ballot of the old one. -/
def Uncontested (old new : V) (voters : List V) : Prop := old ≠ new → old ∈ voters → new ∉ voters

instance decidableUncontested [DecidableEq V] (old new : V) (voters : List V) :
    Decidable (Uncontested old new voters) :=
  inferInstanceAs (Decidable (old ≠ new → old ∈ voters → new ∉ voters))

/-- Whoever has not voted yet may vote once. -/
lemma nodup_vote (h : voters.Nodup) (ha : a ∉ voters) : (voters ++ [a]).Nodup := by
  rw [List.nodup_append_comm, List.singleton_append, List.nodup_cons]
  exact ⟨ha, h⟩

/-- A ballot without repetitions carries as many voters as it is long. -/
lemma le_card [DecidableEq V] {majority : ℕ} (h : voters.Nodup) (hlen : majority ≤ voters.length) :
    majority ≤ voters.toFinset.card := by
  rwa [List.toFinset_card_of_nodup h]

/-- **Two majorities** of a set share a member. -/
lemma majorities_meet [DecidableEq V] {set : Finset V} {voters' : List V} (h : voters.Nodup)
    (h' : voters'.Nodup) (hset : voters.toFinset ⊆ set) (hset' : voters'.toFinset ⊆ set)
    (hlen : set.card / 2 + 1 ≤ voters.length) (hlen' : set.card / 2 + 1 ≤ voters'.length) :
    ∃ a ∈ voters, a ∈ voters' := by
  have hcard := le_card h hlen
  have hcard' := le_card h' hlen'
  obtain ⟨a, ha⟩ := Finset.inter_nonempty_of_card_lt_card_add_card hset hset' (by omega)
  rw [Finset.mem_inter, List.mem_toFinset, List.mem_toFinset] at ha
  exact ⟨a, ha.1, ha.2⟩

/-- **Somebody can still vote** if a ballot is shorter than there are members. -/
lemma exists_absent [DecidableEq V] {set : Finset V} (h : voters.length < set.card) :
    ∃ a ∈ set, a ∉ voters := by
  obtain ⟨a, ha, habsent⟩ :=
    Finset.exists_mem_notMem_of_card_lt_card ((List.toFinset_card_le voters).trans_lt h)
  rw [List.mem_toFinset] at habsent
  exact ⟨a, ha, habsent⟩

/-! ## What votes keep -/

/-- **Votes keep** what is good about ballots: nobody is on an empty one, and somebody who may vote and has
not voted may be added. -/
structure KeptByVotes (good : List V → Prop) (may : V → Prop) : Prop where
  nil : good []
  vote : ∀ voters a, good voters → may a → a ∉ voters → good (voters ++ [a])

/-- The first vote. -/
lemma KeptByVotes.single {good : List V → Prop} {may : V → Prop} (h : KeptByVotes good may) (ha : may a) :
    good [a] := h.vote [] a h.nil ha List.not_mem_nil

/-- Whoever may vote, votes keep voters distinct. -/
lemma nodup_kept : KeptByVotes List.Nodup fun _ : V => True :=
  ⟨List.nodup_nil, fun _ _ h _ ha => nodup_vote h ha⟩

/-- Everybody on the ballot is in the set. -/
def Within (set : Finset V) (voters : List V) : Prop := ∀ a ∈ voters, a ∈ set

namespace Within

variable {set set' : Finset V}

lemma mono (h : Within set voters) (hset : set ⊆ set') : Within set' voters :=
  fun a ha => hset (h a ha)

lemma vote (h : Within set voters) (ha : a ∈ set) : Within set (voters ++ [a]) := by
  intro b hb
  rcases List.mem_append.mp hb with hb | hb
  · exact h b hb
  · rwa [List.mem_singleton.mp hb]

/-- Votes from the set keep ballots in it. -/
lemma kept : KeptByVotes (Within set) (· ∈ set) :=
  ⟨fun _ ha => absurd ha List.not_mem_nil, fun _ _ h ha _ => h.vote ha⟩

variable [DecidableEq V]

/-- **A replacement in place**, if the set has the new account in case it has the old one. -/
lemma replace (h : Within set voters) (hnew : old ∈ set → new ∈ set) :
    Within set (voters.replace old new) := by
  induction voters with
  | nil => exact h
  | cons b voters ih =>
      have hb : b ∈ set := h b List.mem_cons_self
      have hrest : Within set voters := fun a ha => h a (List.mem_cons_of_mem _ ha)
      rw [List.replace_cons]
      by_cases hold : old = b
      · rw [beq_iff_eq.mpr hold]
        exact List.forall_mem_cons.mpr ⟨hnew (hold ▸ hb), hrest⟩
      · rw [beq_eq_false_iff_ne.mpr hold]
        exact List.forall_mem_cons.mpr ⟨hb, ih hrest⟩

/-- A replacement at the end stays within a set that has the new member along with the old one. -/
lemma refile (h : Within set voters) (hold : old ∈ voters) (hnew : old ∈ set → new ∈ set) :
    Within set (voters.filter (· ≠ old) ++ [new]) :=
  vote (fun a ha => h a (List.mem_of_mem_filter ha)) (hnew (h old hold))

end Within

/-! ## Replacements -/

section Replacement

variable [DecidableEq V]

/-- A replacement at the end does not make a ballot longer. -/
lemma length_refile_le (hold : old ∈ voters) :
    (voters.filter (· ≠ old) ++ [new]).length ≤ voters.length := by
  have hfewer : (voters.filter (· ≠ old)).length < voters.length :=
    List.length_filter_lt_length_iff_exists.mpr ⟨old, hold, by simp⟩
  rw [List.length_append, List.length_singleton]
  omega

/-- Who is on a ballot after a replacement in place. -/
lemma mem_replace_iff (h : voters.Nodup) :
    a ∈ voters.replace old new ↔ (a = new ∧ old ∈ voters) ∨ (a ∈ voters ∧ a ≠ old) := by
  induction voters with
  | nil => simp
  | cons b voters ih =>
      rw [List.nodup_cons] at h
      rw [List.replace_cons]
      by_cases hb : old = b
      · subst hb
        simp only [beq_self_eq_true, List.mem_cons, true_or, and_true]
        constructor
        · rintro (rfl | ha)
          · exact .inl rfl
          · refine .inr ⟨.inr ha, ?_⟩
            rintro rfl
            exact h.1 ha
        · rintro (rfl | ⟨rfl | ha, hne⟩)
          · exact .inl rfl
          · exact absurd rfl hne
          · exact .inr ha
      · simp only [beq_eq_false_iff_ne.mpr hb, List.mem_cons, ih h.2, hb, false_or]
        constructor
        · rintro (rfl | hnew | ⟨ha, hne⟩)
          · exact .inr ⟨.inl rfl, Ne.symm hb⟩
          · exact .inl hnew
          · exact .inr ⟨.inr ha, hne⟩
        · rintro (hnew | ⟨rfl | ha, hne⟩)
          · exact .inr (.inl hnew)
          · exact .inl rfl
          · exact .inr (.inr ⟨ha, hne⟩)

/-- **A replacement in place** leaves nobody on the ballot twice exactly if it is uncontested. -/
lemma nodup_replace_iff (h : voters.Nodup) :
    (voters.replace old new).Nodup ↔ Uncontested old new voters := by
  induction voters with
  | nil => simp [Uncontested]
  | cons b voters ih =>
      rw [List.nodup_cons] at h
      rw [List.replace_cons]
      by_cases hb : old = b
      · subst hb
        rw [beq_self_eq_true, List.nodup_cons, and_iff_left h.2]
        constructor
        · intro hnew hne _ hin
          rcases List.mem_cons.mp hin with rfl | hin
          · exact hne rfl
          · exact hnew hin
        · intro hboth hin
          by_cases hne : old = new
          · exact h.1 (hne ▸ hin)
          · exact hboth hne List.mem_cons_self (List.mem_cons_of_mem _ hin)
      · simp only [beq_eq_false_iff_ne.mpr hb, List.nodup_cons, mem_replace_iff h.2, ih h.2,
          Uncontested, List.mem_cons, hb, false_or, h.1, false_and, or_false, not_and]
        constructor
        · rintro ⟨hfresh, hrest⟩ hne hold (rfl | hnew)
          · exact hfresh rfl hold
          · exact hrest hne hold hnew
        · intro hboth
          exact ⟨fun heq hold => hboth (fun hsame => hb (hsame.trans heq.symm)) hold (.inl heq.symm),
            fun hne hold hnew => hboth hne hold (.inr hnew)⟩

/-- **A replacement at the end** leaves nobody on the ballot twice exactly if it is uncontested. -/
lemma nodup_refile_iff (h : voters.Nodup) (hold : old ∈ voters) :
    (voters.filter (· ≠ old) ++ [new]).Nodup ↔ Uncontested old new voters := by
  rw [List.nodup_append_comm, List.singleton_append, List.nodup_cons, and_iff_left (h.filter _)]
  simp only [List.mem_filter, decide_eq_true_eq, Uncontested, hold, true_imp_iff, not_and, not_not]
  constructor
  · intro hnew hne hin
    exact hne (hnew hin).symm
  · intro hboth hin
    by_contra hne
    exact hboth (Ne.symm hne) hin

end Replacement

end BifrostNode.Ballots
