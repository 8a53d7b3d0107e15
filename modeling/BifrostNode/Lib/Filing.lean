import BifrostNode.Lib.StorageMap

/-!
# A register of what is kept where

Things are kept in boxes, as codes that need not parse.  Every box has a home, and a register says for a key
what the thing with that key is and at which home it is.  `Filed` says that no two boxes hold things with one
key, and that the register is right.

**Changes.**  An empty box is filled with things whose keys are new.  Or everything in a box goes to an empty
one: if that has the same home the register is still right, and if not it is rewritten for what was moved.
-/

namespace Filing

variable {K T B M Q : Type} {parse : B → Option M} {key : M → Q} {home : K → T}

/-- The box has the thing in it. -/
def Holds (parse : B → Option M) (boxes : K → List B) (k : K) (m : M) : Prop :=
  ∃ b ∈ boxes k, parse b = some m

/-- **The register is right**, and nothing is in two boxes. -/
structure Filed (parse : B → Option M) (key : M → Q) (home : K → T) (boxes : K → List B)
    (register : StorageMap Q (T × M)) : Prop where
  once : ∀ k k' m m', Holds parse boxes k m → Holds parse boxes k' m' → key m = key m' → k = k'
  registered : ∀ q t m, register.get q = some (t, m) ↔
    ∃ k, home k = t ∧ Holds parse boxes k m ∧ key m = q

/-- The codes are codes of the things. -/
def Parses (parse : B → Option M) (bs : List B) (ms : List M) : Prop :=
  bs.map parse = ms.map some

/-- Only one thing has the key. -/
def Keyed (key : M → Q) (ms : List M) : Prop := ∀ m ∈ ms, ∀ m' ∈ ms, key m = key m' → m = m'

lemma keyed_of_nodup {ms : List M} (h : (ms.map key).Nodup) : Keyed key ms :=
  fun _ hm _ hm' heq => List.inj_on_of_nodup_map h hm hm' heq

/-- Everything is registered under one home. -/
def enter [DecidableEq Q] (key : M → Q) (t : T) (ms : List M) (register : StorageMap Q (T × M)) :
    StorageMap Q (T × M) := ms.foldl (fun r m => r.insert (key m) (t, m)) register

section Boxes

variable {boxes : K → List B} {bs : List B} {ms : List M} {k k' x : K} {m : M}

lemma Parses.holds_iff [DecidableEq K] (h : Parses parse bs ms) :
    Holds parse (Function.update boxes k bs) k m ↔ m ∈ ms := by
  have hmem : some m ∈ bs.map parse ↔ m ∈ ms := by
    rw [h]
    simp
  simpa only [Holds, Function.update_self, List.mem_map] using hmem

lemma holds_update_of_ne [DecidableEq K] (h : x ≠ k) :
    Holds parse (Function.update boxes k bs) x m ↔ Holds parse boxes x m := by
  simp only [Holds, Function.update_of_ne h]

lemma not_holds_of_nil (h : boxes k = []) : ¬ Holds parse boxes k m := by
  rintro ⟨b, hb, -⟩
  rw [h] at hb
  cases hb

/-- What is in a box goes to another box. -/
def move [DecidableEq K] (boxes : K → List B) (k k' : K) : K → List B :=
  Function.update (Function.update boxes k []) k' (boxes k)

/-- Where a thing was before the move. -/
lemma holds_move [DecidableEq K] (hne : k ≠ k') :
    Holds parse (move boxes k k') x m ↔
      if x = k' then Holds parse boxes k m else x ≠ k ∧ Holds parse boxes x m := by
  split_ifs with hx
  · subst hx
    simp only [Holds, move, Function.update_self]
  · rw [move, holds_update_of_ne hx]
    by_cases hk : x = k
    · subst hk
      simp [Holds]
    · simp only [holds_update_of_ne hk, ne_eq, hk, not_false_eq_true, true_and]

end Boxes

section Register

variable [DecidableEq Q] {register : StorageMap Q (T × M)} {ms : List M} {t t' : T} {m : M} {q : Q}

lemma get_enter_of_mem (hkeyed : Keyed key ms) (hm : m ∈ ms) :
    (enter key t ms register).get (key m) = some (t, m) := by
  induction ms generalizing register with
  | nil => cases hm
  | cons a ms ih =>
      have hrest : Keyed key ms := fun m hm m' hm' =>
        hkeyed m (List.mem_cons_of_mem _ hm) m' (List.mem_cons_of_mem _ hm')
      by_cases hlater : m ∈ ms
      · exact ih hrest hlater
      · obtain rfl : m = a := (List.mem_cons.mp hm).resolve_right hlater
        have hnot : key m ∉ ms.map key := by
          rw [List.mem_map]
          rintro ⟨m', hm', heq⟩
          exact hlater (hkeyed m' (List.mem_cons_of_mem _ hm') m hm heq ▸ hm')
        rw [enter, List.foldl_cons,
          StorageMap.get_foldl_insert_of_notMem key (fun m => (t, m)) ms _ hnot,
          StorageMap.get_insert_self]

lemma get_enter_of_notMem (hq : q ∉ ms.map key) :
    (enter key t ms register).get q = register.get q :=
  StorageMap.get_foldl_insert_of_notMem key (fun m => (t, m)) ms register hq

/-- Afterwards the register shows what has just come in under its key, and elsewhere what it showed before. -/
lemma get_enter_iff (hkeyed : Keyed key ms) :
    (enter key t ms register).get q = some (t', m) ↔
      (t = t' ∧ m ∈ ms ∧ key m = q) ∨ (q ∉ ms.map key ∧ register.get q = some (t', m)) := by
  by_cases hq : q ∈ ms.map key
  · obtain ⟨a, ha, rfl⟩ := List.mem_map.mp hq
    rw [get_enter_of_mem hkeyed ha, Option.some.injEq, Prod.mk.injEq]
    constructor
    · rintro ⟨rfl, rfl⟩
      exact .inl ⟨rfl, ha, rfl⟩
    · rintro (⟨rfl, hm, heq⟩ | ⟨hnot, -⟩)
      · exact ⟨rfl, hkeyed a ha m hm heq.symm⟩
      · exact absurd hq hnot
  · rw [get_enter_of_notMem hq]
    constructor
    · exact fun h => .inr ⟨hq, h⟩
    · rintro (⟨-, hm, rfl⟩ | ⟨-, h⟩)
      · exact absurd (List.mem_map_of_mem hm) hq
      · exact h

end Register

section Changes

variable [DecidableEq K] [DecidableEq Q] {boxes : K → List B} {register : StorageMap Q (T × M)}
  {bs : List B} {ms : List M} {k k' : K}

omit [DecidableEq K] [DecidableEq Q] in
/-- Nothing is kept and nothing is registered. -/
lemma Filed.empty (h : ∀ k, boxes k = []) : Filed parse key home boxes ∅ := by
  refine ⟨fun k k' m m' hk => absurd hk (not_holds_of_nil (h k)), fun q t m => ?_⟩
  simp only [StorageMap.get_empty, reduceCtorEq, false_iff]
  rintro ⟨k, -, hk, -⟩
  exact not_holds_of_nil (h k) hk

omit [DecidableEq K] [DecidableEq Q] in
/-- A key is registered just if something with it is kept. -/
lemma Filed.registered_none (h : Filed parse key home boxes register) {q : Q} :
    register.get q = none ↔ ∀ k m, Holds parse boxes k m → key m ≠ q := by
  constructor
  · rintro hnone k m hm rfl
    rw [(h.registered (key m) (home k) m).mpr ⟨k, rfl, hm, rfl⟩] at hnone
    cases hnone
  · intro hall
    rw [Option.eq_none_iff_forall_not_mem]
    rintro ⟨t, m⟩ hm
    obtain ⟨k, -, hk, heq⟩ := (h.registered q t m).mp hm
    exact hall k m hk heq

/-- **An empty box is filled** with things whose keys are not registered. -/
lemma Filed.fill (h : Filed parse key home boxes register) (hempty : boxes k = [])
    (hparse : Parses parse bs ms) (hkeyed : Keyed key ms)
    (hnew : ∀ m ∈ ms, register.get (key m) = none) :
    Filed parse key home (Function.update boxes k bs) (enter key (home k) ms register) := by
  have hother : ∀ x m, Holds parse (Function.update boxes k bs) x m ↔
      (x = k ∧ m ∈ ms) ∨ Holds parse boxes x m := by
    intro x m
    by_cases hx : x = k
    · subst hx
      rw [hparse.holds_iff]
      simp only [true_and, not_holds_of_nil hempty, or_false]
    · rw [holds_update_of_ne hx]
      simp only [hx, false_and, false_or]
  -- what is there already has another key than what is new
  have happart : ∀ m ∈ ms, ∀ x m', Holds parse boxes x m' → key m' ≠ key m :=
    fun m hm => h.registered_none.mp (hnew m hm)
  refine ⟨fun x y m m' hx hy heq => ?_, fun q t m => ?_⟩
  · rcases (hother x m).mp hx with ⟨hxk, hm⟩ | hold
    · rcases (hother y m').mp hy with ⟨hyk, -⟩ | hold'
      · exact hxk.trans hyk.symm
      · exact absurd heq.symm (happart m hm y m' hold')
    · rcases (hother y m').mp hy with ⟨-, hm'⟩ | hold'
      · exact absurd heq (happart m' hm' x m hold)
      · exact h.once x y m m' hold hold' heq
  · rw [get_enter_iff hkeyed, h.registered]
    constructor
    · rintro (⟨rfl, hm, rfl⟩ | ⟨-, x, hx, hm, heq⟩)
      · exact ⟨k, rfl, (hother k m).mpr (.inl ⟨rfl, hm⟩), rfl⟩
      · exact ⟨x, hx, (hother x m).mpr (.inr hm), heq⟩
    · rintro ⟨x, hx, hm, rfl⟩
      rcases (hother x m).mp hm with ⟨hxk, hnew⟩ | hold
      · exact .inl ⟨hxk ▸ hx, hnew, rfl⟩
      · refine .inr ⟨?_, x, hx, hold, rfl⟩
        rw [List.mem_map]
        rintro ⟨a, ha, heq⟩
        exact happart a ha x m hold heq.symm

omit [DecidableEq Q] in
/-- Nothing is in two boxes after a move. -/
lemma Filed.once_move (h : Filed parse key home boxes register) (hne : k ≠ k') {x y : K} {m m' : M}
    (hx : Holds parse (move boxes k k') x m)
    (hy : Holds parse (move boxes k k') y m') (heq : key m = key m') : x = y := by
  rw [holds_move hne] at hx hy
  split_ifs at hx hy with hxk hyk hyk
  · exact hxk.trans hyk.symm
  · exact absurd (h.once k y m m' hx hy.2 heq).symm hy.1
  · exact absurd (h.once x k m m' hx.2 hy heq) hx.1
  · exact h.once x y m m' hx.2 hy.2 heq

omit [DecidableEq Q] in
/-- The contents of a box go to an empty one with the same home, and everything stays filed. -/
lemma Filed.hand (h : Filed parse key home boxes register) (hempty : boxes k' = []) (hne : k ≠ k')
    (hhome : home k' = home k) : Filed parse key home (move boxes k k') register := by
  refine ⟨fun x y m m' => h.once_move hne, fun q t m => ?_⟩
  rw [h.registered]
  constructor
  · rintro ⟨x, rfl, hm, rfl⟩
    by_cases hx : x = k
    · subst hx
      exact ⟨k', hhome, (holds_move hne).mpr (by rwa [if_pos rfl]), rfl⟩
    · have hx' : x ≠ k' := by
        rintro rfl
        exact not_holds_of_nil hempty hm
      exact ⟨x, rfl, (holds_move hne).mpr (by rw [if_neg hx']; exact ⟨hx, hm⟩), rfl⟩
  · rintro ⟨x, rfl, hm, rfl⟩
    rw [holds_move hne] at hm
    split_ifs at hm with hx
    · exact ⟨k, hx ▸ hhome.symm, hm, rfl⟩
    · exact ⟨x, rfl, hm.2, rfl⟩

/-- **The contents of a box go to an empty one with another home**, and the register is rewritten. -/
lemma Filed.relocate (h : Filed parse key home boxes register) (hempty : boxes k' = [])
    (hne : k ≠ k') (hparse : Parses parse (boxes k) ms) :
    Filed parse key home (move boxes k k') (enter key (home k') ms register) := by
  have hheld : ∀ m, Holds parse boxes k m ↔ m ∈ ms := by
    intro m
    have hbox : Holds parse (Function.update boxes k (boxes k)) k m ↔ m ∈ ms := hparse.holds_iff
    rwa [Function.update_eq_self] at hbox
  have hkeyed : Keyed key ms := by
    intro m hm m' hm' heq
    have hreg := (h.registered (key m) (home k) m).mpr ⟨k, rfl, (hheld m).mpr hm, rfl⟩
    rw [heq, (h.registered (key m') (home k) m').mpr ⟨k, rfl, (hheld m').mpr hm', rfl⟩] at hreg
    exact (Prod.ext_iff.mp (Option.some.inj hreg)).2.symm
  refine ⟨fun x y m m' => h.once_move hne, fun q t m => ?_⟩
  rw [get_enter_iff hkeyed, h.registered]
  constructor
  · rintro (⟨rfl, hm, rfl⟩ | ⟨hq, x, rfl, hm, rfl⟩)
    · exact ⟨k', rfl, (holds_move hne).mpr (by rw [if_pos rfl]; exact (hheld m).mpr hm), rfl⟩
    · have hx : x ≠ k := by
        rintro rfl
        exact hq (List.mem_map_of_mem ((hheld m).mp hm))
      have hx' : x ≠ k' := by
        rintro rfl
        exact not_holds_of_nil hempty hm
      exact ⟨x, rfl, (holds_move hne).mpr (by rw [if_neg hx']; exact ⟨hx, hm⟩), rfl⟩
  · rintro ⟨x, rfl, hm, rfl⟩
    rw [holds_move hne] at hm
    split_ifs at hm with hx
    · exact .inl ⟨hx ▸ rfl, (hheld m).mp hm, rfl⟩
    · refine .inr ⟨?_, x, rfl, hm.2, rfl⟩
      rw [List.mem_map]
      rintro ⟨a, ha, heq⟩
      exact hm.1 (h.once k x a m ((hheld a).mpr ha) hm.2 heq).symm

end Changes

end Filing
