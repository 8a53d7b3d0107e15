import Mathlib.Data.List.Basic
import Mathlib.Tactic.Ring

/-!
# Heads and tails

A sequence of parts is packed into bytes as its heads, followed by its tails.  A part of a fixed size is
its own head.  The head of any other part is a word that tells where its tail begins.

**Numbers** are written in the big endian form, in words of 32 bytes.

**Readers** get a region of bytes and a position in it.  `Reader.Reads` says what a reader makes of a part:
it takes a fixed part from where it stands, and follows the word to any other.  Readers of all parts of a
sequence read back the sequence (`ReadsAll.readAll_eq`), and a sequence that is packed is a part again
(`ReadsAll.reads_packed`).
-/

namespace Packing

/-! ## Numbers -/

/-- The number that bytes are the big endian form of. -/
def number (b : List UInt8) : ℕ := b.foldl (fun n x => n * 256 + x.toNat) 0

/-- The last digits of a number. -/
def digits : ℕ → ℕ → List UInt8
  | 0, _ => []
  | k + 1, n => digits k (n / 256) ++ [.ofNat n]

@[simp] lemma length_digits : ∀ k n : ℕ, (digits k n).length = k
  | 0, _ => rfl
  | k + 1, n => by rw [digits, List.length_append, length_digits k, List.length_singleton]

lemma number_digits : ∀ {k n : ℕ}, n < 256 ^ k → number (digits k n) = n
  | 0, n, h => by
      have hzero : n = 0 := by simpa using h
      rw [hzero]
      rfl
  | k + 1, n, h => by
      have hdiv : n / 256 < 256 ^ k := by
        rw [Nat.div_lt_iff_lt_mul (by decide), ← Nat.pow_succ]
        exact h
      have ih := number_digits hdiv
      rw [number] at ih
      rw [digits, number, List.foldl_append, ih]
      simp only [List.foldl_cons, List.foldl_nil, UInt8.toNat_ofNat']
      omega

/-- How large a number of a word may be. -/
def limit : ℕ := 256 ^ 32

def word (n : ℕ) : List UInt8 := digits 32 n

@[simp] lemma length_word (n : ℕ) : (word n).length = 32 := length_digits 32 n

/-- The word at a position. -/
def wordAt (data : List UInt8) (pos : ℕ) : Option ℕ :=
  if ((data.drop pos).take 32).length = 32 then some (number ((data.drop pos).take 32)) else none

lemma wordAt_eq {data rest : List UInt8} {pos n : ℕ} (hn : n < limit)
    (h : data.drop pos = word n ++ rest) : wordAt data pos = some n := by
  have htake : (data.drop pos).take 32 = word n := by
    rw [h, List.take_append_of_le_length (length_word n).ge]
    exact List.take_of_length_le (length_word n).le
  rw [wordAt, htake, if_pos (length_word n), word, number_digits hn]

/-! ## Parts -/

/-- A part, and whether it is kept apart from its head. -/
structure Part where
  dynamic : Bool
  body : List UInt8

/-- The size of the head. -/
def Part.headSize (p : Part) : ℕ := if p.dynamic then 32 else p.body.length

/-- The tail, if there is one. -/
def Part.tail (p : Part) : List UInt8 := if p.dynamic then p.body else []

def headSize (ps : List Part) : ℕ := (ps.map Part.headSize).sum

/-- The heads, if the first tail begins at `q`. -/
def heads : ℕ → List Part → List UInt8
  | _, [] => []
  | q, p :: ps => (if p.dynamic then word q else p.body) ++ heads (q + p.tail.length) ps

def tails (ps : List Part) : List UInt8 := ps.flatMap Part.tail

/-- **Packing.**  The heads come first, then the tails that the dynamic heads point to. -/
def pack (ps : List Part) : List UInt8 := heads (headSize ps) ps ++ tails ps

lemma headSize_cons (p : Part) (ps : List Part) : headSize (p :: ps) = p.headSize + headSize ps := rfl

lemma tails_cons (p : Part) (ps : List Part) : tails (p :: ps) = p.tail ++ tails ps := rfl

@[simp] lemma length_heads : ∀ (ps : List Part) (q : ℕ), (heads q ps).length = headSize ps
  | [], _ => rfl
  | p :: ps, q => by
      rw [heads, List.length_append, length_heads ps, headSize_cons, Part.headSize]
      split_ifs
      · rw [length_word]
      · rfl

lemma length_pack (ps : List Part) : (pack ps).length = headSize ps + (tails ps).length := by
  rw [pack, List.length_append, length_heads]

/-- A part is no longer than the whole. -/
lemma length_body_le {ps : List Part} {p : Part} (h : p ∈ ps) :
    p.body.length ≤ (pack ps).length := by
  rw [length_pack]
  induction ps with
  | nil => cases h
  | cons p' ps ih =>
      rw [headSize_cons, tails_cons, List.length_append]
      rcases List.mem_cons.mp h with rfl | hmem
      · have hone : p.body.length ≤ p.headSize + p.tail.length := by
          rw [Part.headSize, Part.tail]
          split_ifs
          · exact Nat.le_add_left _ _
          · exact Nat.le_add_right _ _
        omega
      · have hle := ih hmem
        omega

/-- Without dynamic parts there are no tails. -/
lemma tails_eq_nil {ps : List Part} (h : ps.any Part.dynamic = false) : tails ps = [] := by
  rw [tails, List.flatMap_eq_nil_iff]
  intro p hp
  have hfixed : ¬ p.dynamic = true := by
    rw [List.any_eq_false] at h
    exact h p hp
  rw [Part.tail, if_neg hfixed]

/-! ## Readers -/

/-- What is read at a position of a region, and the next position. -/
abbrev Reader (α : Type) := List UInt8 → ℕ → Option (α × ℕ)

variable {α β : Type}

/-- A reader makes `x` of a part. -/
def Reader.Reads (r : Reader α) (p : Part) (x : α) : Prop :=
  p.body.length < limit → ∀ data pos rest,
    if p.dynamic then
      ∀ q, wordAt data pos = some q → data.drop q = p.body ++ rest → r data pos = some (x, pos + 32)
    else data.drop pos = p.body ++ rest → r data pos = some (x, pos + p.body.length)

/-- The readers of a sequence. -/
inductive ReadsAll : List (Reader α) → List Part → List α → Prop
  | nil : ReadsAll [] [] []
  | cons {r : Reader α} {p : Part} {x : α} {rs : List (Reader α)} {ps : List Part} {xs : List α}
      (h : r.Reads p x) (hs : ReadsAll rs ps xs) : ReadsAll (r :: rs) (p :: ps) (x :: xs)

/-- One reader after the other. -/
def readAll : List (Reader α) → List UInt8 → ℕ → Option (List α × ℕ)
  | [], _, pos => some ([], pos)
  | r :: rs, data, pos =>
      (r data pos).bind fun out => (readAll rs data out.2).map fun outs => (out.1 :: outs.1, outs.2)

/-- **Reading back a sequence** whose heads are at `pos` and whose tails are at `q`. -/
lemma ReadsAll.readAll_eq {rs : List (Reader α)} {ps : List Part} {xs : List α}
    (h : ReadsAll rs ps xs) {data r₁ r₂ : List UInt8} :
    ∀ {pos q : ℕ}, data.drop pos = heads q ps ++ r₁ → data.drop q = tails ps ++ r₂ →
      q + (tails ps).length < limit → (∀ p ∈ ps, p.body.length < limit) →
        readAll rs data pos = some (xs, pos + headSize ps) := by
  induction h with
  | nil => exact fun _ _ _ _ => rfl
  | @cons r p x rs ps xs hread hs ih =>
      intro pos q hheads htails hlimit hsmall
      have hp := hsmall p (List.mem_cons_self ..)
      have hrest := fun p' hp' => hsmall p' (List.mem_cons_of_mem p hp')
      rw [heads, List.append_assoc] at hheads
      rw [tails_cons, List.append_assoc] at htails
      rw [tails_cons, List.length_append] at hlimit
      have hnext : ∀ n, p.headSize = n → ∀ b : List UInt8, b.length = n →
          data.drop pos = b ++ (heads (q + p.tail.length) ps ++ r₁) →
            data.drop (pos + n) = heads (q + p.tail.length) ps ++ r₁ := by
        rintro n - b rfl hdrop
        rw [← List.drop_drop, hdrop, List.drop_left]
      have hafter : data.drop (q + p.tail.length) = tails ps ++ r₂ := by
        rw [← List.drop_drop, htails, List.drop_left]
      have hone : r data pos = some (x, pos + p.headSize) := by
        cases hkind : p.dynamic with
        | true =>
            rw [hkind, if_pos rfl] at hheads
            rw [Part.tail, hkind, if_pos rfl] at htails
            have hword := wordAt_eq (by omega) hheads
            have hreads := hread hp data pos (tails ps ++ r₂)
            rw [hkind, if_pos rfl] at hreads
            rw [Part.headSize, hkind, if_pos rfl]
            exact hreads q hword htails
        | false =>
            rw [hkind, if_neg Bool.false_ne_true] at hheads
            have hreads := hread hp data pos (heads (q + p.tail.length) ps ++ r₁)
            rw [hkind, if_neg Bool.false_ne_true] at hreads
            rw [Part.headSize, hkind, if_neg Bool.false_ne_true]
            exact hreads hheads
      have hmore : data.drop (pos + p.headSize) = heads (q + p.tail.length) ps ++ r₁ := by
        refine hnext _ rfl _ ?_ hheads
        rw [Part.headSize]
        split_ifs
        · exact length_word q
        · rfl
      rw [readAll, hone, Option.bind_some, ih hmore hafter (by omega) hrest, Option.map_some,
        headSize_cons, Nat.add_assoc]

/-! ## The kinds of parts -/

/-- A part of one word. -/
def leaf (f : List UInt8 → Option α) : Reader α := fun data pos =>
  if ((data.drop pos).take 32).length = 32 then
    (f ((data.drop pos).take 32)).map fun x => (x, pos + 32)
  else none

lemma leaf_reads {f : List UInt8 → Option α} {b : List UInt8} {x : α} (hb : b.length = 32)
    (hf : f b = some x) : (leaf f).Reads ⟨false, b⟩ x := by
  intro _ data pos rest
  rw [if_neg Bool.false_ne_true]
  intro hdrop
  have htake : (data.drop pos).take 32 = b := by
    rw [hdrop, List.take_append_of_le_length hb.ge]
    exact List.take_of_length_le hb.le
  rw [leaf, htake, if_pos hb, hf, Option.map_some, hb]

/-- Bytes that are filled up to whole words. -/
def pad (b : List UInt8) : List UInt8 := b ++ List.replicate ((32 - b.length % 32) % 32) 0

/-- A part of any number of bytes, which begins with the number. -/
def blob : Reader (List UInt8) := fun data pos =>
  (wordAt data pos).bind fun q => (wordAt data q).bind fun n =>
    if ((data.drop (q + 32)).take n).length = n then some ((data.drop (q + 32)).take n, pos + 32)
    else none

lemma blob_reads (b : List UInt8) : blob.Reads ⟨true, word b.length ++ pad b⟩ b := by
  intro hlimit data pos rest
  rw [if_pos rfl]
  intro q hq hdrop
  simp only [List.length_append, length_word, pad] at hlimit
  rw [List.append_assoc] at hdrop
  have hlength : wordAt data q = some b.length := wordAt_eq (by omega) hdrop
  have htake : (data.drop (q + 32)).take b.length = b := by
    rw [← List.drop_drop, hdrop, List.drop_left' (length_word _), pad, List.append_assoc,
      List.take_left]
  rw [blob, hq, Option.bind_some, hlength, Option.bind_some, htake, if_pos rfl]

/-- A sequence that is packed into one part. -/
def packed (dynamic : Bool) (f : List α → β) (rs : List (Reader α)) : Reader β := fun data pos =>
  if dynamic then
    (wordAt data pos).bind fun q =>
      (readAll rs (data.drop q) 0).map fun out => (f out.1, pos + 32)
  else (readAll rs data pos).map fun out => (f out.1, out.2)

/-- **Sequences nest.**  A packed sequence is read back as one part of a larger one. -/
lemma ReadsAll.reads_packed {rs : List (Reader α)} {ps : List Part} {xs : List α}
    (h : ReadsAll rs ps xs) (f : List α → β) :
    (packed (ps.any Part.dynamic) f rs).Reads ⟨ps.any Part.dynamic, pack ps⟩ (f xs) := by
  intro hlimit data pos rest
  have hsmall : ∀ p ∈ ps, p.body.length < limit := fun p hp => (length_body_le hp).trans_lt hlimit
  have hsize := length_pack ps
  simp only at hlimit
  cases hkind : ps.any Part.dynamic with
  | true =>
      rw [if_pos rfl]
      intro q hq hdrop
      have hheads : (data.drop q).drop 0 = heads (headSize ps) ps ++ (tails ps ++ rest) := by
        rw [List.drop_zero, hdrop, pack, List.append_assoc]
      have htails : (data.drop q).drop (headSize ps) = tails ps ++ rest := by
        rw [hdrop, pack, List.append_assoc, List.drop_left' (length_heads ps _)]
      rw [packed, if_pos rfl, hq, Option.bind_some, h.readAll_eq hheads htails (by omega) hsmall,
        Option.map_some]
  | false =>
      rw [if_neg Bool.false_ne_true]
      intro hdrop
      have hnil := tails_eq_nil hkind
      have hheads : data.drop pos = heads (headSize ps) ps ++ rest := by
        rw [hdrop, pack, hnil, List.append_nil]
      have htails : data.drop (headSize ps) = tails ps ++ data.drop (headSize ps) := by
        rw [hnil, List.nil_append]
      rw [packed, if_neg Bool.false_ne_true, h.readAll_eq hheads htails (by omega) hsmall,
        Option.map_some, hsize, hnil, List.length_nil, Nat.add_zero]

/-- A reader whose values are wrapped. -/
lemma Reader.Reads.map {r : Reader α} {p : Part} {x : α} (h : r.Reads p x) (f : α → β) :
    Reads (fun data pos => (r data pos).map fun out => (f out.1, out.2)) p (f x) := by
  intro hlimit data pos rest
  have hread := h hlimit data pos rest
  split_ifs at hread ⊢
  · intro q hq hdrop
    simp only [hread q hq hdrop, Option.map_some]
  · intro hdrop
    simp only [hread hdrop, Option.map_some]

/-! ## What is read at all -/

lemma leaf_eq_some {f : List UInt8 → Option α} {data : List UInt8} {pos : ℕ} {out : α × ℕ}
    (h : leaf f data pos = some out) : ∃ w : List UInt8, w.length = 32 ∧ f w = some out.1 := by
  rw [leaf] at h
  split_ifs at h with hlength
  obtain ⟨x, hx, rfl⟩ := Option.map_eq_some_iff.mp h
  exact ⟨_, hlength, hx⟩

lemma packed_eq_some {dynamic : Bool} {f : List α → β} {rs : List (Reader α)}
    {data : List UInt8} {pos : ℕ} {out : β × ℕ} (h : packed dynamic f rs data pos = some out) :
    ∃ data pos xs, readAll rs data pos = some xs ∧ out.1 = f xs.1 := by
  rw [packed] at h
  split_ifs at h
  · obtain ⟨q, -, h⟩ := Option.bind_eq_some_iff.mp h
    obtain ⟨xs, hxs, rfl⟩ := Option.map_eq_some_iff.mp h
    exact ⟨_, _, xs, hxs, rfl⟩
  · obtain ⟨xs, hxs, rfl⟩ := Option.map_eq_some_iff.mp h
    exact ⟨_, _, xs, hxs, rfl⟩

/-- What every value of a reader has, all values of a row of it have. -/
lemma readAll_replicate {r : Reader α} {P : α → Prop}
    (hr : ∀ data pos out, r data pos = some out → P out.1) :
    ∀ (n : ℕ) {data : List UInt8} {pos : ℕ} {out : List α × ℕ},
      readAll (List.replicate n r) data pos = some out → out.1.length = n ∧ ∀ x ∈ out.1, P x
  | 0, data, pos, out, h => by
      obtain rfl := Option.some.inj h
      exact ⟨rfl, fun x hx => by cases hx⟩
  | n + 1, data, pos, out, h => by
      rw [List.replicate_succ, readAll] at h
      obtain ⟨one, hone, h⟩ := Option.bind_eq_some_iff.mp h
      obtain ⟨more, hmore, rfl⟩ := Option.map_eq_some_iff.mp h
      obtain ⟨hlength, hall⟩ := readAll_replicate hr n hmore
      refine ⟨by rw [List.length_cons, hlength], fun x hx => ?_⟩
      rcases List.mem_cons.mp hx with rfl | hx
      · exact hr _ _ _ hone
      · exact hall x hx

end Packing
