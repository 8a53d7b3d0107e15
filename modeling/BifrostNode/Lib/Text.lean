import Mathlib.Data.List.Basic
import Mathlib.Data.Nat.Digits.Defs
import Mathlib.Data.Set.Function

/-!
# Texts that read back

Bytes put together from numbers, hex digits and separators, and when the parts can be told from the
whole.

**Parts.**  A part ends at a separator that it does not contain (`append_cons_inj`), or has a width of
its own (`flatMap_injOn`), or is a hex string behind `0x` (`flatMap_hexString_injective`).

**Bytes.**  `ascii` loses nothing of a text below 128, which is all that these texts contain.
-/

namespace BifrostNode.Text

/-! ## Parts -/

variable {α β : Type*}

/-- A part ends at the first separator. -/
lemma append_cons_inj {a a' r r' : List α} {c : α} (ha : c ∉ a) (ha' : c ∉ a')
    (h : a ++ c :: r = a' ++ c :: r') : a = a' ∧ r = r' := by
  induction a generalizing a' with
  | nil =>
      cases a' with
      | nil => simpa using h
      | cons x a' =>
          simp only [List.nil_append, List.cons_append, List.cons.injEq] at h
          exact absurd (by simp [h.1]) ha'
  | cons x a ih =>
      cases a' with
      | nil =>
          simp only [List.nil_append, List.cons_append, List.cons.injEq] at h
          exact absurd (by simp [h.1]) ha
      | cons y a' =>
          simp only [List.cons_append, List.cons.injEq] at h
          simp only [List.mem_cons, not_or] at ha ha'
          rcases ih ha.2 ha'.2 h.2 with ⟨rfl, rfl⟩
          exact ⟨by rw [h.1], rfl⟩

/-- Parts of one width can be told apart in their concatenation. -/
lemma flatMap_injOn {f : α → List β} {width : ℕ} (hpos : 0 < width)
    (hwidth : ∀ a, (f a).length = width) {l l' : List α}
    (hf : ∀ a ∈ l, ∀ a' ∈ l', f a = f a' → a = a') (h : l.flatMap f = l'.flatMap f) : l = l' := by
  have hne : ∀ a, f a ≠ [] := by
    intro a ha
    have := hwidth a
    simp only [ha, List.length_nil] at this
    omega
  induction l generalizing l' with
  | nil =>
      cases l' with
      | nil => rfl
      | cons a' l' => simp [hne a'] at h
  | cons a l ih =>
      cases l' with
      | nil => simp [hne a] at h
      | cons a' l' =>
          simp only [List.flatMap_cons] at h
          rcases List.append_inj h ((hwidth a).trans (hwidth a').symm) with ⟨hhead, htail⟩
          rw [hf a (by simp) a' (by simp) hhead,
            ih (fun b hb b' hb' => hf b (by simp [hb]) b' (by simp [hb'])) htail]

/-! ## Bytes -/

def IsAscii (text : List Char) : Prop := ∀ c ∈ text, c.toNat < 128

def ascii (text : List Char) : List UInt8 := text.map fun c => .ofNat c.toNat

lemma toNat_ofNat_lt {c : Char} (h : c.toNat < 128) : (UInt8.ofNat c.toNat).toNat = c.toNat := by
  rw [UInt8.toNat_ofNat']
  omega

lemma ascii_inj {s t : List Char} (hs : IsAscii s) (ht : IsAscii t) (h : ascii s = ascii t) :
    s = t := by
  have hback : ∀ {s}, IsAscii s → (ascii s).map (fun b => Char.ofNat b.toNat) = s := by
    intro s hs
    rw [ascii, List.map_map]
    refine (List.map_congr_left fun c hc => ?_).trans (List.map_id s)
    simp only [Function.comp_apply, toNat_ofNat_lt (hs c hc), Char.ofNat_toNat, id_eq]
  rw [← hback hs, h, hback ht]

lemma toNat_lt_of_mem_ascii {s : List Char} (hs : IsAscii s) {b : UInt8} (hb : b ∈ ascii s) :
    b.toNat < 128 := by
  obtain ⟨c, hc, rfl⟩ := List.mem_map.mp hb
  rw [toNat_ofNat_lt (hs c hc)]
  exact hs c hc

lemma IsAscii.append {s t : List Char} (hs : IsAscii s) (ht : IsAscii t) : IsAscii (s ++ t) := by
  intro c hc
  rcases List.mem_append.mp hc with hc | hc
  · exact hs c hc
  · exact ht c hc

lemma IsAscii.cons {c : Char} {s : List Char} (hc : c.toNat < 128) (hs : IsAscii s) :
    IsAscii (c :: s) := List.forall_mem_cons.mpr ⟨hc, hs⟩

lemma IsAscii.flatMap {f : α → List Char} {l : List α} (hf : ∀ a ∈ l, IsAscii (f a)) :
    IsAscii (l.flatMap f) := by
  intro c hc
  obtain ⟨a, ha, hc⟩ := List.mem_flatMap.mp hc
  exact hf a ha c hc

/-! ## Digits -/

lemma digitChar_facts : ∀ n : Fin 16, (Nat.digitChar n).toNat < 128 ∧ Nat.digitChar n ≠ ':' ∧
    Nat.digitChar n ≠ 'x' := by decide

lemma digitChar_inj {m n : ℕ} (hm : m < 16) (hn : n < 16) (h : Nat.digitChar m = Nat.digitChar n) :
    m = n := by
  have hfin : ∀ i j : Fin 16, Nat.digitChar i = Nat.digitChar j → i = j := by decide
  exact congrArg Fin.val (hfin ⟨m, hm⟩ ⟨n, hn⟩ h)

/-- A number as it is displayed. -/
def decimal (n : ℕ) : List Char := Nat.toDigits 10 n

lemma decimal_digits (n : ℕ) : ∀ c ∈ decimal n, ∃ d : Fin 16, c = Nat.digitChar d := by
  induction n using Nat.strong_induction_on with
  | _ n ih =>
      rw [decimal, Nat.toDigits_eq_if (by omega)]
      split_ifs with hn
      · intro c hc
        exact ⟨⟨n, by omega⟩, by simpa using hc⟩
      · intro c hc
        rcases List.mem_append.mp hc with hc | hc
        · exact ih (n / 10) (by omega) c hc
        · exact ⟨⟨n % 10, by omega⟩, by simpa using hc⟩

/-- The last digit and the digits before it give the number. -/
lemma decimal_injective : Function.Injective decimal := by
  intro m
  induction m using Nat.strong_induction_on with
  | _ m ih =>
      intro n h
      have hpos : ∀ k, 0 < (Nat.toDigits 10 k).length := fun k => Nat.length_toDigits_pos
      simp only [decimal] at h ih
      rw [Nat.toDigits_eq_if (by omega) (n := m), Nat.toDigits_eq_if (by omega) (n := n)] at h
      split_ifs at h with hm hn hn
      · simp only [List.cons.injEq, and_true] at h
        exact digitChar_inj (by omega) (by omega) h
      · have := congrArg List.length h
        have := hpos (n / 10)
        simp only [List.length_append, List.length_cons, List.length_nil] at *
        omega
      · have := congrArg List.length h
        have := hpos (m / 10)
        simp only [List.length_append, List.length_cons, List.length_nil] at *
        omega
      · rcases List.append_inj' h rfl with ⟨hhigh, hlow⟩
        have hhigh := ih (m / 10) (by omega) hhigh
        simp only [List.cons.injEq, and_true] at hlow
        have hlow := digitChar_inj (by omega) (by omega) hlow
        omega

/-- A byte as two hex digits. -/
def hexByte (b : UInt8) : List Char := [Nat.digitChar (b.toNat / 16), Nat.digitChar (b.toNat % 16)]

/-- Bytes in hex. -/
def hex (b : List UInt8) : List Char := b.flatMap hexByte

lemma hexByte_injective : Function.Injective hexByte := by
  intro a b h
  have ha := a.toNat_lt
  have hb := b.toNat_lt
  simp only [hexByte, List.cons.injEq, and_true] at h
  have hhigh := digitChar_inj (by omega) (by omega) h.1
  have hlow := digitChar_inj (by omega) (by omega) h.2
  apply UInt8.toNat_inj.mp
  omega

lemma hex_injective : Function.Injective hex := by
  intro a b h
  have hwidth : ∀ x, (hexByte x).length = 2 := fun _ => rfl
  exact flatMap_injOn (by omega) hwidth (fun _ _ _ _ h => hexByte_injective h) h

lemma hex_length (b : List UInt8) : (hex b).length = 2 * b.length := by
  simp [hex, hexByte, List.length_flatMap, mul_comm]

lemma hex_digits (b : List UInt8) : ∀ c ∈ hex b, ∃ d : Fin 16, c = Nat.digitChar d := by
  intro c hc
  obtain ⟨x, -, hc⟩ := List.mem_flatMap.mp hc
  have hx := x.toNat_lt
  simp only [hexByte, List.mem_cons, List.not_mem_nil, or_false] at hc
  rcases hc with hc | hc
  · exact ⟨⟨x.toNat / 16, by omega⟩, hc⟩
  · exact ⟨⟨x.toNat % 16, by omega⟩, hc⟩

section Digits

variable {s : List Char}

lemma isAscii_of_digits (h : ∀ c ∈ s, ∃ d : Fin 16, c = Nat.digitChar d) : IsAscii s := by
  intro c hc
  obtain ⟨d, rfl⟩ := h c hc
  exact (digitChar_facts d).1

lemma colon_notMem_of_digits (h : ∀ c ∈ s, ∃ d : Fin 16, c = Nat.digitChar d) : ':' ∉ s := by
  intro hc
  obtain ⟨d, hd⟩ := h ':' hc
  exact (digitChar_facts d).2.1 hd.symm

lemma x_notMem_of_digits (h : ∀ c ∈ s, ∃ d : Fin 16, c = Nat.digitChar d) : 'x' ∉ s := by
  intro hc
  obtain ⟨d, hd⟩ := h 'x' hc
  exact (digitChar_facts d).2.2 hd.symm

end Digits

/-! ## Hex strings -/

/-- Bytes in hex, behind `0x`. -/
def hexString (b : List UInt8) : List Char := '0' :: 'x' :: hex b

/-- What stands between two `x` is the hex of one part and the `0` of the next. -/
lemma flatMap_hexString_injective : Function.Injective (List.flatMap hexString) := by
  have hx : ∀ b, 'x' ∉ hex b := fun b => x_notMem_of_digits (hex_digits b)
  have hx0 : ∀ b, 'x' ∉ hex b ++ ['0'] := by
    intro b
    simp [hx b]
  intro l
  induction l with
  | nil =>
      intro l' h
      cases l' with
      | nil => rfl
      | cons b' l' => simp [hexString] at h
  | cons b l ih =>
      intro l' h
      cases l' with
      | nil => simp [hexString] at h
      | cons b' l' =>
          simp only [List.flatMap_cons, hexString, List.cons_append, List.cons.injEq, true_and] at h
          -- one of the lists may end here, and then the other does
          cases l with
          | nil =>
              cases l' with
              | nil =>
                  have hhead : b = b' := hex_injective (by simpa using h)
                  rw [hhead]
              | cons c' l' =>
                  have hmem : 'x' ∈ hex b := by
                    simp only [List.flatMap_nil, List.append_nil] at h
                    simp [h, hexString]
                  exact absurd hmem (hx b)
          | cons c l =>
              cases l' with
              | nil =>
                  have hmem : 'x' ∈ hex b' := by
                    simp only [List.flatMap_nil, List.append_nil] at h
                    simp [← h, hexString]
                  exact absurd hmem (hx b')
              | cons c' l' =>
                  have hsplit : (hex b ++ ['0']) ++ 'x' :: (hex c ++ l.flatMap hexString) =
                      (hex b' ++ ['0']) ++ 'x' :: (hex c' ++ l'.flatMap hexString) := by
                    simpa [hexString] using h
                  rcases append_cons_inj (hx0 b) (hx0 b') hsplit with ⟨hhead, htail⟩
                  have hhead : b = b' := hex_injective (by simpa using hhead)
                  have htail : c :: l = c' :: l' := ih (by simp [hexString, htail])
                  rw [hhead, htail]

lemma isAscii_flatMap_hexString (l : List (List UInt8)) : IsAscii (l.flatMap hexString) :=
  .flatMap fun b _ => .cons (by decide) (.cons (by decide) (isAscii_of_digits (hex_digits b)))

lemma colon_notMem_flatMap_hexString (l : List (List UInt8)) : ':' ∉ l.flatMap hexString := by
  intro hc
  obtain ⟨b, -, hc⟩ := List.mem_flatMap.mp hc
  simp only [hexString, List.mem_cons, Char.reduceEq, false_or] at hc
  exact colon_notMem_of_digits (hex_digits b) hc

end BifrostNode.Text
