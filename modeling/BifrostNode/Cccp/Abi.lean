import BifrostNode.Cccp.Message
import BifrostNode.Lib.Packing

/-!
# The ABI

What the messages need of the ABI library: tokens that are decoded have the kinds that were asked for, and
`decode` inverts `encode` on tokens that have their kinds (`Codec.LawfulOn`).  The decoder takes more than
what the encoder writes: it does not look at the bytes that fill up a word, and it follows an offset
wherever it points.

**The codec.**  `abi` is the codec of the ABI, in terms of heads and tails.  It is lawful
(`abi_lawfulOn`).
-/

namespace BifrostNode.Cccp

open Packing (word number Reader leaf blob packed readAll pack Part ReadsAll limit)

/-! ## Kinds of tokens -/

mutual

/-- A token has a kind.  The range of a number is not part of it: a word is read as it is. -/
def ParamKind.Has : ParamKind → Token → Prop
  | .address, .address _ => True
  | .bytes, .bytes _ => True
  | .uint _, .uint _ => True
  | .fixedBytes n, .fixedBytes b => n ≤ 32 ∧ b.length = n
  | .fixedArray kind n, .fixedArray ts => n ≠ 0 ∧ ts.length = n ∧ ∀ t ∈ ts, kind.Has t
  | .tuple kinds, .tuple ts => ParamKind.HasAll kinds ts
  | _, _ => False

def ParamKind.HasAll : List ParamKind → List Token → Prop
  | [], [] => True
  | kind :: kinds, t :: ts => kind.Has t ∧ ParamKind.HasAll kinds ts
  | _, _ => False

end

/-- **What is relied on**, for byte strings of a certain kind: those that are hashed. -/
structure Codec.LawfulOn (codec : Codec) (B : Set Bytes) : Prop where
  decode_typed : ∀ {kinds : List ParamKind} {bytes : Bytes} {ts : List Token},
    codec.decode kinds bytes = some ts → ParamKind.HasAll kinds ts
  decode_encode : ∀ {kinds : List ParamKind} {ts : List Token}, ParamKind.HasAll kinds ts →
    codec.encode ts ∈ B → codec.decode kinds (codec.encode ts) = some ts
  keccak_injOn : Set.InjOn codec.keccak256 B

/-! ## The codec -/

mutual

def ParamKind.isDynamic : ParamKind → Bool
  | .bytes => true
  | .fixedArray kind _ => kind.isDynamic
  | .tuple kinds => ParamKind.anyDynamic kinds
  | .address | .uint _ | .fixedBytes _ => false

def ParamKind.anyDynamic : List ParamKind → Bool
  | [] => false
  | kind :: kinds => kind.isDynamic || ParamKind.anyDynamic kinds

end

mutual

/-- The reader of a token. -/
def ParamKind.read : ParamKind → Reader Token
  | .address => leaf fun w => some (.address (Fin.ofNat (2 ^ 160) (number w)))
  | .uint _ => leaf fun w => some (.uint (Fin.ofNat (2 ^ 256) (number w)))
  | .fixedBytes n => leaf fun w => if n ≤ 32 then some (.fixedBytes (w.take n)) else none
  | .bytes => fun data pos => (blob data pos).map fun out => (.bytes out.1, out.2)
  | .fixedArray kind n =>
      if n = 0 then fun _ _ => none
      else packed kind.isDynamic .fixedArray (List.replicate n kind.read)
  | .tuple kinds => packed (ParamKind.anyDynamic kinds) .tuple (ParamKind.readers kinds)

def ParamKind.readers : List ParamKind → List (Reader Token)
  | [] => []
  | kind :: kinds => kind.read :: ParamKind.readers kinds

end

mutual

def Token.isDynamic : Token → Bool
  | .bytes _ => true
  | .fixedArray ts | .tuple ts => Token.anyDynamic ts
  | .address _ | .uint _ | .fixedBytes _ => false

def Token.anyDynamic : List Token → Bool
  | [] => false
  | t :: ts => t.isDynamic || Token.anyDynamic ts

end

mutual

/-- The bytes of a token, without the word that may lead to them. -/
def Token.body : Token → Bytes
  | .address a => word a.val
  | .uint n => word n.val
  | .fixedBytes b => b ++ List.replicate (32 - b.length) 0
  | .bytes b => word b.length ++ Packing.pad b
  | .fixedArray ts | .tuple ts => pack (Token.parts ts)

def Token.parts : List Token → List Part
  | [] => []
  | t :: ts => ⟨t.isDynamic, t.body⟩ :: Token.parts ts

end

/-- **The codec of the ABI**, with a hash. -/
def abi (keccak256 : Bytes → H256) : Codec where
  decode kinds bytes := (readAll (ParamKind.readers kinds) bytes 0).map Prod.fst
  encode ts := pack (Token.parts ts)
  keccak256 := keccak256

/-! ## What is read back -/

lemma Token.any_parts : ∀ ts : List Token, (Token.parts ts).any Part.dynamic = Token.anyDynamic ts
  | [] => rfl
  | t :: ts => by rw [Token.parts, List.any_cons, Token.any_parts ts, Token.anyDynamic]

/-- The tokens of an array, which all have one kind. -/
lemma readsAll_replicate {r : Reader Token} :
    ∀ {ts : List Token}, (∀ t ∈ ts, r.Reads ⟨t.isDynamic, t.body⟩ t) →
      ReadsAll (List.replicate ts.length r) (Token.parts ts) ts
  | [], _ => .nil
  | t :: ts, h => by
      rw [List.length_cons, List.replicate_succ, Token.parts]
      exact .cons (h t (List.mem_cons_self ..))
        (readsAll_replicate fun t' ht' => h t' (List.mem_cons_of_mem t ht'))

lemma Token.anyDynamic_eq {b : Bool} : ∀ {ts : List Token}, ts ≠ [] → (∀ t ∈ ts, t.isDynamic = b) →
    Token.anyDynamic ts = b
  | [], hne, _ => absurd rfl hne
  | [t], _, h => by
      rw [Token.anyDynamic, Token.anyDynamic, Bool.or_false]
      exact h t (List.mem_cons_self ..)
  | t :: t' :: ts, _, h => by
      rw [Token.anyDynamic, Token.anyDynamic_eq (List.cons_ne_nil t' ts)
        fun x hx => h x (List.mem_cons_of_mem t hx), h t (List.mem_cons_self ..), Bool.or_self]

lemma number_word {n : ℕ} (h : n < 2 ^ 256) : number (word n) = n := by
  refine Packing.number_digits ?_
  have hsame : (256 : ℕ) ^ 32 = 2 ^ 256 := by norm_num
  rwa [hsame]

mutual

/-- **Tokens are read back**: what is written for a token of a kind, the reader of the kind turns into it. -/
theorem ParamKind.read_reads : ∀ (kind : ParamKind) (t : Token), kind.Has t →
    t.isDynamic = kind.isDynamic ∧ kind.read.Reads ⟨t.isDynamic, t.body⟩ t
  | .address, .address a, _ => by
      refine ⟨rfl, Packing.leaf_reads (Packing.length_word _) ?_⟩
      rw [Token.body, number_word (a.isLt.trans (by norm_num)), Fin.ofNat_val_eq_self]
  | .bytes, .bytes b, _ => ⟨rfl, (Packing.blob_reads b).map Token.bytes⟩
  | .uint _, .uint n, _ => by
      refine ⟨rfl, Packing.leaf_reads (Packing.length_word _) ?_⟩
      rw [Token.body, number_word n.isLt, Fin.ofNat_val_eq_self]
  | .fixedBytes n, .fixedBytes b, h => by
      obtain ⟨hn, rfl⟩ := h
      refine ⟨rfl, Packing.leaf_reads ?_ ?_⟩
      · rw [Token.body, List.length_append, List.length_replicate]
        omega
      · rw [if_pos hn, Token.body, List.take_left]
  | .fixedArray kind n, .fixedArray ts, h => by
      obtain ⟨hn, rfl, hts⟩ := h
      have hne : ts ≠ [] := List.ne_nil_of_length_pos (Nat.pos_of_ne_zero hn)
      have hdynamic : Token.anyDynamic ts = kind.isDynamic :=
        Token.anyDynamic_eq hne fun t ht => (ParamKind.read_reads kind t (hts t ht)).1
      have hall := readsAll_replicate fun t ht => (ParamKind.read_reads kind t (hts t ht)).2
      have hpacked := hall.reads_packed Token.fixedArray
      rw [Token.any_parts, hdynamic] at hpacked
      rw [ParamKind.read, if_neg hn, Token.isDynamic, hdynamic, Token.body]
      exact ⟨rfl, hpacked⟩
  | .tuple kinds, .tuple ts, h => by
      obtain ⟨hdynamic, hreads⟩ := ParamKind.readers_reads kinds ts h
      have hpacked := hreads.reads_packed Token.tuple
      rw [Token.any_parts, hdynamic] at hpacked
      rw [ParamKind.read, Token.isDynamic, hdynamic, Token.body]
      exact ⟨rfl, hpacked⟩

theorem ParamKind.readers_reads : ∀ (kinds : List ParamKind) (ts : List Token),
    ParamKind.HasAll kinds ts →
      Token.anyDynamic ts = ParamKind.anyDynamic kinds ∧
        ReadsAll (ParamKind.readers kinds) (Token.parts ts) ts
  | [], [], _ => ⟨rfl, .nil⟩
  | kind :: kinds, t :: ts, h => by
      obtain ⟨hhead, htail⟩ := h
      obtain ⟨hd, hr⟩ := ParamKind.read_reads kind t hhead
      obtain ⟨hds, hrs⟩ := ParamKind.readers_reads kinds ts htail
      exact ⟨by rw [Token.anyDynamic, ParamKind.anyDynamic, hd, hds], .cons hr hrs⟩

end

/-! ## What is read at all -/

mutual

/-- **What is read has its kind**, whatever the bytes are. -/
theorem ParamKind.read_has : ∀ (kind : ParamKind) {data : Bytes} {pos : ℕ} {out : Token × ℕ},
    kind.read data pos = some out → kind.Has out.1
  | .address, data, pos, out, h => by
      obtain ⟨w, -, hw⟩ := Packing.leaf_eq_some h
      rw [← Option.some.inj hw]
      trivial
  | .bytes, data, pos, out, h => by
      obtain ⟨b, -, rfl⟩ := Option.map_eq_some_iff.mp h
      trivial
  | .uint _, data, pos, out, h => by
      obtain ⟨w, -, hw⟩ := Packing.leaf_eq_some h
      rw [← Option.some.inj hw]
      trivial
  | .fixedBytes n, data, pos, out, h => by
      obtain ⟨w, hlength, hw⟩ := Packing.leaf_eq_some h
      split_ifs at hw with hn
      rw [← Option.some.inj hw]
      exact ⟨hn, by rw [List.length_take, hlength, min_eq_left hn]⟩
  | .fixedArray kind n, data, pos, out, h => by
      rw [ParamKind.read] at h
      split_ifs at h with hn
      obtain ⟨data', pos', ts, hts, hout⟩ := Packing.packed_eq_some h
      obtain ⟨hlength, hall⟩ := Packing.readAll_replicate (fun _ _ _ hr => ParamKind.read_has kind hr) n hts
      rw [hout]
      exact ⟨hn, hlength, hall⟩
  | .tuple kinds, data, pos, out, h => by
      rw [ParamKind.read] at h
      obtain ⟨data', pos', ts, hts, hout⟩ := Packing.packed_eq_some h
      rw [hout]
      exact ParamKind.readers_has kinds hts

theorem ParamKind.readers_has : ∀ (kinds : List ParamKind) {data : Bytes} {pos : ℕ}
    {out : List Token × ℕ}, readAll (ParamKind.readers kinds) data pos = some out →
      ParamKind.HasAll kinds out.1
  | [], data, pos, out, h => by
      rw [← Option.some.inj h]
      trivial
  | kind :: kinds, data, pos, out, h => by
      rw [ParamKind.readers, readAll] at h
      obtain ⟨one, hone, h⟩ := Option.bind_eq_some_iff.mp h
      obtain ⟨more, hmore, rfl⟩ := Option.map_eq_some_iff.mp h
      exact ⟨ParamKind.read_has kind hone, ParamKind.readers_has kinds hmore⟩

end

/-- **The codec of the ABI is lawful** where the hash has no collisions, for byte strings whose length
fits into a word. -/
theorem abi_lawfulOn {keccak256 : Bytes → H256} {B : Set Bytes} (hB : ∀ b ∈ B, b.length < limit)
    (hinj : Set.InjOn keccak256 B) : (abi keccak256).LawfulOn B where
  decode_typed h := by
    obtain ⟨out, hout, rfl⟩ := Option.map_eq_some_iff.mp h
    exact ParamKind.readers_has _ hout
  decode_encode {kinds ts} hkinds hmem := by
    have hlimit : (pack (Token.parts ts)).length < limit := hB _ hmem
    obtain ⟨-, hreads⟩ := ParamKind.readers_reads kinds ts hkinds
    have hsize := Packing.length_pack (Token.parts ts)
    have hheads : (pack (Token.parts ts)).drop 0 =
        Packing.heads (Packing.headSize (Token.parts ts)) (Token.parts ts) ++
          Packing.tails (Token.parts ts) := List.drop_zero
    have htails : (pack (Token.parts ts)).drop (Packing.headSize (Token.parts ts)) =
        Packing.tails (Token.parts ts) ++ [] := by
      rw [pack, List.drop_left' (Packing.length_heads _ _), List.append_nil]
    have hread := hreads.readAll_eq hheads htails (by omega) fun p hp =>
      (Packing.length_body_le hp).trans_lt hlimit
    show (readAll (ParamKind.readers kinds) (pack (Token.parts ts)) 0).map Prod.fst = some ts
    rw [hread, Option.map_some]
  keccak_injOn := hinj

end BifrostNode.Cccp
