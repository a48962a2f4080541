import Mathlib.Data.List.Basic
import Mathlib.Data.Nat.Bitwise
import Mathlib.Tactic.Common

/-!
# Runes of a byte string

A Go string is a sequence of bytes. Ranging over it decodes UTF-8, and a byte at which no encoding
starts counts as one replacement character.

* `bytes`, `encode`: the bytes of a string and of a list of characters;
* `decodeRune`, `runes`: the runes of any byte string;
* **`runes_encode_append`**: the runes of an encoding are what was encoded;
* **`runes_append_ascii`**: an ASCII byte is a rune wherever it stands.
-/

set_option autoImplicit false

namespace Utf8

/-- The UTF-8 encoding of a list of characters. -/
def encode (cs : List Char) : List UInt8 := cs.flatMap String.utf8EncodeChar

/-- The bytes of a string. -/
def bytes (s : String) : List UInt8 := s.toUTF8.data.toList

/-- `utf8.RuneError`. -/
def runeError : Char := '\uFFFD'

/-- `utf8.DecodeRuneInString` of a string that is not empty: the first rune and its width. -/
def decodeRune (s : List UInt8) : Char × ℕ :=
  match s.toByteArray.utf8DecodeChar? 0 with
  | some c => (c, c.utf8Size)
  | none => (runeError, 1)

/-- The runes behind the next `k` bytes. -/
def runesFrom : ℕ → List UInt8 → List Char
  | _, [] => []
  | k + 1, _ :: s => runesFrom k s
  | 0, b :: s => (decodeRune (b :: s)).1 :: runesFrom ((decodeRune (b :: s)).2 - 1) s

/-- The runes that `for _, c := range s` visits. -/
def runes (s : List UInt8) : List Char := runesFrom 0 s

/-- The character of an ASCII byte. -/
def ascii (b : UInt8) : Char := Char.ofNat b.toNat

variable {c : Char} {b : UInt8} {s t : List UInt8}

/-! ## Encodings -/

@[simp] theorem encode_nil : encode [] = [] := rfl

@[simp] theorem encode_cons {cs : List Char} :
    encode (c :: cs) = String.utf8EncodeChar c ++ encode cs := by
  simp [encode]

@[simp] theorem encode_append {cs ds : List Char} : encode (cs ++ ds) = encode cs ++ encode ds := by
  simp [encode]

theorem bytes_eq_encode (x : String) : bytes x = encode x.toList := by
  rw [bytes, String.toUTF8_eq_toByteArray, ← String.utf8Encode_toList, List.utf8Encode,
    List.toList_data_toByteArray]
  rfl

@[simp] theorem bytes_append {x y : String} : bytes (x ++ y) = bytes x ++ bytes y := by
  simp [bytes_eq_encode]

theorem runesFrom_cons : runesFrom 0 (b :: s) =
    (decodeRune (b :: s)).1 :: runesFrom ((decodeRune (b :: s)).2 - 1) s := rfl

theorem runesFrom_append {k : ℕ} (h : s.length = k) : runesFrom k (s ++ t) = runes t := by
  subst h
  induction s with
  | nil => rfl
  | cons b s ih => exact ih

theorem decodeRune_encode_append : decodeRune (String.utf8EncodeChar c ++ s) = (c, c.utf8Size) := by
  rw [decodeRune, List.toByteArray_append, ByteArray.utf8DecodeChar?_utf8EncodeChar_append]

theorem runes_utf8EncodeChar_append :
    runes (String.utf8EncodeChar c ++ s) = c :: runes s := by
  have hlen : (String.utf8EncodeChar c).length = c.utf8Size := String.length_utf8EncodeChar c
  obtain ⟨b, bs, hb⟩ := List.exists_cons_of_length_pos (hlen ▸ c.utf8Size_pos)
  have hdec : decodeRune (b :: (bs ++ s)) = (c, c.utf8Size) := by
    rw [← List.cons_append, ← hb]
    exact decodeRune_encode_append
  have hbs : bs.length = c.utf8Size - 1 := by
    rw [← hlen, hb, List.length_cons, Nat.add_sub_cancel]
  rw [hb, List.cons_append, runes, runesFrom, hdec, runesFrom_append hbs]

/-- **Decoding an encoding.** -/
theorem runes_encode_append {cs : List Char} : runes (encode cs ++ s) = cs ++ runes s := by
  induction cs with
  | nil => rfl
  | cons c cs ih =>
      rw [encode_cons, List.append_assoc, runes_utf8EncodeChar_append, ih, List.cons_append]

@[simp] theorem runes_encode {cs : List Char} : runes (encode cs) = cs := by
  have h : runes (encode cs ++ []) = cs ++ runes [] := runes_encode_append
  simpa [runes, runesFrom] using h

@[simp] theorem runes_bytes {x : String} : runes (bytes x) = x.toList := by
  rw [bytes_eq_encode, runes_encode]

/-! ## ASCII bytes -/

theorem toNat_val_ascii (h : b < 128) : (ascii b).val.toNat = b.toNat := by
  have hb : b.toNat < 128 := UInt8.lt_iff_toNat_lt.mp h
  have hvalid : b.toNat.isValidChar := Or.inl (by omega)
  rw [ascii, Char.ofNat, dif_pos hvalid]
  rfl

theorem utf8EncodeChar_ascii (h : b < 128) : String.utf8EncodeChar (ascii b) = [b] := by
  have hb : b.toNat < 128 := UInt8.lt_iff_toNat_lt.mp h
  rw [String.utf8EncodeChar, toNat_val_ascii h]
  have hle : b.toNat ≤ 127 := by omega
  simp [hle]

theorem isUTF8FirstByte_ascii (h : b < 128) : b.IsUTF8FirstByte := by
  have hb : b.toNat < 2 ^ 7 := UInt8.lt_iff_toNat_lt.mp h
  have hbit : b.toNat &&& 2 ^ 7 = 0 := by
    rw [Nat.and_two_pow, Nat.testBit_lt_two_pow hb, Bool.toNat_false, Nat.zero_mul]
  left
  rw [← UInt8.toNat_inj, UInt8.toNat_and]
  exact hbit

theorem decodeRune_ascii (h : b < 128) : decodeRune (b :: s) = (ascii b, 1) := by
  have hsize : (ascii b).utf8Size = 1 := by
    rw [← String.length_utf8EncodeChar, utf8EncodeChar_ascii h, List.length_singleton]
  have hdec := decodeRune_encode_append (c := ascii b) (s := s)
  rwa [utf8EncodeChar_ascii h, hsize] at hdec

/-- What a valid first rune says about the string. -/
theorem exists_of_decode {s : List UInt8} (h : s.toByteArray.utf8DecodeChar? 0 = some c) :
    ∃ t, s = String.utf8EncodeChar c ++ t := by
  obtain ⟨l, hl⟩ := ByteArray.exists_of_utf8DecodeChar?_eq_some h
  refine ⟨l.data.toList, List.toByteArray_inj.mp ?_⟩
  rw [hl, List.toByteArray_append]
  congr 1
  apply ByteArray.ext
  simp

/-- No encoding reaches from before an ASCII byte over it. -/
theorem length_le_of_append {a : List UInt8} (h : b < 128) (ha : a ≠ [])
    (heq : a ++ b :: s = String.utf8EncodeChar c ++ t) :
    (String.utf8EncodeChar c).length ≤ a.length := by
  by_contra hlt
  rw [Nat.not_le] at hlt
  have hget : (String.utf8EncodeChar c).get ⟨a.length, hlt⟩ = b := by
    have hleft : (a ++ b :: s)[a.length]? = some b := by simp
    rw [heq, List.getElem?_append_left hlt, List.getElem?_eq_getElem hlt] at hleft
    exact Option.some.inj hleft
  have hfirst : ((String.utf8EncodeChar c).get ⟨a.length, hlt⟩).IsUTF8FirstByte := by
    rw [hget]
    exact isUTF8FirstByte_ascii h
  rw [List.get_eq_getElem, UInt8.isUTF8FirstByte_getElem_utf8EncodeChar] at hfirst
  exact ha (List.length_eq_zero_iff.mp hfirst)

/-- A rune before an ASCII byte ends before it. -/
theorem decodeRune_append_ascii {a : List UInt8} (h : b < 128) (ha : a ≠ []) :
    decodeRune (a ++ b :: s) = decodeRune a ∧ (decodeRune a).2 ≤ a.length := by
  cases hdec : (a ++ b :: s).toByteArray.utf8DecodeChar? 0 with
  | some c =>
      obtain ⟨t, ht⟩ := exists_of_decode hdec
      have hle := length_le_of_append h ha ht
      obtain ⟨u, rfl⟩ : String.utf8EncodeChar c <+: a :=
        List.prefix_of_prefix_length_le ⟨t, ht.symm⟩ ⟨b :: s, rfl⟩ hle
      rw [List.append_assoc, decodeRune_encode_append, decodeRune_encode_append]
      exact ⟨rfl, by simp⟩
  | none =>
      have hnone : a.toByteArray.utf8DecodeChar? 0 = none := by
        cases ha' : a.toByteArray.utf8DecodeChar? 0 with
        | none => rfl
        | some c =>
            rw [List.toByteArray_append, ByteArray.utf8DecodeChar?_append_eq_some ha'] at hdec
            cases hdec
      rw [decodeRune, decodeRune, hdec, hnone]
      exact ⟨rfl, List.length_pos_iff.mpr ha⟩

theorem runesFrom_append_ascii {a : List UInt8} {k : ℕ} (h : b < 128) (hk : k ≤ a.length) :
    runesFrom k (a ++ b :: s) = runesFrom k a ++ ascii b :: runes s := by
  induction a generalizing k with
  | nil =>
      obtain rfl : k = 0 := by simpa using hk
      rw [List.nil_append, runesFrom_cons, decodeRune_ascii h]
      rfl
  | cons x a ih =>
      cases k with
      | succ k => exact ih (by simpa using hk)
      | zero =>
          obtain ⟨hdec, hle⟩ := decodeRune_append_ascii (s := s) h (List.cons_ne_nil x a)
          rw [List.cons_append] at hdec
          rw [List.length_cons] at hle
          rw [List.cons_append, runesFrom_cons, runesFrom_cons, hdec, ih (by omega),
            List.cons_append]

/-- **An ASCII byte is a rune of its own**, whatever stands before it. -/
theorem runes_append_ascii {a : List UInt8} (h : b < 128) :
    runes (a ++ b :: s) = runes a ++ ascii b :: runes s :=
  runesFrom_append_ascii h (Nat.zero_le _)

/-- ASCII text is read rune by rune. -/
theorem runes_ascii_append {w : List UInt8} (hw : ∀ b ∈ w, b < 128) :
    runes (w ++ s) = w.map ascii ++ runes s := by
  induction w with
  | nil => rfl
  | cons b w ih =>
      have hstep : runes (b :: (w ++ s)) = ascii b :: runes (w ++ s) :=
        runes_append_ascii (a := []) (hw b List.mem_cons_self)
      rw [List.cons_append, hstep, ih fun d hd => hw d (List.mem_cons_of_mem _ hd)]
      rfl

/-- An ASCII byte occurs in no longer encoding. -/
theorem eq_ascii_of_mem_utf8EncodeChar (h : b < 128) (hb : b ∈ String.utf8EncodeChar c) :
    c = ascii b := by
  obtain ⟨i, hi, hget⟩ := List.mem_iff_getElem.mp hb
  have hfirst := isUTF8FirstByte_ascii h
  rw [← hget, UInt8.isUTF8FirstByte_getElem_utf8EncodeChar] at hfirst
  subst hfirst
  obtain ⟨d, bs, hd⟩ := List.exists_cons_of_length_pos hi
  obtain rfl : d = b := by simpa [hd] using hget
  have hdec : decodeRune (d :: (bs ++ [])) = (c, c.utf8Size) := by
    rw [← List.cons_append, ← hd]
    exact decodeRune_encode_append
  rw [decodeRune_ascii h] at hdec
  exact (Prod.ext_iff.mp hdec).1.symm

end Utf8
