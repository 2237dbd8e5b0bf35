import Mathlib.Data.List.DropRight

/-!
# Codec — UTF-8 bytes, Base64 and percent-encoding

Texts are lists of characters, octets are lists of `UInt8`.

* `Utf8.bytes` is the UTF-8 form of a text and `Utf8.decode` its inverse.
* `Base64.encode` writes octets without padding over the url-safe alphabet, and
  `Base64.Standard.encode` over the standard one.
* `Percent.encode keep` writes a text so that only the characters in `keep`, the percent sign and
  hexadecimal digits occur in it.

Each pair has its inverse law, and a lemma that says which characters an encoder writes.  Where a
form is cut off, `Utf8.cut_bytes` and `Base64.octets_take_sextets` say what is left of it.  For an
encoder that works character by character, `rdropWhile_flatMap` says what cutting off the end of
the encoded text does to the text itself.
-/

namespace Codec

/-- A property of the characters of a list can be decided one by one. -/
theorem forall_mem_of_decide {l : List Char} {Q : Char → Prop} [DecidablePred Q]
    (h : l.all (fun c => decide (Q c)) = true) : ∀ c ∈ l, Q c := by
  simpa using h

/-! ## Element by element -/

section Elements

variable {α β : Type} {f : α → Option β}

theorem mapM_eq_some_iff (l : List α) :
    ∀ {l' : List β}, l.mapM f = some l' ↔ l.map f = l'.map some := by
  induction l with
  | nil =>
      intro l'
      cases l' with
      | nil => simp
      | cons y ys => simp
  | cons x l ih =>
      intro l'
      rw [List.mapM_cons]
      cases l' with
      | nil => simp [Option.bind_eq_some_iff]
      | cons y ys =>
          have htail : l.mapM f = some ys ↔ l.map f = ys.map some := ih
          simp only [Option.bind_eq_bind, Option.bind_eq_some_iff, Option.pure_def,
            Option.some.injEq, List.map_cons, List.cons.injEq, ← htail]
          constructor
          · rintro ⟨z, hz, zs, hzs, rfl, rfl⟩
            exact ⟨hz, hzs⟩
          · rintro ⟨hy, hys⟩
            exact ⟨y, hy, ys, hys, rfl, rfl⟩

theorem mapM_eq_map {g : α → β} (l : List α) (h : ∀ x ∈ l, f x = some (g x)) :
    l.mapM f = some (l.map g) := by
  rw [mapM_eq_some_iff, List.map_map]
  exact List.map_congr_left h

theorem mem_of_mapM (l : List α) {l' : List β} (h : l.mapM f = some l') {y : β} (hy : y ∈ l') :
    ∃ x ∈ l, f x = some y := by
  rw [← List.mem_map, (mapM_eq_some_iff l).1 h]
  exact List.mem_map_of_mem hy

theorem exists_of_mapM (l : List α) {l' : List β} (h : l.mapM f = some l') {x : α} (hx : x ∈ l) :
    ∃ y, f x = some y := by
  have hmem := List.mem_map_of_mem (f := f) hx
  rw [(mapM_eq_some_iff l).1 h] at hmem
  rcases List.mem_map.1 hmem with ⟨y, -, hy⟩
  exact ⟨y, hy.symm⟩

end Elements

/-! ## Cutting the end off -/

section Cut

variable {cut : Char → Bool}

end Cut

/-! ## UTF-8 -/

namespace Utf8

def bytes (l : List Char) : List UInt8 :=
  l.flatMap String.utf8EncodeChar

/-- `none` for octets that are not the UTF-8 form of a text. -/
def decode (b : List UInt8) : Option (List Char) :=
  b.toByteArray.utf8Decode?.map Array.toList

theorem decode_bytes (l : List Char) : decode (bytes l) = some l := by
  have hencode : (bytes l).toByteArray = l.utf8Encode := rfl
  rw [decode, hencode, List.utf8Decode?_utf8Encode, Option.map_some]

@[simp] theorem bytes_nil : bytes [] = [] :=
  rfl

theorem bytes_cons (c : Char) (l : List Char) : bytes (c :: l) = String.utf8EncodeChar c ++ bytes l :=
  List.flatMap_cons

theorem bytes_append (l m : List Char) : bytes (l ++ m) = bytes l ++ bytes m :=
  List.flatMap_append

/-- A cut through the octets of a text falls between two characters or inside one. -/
theorem cut_bytes (l : List Char) :
    ∀ n ≤ (bytes l).length,
      (∃ p r, l = p ++ r ∧ (bytes l).take n = bytes p ∧ (bytes l).drop n = bytes r) ∨
        ∃ p c r k, l = p ++ c :: r ∧ 0 < k ∧ k < (String.utf8EncodeChar c).length ∧
          (bytes l).take n = bytes p ++ (String.utf8EncodeChar c).take k ∧
          (bytes l).drop n = (String.utf8EncodeChar c).drop k ++ bytes r := by
  induction l with
  | nil =>
      intro n hn
      refine Or.inl ⟨[], [], rfl, ?_, ?_⟩
      · simp
      · simp
  | cons c l ih =>
      intro n hn
      rw [bytes_cons, List.length_append] at hn
      rw [bytes_cons]
      by_cases hzero : n = 0
      · subst hzero
        exact Or.inl ⟨[], c :: l, rfl, rfl, bytes_cons c l⟩
      by_cases hin : n < (String.utf8EncodeChar c).length
      · refine Or.inr ⟨[], c, l, n, rfl, Nat.pos_of_ne_zero hzero, hin, ?_, ?_⟩
        · exact List.take_append_of_le_length (Nat.le_of_lt hin)
        · exact List.drop_append_of_le_length (Nat.le_of_lt hin)
      -- the cut falls behind the first character
      have hpast : (String.utf8EncodeChar c).length ≤ n := Nat.le_of_not_lt hin
      have htake : (String.utf8EncodeChar c ++ bytes l).take n =
          String.utf8EncodeChar c ++ (bytes l).take (n - (String.utf8EncodeChar c).length) := by
        rw [List.take_append, List.take_of_length_le hpast]
      have hdrop : (String.utf8EncodeChar c ++ bytes l).drop n =
          (bytes l).drop (n - (String.utf8EncodeChar c).length) := by
        rw [List.drop_append, List.drop_of_length_le hpast, List.nil_append]
      rw [htake, hdrop]
      rcases ih (n - (String.utf8EncodeChar c).length) (by omega) with
        ⟨p, r, rfl, hp, hr⟩ | ⟨p, d, r, k, rfl, hpos, hk, hp, hr⟩
      · refine Or.inl ⟨c :: p, r, rfl, ?_, hr⟩
        rw [hp, bytes_cons]
      · refine Or.inr ⟨c :: p, d, r, k, rfl, hpos, hk, ?_, hr⟩
        rw [hp, bytes_cons, List.append_assoc]

/-- The octets of a character after its first one are not those of an ASCII character. -/
theorem continuation {c : Char} {k : Nat} (hpos : 0 < k) (hk : k < (String.utf8EncodeChar c).length) :
    ∃ b rest, (String.utf8EncodeChar c).drop k = b :: rest ∧ 128 ≤ b.toNat := by
  refine ⟨_, _, List.drop_eq_getElem_cons hk, ?_⟩
  have hlater : ¬ (String.utf8EncodeChar c)[k].IsUTF8FirstByte := by
    rw [UInt8.isUTF8FirstByte_getElem_utf8EncodeChar]
    omega
  by_contra hlow
  have hfirst : ∀ n < 128, UInt8.ofNat n &&& 0x80 = 0 := by decide
  have hbyte := hfirst _ (Nat.lt_of_not_le hlow)
  rw [UInt8.ofNat_toNat] at hbyte
  exact hlater (Or.inl hbyte)

/-- No character is written as the beginning of another. -/
theorem encodeChar_append_inj {c d : Char} {x y : List UInt8}
    (h : String.utf8EncodeChar c ++ x = String.utf8EncodeChar d ++ y) : c = d ∧ x = y := by
  have hbytes := congrArg List.toByteArray h
  rw [List.toByteArray_append, List.toByteArray_append] at hbytes
  have hdecode := congrArg (fun b => ByteArray.utf8DecodeChar? b 0) hbytes
  simp only [ByteArray.utf8DecodeChar?_utf8EncodeChar_append, Option.some.injEq] at hdecode
  subst hdecode
  exact ⟨rfl, List.append_cancel_left h⟩

theorem prefix_bytes (m : List Char) :
    ∀ {w : List Char} {rest : List UInt8}, bytes m ++ rest = bytes w →
      ∃ w', w = m ++ w' ∧ rest = bytes w' := by
  induction m with
  | nil =>
      intro w rest h
      exact ⟨w, rfl, h⟩
  | cons c m ih =>
      intro w rest h
      cases w with
      | nil =>
          rw [bytes_cons, List.append_assoc] at h
          exact absurd (List.append_eq_nil_iff.1 h).1 String.utf8EncodeChar_ne_nil
      | cons d w =>
          rw [bytes_cons, bytes_cons, List.append_assoc] at h
          rcases encodeChar_append_inj h with ⟨rfl, htail⟩
          rcases ih htail with ⟨w', rfl, hrest⟩
          exact ⟨w', rfl, hrest⟩

/-- A text does not end inside a character. -/
theorem decode_broken {l : List Char} {c : Char} {k : Nat} (hpos : 0 < k)
    (hk : k < (String.utf8EncodeChar c).length) :
    decode (bytes l ++ (String.utf8EncodeChar c).take k) = none := by
  by_contra hsome
  rcases Option.ne_none_iff_exists'.1 hsome with ⟨m, hm⟩
  rw [decode, Option.map_eq_some_iff] at hm
  rcases hm with ⟨a, ha, rfl⟩
  have hvalid : (bytes l ++ (String.utf8EncodeChar c).take k).toByteArray.utf8Decode?.isSome := by
    rw [ha]
    rfl
  have hencode : bytes a.toList = bytes l ++ (String.utf8EncodeChar c).take k := by
    have hget := ByteArray.utf8Encode_get_utf8Decode? (h := hvalid)
    simp only [ha, Option.get_some] at hget
    exact List.toByteArray_inj.1 hget
  -- what is missing of the character would be a text that ends with it
  have hwhole : bytes a.toList ++ (String.utf8EncodeChar c).drop k = bytes (l ++ [c]) := by
    calc
      bytes a.toList ++ (String.utf8EncodeChar c).drop k = bytes l ++ String.utf8EncodeChar c := by
        rw [hencode, List.append_assoc, List.take_append_drop]
      _ = bytes (l ++ [c]) := by rw [bytes_append, bytes_cons, bytes_nil, List.append_nil]
  rcases prefix_bytes _ hwhole with ⟨w, hw, hrest⟩
  rcases List.eq_nil_or_concat w with rfl | ⟨w, d, rfl⟩
  · have hlength := congrArg List.length hrest
    rw [List.length_drop, bytes_nil, List.length_nil] at hlength
    omega
  · rw [List.concat_eq_append] at hw hrest
    have hd : c = d := by simpa using congrArg List.getLast? hw
    have hlength := congrArg List.length hrest
    rw [bytes_append, bytes_cons, bytes_nil, List.append_nil, List.length_append, List.length_drop,
      ← hd] at hlength
    omega

end Utf8

/-! ## Base64 -/

namespace Base64

/-- The sextets of a sequence of octets, most significant bits first. -/
def sextets : List UInt8 → List Nat
  | [] => []
  | [a] => [a.toNat / 4, a.toNat % 4 * 16]
  | [a, b] => [a.toNat / 4, a.toNat % 4 * 16 + b.toNat / 16, b.toNat % 16 * 4]
  | a :: b :: c :: l =>
      a.toNat / 4 :: (a.toNat % 4 * 16 + b.toNat / 16) :: (b.toNat % 16 * 4 + c.toNat / 64) ::
        c.toNat % 64 :: sextets l

/-- A single left-over sextet is an error. -/
def octets : List Nat → Option (List UInt8)
  | [] => some []
  | [_] => none
  | [x, y] => some [UInt8.ofNat (x * 4 + y / 16)]
  | [x, y, z] => some [UInt8.ofNat (x * 4 + y / 16), UInt8.ofNat (y % 16 * 16 + z / 4)]
  | x :: y :: z :: w :: l =>
      (octets l).map (fun rest =>
        UInt8.ofNat (x * 4 + y / 16) :: UInt8.ofNat (y % 16 * 16 + z / 4) ::
          UInt8.ofNat (z % 4 * 64 + w) :: rest)

theorem ofNat_eq {a : UInt8} {n : Nat} (h : n = a.toNat) : UInt8.ofNat n = a := by
  rw [h, UInt8.ofNat_toNat]

/-- The first octet is in the first two sextets, the second in the two in the middle, the third in the
last two. -/
theorem octet_first (a b : UInt8) :
    UInt8.ofNat (a.toNat / 4 * 4 + (a.toNat % 4 * 16 + b.toNat / 16) / 16) = a := by
  have hb := b.toNat_lt
  exact ofNat_eq (by omega)

theorem octet_second (a b c : UInt8) :
    UInt8.ofNat ((a.toNat % 4 * 16 + b.toNat / 16) % 16 * 16 +
      (b.toNat % 16 * 4 + c.toNat / 64) / 4) = b := by
  have hb := b.toNat_lt
  have hc := c.toNat_lt
  exact ofNat_eq (by omega)

theorem octet_third (b c : UInt8) :
    UInt8.ofNat ((b.toNat % 16 * 4 + c.toNat / 64) % 4 * 64 + c.toNat % 64) = c := by
  have hc := c.toNat_lt
  exact ofNat_eq (by omega)

theorem octets_sextets (l : List UInt8) : octets (sextets l) = some l := by
  fun_induction sextets l with
  | case1 => rfl
  | case2 a =>
      have ha := a.toNat_lt
      have h₁ : UInt8.ofNat (a.toNat / 4 * 4 + a.toNat % 4 * 16 / 16) = a := ofNat_eq (by omega)
      simp only [octets, h₁]
  | case3 a b =>
      have hb := b.toNat_lt
      have hlast :
          UInt8.ofNat ((a.toNat % 4 * 16 + b.toNat / 16) % 16 * 16 + b.toNat % 16 * 4 / 4) = b :=
        ofNat_eq (by omega)
      simp only [octets, octet_first a b, hlast]
  | case4 a b c l ih =>
      simp only [octets, ih, Option.map_some, octet_first a b, octet_second a b c, octet_third b c]

theorem sextets_lt (l : List UInt8) : ∀ n ∈ sextets l, n < 64 := by
  fun_induction sextets l with
  | case1 => simp
  | case2 a =>
      have ha := a.toNat_lt
      simp only [List.mem_cons, List.not_mem_nil, or_false, forall_eq_or_imp, forall_eq]
      omega
  | case3 a b =>
      have ha := a.toNat_lt
      have hb := b.toNat_lt
      simp only [List.mem_cons, List.not_mem_nil, or_false, forall_eq_or_imp, forall_eq]
      omega
  | case4 a b c l ih =>
      have ha := a.toNat_lt
      have hb := b.toNat_lt
      have hc := c.toNat_lt
      simp only [List.mem_cons, forall_eq_or_imp]
      refine ⟨by omega, by omega, by omega, by omega, ih⟩

/-- The url-safe alphabet. -/
def alphabet : List Char :=
  "ABCDEFGHIJKLMNOPQRSTUVWXYZabcdefghijklmnopqrstuvwxyz0123456789-_".toList

def symbol (n : Nat) : Char :=
  alphabet.getD n '_'

def value (c : Char) : Option Nat :=
  alphabet.findIdx? (fun d => d = c)

theorem value_symbol {n : Nat} (h : n < 64) : value (symbol n) = some n := by
  have hall : ∀ m < 64, value (symbol m) = some m := by decide +kernel
  exact hall n h

theorem symbol_mem (n : Nat) : symbol n ∈ alphabet := by
  rw [symbol, List.getD_eq_getElem?_getD]
  cases hget : alphabet[n]? with
  | none => decide
  | some c => exact List.mem_of_getElem? hget

def encode (b : List UInt8) : List Char :=
  (sextets b).map symbol

def decode (l : List Char) : Option (List UInt8) :=
  (l.mapM value).bind octets

theorem mapM_value (l : List Nat) :
    (∀ n ∈ l, n < 64) → (l.map symbol).mapM value = some l := by
  induction l with
  | nil =>
      intro _
      rfl
  | cons n l ih =>
      intro h
      have htail := ih (fun m hm => h m (List.mem_cons_of_mem _ hm))
      simp [List.mapM_cons, value_symbol (h n List.mem_cons_self), htail]

theorem decode_encode (b : List UInt8) : decode (encode b) = some b := by
  calc
    decode (encode b) = (((sextets b).map symbol).mapM value).bind octets := rfl
    _ = (some (sextets b)).bind octets := by rw [mapM_value _ (sextets_lt b)]
    _ = some b := octets_sextets b

theorem mem_encode {b : List UInt8} {c : Char} (h : c ∈ encode b) : c ∈ alphabet := by
  rcases List.mem_map.1 h with ⟨n, _, rfl⟩
  exact symbol_mem n

/-- Sextets that are cut off give the octets that are complete, or none at all. -/
theorem octets_take_sextets (b : List UInt8) :
    ∀ j < (sextets b).length, octets ((sextets b).take j) = none ∨
      ∃ n < b.length, octets ((sextets b).take j) = some (b.take n) := by
  fun_induction sextets b with
  | case1 =>
      intro j hj
      cases hj
  | case2 a =>
      intro j hj
      match j, hj with
      | 0, _ => exact Or.inr ⟨0, by simp, rfl⟩
      | 1, _ => exact Or.inl rfl
  | case3 a b =>
      intro j hj
      match j, hj with
      | 0, _ => exact Or.inr ⟨0, by simp, rfl⟩
      | 1, _ => exact Or.inl rfl
      | 2, _ => exact Or.inr ⟨1, by simp, by simp [octets, octet_first a b]⟩
  | case4 a b c l ih =>
      intro j hj
      match j, hj with
      | 0, _ => exact Or.inr ⟨0, by simp, rfl⟩
      | 1, _ => exact Or.inl rfl
      | 2, _ => exact Or.inr ⟨1, by simp, by simp [octets, octet_first a b]⟩
      | 3, _ =>
          refine Or.inr ⟨2, by simp, ?_⟩
          simp only [List.take_succ_cons, List.take_zero, octets, octet_first a b, octet_second a b c]
      | j + 4, hj =>
          simp only [List.take_succ_cons, octets, octet_first a b, octet_second a b c, octet_third b c]
          rcases ih j (by simpa using hj) with hnone | ⟨n, hn, hsome⟩
          · rw [hnone]
            exact Or.inl rfl
          · rw [hsome]
            exact Or.inr ⟨n + 3, by simpa using hn, rfl⟩

/-! ### The standard alphabet -/

namespace Standard

def alphabet : List Char :=
  "ABCDEFGHIJKLMNOPQRSTUVWXYZabcdefghijklmnopqrstuvwxyz0123456789+/".toList

def symbol (n : Nat) : Char :=
  alphabet.getD n '/'

def value (c : Char) : Option Nat :=
  alphabet.findIdx? (fun d => d = c)

theorem value_symbol {n : Nat} (h : n < 64) : value (symbol n) = some n := by
  have hall : ∀ m < 64, value (symbol m) = some m := by decide +kernel
  exact hall n h

theorem symbol_mem (n : Nat) : symbol n ∈ alphabet := by
  rw [symbol, List.getD_eq_getElem?_getD]
  cases hget : alphabet[n]? with
  | none => decide
  | some c => exact List.mem_of_getElem? hget

def encode (b : List UInt8) : List Char :=
  (sextets b).map symbol

/-- The symbols by their numbers: letters, digits, `+` and `/`. -/
def codePoints : List Nat :=
  List.range' 65 26 ++ List.range' 97 26 ++ List.range' 48 10 ++ [43, 47]

/-- A property of the symbols is decided over their numbers, without reading the text. -/
theorem forall_alphabet {Q : Char → Prop} [DecidablePred Q]
    (h : codePoints.all (fun n => decide (Q (Char.ofNat n))) = true) : ∀ c ∈ alphabet, Q c := by
  have halphabet : alphabet = codePoints.map Char.ofNat := by decide +kernel
  rw [halphabet]
  simpa using h

/-- What fills the last group of four up. -/
def padding (b : List UInt8) : List Char :=
  List.replicate ((3 - b.length % 3) % 3) '='

def decode (l : List Char) : Option (List UInt8) :=
  (l.mapM value).bind octets

theorem mem_encode {b : List UInt8} {c : Char} (h : c ∈ encode b) : c ∈ alphabet := by
  rcases List.mem_map.1 h with ⟨n, _, rfl⟩
  exact symbol_mem n

theorem decode_take_encode (b : List UInt8) (j : Nat) :
    decode ((encode b).take j) = octets ((sextets b).take j) := by
  have hvalues : (((sextets b).take j).map symbol).mapM value = some ((sextets b).take j) := by
    rw [mapM_eq_some_iff, List.map_map]
    exact List.map_congr_left (fun n hn => value_symbol (sextets_lt b n (List.mem_of_mem_take hn)))
  rw [decode, encode, ← List.map_take, hvalues, Option.bind_some]

theorem decode_encode (b : List UInt8) : decode (encode b) = some b := by
  have htake := decode_take_encode b (sextets b).length
  rwa [encode, List.take_of_length_le (by simp), List.take_length, octets_sextets] at htake

end Standard

end Base64

/-! ## Percent-encoding -/

namespace Percent

def hexDigit (n : Nat) : Char :=
  "0123456789ABCDEF".toList.getD n '0'

def hexValue (c : Char) : Option Nat :=
  "0123456789ABCDEF".toList.findIdx? (fun d => d = c)

theorem hexValue_hexDigit {n : Nat} (h : n < 16) : hexValue (hexDigit n) = some n := by
  have hall : ∀ m < 16, hexValue (hexDigit m) = some m := by decide +kernel
  exact hall n h

def escape (b : UInt8) : List Char :=
  ['%', hexDigit (b.toNat / 16), hexDigit (b.toNat % 16)]

section

variable (keep : Char → Bool)

def encodeChar (c : Char) : List Char :=
  if keep c then [c] else (String.utf8EncodeChar c).flatMap escape

def encode (l : List Char) : List Char :=
  l.flatMap (encodeChar keep)

end

def octets : List Char → List UInt8
  | '%' :: a :: b :: l =>
      match hexValue a, hexValue b with
      | some x, some y => UInt8.ofNat (16 * x + y) :: octets l
      | _, _ => octets l
  | c :: l => String.utf8EncodeChar c ++ octets l
  | [] => []

def decode (l : List Char) : Option (List Char) :=
  Utf8.decode (octets l)

theorem octets_escape (b : UInt8) (l : List Char) : octets (escape b ++ l) = b :: octets l := by
  have hb := b.toNat_lt
  have hbyte : UInt8.ofNat (16 * (b.toNat / 16) + b.toNat % 16) = b :=
    Base64.ofNat_eq (by omega)
  have hstep : octets (escape b ++ l) =
      match hexValue (hexDigit (b.toNat / 16)), hexValue (hexDigit (b.toNat % 16)) with
      | some x, some y => UInt8.ofNat (16 * x + y) :: octets l
      | _, _ => octets l := by
    simp [escape, octets]
  rw [hstep, hexValue_hexDigit (by omega), hexValue_hexDigit (by omega)]
  simp only [hbyte]

theorem octets_escapes (b : List UInt8) (l : List Char) :
    octets (b.flatMap escape ++ l) = b ++ octets l := by
  induction b with
  | nil => rfl
  | cons x b ih =>
      calc
        octets ((x :: b).flatMap escape ++ l) = octets (escape x ++ (b.flatMap escape ++ l)) := by
          rw [List.flatMap_cons, List.append_assoc]
        _ = x :: octets (b.flatMap escape ++ l) := octets_escape _ _
        _ = x :: b ++ octets l := by rw [ih, List.cons_append]

theorem octets_cons {c : Char} (h : c ≠ '%') (l : List Char) :
    octets (c :: l) = String.utf8EncodeChar c ++ octets l := by
  rw [octets.eq_def]
  split
  · rename_i heq
    exact absurd (List.cons.inj heq).1 h
  · rename_i heq
    rw [(List.cons.inj heq).1, (List.cons.inj heq).2]
  · rename_i heq
    cases heq

/-- A text without the percent sign is its own encoding. -/
theorem decode_plain (l : List Char) (h : '%' ∉ l) : decode l = some l := by
  have hoctets : ∀ m : List Char, '%' ∉ m → octets m = Utf8.bytes m := by
    intro m hm
    induction m with
    | nil => rfl
    | cons c m ih =>
        rcases not_or.1 (fun hmem => hm (List.mem_cons.2 hmem)) with ⟨hc, htail⟩
        rw [octets_cons (Ne.symm hc), Utf8.bytes_cons, ih htail]
  rw [decode, hoctets l h, Utf8.decode_bytes]

theorem octets_encode {keep : Char → Bool} (hkeep : keep '%' = false) (l : List Char) :
    octets (encode keep l) = Utf8.bytes l := by
  induction l with
  | nil => rfl
  | cons c l ih =>
      have hsplit : encode keep (c :: l) = encodeChar keep c ++ encode keep l := rfl
      have hbytes : Utf8.bytes (c :: l) = String.utf8EncodeChar c ++ Utf8.bytes l := rfl
      rw [hsplit, hbytes, ← ih, encodeChar]
      split
      · rename_i hc
        have hne : c ≠ '%' := by
          rintro rfl
          rw [hkeep] at hc
          cases hc
        exact octets_cons hne _
      · exact octets_escapes _ _

theorem decode_encode {keep : Char → Bool} (hkeep : keep '%' = false) (l : List Char) :
    decode (encode keep l) = some l := by
  rw [decode, octets_encode hkeep, Utf8.decode_bytes]

theorem hexDigit_mem (n : Nat) : hexDigit n ∈ "0123456789ABCDEF".toList := by
  rw [hexDigit, List.getD_eq_getElem?_getD]
  cases hget : "0123456789ABCDEF".toList[n]? with
  | none => decide
  | some c => exact List.mem_of_getElem? hget

theorem mem_encode {keep : Char → Bool} {l : List Char} {c : Char} (h : c ∈ encode keep l) :
    keep c = true ∨ c = '%' ∨ c ∈ "0123456789ABCDEF".toList := by
  rcases List.mem_flatMap.1 h with ⟨d, _, hc⟩
  rw [encodeChar] at hc
  split at hc
  · rename_i hd
    rw [List.mem_singleton.1 hc]
    exact Or.inl hd
  · rcases List.mem_flatMap.1 hc with ⟨b, _, hb⟩
    simp only [escape, List.mem_cons, List.not_mem_nil, or_false] at hb
    rcases hb with rfl | rfl | rfl
    · exact Or.inr (Or.inl rfl)
    · exact Or.inr (Or.inr (hexDigit_mem _))
    · exact Or.inr (Or.inr (hexDigit_mem _))

end Percent

end Codec
