import Mathlib.Data.List.Basic

/-!
# Utf16 — strings as code units

A string of the platform is a list of 16-bit code units.  Two of them, a high and a low surrogate, make
one character; a surrogate outside of a pair is no character (`codePoints`).  Encoders put another
character in its place (`chars`), so just the strings without such surrogates are what is encoded of
their characters (`encode_chars_iff`).
-/

namespace Utf16

abbrev Units : Type :=
  List UInt16

def isHigh (u : UInt16) : Bool :=
  0xd800 ≤ u.toNat && u.toNat < 0xdc00

def isLow (u : UInt16) : Bool :=
  0xdc00 ≤ u.toNat && u.toNat < 0xe000

/-! ## Characters -/

def encodeChar (c : Char) : Units :=
  if c.toNat < 0x10000 then [UInt16.ofNat c.toNat]
  else
    [UInt16.ofNat (0xd800 + (c.toNat - 0x10000) / 0x400),
      UInt16.ofNat (0xdc00 + (c.toNat - 0x10000) % 0x400)]

def encode (l : List Char) : Units :=
  l.flatMap encodeChar

/-- The character that a high and a low surrogate make. -/
def pair (high low : UInt16) : Char :=
  Char.ofNat (0x10000 + 0x400 * (high.toNat - 0xd800) + (low.toNat - 0xdc00))

def single (u : UInt16) : Option Char :=
  if isHigh u || isLow u then none else some (Char.ofNat u.toNat)

/-- The characters of a string; `none` stands for a surrogate that is in no pair. -/
def codePoints : Units → List (Option Char)
  | [] => []
  | [u] => [single u]
  | u :: v :: s =>
      if isHigh u && isLow v then some (pair u v) :: codePoints s
      else single u :: codePoints (v :: s)

/-- The characters, with another one for each surrogate that is in no pair. -/
def chars (replacement : Char) (s : Units) : List Char :=
  (codePoints s).map (fun c => c.getD replacement)

/-- Each surrogate is in a pair. -/
def WellFormed (s : Units) : Prop :=
  none ∉ codePoints s

instance (s : Units) : Decidable (WellFormed s) :=
  inferInstanceAs (Decidable (none ∉ codePoints s))

/-! ## Single characters -/

theorem toNat_ofNat {n : Nat} (h : n < 0x10000) : (UInt16.ofNat n).toNat = n := by
  rw [UInt16.toNat_ofNat', Nat.mod_eq_of_lt h]

theorem toNat_charOfNat {n : Nat} (h : n.isValidChar) : (Char.ofNat n).toNat = n := by
  rw [Char.ofNat, dif_pos h]
  rfl

/-- Only a high surrogate looks at what follows. -/
theorem codePoints_cons {u : UInt16} (h : isHigh u = false) (s : Units) :
    codePoints (u :: s) = single u :: codePoints s := by
  cases s with
  | nil => rfl
  | cons v s => rw [codePoints, h, Bool.false_and, if_neg Bool.false_ne_true]

theorem codePoints_encodeChar_append (c : Char) (s : Units) :
    codePoints (encodeChar c ++ s) = some c :: codePoints s := by
  have hc : c.toNat < 0xd800 ∨ 0xdfff < c.toNat ∧ c.toNat < 0x110000 := c.valid
  rw [encodeChar]
  split
  · rename_i hplane
    have hunit := toNat_ofNat hplane
    have hhigh : isHigh (UInt16.ofNat c.toNat) = false := by
      simp only [isHigh, hunit, Bool.and_eq_false_iff, decide_eq_false_iff_not]
      omega
    have hlow : isLow (UInt16.ofNat c.toNat) = false := by
      simp only [isLow, hunit, Bool.and_eq_false_iff, decide_eq_false_iff_not]
      omega
    rw [List.singleton_append, codePoints_cons hhigh, single, hhigh, hlow, hunit, Char.ofNat_toNat]
    rfl
  · rename_i hplane
    have hhigh := toNat_ofNat (n := 0xd800 + (c.toNat - 0x10000) / 0x400) (by omega)
    have hlow := toNat_ofNat (n := 0xdc00 + (c.toNat - 0x10000) % 0x400) (by omega)
    have hpair : pair (UInt16.ofNat (0xd800 + (c.toNat - 0x10000) / 0x400))
        (UInt16.ofNat (0xdc00 + (c.toNat - 0x10000) % 0x400)) = c := by
      have hsum : 0x10000 + 0x400 * (0xd800 + (c.toNat - 0x10000) / 0x400 - 0xd800) +
          (0xdc00 + (c.toNat - 0x10000) % 0x400 - 0xdc00) = c.toNat := by
        omega
      rw [pair, hhigh, hlow, hsum, Char.ofNat_toNat]
    have hsurrogates : (isHigh (UInt16.ofNat (0xd800 + (c.toNat - 0x10000) / 0x400)) &&
        isLow (UInt16.ofNat (0xdc00 + (c.toNat - 0x10000) % 0x400))) = true := by
      simp only [isHigh, isLow, hhigh, hlow, Bool.and_eq_true, decide_eq_true_eq]
      omega
    rw [List.cons_append, List.singleton_append, codePoints, if_pos hsurrogates, hpair]

theorem encodeChar_pair {u v : UInt16} (hu : isHigh u = true) (hv : isLow v = true) :
    encodeChar (pair u v) = [u, v] := by
  simp only [isHigh, isLow, Bool.and_eq_true, decide_eq_true_eq] at hu hv
  have hvalue : (pair u v).toNat =
      0x10000 + 0x400 * (u.toNat - 0xd800) + (v.toNat - 0xdc00) := by
    rw [pair, toNat_charOfNat (Or.inr (by omega))]
  have hhigh : 0xd800 + ((pair u v).toNat - 0x10000) / 0x400 = u.toNat := by
    omega
  have hlow : 0xdc00 + ((pair u v).toNat - 0x10000) % 0x400 = v.toNat := by
    omega
  rw [encodeChar, if_neg (by omega), hhigh, hlow, UInt16.ofNat_toNat, UInt16.ofNat_toNat]

theorem encodeChar_single {u : UInt16} {c : Char} (h : single u = some c) : encodeChar c = [u] := by
  rw [single] at h
  split at h
  · cases h
  · rename_i hsurrogate
    cases h
    have hlt := u.toNat_lt
    have hvalid : u.toNat.isValidChar := by
      simp only [isHigh, isLow, Bool.or_eq_true, Bool.and_eq_true, decide_eq_true_eq] at hsurrogate
      rw [Nat.isValidChar]
      omega
    have hvalue := toNat_charOfNat hvalid
    rw [encodeChar, hvalue, if_pos hlt, UInt16.ofNat_toNat]

theorem encodeChar_ne_nil (c : Char) : encodeChar c ≠ [] := by
  rw [encodeChar]
  split <;> exact List.cons_ne_nil _ _

/-! ## Strings -/

theorem codePoints_encode (l : List Char) : codePoints (encode l) = l.map some := by
  induction l with
  | nil => rfl
  | cons c l ih =>
      rw [encode, List.flatMap_cons, codePoints_encodeChar_append, ← encode, ih, List.map_cons]

/-- The induction follows `codePoints`, which reads two code units at once where they are a pair. -/
theorem encode_of_codePoints {s : Units} :
    ∀ {l : List Char}, codePoints s = l.map some → encode l = s := by
  induction s using codePoints.induct with
  | case1 =>
      intro l h
      cases List.map_eq_nil_iff.1 h.symm
      rfl
  | case2 u =>
      intro l h
      obtain ⟨c, m, rfl, hc, hm⟩ := List.map_eq_cons_iff.1 h.symm
      cases List.map_eq_nil_iff.1 hm
      rw [encode, List.flatMap_singleton, encodeChar_single hc.symm]
  | case3 u v s hpair ih =>
      intro l h
      rw [codePoints, if_pos hpair] at h
      obtain ⟨c, m, rfl, hc, hm⟩ := List.map_eq_cons_iff.1 h.symm
      rcases Bool.and_eq_true_iff.1 hpair with ⟨hu, hv⟩
      rw [encode, List.flatMap_cons, ← encode, ih hm.symm, Option.some.inj hc, encodeChar_pair hu hv]
      rfl
  | case4 u v s hpair ih =>
      intro l h
      rw [codePoints, if_neg hpair] at h
      obtain ⟨c, m, rfl, hc, hm⟩ := List.map_eq_cons_iff.1 h.symm
      rw [encode, List.flatMap_cons, ← encode, ih hm.symm, encodeChar_single hc.symm]
      rfl

theorem wellFormed_encode (l : List Char) : WellFormed (encode l) := by
  rw [WellFormed, codePoints_encode]
  simp

theorem chars_encode (replacement : Char) (l : List Char) : chars replacement (encode l) = l := by
  rw [chars, codePoints_encode, List.map_map]
  exact List.map_id l

/-- Where a surrogate is in no pair, the string is lost. -/
theorem encode_chars_iff (replacement : Char) (s : Units) :
    encode (chars replacement s) = s ↔ WellFormed s := by
  constructor
  · intro h
    rw [← h]
    exact wellFormed_encode _
  · intro h
    apply encode_of_codePoints
    rw [chars, List.map_map]
    refine ((List.map_congr_left ?_).trans (List.map_id _)).symm
    intro c hc
    cases c with
    | none => exact absurd hc h
    | some c => rfl

end Utf16
