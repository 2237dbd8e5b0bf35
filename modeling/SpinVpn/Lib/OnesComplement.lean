import SpinVpn.Lib.Octets

/-!
# OnesComplement — sums of 16-bit words with end-around carry

The checksums of the internet protocols add up the 16-bit words of a text, bring back what does not
fit in 16 bits (`fold`), and send the complement.  Whoever adds up all of it, the checksum included,
gets `0xFFFF` (`fold_add_eq_iff`).  Zero has two forms, and a sum of something is never the form
`0`; of the two checksums that would do for a sum of `0xFFFF`, the complement is `0`.
-/

namespace OnesComplement

/-! ## Words -/

/-- The sum of the words of a text; a last octet without a partner counts as the high half. -/
def words : List UInt8 → Nat
  | [] => 0
  | [a] => 256 * a.toNat
  | a :: b :: rest => 256 * a.toNat + b.toNat + words rest

theorem words_append (l m : List UInt8) (h : l.length % 2 = 0) :
    words (l ++ m) = words l + words m := by
  fun_induction words l with
  | case1 => simp
  | case2 a => simp at h
  | case3 a b rest ih =>
      have hrest : rest.length % 2 = 0 := by
        simp only [List.length_cons] at h
        omega
      calc words (a :: b :: rest ++ m)
          = 256 * a.toNat + b.toNat + words (rest ++ m) := rfl
        _ = 256 * a.toNat + b.toNat + (words rest + words m) := by rw [ih hrest]
        _ = 256 * a.toNat + b.toNat + words rest + words m := (Nat.add_assoc ..).symm

/-- A number of 16 bits is one word. -/
theorem words_toBytes {n : Nat} (h : n < 65536) : words (Octets.toBytes 2 n) = n := by
  simp only [Octets.toBytes, words, UInt8.toNat_ofNat']
  omega

/-! ## Carries -/

/-- Add what is above 16 bits to what is within, until nothing is above. -/
def fold (t : Nat) : Nat :=
  if t < 65536 then t else fold (t % 65536 + t / 65536)
termination_by t
decreasing_by omega

/-- What is left is never zero, unless there was nothing, and differs from the sum by a multiple of
`0xFFFF`. -/
theorem fold_eq (t : Nat) : fold t = if t = 0 then 0 else (t - 1) % 65535 + 1 := by
  fun_induction fold t with
  | case1 t hlt =>
      split
      · assumption
      · rw [Nat.mod_eq_of_lt (by omega)]
        omega
  | case2 t hge ih =>
      have hdiv : 0 < t / 65536 := Nat.div_pos (by omega) (by omega)
      rw [ih, if_neg (by omega), if_neg (by omega)]
      -- a carry weighs `0xFFFF` less than before
      have hcarry : t - 1 = t % 65536 + t / 65536 - 1 + 65535 * (t / 65536) := by omega
      rw [hcarry, Nat.add_mul_mod_self_left]

theorem fold_lt (t : Nat) : fold t < 65536 := by
  rw [fold_eq]
  split
  · omega
  · have hlt := Nat.mod_lt (t - 1) (show 0 < 65535 by omega)
    omega

/-! ## Checksums -/

/-- The complement in 16 bits. -/
def checksum (t : Nat) : Nat :=
  65535 - fold t

/-- A sum of something has no complement of `0xFFFF`. -/
theorem checksum_lt_of_pos {t : Nat} (ht : 0 < t) : checksum t < 65535 := by
  rw [checksum, fold_eq, if_neg (by omega)]
  omega

/-- The whole sum is `0xFFFF` for the complement, and for the other form of zero where the complement
is zero. -/
theorem fold_add_eq_iff {t c : Nat} (ht : 0 < t) (hc : c < 65536) :
    fold (t + c) = 65535 ↔ c = checksum t ∨ c = 65535 ∧ checksum t = 0 := by
  have hlt := Nat.mod_lt (t - 1) (show 0 < 65535 by omega)
  rw [checksum, fold_eq, fold_eq, if_neg (by omega), if_neg (by omega)]
  have hsplit : t + c - 1 = (t - 1) % 65535 + c + 65535 * ((t - 1) / 65535) := by omega
  rw [hsplit, Nat.add_mul_mod_self_left]
  omega

end OnesComplement
