import Mathlib.Data.List.Basic
import Mathlib.Tactic.Ring

/-!
# Octets — byte strings as numbers and as rows of bits

A number is written in a fixed number of bytes, the most significant first, and what does not fit is
dropped (`ofBytes_toBytes`).  The bits of a byte string are counted from the most significant bit of
its first byte; two byte strings agree on a range of bits if they agree on its bytes and on the
leading bits of the byte in which it ends (`forall_bit_iff`).
-/

namespace Octets

/-! ## Numbers -/

/-- The number in `w` bytes. -/
def toBytes : Nat → Nat → List UInt8
  | 0, _ => []
  | w + 1, n => UInt8.ofNat (n / 256 ^ w) :: toBytes w n

def ofBytes (l : List UInt8) : Nat :=
  l.foldl (fun n b => 256 * n + b.toNat) 0

@[simp] theorem length_toBytes (w n : Nat) : (toBytes w n).length = w := by
  induction w with
  | zero => rfl
  | succ w ih => simp [toBytes, ih]

theorem foldl_toBytes (w n : Nat) :
    ∀ m, (toBytes w n).foldl (fun n b => 256 * n + b.toNat) m = m * 256 ^ w + n % 256 ^ w := by
  induction w with
  | zero =>
      intro m
      simp [toBytes, Nat.mod_one]
  | succ w ih =>
      intro m
      have hbyte : (UInt8.ofNat (n / 256 ^ w)).toNat = n / 256 ^ w % 256 := by simp
      rw [toBytes, List.foldl_cons, ih, hbyte, Nat.mod_pow_succ]
      ring

theorem ofBytes_toBytes (w n : Nat) : ofBytes (toBytes w n) = n % 256 ^ w := by
  rw [ofBytes, foldl_toBytes, Nat.zero_mul, Nat.zero_add]

theorem ofBytes_toBytes_of_lt {w n : Nat} (h : n < 256 ^ w) : ofBytes (toBytes w n) = n := by
  rw [ofBytes_toBytes, Nat.mod_eq_of_lt h]

/-! ## Packed fields -/

/-- The number in the `w` bytes from a place on. -/
def field (w : Nat) (data : List UInt8) (start : Nat) : Nat :=
  ofBytes ((data.drop start).take w)

theorem field_toBytes {w n : Nat} (h : n < 256 ^ w) (rest : List UInt8) :
    field w (toBytes w n ++ rest) 0 = n := by
  rw [field, List.drop_zero, List.take_left' (length_toBytes w n), ofBytes_toBytes_of_lt h]

/-- What stands before a field only moves it. -/
theorem field_append (w : Nat) (before rest : List UInt8) (start : Nat) :
    field w (before ++ rest) (before.length + start) = field w rest start := by
  rw [field, ← List.drop_drop, List.drop_left, field]

/-! ## Order -/

/-- Byte strings of one length are ordered as their numbers are: the first byte in which they differ
decides, unless what stands before them does. -/
theorem compare_foldl (l : List UInt8) :
    ∀ {m : List UInt8}, l.length = m.length → ∀ a b,
      compare (l.foldl (fun n b => 256 * n + b.toNat) a) (m.foldl (fun n b => 256 * n + b.toNat) b) =
        (compare a b).then (compare (l.map UInt8.toNat) (m.map UInt8.toNat)) := by
  induction l with
  | nil =>
      intro m hm a b
      have hnil : m = [] := List.length_eq_zero_iff.1 hm.symm
      subst hnil
      exact Ordering.then_eq.symm
  | cons x l ih =>
      intro m hm a b
      cases m with
      | nil => cases hm
      | cons y m =>
          -- a byte is less than 256
          have hfirst : compare (256 * a + x.toNat) (256 * b + y.toNat) =
              (compare a b).then (compare x.toNat y.toNat) := by
            have hx := x.toNat_lt
            have hy := y.toNat_lt
            rcases Nat.lt_trichotomy a b with hlt | rfl | hgt
            · rw [Nat.compare_eq_lt.2 hlt, Nat.compare_eq_lt.2 (by omega)]
              rfl
            · rw [Nat.compare_eq_eq.2 rfl, Ordering.eq_then]
              simp only [Nat.compare_eq_ite_lt, Nat.add_lt_add_iff_left]
            · rw [Nat.compare_eq_gt.2 hgt, Nat.compare_eq_gt.2 (by omega)]
              rfl
          rw [List.foldl_cons, List.foldl_cons, ih (Nat.succ.inj hm), hfirst, Ordering.then_assoc]
          rw [List.map_cons, List.map_cons, List.compare_cons_cons]

theorem compare_ofBytes {l m : List UInt8} (h : l.length = m.length) :
    compare (ofBytes l) (ofBytes m) = compare (l.map UInt8.toNat) (m.map UInt8.toNat) :=
  compare_foldl l h 0 0

/-! ## Bits -/

/-- A byte string ends in zeros. -/
def byteAt (l : List UInt8) (i : Nat) : UInt8 :=
  l[i]?.getD 0

def bit (l : List UInt8) (j : Nat) : Bool :=
  (byteAt l (j / 8)).toBitVec.getMsbD (j % 8)

/-- A field of one byte is that byte. -/
theorem toNat_byteAt (l : List UInt8) (i : Nat) : (byteAt l i).toNat = field 1 l i := by
  rw [byteAt, field, List.take_one, List.head?_drop]
  cases l[i]? with
  | none => rfl
  | some b => simp [ofBytes]

theorem eq_iff_forall_getMsbD {x y : UInt8} :
    x = y ↔ ∀ t < 8, x.toBitVec.getMsbD t = y.toBitVec.getMsbD t := by
  constructor
  · rintro rfl t _
    rfl
  · intro h
    exact UInt8.toBitVec_inj.1 (BitVec.eq_of_getMsbD_eq (fun t ht => h t ht))

theorem forall_bit_iff (l m : List UInt8) (n : Nat) :
    (∀ j < n, bit l j = bit m j) ↔
      (∀ i < n / 8, byteAt l i = byteAt m i) ∧
        ∀ t < n % 8, (byteAt l (n / 8)).toBitVec.getMsbD t =
          (byteAt m (n / 8)).toBitVec.getMsbD t := by
  have hat : ∀ (l : List UInt8) (i t : Nat), t < 8 →
      bit l (8 * i + t) = (byteAt l i).toBitVec.getMsbD t := by
    intro l i t ht
    have hdiv : (8 * i + t) / 8 = i := by omega
    have hmod : (8 * i + t) % 8 = t := by omega
    rw [bit, hdiv, hmod]
  constructor
  · intro h
    constructor
    · intro i hi
      refine eq_iff_forall_getMsbD.2 (fun t ht => ?_)
      rw [← hat l i t ht, ← hat m i t ht]
      exact h _ (by omega)
    · intro t ht
      have hlt : t < 8 := by omega
      rw [← hat l _ t hlt, ← hat m _ t hlt]
      exact h _ (by omega)
  · rintro ⟨hbytes, hlast⟩ j hj
    by_cases hi : j / 8 < n / 8
    · rw [bit, bit, hbytes _ hi]
    · -- the bit lies in the byte in which the range ends
      have hlastByte : j / 8 = n / 8 := by omega
      rw [bit, bit, hlastByte]
      exact hlast _ (by omega)

end Octets
