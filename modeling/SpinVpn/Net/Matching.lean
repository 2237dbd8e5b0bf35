import Mathlib.Tactic.IntervalCases
import SpinVpn.Lib.Octets
import SpinVpn.Net.Subnet

/-!
# Matching — addresses inside a subnet

`Subnet.toImmutable` and `Subnet.Immutable.matches` of `net/Subnet.kt`.  Both mask the byte in which
the prefix ends, each on its own: the subnet's once and for all, the other address's at every match.
An index out of range is `none`; `matches_toImmutable` says that there is none, and that a match is
what it should be.
-/

namespace SpinVpn
namespace Net
namespace Subnet

open Octets

/-! ## Masks -/

/-- `(b.toInt() and -(1 shl k)).toByte()`, with the byte's sign extended. -/
def masked (b : UInt8) (k : Nat) : UInt8 :=
  UInt8.ofBitVec ((b.toBitVec.signExtend 32 &&& -(1#32 <<< k)).truncate 8)

theorem getMsbD_masked (b : UInt8) {k t : Nat} (hk : k < 8) (ht : t < 8) :
    (masked b k).toBitVec.getMsbD t = (decide (t < 8 - k) && b.toBitVec.getMsbD t) := by
  have hones : -(1#32 <<< k) = BitVec.allOnes 32 <<< k := by
    interval_cases k <;> rfl
  have hbits : (masked b k).toBitVec =
      (b.toBitVec.signExtend 32 &&& BitVec.allOnes 32 <<< k).truncate 8 := by
    rw [masked, hones]
  rw [hbits]
  simp only [BitVec.getMsbD_eq_getLsbD, BitVec.truncate_eq_setWidth, BitVec.getLsbD_setWidth,
    BitVec.getLsbD_and, BitVec.getLsbD_shiftLeft, BitVec.getLsbD_allOnes,
    BitVec.getLsbD_signExtend]
  have hlt : 8 - 1 - t < 8 := by omega
  have hwide : 8 - 1 - t < 32 := by omega
  have hrest : 8 - 1 - t - k < 32 := by omega
  have hmask : decide (8 - 1 - t < k) = !decide (t < 8 - k) := by
    by_cases h : t < 8 - k
    · have hnot : ¬ 8 - 1 - t < k := by omega
      simp [h, hnot]
    · have hin : 8 - 1 - t < k := by omega
      simp [h, hin]
  simp [hlt, hwide, hrest, hmask, ht, Bool.and_comm]

/-- Two bytes agree under a mask if they agree on their leading bits. -/
theorem masked_eq_masked_iff {x y : UInt8} {k : Nat} (hk : k < 8) :
    masked x k = masked y k ↔
      ∀ t < 8 - k, x.toBitVec.getMsbD t = y.toBitVec.getMsbD t := by
  rw [eq_iff_forall_getMsbD]
  constructor
  · intro h t ht
    have heq := h t (by omega)
    rw [getMsbD_masked x hk (by omega), getMsbD_masked y hk (by omega)] at heq
    simpa [ht] using heq
  · intro h t ht
    rw [getMsbD_masked x hk ht, getMsbD_masked y hk ht]
    by_cases hlead : t < 8 - k
    · rw [h t hlead]
    · simp [hlead]

/-! ## The subnet -/

structure Immutable where
  a : List UInt8
  prefixSize : Nat
  deriving DecidableEq

/-- `while (i < it.size) it[i++] = 0` -/
def zeroFrom (i : Nat) (it : List UInt8) : List UInt8 :=
  (List.range' i (it.length - i)).foldl (fun it j => it.set j 0) it

def toImmutable (s : Subnet) : Option Immutable :=
  let i := s.prefixSize / 8
  if 0 < s.prefixSize % 8 then
    s.address.address[i]?.map (fun b =>
      { a := zeroFrom (i + 1) (s.address.address.set i (masked b (i * 8 + 8 - s.prefixSize)))
        prefixSize := s.prefixSize })
  else some { a := zeroFrom i s.address.address, prefixSize := s.prefixSize }

namespace Immutable

/-- The loop of `matches` from `i` on, and what follows it. -/
def matchesFrom (m : Immutable) (b : List UInt8) (i : Nat) : Option Bool :=
  if i * 8 < m.prefixSize ∧ i * 8 + 8 ≤ m.prefixSize then
    match m.a[i]?, b[i]? with
    | some x, some y => if x ≠ y then some false else matchesFrom m b (i + 1)
    | _, _ => none
  else if i * 8 = m.prefixSize then some true
  else
    match m.a[i]?, b[i]? with
    | some x, some y => some (x = masked y (i * 8 + 8 - m.prefixSize))
    | _, _ => none
termination_by m.prefixSize - i * 8

def matchesBytes (m : Immutable) (b : List UInt8) : Option Bool :=
  if m.a.length ≠ b.length then some false else m.matchesFrom b 0

end Immutable

/-! ## Zeroing -/

theorem length_foldl_set (js : List Nat) :
    ∀ l : List UInt8, (js.foldl (fun l j => l.set j 0) l).length = l.length := by
  induction js with
  | nil =>
      intro l
      rfl
  | cons j js ih =>
      intro l
      rw [List.foldl_cons, ih, List.length_set]

@[simp] theorem length_zeroFrom (i : Nat) (l : List UInt8) : (zeroFrom i l).length = l.length :=
  length_foldl_set _ l

theorem getElem?_zeroFrom {i k : Nat} (h : k < i) (l : List UInt8) :
    (zeroFrom i l)[k]? = l[k]? := by
  have hkeep : ∀ (js : List Nat) (l : List UInt8), (∀ j ∈ js, k ≠ j) →
      (js.foldl (fun l j => l.set j 0) l)[k]? = l[k]? := by
    intro js
    induction js with
    | nil =>
        intro l _
        rfl
    | cons j js ih =>
        intro l hne
        rw [List.foldl_cons, ih _ (fun j' hj' => hne j' (List.mem_cons_of_mem _ hj'))]
        exact List.getElem?_set_ne (Ne.symm (hne j List.mem_cons_self))
  refine hkeep _ l (fun j hj => ?_)
  have := List.mem_range'_1.1 hj
  omega

/-! ## The loop -/

section Loop

variable {m : Immutable} {b : List UInt8} {i : Nat}

/-- What is left to compare at `i`: the whole bytes from there on, and the byte in which the prefix
ends. -/
def Immutable.AgreeFrom (m : Immutable) (b : List UInt8) (i : Nat) : Prop :=
  (∀ k, i ≤ k → k < m.prefixSize / 8 → byteAt m.a k = byteAt b k) ∧
    (0 < m.prefixSize % 8 →
      byteAt m.a (m.prefixSize / 8) =
        masked (byteAt b (m.prefixSize / 8)) (8 - m.prefixSize % 8))

theorem getElem?_of_lt {l : List UInt8} {k : Nat} (h : k < l.length) :
    l[k]? = some (byteAt l k) := by
  rw [byteAt, List.getElem?_eq_getElem h, Option.getD_some]

theorem agreeFrom_succ (hi : i < m.prefixSize / 8) :
    m.AgreeFrom b i ↔ byteAt m.a i = byteAt b i ∧ m.AgreeFrom b (i + 1) := by
  constructor
  · rintro ⟨hbytes, hlast⟩
    exact ⟨hbytes i (Nat.le_refl i) hi, fun k hk => hbytes k (by omega), hlast⟩
  · rintro ⟨hbyte, hbytes, hlast⟩
    refine ⟨fun k hk hlt => ?_, hlast⟩
    rcases Nat.eq_or_lt_of_le hk with rfl | hlater
    · exact hbyte
    · exact hbytes k hlater hlt

theorem agreeFrom_end : m.AgreeFrom b (m.prefixSize / 8) ↔
    (0 < m.prefixSize % 8 →
      byteAt m.a (m.prefixSize / 8) =
        masked (byteAt b (m.prefixSize / 8)) (8 - m.prefixSize % 8)) := by
  constructor
  · exact And.right
  · intro h
    exact ⟨fun k hk hlt => absurd hlt (by omega), h⟩

/-- One whole byte. -/
theorem matchesFrom_byte (hi : i < m.prefixSize / 8) (ha : i < m.a.length) (hb : i < b.length) :
    m.matchesFrom b i =
      if byteAt m.a i ≠ byteAt b i then some false else m.matchesFrom b (i + 1) := by
  have hgo : i * 8 < m.prefixSize ∧ i * 8 + 8 ≤ m.prefixSize := by omega
  rw [Immutable.matchesFrom, if_pos hgo, getElem?_of_lt ha, getElem?_of_lt hb]

/-- After the last whole byte. -/
theorem matchesFrom_end (ha : m.prefixSize ≤ 8 * m.a.length) (hlen : m.a.length = b.length) :
    ∃ r, m.matchesFrom b (m.prefixSize / 8) = some r ∧
      (r = true ↔ m.AgreeFrom b (m.prefixSize / 8)) := by
  have hstop : ¬ (m.prefixSize / 8 * 8 < m.prefixSize ∧
      m.prefixSize / 8 * 8 + 8 ≤ m.prefixSize) := by
    omega
  rw [Immutable.matchesFrom, if_neg hstop, agreeFrom_end]
  by_cases hfull : m.prefixSize / 8 * 8 = m.prefixSize
  · refine ⟨true, if_pos hfull, ?_⟩
    have hnone : ¬ 0 < m.prefixSize % 8 := by omega
    simp [hnone]
  · -- the prefix ends inside a byte, which both addresses have
    have hsome : 0 < m.prefixSize % 8 := by omega
    have hbits : m.prefixSize / 8 * 8 + 8 - m.prefixSize = 8 - m.prefixSize % 8 := by omega
    have hin : m.prefixSize / 8 < m.a.length := by omega
    rw [if_neg hfull, getElem?_of_lt hin, getElem?_of_lt (hlen ▸ hin), hbits]
    exact ⟨_, rfl, by simp [hsome]⟩

/-- The induction is on the whole bytes left. -/
theorem matchesFrom_spec (ha : m.prefixSize ≤ 8 * m.a.length) (hlen : m.a.length = b.length) :
    ∀ n, i + n = m.prefixSize / 8 →
      ∃ r, m.matchesFrom b i = some r ∧ (r = true ↔ m.AgreeFrom b i) := by
  intro n
  induction n generalizing i with
  | zero =>
      intro hn
      rw [show i = m.prefixSize / 8 by omega]
      exact matchesFrom_end ha hlen
  | succ n ih =>
      intro hn
      have hi : i < m.prefixSize / 8 := by omega
      rw [matchesFrom_byte hi (by omega) (by omega), agreeFrom_succ hi]
      by_cases hbyte : byteAt m.a i = byteAt b i
      · obtain ⟨r, hr, hiff⟩ := ih (i := i + 1) (by omega)
        refine ⟨r, ?_, ?_⟩
        · rw [if_neg (not_not_intro hbyte), hr]
        · rw [hiff, and_iff_right hbyte]
      · exact ⟨false, if_pos hbyte, by simp [hbyte]⟩

end Loop

/-! ## Matching -/

section Match

variable {s : Subnet} {m : Immutable} {b : List UInt8}

/-- The frozen subnet keeps the whole bytes of the prefix and masks the byte in which it ends. -/
theorem toImmutable_spec (s : Subnet) :
    ∃ m, s.toImmutable = some m ∧ m.prefixSize = s.prefixSize ∧
      m.a.length = s.address.address.length ∧
      (∀ k < s.prefixSize / 8, byteAt m.a k = byteAt s.address.address k) ∧
      (0 < s.prefixSize % 8 →
        byteAt m.a (s.prefixSize / 8) =
          masked (byteAt s.address.address (s.prefixSize / 8)) (8 - s.prefixSize % 8)) := by
  have hle := s.le
  rw [InetAddress.addressLength] at hle
  rw [toImmutable]
  by_cases hmod : 0 < s.prefixSize % 8
  · have hin : s.prefixSize / 8 < s.address.address.length := by omega
    have hbits : s.prefixSize / 8 * 8 + 8 - s.prefixSize = 8 - s.prefixSize % 8 := by omega
    simp only [if_pos hmod, getElem?_of_lt hin, hbits, Option.map_some]
    refine ⟨_, rfl, rfl, ?_, ?_, ?_⟩
    · rw [length_zeroFrom, List.length_set]
    · intro k hk
      have hne : s.prefixSize / 8 ≠ k := by omega
      rw [byteAt, getElem?_zeroFrom (by omega), List.getElem?_set_ne hne, byteAt]
    · intro _
      rw [byteAt, getElem?_zeroFrom (by omega), List.getElem?_set_self hin, Option.getD_some]
  · refine ⟨_, if_neg hmod, rfl, length_zeroFrom _ _, ?_, ?_⟩
    · intro k hk
      rw [byteAt, getElem?_zeroFrom hk, byteAt]
    · intro h
      exact absurd h hmod

theorem matches_toImmutable (s : Subnet) (b : List UInt8) :
    ∃ m r, s.toImmutable = some m ∧ m.matchesBytes b = some r ∧
      (r = true ↔ b.length = s.address.address.length ∧
        ∀ j < s.prefixSize, bit b j = bit s.address.address j) := by
  obtain ⟨m, hm, hsize, hlen, hbytes, hlast⟩ := toImmutable_spec s
  have hle := s.le
  rw [InetAddress.addressLength] at hle
  by_cases hb : m.a.length = b.length
  · obtain ⟨r, hr, hiff⟩ :=
      matchesFrom_spec (i := 0) (by omega) hb (m.prefixSize / 8) (Nat.zero_add _)
    refine ⟨m, r, hm, ?_, ?_⟩
    · rw [Immutable.matchesBytes, if_neg (not_not_intro hb), hr]
    · rw [hiff, Immutable.AgreeFrom, hsize, forall_bit_iff,
        and_iff_right (show b.length = s.address.address.length by omega)]
      refine and_congr ?_ ?_
      · constructor
        · intro h k hk
          rw [← hbytes k hk, h k (Nat.zero_le k) hk]
        · intro h k _ hk
          rw [hbytes k hk, h k hk]
      · by_cases hmod : 0 < s.prefixSize % 8
        · have hk : 8 - s.prefixSize % 8 < 8 := by omega
          have hback : 8 - (8 - s.prefixSize % 8) = s.prefixSize % 8 := by omega
          rw [hlast hmod, masked_eq_masked_iff hk, hback, forall_prop_of_true hmod]
          exact forall_congr' (fun t => imp_congr_right (fun _ => eq_comm))
        · constructor
          · intro _ t ht
            exact absurd ht (by omega)
          · intro _ h
            exact absurd h hmod
  · refine ⟨m, false, hm, if_pos hb, ?_⟩
    have hne : b.length ≠ s.address.address.length := by omega
    simp [hne]

end Match

end Subnet
end Net
end SpinVpn
