import Mathlib.Data.BitVec
import SpinVpn.Lib.Octets
import SpinVpn.Lib.OrderedSet
import SpinVpn.Lib.SortedList
import SpinVpn.Net.Subnet

/-!
# SubnetOrder — how subnets are sorted

`Subnet.compareTo` as `net/Subnet.kt` computes it: the sizes of the addresses, then their bytes in a
loop that returns at the first two that differ, then the lengths of the prefixes.  Bytes are signed, and
`unsigned` undoes the sign.

The sign of the result is the order of the model (`order_compare`), so it is a total order, in which
addresses of one family compare as numbers.  An `Acl` keeps its subnets in a `SortedList` with this
comparison (`utils/Sorters.kt`), and no order of additions loses or duplicates one of them
(`compareTo_sorts`).
-/

namespace SpinVpn
namespace Net

/-- `Int.compareTo` -/
def compareInt (a b : Int) : Int :=
  if a < b then -1 else if a = b then 0 else 1

/-- `Byte.unsigned`: extending the byte to an integer extends its sign. -/
def unsigned (b : UInt8) : Int :=
  (b.toBitVec.signExtend 32 &&& 0xFF#32).toInt

namespace Subnet

/-- The loop over the bytes of two addresses of the same size. -/
def compareBytes : List UInt8 → List UInt8 → Int
  | a :: addrThis, b :: addrThat =>
      let result := compareInt (unsigned a) (unsigned b)
      if result ≠ 0 then result else compareBytes addrThis addrThat
  | _, _ => 0

def compareToInt (s other : Subnet) : Int :=
  let addrThis := s.address.address
  let addrThat := other.address.address
  let result := compareInt addrThis.length addrThat.length
  if result ≠ 0 then result
  else
    let result := compareBytes addrThis addrThat
    if result ≠ 0 then result else compareInt s.prefixSize other.prefixSize

end Subnet

/-! ## Sorters -/

/-- `BaseSorter.compare`: what is missing goes last. -/
def BaseSorter.compare {α : Type} (compareNonNull : α → α → Int) : Option α → Option α → Int
  | none, none => 0
  | none, some _ => 1
  | some _, none => -1
  | some o1, some o2 => compareNonNull o1 o2

namespace SubnetSorter

def compare (o1 o2 : Subnet) : Int :=
  BaseSorter.compare Subnet.compareToInt (some o1) (some o2)

def areItemsTheSame (item1 item2 : Subnet) : Bool :=
  decide (item1.equals item2)

end SubnetSorter

/-- `Acl.subnets` after the additions, one after the other. -/
def sortedSubnets (replaces : Bool) (items : List Subnet) : List Subnet :=
  SortedList.addAll SubnetSorter.compare SubnetSorter.areItemsTheSame replaces items

/-! ## The sign of the result -/

def sign (n : Int) : Ordering :=
  if n < 0 then .lt else if n = 0 then .eq else .gt

theorem sign_eq_iff {n : Int} : sign n = .eq ↔ n = 0 := by
  unfold sign
  split
  · simp
    omega
  · split <;> simp [*]

/-- Returning early is going on only where the results so far are equal. -/
theorem sign_ite (result rest : Int) :
    sign (if result ≠ 0 then result else rest) = (sign result).then (sign rest) := by
  by_cases h : result = 0
  · subst h
    rfl
  · rw [if_pos h]
    cases hsign : sign result with
    | eq => exact absurd (sign_eq_iff.1 hsign) h
    | lt => rfl
    | gt => rfl

theorem sign_compareInt (a b : Nat) : sign (compareInt a b) = Ord.compare a b := by
  rw [compareInt, Nat.compare_eq_ite_lt]
  rcases Nat.lt_trichotomy a b with hlt | rfl | hgt
  · rw [if_pos (by omega), if_pos hlt]
    rfl
  · rw [if_neg (by omega), if_pos rfl, if_neg (Nat.lt_irrefl a), if_neg (Nat.lt_irrefl a)]
    rfl
  · rw [if_neg (by omega), if_neg (by omega), if_neg (by omega), if_pos hgt]
    rfl

theorem unsigned_eq (b : UInt8) : unsigned b = b.toNat := by
  have hmask : ∀ i < 32, (0xFF#32).getLsbD i = decide (i < 8) := by decide
  have hbits : b.toBitVec.signExtend 32 &&& 0xFF#32 = b.toBitVec.setWidth 32 := by
    refine BitVec.eq_of_getLsbD_eq fun i hi => ?_
    rw [BitVec.getLsbD_and, hmask i hi, BitVec.getLsbD_signExtend, BitVec.getLsbD_setWidth]
    by_cases hbyte : i < 8
    · simp [hbyte, hi]
    · have hout : b.toBitVec.getLsbD i = false := BitVec.getLsbD_of_ge _ _ (Nat.le_of_not_lt hbyte)
      simp [hbyte, hout]
  have hlt := b.toNat_lt
  have hnat : (b.toBitVec.setWidth 32).toNat = b.toNat := by
    rw [BitVec.toNat_setWidth, UInt8.toNat_toBitVec, Nat.mod_eq_of_lt (by omega)]
  rw [unsigned, hbits, BitVec.toInt_eq_toNat_of_lt (by omega), hnat]

theorem sign_compareBytes (l : List UInt8) :
    ∀ {m : List UInt8}, l.length = m.length →
      sign (Subnet.compareBytes l m) = Ord.compare (l.map UInt8.toNat) (m.map UInt8.toNat) := by
  induction l with
  | nil =>
      intro m hm
      have hnil : m = [] := List.length_eq_zero_iff.1 hm.symm
      subst hnil
      rfl
  | cons a l ih =>
      intro m hm
      cases m with
      | nil => cases hm
      | cons b m =>
          rw [Subnet.compareBytes, sign_ite, ih (Nat.succ.inj hm), unsigned_eq, unsigned_eq,
            sign_compareInt, List.map_cons, List.map_cons, List.compare_cons_cons]

theorem sign_compareToInt (s t : Subnet) : sign (s.compareToInt t) = s.compareTo t := by
  rw [Subnet.compareToInt, sign_ite, sign_ite, sign_compareInt, sign_compareInt]
  by_cases hsize : s.address.address.length = t.address.address.length
  · rw [sign_compareBytes _ hsize]
    rfl
  · -- addresses of different sizes are not compared any further
    have hne : Ord.compare s.address.address.length t.address.address.length ≠ .eq := by
      rwa [ne_eq, Nat.compare_eq_eq]
    have hdecided : ∀ o p q : Ordering, o ≠ .eq → o.then p = o.then q := by decide
    exact hdecided _ _ _ hne

theorem order_compare : SortedList.order SubnetSorter.compare = Subnet.compareTo := by
  funext s t
  exact sign_compareToInt s t

instance : Std.TransCmp (SortedList.order SubnetSorter.compare) :=
  order_compare ▸ inferInstanceAs (Std.TransCmp Subnet.compareTo)

/-! ## The order -/

section Order

variable (s t u : Subnet)

theorem compareToInt_lt_iff : s.compareToInt t < 0 ↔ s.compareTo t = .lt := by
  rw [← order_compare]
  exact SortedList.order_lt_iff.symm

theorem compareToInt_eq_iff : s.compareToInt t = 0 ↔ s.compareTo t = .eq := by
  rw [← order_compare]
  exact SortedList.order_eq_iff.symm

theorem compareToInt_le_iff : s.compareToInt t ≤ 0 ↔ (s.compareTo t).isLE = true := by
  rw [Int.le_iff_lt_or_eq, compareToInt_lt_iff, compareToInt_eq_iff]
  cases s.compareTo t <;> simp

/-- Addresses of the same size are compared as numbers, and then by their prefixes. -/
theorem compareTo_of_size (hsize : s.address.address.length = t.address.address.length) :
    s.compareTo t = (compare (Octets.ofBytes s.address.address) (Octets.ofBytes t.address.address)).then
      (compare s.prefixSize t.prefixSize) := by
  rw [Octets.compare_ofBytes hsize]
  simp only [Subnet.compareTo, compareLex, compareOn, hsize, Std.ReflCmp.compare_self, Ordering.eq_then]

end Order

/-- A total order of the subnets, by the sign of the result. -/
structure IsSubnetOrder (compare : Subnet → Subnet → Int) : Prop where
  swap : ∀ s t, compare s t < 0 ↔ 0 < compare t s
  antisymm : ∀ s t, compare s t ≤ 0 → compare t s ≤ 0 → s.equals t
  trans : ∀ s t u, compare s t ≤ 0 → compare t u ≤ 0 → compare s u ≤ 0
  total : ∀ s t, compare s t ≤ 0 ∨ compare t s ≤ 0
  /-- IPv4 goes first -/
  family : ∀ s t, s.address.address.length = 4 → t.address.address.length = 16 → compare s t < 0
  /-- Addresses are unsigned numbers, the most significant byte first. -/
  address : ∀ s t, s.address.address.length = t.address.address.length →
    Octets.ofBytes s.address.address < Octets.ofBytes t.address.address → compare s t < 0
  prefixSize : ∀ s t, s.address.address = t.address.address →
    (compare s t < 0 ↔ s.prefixSize < t.prefixSize)
  zero : ∀ s t, compare s t = 0 ↔ s.equals t

/-- The list has the subnets that were added, each of them once, in ascending order. -/
structure SortedSubnets (items data : List Subnet) : Prop where
  ascending : data.Pairwise (fun s t => s.compareToInt t < 0)
  added : ∀ s ∈ data, s ∈ items
  once : ∀ s ∈ items, ∃! t, t ∈ data ∧ t.equals s

theorem isSubnetOrder_compareToInt : IsSubnetOrder Subnet.compareToInt where
  swap := by
    intro s t
    have hswap : s.compareTo t = (t.compareTo s).swap := Std.OrientedCmp.eq_swap
    rw [compareToInt_lt_iff, ← Int.not_le, compareToInt_le_iff, hswap]
    cases t.compareTo s <;> decide
  antisymm := by
    intro s t hst hts
    have hswap : t.compareTo s = (s.compareTo t).swap := Std.OrientedCmp.eq_swap
    rw [compareToInt_le_iff] at hst hts
    rw [hswap] at hts
    rw [← Subnet.compareTo_eq_iff]
    cases hcmp : s.compareTo t with
    | eq => rfl
    | lt => simp [hcmp] at hts
    | gt => simp [hcmp] at hst
  trans := by
    intro s t u hst htu
    rw [compareToInt_le_iff] at hst htu ⊢
    exact Std.TransCmp.isLE_trans hst htu
  total := by
    intro s t
    have hswap : t.compareTo s = (s.compareTo t).swap := Std.OrientedCmp.eq_swap
    rw [compareToInt_le_iff, compareToInt_le_iff, hswap]
    cases s.compareTo t <;> decide
  family := by
    intro s t hs ht
    rw [compareToInt_lt_iff]
    simp only [Subnet.compareTo, compareLex, compareOn, hs, ht]
    rfl
  address := by
    intro s t hsize hlt
    rw [compareToInt_lt_iff, compareTo_of_size s t hsize, Nat.compare_eq_lt.2 hlt]
    rfl
  prefixSize := by
    intro s t haddress
    rw [compareToInt_lt_iff, compareTo_of_size s t (congrArg List.length haddress), haddress,
      Nat.compare_eq_eq.2 rfl, Ordering.eq_then, Nat.compare_eq_lt]
  zero := by
    intro s t
    rw [compareToInt_eq_iff, Subnet.compareTo_eq_iff]

/-! ## The sorted list -/

theorem areItemsTheSame_iff (s t : Subnet) :
    SubnetSorter.areItemsTheSame s t = true ↔ SubnetSorter.compare s t = 0 := by
  rw [SubnetSorter.areItemsTheSame, decide_eq_true_eq, ← Subnet.compareTo_eq_iff]
  exact (compareToInt_eq_iff s t).symm

theorem sortedSubnets_sorted (replaces : Bool) (items : List Subnet) :
    SortedSubnets items (sortedSubnets replaces items) where
  ascending :=
    (SortedList.ascending_addAll areItemsTheSame_iff items).imp SortedList.order_lt_iff.1
  added := fun s hs => SortedList.mem_addAll areItemsTheSame_iff items hs
  once := by
    intro s hs
    have hascending : (sortedSubnets replaces items).Pairwise (fun t u => t.compareTo u = .lt) := by
      rw [← order_compare]
      exact SortedList.ascending_addAll areItemsTheSame_iff items
    have hthere : ∃ t ∈ sortedSubnets replaces items, t.compareTo s = .eq := by
      rw [← order_compare]
      exact (SortedList.exists_addAll areItemsTheSame_iff items s).2
        ⟨s, hs, Std.ReflCmp.compare_self⟩
    obtain ⟨t, ht, heq⟩ := hthere
    refine ⟨t, ⟨ht, (Subnet.compareTo_eq_iff t s).1 heq⟩, ?_⟩
    rintro u ⟨hu, hequals⟩
    have hsame : u.compareTo t = .eq :=
      Std.TransCmp.eq_trans ((Subnet.compareTo_eq_iff u s).2 hequals) (Std.OrientedCmp.eq_symm heq)
    exact OrderedSet.eq_of_ascending hascending hu ht hsame

/-- `compareTo` is a total order of the subnets, and whatever is added in whatever order, the list has
each subnet once and in its place. -/
theorem compareTo_sorts :
    IsSubnetOrder Subnet.compareToInt ∧
      ∀ replaces items, SortedSubnets items (sortedSubnets replaces items) :=
  ⟨isSubnetOrder_compareToInt, sortedSubnets_sorted⟩

end Net
end SpinVpn
