import SpinVpn.Utils.Text

/-!
# Subnet — addresses with a prefix length

`net/Subnet.kt`.  How an address is written and read is the platform's business (`AddressText`);
what the program relies on there is `AddressText.Lawful`.  A subnet that was read is read again from
what it is printed as (`fromString_toString`).
-/

namespace SpinVpn
namespace Net

open Utils

/-! ## Addresses -/

/-- `java.net.InetAddress`: the octets of an IPv4 or IPv6 address, and the zone of the latter. -/
structure InetAddress where
  address : List UInt8
  zone : Option String := none
  size : address.length = 4 ∨ address.length = 16
  deriving DecidableEq

namespace InetAddress

def addressLength (a : InetAddress) : Nat :=
  8 * a.address.length

theorem addressLength_le (a : InetAddress) : a.addressLength ≤ 128 := by
  rw [addressLength]
  rcases a.size with h | h
  · rw [h]
    decide
  · rw [h]

end InetAddress

/-- The characters of a textual address. -/
def isAddressChar (c : Char) : Bool :=
  c ≠ '/' && c ≠ '#' && c ≠ '[' && !isWhitespace c

structure AddressText where
  parseNumericAddress : String → Option InetAddress
  hostAddress : InetAddress → String

/-- The textual form of an address that was read is that address again.  It is never empty, and
has none of the characters that separate addresses from what stands around them. -/
structure AddressText.Lawful (T : AddressText) : Prop where
  inverse : ∀ {text a}, T.parseNumericAddress text = some a →
    T.parseNumericAddress (T.hostAddress a) = some a
  nonempty : ∀ {text a}, T.parseNumericAddress text = some a → T.hostAddress a ≠ ""
  chars : ∀ {text a}, T.parseNumericAddress text = some a →
    ∀ c ∈ (T.hostAddress a).toList, isAddressChar c = true

/-! ## Subnets -/

@[ext]
structure Subnet where
  address : InetAddress
  prefixSize : Nat
  le : prefixSize ≤ address.addressLength
  deriving DecidableEq

namespace Subnet

def fromString (T : AddressText) (value : String) : Option Subnet :=
  match T.parseNumericAddress (split2 '/' value).1, (split2 '/' value).2 with
  | none, _ => none
  -- without a slash, the subnet is the address alone
  | some addr, none => some { address := addr, prefixSize := addr.addressLength, le := Nat.le_refl _ }
  | some addr, some size =>
      match toInt size with
      -- NumberFormatException
      | none => none
      | some n =>
          if h : 0 ≤ n ∧ n.toNat ≤ addr.addressLength then
            some { address := addr, prefixSize := n.toNat, le := h.2 }
          else none

def toString (T : AddressText) (s : Subnet) : String :=
  if s.prefixSize = s.address.addressLength then T.hostAddress s.address
  else String.ofList ((T.hostAddress s.address).toList ++ '/' :: (ToString.toString s.prefixSize).toList)

/-- IPv4 goes first; octets are compared without their sign. -/
def compareTo : Subnet → Subnet → Ordering :=
  compareLex (compareOn (fun s => s.address.address.length))
    (compareLex (compareOn (fun s => s.address.address.map UInt8.toNat))
      (compareOn (fun s => s.prefixSize)))

instance : Std.TransCmp compareTo :=
  inferInstanceAs (Std.TransCmp (compareLex _ (compareLex _ _)))

/-- The zone of an address does not count. -/
def equals (s t : Subnet) : Prop :=
  s.address.address = t.address.address ∧ s.prefixSize = t.prefixSize

instance (s t : Subnet) : Decidable (s.equals t) :=
  inferInstanceAs (Decidable (_ ∧ _))

theorem compareTo_eq_iff (s t : Subnet) : compareTo s t = .eq ↔ s.equals t := by
  have hoctets : s.address.address.map UInt8.toNat = t.address.address.map UInt8.toNat ↔
      s.address.address = t.address.address :=
    (List.map_injective_iff.2 (fun _ _ h => UInt8.toNat_inj.1 h)).eq_iff
  simp only [compareTo, compareLex, compareOn, Ordering.then_eq_eq,
    Std.LawfulEqCmp.compare_eq_iff_eq, hoctets, equals]
  constructor
  · rintro ⟨-, haddress, hsize⟩
    exact ⟨haddress, hsize⟩
  · rintro ⟨haddress, hsize⟩
    exact ⟨congrArg List.length haddress, haddress, hsize⟩

/-! ## Printing and reading -/

section Read

variable {T : AddressText} {s : Subnet}

/-- The address was read from a text. -/
def Read (T : AddressText) (s : Subnet) : Prop :=
  ∃ text, T.parseNumericAddress text = some s.address

theorem read_of_fromString {value : String} (h : fromString T value = some s) : Read T s := by
  unfold fromString at h
  split at h
  · cases h
  · rename_i addr haddr _
    cases h
    exact ⟨_, haddr⟩
  · rename_i addr size haddr _
    split at h
    · cases h
    · split at h
      · cases h
        exact ⟨_, haddr⟩
      · cases h

theorem fromString_toString (hT : T.Lawful) (h : Read T s) :
    fromString T (s.toString T) = some s := by
  rcases h with ⟨text, htext⟩
  have hslash : '/' ∉ (T.hostAddress s.address).toList := by
    intro hmem
    exact absurd (hT.chars htext _ hmem) (by decide)
  rw [toString]
  split
  · rename_i hfull
    -- the full length is not printed, and it is the default
    rw [fromString, split2_of_not_mem hslash, hT.inverse htext]
    exact congrArg some (Subnet.ext rfl hfull.symm)
  · -- no prefix is too long for `toInt`
    have hbound : s.prefixSize ≤ 2147483647 :=
      Nat.le_trans s.le (Nat.le_trans s.address.addressLength_le (by decide))
    rw [fromString, split2_append hslash, String.ofList_toList, String.ofList_toList,
      hT.inverse htext]
    simp only [toInt_toString hbound]
    rw [dif_pos ⟨Int.natCast_nonneg _, s.le⟩]
    rfl

theorem toString_ne_empty (hT : T.Lawful) (h : Read T s) : s.toString T ≠ "" := by
  rcases h with ⟨text, htext⟩
  rw [toString]
  split
  · exact hT.nonempty htext
  · intro hempty
    have hnil := congrArg String.toList hempty
    simp at hnil

/-- A printed subnet is a word that starts no comment and no block. -/
theorem toString_chars (hT : T.Lawful) (h : Read T s) {c : Char}
    (hc : c ∈ (s.toString T).toList) : c ≠ '#' ∧ c ≠ '[' ∧ isWhitespace c = false := by
  rcases h with ⟨text, htext⟩
  have haddress : ∀ d ∈ (T.hostAddress s.address).toList,
      d ≠ '#' ∧ d ≠ '[' ∧ isWhitespace d = false := by
    intro d hd
    have hchar := hT.chars htext d hd
    simp only [isAddressChar, Bool.and_eq_true, decide_eq_true_eq, Bool.not_eq_true'] at hchar
    exact ⟨hchar.1.1.2, hchar.1.2, hchar.2⟩
  rw [toString] at hc
  split at hc
  · exact haddress c hc
  · rw [String.toList_ofList, List.mem_append, List.mem_cons] at hc
    rcases hc with hc | rfl | hc
    · exact haddress c hc
    · decide
    · have hdigit := isDigit_of_mem_toString hc
      exact ⟨ne_of_isDigit hdigit (by decide), ne_of_isDigit hdigit (by decide),
        isWhitespace_of_isDigit hdigit⟩

end Read

end Subnet

end Net
end SpinVpn
