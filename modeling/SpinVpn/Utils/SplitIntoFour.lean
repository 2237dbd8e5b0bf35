import Mathlib.Data.List.Basic

/-!
# SplitIntoFour — taking the fillers out of the delivered data

`splitIntoFour` of `utils/SpinUtils.kt`.  The server cuts its Base64 text into four parts and puts
five characters behind each of them; the application cuts what it receives into four parts again and
drops five characters from each.  The cuts fall on the same places, although they are computed from
different lengths, and what is decoded is the text of the server (`splitIntoFour_spec`).
-/

namespace SpinVpn
namespace Utils
namespace SpinUtils

/-- A Kotlin string: its UTF-16 code units. -/
abbrev Units : Type :=
  List UInt16

/-- `none` stands for `StringIndexOutOfBoundsException`. -/
def substring (s : Units) (startIndex endIndex : Nat) : Option Units :=
  if startIndex ≤ endIndex ∧ endIndex ≤ s.length then
    some ((s.drop startIndex).take (endIndex - startIndex))
  else none

/-- `take((length - n).coerceAtLeast(0))` -/
def dropLast (s : Units) (n : Nat) : Units :=
  s.take (s.length - n)

def part (input : Units) (i : Nat) : Option Units :=
  let chunkSize := input.length / 4
  let startIndex := i * chunkSize
  let endIndex := if i = 3 then input.length else (i + 1) * chunkSize
  (substring input startIndex endIndex).map (fun s => dropLast s 5)

section Program

variable {β : Type} (decode : Units → β)

/-- `decode` is `Base64Utils.decode`. -/
def encodeWithBase64 (parts : List Units) : β :=
  decode parts.flatten

def splitIntoFour (input : Units) : Option β :=
  ([0, 1, 2, 3].mapM (part input)).map (encodeWithBase64 decode)

end Program

/-! ## The server -/

abbrev Filler : Type :=
  { f : Units // f.length = 5 }

/-- Four parts, each with a filler behind it; the last part takes the remainder. -/
def obfuscate (b : Units) (f₀ f₁ f₂ f₃ : Filler) : Units :=
  let q := b.length / 4
  b.take q ++ f₀.val ++ ((b.drop q).take q ++ f₁.val) ++ ((b.drop (2 * q)).take q ++ f₂.val) ++
    (b.drop (3 * q) ++ f₃.val)

/-! ## Parts -/

theorem dropLast_append {s : Units} (f : Filler) : dropLast (s ++ f.val) 5 = s := by
  have hlength : (s ++ f.val).length - 5 = s.length := by
    rw [List.length_append, f.property, Nat.add_sub_cancel]
  rw [dropLast, hlength, List.take_left]

theorem substring_append (front s back : Units) :
    substring (front ++ s ++ back) front.length (front.length + s.length) = some s := by
  have hrange : front.length ≤ front.length + s.length ∧
      front.length + s.length ≤ (front ++ s ++ back).length := by
    simp only [List.length_append]
    omega
  rw [substring, if_pos hrange, Nat.add_sub_cancel_left, List.append_assoc, List.drop_left,
    List.take_left]

/-- A part that stands between the two indices, without its filler. -/
theorem part_eq {input s : Units} {i : Nat} (f : Filler) (front back : Units)
    (hinput : input = front ++ (s ++ f.val) ++ back) (hfront : front.length = i * (input.length / 4))
    (hend : front.length + (s ++ f.val).length =
      if i = 3 then input.length else (i + 1) * (input.length / 4)) :
    part input i = some s := by
  have hpart : substring input (i * (input.length / 4))
      (if i = 3 then input.length else (i + 1) * (input.length / 4)) = some (s ++ f.val) := by
    rw [← hend, ← hfront, hinput]
    exact substring_append front (s ++ f.val) back
  simp only [part, hpart, Option.map_some, dropLast_append]

/-- No index is out of range, however short the input is. -/
theorem part_isSome (input : Units) {i : Nat} (hi : i ≤ 3) : (part input i).isSome = true := by
  have hfour : input.length / 4 * 4 ≤ input.length := Nat.div_mul_le_self _ _
  have hrange : i * (input.length / 4) ≤
        (if i = 3 then input.length else (i + 1) * (input.length / 4)) ∧
      (if i = 3 then input.length else (i + 1) * (input.length / 4)) ≤ input.length := by
    split
    · rename_i h
      subst h
      omega
    · have hle : (i + 1) * (input.length / 4) ≤ 4 * (input.length / 4) :=
        Nat.mul_le_mul_right _ (by omega)
      rw [Nat.add_mul] at hle ⊢
      omega
  simp only [part, substring, if_pos hrange, Option.map_some, Option.isSome_some]

/-! ## The text -/

section Text

variable {p₀ p₁ p₂ p₃ : Units} {q : Nat} (f₀ f₁ f₂ f₃ : Filler)

/-- Three parts of one length and a last one that may be longer: the cuts fall behind the fillers. -/
theorem mapM_part (h₀ : p₀.length = q) (h₁ : p₁.length = q) (h₂ : p₂.length = q)
    (h₃ : q ≤ p₃.length ∧ p₃.length < q + 4) :
    [0, 1, 2, 3].mapM (part (p₀ ++ f₀.val ++ (p₁ ++ f₁.val) ++ (p₂ ++ f₂.val) ++ (p₃ ++ f₃.val))) =
      some [p₀, p₁, p₂, p₃] := by
  set input := p₀ ++ f₀.val ++ (p₁ ++ f₁.val) ++ (p₂ ++ f₂.val) ++ (p₃ ++ f₃.val) with hinput
  have hlength : input.length = 3 * q + p₃.length + 20 := by
    rw [hinput]
    simp only [List.length_append, h₀, h₁, h₂, f₀.property, f₁.property, f₂.property, f₃.property]
    omega
  have hchunk : input.length / 4 = q + 5 := by omega
  have hpart₀ : part input 0 = some p₀ := by
    refine part_eq f₀ [] ((p₁ ++ f₁.val) ++ (p₂ ++ f₂.val) ++ (p₃ ++ f₃.val)) ?_ ?_ ?_
    · simp [hinput]
    · simp
    · rw [hchunk]
      simp [h₀, f₀.property]
  have hpart₁ : part input 1 = some p₁ := by
    refine part_eq f₁ (p₀ ++ f₀.val) ((p₂ ++ f₂.val) ++ (p₃ ++ f₃.val)) ?_ ?_ ?_
    · simp [hinput]
    · simp [hchunk, h₀, f₀.property]
    · rw [hchunk]
      simp [h₀, h₁, f₀.property, f₁.property]
      omega
  have hpart₂ : part input 2 = some p₂ := by
    refine part_eq f₂ (p₀ ++ f₀.val ++ (p₁ ++ f₁.val)) (p₃ ++ f₃.val) ?_ ?_ ?_
    · simp [hinput]
    · simp [hchunk, h₀, h₁, f₀.property, f₁.property]
      omega
    · rw [hchunk]
      simp [h₀, h₁, h₂, f₀.property, f₁.property, f₂.property]
      omega
  have hpart₃ : part input 3 = some p₃ := by
    refine part_eq f₃ (p₀ ++ f₀.val ++ (p₁ ++ f₁.val) ++ (p₂ ++ f₂.val)) [] ?_ ?_ ?_
    · simp [hinput]
    · simp [hchunk, h₀, h₁, h₂, f₀.property, f₁.property, f₂.property]
      omega
    · rw [if_pos rfl, hlength]
      simp [h₀, h₁, h₂, f₀.property, f₁.property, f₂.property, f₃.property]
      omega
  simp [hpart₀, hpart₁, hpart₂, hpart₃]

/-- The four parts make up the text. -/
theorem flatten_cuts (b : Units) (q : Nat) :
    [b.take q, (b.drop q).take q, (b.drop (2 * q)).take q, b.drop (3 * q)].flatten = b := by
  have hlast : (b.drop (2 * q)).take q ++ b.drop (3 * q) = b.drop (2 * q) := by
    have hthree : b.drop (3 * q) = (b.drop (2 * q)).drop q := by
      rw [List.drop_drop]
      congr 1
      omega
    rw [hthree, List.take_append_drop]
  have hmiddle : (b.drop q).take q ++ b.drop (2 * q) = b.drop q := by
    have htwo : b.drop (2 * q) = (b.drop q).drop q := by
      rw [List.drop_drop]
      congr 1
      omega
    rw [htwo, List.take_append_drop]
  calc
    [b.take q, (b.drop q).take q, (b.drop (2 * q)).take q, b.drop (3 * q)].flatten
        = b.take q ++ ((b.drop q).take q ++ ((b.drop (2 * q)).take q ++ b.drop (3 * q))) := by simp
    _ = b.take q ++ ((b.drop q).take q ++ b.drop (2 * q)) := by rw [hlast]
    _ = b.take q ++ b.drop q := by rw [hmiddle]
    _ = b := List.take_append_drop q b

end Text

theorem splitIntoFour_spec {β : Type} (decode : Units → β) :
    (∀ (b : Units) (f₀ f₁ f₂ f₃ : Filler),
      splitIntoFour decode (obfuscate b f₀ f₁ f₂ f₃) = some (decode b)) ∧
      ∀ input : Units, (splitIntoFour decode input).isSome = true := by
  constructor
  · intro b f₀ f₁ f₂ f₃
    have h₀ : (b.take (b.length / 4)).length = b.length / 4 := by
      rw [List.length_take]
      omega
    have h₁ : ((b.drop (b.length / 4)).take (b.length / 4)).length = b.length / 4 := by
      rw [List.length_take, List.length_drop]
      omega
    have h₂ : ((b.drop (2 * (b.length / 4))).take (b.length / 4)).length = b.length / 4 := by
      rw [List.length_take, List.length_drop]
      omega
    have h₃ : b.length / 4 ≤ (b.drop (3 * (b.length / 4))).length ∧
        (b.drop (3 * (b.length / 4))).length < b.length / 4 + 4 := by
      rw [List.length_drop]
      omega
    rw [splitIntoFour, obfuscate, mapM_part f₀ f₁ f₂ f₃ h₀ h₁ h₂ h₃, Option.map_some,
      encodeWithBase64, flatten_cuts]
  · intro input
    obtain ⟨s₀, h₀⟩ := Option.isSome_iff_exists.1 (part_isSome input (i := 0) (by omega))
    obtain ⟨s₁, h₁⟩ := Option.isSome_iff_exists.1 (part_isSome input (i := 1) (by omega))
    obtain ⟨s₂, h₂⟩ := Option.isSome_iff_exists.1 (part_isSome input (i := 2) (by omega))
    obtain ⟨s₃, h₃⟩ := Option.isSome_iff_exists.1 (part_isSome input (i := 3) (by omega))
    simp [splitIntoFour, h₀, h₁, h₂, h₃]

end SpinUtils
end Utils
end SpinVpn
