import SpinVpn.Utils.Text

/-!
# TimeUnit — the connection time as a clock

`toTimeUnitStr` of `Utils.kt`, which shows the milliseconds that a connection has lasted.  Minutes and
seconds are what is left of the next greater unit, and the hours are what is left of a day, which has no
field of its own.  So the clock is that of the time modulo a day (`readClock_toTimeUnitStr`): it is
right up to the first day, and starts anew with each one (`toTimeUnitStr_iff`).
-/

namespace SpinVpn
namespace Utils

/-! ## Writing -/

def fixTimeUnitLength (s : String) : String :=
  if s.length = 1 then "0" ++ s else s

namespace Long

/-- `Long.fixTimeUnitLength` -/
def fixTimeUnitLength (t : Int64) : String :=
  Utils.fixTimeUnitLength (toString t.toInt)

def getHour (t : Int64) : Int64 :=
  (t % (1000 * 60 * 60 * 24)) / (1000 * 60 * 60)

def getMin (t : Int64) : Int64 :=
  (t % (1000 * 60 * 60)) / (1000 * 60)

def getSec (t : Int64) : Int64 :=
  (t % (1000 * 60)) / 1000

def toTimeUnitStr (t : Int64) : String :=
  fixTimeUnitLength (getHour t) ++ ":" ++ fixTimeUnitLength (getMin t) ++ ":" ++
    fixTimeUnitLength (getSec t)

end Long

/-! ## Reading -/

/-- A field has at least two digits. -/
def readField (s : String) : Option Nat :=
  if 2 ≤ s.toList.length ∧ s.toList.all Char.isDigit = true then digits s.toList else none

/-- The seconds that a clock of hours, minutes and seconds shows. -/
def readClock (text : String) : Option Nat :=
  match split2 ':' text with
  | (_, none) => none
  | (hours, some rest) =>
      match split2 ':' rest with
      | (_, none) => none
      | (minutes, some seconds) =>
          match readField hours, readField minutes, readField seconds with
          | some h, some m, some s =>
              if m < 60 ∧ s < 60 then some (h * 3600 + m * 60 + s) else none
          | _, _, _ => none

theorem all_isDigit_toString (n : Nat) : (toString n).toList.all Char.isDigit = true :=
  List.all_eq_true.2 (fun _ hc => isDigit_of_mem_toString hc)

theorem digits_toString (n : Nat) : digits (toString n).toList = some n := by
  rw [show (toString n).toList = Nat.toDigits 10 n from Nat.toList_repr, digits_toDigits]

/-- A zero in front does not change the number. -/
theorem digits_zero_cons {l : List Char} (h : l ≠ []) : digits ('0' :: l) = digits l := by
  rw [digits, digits, if_neg (List.cons_ne_nil _ _), if_neg h, List.foldlM_cons]
  rfl

theorem readField_fixTimeUnitLength (n : Nat) :
    readField (fixTimeUnitLength (toString n)) = some n := by
  have hne : (toString n).toList ≠ [] := by
    rw [show (toString n).toList = Nat.toDigits 10 n from Nat.toList_repr]
    exact Nat.toDigits_ne_nil
  have hpos : 0 < (toString n).toList.length := List.length_pos_of_ne_nil hne
  rw [fixTimeUnitLength]
  split
  · have htext : ("0" ++ toString n).toList = '0' :: (toString n).toList := String.toList_append
    have hlength : 2 ≤ ('0' :: (toString n).toList).length := by
      rw [List.length_cons]
      omega
    have hall : ('0' :: (toString n).toList).all Char.isDigit = true := all_isDigit_toString n
    rw [readField, htext, if_pos ⟨hlength, hall⟩, digits_zero_cons hne, digits_toString]
  · rename_i hlength
    rw [← String.length_toList] at hlength
    rw [readField, if_pos ⟨by omega, all_isDigit_toString n⟩, digits_toString]

theorem colon_not_mem_fixTimeUnitLength (n : Nat) :
    ':' ∉ (fixTimeUnitLength (toString n)).toList := by
  have hdigits : ':' ∉ (toString n).toList := fun hmem =>
    absurd (isDigit_of_mem_toString hmem) (by decide)
  rw [fixTimeUnitLength]
  split
  · have htext : ("0" ++ toString n).toList = '0' :: (toString n).toList := String.toList_append
    rw [htext, List.mem_cons, not_or]
    exact ⟨by decide, hdigits⟩
  · exact hdigits

/-- The text of a clock, as `toTimeUnitStr` puts it together. -/
def clockText (hours minutes seconds : Nat) : String :=
  fixTimeUnitLength (toString hours) ++ ":" ++ fixTimeUnitLength (toString minutes) ++ ":" ++
    fixTimeUnitLength (toString seconds)

theorem split2_colon {before : String} (h : ':' ∉ before.toList) (rest : String) :
    split2 ':' (before ++ ":" ++ rest) = (before, some rest) := by
  have htext : before ++ ":" ++ rest = String.ofList (before.toList ++ ':' :: rest.toList) := by
    refine String.toList_injective ?_
    have hcolon : ":".toList = [':'] := by decide
    simp only [String.toList_append, String.toList_ofList, hcolon, List.append_assoc,
      List.cons_append, List.nil_append]
  rw [htext, split2_append h, String.ofList_toList, String.ofList_toList]

theorem readClock_clockText (hours : Nat) {minutes seconds : Nat} (hm : minutes < 60)
    (hs : seconds < 60) :
    readClock (clockText hours minutes seconds) = some (hours * 3600 + minutes * 60 + seconds) := by
  have hfirst : split2 ':' (clockText hours minutes seconds) =
      (fixTimeUnitLength (toString hours), some (fixTimeUnitLength (toString minutes) ++ ":" ++
        fixTimeUnitLength (toString seconds))) := by
    have hsplit := split2_colon (colon_not_mem_fixTimeUnitLength hours)
      (fixTimeUnitLength (toString minutes) ++ ":" ++ fixTimeUnitLength (toString seconds))
    simp only [String.append_assoc] at hsplit
    simpa only [clockText, String.append_assoc] using hsplit
  have hsecond := split2_colon (colon_not_mem_fixTimeUnitLength minutes)
    (fixTimeUnitLength (toString seconds))
  rw [readClock, hfirst]
  simp only [hsecond, readField_fixTimeUnitLength, if_pos (And.intro hm hs)]

namespace Long

/-! ## The three units -/

/-- What is left of the greater unit, in the smaller one. -/
theorem toInt_unit {t greater smaller : Int64} (ht : 0 ≤ t) (hgreater : 0 < greater.toInt)
    (hsmaller : 0 < smaller.toInt) :
    (t % greater / smaller).toInt = t.toInt % greater.toInt / smaller.toInt := by
  have hnonneg : 0 ≤ t.toInt := Int64.le_iff_toInt_le.1 ht
  have hmod : (t % greater).toInt = t.toInt % greater.toInt := by
    rw [Int64.toInt_mod, Int.tmod_eq_emod_of_nonneg hnonneg]
  have hrest : 0 ≤ t.toInt % greater.toInt := Int.emod_nonneg _ (Int.ne_of_gt hgreater)
  have hne : smaller ≠ -1 := by
    rintro rfl
    exact absurd hsmaller (by decide)
  rw [Int64.toInt_div_of_ne_right _ _ hne, hmod, Int.tdiv_eq_ediv_of_nonneg hrest]

theorem fixTimeUnitLength_unit {t greater smaller : Int64} (ht : 0 ≤ t) (hgreater : 0 < greater.toInt)
    (hsmaller : 0 < smaller.toInt) :
    fixTimeUnitLength (t % greater / smaller) = Utils.fixTimeUnitLength
      (toString (t.toInt.toNat % greater.toInt.toNat / smaller.toInt.toNat)) := by
  have hnonneg : 0 ≤ t.toInt := Int64.le_iff_toInt_le.1 ht
  have hunit : (t % greater / smaller).toInt =
      ((t.toInt.toNat % greater.toInt.toNat / smaller.toInt.toNat : Nat) : Int) := by
    rw [toInt_unit ht hgreater hsmaller, Int.natCast_ediv, Int.natCast_emod,
      Int.toNat_of_nonneg hnonneg, Int.toNat_of_nonneg (Int.le_of_lt hgreater),
      Int.toNat_of_nonneg (Int.le_of_lt hsmaller)]
  rw [fixTimeUnitLength, hunit]
  rfl

theorem toTimeUnitStr_eq {t : Int64} (ht : 0 ≤ t) :
    toTimeUnitStr t = clockText (t.toInt.toNat % 86400000 / 3600000)
      (t.toInt.toNat % 3600000 / 60000) (t.toInt.toNat % 60000 / 1000) := by
  rw [toTimeUnitStr, getHour, getMin, getSec, fixTimeUnitLength_unit ht (by decide) (by decide),
    fixTimeUnitLength_unit ht (by decide) (by decide), fixTimeUnitLength_unit ht (by decide) (by decide)]
  rfl

/-- The clock shows the time without the days. -/
theorem readClock_toTimeUnitStr {t : Int64} (ht : 0 ≤ t) :
    readClock (toTimeUnitStr t) = some (t.toInt.toNat / 1000 % 86400) := by
  rw [toTimeUnitStr_eq ht, readClock_clockText _ (by omega) (by omega)]
  congr 1
  omega

/-- Two times have one clock exactly if they are whole days apart, up to a second. -/
theorem toTimeUnitStr_eq_iff {t u : Int64} (ht : 0 ≤ t) (hu : 0 ≤ u) :
    toTimeUnitStr t = toTimeUnitStr u ↔
      t.toInt.toNat / 1000 % 86400 = u.toInt.toNat / 1000 % 86400 := by
  constructor
  · intro h
    have hread := readClock_toTimeUnitStr ht
    rw [h, readClock_toTimeUnitStr hu] at hread
    exact (Option.some.inj hread).symm
  · intro h
    rw [toTimeUnitStr_eq ht, toTimeUnitStr_eq hu]
    have hhours : t.toInt.toNat % 86400000 / 3600000 = u.toInt.toNat % 86400000 / 3600000 := by omega
    have hminutes : t.toInt.toNat % 3600000 / 60000 = u.toInt.toNat % 3600000 / 60000 := by omega
    have hseconds : t.toInt.toNat % 60000 / 1000 = u.toInt.toNat % 60000 / 1000 := by omega
    rw [hhours, hminutes, hseconds]

/-- The clock shows the time in seconds exactly before the first day is over, and exactly then no
earlier time has shown the same clock for other seconds. -/
theorem toTimeUnitStr_iff {t : Int64} (ht : 0 ≤ t) :
    (readClock (toTimeUnitStr t) = some (t.toInt.toNat / 1000) ↔ t.toInt < 86400000) ∧
      ((∀ u : Int64, 0 ≤ u → u ≤ t → toTimeUnitStr u = toTimeUnitStr t →
        u.toInt.toNat / 1000 = t.toInt.toNat / 1000) ↔ t.toInt < 86400000) := by
  have hnonneg : 0 ≤ t.toInt := Int64.le_iff_toInt_le.1 ht
  constructor
  · rw [readClock_toTimeUnitStr ht, Option.some.injEq]
    omega
  · constructor
    · intro h
      by_contra hday
      -- the clock of a day before
      have hbefore : (t - 86400000).toInt = t.toInt - 86400000 := by
        have hlt := t.toInt_lt
        have hday' : (86400000 : Int64).toInt = 86400000 := by decide
        rw [Int64.toInt_sub, hday']
        exact Int.bmod_eq_of_le (by omega) (by omega)
      have hzero : (0 : Int64).toInt = 0 := by decide
      have hu : 0 ≤ t - 86400000 := by
        rw [Int64.le_iff_toInt_le, hbefore, hzero]
        omega
      have hle : t - 86400000 ≤ t := by
        rw [Int64.le_iff_toInt_le, hbefore]
        omega
      have hsame : toTimeUnitStr (t - 86400000) = toTimeUnitStr t := by
        rw [toTimeUnitStr_eq_iff hu ht, hbefore]
        omega
      have hseconds := h (t - 86400000) hu hle hsame
      rw [hbefore] at hseconds
      omega
    · intro hday u hu hle hsame
      have hle' := Int64.le_iff_toInt_le.1 hle
      have hmod := (toTimeUnitStr_eq_iff hu ht).1 hsame
      omega

theorem toTimeUnitStr_iff_firstHours :
    readClock (toTimeUnitStr 3725999) = some 3725 ∧ toTimeUnitStr 3725999 = "01:02:05" := by
  have ht : (0 : Int64) ≤ 3725999 := by decide
  exact ⟨(toTimeUnitStr_iff ht).1.2 (by decide), by decide⟩

/-- After a day the clock is that of the start. -/
theorem toTimeUnitStr_day :
    (0 : Int64) ≤ 86400000 ∧ toTimeUnitStr 86400000 = toTimeUnitStr 0 ∧
      readClock (toTimeUnitStr 86400000) ≠ some ((86400000 : Int64).toInt.toNat / 1000) := by
  have ht : (0 : Int64) ≤ 86400000 := by decide
  have hu : (0 : Int64) ≤ 0 := by decide
  refine ⟨ht, (toTimeUnitStr_eq_iff ht hu).2 (by decide), ?_⟩
  rw [readClock_toTimeUnitStr ht]
  decide

end Long

end Utils
end SpinVpn
