import Mathlib.Data.List.DropRight

/-!
# Text — the string functions of the standard library

What the list formats of the program are read with: `trim`, `split` with a limit of two,
`String.toInt`, the lines of a `Reader`, and the order of strings.
-/

namespace SpinVpn
namespace Utils

/-! ## Blanks -/

/-- `Char.isWhitespace`: the separators of Unicode and some control characters. -/
def isWhitespace (c : Char) : Bool :=
  (0x09 ≤ c.toNat && c.toNat ≤ 0x0d) || (0x1c ≤ c.toNat && c.toNat ≤ 0x20) ||
    (0x2000 ≤ c.toNat && c.toNat ≤ 0x200a) ||
    [0xa0, 0x1680, 0x2028, 0x2029, 0x202f, 0x205f, 0x3000].contains c.toNat

def trim (s : String) : String :=
  String.ofList ((s.toList.dropWhile isWhitespace).rdropWhile isWhitespace)

theorem mem_trim {s : String} {c : Char} (h : c ∈ (trim s).toList) : c ∈ s.toList := by
  rw [trim, String.toList_ofList] at h
  exact (List.dropWhile_suffix _).subset ((List.rdropWhile_prefix _ _).subset h)

theorem dropWhile_rdropWhile {p : Char → Bool} (l : List Char) :
    ((l.dropWhile p).rdropWhile p).dropWhile p = (l.dropWhile p).rdropWhile p := by
  cases hl : (l.dropWhile p).rdropWhile p with
  | nil => rfl
  | cons c m =>
      -- the first character was the first one before the end was cut off, too
      have hprefix := List.rdropWhile_prefix p (l.dropWhile p)
      rw [hl] at hprefix
      rcases hprefix with ⟨tail, htail⟩
      have hc : p c = false := by
        have hhead := List.head?_dropWhile_not p l
        rw [← htail] at hhead
        simpa using hhead
      rw [List.dropWhile_cons_of_neg (by simp [hc])]

theorem trim_trim (s : String) : trim (trim s) = trim s := by
  rw [trim, trim, String.toList_ofList, dropWhile_rdropWhile, List.rdropWhile_idempotent]

/-- Nothing is cut off where neither end is blank. -/
theorem trim_eq_of_ends {s : String} (hhead : ∀ c ∈ s.toList.head?, isWhitespace c = false)
    (hlast : ∀ c ∈ s.toList.getLast?, isWhitespace c = false) : trim s = s := by
  have hdrop : ∀ l : List Char, (∀ c ∈ l.head?, isWhitespace c = false) →
      l.dropWhile isWhitespace = l := by
    intro l hl
    cases l with
    | nil => rfl
    | cons c l => rw [List.dropWhile_cons_of_neg (by simp [hl c rfl])]
  -- the end is the beginning of the reversed text
  have hreverse := hdrop s.toList.reverse (fun c hc => hlast c (List.head?_reverse ▸ hc))
  calc
    trim s = String.ofList (s.toList.rdropWhile isWhitespace) := by rw [trim, hdrop s.toList hhead]
    _ = String.ofList s.toList.reverse.reverse := by rw [List.rdropWhile, hreverse]
    _ = s := by rw [List.reverse_reverse, String.ofList_toList]

theorem trim_eq_self {s : String} (h : ∀ c ∈ s.toList, isWhitespace c = false) : trim s = s := by
  apply trim_eq_of_ends
  · intro c hc
    exact h c (List.mem_of_mem_head? hc)
  · intro c hc
    exact h c (List.mem_of_mem_getLast? hc)

/-! ## Parts -/

/-- `String.split` at a character, with a limit of two. -/
def split2 (sep : Char) (s : String) : String × Option String :=
  (String.ofList (s.toList.takeWhile (fun c => c ≠ sep)),
    match s.toList.dropWhile (fun c => c ≠ sep) with
    | [] => none
    | _ :: rest => some (String.ofList rest))

theorem not_mem_split2 (sep : Char) (s : String) : sep ∉ (split2 sep s).1.toList := by
  intro h
  rw [split2, String.toList_ofList] at h
  simpa using List.mem_takeWhile_imp h

theorem mem_split2_fst {sep c : Char} {s : String} (h : c ∈ (split2 sep s).1.toList) :
    c ∈ s.toList := by
  rw [split2, String.toList_ofList] at h
  exact (List.takeWhile_prefix _).subset h

theorem forall_ne_of_not_mem {sep : Char} {l : List Char} (h : sep ∉ l) :
    ∀ c ∈ l, decide (c ≠ sep) = true := by
  intro c hc
  have hne : c ≠ sep := fun heq => h (heq ▸ hc)
  simpa using hne

theorem split2_of_not_mem {sep : Char} {s : String} (h : sep ∉ s.toList) :
    split2 sep s = (s, none) := by
  have hall := forall_ne_of_not_mem h
  rw [split2, List.takeWhile_eq_self_iff.2 hall, List.dropWhile_eq_nil_iff.2 hall,
    String.ofList_toList]

theorem split2_append {sep : Char} {l : List Char} (h : sep ∉ l) (m : List Char) :
    split2 sep (String.ofList (l ++ sep :: m)) = (String.ofList l, some (String.ofList m)) := by
  have hall := forall_ne_of_not_mem h
  rw [split2, String.toList_ofList, List.takeWhile_append_of_pos hall,
    List.dropWhile_append_of_pos hall, List.takeWhile_cons_of_neg (by simp),
    List.dropWhile_cons_of_neg (by simp), List.append_nil]

/-! ## Numbers -/

/-- The zeros of the decimal digits in the basic plane; the others follow them. -/
def decimalZeros : List Nat :=
  [0x30, 0x660, 0x6f0, 0x7c0, 0x966, 0x9e6, 0xa66, 0xae6, 0xb66, 0xbe6, 0xc66, 0xce6, 0xd66, 0xde6,
    0xe50, 0xed0, 0xf20, 0x1040, 0x1090, 0x17e0, 0x1810, 0x1946, 0x19d0, 0x1a80, 0x1a90, 0x1b50,
    0x1bb0, 0x1c40, 0x1c50, 0xa620, 0xa8d0, 0xa900, 0xa9d0, 0xa9f0, 0xaa50, 0xabf0, 0xff10]

/-- `Character.digit` with radix ten. -/
def digit (c : Char) : Option Nat :=
  (decimalZeros.find? (fun base => base ≤ c.toNat && c.toNat < base + 10)).map
    (fun base => c.toNat - base)

def digits (l : List Char) : Option Nat :=
  if l = [] then none else l.foldlM (fun n c => (digit c).map (fun d => 10 * n + d)) 0

/-- `String.toInt`; `none` stands for the exception. -/
def toInt (s : String) : Option Int :=
  match s.toList with
  | '-' :: l => (digits l).bind (fun n => if n ≤ 2147483648 then some (-(n : Int)) else none)
  | '+' :: l => (digits l).bind (fun n => if n ≤ 2147483647 then some (n : Int) else none)
  | l => (digits l).bind (fun n => if n ≤ 2147483647 then some (n : Int) else none)

theorem digit_of_isDigit {c : Char} (h : c.isDigit = true) : digit c = some (c.toNat - '0'.toNat) := by
  have hrange : 0x30 ≤ c.toNat ∧ c.toNat < 0x30 + 10 := by
    simp only [Char.isDigit, Bool.and_eq_true, decide_eq_true_eq] at h
    exact ⟨h.1, Nat.lt_succ_of_le h.2⟩
  -- the first of the zeros is the right one
  have hfind : decimalZeros.find? (fun base => base ≤ c.toNat && c.toNat < base + 10) = some 0x30 := by
    rw [decimalZeros, List.find?_cons_of_pos]
    simpa using hrange
  rw [digit, hfind, Option.map_some]
  rfl

theorem foldlM_digits (l : List Char) :
    ∀ n : Nat, (∀ c ∈ l, c.isDigit = true) →
      l.foldlM (fun n c => (digit c).map (fun d => 10 * n + d)) n = some (Nat.ofDigitChars 10 l n) := by
  induction l with
  | nil =>
      intro n _
      rfl
  | cons c l ih =>
      intro n h
      rw [List.foldlM_cons, digit_of_isDigit (h c List.mem_cons_self)]
      exact ih _ (fun d hd => h d (List.mem_cons_of_mem _ hd))

theorem digits_toDigits (n : Nat) : digits (Nat.toDigits 10 n) = some n := by
  have hdigit : ∀ c ∈ Nat.toDigits 10 n, c.isDigit = true := fun c hc =>
    Nat.isDigit_of_mem_toDigits (by decide) (by decide) hc
  rw [digits, if_neg Nat.toDigits_ne_nil, foldlM_digits _ _ hdigit, Nat.ofDigitChars_ten_toDigits]

theorem isDigit_of_mem_toString {n : Nat} {c : Char} (hc : c ∈ (toString n).toList) :
    c.isDigit = true :=
  Nat.isDigit_of_mem_toDigits (by decide) (by decide) (Nat.toList_repr ▸ hc)

theorem toInt_toString {n : Nat} (h : n ≤ 2147483647) : toInt (toString n) = some (n : Int) := by
  have hlist : (toString n).toList = Nat.toDigits 10 n := Nat.toList_repr
  have hdigit : ∀ c ∈ Nat.toDigits 10 n, c.isDigit = true := fun c hc =>
    isDigit_of_mem_toString (hlist ▸ hc)
  rw [toInt, hlist]
  split
  -- a number that is printed starts with neither of the two signs
  · rename_i l heq
    have hminus := hdigit '-' (heq ▸ List.mem_cons_self)
    exact absurd hminus (by decide)
  · rename_i l heq
    have hplus := hdigit '+' (heq ▸ List.mem_cons_self)
    exact absurd hplus (by decide)
  · rw [digits_toDigits, Option.bind_some, if_pos h]

theorem toString_nat_inj {m n : Nat} (h : toString m = toString n) : m = n := by
  have hdigits : Nat.toDigits 10 m = Nat.toDigits 10 n := by
    rw [← Nat.toList_repr, ← Nat.toList_repr]
    exact congrArg String.toList h
  have hm := digits_toDigits m
  rw [hdigits, digits_toDigits] at hm
  exact (Option.some.inj hm).symm

theorem toList_toString_int (n : Int) :
    (toString n).toList = (if n < 0 then ['-'] else []) ++ (toString n.natAbs).toList := by
  cases n with
  | ofNat n => rfl
  | negSucc n =>
      rw [if_pos (Int.negSucc_lt_zero n)]
      exact String.toList_append

theorem mem_toString_int {n : Int} {c : Char} (hc : c ∈ (toString n).toList) :
    c = '-' ∨ c.isDigit = true := by
  rw [toList_toString_int] at hc
  rcases List.mem_append.1 hc with hsign | hdigit
  · split at hsign
    · exact Or.inl (List.mem_singleton.1 hsign)
    · cases hsign
  · exact Or.inr (isDigit_of_mem_toString hdigit)

theorem toString_int_inj {m n : Int} (h : toString m = toString n) : m = n := by
  have hlists := congrArg String.toList h
  rw [toList_toString_int, toList_toString_int] at hlists
  have hminus : ∀ k : Nat, ∀ l, (toString k).toList ≠ '-' :: l := by
    intro k l hk
    have hdigit := isDigit_of_mem_toString (n := k) (c := '-') (hk ▸ List.mem_cons_self)
    exact absurd hdigit (by decide)
  -- the signs are the same, and then the digits are
  by_cases hm : m < 0 <;> by_cases hn : n < 0
  · rw [if_pos hm, if_pos hn] at hlists
    have habs := toString_nat_inj (String.toList_injective (List.append_cancel_left hlists))
    omega
  · rw [if_pos hm, if_neg hn] at hlists
    exact absurd hlists.symm (hminus _ _)
  · rw [if_neg hm, if_pos hn] at hlists
    exact absurd hlists (hminus _ _)
  · rw [if_neg hm, if_neg hn] at hlists
    have habs := toString_nat_inj (String.toList_injective (List.append_cancel_left hlists))
    omega

/-- A digit is no blank, and no mark either. -/
theorem ne_of_isDigit {c d : Char} (hc : c.isDigit = true) (hd : d.isDigit = false) : c ≠ d := by
  rintro rfl
  rw [hc] at hd
  cases hd

theorem isWhitespace_of_isDigit {c : Char} (h : c.isDigit = true) : isWhitespace c = false := by
  simp only [Char.isDigit, Bool.and_eq_true, decide_eq_true_eq] at h
  have hlow : 48 ≤ c.toNat := h.1
  have hhigh : c.toNat ≤ 57 := h.2
  have hlist : [0xa0, 0x1680, 0x2028, 0x2029, 0x202f, 0x205f, 0x3000].contains c.toNat = false := by
    simp
    omega
  rw [isWhitespace, hlist]
  simp
  omega

/-! ## Lines -/

/-- `BufferedReader.readLine`, again and again: a line ends at a line feed, a carriage return, or a
carriage return with the line feed behind it that is then skipped. -/
def readLines : Bool → List Char → List Char → List String
  | _, line, [] => if line = [] then [] else [String.ofList line]
  | skipLF, line, c :: rest =>
      -- the line before ended at the carriage return already
      if skipLF && c = '\n' then readLines false line rest
      else if c = '\n' ∨ c = '\r' then String.ofList line :: readLines (c = '\r') [] rest
      else readLines false (line ++ [c]) rest

/-- `Reader.useLines` -/
def useLines (text : String) : List String :=
  readLines false [] text.toList

def isBreak (c : Char) : Bool :=
  c = '\n' || c = '\r'

/-- The text has no line break in it. -/
def Unbroken (s : String) : Prop :=
  ∀ c ∈ s.toList, isBreak c = false

theorem unbroken_of_mem_readLines (l : List Char) :
    ∀ (skipLF : Bool) (line : List Char), (∀ c ∈ line, isBreak c = false) →
      ∀ s ∈ readLines skipLF line l, Unbroken s := by
  induction l with
  | nil =>
      intro skipLF line hline s hs
      rw [readLines] at hs
      split at hs
      · cases hs
      · rw [List.mem_singleton.1 hs, Unbroken, String.toList_ofList]
        exact hline
  | cons d l ih =>
      intro skipLF line hline s hs
      rw [readLines] at hs
      split at hs
      · exact ih _ _ hline s hs
      · split at hs
        · rcases List.mem_cons.1 hs with rfl | hs
          · rw [Unbroken, String.toList_ofList]
            exact hline
          · exact ih _ _ (by simp) s hs
        · rename_i hd
          refine ih _ _ ?_ s hs
          intro c hc
          rcases List.mem_append.1 hc with hc | hc
          · exact hline c hc
          · rw [List.mem_singleton.1 hc]
            simpa [isBreak] using hd

theorem unbroken_of_mem_useLines {text line : String} (h : line ∈ useLines text) : Unbroken line :=
  unbroken_of_mem_readLines _ _ _ (by simp) line h

theorem readLines_append (l rest : List Char) :
    ∀ line : List Char, (∀ c ∈ l, isBreak c = false) →
      readLines false line (l ++ '\n' :: rest) =
        String.ofList (line ++ l) :: readLines false [] rest := by
  induction l with
  | nil =>
      intro line _
      simp [readLines]
  | cons c l ih =>
      intro line h
      have hc : ¬ (c = '\n' ∨ c = '\r') := by
        simpa [isBreak] using h c List.mem_cons_self
      rw [List.cons_append, readLines, Bool.false_and, if_neg (by simp), if_neg hc,
        ih _ (fun d hd => h d (List.mem_cons_of_mem _ hd))]
      simp

/-- Lines that are written one by one are read one by one. -/
theorem useLines_flatMap (lines : List String) :
    (∀ line ∈ lines, Unbroken line) →
      useLines (String.ofList (lines.flatMap (fun line => line.toList ++ ['\n']))) = lines := by
  rw [useLines, String.toList_ofList]
  induction lines with
  | nil =>
      intro _
      rfl
  | cons line lines ih =>
      intro h
      have htail := ih (fun l hl => h l (List.mem_cons_of_mem _ hl))
      calc
        readLines false [] ((line :: lines).flatMap (fun line => line.toList ++ ['\n'])) =
            readLines false [] (line.toList ++
              '\n' :: lines.flatMap (fun line => line.toList ++ ['\n'])) := by simp
        _ = String.ofList ([] ++ line.toList) ::
            readLines false [] (lines.flatMap (fun line => line.toList ++ ['\n'])) :=
          readLines_append _ _ _ (h line List.mem_cons_self)
        _ = line :: lines := by simp [htail]

/-! ## Order -/

def utf16Char (c : Char) : List Nat :=
  if c.toNat < 0x10000 then [c.toNat]
  -- a pair of surrogates
  else [0xd800 + (c.toNat - 0x10000) / 0x400, 0xdc00 + (c.toNat - 0x10000) % 0x400]

def utf16 (s : String) : List Nat :=
  s.toList.flatMap utf16Char

/-- `String.compareTo` goes by UTF-16 code units. -/
def compareTo : String → String → Ordering :=
  compareOn utf16

instance : Std.TransCmp compareTo :=
  inferInstanceAs (Std.TransCmp (compareOn utf16))

theorem utf16Char_append_inj {c d : Char} {l m : List Nat}
    (h : utf16Char c ++ l = utf16Char d ++ m) : c = d ∧ l = m := by
  -- no character is a surrogate
  have hc : c.toNat < 0xd800 ∨ 0xdfff < c.toNat ∧ c.toNat < 0x110000 := c.valid
  have hd : d.toNat < 0xd800 ∨ 0xdfff < d.toNat ∧ d.toNat < 0x110000 := d.valid
  rw [utf16Char, utf16Char] at h
  split at h
  · split at h
    · rcases List.cons.inj h with ⟨hhead, htail⟩
      exact ⟨Char.toNat_inj.1 hhead, htail⟩
    · have hhead := (List.cons.inj h).1
      omega
  · split at h
    · have hhead := (List.cons.inj h).1
      omega
    · rcases List.cons.inj h with ⟨hhigh, hrest⟩
      rcases List.cons.inj hrest with ⟨hlow, htail⟩
      refine ⟨Char.toNat_inj.1 ?_, htail⟩
      omega

theorem utf16Char_ne_nil (c : Char) : utf16Char c ≠ [] := by
  rw [utf16Char]
  split <;> exact List.cons_ne_nil _ _

theorem flatMap_utf16Char_inj (l : List Char) :
    ∀ {m : List Char}, l.flatMap utf16Char = m.flatMap utf16Char → l = m := by
  induction l with
  | nil =>
      intro m h
      cases m with
      | nil => rfl
      | cons d m => exact absurd (List.append_eq_nil_iff.1 h.symm).1 (utf16Char_ne_nil d)
  | cons c l ih =>
      intro m h
      cases m with
      | nil => exact absurd (List.append_eq_nil_iff.1 h).1 (utf16Char_ne_nil c)
      | cons d m =>
          rw [List.flatMap_cons, List.flatMap_cons] at h
          rcases utf16Char_append_inj h with ⟨rfl, htail⟩
          rw [ih htail]

/-- No two strings compare equal. -/
instance : Std.LawfulEqCmp compareTo where
  eq_of_compare := by
    intro s t h
    have hunits : utf16 s = utf16 t := Std.LawfulEqCmp.eq_of_compare h
    exact String.toList_inj.1 (flatMap_utf16Char_inj s.toList hunits)

end Utils
end SpinVpn
