import Mathlib.Data.List.Induction
import SpinVpn.Lib.Keyed
import SpinVpn.Lib.Replacing
import SpinVpn.Utils.SplitIntoFour

/-!
# NetTranUtils — texts in escapes

`unicodeEncode` and `unicodeDecode` of `net/NetTranUtils.java`.  The encoder writes each code unit as an
escape, but pads its digits by two zeros or not at all, so that some escapes have three digits.  The
decoder looks for escapes of four digits in the encoded text, and for each replaces all occurrences
there are in the text decoded so far.

So a text comes back exactly if all its code units are padded well, and none of their escapes is spelled
out in the text by code units that have been decoded before its turn (`decode_encode_iff`).
-/

namespace SpinVpn
namespace Net
namespace NetTranUtils

open Utils.SpinUtils (Units)

/-! ## Encoding -/

def backslash : UInt16 :=
  0x5C

def hexDigit (n : Nat) : UInt16 :=
  if n < 10 then 0x30 + UInt16.ofNat n else 0x57 + UInt16.ofNat n

/-- `Integer.toHexString` of a number that is not negative. -/
def toHexString (n : Nat) : Units :=
  if n < 16 then [hexDigit n] else toHexString (n / 16) ++ [hexDigit (n % 16)]
termination_by n
decreasing_by
  omega

/-- What is appended for a code unit. -/
def escape (c : UInt16) : Units :=
  let hexB := toHexString c.toNat
  let hexB := if hexB.length ≤ 2 then 0x30 :: 0x30 :: hexB else hexB
  backslash :: 0x75 :: hexB

def unicodeEncode (string : Units) : Units :=
  string.flatMap escape

/-! ## Decoding -/

/-- `\p{XDigit}` -/
def isXDigit (u : UInt16) : Bool :=
  (0x30 ≤ u && u ≤ 0x39) || (0x41 ≤ u && u ≤ 0x46) || (0x61 ≤ u && u ≤ 0x66)

/-- The value of a digit, in either case. -/
def digit (u : UInt16) : Nat :=
  if u ≤ 0x39 then u.toNat - 0x30 else if u ≤ 0x46 then u.toNat - 0x37 else u.toNat - 0x57

/-- The pattern matches here: a backslash, a `u` and four digits. -/
def matchAt : Units → Bool
  | a :: b :: c :: d :: e :: f :: _ =>
      a == backslash && b == 0x75 && isXDigit c && isXDigit d && isXDigit e && isXDigit f
  | _ => false

/-- The texts that `Matcher.find` finds, one after the other. -/
def find : Units → List Units
  | [] => []
  | a :: l => if matchAt (a :: l) then (a :: l).take 6 :: find (l.drop 5) else find l
termination_by l => l.length
decreasing_by
  · simp only [List.length_drop, List.length_cons]
    omega
  · simp

/-- `(char) Integer.parseInt(matcher.group(2), 16)` -/
def ch (group : Units) : UInt16 :=
  UInt16.ofNat ((group.drop 2).foldl (fun n u => 16 * n + digit u) 0)

def unicodeDecode (string : Units) : Units :=
  (find string).foldl (fun decoded group => Replacing.replace group [ch group] decoded) string

/-! ## Escapes -/

theorem hexDigit_spec : ∀ k < 16, isXDigit (hexDigit k) = true ∧ hexDigit k ≠ backslash ∧
    digit (hexDigit k) = k ∧ 0x10 ≤ hexDigit k ∧ hexDigit k ≤ 0xFF := by
  decide

/-- The digits of the code unit come to four. -/
def Padded (c : UInt16) : Prop :=
  0x10 ≤ c ∧ c ≤ 0xFF ∨ 0x1000 ≤ c

instance (c : UInt16) : Decidable (Padded c) :=
  inferInstanceAs (Decidable (_ ∨ _))

theorem padded_iff (c : UInt16) :
    Padded c ↔ 16 ≤ c.toNat ∧ c.toNat < 256 ∨ 4096 ≤ c.toNat := by
  simp only [Padded, UInt16.le_iff_toNat_le]
  constructor
  · rintro (⟨hlow, hhigh⟩ | hlow)
    · exact Or.inl ⟨hlow, Nat.lt_succ_of_le hhigh⟩
    · exact Or.inr hlow
  · rintro (⟨hlow, hhigh⟩ | hlow)
    · exact Or.inl ⟨hlow, Nat.le_of_lt_succ hhigh⟩
    · exact Or.inr hlow

theorem toHexString_of_lt {n : Nat} (h : n < 16) : toHexString n = [hexDigit n] := by
  rw [toHexString, if_pos h]

theorem toHexString_of_le {n : Nat} (h : 16 ≤ n) :
    toHexString n = toHexString (n / 16) ++ [hexDigit (n % 16)] := by
  rw [toHexString, if_neg (Nat.not_lt.2 h)]

def fourDigits (c : UInt16) : Units :=
  [hexDigit (c.toNat / 4096), hexDigit (c.toNat / 256 % 16), hexDigit (c.toNat / 16 % 16),
    hexDigit (c.toNat % 16)]

theorem escape_of_padded {c : UInt16} (h : Padded c) :
    escape c = backslash :: 0x75 :: fourDigits c := by
  have hbound := c.toNat_lt
  rcases (padded_iff c).1 h with ⟨hlow, hhigh⟩ | hlow
  · -- two digits, and two zeros
    have hzero : c.toNat / 4096 = 0 ∧ c.toNat / 256 % 16 = 0 ∧ c.toNat / 16 % 16 = c.toNat / 16 := by
      omega
    have hdigits : toHexString c.toNat = [hexDigit (c.toNat / 16), hexDigit (c.toNat % 16)] := by
      rw [toHexString_of_le hlow, toHexString_of_lt (by omega)]
      rfl
    simp only [escape, fourDigits, hdigits, hzero]
    rfl
  · have hdiv : c.toNat / 16 / 16 / 16 = c.toNat / 4096 ∧ c.toNat / 16 / 16 = c.toNat / 256 := by
      omega
    have hdigits : toHexString c.toNat = fourDigits c := by
      rw [toHexString_of_le (by omega), toHexString_of_le (by omega), toHexString_of_le (by omega),
        toHexString_of_lt (by omega), hdiv.1, hdiv.2]
      rfl
    simp only [escape, hdigits]
    rfl

/-- Other code units have three digits. -/
theorem escape_of_not_padded {c : UInt16} (h : ¬ Padded c) :
    ∃ i j k, i < 16 ∧ j < 16 ∧ k < 16 ∧
      escape c = [backslash, 0x75, hexDigit i, hexDigit j, hexDigit k] := by
  rw [padded_iff] at h
  rcases Nat.lt_or_ge c.toNat 16 with hone | hthree
  · refine ⟨0, 0, c.toNat, by omega, by omega, hone, ?_⟩
    simp only [escape, toHexString_of_lt hone]
    rfl
  · refine ⟨c.toNat / 16 / 16, c.toNat / 16 % 16, c.toNat % 16, by omega, by omega, by omega, ?_⟩
    have hdigits : toHexString c.toNat = [hexDigit (c.toNat / 16 / 16), hexDigit (c.toNat / 16 % 16),
        hexDigit (c.toNat % 16)] := by
      rw [toHexString_of_le (by omega), toHexString_of_le (by omega), toHexString_of_lt (by omega)]
      rfl
    simp only [escape, hdigits]
    rfl

/-- An escape has one backslash, and its other units, being ASCII, are padded. -/
theorem escape_eq (c : UInt16) :
    ∃ w, escape c = backslash :: w ∧ backslash ∉ w ∧ ∀ u ∈ escape c, Padded u := by
  have hdigit : ∀ k < 16, hexDigit k ≠ backslash ∧ Padded (hexDigit k) := fun k hk =>
    ⟨(hexDigit_spec k hk).2.1, Or.inl (hexDigit_spec k hk).2.2.2⟩
  have hbound := c.toNat_lt
  by_cases h : Padded c
  · have h₁ := hdigit (c.toNat / 4096) (by omega)
    have h₂ := hdigit (c.toNat / 256 % 16) (by omega)
    have h₃ := hdigit (c.toNat / 16 % 16) (by omega)
    have h₄ := hdigit (c.toNat % 16) (by omega)
    refine ⟨_, escape_of_padded h, ?_, ?_⟩
    · simp only [fourDigits, List.mem_cons, List.not_mem_nil, or_false, not_or]
      exact ⟨by decide, h₁.1.symm, h₂.1.symm, h₃.1.symm, h₄.1.symm⟩
    · rw [escape_of_padded h]
      simp only [fourDigits, List.forall_mem_cons, List.not_mem_nil, false_imp_iff, implies_true,
        and_true]
      exact ⟨by decide, by decide, h₁.2, h₂.2, h₃.2, h₄.2⟩
  · obtain ⟨i, j, k, hi, hj, hk, hescape⟩ := escape_of_not_padded h
    have h₁ := hdigit i hi
    have h₂ := hdigit j hj
    have h₃ := hdigit k hk
    refine ⟨_, hescape, ?_, ?_⟩
    · simp only [List.mem_cons, List.not_mem_nil, or_false, not_or]
      exact ⟨by decide, h₁.1.symm, h₂.1.symm, h₃.1.symm⟩
    · rw [hescape]
      simp only [List.forall_mem_cons, List.not_mem_nil, false_imp_iff, implies_true, and_true]
      exact ⟨by decide, by decide, h₁.2, h₂.2, h₃.2⟩

theorem ch_escape {c : UInt16} (h : Padded c) : ch (escape c) = c := by
  have hbound := c.toNat_lt
  have hvalue : ∀ k < 16, digit (hexDigit k) = k := fun k hk => (hexDigit_spec k hk).2.2.1
  rw [escape_of_padded h]
  simp only [ch, fourDigits, List.drop_succ_cons, List.drop_zero, List.foldl_cons, List.foldl_nil]
  rw [hvalue _ (by omega), hvalue _ (by omega), hvalue _ (by omega), hvalue _ (by omega)]
  have hsum : 16 * (16 * (16 * (16 * 0 + c.toNat / 4096) + c.toNat / 256 % 16) + c.toNat / 16 % 16) +
      c.toNat % 16 = c.toNat := by omega
  rw [hsum, UInt16.ofNat_toNat]

/-! ## Finding -/

theorem matchAt_cons_of_ne {a : UInt16} (h : a ≠ backslash) (l : Units) : matchAt (a :: l) = false := by
  unfold matchAt
  split
  · rename_i heq
    cases heq
    simp [h]
  · rfl

theorem find_append_of_not_mem {w : Units} (h : backslash ∉ w) (l : Units) : find (w ++ l) = find l := by
  induction w with
  | nil => rfl
  | cons a w ih =>
      rw [List.mem_cons, not_or] at h
      rw [List.cons_append, find, matchAt_cons_of_ne (Ne.symm h.1)]
      exact ih h.2

theorem find_escape_of_padded {c : UInt16} (h : Padded c) (l : Units) :
    find (escape c ++ l) = escape c :: find l := by
  have hbound := c.toNat_lt
  have hdigit : ∀ k < 16, isXDigit (hexDigit k) = true := fun k hk => (hexDigit_spec k hk).1
  have hmatch : matchAt (escape c ++ l) = true := by
    rw [escape_of_padded h]
    simp only [fourDigits, List.cons_append, List.nil_append, matchAt, Bool.and_eq_true]
    exact ⟨⟨⟨⟨⟨by decide, by decide⟩, hdigit _ (by omega)⟩, hdigit _ (by omega)⟩,
      hdigit _ (by omega)⟩, hdigit _ (by omega)⟩
  rw [escape_of_padded h] at hmatch ⊢
  rw [List.cons_append, find]
  rw [List.cons_append] at hmatch
  rw [if_pos hmatch]
  rfl

theorem unicodeEncode_cases (s : Units) :
    unicodeEncode s = [] ∨ ∃ l, unicodeEncode s = backslash :: l := by
  cases s with
  | nil => exact Or.inl rfl
  | cons c s =>
      obtain ⟨w, hescape, -, -⟩ := escape_eq c
      exact Or.inr ⟨w ++ unicodeEncode s, by rw [unicodeEncode, List.flatMap_cons, hescape]; rfl⟩

/-- An escape of three digits is followed by a backslash, or by nothing. -/
theorem find_escape_of_not_padded {c : UInt16} (h : ¬ Padded c) (s : Units) :
    find (escape c ++ unicodeEncode s) = find (unicodeEncode s) := by
  obtain ⟨i, j, k, hi, hj, hk, hescape⟩ := escape_of_not_padded h
  obtain ⟨w, hw, hclean, -⟩ := escape_eq c
  have hmatch : matchAt (escape c ++ unicodeEncode s) = false := by
    rw [hescape]
    rcases unicodeEncode_cases s with hnil | ⟨l, hl⟩
    · rw [hnil]
      rfl
    · have hnot : isXDigit backslash = false := by decide
      rw [hl]
      simp only [List.cons_append, List.nil_append, matchAt, hnot, Bool.and_false]
  rw [hw, List.cons_append] at hmatch ⊢
  rw [find, hmatch]
  exact find_append_of_not_mem hclean _

theorem find_unicodeEncode (s : Units) :
    find (unicodeEncode s) = (s.filter (fun c => decide (Padded c))).map escape := by
  induction s with
  | nil =>
      rw [unicodeEncode, List.flatMap_nil, find]
      rfl
  | cons c s ih =>
      rw [unicodeEncode, List.flatMap_cons]
      by_cases h : Padded c
      · rw [find_escape_of_padded h, List.filter_cons_of_pos (by simpa using h), List.map_cons, ← ih]
        rfl
      · rw [List.filter_cons_of_neg (by simpa using h), ← ih]
        exact find_escape_of_not_padded h s

/-- `replace(matcher.group(1), ch + "")` for the escape of a code unit. -/
def unescape (decoded : Units) (c : UInt16) : Units :=
  Replacing.replace (escape c) [c] decoded

theorem decode_encode_eq (s : Units) : unicodeDecode (unicodeEncode s) =
    (s.filter (fun c => decide (Padded c))).foldl unescape (unicodeEncode s) := by
  rw [unicodeDecode, find_unicodeEncode, List.foldl_map]
  refine List.foldl_ext _ _ _ fun decoded c hc => ?_
  have hpadded : Padded c := by simpa using (List.mem_filter.1 hc).2
  rw [ch_escape hpadded]
  rfl

theorem padded_of_mem_unicodeEncode {s : Units} {u : UInt16} (h : u ∈ unicodeEncode s) : Padded u := by
  obtain ⟨c, -, hu⟩ := List.mem_flatMap.1 h
  obtain ⟨-, -, -, hpadded⟩ := escape_eq c
  exact hpadded u hu

/-- The code units of the escapes are padded, and so are those decoded. -/
theorem padded_of_mem_decode {s : Units} {u : UInt16} (h : u ∈ unicodeDecode (unicodeEncode s)) :
    Padded u := by
  have hkeep : ∀ l : Units, (∀ c ∈ l, Padded c) → ∀ decoded : Units, (∀ u ∈ decoded, Padded u) →
      ∀ u ∈ l.foldl unescape decoded, Padded u := by
    intro l
    induction l with
    | nil =>
        intro _ decoded hdecoded
        exact hdecoded
    | cons c l ih =>
        intro hl decoded hdecoded
        refine ih (fun d hd => hl d (List.mem_cons_of_mem c hd)) _ fun u hu => ?_
        rcases Replacing.mem_replace decoded hu with hnew | hold
        · rw [List.mem_singleton.1 hnew]
          exact hl c List.mem_cons_self
        · exact hdecoded u hold
  rw [decode_encode_eq] at h
  refine hkeep _ (fun c hc => ?_) _ (fun u hu => padded_of_mem_unicodeEncode hu) u h
  simpa using (List.mem_filter.1 hc).2

/-! ## Pieces -/

/-- A text between encoding and decoding. -/
inductive Piece
  | escaped (c : UInt16)
  | decoded (c : UInt16)
  deriving DecidableEq

def Piece.text : Piece → Units
  | .escaped c => escape c
  | .decoded c => [c]

def render (ps : List Piece) : Units :=
  ps.flatMap Piece.text

/-- The escape of the code unit is decoded. -/
def settle (x : UInt16) : Piece → Piece
  | .escaped c => if c = x then .decoded c else .escaped c
  | .decoded c => .decoded c

/-- The escape, spelled out by decoded code units. -/
def spelling (x : UInt16) : List Piece :=
  (escape x).map .decoded

/-- Decoding an escape replaces its spellings, too. -/
def unescapePieces (ps : List Piece) (x : UInt16) : List Piece :=
  (Replacing.replace (spelling x) [.decoded x] ps).map (settle x)

theorem render_cons (p : Piece) (ps : List Piece) : render (p :: ps) = p.text ++ render ps :=
  List.flatMap_cons

theorem render_append (ps qs : List Piece) : render (ps ++ qs) = render ps ++ render qs :=
  List.flatMap_append

theorem render_decoded (w : Units) : render (w.map .decoded) = w := by
  induction w with
  | nil => rfl
  | cons c w ih =>
      rw [List.map_cons, render_cons, ih]
      rfl

theorem render_escaped (s : Units) : render (s.map .escaped) = unicodeEncode s := by
  rw [render, List.flatMap_map]
  rfl

theorem spelling_ne_nil (x : UInt16) : spelling x ≠ [] := by
  obtain ⟨w, hescape, -, -⟩ := escape_eq x
  rw [spelling, hescape]
  exact List.cons_ne_nil _ _

/-- Where no escape begins, what the text begins with has been decoded. -/
theorem decoded_of_begins {w : Units} (hw : backslash ∉ w) :
    ∀ {ps : List Piece}, w <+: render ps → w.map .decoded <+: ps := by
  induction w with
  | nil =>
      intro ps _
      exact List.nil_prefix
  | cons d w ih =>
      intro ps h
      rw [List.mem_cons, not_or] at hw
      cases ps with
      | nil => exact absurd (List.prefix_nil.1 h) (List.cons_ne_nil d w)
      | cons p ps =>
          rw [render_cons] at h
          cases p with
          | escaped c =>
              obtain ⟨v, hescape, -, -⟩ := escape_eq c
              rw [Piece.text, hescape, List.cons_append, List.cons_prefix_cons] at h
              exact absurd h.1.symm hw.1
          | decoded c =>
              rw [Piece.text, List.singleton_append, List.cons_prefix_cons] at h
              rw [List.map_cons, h.1, List.cons_prefix_cons]
              exact ⟨rfl, ih hw.2 h.2⟩

theorem length_escape {c : UInt16} (h : Padded c) : (escape c).length = 6 := by
  rw [escape_of_padded h]
  rfl

theorem eq_of_escape_begins {x c : UInt16} (hx : Padded x) (hc : Padded c) {l : Units}
    (h : escape x <+: escape c ++ l) : x = c := by
  have hlength : (escape x).length = (escape c).length := by
    rw [length_escape hx, length_escape hc]
  have heq : escape x = escape c :=
    (List.prefix_of_prefix_length_le h (List.prefix_append _ l) (Nat.le_of_eq hlength)).eq_of_length
      hlength
  rw [← ch_escape hx, heq, ch_escape hc]

/-- The cases are those of replacing the spellings: the end, a spelling and any other piece. -/
theorem unescape_render {x : UInt16} (hx : Padded x) (ps : List Piece)
    (hps : ∀ c, .escaped c ∈ ps → Padded c) :
    unescape (render ps) x = render (unescapePieces ps x) := by
  obtain ⟨w, hescape, hw, -⟩ := escape_eq x
  have hne : escape x ≠ [] := by
    rw [hescape]
    exact List.cons_ne_nil _ _
  unfold unescapePieces unescape
  fun_induction Replacing.replace (spelling x) [.decoded x] ps with
  | case1 => exact Replacing.replace_nil
  | case2 p ps hbegins ih =>
      obtain ⟨rest, hrest⟩ := hbegins
      have hdrop : ps.drop ((spelling x).length - 1) = rest := by
        have hall : (p :: ps).drop (spelling x).length = rest := by rw [← hrest, List.drop_left]
        have hlength : (spelling x).length = (spelling x).length - 1 + 1 :=
          (Nat.succ_pred_eq_of_pos (List.length_pos_iff.2 (spelling_ne_nil x))).symm
        rwa [hlength, List.drop_succ_cons] at hall
      rw [hdrop] at ih ⊢
      have hmem : ∀ c, .escaped c ∈ rest → Padded c := fun c hc =>
        hps c (hrest ▸ List.mem_append_right _ hc)
      calc Replacing.replace (escape x) [x] (render (p :: ps))
          = Replacing.replace (escape x) [x] (escape x ++ render rest) := by
            rw [← hrest, render_append, spelling, render_decoded]
        _ = [x] ++ Replacing.replace (escape x) [x] (render rest) :=
            Replacing.replace_append_left hne _
        _ = render (([Piece.decoded x] ++ Replacing.replace (spelling x) [.decoded x] rest).map
              (settle x)) := by
            rw [ih hmem]
            rfl
  | case3 p ps hbegins ih =>
      have hrest := ih fun c hc => hps c (List.mem_cons_of_mem p hc)
      rw [List.map_cons, render_cons, render_cons, ← hrest]
      cases p with
      | escaped c =>
          by_cases hcx : c = x
          · subst hcx
            rw [Piece.text, Replacing.replace_append_left hne]
            simp [settle, Piece.text]
          · -- the escape of another code unit, with no backslash behind its first
            obtain ⟨v, hv, hclean, -⟩ := escape_eq c
            have hother : ¬ escape x <+: escape c ++ render ps := fun h =>
              hcx (eq_of_escape_begins hx (hps c List.mem_cons_self) h).symm
            rw [settle, if_neg hcx, Piece.text]
            rw [hv, List.cons_append] at hother ⊢
            rw [Replacing.replace_cons_of_not hother, hescape,
              Replacing.replace_append_of_not_mem hclean, List.cons_append]
      | decoded c =>
          have hother : ¬ escape x <+: c :: render ps := by
            intro h
            refine hbegins ?_
            rw [hescape, List.cons_prefix_cons] at h
            rw [spelling, hescape, List.map_cons, List.cons_prefix_cons, h.1]
            exact ⟨rfl, decoded_of_begins hw h.2⟩
          exact Replacing.replace_cons_of_not hother

/-! ## Spelled escapes -/

/-- The text spells the escape of `x`, in code units of which `before` has all. -/
def Spelled (s before : Units) (x : UInt16) : Prop :=
  escape x <:+: s ∧ ∀ u ∈ escape x, u ∈ before

/-- The pieces of a text when the code units in `before` are decoded, and nothing else. -/
def decodedIn (s before : Units) : List Piece :=
  s.map fun c => if c ∈ before then .decoded c else .escaped c

/-- Decoded code units stand for themselves. -/
theorem eq_of_map_decoded {before : Units} (v : Units) :
    ∀ {w : Units}, v.map .decoded = decodedIn w before → v = w ∧ ∀ u ∈ v, u ∈ before := by
  induction v with
  | nil =>
      intro w h
      have hnil : w = [] := List.map_eq_nil_iff.1 h.symm
      exact ⟨hnil.symm, fun u hu => absurd hu List.not_mem_nil⟩
  | cons u v ih =>
      intro w h
      cases w with
      | nil => cases h
      | cons d w =>
          rw [decodedIn, List.map_cons, List.map_cons, List.cons.injEq] at h
          obtain ⟨hfirst, hrest⟩ := h
          obtain ⟨rfl, hbefore⟩ := ih hrest
          by_cases hd : d ∈ before
          · rw [if_pos hd, Piece.decoded.injEq] at hfirst
            subst hfirst
            exact ⟨rfl, List.forall_mem_cons.2 ⟨hd, hbefore⟩⟩
          · rw [if_neg hd] at hfirst
            cases hfirst

theorem spelling_infix_iff (s before : Units) (x : UInt16) :
    spelling x <:+: decodedIn s before ↔ Spelled s before x := by
  constructor
  · intro h
    obtain ⟨w, hw, heq⟩ := List.infix_map_iff.1 h
    obtain ⟨rfl, hbefore⟩ := eq_of_map_decoded (escape x) heq
    exact ⟨hw, hbefore⟩
  · rintro ⟨hword, hbefore⟩
    have heq : spelling x = decodedIn (escape x) before :=
      List.map_congr_left fun u hu => (if_pos (hbefore u hu)).symm
    rw [heq]
    exact hword.map _

/-- Without spellings decoding an escape does nothing else. -/
theorem unescapePieces_decodedIn {s before : Units} {x : UInt16} (h : ¬ Spelled s before x) :
    unescapePieces (decodedIn s before) x = decodedIn s (before ++ [x]) := by
  rw [← spelling_infix_iff] at h
  rw [unescapePieces, Replacing.replace_of_not_infix _ h, decodedIn, decodedIn, List.map_map]
  refine List.map_congr_left fun c _ => ?_
  by_cases hc : c ∈ before
  · simp [hc, settle]
  · by_cases hcx : c = x
    · subst hcx
      simp [hc, settle]
    · simp [hc, hcx, settle]

theorem length_unescapePieces_le (ps : List Piece) (x : UInt16) :
    (unescapePieces ps x).length ≤ ps.length := by
  rw [unescapePieces, List.length_map]
  exact Replacing.length_replace_le _ _

theorem length_unescapePieces_lt {ps : List Piece} {x : UInt16} (hx : Padded x)
    (h : spelling x <:+: ps) : (unescapePieces ps x).length < ps.length := by
  have hlength : 1 < (spelling x).length := by
    rw [spelling, List.length_map, length_escape hx]
    decide
  rw [unescapePieces, List.length_map]
  exact Replacing.length_replace_lt hlength _ ps h

theorem escaped_of_mem_unescapePieces {ps : List Piece} {x c : UInt16}
    (h : .escaped c ∈ unescapePieces ps x) : .escaped c ∈ ps ∧ c ≠ x := by
  obtain ⟨p, hp, hsettle⟩ := List.mem_map.1 h
  cases p with
  | decoded d => cases hsettle
  | escaped d =>
      by_cases hd : d = x
      · rw [settle, if_pos hd] at hsettle
        cases hsettle
      · rw [settle, if_neg hd] at hsettle
        cases hsettle
        refine ⟨?_, hd⟩
        rcases Replacing.mem_replace ps hp with hnew | hold
        · cases List.mem_singleton.1 hnew
        · exact hold

/-! ## The whole text -/

/-- No escape is spelled out by the time it is its turn, among those of `l`. -/
def Clear (s l : Units) : Prop :=
  ∀ before x after, l = before ++ x :: after → ¬ Spelled s before x

theorem clear_append_singleton (s l : Units) (x : UInt16) :
    Clear s (l ++ [x]) ↔ Clear s l ∧ ¬ Spelled s l x := by
  constructor
  · intro h
    refine ⟨fun before y after hl => h before y (after ++ [x]) ?_, h l x [] rfl⟩
    rw [hl, List.append_assoc, List.cons_append]
  · rintro ⟨hold, hnew⟩ before y after hl
    rcases Keyed.snoc_cases hl with ⟨rfl, rfl, -⟩ | ⟨rest, -, hl⟩
    · exact hnew
    · exact hold before y rest hl

/-- The induction is on the escapes decoded so far. -/
theorem foldl_unescapePieces (s l : Units) (hl : ∀ c ∈ l, Padded c) :
    (Clear s l → l.foldl unescapePieces (s.map .escaped) = decodedIn s l) ∧
      (¬ Clear s l → (l.foldl unescapePieces (s.map .escaped)).length < s.length) ∧
        ∀ c, .escaped c ∈ l.foldl unescapePieces (s.map .escaped) → c ∈ s ∧ c ∉ l := by
  induction l using List.reverseRecOn with
  | nil =>
      refine ⟨fun _ => ?_, fun h => ?_, fun c hc => ?_⟩
      · simp [decodedIn]
      · exact absurd (fun before x after hnil => by simp at hnil) h
      · simpa using hc
  | append_singleton l x ih =>
      obtain ⟨hclean, hshort, hleft⟩ := ih fun c hc => hl c (List.mem_append_left [x] hc)
      rw [List.foldl_append, List.foldl_cons, List.foldl_nil, clear_append_singleton]
      refine ⟨?_, ?_, ?_⟩
      · rintro ⟨hold, hnew⟩
        rw [hclean hold, unescapePieces_decodedIn hnew]
      · intro h
        by_cases hold : Clear s l
        · have hspelled : Spelled s l x := by
            by_contra hnew
            exact h ⟨hold, hnew⟩
          have hlt := length_unescapePieces_lt (hl x (by simp)) ((spelling_infix_iff s l x).2 hspelled)
          rw [hclean hold]
          rwa [decodedIn, List.length_map] at hlt
        · exact Nat.lt_of_le_of_lt (length_unescapePieces_le _ x) (hshort hold)
      · intro c hc
        obtain ⟨hold, hne⟩ := escaped_of_mem_unescapePieces hc
        obtain ⟨hs, hnot⟩ := hleft c hold
        refine ⟨hs, ?_⟩
        rw [List.mem_append, List.mem_singleton, not_or]
        exact ⟨hnot, hne⟩

theorem foldl_unescape_render (l : Units) (hl : ∀ c ∈ l, Padded c) :
    ∀ ps : List Piece, (∀ c, .escaped c ∈ ps → Padded c) →
      l.foldl unescape (render ps) = render (l.foldl unescapePieces ps) := by
  induction l with
  | nil =>
      intro ps _
      rfl
  | cons x l ih =>
      intro ps hps
      rw [List.foldl_cons, List.foldl_cons, unescape_render (hl x List.mem_cons_self) ps hps]
      refine ih (fun c hc => hl c (List.mem_cons_of_mem x hc)) _ fun c hc => ?_
      exact hps c (escaped_of_mem_unescapePieces hc).1

theorem length_render {ps : List Piece} (h : ∀ c, .escaped c ∉ ps) :
    (render ps).length = ps.length := by
  induction ps with
  | nil => rfl
  | cons p ps ih =>
      cases p with
      | escaped c => exact absurd List.mem_cons_self (h c)
      | decoded c =>
          have hrest := ih fun d hd => h d (List.mem_cons_of_mem _ hd)
          rw [render_cons, Piece.text, List.length_append, List.length_singleton, hrest,
            List.length_cons, Nat.add_comm]

/-- A text comes back exactly if all its code units are padded, and none of their escapes is spelled
out in it by code units that come up before its turn. -/
theorem decode_encode_iff (s : Units) :
    unicodeDecode (unicodeEncode s) = s ↔ (∀ c ∈ s, Padded c) ∧ Clear s s := by
  by_cases hpadded : ∀ c ∈ s, Padded c
  · have hall : s.filter (fun c => decide (Padded c)) = s :=
      List.filter_eq_self.2 fun c hc => by simpa using hpadded c hc
    have hpieces : unicodeDecode (unicodeEncode s) =
        render (s.foldl unescapePieces (s.map .escaped)) := by
      rw [decode_encode_eq, hall, ← render_escaped]
      refine foldl_unescape_render s hpadded _ fun c hc => ?_
      exact hpadded c (by simpa using hc)
    obtain ⟨hclean, hshort, hleft⟩ := foldl_unescapePieces s s hpadded
    rw [hpieces, and_iff_right hpadded]
    constructor
    · intro hback
      by_contra hspelled
      -- nothing is left in escapes, so a spelling that was replaced is missing in the length
      have hlength := length_render fun c hc => (hleft c hc).2 (hleft c hc).1
      have hlt := hshort hspelled
      rw [hback] at hlength
      omega
    · intro hclear
      have hdecoded : decodedIn s s = s.map .decoded :=
        List.map_congr_left fun c hc => if_pos hc
      rw [hclean hclear, hdecoded, render_decoded]
  · refine iff_of_false (fun hback => hpadded fun c hc => ?_) fun h => hpadded h.1
    rw [← hback] at hc
    exact padded_of_mem_decode hc

/-- A letter with three digits, and an escape that is spelled out before its own letter. -/
theorem not_decode_encode :
    unicodeDecode (unicodeEncode [0x100]) ≠ [0x100] ∧
      unicodeDecode (unicodeEncode [0x5C, 0x75, 0x30, 0x30, 0x34, 0x31, 0x41]) = [0x41, 0x41] := by
  decide +kernel

end NetTranUtils
end Net
end SpinVpn
