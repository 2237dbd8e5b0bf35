import Mathlib.Data.List.Basic
import Mathlib.Data.List.Induction

/-!
# Commandline — quoting and cracking command lines

`utils/Commandline.kt`.  The tokenizer of the source hands out a run of ordinary characters as one
token; every state only appends such a run, so the model reads one character at a time.

A quoted line never takes the reader out of its normal state, so cracking it gives the arguments
again, but for the empty ones (`translateCommandline_toString`).
-/

namespace SpinVpn
namespace Utils
namespace Commandline

/-! ## Quoting -/

def quoteChar (c : Char) : List Char :=
  if c = ' ' ∨ c = '\\' ∨ c = '"' ∨ c = '\'' then ['\\', c] else [c]

/-- `Commandline.toString` -/
def toString (args : List String) : String :=
  String.ofList (args.foldl
    (fun result arg =>
      result ++ (if result.isEmpty then [] else [' ']) ++ arg.toList.flatMap quoteChar) [])

/-! ## Cracking -/

inductive QuoteState
  | normal
  | inQuote
  | inDoubleQuote
  deriving DecidableEq, Repr

structure Cracker where
  state : QuoteState := .normal
  result : List String := []
  current : List Char := []
  lastTokenHasBeenQuoted : Bool := false
  lastTokenIsSlash : Bool := false
  deriving DecidableEq, Repr

namespace Cracker

def append (c : Cracker) (tok : Char) : Cracker :=
  { c with current := c.current ++ [tok] }

/-- Ends an argument where there is one. -/
def addCurrent (c : Cracker) : Cracker :=
  if c.lastTokenHasBeenQuoted || !c.current.isEmpty then
    { c with result := c.result ++ [String.ofList c.current], current := [] }
  else c

def stepNormal (c : Cracker) (tok : Char) : Cracker :=
  let c' :=
    if c.lastTokenIsSlash then { c.append tok with lastTokenIsSlash := false }
    else if tok = '\\' then { c with lastTokenIsSlash := true }
    else if tok = '\'' then { c with state := .inQuote }
    else if tok = '"' then { c with state := .inDoubleQuote }
    else if tok = ' ' then c.addCurrent
    else c.append tok
  { c' with lastTokenHasBeenQuoted := false }

def stepDoubleQuote (c : Cracker) (tok : Char) : Cracker :=
  if tok = '"' then
    if c.lastTokenIsSlash then { c.append tok with lastTokenIsSlash := false }
    else { c with lastTokenHasBeenQuoted := true, state := .normal }
  else if tok = '\\' then
    if c.lastTokenIsSlash then { c.append tok with lastTokenIsSlash := false }
    else { c with lastTokenIsSlash := true }
  else if c.lastTokenIsSlash then { (c.append '\\').append tok with lastTokenIsSlash := false }
  else c.append tok

def step (c : Cracker) (tok : Char) : Cracker :=
  match c.state with
  | .inQuote =>
      if tok = '\'' then { c with lastTokenHasBeenQuoted := true, state := .normal }
      else c.append tok
  | .inDoubleQuote => c.stepDoubleQuote tok
  | .normal => c.stepNormal tok

end Cracker

/-- The error is the text of the `IllegalArgumentException`. -/
def translateCommandline (toProcess : String) : Except String (List String) :=
  if toProcess = "" then .ok []
  else
    let c := (toProcess.toList.foldl Cracker.step {}).addCurrent
    if c.state ≠ .normal then .error ("unbalanced quotes in " ++ toProcess)
    else if c.lastTokenIsSlash then
      .error ("escape character following nothing in " ++ toProcess)
    else .ok c.result

/-! ## Characters -/

section Chars

variable {Q : Char → Prop} {c : Cracker}

/-- Every character that has been read into an argument has the property. -/
structure CharsIn (Q : Char → Prop) (c : Cracker) : Prop where
  current : ∀ d ∈ c.current, Q d
  result : ∀ arg ∈ c.result, ∀ d ∈ arg.toList, Q d

theorem CharsIn.append (h : CharsIn Q c) {tok : Char} (htok : Q tok) : CharsIn Q (c.append tok) := by
  refine ⟨?_, h.result⟩
  intro d hd
  rcases List.mem_append.1 hd with hold | hnew
  · exact h.current d hold
  · rw [List.mem_singleton.1 hnew]
    exact htok

theorem CharsIn.addCurrent (h : CharsIn Q c) : CharsIn Q c.addCurrent := by
  unfold Cracker.addCurrent
  split
  · refine ⟨by simp, ?_⟩
    intro arg harg
    rcases List.mem_append.1 harg with hold | hnew
    · exact h.result arg hold
    · rw [List.mem_singleton.1 hnew, String.toList_ofList]
      exact h.current
  · exact h

theorem CharsIn.step (h : CharsIn Q c) (hslash : Q '\\') {tok : Char} (htok : Q tok) :
    CharsIn Q (c.step tok) := by
  have happend := h.append htok
  have hboth := (h.append hslash).append htok
  have hadd := h.addCurrent
  unfold Cracker.step
  split
  · split
    · exact ⟨h.current, h.result⟩
    · exact happend
  · unfold Cracker.stepDoubleQuote
    repeat' split
    all_goals first
      | exact ⟨happend.current, happend.result⟩
      | exact ⟨h.current, h.result⟩
      | exact ⟨hboth.current, hboth.result⟩
  · unfold Cracker.stepNormal
    dsimp only
    repeat' split
    all_goals first
      | exact ⟨happend.current, happend.result⟩
      | exact ⟨h.current, h.result⟩
      | exact ⟨hadd.current, hadd.result⟩

/-- The arguments are made of the characters of the line, and of backslashes. -/
theorem translateCommandline_chars {line : String} {args : List String}
    (h : translateCommandline line = .ok args) (hslash : Q '\\') (hline : ∀ d ∈ line.toList, Q d) :
    ∀ arg ∈ args, ∀ d ∈ arg.toList, Q d := by
  have hfold : ∀ (l : List Char) (c : Cracker), CharsIn Q c → (∀ d ∈ l, Q d) →
      CharsIn Q (l.foldl Cracker.step c) := by
    intro l
    induction l with
    | nil =>
        intro c hc _
        exact hc
    | cons tok l ih =>
        intro c hc hl
        exact ih _ (hc.step hslash (hl tok List.mem_cons_self))
          (fun d hd => hl d (List.mem_cons_of_mem _ hd))
  have hstart : CharsIn Q {} := ⟨by simp, by simp⟩
  have hend := (hfold line.toList {} hstart hline).addCurrent
  unfold translateCommandline at h
  split at h
  · cases h
    simp
  · dsimp only at h
    split at h
    · cases h
    · split at h
      · cases h
      · cases h
        exact hend.result

end Chars

/-! ## Cracking a quoted line -/

/-- The text that `toString` builds. -/
def quoted (args : List String) : List Char :=
  args.foldl
    (fun result arg =>
      result ++ (if result.isEmpty then [] else [' ']) ++ arg.toList.flatMap quoteChar) []

theorem quoted_append (args : List String) (arg : String) :
    quoted (args ++ [arg]) =
      quoted args ++ (if (quoted args).isEmpty then [] else [' ']) ++
        arg.toList.flatMap quoteChar := by
  simp [quoted]

namespace Cracker

/-- The reader outside of quotes, with nothing pending but the current argument. -/
def ready (result : List String) (current : List Char) : Cracker where
  result := result
  current := current

variable (result : List String) (current : List Char)

theorem step_plain {tok : Char} (h : ¬ (tok = ' ' ∨ tok = '\\' ∨ tok = '"' ∨ tok = '\'')) :
    (ready result current).step tok = ready result (current ++ [tok]) := by
  simp only [not_or] at h
  simp [step, stepNormal, ready, append, h]

/-- A backslash and what it escapes. -/
theorem step_escaped (tok : Char) :
    ((ready result current).step '\\').step tok = ready result (current ++ [tok]) := by
  simp [step, stepNormal, ready, append]

theorem foldl_quoteChar (l : List Char) :
    ∀ current : List Char, (l.flatMap quoteChar).foldl step (ready result current) =
      ready result (current ++ l) := by
  induction l with
  | nil =>
      intro current
      simp
  | cons tok l ih =>
      intro current
      have hread : (quoteChar tok).foldl step (ready result current) =
          ready result (current ++ [tok]) := by
        rw [quoteChar]
        split
        · exact step_escaped result current tok
        · rename_i hplain
          exact step_plain result current hplain
      rw [List.flatMap_cons, List.foldl_append, hread, ih, List.append_assoc]
      rfl

theorem addCurrent_ready :
    (ready result current).addCurrent =
      ready (result ++ if current = [] then [] else [String.ofList current]) [] := by
  by_cases h : current = []
  · subst h
    simp [addCurrent, ready]
  · simp [addCurrent, ready, h]

theorem step_blank : (ready result current).step ' ' = (ready result current).addCurrent := by
  rw [addCurrent_ready]
  by_cases h : current = []
  · subst h
    simp [step, stepNormal, addCurrent, ready]
  · simp [step, stepNormal, addCurrent, ready, h]

/-- The argument that has been read, at the next blank or at the end. -/
theorem addCurrent_arg (arg : String) :
    (ready result arg.toList).addCurrent =
      ready (result ++ [arg].filter (fun a => a ≠ "")) [] := by
  rw [addCurrent_ready]
  by_cases h : arg = ""
  · simp [h]
  · have hne : arg.toList ≠ [] := fun hnil => h (String.toList_eq_nil_iff.1 hnil)
    simp [h, hne]

end Cracker

open Cracker in
/-- The reader at the end of a quoted line: the last argument is still the current one. -/
theorem foldl_quoted (args : List String) :
    ∃ result current, (quoted args).foldl step {} = ready result current ∧
      (ready result current).addCurrent = ready (args.filter (fun a => a ≠ "")) [] := by
  -- from the back, since the printer puts a blank only behind a line that is not empty
  induction args using List.reverseRecOn with
  | nil => exact ⟨[], [], rfl, rfl⟩
  | append_singleton args arg ih =>
      rcases ih with ⟨result, current, hread, hadd⟩
      refine ⟨args.filter (fun a => a ≠ ""), arg.toList, ?_, ?_⟩
      · have hsep : (quoted args ++ if (quoted args).isEmpty then [] else [' ']).foldl step {} =
            ready (args.filter (fun a => a ≠ "")) [] := by
          cases hline : quoted args with
          | nil =>
              -- nothing has been printed, so all arguments so far are empty
              rw [hline] at hread
              have hstart : ready [] [] = ready result current := hread
              rw [← hadd, ← hstart]
              rfl
          | cons c line =>
              rw [hline] at hread
              rw [if_neg (by simp), List.foldl_append, hread, ← hadd]
              exact step_blank result current
        rw [quoted_append, List.foldl_append, hsep, foldl_quoteChar, List.nil_append]
      · rw [List.filter_append]
        exact addCurrent_arg _ arg

theorem translateCommandline_toString (args : List String) :
    translateCommandline (toString args) = .ok (args.filter (fun a => a ≠ "")) := by
  have htext : toString args = String.ofList (quoted args) := rfl
  rcases foldl_quoted args with ⟨result, current, hread, hadd⟩
  rw [translateCommandline, htext, String.toList_ofList, hread, hadd]
  split
  · rename_i hempty
    -- an empty line reads as no argument at all
    have hnil : quoted args = [] := by
      have hlist := congrArg String.toList hempty
      simpa using hlist
    rw [hnil] at hread
    have hstart : Cracker.ready [] [] = Cracker.ready result current := hread
    rw [← hstart] at hadd
    exact congrArg (fun c => Except.ok c.result) hadd
  · rfl

end Commandline
end Utils
end SpinVpn
