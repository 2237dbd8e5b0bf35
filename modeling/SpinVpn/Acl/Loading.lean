import SpinVpn.Acl.RoundTrip

/-!
# Loading — a reader that fails half-way

`Acl.fromReader` clears the four lists of the object before it reads, and adds host names and
imports line by line; the subnets and the mode follow at the end.  A line may fail to parse, and the
reader itself may fail behind any line.  `fromId` takes an `IOException` to mean that there is no
such file, and returns the object as it is.

What is left behind by a failure is what the lines up to it name (`run_of_bad`, `run_of_good`), so
the object is as it was only if it held just that before (`unspoilt_iff`).
-/

namespace SpinVpn
namespace Acl

open Net Utils

/-! ## Readers -/

/-- The lines that a reader delivers, and whether it throws after the last of them. -/
structure Reader where
  lines : List String
  fails : Bool

inductive LoadFailure
  | io
  | parser (failure : Failure)
  deriving DecidableEq, Repr

section Program

variable (T : AddressText) (url : String → Option URL) (same : URL → URL → Bool)

/-- `Acl.fromReader` on a reader that may fail; with the failure comes what the object then holds. -/
def load (a : Acl) (reader : Reader) (defaultBypass : Bool) : Except (LoadFailure × Acl) Acl :=
  match (Parser.start { Acl.empty with bypass := a.bypass } defaultBypass).run T url (adding same)
      reader.lines with
  | .error (failure, a') => .error (.parser failure, a')
  | .ok s =>
      if reader.fails then .error (.io, s.state)
      else
        .ok { s.state with
          bypass := s.bypass
          subnets := s.state.subnets.addAll (if s.bypass then s.proxySubnets else s.bypassSubnets) }

/-- `none` stands for a file that cannot be opened.  A `MalformedURLException` is an
`IOException`, too. -/
def fromId (a : Acl) (file : Option Reader) : Except (String × Acl) Acl :=
  match file with
  | none => .ok a
  | some reader =>
      match load T url same a reader false with
      | .ok a' => .ok a'
      | .error (.io, a') => .ok a'
      | .error (.parser .malformedURL, a') => .ok a'
      | .error (.parser (.illegalState message), a') => .error (message, a')

end Program

/-! ## What a line names -/

inductive Finding
  | hostname (b : Block) (h : String)
  | url (u : URL)
  deriving DecidableEq

def headers : List String :=
  ["[outbound_block_list]", "[black_list]", "[bypass_list]", "[white_list]", "[proxy_list]",
    "[reject_all]", "[bypass_all]", "[accept_all]", "[proxy_all]"]

/-- The address in the comment of a line. -/
def importText (line : String) : Option String :=
  matchImport ((split2 '#' line).2.getD "")

def inputOf (line : String) : String :=
  trim (split2 '#' line).1

section Lines

variable (T : AddressText) (url : String → Option URL)

/-- The import cannot be read. -/
def BadImport (line : String) : Prop :=
  (importText line).isSome = true ∧ (importText line).bind url = none

/-- The line is in brackets and not known. -/
def BadBlock (line : String) : Prop :=
  (inputOf line).toList.head? = some '[' ∧ inputOf line ∉ headers

instance (line : String) : Decidable (BadImport url line) :=
  inferInstanceAs (Decidable (_ ∧ _))

instance (line : String) : Decidable (BadBlock line) :=
  inferInstanceAs (Decidable (_ ∧ _))

def importsOf (line : String) : List Finding :=
  ((importText line).bind url).toList.map .url

def blockAfter (block : Option Block) (input : String) : Option Block :=
  if input = "[outbound_block_list]" then none
  else if input = "[black_list]" ∨ input = "[bypass_list]" then some .bypass
  else if input = "[white_list]" ∨ input = "[proxy_list]" then some .proxy
  else block

def hostnamesOf (block : Option Block) (input : String) : List Finding :=
  match block with
  | none => []
  | some b =>
      if input.toList.head? = some '[' ∨ input = "" ∨ (Subnet.fromString T input).isSome then []
      else [.hostname b input]

/-- The host names and imports on the lines up to the first bad one, whose own import counts if it
can be read. -/
def findings (block : Option Block) : List String → List Finding
  | [] => []
  | line :: lines =>
      if BadImport url line then []
      else if BadBlock line then importsOf url line
      else importsOf url line ++ hostnamesOf T block (inputOf line) ++
        findings (blockAfter block (inputOf line)) lines

def Finding.add (same : URL → URL → Bool) (a : Acl) : Finding → Acl
  | .hostname .bypass h => { a with bypassHostnames := a.bypassHostnames.add h }
  | .hostname .proxy h => { a with proxyHostnames := a.proxyHostnames.add h }
  | .url u => { a with urls := a.urls.add same true u }

end Lines

/-! ## One line -/

namespace Parser

variable {T : AddressText} {url : String → Option URL} {same : URL → URL → Bool} {s : Parser Acl}

theorem comment_bad {line : String} (h : BadImport url line) :
    s.comment url (adding same) line = .error (.malformedURL, s.state) := by
  rcases h with ⟨hsome, hnone⟩
  rcases Option.isSome_iff_exists.1 hsome with ⟨text, htext⟩
  rw [htext, Option.bind_some] at hnone
  rw [importText] at htext
  simp only [comment, adding, htext, hnone]

theorem comment_good {line : String} (h : ¬ BadImport url line) :
    s.comment url (adding same) line =
      .ok ({ s with state := (importsOf url line).foldl (Finding.add same) s.state },
        (split2 '#' line).1) := by
  cases htext : importText line with
  | none =>
      have hno : importsOf url line = [] := by
        rw [importsOf, htext]
        rfl
      rw [importText] at htext
      simp only [comment, adding, htext, hno, List.foldl_nil]
  | some text =>
      cases hu : url text with
      | none => exact absurd ⟨by rw [htext]; rfl, by rw [htext]; exact hu⟩ h
      | some u =>
          have hone : importsOf url line = [.url u] := by
            rw [importsOf, htext, Option.bind_some, hu]
            rfl
          rw [importText] at htext
          simp only [comment, adding, htext, hu, hone]
          rfl

theorem enter_none_iff (input : String) : s.enter input = none ↔ input ∉ headers := by
  unfold enter
  simp only [headers, List.mem_cons, List.not_mem_nil, or_false]
  split_ifs <;> simp only [false_iff, true_iff, not_not] <;> tauto

theorem enter_some {input : String} {s' : Parser Acl} (h : s.enter input = some s') :
    s'.state = s.state ∧ s'.block = blockAfter s.block input := by
  unfold enter at h
  unfold blockAfter
  split_ifs at h <;> cases h <;> simp_all

theorem blockAfter_of_unbracketed {block : Option Block} {input : String}
    (h : input.toList.head? ≠ some '[') : blockAfter block input = block := by
  have hne : ∀ header : String, header.toList.head? = some '[' → input ≠ header := by
    rintro header hheader rfl
    exact h hheader
  rw [blockAfter, if_neg (hne _ (by simp)), if_neg (not_or.2 ⟨hne _ (by simp), hne _ (by simp)⟩),
    if_neg (not_or.2 ⟨hne _ (by simp), hne _ (by simp)⟩)]

theorem hostnamesOf_of_bracketed {block : Option Block} {input : String}
    (h : input.toList.head? = some '[') : hostnamesOf T block input = [] := by
  cases block with
  | none => rfl
  | some b => exact if_pos (Or.inl h)

theorem addRule_spec (s : Parser Acl) (b : Block) {input : String} (hne : input ≠ "")
    (hbracket : input.toList.head? ≠ some '[') :
    (s.addRule T (adding same) b input).state =
        (hostnamesOf T (some b) input).foldl (Finding.add same) s.state ∧
      (s.addRule T (adding same) b input).block = s.block := by
  rw [addRule, hostnamesOf]
  cases Subnet.fromString T input with
  | none =>
      rw [if_neg (by simp [hne, hbracket])]
      cases b with
      | bypass => exact ⟨rfl, rfl⟩
      | proxy => exact ⟨rfl, rfl⟩
  | some subnet =>
      rw [if_pos (by simp)]
      cases b with
      | bypass => exact ⟨rfl, rfl⟩
      | proxy => exact ⟨rfl, rfl⟩

theorem readInput_known (s : Parser Acl) {input : String}
    (h : ¬ (input.toList.head? = some '[' ∧ input ∉ headers)) :
    ∃ s', s.readInput T (adding same) input = .ok s' ∧
      s'.state = (hostnamesOf T s.block input).foldl (Finding.add same) s.state ∧
      s'.block = blockAfter s.block input := by
  rw [readInput]
  by_cases hbracket : input.toList.head? = some '['
  · rw [if_pos hbracket, hostnamesOf_of_bracketed hbracket]
    cases henter : s.enter input with
    | none => exact absurd ⟨hbracket, (enter_none_iff _).1 henter⟩ h
    | some s' => exact ⟨s', rfl, enter_some henter⟩
  · rw [if_neg hbracket, blockAfter_of_unbracketed hbracket]
    cases hb : s.block with
    | none => exact ⟨s, rfl, rfl, hb⟩
    | some b =>
        refine ⟨_, rfl, ?_⟩
        by_cases hempty : input = ""
        · rw [if_pos hempty]
          exact ⟨by simp [hostnamesOf, hempty], hb⟩
        · rw [if_neg hempty]
          rcases addRule_spec s b hempty hbracket with ⟨hstate, hblock⟩
          exact ⟨hstate, hblock.trans hb⟩

theorem readLine_of_comment {line rest : String} {s' : Parser Acl}
    (h : s.comment url (adding same) line = .ok (s', rest)) :
    s.readLine T url (adding same) line = s'.readInput T (adding same) (trim rest) := by
  simp only [readLine, h, Except.bind]

theorem readLine_badImport {line : String} (h : BadImport url line) :
    s.readLine T url (adding same) line = .error (.malformedURL, s.state) := by
  rw [readLine, comment_bad h]
  rfl

theorem readLine_badBlock {line : String} (himport : ¬ BadImport url line) (h : BadBlock line) :
    ∃ e, s.readLine T url (adding same) line =
      .error (e, (importsOf url line).foldl (Finding.add same) s.state) := by
  rw [readLine_of_comment (comment_good himport), ← inputOf, readInput, if_pos h.1,
    (enter_none_iff _).2 h.2]
  exact ⟨_, rfl⟩

/-- A good line adds what it names, and may open another block. -/
theorem readLine_good {line : String} (himport : ¬ BadImport url line) (hblock : ¬ BadBlock line) :
    ∃ s', s.readLine T url (adding same) line = .ok s' ∧
      s'.state =
        (importsOf url line ++ hostnamesOf T s.block (inputOf line)).foldl (Finding.add same)
          s.state ∧
      s'.block = blockAfter s.block (inputOf line) := by
  rw [readLine_of_comment (comment_good himport), ← inputOf, List.foldl_append]
  exact readInput_known _ hblock

/-! ## All lines -/

theorem run_of_bad (lines : List String) :
    ∀ s : Parser Acl, (∃ line ∈ lines, BadImport url line ∨ BadBlock line) →
      ∃ e, s.run T url (adding same) lines =
        .error (e, (findings T url s.block lines).foldl (Finding.add same) s.state) := by
  induction lines with
  | nil =>
      rintro s ⟨line, hline, -⟩
      cases hline
  | cons line lines ih =>
      rintro s ⟨bad, hmem, hbad⟩
      rw [run, List.foldlM_cons, findings]
      by_cases himport : BadImport url line
      · rw [if_pos himport, readLine_badImport himport]
        exact ⟨_, rfl⟩
      rw [if_neg himport]
      by_cases hblock : BadBlock line
      · obtain ⟨e, he⟩ := readLine_badBlock (T := T) (s := s) himport hblock
        rw [if_pos hblock, he]
        exact ⟨e, rfl⟩
      rw [if_neg hblock]
      -- the first line is good, so the bad one is further down
      obtain ⟨s', hs', hstate, hafter⟩ := readLine_good (T := T) (s := s) himport hblock
      have hrest : ∃ line ∈ lines, BadImport url line ∨ BadBlock line := by
        rcases List.mem_cons.1 hmem with rfl | hmem
        · exact absurd hbad (not_or.2 ⟨himport, hblock⟩)
        · exact ⟨bad, hmem, hbad⟩
      obtain ⟨e, he⟩ := ih s' hrest
      refine ⟨e, ?_⟩
      rw [List.foldl_append, ← hstate, ← hafter, ← he, hs']
      rfl

theorem run_of_good (lines : List String) :
    ∀ s : Parser Acl, (∀ line ∈ lines, ¬ (BadImport url line ∨ BadBlock line)) →
      ∃ s', s.run T url (adding same) lines = .ok s' ∧
        s'.state = (findings T url s.block lines).foldl (Finding.add same) s.state := by
  induction lines with
  | nil =>
      intro s _
      exact ⟨s, rfl, rfl⟩
  | cons line lines ih =>
      intro s hgood
      rcases not_or.1 (hgood line List.mem_cons_self) with ⟨himport, hblock⟩
      obtain ⟨s₁, hs₁, hstate, hafter⟩ := readLine_good (T := T) (s := s) himport hblock
      obtain ⟨s', hs', hfinal⟩ := ih s₁ (fun l hl => hgood l (List.mem_cons_of_mem line hl))
      refine ⟨s', ?_, ?_⟩
      · rw [run, List.foldlM_cons, hs₁]
        exact hs'
      · rw [findings, if_neg himport, if_neg hblock, List.foldl_append, ← hstate, ← hafter, hfinal]

end Parser

/-! ## What is left behind -/

section Left

variable {T : AddressText} {url : String → Option URL} {same : URL → URL → Bool} {a : Acl}
variable {reader : Reader} {d : Bool}

def Finding.bypassHostname? : Finding → Option String
  | .hostname .bypass h => some h
  | _ => none

def Finding.proxyHostname? : Finding → Option String
  | .hostname .proxy h => some h
  | _ => none

def Finding.url? : Finding → Option URL
  | .url u => some u
  | _ => none

/-- The list holds no subnets, and of the rest just what was found. -/
structure Holds (same : URL → URL → Bool) (a : Acl) (l : List Finding) : Prop where
  bypassHostnames : a.bypassHostnames = OrderedSet.empty.addAll (l.filterMap Finding.bypassHostname?)
  proxyHostnames : a.proxyHostnames = OrderedSet.empty.addAll (l.filterMap Finding.proxyHostname?)
  subnets : a.subnets = .empty
  urls : a.urls = SortedList.Sorted.empty.addAll same true (l.filterMap Finding.url?)

theorem foldl_add (l : List Finding) :
    ∀ a : Acl, l.foldl (Finding.add same) a =
      { a with
        bypassHostnames := a.bypassHostnames.addAll (l.filterMap Finding.bypassHostname?)
        proxyHostnames := a.proxyHostnames.addAll (l.filterMap Finding.proxyHostname?)
        urls := a.urls.addAll same true (l.filterMap Finding.url?) } := by
  induction l with
  | nil =>
      intro a
      rfl
  | cons f l ih =>
      intro a
      rw [List.foldl_cons, ih]
      match f with
      | .hostname .bypass h => rfl
      | .hostname .proxy h => rfl
      | .url u => rfl

theorem foldl_add_cleared (l : List Finding) (a : Acl) :
    l.foldl (Finding.add same) { Acl.empty with bypass := a.bypass } = a ↔ Holds same a l := by
  rw [foldl_add]
  constructor
  · intro h
    rw [← h]
    exact ⟨rfl, rfl, rfl, rfl⟩
  · rintro ⟨hbypass, hproxy, hsubnets, hurls⟩
    rcases a with ⟨_, _, _, _, mode⟩
    simp only at hbypass hproxy hsubnets hurls
    subst hbypass hproxy hsubnets hurls
    rfl

/-- Nothing goes wrong: the reader delivers all its lines, and they are good. -/
def Acceptable (url : String → Option URL) (reader : Reader) : Prop :=
  reader.fails = false ∧ ∀ line ∈ reader.lines, ¬ (BadImport url line ∨ BadBlock line)

/-- The block that is open before the first line. -/
def firstBlock (d : Bool) : Option Block :=
  some (if d then .proxy else .bypass)

theorem load_of_acceptable (h : Acceptable url reader) :
    ∃ a', load T url same a reader d = .ok a' := by
  rcases h with ⟨hfails, hgood⟩
  obtain ⟨s, hs, -⟩ := Parser.run_of_good (T := T) reader.lines
    (Parser.start { Acl.empty with bypass := a.bypass } d) hgood
  rw [load, hs]
  simp only [hfails, Bool.false_eq_true, if_false]
  exact ⟨_, rfl⟩

theorem load_of_not_acceptable (h : ¬ Acceptable url reader) :
    ∃ e, load T url same a reader d =
      .error (e, (findings T url (firstBlock d) reader.lines).foldl (Finding.add same)
        { Acl.empty with bypass := a.bypass }) := by
  by_cases hbad : ∃ line ∈ reader.lines, BadImport url line ∨ BadBlock line
  · obtain ⟨e, he⟩ := Parser.run_of_bad (T := T) reader.lines
      (Parser.start { Acl.empty with bypass := a.bypass } d) hbad
    rw [load, he]
    exact ⟨_, rfl⟩
  · have hgood : ∀ line ∈ reader.lines, ¬ (BadImport url line ∨ BadBlock line) :=
      fun line hline hline' => hbad ⟨line, hline, hline'⟩
    have hfails : reader.fails = true := by
      by_contra hnot
      exact h ⟨by simpa using hnot, hgood⟩
    obtain ⟨s, hs, hstate⟩ := Parser.run_of_good (T := T) reader.lines
      (Parser.start { Acl.empty with bypass := a.bypass } d) hgood
    rw [load, hs]
    simp only [hfails, if_true]
    rw [hstate]
    exact ⟨_, rfl⟩

/-- A failure changes nothing, and what `fromId` returns is loaded or unchanged. -/
def Unspoilt (T : AddressText) (url : String → Option URL) (same : URL → URL → Bool) (a : Acl)
    (reader : Reader) (d : Bool) : Prop :=
  (∀ e a', load T url same a reader d = .error (e, a') → a' = a) ∧
    (d = false → ∀ a', fromId T url same a (some reader) = .ok a' →
      load T url same a reader false = .ok a' ∨ a' = a)

/-- What `fromId` returns without having loaded it is what a failure left behind. -/
theorem error_of_fromId {a' : Acl} (h : fromId T url same a (some reader) = .ok a')
    (hload : load T url same a reader false ≠ .ok a') :
    ∃ e, load T url same a reader false = .error (e, a') := by
  rw [fromId] at h
  split at h
  · rename_i heq
    cases h
    exact absurd heq hload
  · rename_i heq
    cases h
    exact ⟨_, heq⟩
  · rename_i heq
    cases h
    exact ⟨_, heq⟩
  · cases h

theorem unspoilt_iff (T : AddressText) (url : String → Option URL) (same : URL → URL → Bool) (a : Acl)
    (reader : Reader) (d : Bool) :
    Unspoilt T url same a reader d ↔
      Acceptable url reader ∨ Holds same a (findings T url (firstBlock d) reader.lines) := by
  constructor
  · rintro ⟨hkept, -⟩
    by_cases haccept : Acceptable url reader
    · exact Or.inl haccept
    · obtain ⟨e, he⟩ := load_of_not_acceptable (T := T) (a := a) (d := d) haccept
      exact Or.inr ((foldl_add_cleared _ a).1 (hkept _ _ he))
  · intro h
    have hkept : ∀ e a', load T url same a reader d = .error (e, a') → a' = a := by
      intro e a' he
      by_cases haccept : Acceptable url reader
      · obtain ⟨loaded, hloaded⟩ := load_of_acceptable (T := T) (a := a) (d := d) haccept
        rw [hloaded] at he
        cases he
      · obtain ⟨e', he'⟩ := load_of_not_acceptable (T := T) (a := a) (d := d) haccept
        rw [he'] at he
        cases he
        exact (foldl_add_cleared _ a).2 (h.resolve_left haccept)
    refine ⟨hkept, ?_⟩
    rintro rfl a' hid
    by_cases hload : load T url same a reader false = .ok a'
    · exact Or.inl hload
    · obtain ⟨e, he⟩ := error_of_fromId hid hload
      exact Or.inr (hkept e a' he)

end Left

/-! ## A disk that fails -/

def keeping : Acl :=
  { Acl.empty with bypassHostnames := OrderedSet.empty.add "kept.org" }

/-- The disk fails behind the first line. -/
def broken : Reader where
  lines := ["example.com"]
  fails := true

/-- The object is neither loaded nor as it was. -/
theorem fromId_broken :
    (∃ a', fromId twoAddresses oneURL sameURL keeping (some broken) = .ok a' ∧
      a'.bypassHostnames.items = ["example.com"] ∧ a' ≠ keeping ∧
      load twoAddresses oneURL sameURL keeping broken false ≠ .ok a') ∧
      ¬ Unspoilt twoAddresses oneURL sameURL keeping broken false := by
  have hload : load twoAddresses oneURL sameURL keeping broken false =
      .error (.io, { Acl.empty with bypassHostnames := OrderedSet.empty.add "example.com" }) := by
    decide +kernel
  have hid : fromId twoAddresses oneURL sameURL keeping (some broken) =
      .ok { Acl.empty with bypassHostnames := OrderedSet.empty.add "example.com" } := by
    rw [fromId, hload]
  have hchanged : { Acl.empty with bypassHostnames := OrderedSet.empty.add "example.com" } ≠
      keeping := by
    decide +kernel
  constructor
  · refine ⟨_, hid, by decide, hchanged, ?_⟩
    rw [hload]
    exact fun h => by cases h
  · intro h
    exact hchanged (h.1 _ _ hload)

end Acl
end SpinVpn
