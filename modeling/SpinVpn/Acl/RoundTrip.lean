import SpinVpn.Acl.Acl

/-!
# RoundTrip — printing a list and reading it again

What a list holds after it was read is `Accepted`: each host name stands for itself on a line of its
own, and each subnet and each URL has been read from a text.  The printed lines of such a list are
read back one block at a time, whatever the default mode (`fromReader_toString`).

The lists are taken to be sets.  For those of host names and subnets this is so; for the imports it
says that those are the same that compare equal (`URLSorter.Separates`).
-/

namespace SpinVpn
namespace Acl

open Net Utils
open Database (isLine isLineTerminator)

variable {T : AddressText} {url : String → Option URL} {same : URL → URL → Bool}

/-! ## What is read -/

/-- A line that is a host name and nothing else. -/
structure Hostname (T : AddressText) (h : String) : Prop where
  uncommented : '#' ∉ h.toList
  trimmed : trim h = h
  nonempty : h ≠ ""
  unbracketed : h.toList.head? ≠ some '['
  unbroken : Unbroken h
  notSubnet : Subnet.fromString T h = none

/-- An address that stood between the angle brackets of an import. -/
def Imported (url : String → Option URL) (u : URL) : Prop :=
  ∃ text, url text = some u ∧ isLine text.toList = true

/-- Imports that compare equal are the same, so that the list of them is a set. -/
def URLSorter.Separates (url : String → Option URL) (same : URL → URL → Bool) : Prop :=
  ∀ {u v}, Imported url u → Imported url v → URLSorter.compare u v = 0 → same u v = true

structure Accepted (T : AddressText) (url : String → Option URL) (a : Acl) : Prop where
  bypassHostnames : ∀ h ∈ a.bypassHostnames.items, Hostname T h
  proxyHostnames : ∀ h ∈ a.proxyHostnames.items, Hostname T h
  subnets : ∀ s ∈ a.subnets.items, s.Read T
  urls : ∀ u ∈ a.urls.items, Imported url u
  ascending : a.urls.items.Pairwise (fun u v => SortedList.order URLSorter.compare u v = .lt)

theorem accepted_cleared (b : Bool) : Accepted T url { Acl.empty with bypass := b } := by
  constructor <;> simp [Acl.empty, OrderedSet.empty, SortedList.Sorted.empty]

theorem isLine_of_matchImport {s text : String} (h : matchImport s = some text) :
    isLine text.toList = true := by
  unfold matchImport at h
  split at h
  · split at h
    · dsimp only at h
      split at h
      · rename_i hbody
        cases h
        rw [String.toList_ofList]
        exact hbody.2.2
      · cases h
    · cases h
  · cases h

namespace Parser

/-- The invariant of the parser, with the callbacks of a list. -/
structure Sound (T : AddressText) (url : String → Option URL) (s : Parser Acl) : Prop where
  state : Accepted T url s.state
  bypassSubnets : ∀ n ∈ s.bypassSubnets, n.Read T
  proxySubnets : ∀ n ∈ s.proxySubnets, n.Read T

variable {s s' : Parser Acl}

theorem sound_comment (hsep : URLSorter.Separates url same) (hs : Sound T url s) {line rest : String}
    (h : s.comment url (adding same) line = .ok (s', rest)) :
    Sound T url s' ∧ rest = (split2 '#' line).1 := by
  simp only [comment, adding] at h
  split at h
  · cases h
    exact ⟨hs, rfl⟩
  · rename_i text htext
    split at h
    · cases h
    · rename_i u hu
      cases h
      have himported : Imported url u := ⟨text, hu, isLine_of_matchImport htext⟩
      -- only the imports have changed
      refine ⟨⟨⟨hs.state.bypassHostnames, hs.state.proxyHostnames, hs.state.subnets, ?_, ?_⟩,
        hs.bypassSubnets, hs.proxySubnets⟩, rfl⟩
      · intro v hv
        rcases SortedList.Sorted.mem_of_mem_add hv with rfl | hv
        · exact himported
        · exact hs.state.urls v hv
      · exact SortedList.ascending_add hs.state.ascending
          (fun v hv => hsep (hs.state.urls v hv) himported)

theorem sound_enter (hs : Sound T url s) {input : String} (h : s.enter input = some s') :
    Sound T url s' := by
  have hframe : s'.state = s.state ∧ s'.bypassSubnets = s.bypassSubnets ∧
      s'.proxySubnets = s.proxySubnets := by
    unfold enter at h
    repeat' split at h
    all_goals cases h
    all_goals exact ⟨rfl, rfl, rfl⟩
  rcases hframe with ⟨hstate, hbypass, hproxy⟩
  exact ⟨hstate ▸ hs.state, hbypass ▸ hs.bypassSubnets, hproxy ▸ hs.proxySubnets⟩

theorem sound_addRule (hs : Sound T url s) {b : Block} {input : String}
    (h : Subnet.fromString T input = none → Hostname T input) :
    Sound T url (s.addRule T (adding same) b input) := by
  rw [addRule]
  split
  · rename_i hnone
    cases b with
    | bypass =>
        refine ⟨⟨?_, hs.state.proxyHostnames, hs.state.subnets, hs.state.urls, hs.state.ascending⟩,
          hs.bypassSubnets, hs.proxySubnets⟩
        intro g hg
        rcases OrderedSet.mem_insert hg with rfl | hg
        · exact h hnone
        · exact hs.state.bypassHostnames g hg
    | proxy =>
        refine ⟨⟨hs.state.bypassHostnames, ?_, hs.state.subnets, hs.state.urls, hs.state.ascending⟩,
          hs.bypassSubnets, hs.proxySubnets⟩
        intro g hg
        rcases OrderedSet.mem_insert hg with rfl | hg
        · exact h hnone
        · exact hs.state.proxyHostnames g hg
  · rename_i subnet hsome
    have hread := Subnet.read_of_fromString hsome
    have hadd : ∀ l : List Subnet, (∀ n ∈ l, n.Read T) → ∀ n ∈ l ++ [subnet], n.Read T := by
      intro l hl n hn
      rcases List.mem_append.1 hn with hn | hn
      · exact hl n hn
      · rw [List.mem_singleton.1 hn]
        exact hread
    cases b with
    | bypass => exact ⟨hs.state, hadd _ hs.bypassSubnets, hs.proxySubnets⟩
    | proxy => exact ⟨hs.state, hs.bypassSubnets, hadd _ hs.proxySubnets⟩

theorem sound_readLine (hsep : URLSorter.Separates url same) (hs : Sound T url s) {line : String}
    (hline : Unbroken line) (h : s.readLine T url (adding same) line = .ok s') : Sound T url s' := by
  rw [readLine] at h
  cases hcomment : s.comment url (adding same) line with
  | error e =>
      rw [hcomment] at h
      cases h
  | ok r =>
      rw [hcomment] at h
      rcases sound_comment hsep hs hcomment with ⟨hs₁, hrest⟩
      simp only [Except.bind, readInput] at h
      split at h
      · split at h
        · cases h
        · rename_i s₂ henter
          cases h
          exact sound_enter hs₁ henter
      · rename_i hbracket
        split at h
        · cases h
          exact hs₁
        · split at h
          · cases h
            exact hs₁
          · rename_i b _ hempty
            cases h
            -- what is added stood before the comment, and was trimmed
            refine sound_addRule hs₁ (fun hnone => ?_)
            have hchars : ∀ c ∈ (trim r.2).toList, c ∈ (split2 '#' line).1.toList := by
              intro c hc
              rw [← hrest]
              exact mem_trim hc
            refine ⟨?_, trim_trim _, hempty, hbracket, ?_, hnone⟩
            · exact fun hhash => not_mem_split2 '#' line (hchars _ hhash)
            · exact fun c hc => hline c (mem_split2_fst (hchars c hc))

theorem sound_run (hsep : URLSorter.Separates url same) (lines : List String) :
    ∀ {s : Parser Acl}, Sound T url s → (∀ line ∈ lines, Unbroken line) →
      s.run T url (adding same) lines = .ok s' → Sound T url s' := by
  induction lines with
  | nil =>
      intro s hs _ h
      cases h
      exact hs
  | cons line lines ih =>
      intro s hs hlines h
      rw [run, List.foldlM_cons] at h
      cases hstep : s.readLine T url (adding same) line with
      | error e =>
          rw [hstep] at h
          cases h
      | ok s₁ =>
          rw [hstep] at h
          refine ih (sound_readLine hsep hs (hlines line List.mem_cons_self) hstep) ?_ h
          exact fun l hl => hlines l (List.mem_cons_of_mem _ hl)

end Parser

theorem accepted_fromReader (hsep : URLSorter.Separates url same) {a₀ a : Acl} {text : String}
    {d : Bool} (h : fromReader T url same a₀ text d = .ok a) : Accepted T url a := by
  simp only [fromReader, parse] at h
  cases hrun : (Parser.start { Acl.empty with bypass := a₀.bypass } d).run T url (adding same)
      (useLines text) with
  | error e =>
      rw [hrun] at h
      cases h
  | ok s =>
      rw [hrun] at h
      cases h
      have hstart : Parser.Sound T url (Parser.start { Acl.empty with bypass := a₀.bypass } d) :=
        ⟨accepted_cleared _, by simp [Parser.start], by simp [Parser.start]⟩
      have hs := Parser.sound_run hsep _ hstart (fun _ hline => unbroken_of_mem_useLines hline) hrun
      refine ⟨hs.state.bypassHostnames, hs.state.proxyHostnames, ?_, hs.state.urls,
        hs.state.ascending⟩
      intro n hn
      rcases OrderedSet.mem_addAll _ hn with hn | hn
      · exact hs.state.subnets n hn
      -- the mode decides which of the two lists is kept
      · dsimp only at hn
        split at hn
        · exact hs.proxySubnets n hn
        · exact hs.bypassSubnets n hn

/-! ## Printed lines -/

/-- A block without rules has no header either. -/
def blockLines (header : String) (list : List String) : List String :=
  if list = [] then [] else header :: list

/-- A line that names a block or a mode. -/
structure Header (h : String) : Prop where
  uncommented : '#' ∉ h.toList
  word : ∀ c ∈ h.toList, isWhitespace c = false
  bracketed : h.toList.head? = some '['

theorem header_bypassAll : Header "[bypass_all]" :=
  ⟨by simp, by simp [isWhitespace], by simp⟩

theorem header_proxyAll : Header "[proxy_all]" :=
  ⟨by simp, by simp [isWhitespace], by simp⟩

theorem header_bypassList : Header "[bypass_list]" :=
  ⟨by simp, by simp [isWhitespace], by simp⟩

theorem header_proxyList : Header "[proxy_list]" :=
  ⟨by simp, by simp [isWhitespace], by simp⟩

def urlLine (u : URL) : String :=
  String.ofList ('#' :: ("IMPORT_URL <".toList ++ u.externalForm.toList ++ ['>']))

def printedLines (T : AddressText) (a : Acl) : List String :=
  (if a.bypass then "[bypass_all]" else "[proxy_all]") ::
    (blockLines "[bypass_list]" (a.bypassList T) ++ blockLines "[proxy_list]" (a.proxyList T) ++
      a.urls.items.map urlLine)

theorem intercalate_newline (list : List String) (h : list ≠ []) :
    List.intercalate ['\n'] (list.map String.toList) ++ ['\n'] =
      list.flatMap (fun line => line.toList ++ ['\n']) := by
  induction list with
  | nil => exact absurd rfl h
  | cons line list ih =>
      cases list with
      | nil => simp
      | cons next list =>
          -- a separator between two lines is the end of the first
          have hrest := ih (by simp)
          rw [List.flatMap_cons, ← hrest]
          simp

theorem printBlock_eq (header : String) (list : List String) :
    Acl.printBlock header list =
      (blockLines header list).flatMap (fun line => line.toList ++ ['\n']) := by
  rw [Acl.printBlock, blockLines]
  split
  · rfl
  · rename_i hne
    rw [List.flatMap_cons, ← intercalate_newline list hne]
    simp

theorem printURL_eq (u : URL) : Acl.printURL u = (urlLine u).toList ++ ['\n'] := by
  have hstart : "#IMPORT_URL <".toList = '#' :: "IMPORT_URL <".toList := by simp
  have hend : ">\n".toList = ['>', '\n'] := by simp
  unfold Acl.printURL urlLine
  simp only [String.toList_ofList, hstart, hend, List.cons_append, List.append_assoc,
    List.nil_append]

theorem toString_eq (a : Acl) :
    a.toString T =
      String.ofList ((printedLines T a).flatMap (fun line => line.toList ++ ['\n'])) := by
  have hbypass : "[bypass_all]\n".toList = "[bypass_all]".toList ++ ['\n'] := by simp
  have hproxy : "[proxy_all]\n".toList = "[proxy_all]".toList ++ ['\n'] := by simp
  have hurls : a.urls.items.flatMap Acl.printURL =
      (a.urls.items.map urlLine).flatMap (fun line => line.toList ++ ['\n']) := by
    rw [List.flatMap_map]
    exact List.flatMap_congr (fun u _ => printURL_eq u)
  rw [Acl.toString, printedLines, printBlock_eq, printBlock_eq, hurls]
  cases a.bypass with
  | false => simp [hproxy]
  | true => simp [hbypass]

namespace Parser

variable {s : Parser Acl}

/-! ## One line -/

theorem readLine_of_uncommented {line : String} (h : '#' ∉ line.toList) :
    s.readLine T url (adding same) line = s.readInput T (adding same) (trim line) := by
  have hnone : matchImport "" = none := by simp [matchImport]
  simp [readLine, comment, adding, split2_of_not_mem h, hnone, Except.bind]

theorem readLine_header {header : String} {s' : Parser Acl} (hheader : Header header)
    (henter : s.enter header = some s') : s.readLine T url (adding same) header = .ok s' := by
  rw [readLine_of_uncommented hheader.uncommented, trim_eq_self hheader.word, readInput,
    if_pos hheader.bracketed, henter]

theorem readLine_hostname {h : String} (hh : Hostname T h) {b : Block} (hb : s.block = some b) :
    s.readLine T url (adding same) h = .ok (s.addHostname (adding same) b h) := by
  rw [readLine_of_uncommented hh.uncommented, hh.trimmed, readInput, if_neg hh.unbracketed, hb]
  simp only [if_neg hh.nonempty, addRule, hh.notSubnet]

theorem readLine_subnet (hT : T.Lawful) {n : Subnet} (hn : n.Read T) {b : Block}
    (hb : s.block = some b) :
    s.readLine T url (adding same) (n.toString T) = .ok (s.addSubnet b n) := by
  have hchars : ∀ c ∈ (n.toString T).toList, c ≠ '#' ∧ c ≠ '[' ∧ isWhitespace c = false :=
    fun c hc => Subnet.toString_chars hT hn hc
  have hhash : '#' ∉ (n.toString T).toList := fun hmem => (hchars _ hmem).1 rfl
  have htrim : trim (n.toString T) = n.toString T :=
    trim_eq_self (fun c hc => (hchars c hc).2.2)
  have hbracket : (n.toString T).toList.head? ≠ some '[' :=
    fun hhead => (hchars _ (List.mem_of_mem_head? hhead)).2.1 rfl
  rw [readLine_of_uncommented hhash, htrim, readInput, if_neg hbracket, hb]
  simp only [if_neg (Subnet.toString_ne_empty hT hn), addRule, Subnet.fromString_toString hT hn]

theorem matchImport_line {l : List Char} (hne : l ≠ []) (hline : isLine l = true) :
    matchImport (String.ofList ("IMPORT_URL <".toList ++ l ++ ['>'])) = some (String.ofList l) := by
  have hsplit : "IMPORT_URL <".toList ++ l ++ ['>'] =
      "IMPORT_URL".toList ++ (' ' :: '<' :: (l ++ ['>'])) := by
    have hlit : "IMPORT_URL <".toList = "IMPORT_URL".toList ++ [' ', '<'] := by simp
    simp [hlit]
  have hdrop : ("IMPORT_URL".toList ++ (' ' :: '<' :: (l ++ ['>']))).drop 10 =
      ' ' :: '<' :: (l ++ ['>']) := List.drop_left' (by simp)
  have hblank : (' ' :: '<' :: (l ++ ['>'])).dropWhile isSpace = '<' :: (l ++ ['>']) := by
    rw [List.dropWhile_cons_of_pos (by decide), List.dropWhile_cons_of_neg (by decide)]
  -- the last `>` closes the address, also where it holds others
  have hclose : (l ++ ['>']).rdropWhile isSpace = l ++ ['>'] :=
    List.rdropWhile_concat_neg _ _ _ (by decide)
  have hprefix : "IMPORT_URL".toList.isPrefixOf
      ("IMPORT_URL".toList ++ (' ' :: '<' :: (l ++ ['>']))) = true :=
    List.isPrefixOf_iff_prefix.2 (List.prefix_append _ _)
  unfold matchImport
  simp only [hsplit, String.toList_ofList, hprefix, hdrop, hblank, hclose, List.dropLast_concat,
    List.getLast?_concat, hne, hline, ne_eq, not_false_eq_true, and_self, if_true]

theorem readInput_empty : s.readInput T (adding same) "" = .ok s := by
  rw [readInput, if_neg (by simp)]
  cases s.block with
  | none => rfl
  | some b => simp

theorem readLine_url (hU : URL.Lawful url) {u : URL} (hu : Imported url u) :
    s.readLine T url (adding same) (urlLine u) =
      .ok { s with state := { s.state with urls := s.state.urls.add same true u } } := by
  rcases hu with ⟨text, htext, hline⟩
  have hne : u.externalForm.toList ≠ [] := fun hnil =>
    hU.nonempty htext (String.toList_eq_nil_iff.1 hnil)
  have hmatch := matchImport_line hne (hU.line htext hline)
  rw [String.ofList_toList] at hmatch
  have hsplit : split2 '#' (urlLine u) =
      ("", some (String.ofList ("IMPORT_URL <".toList ++ u.externalForm.toList ++ ['>']))) :=
    split2_append (l := []) (by simp) _
  -- nothing stands before the comment
  have htrim : trim "" = "" := by simp [trim]
  simp only [readLine, comment, adding, hsplit, Option.getD_some, hmatch, hU.inverse htext,
    Except.bind, htrim]
  exact readInput_empty

/-! ## Blocks of lines -/

theorem run_append (lines lines' : List String) :
    s.run T url (adding same) (lines ++ lines') =
      (s.run T url (adding same) lines).bind (fun s' => s'.run T url (adding same) lines') :=
  List.foldlM_append

theorem run_cons {line : String} {s' : Parser Acl} (h : s.readLine T url (adding same) line = .ok s')
    (lines : List String) :
    s.run T url (adding same) (line :: lines) = s'.run T url (adding same) lines := by
  rw [run, List.foldlM_cons, h]
  rfl

/-- The parser after it has read the rules of a block. -/
def filled (b : Block) (subnets : List Subnet) (hostnames : List String) (s : Parser Acl) :
    Parser Acl :=
  match b with
  | .bypass =>
      { s with
        bypassSubnets := s.bypassSubnets ++ subnets
        state := { s.state with bypassHostnames := s.state.bypassHostnames.addAll hostnames } }
  | .proxy =>
      { s with
        proxySubnets := s.proxySubnets ++ subnets
        state := { s.state with proxyHostnames := s.state.proxyHostnames.addAll hostnames } }

theorem filled_nil (b : Block) : s.filled b [] [] = s := by
  cases b <;> simp [filled, OrderedSet.addAll]

theorem filled_filled (b : Block) (subnets subnets' : List Subnet)
    (hostnames hostnames' : List String) :
    (s.filled b subnets hostnames).filled b subnets' hostnames' =
      s.filled b (subnets ++ subnets') (hostnames ++ hostnames') := by
  cases b <;> simp [filled, OrderedSet.addAll]

theorem addSubnet_eq (b : Block) (n : Subnet) : s.addSubnet b n = s.filled b [n] [] := by
  cases b <;> rfl

theorem addHostname_eq (b : Block) (h : String) :
    s.addHostname (adding same) b h = s.filled b [] [h] := by
  cases b <;> simp [filled, addHostname, adding, OrderedSet.addAll]

@[simp] theorem block_filled (b : Block) (subnets : List Subnet) (hostnames : List String) :
    (s.filled b subnets hostnames).block = s.block := by
  cases b <;> rfl

theorem filled_block (b : Block) (subnets : List Subnet) (hostnames : List String)
    (k : Option Block) :
    ({ s with block := k } : Parser Acl).filled b subnets hostnames =
      { s.filled b subnets hostnames with block := k } := by
  cases b <;> rfl

theorem run_subnets (hT : T.Lawful) {b : Block} (subnets : List Subnet) :
    ∀ {s : Parser Acl}, s.block = some b → (∀ n ∈ subnets, n.Read T) →
      s.run T url (adding same) (subnets.map (Subnet.toString T)) = .ok (s.filled b subnets []) := by
  induction subnets with
  | nil =>
      intro s _ _
      rw [filled_nil]
      rfl
  | cons n subnets ih =>
      intro s hb hread
      have hstep : s.readLine T url (adding same) (n.toString T) = .ok (s.filled b [n] []) := by
        rw [readLine_subnet hT (hread n List.mem_cons_self) hb, addSubnet_eq]
      have htail := ih (s := s.filled b [n] []) (by simpa using hb)
        (fun m hm => hread m (List.mem_cons_of_mem _ hm))
      calc
        s.run T url (adding same) ((n :: subnets).map (Subnet.toString T)) =
            (s.filled b [n] []).run T url (adding same) (subnets.map (Subnet.toString T)) :=
          run_cons hstep _
        _ = .ok ((s.filled b [n] []).filled b subnets []) := htail
        _ = .ok (s.filled b (n :: subnets) []) := by
          rw [filled_filled]
          rfl

theorem run_hostnames {b : Block} (hostnames : List String) :
    ∀ {s : Parser Acl}, s.block = some b → (∀ h ∈ hostnames, Hostname T h) →
      s.run T url (adding same) hostnames = .ok (s.filled b [] hostnames) := by
  induction hostnames with
  | nil =>
      intro s _ _
      rw [filled_nil]
      rfl
  | cons h hostnames ih =>
      intro s hb hhost
      have hstep : s.readLine T url (adding same) h = .ok (s.filled b [] [h]) := by
        rw [readLine_hostname (hhost h List.mem_cons_self) hb, addHostname_eq]
      have htail := ih (s := s.filled b [] [h]) (by simpa using hb)
        (fun g hg => hhost g (List.mem_cons_of_mem _ hg))
      calc
        s.run T url (adding same) (h :: hostnames) =
            (s.filled b [] [h]).run T url (adding same) hostnames := run_cons hstep _
        _ = .ok ((s.filled b [] [h]).filled b [] hostnames) := htail
        _ = .ok (s.filled b [] (h :: hostnames)) := by
          rw [filled_filled]
          rfl

/-- A printed block is read as its subnets and host names.  Which block is open after it depends on
whether there is one at all. -/
theorem run_block (hT : T.Lawful) {header : String} {b : Block} (hheader : Header header)
    (henter : ∀ s : Parser Acl, s.enter header = some { s with block := some b })
    {subnets : List Subnet} {hostnames : List String} (hsubnets : ∀ n ∈ subnets, n.Read T)
    (hhostnames : ∀ h ∈ hostnames, Hostname T h) :
    ∃ k, s.run T url (adding same)
        (blockLines header (subnets.map (Subnet.toString T) ++ hostnames)) =
      .ok { s.filled b subnets hostnames with block := k } := by
  rw [blockLines]
  split
  -- without rules there is no header, and the block before it stays open
  · rename_i hnil
    rcases List.append_eq_nil_iff.1 hnil with ⟨hmap, rfl⟩
    cases List.map_eq_nil_iff.1 hmap
    refine ⟨s.block, ?_⟩
    rw [filled_nil]
    rfl
  · refine ⟨some b, ?_⟩
    rw [run_cons (readLine_header hheader (henter s)), run_append,
      run_subnets hT subnets rfl hsubnets]
    simp only [Except.bind]
    rw [run_hostnames (b := b) hostnames (by simp) hhostnames, filled_filled, List.append_nil,
      List.nil_append, filled_block]

theorem run_urls (hU : URL.Lawful url) (urls : List URL) :
    ∀ {s : Parser Acl}, (∀ u ∈ urls, Imported url u) →
      s.run T url (adding same) (urls.map urlLine) =
        .ok { s with state := { s.state with urls := s.state.urls.addAll same true urls } } := by
  induction urls with
  | nil =>
      intro s _
      rfl
  | cons u urls ih =>
      intro s h
      rw [List.map_cons, run_cons (readLine_url hU (h u List.mem_cons_self)),
        ih (fun v hv => h v (List.mem_cons_of_mem _ hv))]
      rfl

end Parser

/-! ## The whole text -/

section Whole

variable {a : Acl}

/-- The subnets that are printed in each of the two blocks. -/
def bypassSubnets (a : Acl) : List Subnet :=
  if a.bypass then [] else a.subnets.items

def proxySubnets (a : Acl) : List Subnet :=
  if a.bypass then a.subnets.items else []

theorem bypassList_eq (a : Acl) :
    a.bypassList T = (bypassSubnets a).map (Subnet.toString T) ++ a.bypassHostnames.items := by
  rw [Acl.bypassList, bypassSubnets]
  split <;> rfl

theorem proxyList_eq (a : Acl) :
    a.proxyList T = (proxySubnets a).map (Subnet.toString T) ++ a.proxyHostnames.items := by
  rw [Acl.proxyList, proxySubnets]
  split <;> rfl

theorem read_bypassSubnets (ha : Accepted T url a) : ∀ n ∈ bypassSubnets a, n.Read T := by
  intro n hn
  rw [bypassSubnets] at hn
  split at hn
  · cases hn
  · exact ha.subnets n hn

theorem read_proxySubnets (ha : Accepted T url a) : ∀ n ∈ proxySubnets a, n.Read T := by
  intro n hn
  rw [proxySubnets] at hn
  split at hn
  · exact ha.subnets n hn
  · cases hn

/-! ### No line breaks -/

/-- A word has no line break, and neither has a text that `.+` matches. -/
theorem unbroken_of_word {s : String} (h : ∀ c ∈ s.toList, isWhitespace c = false) : Unbroken s := by
  intro c hc
  have hn : c ≠ '\n' := by
    rintro rfl
    exact absurd (h _ hc) (by decide)
  have hr : c ≠ '\r' := by
    rintro rfl
    exact absurd (h _ hc) (by decide)
  simp [isBreak, hn, hr]

theorem unbroken_of_isLine {s : String} (h : isLine s.toList = true) : Unbroken s := by
  intro c hc
  have hterminator : isLineTerminator c = false := by simpa using List.all_eq_true.1 h c hc
  have hn : c ≠ '\n' := by
    rintro rfl
    simp [isLineTerminator] at hterminator
  have hr : c ≠ '\r' := by
    rintro rfl
    simp [isLineTerminator] at hterminator
  simp [isBreak, hn, hr]

theorem unbroken_urlLine (hU : URL.Lawful url) {u : URL} (hu : Imported url u) :
    Unbroken (urlLine u) := by
  rcases hu with ⟨text, htext, hline⟩
  have hopen : ∀ c ∈ '#' :: "IMPORT_URL <".toList, isBreak c = false := by simp [isBreak]
  intro c hc
  unfold urlLine at hc
  rw [String.toList_ofList, ← List.cons_append, ← List.cons_append, List.mem_append,
    List.mem_append] at hc
  rcases hc with (hc | hc) | hc
  · exact hopen c hc
  · exact unbroken_of_isLine (hU.line htext hline) c hc
  · rw [List.mem_singleton.1 hc]
    decide

theorem unbroken_blockLines (hT : T.Lawful) {header : String} {subnets : List Subnet}
    {hostnames : List String} (hheader : Header header) (hsubnets : ∀ n ∈ subnets, n.Read T)
    (hhostnames : ∀ h ∈ hostnames, Hostname T h) :
    ∀ line ∈ blockLines header (subnets.map (Subnet.toString T) ++ hostnames), Unbroken line := by
  intro line hline
  rw [blockLines] at hline
  split at hline
  · cases hline
  · rcases List.mem_cons.1 hline with rfl | hline
    · exact unbroken_of_word hheader.word
    · rcases List.mem_append.1 hline with hline | hline
      · rcases List.mem_map.1 hline with ⟨n, hn, rfl⟩
        exact unbroken_of_word (fun c hc => (Subnet.toString_chars hT (hsubnets n hn) hc).2.2)
      · exact (hhostnames line hline).unbroken

theorem unbroken_printedLines (hT : T.Lawful) (hU : URL.Lawful url) (ha : Accepted T url a) :
    ∀ line ∈ printedLines T a, Unbroken line := by
  intro line hline
  rw [printedLines, bypassList_eq, proxyList_eq, List.mem_cons, List.mem_append,
    List.mem_append] at hline
  rcases hline with rfl | (hline | hline) | hline
  · cases a.bypass with
    | false => exact unbroken_of_word header_proxyAll.word
    | true => exact unbroken_of_word header_bypassAll.word
  · exact unbroken_blockLines hT header_bypassList (read_bypassSubnets ha) ha.bypassHostnames line
      hline
  · exact unbroken_blockLines hT header_proxyList (read_proxySubnets ha) ha.proxyHostnames line hline
  · rcases List.mem_map.1 hline with ⟨u, hu, rfl⟩
    exact unbroken_urlLine hU (ha.urls u hu)

/-! ### Reading it -/

theorem run_bypassBlock (hT : T.Lawful) (ha : Accepted T url a) (s : Parser Acl) :
    ∃ k, s.run T url (adding same) (blockLines "[bypass_list]" (a.bypassList T)) =
      .ok { s.filled .bypass (bypassSubnets a) a.bypassHostnames.items with block := k } := by
  rw [bypassList_eq]
  exact Parser.run_block hT header_bypassList (fun _ => rfl) (read_bypassSubnets ha)
    ha.bypassHostnames

theorem run_proxyBlock (hT : T.Lawful) (ha : Accepted T url a) (s : Parser Acl) :
    ∃ k, s.run T url (adding same) (blockLines "[proxy_list]" (a.proxyList T)) =
      .ok { s.filled .proxy (proxySubnets a) a.proxyHostnames.items with block := k } := by
  rw [proxyList_eq]
  exact Parser.run_block hT header_proxyList (fun _ => rfl) (read_proxySubnets ha)
    ha.proxyHostnames

/-- The printed lines overwrite the mode and add everything else, whatever was read before. -/
theorem run_printedLines (hT : T.Lawful) (hU : URL.Lawful url) (ha : Accepted T url a)
    (s : Parser Acl) :
    ∃ k, s.run T url (adding same) (printedLines T a) = .ok
      { state :=
          { s.state with
            bypassHostnames := s.state.bypassHostnames.addAll a.bypassHostnames.items
            proxyHostnames := s.state.proxyHostnames.addAll a.proxyHostnames.items
            urls := s.state.urls.addAll same true a.urls.items }
        bypass := a.bypass
        bypassSubnets := s.bypassSubnets ++ bypassSubnets a
        proxySubnets := s.proxySubnets ++ proxySubnets a
        block := k } := by
  have hmode : s.readLine T url (adding same) (if a.bypass then "[bypass_all]" else "[proxy_all]") =
      .ok { s with bypass := a.bypass } := by
    cases a.bypass with
    | false => exact Parser.readLine_header header_proxyAll rfl
    | true => exact Parser.readLine_header header_bypassAll rfl
  -- the two blocks and the imports follow, each from where the one before it left off
  rcases run_bypassBlock hT ha { s with bypass := a.bypass } with ⟨k₁, hbypass⟩
  rcases run_proxyBlock hT ha { Parser.filled .bypass (bypassSubnets a) a.bypassHostnames.items
    { s with bypass := a.bypass } with block := k₁ } with ⟨k₂, hproxy⟩
  refine ⟨k₂, ?_⟩
  rw [printedLines, Parser.run_cons hmode, Parser.run_append, Parser.run_append, hbypass]
  simp only [Except.bind]
  rw [hproxy]
  simp only
  rw [Parser.run_urls hU _ ha.urls]
  rfl

/-- Reading what is printed gives the list again, whatever the default mode and whatever list it is
read into. -/
theorem fromReader_printed (hT : T.Lawful) (hU : URL.Lawful url) (ha : Accepted T url a)
    (a₀ : Acl) (d : Bool) : fromReader T url same a₀ (a.toString T) d = .ok a := by
  rcases run_printedLines hT hU ha (Parser.start { Acl.empty with bypass := a₀.bypass } d) with
    ⟨k, hrun⟩
  have hlines : useLines (a.toString T) = printedLines T a := by
    rw [toString_eq]
    exact useLines_flatMap _ (unbroken_printedLines hT hU ha)
  have hsubnets : (if a.bypass then proxySubnets a else bypassSubnets a) = a.subnets.items := by
    rw [proxySubnets, bypassSubnets]
    split <;> rfl
  rw [fromReader, parse, hlines, hrun]
  simp only [Except.map, Parser.start, Acl.empty, List.nil_append, hsubnets,
    OrderedSet.addAll_items, SortedList.Sorted.addAll_items ha.ascending]

theorem fromReader_toString (hT : T.Lawful) (hU : URL.Lawful url)
    (hsep : URLSorter.Separates url same) {a₀ : Acl} {text : String} {d : Bool}
    (h : fromReader T url same a₀ text d = .ok a) (a₁ : Acl) (d' : Bool) :
    ∃ a', fromReader T url same a₁ (a.toString T) d' = .ok a' ∧ a'.bypass = a.bypass ∧
      a'.bypassHostnames = a.bypassHostnames ∧ a'.proxyHostnames = a.proxyHostnames ∧
      a'.subnets = a.subnets ∧ a'.urls = a.urls ∧ a'.toString T = a.toString T :=
  ⟨a, fromReader_printed hT hU (accepted_fromReader hsep h) a₁ d', rfl, rfl, rfl, rfl, rfl, rfl⟩

end Whole

/-! ## A list with every kind of line -/

/-- A platform that knows one address of each kind. -/
def twoAddresses : AddressText where
  parseNumericAddress := fun text =>
    if text = "10.0.0.0" then some { address := [10, 0, 0, 0], size := Or.inl rfl }
    else if text = "2000::" then
      some { address := [0x20, 0, 0, 0, 0, 0, 0, 0, 0, 0, 0, 0, 0, 0, 0, 0], size := Or.inr rfl }
    else none
  hostAddress := fun a => if a.address.length = 4 then "10.0.0.0" else "2000::"

theorem twoAddresses_lawful : twoAddresses.Lawful := by
  have hread : ∀ {text : String} {a : InetAddress}, twoAddresses.parseNumericAddress text = some a →
      text = "10.0.0.0" ∧ twoAddresses.hostAddress a = "10.0.0.0" ∨
        text = "2000::" ∧ twoAddresses.hostAddress a = "2000::" := by
    intro text a h
    simp only [twoAddresses] at h ⊢
    split at h
    · rename_i htext
      cases h
      exact Or.inl ⟨htext, rfl⟩
    · split at h
      · rename_i htext
        cases h
        exact Or.inr ⟨htext, rfl⟩
      · cases h
  constructor
  · intro text a h
    rcases hread h with ⟨rfl, hform⟩ | ⟨rfl, hform⟩
    · rw [hform, h]
    · rw [hform, h]
  · intro text a h
    rcases hread h with ⟨-, hform⟩ | ⟨-, hform⟩
    · rw [hform]
      decide
    · rw [hform]
      decide
  · intro text a h
    rcases hread h with ⟨-, hform⟩ | ⟨-, hform⟩
    · rw [hform]
      simp [isAddressChar, isWhitespace]
    · rw [hform]
      simp [isAddressChar, isWhitespace]

/-- The same for the address of a list. -/
def oneURL (text : String) : Option URL :=
  if text = "ftp://d/#e" then
    some { protocol := "ftp", host := "d", port := -1, file := "/", externalForm := "ftp://d/#e" }
  else none

theorem oneURL_lawful : URL.Lawful oneURL := by
  have hread : ∀ {text : String} {u : URL}, oneURL text = some u →
      text = "ftp://d/#e" ∧ u.externalForm = "ftp://d/#e" := by
    intro text u h
    rw [oneURL] at h
    split at h
    · rename_i htext
      cases h
      exact ⟨htext, rfl⟩
    · cases h
  constructor
  · intro text u h
    rw [(hread h).2, ← (hread h).1, h]
  · intro text u h
    rw [(hread h).2]
    decide
  · intro text u h _
    rw [(hread h).2]
    simp [isLine, isLineTerminator]

/-- Addresses are the same if their texts are. -/
def sameURL (u v : URL) : Bool :=
  u.externalForm = v.externalForm

theorem oneURL_separates : URLSorter.Separates oneURL sameURL := by
  rintro u v ⟨text, htext, -⟩ ⟨text', htext', -⟩ -
  unfold oneURL at htext htext'
  split at htext <;> cases htext
  split at htext' <;> cases htext'
  decide

def everyKind : List String :=
  ["[bypass_all]", "[white_list]", " 10.0.0.0/08 # private", "example.com", "[black_list]", "2000::",
    "*.org", "[outbound_block_list]", "ads", "#IMPORT_URL<ftp://d/#e> "]

/-- The lines, with a line feed behind each. -/
def everyKindText : String :=
  String.ofList (everyKind.flatMap (fun line => line.toList ++ ['\n']))

theorem fromReader_toString_everyKind :
    ∃ a, fromReader twoAddresses oneURL sameURL Acl.empty everyKindText false = .ok a ∧
      a.bypass = true ∧ a.subnets.items.length = 1 ∧ a.urls.items.length = 1 ∧
      ∃ a', fromReader twoAddresses oneURL sameURL Acl.empty (a.toString twoAddresses) true = .ok a' ∧
        a'.bypass = a.bypass ∧ a'.bypassHostnames = a.bypassHostnames ∧
        a'.proxyHostnames = a.proxyHostnames ∧ a'.subnets = a.subnets ∧ a'.urls = a.urls ∧
        a'.toString twoAddresses = a.toString twoAddresses := by
  have hlines : useLines everyKindText = everyKind :=
    useLines_flatMap _ (by simp [everyKind, Unbroken, isBreak])
  have hread : (fromReader twoAddresses oneURL sameURL Acl.empty everyKindText false).toOption.map
      (fun a => (a.bypass, a.subnets.items.length, a.urls.items.length)) = some (true, 1, 1) := by
    rw [fromReader, parse, hlines]
    decide +kernel
  cases hcase : fromReader twoAddresses oneURL sameURL Acl.empty everyKindText false with
  | error e =>
      rw [hcase] at hread
      cases hread
  | ok a =>
      rw [hcase] at hread
      have hfacts := Option.some.inj hread
      simp only [Prod.mk.injEq] at hfacts
      exact ⟨a, rfl, hfacts.1, hfacts.2.1, hfacts.2.2,
        fromReader_toString twoAddresses_lawful oneURL_lawful oneURL_separates hcase Acl.empty true⟩

end Acl
end SpinVpn
