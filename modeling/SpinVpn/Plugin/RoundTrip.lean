import Mathlib.Data.List.Basic
import SpinVpn.Lib.Codec
import SpinVpn.Plugin.Options

/-!
# RoundTrip — printing plugin options and reading them back

The parser reads an escaped text as the text (`run_escape`), so it reads a printed entry as the
entry (`run_printEntry`) and a printed map as the map, whatever the order it was printed in.

Two things stand in the way of a round trip through `PluginConfiguration`:

* an option value with a control character, which a legacy `kcptun` line may hold but the parser
  refuses, and
* an id that starts with `kcptun `, which sends the printed line down the legacy path.

`Portable` excludes them, and `readBack_iff_portable` says that it excludes nothing else.
-/

namespace SpinVpn
namespace Plugin

open Utils

namespace PluginOptions

/-! ## Escaped text -/

theorem run_backslash (s : Parser) (d : Char) (rest : List Char) :
    s.run ('\\' :: d :: rest) = (s.append d).run rest := rfl

theorem run_plain (s : Parser) {c : Char} (hc : ¬ (c = '\\' ∨ c = '=' ∨ c = ';'))
    (rest : List Char) : s.run (c :: rest) = (s.append c).run rest := by
  simp only [not_or] at hc
  rw [Parser.run.eq_def]
  simp [hc]

theorem run_semicolon (s : Parser) (rest : List Char) :
    s.run (';' :: rest) = s.endOption.run rest := by
  rw [Parser.run.eq_def]
  simp

theorem run_equals {s : Parser} (hkey : s.key = none) (rest : List Char) :
    s.run ('=' :: rest) =
      Parser.run { s with key := some (String.ofList s.current), current := [] } rest := by
  rw [Parser.run.eq_def]
  simp [hkey]

theorem run_escape (l : List Char) :
    ∀ (s : Parser) (rest : List Char),
      s.run (l.flatMap escapeChar ++ rest) = Parser.run { s with current := s.current ++ l } rest := by
  induction l with
  | nil =>
      intro s rest
      simp
  | cons c l ih =>
      intro s rest
      have happend : ({ s.append c with current := (s.append c).current ++ l } : Parser) =
          { s with current := s.current ++ c :: l } := by
        simp [Parser.append]
      by_cases hc : c = '\\' ∨ c = '=' ∨ c = ';'
      · simp only [List.flatMap_cons, escapeChar, if_pos hc, List.cons_append, List.nil_append]
        rw [run_backslash, ih, happend]
      · simp only [List.flatMap_cons, escapeChar, if_neg hc, List.cons_append, List.nil_append]
        rw [run_plain s hc, ih, happend]

/-- The state of the parser between two options. -/
def between (o : PluginOptions) (parseId : Bool) : Parser where
  options := o
  parseId := parseId

/-- A printed entry is read as the entry. -/
theorem run_printEntry (o : PluginOptions) {e : String × Option String} (he : e ≠ ("", none))
    (rest : List Char) :
    (between o false).run (printEntry e ++ ';' :: rest) = (between (o.put e.1 e.2) false).run rest := by
  rcases e with ⟨key, _ | value⟩
  · have hne : key.toList ≠ [] := by
      intro hnil
      apply he
      rw [String.toList_eq_nil_iff.1 hnil]
    simp only [printEntry, escape, List.append_nil]
    rw [run_escape, run_semicolon]
    simp [Parser.endOption, between, hne]
  · simp only [printEntry, escape, List.append_assoc, List.cons_append]
    rw [run_escape, run_equals rfl, run_escape, run_semicolon]
    simp [Parser.endOption, between]

/-! ## Printed maps -/

def putAll (o : PluginOptions) (entries : List (String × Option String)) : PluginOptions :=
  entries.foldl (fun o e => o.put e.1 e.2) o

theorem run_entries (entries : List (String × Option String)) :
    ∀ (o : PluginOptions) (rest : List Char), (∀ e ∈ entries, e ≠ ("", none)) →
      (between o false).run (entries.flatMap (fun e => printEntry e ++ [';']) ++ rest) =
        (between (o.putAll entries) false).run rest := by
  induction entries with
  | nil =>
      intro o rest _
      rfl
  | cons e entries ih =>
      intro o rest hne
      calc
        (between o false).run ((e :: entries).flatMap (fun e => printEntry e ++ [';']) ++ rest) =
            (between o false).run (printEntry e ++
              ';' :: (entries.flatMap (fun e => printEntry e ++ [';']) ++ rest)) := by
          rw [List.flatMap_cons, List.append_assoc, List.append_assoc, List.singleton_append]
        _ = (between (o.put e.1 e.2) false).run
            (entries.flatMap (fun e => printEntry e ++ [';']) ++ rest) :=
          run_printEntry o (hne e List.mem_cons_self) _
        _ = (between (o.putAll (e :: entries)) false).run rest :=
          ih _ rest (fun x hx => hne x (List.mem_cons_of_mem _ hx))

theorem printEntries_of_ne_nil (entries : List (String × Option String)) :
    ∀ {init : List Char}, init ≠ [] →
      printEntries init entries = init ++ entries.flatMap (fun e => ';' :: printEntry e) := by
  induction entries with
  | nil =>
      intro init _
      simp [printEntries]
  | cons e entries ih =>
      intro init hne
      have hstep : printEntries init (e :: entries) =
          printEntries (init ++ ';' :: printEntry e) entries := by
        simp [printEntries, hne]
      rw [hstep, ih (by simp)]
      simp

/-- The separators may as well be read as terminators. -/
theorem flatMap_shift (entries : List (String × Option String)) (init : List Char) :
    init ++ entries.flatMap (fun e => ';' :: printEntry e) ++ [';'] =
      init ++ ';' :: entries.flatMap (fun e => printEntry e ++ [';']) := by
  induction entries generalizing init with
  | nil => simp
  | cons e entries ih =>
      have hnext := ih (init ++ ';' :: printEntry e)
      simp only [List.flatMap_cons, List.append_assoc, List.cons_append, List.nil_append] at hnext ⊢
      exact hnext

theorem printEntry_ne_nil {e : String × Option String} (he : e ≠ ("", none)) :
    printEntry e ≠ [] := by
  rcases e with ⟨key, _ | value⟩
  · intro hnil
    apply he
    simp only [printEntry, escape, List.append_nil] at hnil
    cases hkey : key.toList with
    | nil => rw [String.toList_eq_nil_iff.1 hkey]
    | cons c l =>
        rw [hkey, List.flatMap_cons] at hnil
        have hc := (List.append_eq_nil_iff.1 hnil).1
        simp only [escapeChar] at hc
        split at hc <;> cases hc
  · simp [printEntry]

/-- Printed without the id and closed by a `;`, a map is the sequence of its entries. -/
theorem printEntries_nil {entries : List (String × Option String)}
    (hne : ∀ e ∈ entries, e ≠ ("", none)) (hentries : entries ≠ []) :
    printEntries [] entries ++ [';'] = entries.flatMap (fun e => printEntry e ++ [';']) ∧
      printEntries [] entries ≠ [] := by
  cases entries with
  | nil => exact absurd rfl hentries
  | cons e entries =>
      have hfirst := printEntry_ne_nil (hne e List.mem_cons_self)
      have hstep : printEntries [] (e :: entries) = printEntries (printEntry e) entries := by
        simp [printEntries]
      rw [hstep, printEntries_of_ne_nil entries hfirst, flatMap_shift]
      constructor
      · simp
      · simp [hfirst]

theorem foldl_put_entries (entries : List (String × Option String)) :
    ∀ (o : PluginOptions), ((o.entries ++ entries).map Prod.fst).Nodup →
      (o.putAll entries).entries = o.entries ++ entries ∧ (o.putAll entries).id = o.id := by
  induction entries with
  | nil =>
      intro o _
      exact ⟨(List.append_nil _).symm, rfl⟩
  | cons e entries ih =>
      intro o hnodup
      have hnew : e.1 ∉ o.entries.map Prod.fst := by
        rw [List.map_append, List.map_cons, List.nodup_append] at hnodup
        intro hmem
        exact hnodup.2.2 _ hmem _ List.mem_cons_self rfl
      have hput : (o.put e.1 e.2).entries = o.entries ++ [e] := Keyed.put_of_not_mem _ hnew
      have hcons : o.putAll (e :: entries) = (o.put e.1 e.2).putAll entries := rfl
      rw [hcons]
      rcases ih (o.put e.1 e.2) (by simpa [hput] using hnodup) with ⟨hentries, hid⟩
      exact ⟨by simp [hentries, hput], hid⟩

/-- The same map, with its entries in the order in which they are printed. -/
def reordered (H : HashOrder) (o : PluginOptions) : PluginOptions where
  id := o.id
  entries := H.entries o.entries
  nodup := ((H.perm o.entries).map Prod.fst).nodup_iff.2 o.nodup

theorem ext_of {o o' : PluginOptions} (hid : o.id = o'.id) (hentries : o.entries = o'.entries) :
    o = o' := by
  cases o
  cases o'
  simp_all

theorem putAll_reordered (H : HashOrder) (o : PluginOptions) {start : PluginOptions}
    (hstart : start.entries = []) :
    (start.putAll (H.entries o.entries)).entries = (reordered H o).entries ∧
      (start.putAll (H.entries o.entries)).id = start.id := by
  have hnodup : ((start.entries ++ H.entries o.entries).map Prod.fst).Nodup := by
    rw [hstart]
    exact (reordered H o).nodup
  have hput := foldl_put_entries (H.entries o.entries) start hnodup
  rwa [hstart, List.nil_append] at hput

/-! ## Control characters -/

def plainText (l : List Char) : Bool :=
  l.all (fun c => !isISOControl c)

def plainEntry (e : String × Option String) : Bool :=
  plainText e.1.toList && (e.2.elim true (fun value => plainText value.toList))

theorem plainText_append (l l' : List Char) :
    plainText (l ++ l') = (plainText l && plainText l') :=
  List.all_append

theorem plainText_escape (l : List Char) : plainText (l.flatMap escapeChar) = plainText l := by
  induction l with
  | nil => rfl
  | cons c l ih =>
      rw [List.flatMap_cons, plainText_append, ih]
      have hc : plainText (escapeChar c) = !isISOControl c := by
        have hslash : isISOControl '\\' = false := by decide
        simp only [escapeChar]
        split
        · simp [plainText, hslash]
        · simp [plainText]
      rw [hc]
      rfl

theorem plainText_printEntry (e : String × Option String) :
    plainText (printEntry e) = plainEntry e := by
  have hequals : isISOControl '=' = false := by decide
  rcases e with ⟨key, _ | value⟩
  · simp [printEntry, escape, plainText_escape, plainEntry]
  · have hcons : plainText ('=' :: value.toList.flatMap escapeChar) =
        plainText (value.toList.flatMap escapeChar) := by
      simp [plainText, hequals]
    simp only [printEntry, plainText_append, escape, hcons, plainText_escape, plainEntry,
      Option.elim_some]

theorem plainText_printEntries (entries : List (String × Option String)) :
    ∀ init : List Char,
      plainText (printEntries init entries) = (plainText init && entries.all plainEntry) := by
  have hsep : isISOControl ';' = false := by decide
  induction entries with
  | nil =>
      intro init
      simp [printEntries]
  | cons e entries ih =>
      intro init
      have hstep : printEntries init (e :: entries) =
          printEntries (init ++ (if init.isEmpty then [] else [';']) ++ printEntry e) entries := rfl
      have hmid : plainText (if init.isEmpty then [] else [';']) = true := by
        split
        · rfl
        · simp [plainText, hsep]
      rw [hstep, ih, plainText_append, plainText_append, plainText_printEntry, hmid, List.all_cons]
      simp [Bool.and_assoc]

/-- No entry maps the empty key to null: the parsers put none. -/
def Proper (o : PluginOptions) : Prop :=
  ∀ e ∈ o.entries, e ≠ ("", none)

theorem all_plainEntry (H : HashOrder) (o : PluginOptions) :
    (H.entries o.entries).all plainEntry = o.entries.all plainEntry := by
  rw [Bool.eq_iff_iff]
  simp only [List.all_eq_true, (H.perm o.entries).mem_iff]

/-- `PluginOptions(id, options)` reads the printed options back, or refuses them. -/
theorem ofIdAndOptions_toString (H : HashOrder) {o : PluginOptions} (hproper : o.Proper) :
    ofIdAndOptions o.id (some (o.toString H true)) =
      if o.entries.all plainEntry then some (reordered H o) else none := by
  have hne : ∀ e ∈ H.entries o.entries, e ≠ ("", none) :=
    fun e he => hproper e ((H.perm _).mem_iff.1 he)
  have htext : o.toString H true = String.ofList (printEntries [] (H.entries o.entries)) := by
    simp [toString]
  by_cases hempty : H.entries o.entries = []
  · have hnil : o.entries = [] := (List.Perm.nil_eq (hempty ▸ H.perm o.entries)).symm
    have hblank : o.toString H true = "" := by
      rw [htext, hempty]
      rfl
    rw [hblank, hnil]
    simp only [ofIdAndOptions, parse, if_true, Option.map_some, List.all_nil, Option.some.injEq]
    exact ext_of rfl (by simp [reordered, withId, hempty])
  · rcases printEntries_nil hne hempty with ⟨hclosed, hnonempty⟩
    have hnotblank : o.toString H true ≠ "" := by
      rw [htext]
      intro hblank
      apply hnonempty
      have := congrArg String.toList hblank
      simpa using this
    have hplain : (o.toString H true).toList.all (fun c => !isISOControl c) =
        o.entries.all plainEntry := by
      have hprinted := plainText_printEntries (H.entries o.entries) []
      rw [all_plainEntry] at hprinted
      rw [htext, String.toList_ofList]
      simpa [plainText] using hprinted
    simp only [ofIdAndOptions, parse, hnotblank, if_false, hplain]
    by_cases hall : o.entries.all plainEntry = true
    · have hrun : (between {} false).run (printEntries [] (H.entries o.entries) ++ [';']) =
          some (putAll {} (H.entries o.entries)) := by
        rw [hclosed, ← List.append_nil (List.flatMap _ _), run_entries _ _ _ hne]
        rfl
      have hstart : ({ parseId := false } : Parser) = between {} false := rfl
      simp only [hall, if_true, htext, String.toList_ofList, hstart, hrun, Option.map_some,
        Option.some.injEq]
      exact ext_of rfl (putAll_reordered H o rfl).1
    · simp [hall]

/-! ## Printed lines -/

theorem escape_ne_nil {s : String} (h : s ≠ "") : s.toList.flatMap escapeChar ≠ [] := by
  have hentry : (s, (none : Option String)) ≠ ("", none) := fun he => h (congrArg Prod.fst he)
  simpa [printEntry, escape] using printEntry_ne_nil hentry

theorem toList_toString (H : HashOrder) {o : PluginOptions} (hid : o.id ≠ "") :
    (o.toString H false).toList = o.id.toList.flatMap escapeChar ++
      (H.entries o.entries).flatMap (fun e => ';' :: printEntry e) := by
  simp only [toString, Bool.not_false, Bool.true_and, hid, decide_false, Bool.false_eq_true,
    if_false, String.toList_ofList, escape]
  exact printEntries_of_ne_nil _ (escape_ne_nil hid)

theorem plainText_toString (H : HashOrder) {o : PluginOptions} (hid : o.id ≠ "") :
    plainText (o.toString H false).toList =
      (plainText o.id.toList && o.entries.all plainEntry) := by
  have hprinted := plainText_printEntries (H.entries o.entries) (escape o.id)
  rw [escape, printEntries_of_ne_nil _ (escape_ne_nil hid), plainText_escape, all_plainEntry]
    at hprinted
  rw [toList_toString H hid, hprinted]

/-- The parser reads the id and the entries of a line, and goes on behind the next `;`. -/
theorem run_line {id : String} (hid : id ≠ "") {entries : List (String × Option String)}
    (hne : ∀ e ∈ entries, e ≠ ("", none)) (rest : List Char) :
    Parser.run { parseId := true } (id.toList.flatMap escapeChar ++
        entries.flatMap (fun e => ';' :: printEntry e) ++ ';' :: rest) =
      (between ((withId {} id).putAll entries) false).run rest := by
  have hidList : id.toList ≠ [] := fun hnil => hid (String.toList_eq_nil_iff.1 hnil)
  have hend : Parser.endOption
      { ({ parseId := true } : Parser) with current := ([] : List Char) ++ id.toList } =
        between (withId {} id) false := by
    simp [Parser.endOption, between, hidList]
  have hshift : id.toList.flatMap escapeChar ++ entries.flatMap (fun e => ';' :: printEntry e) ++
      ';' :: rest = id.toList.flatMap escapeChar ++
        (';' :: (entries.flatMap (fun e => printEntry e ++ [';']) ++ rest)) := by
    have hclosed := congrArg (fun l => l ++ rest)
      (flatMap_shift entries (id.toList.flatMap escapeChar))
    simpa using hclosed
  calc
    Parser.run { parseId := true } (id.toList.flatMap escapeChar ++
        entries.flatMap (fun e => ';' :: printEntry e) ++ ';' :: rest) =
        Parser.run { parseId := true } (id.toList.flatMap escapeChar ++
          (';' :: (entries.flatMap (fun e => printEntry e ++ [';']) ++ rest))) := by rw [hshift]
    _ = Parser.run { parseId := true, current := [] ++ id.toList }
        (';' :: (entries.flatMap (fun e => printEntry e ++ [';']) ++ rest)) := run_escape _ _ _
    _ = (between (withId {} id) false).run
        (entries.flatMap (fun e => printEntry e ++ [';']) ++ rest) := by rw [run_semicolon, hend]
    _ = (between ((withId {} id).putAll entries) false).run rest := run_entries _ _ _ hne

/-- `PluginOptions(options)` reads a printed map with its id back. -/
theorem ofString_toString (H : HashOrder) {o : PluginOptions} (hproper : o.Proper)
    (hid : o.id ≠ "") (hplainId : plainText o.id.toList = true)
    (hplain : o.entries.all plainEntry = true) :
    ofString (o.toString H false) = some (reordered H o) := by
  have hne : ∀ e ∈ H.entries o.entries, e ≠ ("", none) :=
    fun e he => hproper e ((H.perm _).mem_iff.1 he)
  have hnotblank : o.toString H false ≠ "" := by
    intro hblank
    have hnil := toList_toString H hid
    rw [hblank] at hnil
    exact escape_ne_nil hid (List.append_eq_nil_iff.1 hnil.symm).1
  have hall : (o.toString H false).toList.all (fun c => !isISOControl c) = true := by
    have htext := plainText_toString H hid
    rwa [hplainId, hplain] at htext
  simp only [ofString, parse, hnotblank, if_false, hall, if_true]
  rw [toList_toString H hid, run_line hid hne]
  have hput := putAll_reordered H o (show (withId {} o.id).entries = [] from rfl)
  exact congrArg some (ext_of hput.2 hput.1)

/-! ## Every plain text is read, and every plain map is read back -/

/-- The `;` behind the text is there for a last backslash to escape. -/
theorem run_isSome (s : Parser) (l : List Char) : ∀ m, l = m ++ [';'] → (s.run l).isSome := by
  fun_induction Parser.run s l with
  | case1 s => simp
  | case2 s =>
      intro m h
      cases m with
      | nil => cases h
      | cons c m => exact absurd (List.cons.inj h).2.symm (by simp)
  | case3 s d rest ih =>
      intro m h
      -- if the escaped character is the last one, nothing is left to be read
      cases m with
      | nil => cases h
      | cons c m =>
          cases m with
          | nil =>
              cases h
              rfl
          | cons d' m => exact ih m (List.cons.inj (List.cons.inj h).2).2
  | case4 s rest hslash hkey ih =>
      intro m h
      cases m with
      | nil => cases h
      | cons c m => exact ih m (List.cons.inj h).2
  | case5 s rest hslash key hkey ih =>
      intro m h
      cases m with
      | nil => cases h
      | cons c m => exact ih m (List.cons.inj h).2
  | case6 s rest hslash hequals ih =>
      intro m h
      cases m with
      | nil =>
          cases h
          rfl
      | cons c m => exact ih m (List.cons.inj h).2
  | case7 s c rest hslash hequals hsemi ih =>
      intro m h
      cases m with
      | nil =>
          cases h
          exact absurd rfl hsemi
      | cons c m => exact ih m (List.cons.inj h).2

theorem parse_isSome {options : String} (h : plainText options.toList = true) (parseId : Bool) :
    (parse (some options) parseId).isSome := by
  have hall : options.toList.all (fun c => !isISOControl c) = true := h
  by_cases hempty : options = ""
  · simp [parse, hempty]
  · simp only [parse, if_neg hempty, hall, if_true]
    exact run_isSome _ _ options.toList rfl

theorem equals_reordered (H : HashOrder) (o : PluginOptions) : Equals (reordered H o) o :=
  ⟨rfl, H.perm o.entries⟩

/-- The parser reads every plain text, and what is printed of a map with an id is read as that
map. -/
theorem parse_total_and_inverse :
    (∀ options parseId, plainText options.toList = true → (parse (some options) parseId).isSome) ∧
      ∀ (H : HashOrder) (o : PluginOptions), o.id ≠ "" → o.Proper →
        o.entries.all plainEntry = true →
        (plainText o.id.toList = true →
          ∃ o', ofString (o.toString H false) = some o' ∧ Equals o' o) ∧
        ∃ o', ofIdAndOptions o.id (some (o.toString H true)) = some o' ∧ Equals o' o := by
  refine ⟨fun options parseId h => parse_isSome h parseId, ?_⟩
  intro H o hid hproper hplain
  constructor
  · intro hplainId
    exact ⟨_, ofString_toString H hproper hid hplainId hplain, equals_reordered H o⟩
  · refine ⟨_, ?_, equals_reordered H o⟩
    rw [ofIdAndOptions_toString H hproper, if_pos hplain]

/-- An id, keys and values of metacharacters, and a key without a value. -/
def metacharacters : PluginOptions :=
  ((PluginOptions.empty.withId "=;").put "\\" (some "a=;b")).put ";" none

theorem parse_total_and_inverse_metacharacters :
    (parse (some "a\\") true).isSome ∧
      (∃ o', ofString (metacharacters.toString .insertion false) = some o' ∧
        Equals o' metacharacters) ∧
      ∃ o', ofIdAndOptions "=;" (some (metacharacters.toString .insertion true)) = some o' ∧
        Equals o' metacharacters := by
  have hproper : metacharacters.Proper := by
    intro e he
    rcases List.mem_cons.1 he with rfl | he
    · decide
    · rw [List.mem_singleton.1 he]
      decide
  have hback := parse_total_and_inverse.2 .insertion metacharacters (by decide) hproper (by decide)
  exact ⟨parse_total_and_inverse.1 _ _ (by decide), hback.1 (by decide), hback.2⟩

/-! ## What the parsers produce -/

theorem proper_put {o : PluginOptions} (h : o.Proper) {key : String} {value : Option String}
    (he : (key, value) ≠ ("", none)) : (o.put key value).Proper := by
  intro e hmem
  rcases Keyed.mem_put hmem with rfl | hold
  · exact he
  · exact h e hold

theorem proper_endOption {s : Parser} (h : s.options.Proper) : s.endOption.options.Proper := by
  unfold Parser.endOption
  dsimp only
  split
  · exact proper_put h (by simp)
  · split
    · exact h
    · rename_i hcurrent
      split
      · exact h
      · refine proper_put h ?_
        intro heq
        apply hcurrent
        have hkey := congrArg (fun e => e.1.toList) heq
        simpa using hkey

theorem run_proper (s : Parser) (l : List Char) :
    s.options.Proper → ∀ o, s.run l = some o → o.Proper := by
  fun_induction Parser.run s l with
  | case1 s =>
      intro hproper o ho
      cases ho
      exact hproper
  | case2 => simp
  | case3 s d rest ih => exact ih
  | case4 s rest hslash hkey ih => exact ih
  | case5 s rest hslash key hkey ih => exact ih
  | case6 s rest hslash hequals ih =>
      intro hproper
      exact ih (proper_endOption hproper)
  | case7 s c rest hslash hequals hsemi ih => exact ih

section Chars

variable {Q : Char → Prop}

/-- Every character of the options has the property. -/
structure CharsIn (Q : Char → Prop) (o : PluginOptions) : Prop where
  id : ∀ c ∈ o.id.toList, Q c
  keys : ∀ e ∈ o.entries, ∀ c ∈ e.1.toList, Q c
  values : ∀ e ∈ o.entries, ∀ v, e.2 = some v → ∀ c ∈ v.toList, Q c

theorem charsIn_empty : CharsIn Q {} :=
  ⟨by simp, by simp, by simp⟩

theorem charsIn_put {o : PluginOptions} (h : CharsIn Q o) {key : String} {value : Option String}
    (hkey : ∀ c ∈ key.toList, Q c) (hvalue : ∀ v, value = some v → ∀ c ∈ v.toList, Q c) :
    CharsIn Q (o.put key value) := by
  refine ⟨h.id, ?_, ?_⟩
  · intro e he
    rcases Keyed.mem_put he with rfl | hold
    · exact hkey
    · exact h.keys e hold
  · intro e he
    rcases Keyed.mem_put he with rfl | hold
    · exact hvalue
    · exact h.values e hold

theorem charsIn_endOption {s : Parser} (h : CharsIn Q s.options)
    (hkey : ∀ k, s.key = some k → ∀ c ∈ k.toList, Q c) (hcurrent : ∀ c ∈ s.current, Q c) :
    CharsIn Q s.endOption.options := by
  have htext : ∀ c ∈ (String.ofList s.current).toList, Q c := by
    simpa using hcurrent
  unfold Parser.endOption
  dsimp only
  split
  · rename_i key hsome
    refine charsIn_put h (hkey key hsome) ?_
    rintro v ⟨⟩
    exact htext
  · split
    · exact h
    · split
      · exact ⟨htext, h.keys, h.values⟩
      · refine charsIn_put h htext ?_
        rintro v ⟨⟩

/-- The parser makes its options of the characters that it reads. -/
theorem run_chars (s : Parser) (l : List Char) :
    CharsIn Q s.options → (∀ k, s.key = some k → ∀ c ∈ k.toList, Q c) → (∀ c ∈ s.current, Q c) →
      (∀ c ∈ l, Q c) → ∀ o, s.run l = some o → CharsIn Q o := by
  have happend : ∀ {current : List Char} {c : Char}, (∀ d ∈ current, Q d) → Q c →
      ∀ d ∈ current ++ [c], Q d := by
    intro current c hcurrent hc d hd
    rcases List.mem_append.1 hd with hold | hnew
    · exact hcurrent d hold
    · rw [List.mem_singleton.1 hnew]
      exact hc
  fun_induction Parser.run s l with
  | case1 s =>
      intro hoptions _ _ _ o ho
      cases ho
      exact hoptions
  | case2 => simp
  | case3 s d rest ih =>
      intro hoptions hkey hcurrent hl
      simp only [List.mem_cons, forall_eq_or_imp] at hl
      exact ih hoptions hkey (happend hcurrent hl.2.1) hl.2.2
  | case4 s rest hslash hnone ih =>
      intro hoptions _ hcurrent hl
      simp only [List.mem_cons, forall_eq_or_imp] at hl
      refine ih hoptions ?_ (by simp) hl.2
      rintro k ⟨⟩
      simpa using hcurrent
  | case5 s rest hslash key hsome ih =>
      intro hoptions hkey hcurrent hl
      simp only [List.mem_cons, forall_eq_or_imp] at hl
      exact ih hoptions hkey (happend hcurrent hl.1) hl.2
  | case6 s rest hslash hequals ih =>
      intro hoptions hkey hcurrent hl
      simp only [List.mem_cons, forall_eq_or_imp] at hl
      refine ih (charsIn_endOption hoptions hkey hcurrent) ?_ (by simp [Parser.endOption]) hl.2
      rintro k ⟨⟩
  | case7 s c rest hslash hequals hsemi ih =>
      intro hoptions hkey hcurrent hl
      simp only [List.mem_cons, forall_eq_or_imp] at hl
      exact ih hoptions hkey (happend hcurrent hl.1) hl.2

theorem ofString_chars {line : String} {o : PluginOptions} (h : ofString line = some o)
    (hsemi : Q ';') (hline : ∀ c ∈ line.toList, Q c) : CharsIn Q o := by
  simp only [ofString, parse] at h
  split at h
  · cases h
    exact charsIn_empty
  · split at h
    · refine run_chars { parseId := true } _ charsIn_empty (by simp) (by simp) ?_ o h
      intro c hc
      rcases List.mem_append.1 hc with hmem | hlast
      · exact hline c hmem
      · rw [List.mem_singleton.1 hlast]
        exact hsemi
    · cases h

end Chars

theorem proper_empty : Proper {} := by
  intro e he
  cases he

/-- Only a text without control characters is parsed. -/
theorem plainText_of_ofString {line : String} {o : PluginOptions} (h : ofString line = some o) :
    plainText line.toList = true := by
  simp only [ofString, parse] at h
  split at h
  · rename_i hempty
    rw [hempty]
    rfl
  · split at h
    · assumption
    · cases h

theorem ofString_facts {line : String} {o : PluginOptions} (h : ofString line = some o) :
    o.Proper ∧ plainText o.id.toList = true := by
  constructor
  · simp only [ofString, parse] at h
    split at h
    · cases h
      exact proper_empty
    · split at h
      · exact run_proper { parseId := true } _ proper_empty o h
      · cases h
  · have hline : ∀ c ∈ line.toList, isISOControl c = false := by
      simpa [plainText] using plainText_of_ofString h
    have hchars : CharsIn (fun c => isISOControl c = false) o :=
      ofString_chars h (by decide) hline
    simpa [plainText] using hchars.id

end PluginOptions

namespace PluginConfiguration

open PluginOptions

variable {defaultConfig : String → Option String}

theorem kcptunOptions_facts (opt : PluginOptions) (args : List String) :
    opt.Proper → (kcptunOptions opt args).Proper ∧ (kcptunOptions opt args).id = opt.id := by
  fun_induction kcptunOptions opt args with
  | case1 opt =>
      intro h
      exact ⟨h, rfl⟩
  | case2 opt rest ih =>
      intro h
      exact ih (proper_put h (by simp))
  | case3 opt option =>
      intro h
      exact ⟨h, rfl⟩
  | case4 opt option hne hprefix value rest ih =>
      intro h
      exact ih (proper_put h (by simp))
  | case5 opt option rest =>
      intro h
      exact ⟨h, rfl⟩

theorem parseLine_legacy {line : String} (hlegacy : isLegacy line = true) :
    ∃ o, parseLine line = some o ∧ o.id = "kcptun" ∧ o.Proper := by
  have hstart : (withId {} "kcptun").Proper := proper_empty
  simp only [parseLine, hlegacy, if_true]
  split
  · exact ⟨_, rfl, rfl, hstart⟩
  · rename_i args _
    rcases kcptunOptions_facts (withId {} "kcptun") (args.drop 1) hstart with ⟨hproper, hid⟩
    exact ⟨_, rfl, hid, hproper⟩

theorem parseLine_facts {line : String} {o : PluginOptions} (h : parseLine line = some o) :
    o.Proper ∧ plainText o.id.toList = true := by
  cases hlegacy : isLegacy line with
  | true =>
      rcases parseLine_legacy hlegacy with ⟨o', ho', hid, hproper⟩
      rw [h] at ho'
      cases ho'
      refine ⟨hproper, ?_⟩
      rw [hid]
      decide
  | false =>
      simp only [parseLine, hlegacy] at h
      exact ofString_facts h

/-- The options of the selected plugin of a stored plugin string. -/
def selectedOptions (defaultConfig : String → Option String) (plugin : Option String) :
    Option PluginOptions :=
  (ofString (plugin.getD "")).bind (fun c => c.getOptions defaultConfig c.selected)

/-- The selected plugin is one of the plugins of the string; no default is needed. -/
theorem getOptions_selected {plugin : String} {c : PluginConfiguration}
    (h : ofString plugin = some c) :
    ∃ o, c.getOptions defaultConfig c.selected = some o ∧ o.id = c.selected ∧
      (o = {} ∨ ∃ line ∈ lines plugin, parseLine line = some o) := by
  rcases Option.map_eq_some_iff.1 h with ⟨plugins, hplugins, rfl⟩
  rw [getOptions]
  by_cases hselected : (ofPlugins plugins).selected = ""
  · rw [if_pos hselected]
    exact ⟨{}, rfl, hselected.symm, Or.inl rfl⟩
  · rw [if_neg hselected]
    have hmem : ∃ o ∈ plugins.filter (fun o => o.id ≠ ""), o.id = (ofPlugins plugins).selected := by
      cases plugins with
      | nil => exact absurd rfl hselected
      | cons o plugins =>
          have hid : (ofPlugins (o :: plugins)).selected = o.id := rfl
          rw [hid] at hselected ⊢
          exact ⟨o, by simp [hselected], rfl⟩
    rcases Keyed.get_foldl_put _ [] hmem with ⟨o, ho, hid, hget⟩
    have hget' : Keyed.get (ofPlugins plugins).selected (ofPlugins plugins).pluginsOptions = some o :=
      hget
    rw [hget']
    exact ⟨o, rfl, hid, Or.inr (Codec.mem_of_mapM _ hplugins (List.mem_filter.1 ho).1)⟩

theorem selectedOptions_spec {plugin : Option String}
    (h : (ofString (plugin.getD "")).isSome = true) :
    ∃ o, selectedOptions defaultConfig plugin = some o ∧ o.Proper ∧
      plainText o.id.toList = true ∧ (o.id = "" → o = {}) := by
  rcases Option.isSome_iff_exists.1 h with ⟨c, hc⟩
  rcases @getOptions_selected defaultConfig _ _ hc with ⟨o, ho, hid, horigin⟩
  refine ⟨o, by rw [selectedOptions, hc, Option.bind_some, ho], ?_⟩
  rcases horigin with rfl | ⟨line, _, hline⟩
  · exact ⟨proper_empty, rfl, fun _ => rfl⟩
  · rcases parseLine_facts hline with ⟨hproper, hplain⟩
    refine ⟨hproper, hplain, ?_⟩
    intro hempty
    rw [getOptions, if_pos (hid.symm.trans hempty), Option.some.injEq] at ho
    exact ho.symm

/-! ## Reading a printed line back -/

theorem lines_of_not_mem {plugin : String} (h : '\n' ∉ plugin.toList) : lines plugin = [plugin] := by
  simp [lines, List.splitOn_eq_singleton h]

/-- A string of one line selects the plugin of that line. -/
theorem selectedOptions_line {plugin : String} {o : PluginOptions} (hline : '\n' ∉ plugin.toList)
    (hparse : parseLine plugin = some o) (hid : o.id ≠ "") :
    selectedOptions defaultConfig (some plugin) = some o := by
  have hconf : ofString plugin = some (ofPlugins [o]) := by
    simp [ofString, lines_of_not_mem hline, hparse]
  have hselected : (ofPlugins [o]).selected = o.id := rfl
  have hget : Keyed.get o.id (ofPlugins [o]).pluginsOptions = some o := by
    simp [ofPlugins, hid, Keyed.put, Keyed.get]
  simp [selectedOptions, hconf, getOptions, hselected, hid, hget]

theorem selectedOptions_none : selectedOptions defaultConfig none = some {} := by
  have hempty : ofString "" = some (ofPlugins [{}]) := by decide +kernel
  simp [selectedOptions, hempty, getOptions, ofPlugins]

/-- Escaping does not create or hide a prefix of ordinary characters. -/
theorem prefix_escape_iff {tail : List Char} (htail : tail = [] ∨ ∃ rest, tail = ';' :: rest) :
    ∀ (p l : List Char), (∀ c ∈ p, ¬ (c = '\\' ∨ c = '=' ∨ c = ';')) →
      (p <+: l.flatMap escapeChar ++ tail ↔ p <+: l) := by
  intro p
  induction p with
  | nil =>
      intro l _
      simp
  | cons a p ih =>
      intro l hp
      have ha := hp a List.mem_cons_self
      cases l with
      | nil =>
          rcases htail with rfl | ⟨rest, rfl⟩
          · simp
          · simp only [List.flatMap_nil, List.nil_append, List.cons_prefix_cons]
            constructor
            · rintro ⟨rfl, _⟩
              exact absurd (by simp) ha
            · intro hnil
              simp at hnil
      | cons c l =>
          by_cases hc : c = '\\' ∨ c = '=' ∨ c = ';'
          · simp only [List.flatMap_cons, escapeChar, if_pos hc, List.cons_append, List.nil_append,
              List.cons_prefix_cons]
            constructor
            · rintro ⟨rfl, _⟩
              exact absurd (by simp) ha
            · rintro ⟨rfl, _⟩
              exact absurd hc ha
          · simp only [List.flatMap_cons, escapeChar, if_neg hc, List.cons_append, List.nil_append,
              List.cons_prefix_cons]
            rw [ih l (fun x hx => hp x (List.mem_cons_of_mem _ hx))]

/-- A printed line takes the legacy path exactly if its id does. -/
theorem isLegacy_toString (H : HashOrder) {o : PluginOptions} (hid : o.id ≠ "") :
    isLegacy (o.toString H false) = isLegacy o.id := by
  have htail : (H.entries o.entries).flatMap (fun e => ';' :: printEntry e) = [] ∨
      ∃ rest, (H.entries o.entries).flatMap (fun e => ';' :: printEntry e) = ';' :: rest := by
    cases H.entries o.entries with
    | nil => exact Or.inl rfl
    | cons e entries => exact Or.inr ⟨_, rfl⟩
  have hprefix := prefix_escape_iff htail "kcptun ".toList o.id.toList
    (Codec.forall_mem_of_decide (by decide))
  rw [Bool.eq_iff_iff, isLegacy, isLegacy, List.isPrefixOf_iff_prefix, List.isPrefixOf_iff_prefix,
    toList_toString H hid]
  exact hprefix

theorem newline_not_mem_of_plain {l : List Char} (h : plainText l = true) : '\n' ∉ l := by
  intro hmem
  have hcontrol := List.all_eq_true.1 h _ hmem
  exact absurd hcontrol (by decide)

/-- The options that a stored line of printed options selects. -/
theorem selectedOptions_toString (H : HashOrder) {o : PluginOptions} (hproper : o.Proper)
    (hid : o.id ≠ "") (hplainId : plainText o.id.toList = true)
    (hplain : o.entries.all plainEntry = true) :
    ∃ o', selectedOptions defaultConfig (some (o.toString H false)) = some o' ∧
      (isLegacy o.id = false → o' = reordered H o) ∧ (isLegacy o.id = true → o'.id = "kcptun") := by
  have hline : '\n' ∉ (o.toString H false).toList := by
    refine newline_not_mem_of_plain ?_
    rw [plainText_toString H hid, hplainId, hplain]
    rfl
  cases hlegacy : isLegacy o.id with
  | false =>
      have hnot : isLegacy (o.toString H false) = false := (isLegacy_toString H hid).trans hlegacy
      have hparse : parseLine (o.toString H false) = some (reordered H o) := by
        simp only [parseLine, hnot, Bool.false_eq_true, if_false]
        exact ofString_toString H hproper hid hplainId hplain
      exact ⟨_, selectedOptions_line hline hparse hid, fun _ => rfl, fun hc => by cases hc⟩
  | true =>
      rcases parseLine_legacy ((isLegacy_toString H hid).trans hlegacy) with ⟨o', ho', hid', _⟩
      have hne : o'.id ≠ "" := by simp [hid']
      exact ⟨o', selectedOptions_line hline ho' hne, (fun hc => by cases hc), fun _ => hid'⟩

/-! ## Through an id and an options field -/

structure Portable (o : PluginOptions) : Prop where
  plain : o.entries.all plainEntry = true
  notLegacy : isLegacy o.id = false

/-- The plugin string made of options that were written as an id and an options string. -/
def rejoined (H : HashOrder) (o : PluginOptions) : Option String :=
  (ofIdAndOptions o.id (some (o.toString H true))).map (fun o => o.toString H false)

theorem rejoined_eq (H : HashOrder) {o : PluginOptions} (hproper : o.Proper) :
    rejoined H o =
      if o.entries.all plainEntry then some ((reordered H o).toString H false) else none := by
  rw [rejoined, ofIdAndOptions_toString H hproper]
  split <;> rfl

theorem ne_kcptun_of_legacy {id : String} (h : isLegacy id = true) : id ≠ "kcptun" := by
  rintro rfl
  exact absurd h (by decide +kernel)

/-- The rejoined string selects the same options exactly if they are portable. -/
theorem readBack_iff_portable (H : HashOrder) {o : PluginOptions} (hproper : o.Proper)
    (hid : o.id ≠ "") (hplainId : plainText o.id.toList = true) :
    (∃ plugin o', rejoined H o = some plugin ∧
      selectedOptions defaultConfig (some plugin) = some o' ∧ o.Equals o') ↔ Portable o := by
  rw [rejoined_eq H hproper]
  by_cases hplain : o.entries.all plainEntry = true
  · have hproper' : (reordered H o).Proper := fun e he => hproper e ((H.perm _).mem_iff.1 he)
    have hplain' : (reordered H o).entries.all plainEntry = true :=
      (all_plainEntry H o).trans hplain
    rcases @selectedOptions_toString defaultConfig H _ hproper' hid hplainId hplain' with
      ⟨o', hsel, hnot, hlegacy⟩
    simp only [hplain, if_true, Option.some.injEq]
    constructor
    · rintro ⟨_, o₁, rfl, ho₁, heq⟩
      refine ⟨hplain, ?_⟩
      cases hl : isLegacy o.id with
      | false => rfl
      | true =>
          rw [hsel] at ho₁
          cases ho₁
          exact absurd (heq.1.trans (hlegacy hl)) (ne_kcptun_of_legacy hl)
    · intro hport
      refine ⟨_, o', rfl, hsel, ?_⟩
      rw [hnot hport.notLegacy]
      exact ⟨rfl, ((H.perm _).trans (H.perm _)).symm⟩
  · simp only [hplain, Bool.false_eq_true, if_false]
    constructor
    · rintro ⟨_, _, hc, _⟩
      cases hc
    · intro hport
      exact absurd hport.plain hplain

end PluginConfiguration

end Plugin
end SpinVpn
