import Mathlib.Data.List.Perm.Basic
import SpinVpn.Plugin.Printed

/-!
# Reread — printing a plugin configuration and reading it again

A configuration is a line for each plugin, with the selected one first.  A line is read in one of
two syntaxes but printed in only one, and what one of them accepts need not survive the other:

* a legacy `kcptun` line may hold control characters, and the printed line is then refused;
* an escaped id may start with `kcptun` and a blank, and the printed line is then taken for a
  legacy one.

`reread_iff_portable` shows that nothing else gets in the way.
-/

namespace SpinVpn
namespace Plugin

namespace PluginConfiguration

open PluginOptions

/-! ## Printing -/

/-- The list that `toString` fills: the selected plugin goes to the front, the others to the
back. -/
def arranged (c : PluginConfiguration) : List PluginOptions :=
  c.pluginsOptions.foldl
    (fun result e => if e.1 = c.selected then e.2 :: result else result ++ [e.2]) []

/-- Where the selected plugin has no line of its own, its options are made up. -/
def toPrint (defaultConfig : String → Option String) (c : PluginConfiguration) :
    Option (List PluginOptions) :=
  if Keyed.get c.selected c.pluginsOptions = none then
    (c.getOptions defaultConfig c.selected).map (fun o => o :: c.arranged)
  else some c.arranged

def toString (H : HashOrder) (defaultConfig : String → Option String) (c : PluginConfiguration) :
    Option String :=
  (c.toPrint defaultConfig).map (fun result =>
    String.ofList (List.intercalate ['\n'] (result.map (fun o => (o.toString H false).toList))))

/-! ## Accepted configurations -/

/-- What the constructor makes sure of. -/
structure Accepted (c : PluginConfiguration) : Prop where
  nodup : (c.pluginsOptions.map Prod.fst).Nodup
  keyed : ∀ e ∈ c.pluginsOptions, e.2.id = e.1
  named : ∀ e ∈ c.pluginsOptions, e.2.id ≠ ""
  proper : ∀ e ∈ c.pluginsOptions, e.2.Proper
  plainId : ∀ e ∈ c.pluginsOptions, plainText e.2.id.toList = true
  singleLine : ∀ e ∈ c.pluginsOptions, SingleLine e.2
  selected : c.selected = "" ∨ c.selected ∈ c.pluginsOptions.map Prod.fst

theorem accepted_ofString {plugin : String} {c : PluginConfiguration}
    (h : ofString plugin = some c) : Accepted c := by
  rcases Option.map_eq_some_iff.1 h with ⟨plugins, hplugins, rfl⟩
  have hentry : ∀ e ∈ (ofPlugins plugins).pluginsOptions, e.2.id = e.1 ∧ e.2.id ≠ "" ∧
      ∃ line ∈ lines plugin, parseLine line = some e.2 := by
    intro e he
    rcases Keyed.mem_foldl_put _ he with hnil | ⟨hmem, hkey⟩
    · cases hnil
    · rcases List.mem_filter.1 hmem with ⟨hplugin, hid⟩
      exact ⟨hkey, by simpa using hid, Codec.mem_of_mapM _ hplugins hplugin⟩
  constructor
  · exact Keyed.nodup_foldl_put _ List.nodup_nil
  · exact fun e he => (hentry e he).1
  · exact fun e he => (hentry e he).2.1
  · intro e he
    rcases (hentry e he).2.2 with ⟨line, -, hparse⟩
    exact (parseLine_facts hparse).1
  · intro e he
    rcases (hentry e he).2.2 with ⟨line, -, hparse⟩
    exact (parseLine_facts hparse).2
  · intro e he
    exact singleLine_of_origin (Or.inr (hentry e he).2.2)
  · cases plugins with
    | nil => exact Or.inl rfl
    | cons o plugins =>
        have hselected : (ofPlugins (o :: plugins)).selected = o.id := rfl
        rw [hselected]
        by_cases hid : o.id = ""
        · exact Or.inl hid
        · right
          have hmem : ∃ a ∈ (o :: plugins).filter (fun o => o.id ≠ ""), a.id = o.id :=
            ⟨o, by simp [hid], rfl⟩
          rcases Keyed.get_foldl_put _ [] hmem with ⟨a, -, -, hget⟩
          by_contra hnot
          have hnone := Keyed.get_eq_none_iff.2 hnot
          rw [ofPlugins, hget] at hnone
          cases hnone

/-! ## The printed list -/

theorem arranged_foldl (selected : String) (l : List (String × PluginOptions)) :
    ∀ init : List PluginOptions,
      l.foldl (fun result e => if e.1 = selected then e.2 :: result else result ++ [e.2]) init =
        ((l.filter (fun e => e.1 = selected)).reverse.map Prod.snd) ++ init ++
          (l.filter (fun e => ¬ e.1 = selected)).map Prod.snd := by
  induction l with
  | nil =>
      intro init
      simp
  | cons e l ih =>
      intro init
      rw [List.foldl_cons, ih]
      by_cases he : e.1 = selected
      · simp [he]
      · simp [he]

theorem arranged_perm (c : PluginConfiguration) :
    c.arranged.Perm (c.pluginsOptions.map Prod.snd) := by
  have hsplit := List.filter_append_perm (fun e => decide (e.1 = c.selected)) c.pluginsOptions
  rw [arranged, arranged_foldl, List.append_nil, ← List.map_append]
  refine List.Perm.map Prod.snd (List.Perm.trans ?_ hsplit)
  refine List.Perm.append (List.reverse_perm _) ?_
  simp

/-- Everything that is printed: a configuration without a selection starts with an empty line. -/
def reprinted (c : PluginConfiguration) : List PluginOptions :=
  if c.selected = "" then PluginOptions.empty :: c.arranged else c.arranged

section Accepted

variable {c : PluginConfiguration} {defaultConfig : String → Option String}

theorem mem_arranged_iff {o : PluginOptions} :
    o ∈ c.arranged ↔ ∃ e ∈ c.pluginsOptions, e.2 = o := by
  rw [(arranged_perm c).mem_iff, List.mem_map]

theorem toPrint_eq (h : Accepted c) : c.toPrint defaultConfig = some c.reprinted := by
  rw [toPrint, reprinted]
  by_cases hempty : c.selected = ""
  · -- no plugin has the empty id, and no default is looked up for it
    have hnone : Keyed.get c.selected c.pluginsOptions = none := by
      rw [Keyed.get_eq_none_iff, List.mem_map]
      rintro ⟨e, he, hid⟩
      exact h.named e he ((h.keyed e he).trans (hid.trans hempty))
    rw [if_pos hnone, if_pos hempty, getOptions, if_pos hempty, Option.map_some]
    rfl
  · have hmem : c.selected ∈ c.pluginsOptions.map Prod.fst := h.selected.resolve_left hempty
    have hsome : ¬ Keyed.get c.selected c.pluginsOptions = none := by
      rw [Keyed.get_eq_none_iff]
      exact fun hnot => hnot hmem
    rw [if_neg hsome, if_neg hempty]

theorem mem_reprinted {o : PluginOptions} (ho : o ∈ c.reprinted) :
    o = PluginOptions.empty ∨ ∃ e ∈ c.pluginsOptions, e.2 = o := by
  rw [reprinted] at ho
  split at ho
  · rcases List.mem_cons.1 ho with rfl | ho
    · exact Or.inl rfl
    · exact Or.inr (mem_arranged_iff.1 ho)
  · exact Or.inr (mem_arranged_iff.1 ho)

/-- The selected plugin is printed first. -/
theorem head_reprinted (h : Accepted c) :
    ∃ o rest, c.reprinted = o :: rest ∧ o.id = c.selected := by
  rw [reprinted]
  by_cases hempty : c.selected = ""
  · exact ⟨PluginOptions.empty, c.arranged, if_pos hempty, hempty.symm⟩
  · rcases List.mem_map.1 (h.selected.resolve_left hempty) with ⟨e, he, hid⟩
    have hmem : e ∈ (c.pluginsOptions.filter (fun e => e.1 = c.selected)).reverse := by
      simp [he, hid]
    have hall : ∀ d ∈ (c.pluginsOptions.filter (fun e => e.1 = c.selected)).reverse,
        d.2.id = c.selected := by
      intro d hd
      have hd' : d ∈ c.pluginsOptions ∧ d.1 = c.selected := by simpa using hd
      exact (h.keyed d hd'.1).trans hd'.2
    rw [if_neg hempty, arranged, arranged_foldl]
    cases hsel : (c.pluginsOptions.filter (fun e => e.1 = c.selected)).reverse with
    | nil =>
        rw [hsel] at hmem
        cases hmem
    | cons d ds =>
        rw [hsel] at hall
        exact ⟨d.2, _, rfl, hall d List.mem_cons_self⟩

theorem lines_toString (H : HashOrder) (h : Accepted c) :
    ∃ text, c.toString H defaultConfig = some text ∧
      lines text = c.reprinted.map (fun o => o.toString H false) := by
  refine ⟨_, by rw [toString, toPrint_eq h, Option.map_some], ?_⟩
  rw [lines, String.toList_ofList, List.splitOn_intercalate]
  · simp
  · intro line hline
    rcases List.mem_map.1 hline with ⟨o, ho, rfl⟩
    rcases mem_reprinted ho with rfl | ⟨e, he, rfl⟩
    · simp [PluginOptions.toString, PluginOptions.empty]
    · exact newline_not_mem_toString H (h.named e he) (h.singleLine e he)
  · rcases head_reprinted h with ⟨o, rest, hcons, -⟩
    simp [hcons]

/-! ## A printed line -/

theorem parseLine_toString (H : HashOrder) (h : Accepted c) {e : String × PluginOptions}
    (he : e ∈ c.pluginsOptions) (hport : Portable e.2) :
    parseLine (e.2.toString H false) = some (reordered H e.2) := by
  rw [parseLine, isLegacy_toString H (h.named e he), hport.notLegacy]
  exact PluginOptions.ofString_toString H (h.proper e he) (h.named e he) (h.plainId e he) hport.plain

/-- Where the line is not a legacy one, it holds no control character if it is accepted. -/
theorem portable_of_parseLine (H : HashOrder) (h : Accepted c) {e : String × PluginOptions}
    (he : e ∈ c.pluginsOptions) {o : PluginOptions}
    (hparse : parseLine (e.2.toString H false) = some o) (hlegacy : isLegacy e.2.id = false) :
    Portable e.2 := by
  rw [parseLine, isLegacy_toString H (h.named e he), hlegacy] at hparse
  have hplain := plainText_of_ofString hparse
  rw [plainText_toString H (h.named e he), h.plainId e he] at hplain
  exact ⟨hplain, hlegacy⟩

/-- A legacy id does not come back. -/
theorem isLegacy_parseLine (H : HashOrder) (h : Accepted c) {e : String × PluginOptions}
    (he : e ∈ c.pluginsOptions) {o : PluginOptions}
    (hparse : parseLine (e.2.toString H false) = some o) : isLegacy o.id = false := by
  cases hlegacy : isLegacy e.2.id with
  | true =>
      have hline := (isLegacy_toString H (h.named e he)).trans hlegacy
      rcases parseLine_legacy hline with ⟨o', ho', hid, -⟩
      rw [hparse] at ho'
      cases ho'
      simp [hid, isLegacy]
  | false =>
      have hport := portable_of_parseLine H h he hparse hlegacy
      rw [parseLine_toString H h he hport] at hparse
      cases hparse
      exact hlegacy

theorem reordered_empty (H : HashOrder) : reordered H PluginOptions.empty = PluginOptions.empty :=
  ext_of rfl (List.perm_nil.1 (H.perm []))

theorem parseLine_empty (H : HashOrder) :
    parseLine (PluginOptions.empty.toString H false) = some PluginOptions.empty := by
  have hblank : PluginOptions.empty.toString H false = "" := by
    simp [PluginOptions.toString, PluginOptions.empty]
  rw [hblank]
  simp [parseLine, isLegacy, PluginOptions.ofString, parse, PluginOptions.empty]

/-! ## The configuration that is read back -/

theorem ofString_of_lines (H : HashOrder) (h : Accepted c) {text : String}
    (hlines : lines text = c.reprinted.map (fun o => o.toString H false))
    (hport : ∀ e ∈ c.pluginsOptions, Portable e.2) :
    ofString text = some (ofPlugins (c.reprinted.map (reordered H))) := by
  have hparse : ∀ o ∈ c.reprinted, parseLine (o.toString H false) = some (reordered H o) := by
    intro o ho
    rcases mem_reprinted ho with rfl | ⟨e, he, rfl⟩
    · rw [parseLine_empty, reordered_empty]
    · exact parseLine_toString H h he (hport e he)
  have hall : (lines text).mapM parseLine = some (c.reprinted.map (reordered H)) := by
    rw [hlines, List.mapM_map]
    exact Codec.mapM_eq_map _ hparse
  rw [ofString, hall, Option.map_some]

theorem selected_reread (H : HashOrder) (h : Accepted c) :
    (ofPlugins (c.reprinted.map (reordered H))).selected = c.selected := by
  rcases head_reprinted h with ⟨o, rest, hcons, hid⟩
  rw [hcons]
  exact hid

theorem pluginsOptions_reread (H : HashOrder) (h : Accepted c) :
    (ofPlugins (c.reprinted.map (reordered H))).pluginsOptions =
      c.arranged.map (fun o => (o.id, reordered H o)) := by
  have hnamed : ∀ o ∈ c.arranged.map (reordered H), o.id ≠ "" := by
    intro o ho
    rcases List.mem_map.1 ho with ⟨o', ho', rfl⟩
    rcases mem_arranged_iff.1 ho' with ⟨e, he, rfl⟩
    exact h.named e he
  have hkeep : (c.arranged.map (reordered H)).filter (fun o => o.id ≠ "") =
      c.arranged.map (reordered H) :=
    List.filter_eq_self.2 (fun o ho => by simpa using hnamed o ho)
  have hfilter : (c.reprinted.map (reordered H)).filter (fun o => o.id ≠ "") =
      c.arranged.map (reordered H) := by
    rw [reprinted]
    split
    · rw [List.map_cons, reordered_empty, List.filter_cons_of_neg (by simp [PluginOptions.empty]), hkeep]
    · exact hkeep
  have hkeys : c.pluginsOptions.map (fun e => e.2.id) = c.pluginsOptions.map Prod.fst :=
    List.map_congr_left h.keyed
  have hnodup : ((c.arranged.map (reordered H)).map PluginOptions.id).Nodup := by
    have hperm := (arranged_perm c).map PluginOptions.id
    rw [List.map_map] at hperm
    rw [List.map_map]
    exact hperm.nodup_iff.2 (hkeys ▸ h.nodup)
  rw [ofPlugins, hfilter, Keyed.foldl_put_eq _ _ (by simpa using hnodup), List.nil_append,
    List.map_map]
  rfl

theorem get_reread (H : HashOrder) (h : Accepted c) (id : String) :
    Keyed.get id (ofPlugins (c.reprinted.map (reordered H))).pluginsOptions =
      (Keyed.get id c.pluginsOptions).map (reordered H) := by
  have hnodup : ((ofPlugins (c.reprinted.map (reordered H))).pluginsOptions.map Prod.fst).Nodup :=
    Keyed.nodup_foldl_put _ List.nodup_nil
  cases hget : Keyed.get id c.pluginsOptions with
  | none =>
      rw [Keyed.get_eq_none_iff] at hget
      rw [Option.map_none, Keyed.get_eq_none_iff, pluginsOptions_reread H h]
      intro hmem
      rcases List.mem_map.1 hmem with ⟨e', he', rfl⟩
      rcases List.mem_map.1 he' with ⟨o, ho, rfl⟩
      rcases mem_arranged_iff.1 ho with ⟨e, he, rfl⟩
      exact hget (List.mem_map.2 ⟨e, he, (h.keyed e he).symm⟩)
  | some o =>
      have hmem := (Keyed.get_eq_some_iff h.nodup).1 hget
      refine (Keyed.get_eq_some_iff hnodup).2 ?_
      have hentry : (id, reordered H o) ∈ c.arranged.map (fun o => (o.id, reordered H o)) :=
        List.mem_map.2 ⟨o, mem_arranged_iff.2 ⟨_, hmem, rfl⟩,
          congrArg (fun i => (i, reordered H o)) (h.keyed _ hmem)⟩
      rw [← pluginsOptions_reread H h] at hentry
      exact hentry

/-! ## Read again -/

/-- The printed configuration is accepted, selects the same plugin, and has equal options for every
plugin. -/
def Reread (H : HashOrder) (defaultConfig : String → Option String) (c : PluginConfiguration) :
    Prop :=
  ∃ text c', c.toString H defaultConfig = some text ∧ ofString text = some c' ∧
    c'.selected = c.selected ∧
    ∀ id, Option.Rel Equals (c.getOptions defaultConfig id) (c'.getOptions defaultConfig id)

theorem rel_refl (o : Option PluginOptions) : Option.Rel Equals o o := by
  cases o with
  | none => exact Option.Rel.none
  | some o => exact Option.Rel.some ⟨rfl, List.Perm.refl _⟩

theorem reread_of_portable (H : HashOrder) (h : Accepted c)
    (hport : ∀ e ∈ c.pluginsOptions, Portable e.2) : c.Reread H defaultConfig := by
  rcases @lines_toString c defaultConfig H h with ⟨text, htext, hlines⟩
  refine ⟨text, _, htext, ofString_of_lines H h hlines hport, selected_reread H h, ?_⟩
  intro id
  rw [getOptions, getOptions]
  by_cases hid : id = ""
  · rw [if_pos hid, if_pos hid]
    exact rel_refl _
  · rw [if_neg hid, if_neg hid, get_reread H h]
    cases Keyed.get id c.pluginsOptions with
    | none => exact rel_refl _
    | some o => exact Option.Rel.some ⟨rfl, (H.perm _).symm⟩

/-- A default that no parser accepts: it shows that a plugin has no options of its own. -/
def refused : String → Option String :=
  fun _ => some "\t"

theorem getOptions_refused {id : String} (hid : id ≠ "")
    (hmem : id ∉ c.pluginsOptions.map Prod.fst) : c.getOptions refused id = none := by
  have hparse : PluginOptions.parse (some "\t") false = none := by
    simp [parse, isISOControl]
  simp only [getOptions, hid, if_false, Keyed.get_eq_none_iff.2 hmem, PluginOptions.ofIdAndOptions,
    refused, hparse, Option.map_none]

theorem portable_of_reread (H : HashOrder) (h : Accepted c) (hreread : c.Reread H refused) :
    ∀ e ∈ c.pluginsOptions, Portable e.2 := by
  rcases hreread with ⟨text, c', htext, hc', -, hrel⟩
  rcases @lines_toString c refused H h with ⟨text', htext', hlines⟩
  rw [htext] at htext'
  cases htext'
  rcases Option.map_eq_some_iff.1 hc' with ⟨plugins, hplugins, rfl⟩
  have hread : ∀ e ∈ c.pluginsOptions, ∃ o, parseLine (e.2.toString H false) = some o := by
    intro e he
    have hprinted : e.2 ∈ c.reprinted := by
      have harranged := mem_arranged_iff.2 ⟨e, he, rfl⟩
      rw [reprinted]
      split
      · exact List.mem_cons_of_mem _ harranged
      · exact harranged
    refine Codec.exists_of_mapM _ hplugins ?_
    rw [hlines]
    exact List.mem_map_of_mem hprinted
  -- none of the plugins that were read back has a legacy id
  have hids : ∀ o ∈ plugins, isLegacy o.id = false := by
    intro o ho
    rcases Codec.mem_of_mapM _ hplugins ho with ⟨line, hline, hparse⟩
    rw [hlines] at hline
    rcases List.mem_map.1 hline with ⟨o', ho', rfl⟩
    rcases mem_reprinted ho' with rfl | ⟨e, he, rfl⟩
    · rw [parseLine_empty] at hparse
      cases hparse
      simp [isLegacy, PluginOptions.empty]
    · exact isLegacy_parseLine H h he hparse
  intro e he
  rcases hread e he with ⟨o, hparse⟩
  refine portable_of_parseLine H h he hparse ?_
  by_contra hlegacy
  have hmem : e.1 ∉ (ofPlugins plugins).pluginsOptions.map Prod.fst := by
    intro hmem
    rcases List.mem_map.1 hmem with ⟨e', he', hkey⟩
    rcases Keyed.mem_foldl_put _ he' with hnil | ⟨hplugin, hid⟩
    · cases hnil
    · have hnot := hids e'.2 (List.mem_of_mem_filter hplugin)
      rw [hid, hkey, ← h.keyed e he] at hnot
      exact hlegacy hnot
  have hne : e.1 ≠ "" := h.keyed e he ▸ h.named e he
  have hget : c.getOptions refused e.1 = some e.2 := by
    rw [getOptions, if_neg hne, (Keyed.get_eq_some_iff h.nodup).2 he]
  have hrel' := hrel e.1
  rw [hget, getOptions_refused hne hmem] at hrel'
  cases hrel'

end Accepted

/-! ## The condition on the string -/

/-- Every line that gives a plugin, and that no later line replaces, gives options that can be
printed. -/
def PortableText (plugin : String) : Prop :=
  ∀ before line after o, lines plugin = before ++ line :: after → parseLine line = some o →
    o.id ≠ "" → (∀ later ∈ after, ∀ o', parseLine later = some o' → o'.id ≠ o.id) → Portable o

theorem portableText_iff {plugin : String} {c : PluginConfiguration}
    (h : ofString plugin = some c) :
    PortableText plugin ↔ ∀ e ∈ c.pluginsOptions, Portable e.2 := by
  have haccepted := accepted_ofString h
  rcases Option.map_eq_some_iff.1 h with ⟨plugins, hplugins, rfl⟩
  have hmap := (Codec.mapM_eq_some_iff _).1 hplugins
  have hstored : ∀ {o : PluginOptions}, o.id ≠ "" →
      (Keyed.get o.id (ofPlugins plugins).pluginsOptions = some o ↔
        ∃ before after, plugins = before ++ o :: after ∧ o.id = o.id ∧ ∀ o' ∈ after, o'.id ≠ o.id) :=
    fun hid => Keyed.get_foldl_put_iff (fun o' ho' => by simpa [ho'] using hid) plugins
  constructor
  · intro htext e he
    have hget := (Keyed.get_eq_some_iff haccepted.nodup).2 he
    rw [← haccepted.keyed e he, hstored (haccepted.named e he)] at hget
    rcases hget with ⟨before, after, rfl, -, hlater⟩
    rw [List.map_append, List.map_cons] at hmap
    rcases List.map_eq_append_iff.1 hmap with ⟨before', tail, hlines, -, htail⟩
    rcases List.map_eq_cons_iff.1 htail with ⟨line, after', rfl, hline, hafter⟩
    refine htext before' line after' e.2 hlines hline (haccepted.named e he) ?_
    intro later hmem o' ho'
    have hin : some o' ∈ after'.map parseLine := List.mem_map.2 ⟨later, hmem, ho'⟩
    rw [hafter] at hin
    exact hlater o' (by simpa using hin)
  · intro hport before line after o hlines hline hid hlater
    rw [hlines, List.map_append, List.map_cons, hline] at hmap
    rcases List.map_eq_append_iff.1 hmap.symm with ⟨before', tail, rfl, -, htail⟩
    rcases List.map_eq_cons_iff.1 htail with ⟨o', after', rfl, ho', hafter⟩
    cases ho'
    have hget : Keyed.get o.id (ofPlugins (before' ++ o :: after')).pluginsOptions = some o := by
      refine (hstored hid).2 ⟨before', after', rfl, rfl, ?_⟩
      intro o' hmem
      have hin : some o' ∈ after'.map some := List.mem_map_of_mem hmem
      rw [hafter] at hin
      rcases List.mem_map.1 hin with ⟨later, hlaterMem, hparse⟩
      exact hlater later hlaterMem o' hparse
    exact hport _ ((Keyed.get_eq_some_iff haccepted.nodup).1 hget)

theorem reread_iff_portable (H : HashOrder) {plugin : String} {c : PluginConfiguration}
    (h : ofString plugin = some c) :
    (∀ defaultConfig, c.Reread H defaultConfig) ↔ PortableText plugin := by
  have haccepted := accepted_ofString h
  rw [portableText_iff h]
  constructor
  · intro hreread
    exact portable_of_reread H haccepted (hreread refused)
  · intro hport defaultConfig
    exact reread_of_portable H haccepted hport

/-- Two plugins, one line in each of the two syntaxes. -/
theorem reread_legacyAndEscaped :
    ∃ c, ofString "kcptun --nocomp --mode fast\nobfs;host=a\\;b" = some c ∧
      ∀ defaultConfig, c.Reread HashOrder.insertion defaultConfig := by
  have hall : (ofString "kcptun --nocomp --mode fast\nobfs;host=a\\;b").all (fun c =>
      c.pluginsOptions.all (fun e => e.2.entries.all plainEntry && !isLegacy e.2.id)) = true := by
    decide +kernel
  have hsome : (ofString "kcptun --nocomp --mode fast\nobfs;host=a\\;b").isSome = true := by
    decide +kernel
  rcases Option.isSome_iff_exists.1 hsome with ⟨c, hc⟩
  refine ⟨c, hc, (reread_iff_portable _ hc).2 ((portableText_iff hc).2 ?_)⟩
  intro e he
  rw [hc, Option.all_some] at hall
  have hentry := List.all_eq_true.1 hall e he
  rw [Bool.and_eq_true] at hentry
  exact ⟨hentry.1, by simpa using hentry.2⟩

/-- A legacy line with a tab in a value is accepted, and printed as a line that is not. -/
theorem legacyTab_not_reread :
    ∃ c, ofString "kcptun --key a\tb" = some c ∧
      ¬ c.Reread HashOrder.insertion (fun _ => none) := by
  have hread : (ofString "kcptun --key a\tb").bind
      (fun c => c.toString HashOrder.insertion (fun _ => none)) = some "kcptun;key=a\tb" := by
    decide +kernel
  have hrefused : ofString "kcptun;key=a\tb" = none := by decide +kernel
  rcases Option.bind_eq_some_iff.1 hread with ⟨c, hc, htext⟩
  refine ⟨c, hc, ?_⟩
  rintro ⟨text, c', htext', hc', -⟩
  rw [htext] at htext'
  cases htext'
  rw [hrefused] at hc'
  cases hc'

end PluginConfiguration

end Plugin
end SpinVpn
