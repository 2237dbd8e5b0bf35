import Mathlib.Data.List.Infix

/-!
# Replacing — every occurrence of a word

`replace` is `String.replace` on lists: the occurrences of a word are replaced from left to right, each
behind the one before.  The word is never empty.

A text without the word stays as it is (`replace_of_not_infix`), and one with it becomes shorter when
one letter takes its place (`length_replace_lt`).  So a text is unchanged, in its length at least,
exactly if the word is not in it.
-/

universe u

namespace Replacing

variable {α : Type u} [DecidableEq α]

def replace (target replacement : List α) : List α → List α
  | [] => []
  | a :: l =>
      if target <+: a :: l then
        replacement ++ replace target replacement (l.drop (target.length - 1))
      else a :: replace target replacement l
termination_by l => l.length
decreasing_by
  · simp only [List.length_drop, List.length_cons]
    omega
  · simp

variable {target replacement : List α}

@[simp] theorem replace_nil : replace target replacement [] = [] := by
  rw [replace]

theorem replace_append_left (h : target ≠ []) (l : List α) :
    replace target replacement (target ++ l) = replacement ++ replace target replacement l := by
  cases target with
  | nil => exact absurd rfl h
  | cons a target =>
      have hbegins : a :: target <+: a :: (target ++ l) := List.prefix_append (a :: target) l
      have hdrop : (target ++ l).drop ((a :: target).length - 1) = l := List.drop_left
      rw [List.cons_append, replace, if_pos hbegins, hdrop]

theorem replace_cons_of_not {a : α} {l : List α} (h : ¬ target <+: a :: l) :
    replace target replacement (a :: l) = a :: replace target replacement l := by
  rw [replace, if_neg h]

/-- The word does not begin where its first letter does not stand. -/
theorem replace_append_of_not_mem {a : α} {w : List α} (h : a ∉ w) (l : List α) :
    replace (a :: target) replacement (w ++ l) = w ++ replace (a :: target) replacement l := by
  induction w with
  | nil => rfl
  | cons b w ih =>
      rw [List.mem_cons, not_or] at h
      have hbegins : ¬ a :: target <+: b :: (w ++ l) := by
        rw [List.cons_prefix_cons]
        exact fun hab => h.1 hab.1
      rw [List.cons_append, replace_cons_of_not hbegins, ih h.2]
      rfl

theorem replace_of_not_infix (l : List α) (h : ¬ target <:+: l) :
    replace target replacement l = l := by
  induction l with
  | nil => exact replace_nil
  | cons a l ih =>
      rw [List.infix_cons_iff, not_or] at h
      rw [replace_cons_of_not h.1, ih h.2]

/-- The cases are those of the recursion: the end, an occurrence and any other letter. -/
theorem length_replace_le (r : α) (l : List α) : (replace target [r] l).length ≤ l.length := by
  fun_induction replace target [r] l with
  | case1 => exact Nat.le_refl 0
  | case2 a l hbegins ih =>
      rw [List.length_append, List.length_singleton, List.length_cons]
      rw [List.length_drop] at ih
      omega
  | case3 a l hbegins ih =>
      rw [List.length_cons, List.length_cons]
      exact Nat.succ_le_succ ih

theorem length_replace_lt (h : 1 < target.length) (r : α) (l : List α) (hl : target <:+: l) :
    (replace target [r] l).length < l.length := by
  have hne : target ≠ [] := fun hnil => by simp [hnil] at h
  induction l with
  | nil => exact absurd (List.infix_nil.1 hl) hne
  | cons a l ih =>
      by_cases hbegins : target <+: a :: l
      · obtain ⟨rest, hrest⟩ := hbegins
        have hle : (replace target [r] rest).length ≤ rest.length := length_replace_le r rest
        rw [← hrest, replace_append_left hne, List.length_append, List.length_append,
          List.length_singleton]
        omega
      · have hlater : target <:+: l := (List.infix_cons_iff.1 hl).resolve_left hbegins
        rw [replace_cons_of_not hbegins, List.length_cons, List.length_cons]
        exact Nat.succ_lt_succ (ih hlater)

theorem mem_replace {a : α} (l : List α) (h : a ∈ replace target replacement l) :
    a ∈ replacement ∨ a ∈ l := by
  fun_induction replace target replacement l with
  | case1 => exact Or.inr h
  | case2 b l hbegins ih =>
      rcases List.mem_append.1 h with hnew | hrest
      · exact Or.inl hnew
      · exact (ih hrest).imp_right fun hmem => List.mem_cons_of_mem b (List.mem_of_mem_drop hmem)
  | case3 b l hbegins ih =>
      rcases List.mem_cons.1 h with rfl | hrest
      · exact Or.inr List.mem_cons_self
      · exact (ih hrest).imp_right (List.mem_cons_of_mem b)

end Replacing
