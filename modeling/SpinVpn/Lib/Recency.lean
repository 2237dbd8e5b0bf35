import Mathlib.Data.List.Dedup
import Mathlib.Data.List.Nodup

/-!
# Recency — stores that give up what was used longest ago

A store lists its keys in the order of their last use.  Using a key moves it to the end (`touch`),
and the first key is the one to give up.  Such a store holds the most recently used keys and no
others, in the order of their last use (`Recent`), whichever keys were used and given up before.
-/

namespace Recency

universe u

variable {α : Type u} [DecidableEq α] {l uses : List α} {k : α}

def touch (l : List α) (k : α) : List α :=
  l.erase k ++ [k]

theorem mem_touch (hk : k ∈ l) {a : α} : a ∈ touch l k ↔ a ∈ l := by
  rw [touch, List.mem_append, List.mem_singleton]
  by_cases ha : a = k
  · subst ha
    exact iff_of_true (Or.inr rfl) hk
  · rw [List.mem_erase_of_ne ha, or_iff_left ha]

/-- The keys by their last use: the one that is used now comes last. -/
theorem dedup_concat (uses : List α) (k : α) : (uses ++ [k]).dedup = touch uses.dedup k := by
  induction uses with
  | nil => simp [touch]
  | cons a uses ih =>
      by_cases ha : a ∈ uses
      · rw [List.cons_append, List.dedup_cons_of_mem (by simp [ha]), List.dedup_cons_of_mem ha, ih]
      · rw [List.dedup_cons_of_notMem ha]
        have ha' : a ∉ uses.dedup := fun h => ha (List.mem_dedup.1 h)
        by_cases hk : a = k
        · subst hk
          rw [List.cons_append, List.dedup_cons_of_mem (by simp), ih, touch, touch,
            List.erase_of_not_mem ha', List.erase_cons_head]
        · have hnew : a ∉ uses ++ [k] := by simp [ha, hk]
          rw [List.cons_append, List.dedup_cons_of_notMem hnew, ih, touch, touch,
            List.erase_cons_tail (by simpa using hk), List.cons_append]

/-- The keys `l` of a store are the last ones of all that were used. -/
def Recent (l uses : List α) : Prop :=
  l <:+ uses.dedup

theorem Recent.nil : Recent ([] : List α) uses :=
  List.nil_suffix

theorem Recent.nodup (h : Recent l uses) : l.Nodup :=
  h.sublist.nodup uses.nodup_dedup

theorem Recent.touch (h : Recent l uses) (k : α) : Recent (touch l k) (uses ++ [k]) := by
  obtain ⟨before, hbefore⟩ := h
  rw [Recent, dedup_concat, ← hbefore, Recency.touch, Recency.touch]
  have hnodup : (before ++ l).Nodup := hbefore ▸ uses.nodup_dedup
  by_cases hk : k ∈ l
  · have hnot : k ∉ before := fun hmem => List.disjoint_of_nodup_append hnodup hmem hk
    rw [List.erase_append_right _ hnot, List.append_assoc]
    exact List.suffix_append _ _
  · rw [List.erase_of_not_mem hk]
    by_cases hmem : k ∈ before
    · rw [List.erase_append_left _ hmem, List.append_assoc]
      exact List.suffix_append _ _
    · rw [List.erase_append_right _ hmem, List.erase_of_not_mem hk, List.append_assoc]
      exact List.suffix_append _ _

/-- What is given up is what was used longest ago. -/
theorem Recent.tail (h : Recent l uses) : Recent l.tail uses :=
  (List.tail_suffix l).trans h

theorem length_touch_of_mem (hk : k ∈ l) : (touch l k).length = l.length := by
  have hpos := List.length_pos_of_mem hk
  rw [touch, List.length_append, List.length_erase_of_mem hk, List.length_singleton]
  omega

theorem length_touch_of_not_mem (hk : k ∉ l) : (touch l k).length = l.length + 1 := by
  rw [touch, List.erase_of_not_mem hk, List.length_append, List.length_singleton]

theorem Recent.length_le (h : Recent l uses) : l.length ≤ uses.dedup.length :=
  List.IsSuffix.length_le h

/-- A key of the store was used before. -/
theorem Recent.length_dedup_of_mem (h : Recent l uses) (hk : k ∈ l) :
    (uses ++ [k]).dedup.length = uses.dedup.length := by
  rw [dedup_concat, length_touch_of_mem (List.IsSuffix.mem hk h)]

/-- A key that is not in a store of all keys is new. -/
theorem Recent.length_dedup_of_not_mem (h : Recent l uses) (hall : l.length = uses.dedup.length)
    (hk : k ∉ l) : (uses ++ [k]).dedup.length = uses.dedup.length + 1 := by
  have heq : l = uses.dedup := List.IsSuffix.eq_of_length h hall
  rw [dedup_concat, length_touch_of_not_mem (heq ▸ hk)]

end Recency
