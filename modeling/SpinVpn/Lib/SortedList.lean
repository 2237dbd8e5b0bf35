import Mathlib.Data.List.Induction
import Mathlib.Tactic.Tauto

/-!
# SortedList — a list sorted by binary search

The `SortedList` of androidx: an item goes to the place that a binary search finds for it, unless the
item there is the same.  Then it takes the place of that item, or is dropped (`replaces`).  Among the
items that compare equal to it, the same one is searched for from item to item.

The search relies on the list being sorted, and the list on the search (`Sorted`).  Which items are the
same is a matter of its own.  Where those are that compare equal, the list is strictly ascending after
any additions (`ascending_addAll`), and it has one item for each that was added (`exists_addAll`) and no
other items (`mem_addAll`).  Where others compare equal too, they stand side by side.
-/

universe u

namespace SortedList

variable {α : Type u}

/-- The result of a comparison is read off its sign. -/
def order (compare : α → α → Int) (a b : α) : Ordering :=
  if compare a b < 0 then .lt else if compare a b = 0 then .eq else .gt

/-- The loop of `linearEqualitySearch` that goes left from `next`, which is the place before. -/
def searchLeft (compare : α → α → Int) (same : α → α → Bool) (item : α) (data : List α) (left : Nat) :
    Nat → Option Nat
  | 0 => none
  | next + 1 =>
      if next < left then none
      else
        match data[next]? with
        | none => none
        | some nextItem =>
            if compare nextItem item ≠ 0 then none
            else if same nextItem item then some next
            else searchLeft compare same item data left next

/-- The loop that goes right from `next`. -/
def searchRight (compare : α → α → Int) (same : α → α → Bool) (item : α) (data : List α)
    (right next : Nat) : Option Nat :=
  if next < right then
    match data[next]? with
    | none => none
    | some nextItem =>
        if compare nextItem item ≠ 0 then none
        else if same nextItem item then some next
        else searchRight compare same item data right (next + 1)
  else none
termination_by right - next

/-- The same item among those that compare equal to it, around one of them. -/
def linearEqualitySearch (compare : α → α → Int) (same : α → α → Bool) (item : α) (data : List α)
    (middle left right : Nat) : Option Nat :=
  (searchLeft compare same item data left middle).or
    (searchRight compare same item data right (middle + 1))

/-- The place of the item, or the one it is to be inserted at, between `left` and `right`. -/
def findIndexOf (compare : α → α → Int) (same : α → α → Bool) (item : α) (data : List α)
    (left right : Nat) : Nat :=
  if left < right then
    let middle := (left + right) / 2
    match data[middle]? with
    | none => left
    | some myItem =>
        if compare myItem item < 0 then findIndexOf compare same item data (middle + 1) right
        else if compare myItem item = 0 then
          if same myItem item then middle
          else (linearEqualitySearch compare same item data middle left right).getD middle
        else findIndexOf compare same item data left middle
  else left
termination_by right - left
decreasing_by
  · omega
  · omega

def add (compare : α → α → Int) (same : α → α → Bool) (replaces : Bool) (data : List α) (item : α) :
    List α :=
  let index := findIndexOf compare same item data 0 data.length
  match data[index]? with
  | none => data ++ [item]
  | some existing =>
      if same existing item then if replaces then data.set index item else data
      else data.take index ++ item :: data.drop index

def addAll (compare : α → α → Int) (same : α → α → Bool) (replaces : Bool) (items : List α) : List α :=
  items.foldl (add compare same replaces) []

/-! ## The search -/

theorem order_eq_iff {compare : α → α → Int} {a b : α} : order compare a b = .eq ↔ compare a b = 0 := by
  unfold order
  split
  · simp
    omega
  · split <;> simp [*]

theorem order_lt_iff {compare : α → α → Int} {a b : α} : order compare a b = .lt ↔ compare a b < 0 := by
  unfold order
  split
  · simp [*]
  · split <;> simp [*]

section Search

variable {compare : α → α → Int} [Std.TransCmp (order compare)] {same : α → α → Bool} {data : List α}

omit [Std.TransCmp (order compare)] in
theorem searchLeft_spec {item : α} {left k : Nat} (middle : Nat)
    (h : searchLeft compare same item data left middle = some k) :
    ∃ a, data[k]? = some a ∧ order compare a item = .eq := by
  induction middle with
  | zero => cases h
  | succ next ih =>
      rw [searchLeft] at h
      split at h
      · cases h
      · split at h
        · cases h
        · rename_i nextItem hnext
          split at h
          · cases h
          · rename_i heq
            split at h
            · cases h
              exact ⟨nextItem, hnext, order_eq_iff.2 (not_not.1 heq)⟩
            · exact ih h

omit [Std.TransCmp (order compare)] in
theorem searchRight_spec {item : α} {right k : Nat} (next : Nat)
    (h : searchRight compare same item data right next = some k) :
    ∃ a, data[k]? = some a ∧ order compare a item = .eq := by
  induction next using searchRight.induct compare same item data right with
  | case1 next hlt hnone =>
      rw [searchRight, if_pos hlt, hnone] at h
      cases h
  | case2 next hlt nextItem hnext hne =>
      rw [searchRight, if_pos hlt, hnext] at h
      simp only [if_pos hne] at h
      cases h
  | case3 next hlt nextItem hnext heq hsame =>
      rw [searchRight, if_pos hlt, hnext] at h
      simp only [if_neg heq, if_pos hsame, Option.some.injEq] at h
      subst h
      exact ⟨nextItem, hnext, order_eq_iff.2 (not_not.1 heq)⟩
  | case4 next hlt nextItem hnext heq hsame ih =>
      rw [searchRight, if_pos hlt, hnext] at h
      simp only [if_neg heq, if_neg hsame] at h
      exact ih h
  | case5 next hge =>
      rw [searchRight, if_neg hge] at h
      cases h

omit [Std.TransCmp (order compare)] in
theorem isLE_of_sorted (h : data.Pairwise (fun a b => (order compare a b).isLE)) {i j : Nat} {a b : α}
    (hij : i < j) (ha : data[i]? = some a) (hb : data[j]? = some b) : (order compare a b).isLE := by
  obtain ⟨hi, rfl⟩ := List.getElem?_eq_some_iff.1 ha
  obtain ⟨hj, rfl⟩ := List.getElem?_eq_some_iff.1 hb
  exact List.pairwise_iff_getElem.1 h i j hi hj hij

/-- What stands at the place compares equal to the item, or the item belongs between what is before the
place and the rest.  The invariant of the loop is that it belongs between `left` and `right`. -/
theorem findIndexOf_spec (same : α → α → Bool) (item : α)
    (h : data.Pairwise (fun a b => (order compare a b).isLE))
    (left right : Nat) (hle : left ≤ right) (hlength : right ≤ data.length)
    (hbefore : ∀ j < left, ∀ a, data[j]? = some a → order compare a item = .lt)
    (hafter : ∀ j, right ≤ j → ∀ a, data[j]? = some a → order compare a item = .gt) :
    (∃ a, data[findIndexOf compare same item data left right]? = some a ∧
        order compare a item = .eq) ∨
      (∀ j < findIndexOf compare same item data left right, ∀ a, data[j]? = some a →
          order compare a item = .lt) ∧
        ∀ j, findIndexOf compare same item data left right ≤ j → ∀ a, data[j]? = some a →
          order compare a item = .gt := by
  induction left, right using findIndexOf.induct compare same item data with
  | case1 left right hlt middle hout =>
      -- the middle lies within the list
      have hnone := List.getElem?_eq_none_iff.1 hout
      omega
  | case2 left right hlt middle myItem hmiddle hless ih =>
      have hmyItem : order compare myItem item = .lt := order_lt_iff.2 hless
      rw [findIndexOf, if_pos hlt]
      simp only [show data[(left + right) / 2]? = some myItem from hmiddle, hless, if_true]
      refine ih (by omega) hlength ?_ hafter
      intro j hj a ha
      rcases Nat.lt_or_eq_of_le (Nat.le_of_lt_succ hj) with hj | rfl
      · exact Std.TransCmp.lt_of_isLE_of_lt (isLE_of_sorted h hj ha hmiddle) hmyItem
      · have hone : a = myItem := Option.some.inj (ha.symm.trans hmiddle)
        rwa [hone]
  | case3 left right hlt middle myItem hmiddle hless heq hsame =>
      rw [findIndexOf, if_pos hlt]
      simp only [show data[(left + right) / 2]? = some myItem from hmiddle, heq, hsame, Int.lt_irrefl,
        if_false, if_true]
      exact Or.inl ⟨myItem, rfl, order_eq_iff.2 heq⟩
  | case4 left right hlt middle myItem hmiddle hless heq hsame =>
      rw [findIndexOf, if_pos hlt]
      simp only [show data[(left + right) / 2]? = some myItem from hmiddle, heq, hsame, Int.lt_irrefl,
        if_false, if_true, Bool.false_eq_true]
      refine Or.inl ?_
      cases hlinear : linearEqualitySearch compare same item data ((left + right) / 2) left right with
      | none => exact ⟨myItem, hmiddle, order_eq_iff.2 heq⟩
      | some k =>
          rcases Option.or_eq_some_iff.1 hlinear with hleft | ⟨-, hright⟩
          · exact searchLeft_spec _ hleft
          · exact searchRight_spec _ hright
  | case5 left right hlt middle myItem hmiddle hless heq ih =>
      have hmyItem : order compare myItem item = .gt := by
        rw [order, if_neg hless, if_neg heq]
      rw [findIndexOf, if_pos hlt]
      simp only [show data[(left + right) / 2]? = some myItem from hmiddle, hless, heq, if_false]
      refine ih (by omega) (by omega) hbefore ?_
      intro j hj a ha
      rcases Nat.lt_or_eq_of_le hj with hj | rfl
      · apply Std.OrientedCmp.gt_of_lt
        exact Std.TransCmp.lt_of_lt_of_isLE (Std.OrientedCmp.lt_of_gt hmyItem)
          (isLE_of_sorted h hj hmiddle ha)
      · have hone : a = myItem := Option.some.inj (ha.symm.trans hmiddle)
        rwa [hone]
  | case6 left right hge =>
      rw [findIndexOf, if_neg hge]
      have hone : left = right := by omega
      exact Or.inr ⟨hbefore, hone ▸ hafter⟩

end Search

/-! ## Additions -/

section Additions

variable {compare : α → α → Int} [Std.TransCmp (order compare)] {same : α → α → Bool} {replaces : Bool}

/-- What becomes of the items from the place of the new one on. -/
def place (same : α → α → Bool) (replaces : Bool) (item : α) : List α → List α
  | [] => [item]
  | existing :: rest =>
      if same existing item then (if replaces then item else existing) :: rest
      else item :: existing :: rest

/-- The item belongs between the items before its place and the rest, or compares equal to the first of
the rest. -/
theorem add_split (same : α → α → Bool) (replaces : Bool) {data : List α}
    (h : data.Pairwise (fun a b => (order compare a b).isLE)) (item : α) :
    ∃ before after, data = before ++ after ∧
      add compare same replaces data item = before ++ place same replaces item after ∧
        ((∃ e rest, after = e :: rest ∧ order compare e item = .eq) ∨
          (∀ a ∈ before, order compare a item = .lt) ∧ ∀ b ∈ after, order compare b item = .gt) := by
  have hnone : ∀ j, data.length ≤ j → ∀ a, data[j]? = some a → order compare a item = .gt := by
    intro j hj a ha
    rw [List.getElem?_eq_none hj] at ha
    cases ha
  have hplace := findIndexOf_spec same item h 0 data.length (Nat.zero_le _) (Nat.le_refl _)
    (fun j hj => absurd hj (Nat.not_lt_zero j)) hnone
  simp only [add]
  generalize findIndexOf compare same item data 0 data.length = index at hplace
  refine ⟨data.take index, data.drop index, (List.take_append_drop index data).symm, ?_, ?_⟩
  · cases hindex : data[index]? with
    | none =>
        have hout := List.getElem?_eq_none_iff.1 hindex
        simp only [List.take_of_length_le hout, List.drop_of_length_le hout, place]
    | some existing =>
        obtain ⟨hlt, rfl⟩ := List.getElem?_eq_some_iff.1 hindex
        simp only [List.drop_eq_getElem_cons hlt, place]
        split
        · cases replaces with
          | true => simp [List.set_eq_take_append_cons_drop, hlt]
          | false => simp
        · rfl
  · rcases hplace with ⟨a, ha, heq⟩ | ⟨hbefore, hafter⟩
    · obtain ⟨hlt, rfl⟩ := List.getElem?_eq_some_iff.1 ha
      exact Or.inl ⟨_, _, List.drop_eq_getElem_cons hlt, heq⟩
    · refine Or.inr ⟨fun a ha => ?_, fun b hb => ?_⟩
      · obtain ⟨j, hj⟩ := List.getElem?_of_mem ha
        rw [List.getElem?_take] at hj
        split at hj
        · exact hbefore j ‹_› a hj
        · cases hj
      · obtain ⟨j, hj⟩ := List.getElem?_of_mem hb
        rw [List.getElem?_drop] at hj
        exact hafter _ (Nat.le_add_right _ _) b hj

theorem mem_place {a item : α} {after : List α} (h : a ∈ place same replaces item after) :
    a = item ∨ a ∈ after := by
  cases after with
  | nil => exact Or.inl (List.mem_singleton.1 h)
  | cons e rest =>
      rw [place] at h
      split at h
      · cases replaces <;>
          simp only [if_true, if_false, Bool.false_eq_true, List.mem_cons] at h ⊢ <;> tauto
      · exact List.mem_cons.1 h

/-- A relation between the items from left to right is kept if it holds between the new one and those
around its place. -/
theorem pairwise_place {r : α → α → Prop} {item : α} {before after : List α}
    (h : (before ++ after).Pairwise r) (hbefore : ∀ a ∈ before, r a item)
    (hafter : ∀ e rest, after = e :: rest →
      (∀ b ∈ rest, r item b) ∧ (same e item = false → r item e)) :
    (before ++ place same replaces item after).Pairwise r := by
  obtain ⟨hleft, hright, hacross⟩ := List.pairwise_append.1 h
  refine List.pairwise_append.2 ⟨hleft, ?_, ?_⟩
  · cases after with
    | nil => exact List.pairwise_singleton _ _
    | cons e rest =>
        obtain ⟨hrest, he⟩ := hafter e rest rfl
        rw [place]
        split
        · cases replaces with
          | true => exact List.pairwise_cons.2 ⟨hrest, (List.pairwise_cons.1 hright).2⟩
          | false => exact hright
        · rename_i hother
          refine List.pairwise_cons.2 ⟨?_, hright⟩
          exact List.forall_mem_cons.2 ⟨he (Bool.not_eq_true _ ▸ hother), hrest⟩
  · intro a ha b hb
    rcases mem_place hb with rfl | hb
    · exact hbefore a ha
    · exact hacross a ha b hb

/-- The list stays sorted, whichever items are the same. -/
theorem sorted_add (same : α → α → Bool) (replaces : Bool) {data : List α}
    (h : data.Pairwise (fun a b => (order compare a b).isLE)) (item : α) :
    (add compare same replaces data item).Pairwise (fun a b => (order compare a b).isLE) := by
  obtain ⟨before, after, rfl, hadd, hcases⟩ := add_split same replaces h item
  obtain ⟨-, hright, hacross⟩ := List.pairwise_append.1 h
  rw [hadd]
  rcases hcases with ⟨e, rest, rfl, heq⟩ | ⟨hless, hgreater⟩
  · have hitem : (order compare item e).isLE := by
      rw [Std.OrientedCmp.eq_symm heq]
      rfl
    have he : (order compare e item).isLE := by
      rw [heq]
      rfl
    refine pairwise_place h (fun a ha => ?_) ?_
    · exact Std.TransCmp.isLE_trans (hacross a ha e List.mem_cons_self) he
    · intro _ _ hsplit
      cases hsplit
      exact ⟨fun b hb => Std.TransCmp.isLE_trans hitem ((List.pairwise_cons.1 hright).1 b hb),
        fun _ => hitem⟩
  · have hitem : ∀ b ∈ after, (order compare item b).isLE := by
      intro b hb
      rw [Std.OrientedCmp.lt_of_gt (hgreater b hb)]
      rfl
    refine pairwise_place h (fun a ha => ?_) ?_
    · rw [hless a ha]
      rfl
    · rintro e rest rfl
      exact ⟨fun b hb => hitem b (List.mem_cons_of_mem e hb), fun _ => hitem e List.mem_cons_self⟩

omit [Std.TransCmp (order compare)] in
theorem isLE_of_ascending {data : List α} (h : data.Pairwise (fun a b => order compare a b = .lt)) :
    data.Pairwise (fun a b => (order compare a b).isLE) := by
  refine h.imp ?_
  intro a b hlt
  rw [hlt]
  rfl

/-- Where the items that compare equal to the new one are the same, it is kept as in a set. -/
theorem ascending_add {data : List α} (h : data.Pairwise (fun a b => order compare a b = .lt))
    {item : α} (hsame : ∀ a ∈ data, compare a item = 0 → same a item = true) :
    (add compare same replaces data item).Pairwise (fun a b => order compare a b = .lt) := by
  obtain ⟨before, after, rfl, hadd, hcases⟩ := add_split same replaces (isLE_of_ascending h) item
  obtain ⟨-, hright, hacross⟩ := List.pairwise_append.1 h
  rw [hadd]
  rcases hcases with ⟨e, rest, rfl, heq⟩ | ⟨hless, hgreater⟩
  · refine pairwise_place h (fun a ha => ?_) ?_
    · exact Std.TransCmp.lt_of_lt_of_eq (hacross a ha e List.mem_cons_self) heq
    · intro _ _ hsplit
      cases hsplit
      refine ⟨fun b hb => ?_, fun hother => ?_⟩
      · exact Std.TransCmp.lt_of_eq_of_lt (Std.OrientedCmp.eq_symm heq)
          ((List.pairwise_cons.1 hright).1 b hb)
      · rw [hsame e (by simp) (order_eq_iff.1 heq)] at hother
        cases hother
  · have hitem : ∀ b ∈ after, order compare item b = .lt := fun b hb =>
      Std.OrientedCmp.lt_of_gt (hgreater b hb)
    refine pairwise_place h hless ?_
    rintro e rest rfl
    exact ⟨fun b hb => hitem b (List.mem_cons_of_mem e hb), fun _ => hitem e List.mem_cons_self⟩

/-- A greatest item goes to the end. -/
theorem add_of_forall_lt {data : List α}
    (h : data.Pairwise (fun a b => order compare a b = .lt)) {item : α}
    (hless : ∀ a ∈ data, order compare a item = .lt) :
    add compare same replaces data item = data ++ [item] := by
  obtain ⟨before, after, rfl, hadd, hcases⟩ := add_split same replaces (isLE_of_ascending h) item
  cases after with
  | nil => rw [hadd, place, List.append_nil]
  | cons e rest =>
      have he : order compare e item = .lt := hless e (by simp)
      rcases hcases with ⟨e', rest', hsplit, heq⟩ | ⟨-, hgreater⟩
      · cases hsplit
        rw [he] at heq
        cases heq
      · rw [hgreater e List.mem_cons_self] at he
        cases he

theorem mem_add {data : List α} (h : data.Pairwise (fun a b => (order compare a b).isLE)) {item a : α}
    (ha : a ∈ add compare same replaces data item) : a = item ∨ a ∈ data := by
  obtain ⟨before, after, rfl, hadd, -⟩ := add_split same replaces h item
  rw [hadd] at ha
  rcases List.mem_append.1 ha with ha | ha
  · exact Or.inr (List.mem_append_left _ ha)
  · exact (mem_place ha).imp_right (List.mem_append_right _)

/-- The new item is there, and those that were there still are. -/
theorem exists_add (hsame : ∀ a b, same a b = true ↔ compare a b = 0) {data : List α}
    (h : data.Pairwise (fun a b => order compare a b = .lt)) (item z : α) :
    (∃ a ∈ add compare same replaces data item, order compare a z = .eq) ↔
      order compare item z = .eq ∨ ∃ a ∈ data, order compare a z = .eq := by
  obtain ⟨before, after, rfl, hadd, hcases⟩ := add_split same replaces (isLE_of_ascending h) item
  rw [hadd]
  rcases hcases with ⟨e, rest, rfl, heq⟩ | ⟨-, hgreater⟩
  · -- the two that compare equal to each other compare alike to others
    have halike := Std.TransCmp.congr_left (c := z) heq
    have hkept : order compare (if replaces then item else e) z = order compare item z := by
      cases replaces with
      | true => rfl
      | false => exact halike
    have htwice : ∀ p q r : Prop, p ∨ q ∨ r ↔ q ∨ p ∨ q ∨ r := by
      intro p q r
      tauto
    simp only [place, (hsame _ _).2 (order_eq_iff.1 heq), if_true, List.mem_append, List.mem_cons,
      or_and_right, exists_or, exists_eq_left, halike, hkept]
    exact htwice _ _ _
  · have hplace : place same replaces item after = item :: after := by
      cases after with
      | nil => rfl
      | cons e rest =>
          have hother : ¬same e item = true := by
            rw [hsame, ← order_eq_iff, hgreater e List.mem_cons_self]
            exact fun heq => by cases heq
          rw [place, if_neg hother]
    simp only [hplace, List.mem_append, List.mem_cons, or_and_right, exists_or, exists_eq_left]
    exact or_left_comm

/-! ## Sorted lists -/

section Lists

variable (hsame : ∀ a b, same a b = true ↔ compare a b = 0)

include hsame

theorem ascending_addAll (items : List α) :
    (addAll compare same replaces items).Pairwise (fun a b => order compare a b = .lt) := by
  induction items using List.reverseRecOn with
  | nil => exact List.Pairwise.nil
  | append_singleton items item ih =>
      rw [addAll, List.foldl_append]
      exact ascending_add ih fun a _ => (hsame a item).2

theorem mem_addAll {a : α} (items : List α) (ha : a ∈ addAll compare same replaces items) :
    a ∈ items := by
  induction items using List.reverseRecOn with
  | nil => exact ha
  | append_singleton items item ih =>
      rw [addAll, List.foldl_append] at ha
      rcases mem_add (isLE_of_ascending (ascending_addAll hsame items)) ha with rfl | hold
      · simp
      · exact List.mem_append_left _ (ih hold)

theorem exists_addAll (items : List α) (z : α) :
    (∃ a ∈ addAll compare same replaces items, order compare a z = .eq) ↔
      ∃ a ∈ items, order compare a z = .eq := by
  induction items using List.reverseRecOn with
  | nil => exact Iff.rfl
  | append_singleton items item ih =>
      calc (∃ a ∈ addAll compare same replaces (items ++ [item]), order compare a z = .eq)
          ↔ order compare item z = .eq ∨
              ∃ a ∈ addAll compare same replaces items, order compare a z = .eq := by
            rw [addAll, List.foldl_append]
            exact exists_add hsame (ascending_addAll hsame items) item z
        _ ↔ order compare item z = .eq ∨ ∃ a ∈ items, order compare a z = .eq := or_congr_right ih
        _ ↔ ∃ a ∈ items ++ [item], order compare a z = .eq := by
            simp only [List.mem_append, List.mem_singleton, or_and_right, exists_or, exists_eq_left]
            exact or_comm

end Lists

/-! ## Lists that are sorted -/

/-- No item stands before a lesser one; those that compare equal may differ. -/
@[ext]
structure Sorted (compare : α → α → Int) where
  items : List α
  sorted : items.Pairwise (fun a b => (order compare a b).isLE)

namespace Sorted

instance [DecidableEq α] : DecidableEq (Sorted compare) :=
  fun s t => decidable_of_iff (s.items = t.items) Sorted.ext_iff.symm

omit [Std.TransCmp (order compare)] in
def empty : Sorted compare where
  items := []
  sorted := List.Pairwise.nil

def add (same : α → α → Bool) (replaces : Bool) (item : α) (s : Sorted compare) : Sorted compare where
  items := SortedList.add compare same replaces s.items item
  sorted := sorted_add same replaces s.sorted item

def addAll (same : α → α → Bool) (replaces : Bool) (items : List α) (s : Sorted compare) :
    Sorted compare :=
  items.foldl (fun s item => s.add same replaces item) s

theorem mem_of_mem_add {s : Sorted compare} {item a : α} (ha : a ∈ (s.add same replaces item).items) :
    a = item ∨ a ∈ s.items :=
  mem_add s.sorted ha

theorem items_addAll (items : List α) :
    ∀ {s : Sorted compare}, (s.items ++ items).Pairwise (fun a b => order compare a b = .lt) →
      (s.addAll same replaces items).items = s.items ++ items := by
  induction items with
  | nil =>
      intro s _
      exact (List.append_nil _).symm
  | cons item items ih =>
      intro s h
      obtain ⟨hascending, -, hless⟩ := List.pairwise_append.1 h
      have hlast : (s.add same replaces item).items = s.items ++ [item] :=
        add_of_forall_lt hascending fun a ha => hless a ha item List.mem_cons_self
      have hrest := ih (s := s.add same replaces item) (by simpa [hlast] using h)
      rw [hlast, List.append_assoc] at hrest
      exact hrest

/-- A list without items that compare equal is what its own items make, whichever are the same. -/
theorem addAll_items {s : Sorted compare}
    (h : s.items.Pairwise (fun a b => order compare a b = .lt)) :
    (empty : Sorted compare).addAll same replaces s.items = s :=
  Sorted.ext (items_addAll s.items h)

end Sorted

end Additions

end SortedList
