import Mathlib.Data.List.Forall2

/-!
# OrderedSet — sets that are kept in order

A set over a comparison is a list in strictly ascending order.  An element that compares equal to a
new one is replaced by it, so no two elements of a set compare equal, and a set is rebuilt by adding
its elements one after the other (`addAll_items`).

Which elements a set has is a matter of the comparison, too (`Has`), and so is which sets are the
same (`forall₂_of_has_iff`); where only an element compares equal to itself, both are equality.
-/

universe u

/-- The elements in strictly ascending order. -/
@[ext]
structure OrderedSet {α : Type u} (cmp : α → α → Ordering) where
  items : List α
  ascending : items.Pairwise (fun a b => cmp a b = .lt)

namespace OrderedSet

variable {α : Type u} {cmp : α → α → Ordering}

instance [DecidableEq α] : DecidableEq (OrderedSet cmp) :=
  fun s t => decidable_of_iff (s.items = t.items) OrderedSet.ext_iff.symm

def empty : OrderedSet cmp where
  items := []
  ascending := List.Pairwise.nil

/-- Two elements that compare equal are one. -/
theorem eq_of_ascending [Std.OrientedCmp cmp] {l : List α} (h : l.Pairwise (fun a b => cmp a b = .lt))
    {a b : α} (ha : a ∈ l) (hb : b ∈ l) (heq : cmp a b = .eq) : a = b := by
  obtain ⟨i, hi, rfl⟩ := List.getElem_of_mem ha
  obtain ⟨j, hj, rfl⟩ := List.getElem_of_mem hb
  rw [List.pairwise_iff_getElem] at h
  rcases Nat.lt_trichotomy i j with hlt | rfl | hgt
  · rw [h i j hi hj hlt] at heq
    cases heq
  · rfl
  · rw [Std.OrientedCmp.gt_of_lt (h j i hj hi hgt)] at heq
    cases heq

/-! ## Insertion -/

def insert (cmp : α → α → Ordering) (x : α) : List α → List α
  | [] => [x]
  | y :: l =>
      match cmp x y with
      | .lt => x :: y :: l
      | .eq => x :: l
      | .gt => y :: insert cmp x l

theorem mem_insert {x y : α} {l : List α} (h : y ∈ insert cmp x l) : y = x ∨ y ∈ l := by
  induction l with
  | nil => exact Or.inl (List.mem_singleton.1 h)
  | cons z l ih =>
      rw [insert] at h
      split at h
      · exact List.mem_cons.1 h
      · rcases List.mem_cons.1 h with hx | hl
        · exact Or.inl hx
        · exact Or.inr (List.mem_cons_of_mem _ hl)
      · rcases List.mem_cons.1 h with hz | hl
        · exact Or.inr (hz ▸ List.mem_cons_self)
        · exact (ih hl).imp_right (List.mem_cons_of_mem _)

theorem pairwise_insert [Std.TransCmp cmp] {x : α} {l : List α}
    (h : l.Pairwise (fun a b => cmp a b = .lt)) :
    (insert cmp x l).Pairwise (fun a b => cmp a b = .lt) := by
  induction l with
  | nil => exact List.pairwise_singleton _ _
  | cons y l ih =>
      rcases List.pairwise_cons.1 h with ⟨hy, hl⟩
      rw [insert]
      split
      -- the new element is the least
      · rename_i hxy
        refine List.pairwise_cons.2 ⟨?_, h⟩
        intro z hz
        rcases List.mem_cons.1 hz with rfl | hz
        · exact hxy
        · exact Std.TransCmp.lt_trans hxy (hy z hz)
      -- it takes the place of one that compares equal
      · rename_i hxy
        refine List.pairwise_cons.2 ⟨?_, hl⟩
        intro z hz
        exact Std.TransCmp.lt_of_eq_of_lt hxy (hy z hz)
      · rename_i hxy
        refine List.pairwise_cons.2 ⟨?_, ih hl⟩
        intro z hz
        rcases mem_insert hz with rfl | hz
        · exact Std.OrientedCmp.lt_of_gt hxy
        · exact hy z hz

/-- A new greatest element goes to the end. -/
theorem insert_of_forall_lt [Std.OrientedCmp cmp] {x : α} {l : List α}
    (h : ∀ y ∈ l, cmp y x = .lt) : insert cmp x l = l ++ [x] := by
  induction l with
  | nil => rfl
  | cons y l ih =>
      have hgt : cmp x y = .gt := Std.OrientedCmp.gt_of_lt (h y List.mem_cons_self)
      rw [insert, hgt]
      exact congrArg (List.cons y) (ih (fun z hz => h z (List.mem_cons_of_mem _ hz)))

/-! ## Sets -/

variable [Std.TransCmp cmp]

def add (x : α) (s : OrderedSet cmp) : OrderedSet cmp where
  items := insert cmp x s.items
  ascending := pairwise_insert s.ascending

def addAll (l : List α) (s : OrderedSet cmp) : OrderedSet cmp :=
  l.foldl (fun s x => s.add x) s

theorem mem_addAll {y : α} (l : List α) :
    ∀ {s : OrderedSet cmp}, y ∈ (s.addAll l).items → y ∈ s.items ∨ y ∈ l := by
  induction l with
  | nil =>
      intro s h
      exact Or.inl h
  | cons x l ih =>
      intro s h
      rcases ih h with hadd | hl
      · rcases mem_insert hadd with rfl | hs
        · exact Or.inr List.mem_cons_self
        · exact Or.inl hs
      · exact Or.inr (List.mem_cons_of_mem _ hl)

theorem items_addAll (l : List α) :
    ∀ {s : OrderedSet cmp}, (s.items ++ l).Pairwise (fun a b => cmp a b = .lt) →
      (s.addAll l).items = s.items ++ l := by
  induction l with
  | nil =>
      intro s _
      exact (List.append_nil _).symm
  | cons x l ih =>
      intro s h
      -- every element so far is less than the next one
      have hlast : (s.add x).items = s.items ++ [x] := by
        refine insert_of_forall_lt (fun y hy => ?_)
        exact (List.pairwise_append.1 h).2.2 y hy x List.mem_cons_self
      have hrest := ih (s := s.add x) (by simpa [hlast] using h)
      rw [hlast, List.append_assoc] at hrest
      exact hrest

/-- A set is what its own elements make. -/
theorem addAll_items (s : OrderedSet cmp) : empty.addAll s.items = s :=
  OrderedSet.ext (items_addAll s.items s.ascending)

/-! ## Elements -/

/-- One of the elements compares equal. -/
def Has (s : OrderedSet cmp) (x : α) : Prop :=
  ∃ y ∈ s.items, cmp y x = .eq

theorem exists_mem_insert {x z : α} (l : List α) :
    (∃ y ∈ insert cmp x l, cmp y z = .eq) ↔ cmp x z = .eq ∨ ∃ y ∈ l, cmp y z = .eq := by
  induction l with
  | nil => simp [insert]
  | cons y l ih =>
      rw [insert]
      split
      · simp
      · rename_i hxy
        -- the two that compare equal to each other compare alike to others
        simp [Std.TransCmp.congr_left (c := z) hxy]
      · rw [List.exists_mem_cons_iff, ih, List.exists_mem_cons_iff]
        exact or_left_comm

theorem has_add (s : OrderedSet cmp) (x z : α) : (s.add x).Has z ↔ cmp x z = .eq ∨ s.Has z :=
  exists_mem_insert s.items

theorem has_addAll (l : List α) :
    ∀ (s : OrderedSet cmp) (z : α),
      (s.addAll l).Has z ↔ s.Has z ∨ ∃ x ∈ l, cmp x z = .eq := by
  induction l with
  | nil =>
      intro s z
      simp [addAll]
  | cons x l ih =>
      intro s z
      have hstep : s.addAll (x :: l) = (s.add x).addAll l := rfl
      rw [hstep, ih, has_add, List.exists_mem_cons_iff, or_assoc]
      exact or_left_comm

/-- No element but the first compares equal to the first. -/
theorem not_eq_of_mem_tail {x y z : α} {l : List α}
    (h : (x :: l).Pairwise (fun a b => cmp a b = .lt)) (hy : y ∈ l) (hx : cmp x z = .eq) :
    cmp y z ≠ .eq := by
  intro hyz
  have hlt := (List.pairwise_cons.1 h).1 y hy
  rw [Std.TransCmp.congr_left hx, Std.OrientedCmp.eq_symm hyz] at hlt
  cases hlt

theorem forall₂_of_exists_iff (l : List α) :
    ∀ {m : List α}, l.Pairwise (fun a b => cmp a b = .lt) → m.Pairwise (fun a b => cmp a b = .lt) →
      (∀ z, (∃ y ∈ l, cmp y z = .eq) ↔ ∃ y ∈ m, cmp y z = .eq) →
        List.Forall₂ (fun a b => cmp a b = .eq) l m := by
  induction l with
  | nil =>
      intro m _ _ h
      cases m with
      | nil => exact List.Forall₂.nil
      | cons y m =>
          rcases (h y).2 ⟨y, List.mem_cons_self, Std.ReflCmp.compare_self⟩ with ⟨x, hx, -⟩
          cases hx
  | cons x l ih =>
      intro m hl hm h
      cases m with
      | nil =>
          rcases (h x).1 ⟨x, List.mem_cons_self, Std.ReflCmp.compare_self⟩ with ⟨y, hy, -⟩
          cases hy
      | cons y m =>
          -- the least elements compare equal: neither can be found further behind
          have hxy : cmp x y = .eq := by
            rcases (h x).1 ⟨x, List.mem_cons_self, Std.ReflCmp.compare_self⟩ with ⟨y', hy', hyx⟩
            rcases List.mem_cons.1 hy' with rfl | hy'
            · exact Std.OrientedCmp.eq_symm hyx
            rcases (h y).2 ⟨y, List.mem_cons_self, Std.ReflCmp.compare_self⟩ with ⟨x', hx', hxy⟩
            rcases List.mem_cons.1 hx' with rfl | hx'
            · exact hxy
            have hlt : cmp y y' = .lt := (List.pairwise_cons.1 hm).1 y' hy'
            have hgt : cmp x x' = .lt := (List.pairwise_cons.1 hl).1 x' hx'
            rw [Std.TransCmp.congr_right hyx] at hlt
            rw [Std.TransCmp.congr_right hxy] at hgt
            rw [Std.OrientedCmp.gt_of_lt hgt] at hlt
            cases hlt
          refine List.Forall₂.cons hxy (ih (List.pairwise_cons.1 hl).2 (List.pairwise_cons.1 hm).2 ?_)
          intro z
          constructor
          · rintro ⟨w, hw, hwz⟩
            rcases (h z).1 ⟨w, List.mem_cons_of_mem x hw, hwz⟩ with ⟨v, hv, hvz⟩
            rcases List.mem_cons.1 hv with rfl | hv
            · exact absurd hwz (not_eq_of_mem_tail hl hw (Std.TransCmp.eq_trans hxy hvz))
            · exact ⟨v, hv, hvz⟩
          · rintro ⟨w, hw, hwz⟩
            rcases (h z).2 ⟨w, List.mem_cons_of_mem y hw, hwz⟩ with ⟨v, hv, hvz⟩
            rcases List.mem_cons.1 hv with rfl | hv
            · have hyz : cmp y z = .eq :=
                Std.TransCmp.eq_trans (Std.OrientedCmp.eq_symm hxy) hvz
              exact absurd hwz (not_eq_of_mem_tail hm hw hyz)
            · exact ⟨v, hv, hvz⟩

/-- Sets with the same elements are the same, element by element. -/
theorem forall₂_of_has_iff {s t : OrderedSet cmp} (h : ∀ x, s.Has x ↔ t.Has x) :
    List.Forall₂ (fun a b => cmp a b = .eq) s.items t.items :=
  forall₂_of_exists_iff s.items s.ascending t.ascending h

omit [Std.TransCmp cmp] in
theorem has_iff_mem [Std.LawfulEqCmp cmp] {s : OrderedSet cmp} {x : α} :
    s.Has x ↔ x ∈ s.items := by
  constructor
  · rintro ⟨y, hy, heq⟩
    rwa [← Std.LawfulEqCmp.eq_of_compare heq]
  · intro h
    exact ⟨x, h, Std.ReflCmp.compare_self⟩

theorem eq_of_has_iff [Std.LawfulEqCmp cmp] {s t : OrderedSet cmp} (h : ∀ x, s.Has x ↔ t.Has x) :
    s = t := by
  have hitems := forall₂_of_has_iff h
  simp only [Std.LawfulEqCmp.compare_eq_iff_eq] at hitems
  rw [List.forall₂_eq_eq_eq] at hitems
  exact OrderedSet.ext hitems

end OrderedSet
