import Mathlib.Data.Nat.Fib.Basic
import Mathlib.Order.Defs.LinearOrder
import SpinVpn.Lib.OrderedSet

/-!
# SearchTree — height-balanced search trees

A node carries the difference of the heights of its two subtrees.  A tree is balanced if every node
carries the right difference and none is greater than one; such a tree is at most as high as the
Fibonacci numbers allow (`Balanced.fib_height_le`).

A node of a tree is known by its position: the nodes above it, innermost first, each with the
subtree that the way down did not take (`Frame`), and the subtree of the node itself.  Putting the
subtree back (`plug`) gives the tree.  What is to the left and what is to the right of a position are
lists (`before`, `after`), and whether a subtree fits there is a matter of its height alone
(`balanced_plug`).

In a tree whose elements ascend, the way down that compares (`descend`) ends at the equal element, or
where it would have to be (`separates_descend`).
-/

namespace SearchTree

universe u

inductive BinTree (α : Type u) where
  | nil
  | node (left : BinTree α) (value : α) (balance : Int) (right : BinTree α)
  deriving DecidableEq

variable {α : Type u}

namespace BinTree

def height : BinTree α → Nat
  | nil => 0
  | node l _ _ r => max l.height r.height + 1

def toList : BinTree α → List α
  | nil => []
  | node l x _ r => l.toList ++ x :: r.toList

def Balanced : BinTree α → Prop
  | nil => True
  | node l _ b r =>
      l.Balanced ∧ r.Balanced ∧ -1 ≤ b ∧ b ≤ 1 ∧ b = (r.height : Int) - (l.height : Int)

@[simp] theorem height_nil : (nil : BinTree α).height = 0 := rfl
@[simp] theorem height_node (l : BinTree α) (x : α) (b : Int) (r : BinTree α) :
    (node l x b r).height = max l.height r.height + 1 := rfl
@[simp] theorem toList_nil : (nil : BinTree α).toList = [] := rfl
@[simp] theorem toList_node (l : BinTree α) (x : α) (b : Int) (r : BinTree α) :
    (node l x b r).toList = l.toList ++ x :: r.toList := rfl
@[simp] theorem balanced_nil : (nil : BinTree α).Balanced := trivial
@[simp] theorem balanced_node (l : BinTree α) (x : α) (b : Int) (r : BinTree α) :
    (node l x b r).Balanced ↔
      l.Balanced ∧ r.Balanced ∧ -1 ≤ b ∧ b ≤ 1 ∧ b = (r.height : Int) - (l.height : Int) :=
  Iff.rfl

/-- A balanced tree of a given height has at least as many elements as the sparsest one. -/
theorem Balanced.fib_height_le {t : BinTree α} (h : t.Balanced) :
    Nat.fib (t.height + 2) ≤ t.toList.length + 1 := by
  induction t with
  | nil => exact Nat.le_refl 1
  | node l x b r ihl ihr =>
      obtain ⟨hl, hr, hlow, hhigh, hb⟩ := h
      have hleft := ihl hl
      have hright := ihr hr
      rw [height_node, toList_node, List.length_append, List.length_cons]
      -- the lower subtree is at most one lower, and the Fibonacci numbers do not decrease
      have hstep : Nat.fib (max l.height r.height + 1 + 2) =
          Nat.fib (max l.height r.height + 1) + Nat.fib (max l.height r.height + 2) :=
        Nat.fib_add_two
      rcases Nat.le_total l.height r.height with hle | hle
      · have hmono : Nat.fib (r.height + 1) ≤ Nat.fib (l.height + 2) := by
          apply Nat.fib_mono
          omega
        rw [Nat.max_eq_right hle] at hstep ⊢
        omega
      · have hmono : Nat.fib (l.height + 1) ≤ Nat.fib (r.height + 2) := by
          apply Nat.fib_mono
          omega
        rw [Nat.max_eq_left hle] at hstep ⊢
        omega

end BinTree

open BinTree

/-! ## Positions -/

/-- A node above a position: the side of it on which the position is, and its other subtree. -/
structure Frame (α : Type u) where
  side : Bool
  value : α
  balance : Int
  other : BinTree α
  deriving DecidableEq

/-- The node with the subtree `t` at the position. -/
def Frame.join (f : Frame α) (t : BinTree α) : BinTree α :=
  if f.side then .node f.other f.value f.balance t else .node t f.value f.balance f.other

def plug : List (Frame α) → BinTree α → BinTree α
  | [], t => t
  | f :: up, t => plug up (f.join t)

def before : List (Frame α) → List α
  | [] => []
  | f :: up => if f.side then before up ++ f.other.toList ++ [f.value] else before up

def after : List (Frame α) → List α
  | [] => []
  | f :: up => if f.side then after up else f.value :: f.other.toList ++ after up

/-- A subtree of the height `h` keeps the balance of the nodes above it. -/
def Fits : List (Frame α) → Nat → Prop
  | [], _ => True
  | f :: up, h =>
      f.other.Balanced ∧ -1 ≤ f.balance ∧ f.balance ≤ 1 ∧
        f.balance = (if f.side then (h : Int) - (f.other.height : Int)
          else (f.other.height : Int) - (h : Int)) ∧
        Fits up (max h f.other.height + 1)

@[simp] theorem plug_nil (t : BinTree α) : plug [] t = t := rfl
@[simp] theorem plug_cons (f : Frame α) (up : List (Frame α)) (t : BinTree α) :
    plug (f :: up) t = plug up (f.join t) := rfl

theorem plug_append (p q : List (Frame α)) (t : BinTree α) : plug (p ++ q) t = plug q (plug p t) := by
  induction p generalizing t with
  | nil => rfl
  | cons f up ih => exact ih (f.join t)

theorem before_append (p q : List (Frame α)) : before (p ++ q) = before q ++ before p := by
  induction p with
  | nil => exact (List.append_nil _).symm
  | cons f up ih =>
      rw [List.cons_append, before, before, ih]
      split <;> simp

theorem after_append (p q : List (Frame α)) : after (p ++ q) = after p ++ after q := by
  induction p with
  | nil => rfl
  | cons f up ih =>
      rw [List.cons_append, after, after, ih]
      split <;> simp

theorem toList_join (f : Frame α) (t : BinTree α) :
    (f.join t).toList = before [f] ++ t.toList ++ after [f] := by
  rw [Frame.join, before, after]
  split <;> simp [before, after]

theorem toList_plug (p : List (Frame α)) (t : BinTree α) :
    (plug p t).toList = before p ++ t.toList ++ after p := by
  induction p generalizing t with
  | nil =>
      rw [plug_nil]
      simp [before, after]
  | cons f up ih =>
      calc (plug (f :: up) t).toList
          = before up ++ (f.join t).toList ++ after up := ih (f.join t)
        _ = before up ++ (before [f] ++ t.toList ++ after [f]) ++ after up := by rw [toList_join]
        _ = before ([f] ++ up) ++ t.toList ++ after ([f] ++ up) := by
            rw [before_append, after_append]
            simp

theorem height_join (f : Frame α) (t : BinTree α) :
    (f.join t).height = max t.height f.other.height + 1 := by
  rw [Frame.join]
  split
  · rw [height_node, Nat.max_comm]
  · rfl

theorem balanced_plug {p : List (Frame α)} {t : BinTree α} :
    (plug p t).Balanced ↔ t.Balanced ∧ Fits p t.height := by
  induction p generalizing t with
  | nil =>
      rw [plug_nil]
      simp [Fits]
  | cons f up ih =>
      rw [plug_cons, ih, height_join, Fits, Frame.join]
      split <;> simp only [balanced_node] <;> tauto

/-! ## The way down -/

variable {cmp : α → α → Ordering} {x : α} {p : List (Frame α)} {t : BinTree α}

/-- From a position down to the element that compares equal, or to where it would have to be. -/
def descend (cmp : α → α → Ordering) (x : α) :
    List (Frame α) → BinTree α → List (Frame α) × BinTree α
  | p, .nil => (p, .nil)
  | p, .node l c b r =>
      match cmp x c with
      | .eq => (p, .node l c b r)
      | .lt => descend cmp x (⟨false, c, b, r⟩ :: p) l
      | .gt => descend cmp x (⟨true, c, b, l⟩ :: p) r

theorem plug_descend (cmp : α → α → Ordering) (x : α) (p : List (Frame α)) (t : BinTree α) :
    plug (descend cmp x p t).1 (descend cmp x p t).2 = plug p t := by
  induction t generalizing p with
  | nil => rfl
  | node l c b r ihl ihr =>
      rw [descend]
      split
      · rfl
      · exact ihl _
      · exact ihr _

theorem eq_of_descend {l r : BinTree α} {c : α} {b : Int} {q : List (Frame α)}
    (h : descend cmp x p t = (q, .node l c b r)) : cmp x c = .eq := by
  induction t generalizing p with
  | nil => simp [descend] at h
  | node l' c' b' r' ihl ihr =>
      rw [descend] at h
      split at h
      · rename_i heq
        simp only [Prod.mk.injEq, BinTree.node.injEq] at h
        exact h.2.2.1 ▸ heq
      · exact ihl h
      · exact ihr h

/-- The elements to the left of the position are less than `x`, those to the right are greater. -/
def Separates (cmp : α → α → Ordering) (x : α) (p : List (Frame α)) : Prop :=
  (∀ y ∈ before p, cmp y x = .lt) ∧ ∀ y ∈ after p, cmp x y = .lt

theorem Separates.nil : Separates cmp x ([] : List (Frame α)) :=
  ⟨fun _ hy => (List.not_mem_nil hy).elim, fun _ hy => (List.not_mem_nil hy).elim⟩

def Ascending (cmp : α → α → Ordering) (t : BinTree α) : Prop :=
  t.toList.Pairwise (fun a b => cmp a b = .lt)

/-- A new element between what is less and what is greater. -/
theorem insert_between {l r : List α} (hl : ∀ y ∈ l, cmp x y = .gt) (hr : ∀ y ∈ r, cmp x y = .lt) :
    OrderedSet.insert cmp x (l ++ r) = l ++ x :: r := by
  induction l with
  | nil =>
      cases r with
      | nil => rfl
      | cons y r =>
          rw [List.nil_append, OrderedSet.insert, hr y List.mem_cons_self, List.nil_append]
  | cons y l ih =>
      rw [List.cons_append, OrderedSet.insert, hl y List.mem_cons_self]
      exact congrArg (List.cons y) (ih (fun z hz => hl z (List.mem_cons_of_mem _ hz)))

variable [Std.TransCmp cmp]

theorem separates_descend (hsep : Separates cmp x p) (hasc : Ascending cmp t) :
    Separates cmp x (descend cmp x p t).1 := by
  induction t generalizing p with
  | nil => exact hsep
  | node l c b r ihl ihr =>
      rw [Ascending, toList_node, List.pairwise_append, List.pairwise_cons] at hasc
      obtain ⟨hl, ⟨hcr, hr⟩, hlc⟩ := hasc
      rw [descend]
      split
      · exact hsep
      · rename_i hlt
        refine ihl ⟨hsep.1, fun y hy => ?_⟩ hl
        -- the node and its right subtree are now to the right
        have hmem : y = c ∨ y ∈ r.toList ∨ y ∈ after p := by simpa [after] using hy
        rcases hmem with rfl | hright | hafter
        · exact hlt
        · exact Std.TransCmp.lt_trans hlt (hcr y hright)
        · exact hsep.2 y hafter
      · rename_i hgt
        have hcx : cmp c x = .lt := Std.OrientedCmp.lt_of_gt hgt
        refine ihr ⟨fun y hy => ?_, hsep.2⟩ hr
        have hmem : y ∈ before p ∨ y ∈ l.toList ∨ y = c := by simpa [before] using hy
        rcases hmem with hbefore | hleft | rfl
        · exact hsep.1 y hbefore
        · exact Std.TransCmp.lt_trans (hlc y hleft c List.mem_cons_self) hcx
        · exact hcx

/-- Where the way down ends at a node, it is the only element that compares equal. -/
theorem eq_iff_of_ascending {l r : BinTree α} {c : α} {b : Int}
    (hasc : Ascending cmp (plug p (.node l c b r))) (hc : cmp x c = .eq) {y : α}
    (hy : y ∈ (plug p (.node l c b r)).toList) : cmp x y = .eq ↔ y = c := by
  constructor
  · intro heq
    refine OrderedSet.eq_of_ascending hasc hy ?_ ?_
    · simp [toList_plug]
    · exact Std.TransCmp.eq_trans (Std.OrientedCmp.eq_symm heq) hc
  · rintro rfl
    exact hc

/-- Where it ends at no node, no element compares equal. -/
theorem ne_of_separates (hsep : Separates cmp x p) : ∀ y ∈ (plug p .nil).toList, cmp x y ≠ .eq := by
  intro y hy heq
  rw [toList_plug, toList_nil, List.append_nil] at hy
  rcases List.mem_append.1 hy with hbefore | hafter
  · have hlt := hsep.1 y hbefore
    rw [Std.OrientedCmp.eq_symm heq] at hlt
    cases hlt
  · have hlt := hsep.2 y hafter
    rw [heq] at hlt
    cases hlt

theorem insert_of_separates (hsep : Separates cmp x p) :
    OrderedSet.insert cmp x (plug p .nil).toList = before p ++ x :: after p := by
  rw [toList_plug, toList_nil, List.append_nil]
  exact insert_between (fun y hy => Std.OrientedCmp.gt_of_lt (hsep.1 y hy)) hsep.2

/-- Nothing of `l` is between `x` and `c`. -/
def Nearest (cmp : α → α → Ordering) (x : α) (l : List α) (c : α) : Prop :=
  (cmp c x = .lt ∧ ∀ y ∈ l, cmp y x = .lt → y = c ∨ cmp y c = .lt) ∨
    (cmp x c = .lt ∧ ∀ y ∈ l, cmp x y = .lt → y = c ∨ cmp c y = .lt)

/-- The last node on the way down is a neighbour. -/
theorem nearest_of_separates {f : Frame α} {up : List (Frame α)} (hsep : Separates cmp x (f :: up))
    (hasc : Ascending cmp (plug (f :: up) .nil)) :
    Nearest cmp x (plug (f :: up) .nil).toList f.value := by
  obtain ⟨side, c, b, other⟩ := f
  obtain ⟨hbefore, hafter⟩ := hsep
  have hlist := toList_plug (⟨side, c, b, other⟩ :: up) .nil
  rw [Ascending, hlist] at hasc
  rw [hlist]
  have hnot : ∀ y, cmp y x = .lt → cmp x y = .lt → False := by
    intro y hlt hgt
    rw [Std.OrientedCmp.gt_of_lt hlt] at hgt
    cases hgt
  cases side with
  | true =>
      simp only [before, after, if_true, toList_nil, List.append_nil] at hbefore hafter hasc ⊢
      refine Or.inl ⟨hbefore c (by simp), fun y hy hlt => ?_⟩
      rcases List.mem_append.1 hy with hy | hy
      · rcases List.mem_append.1 hy with hless | heq
        · right
          have hpair := (List.pairwise_append.1 hasc).1
          exact (List.pairwise_append.1 hpair).2.2 y hless c (List.mem_singleton_self c)
        · exact Or.inl (List.mem_singleton.1 heq)
      · exact (hnot y hlt (hafter y hy)).elim
  | false =>
      simp only [before, after, Bool.false_eq_true, if_false, toList_nil, List.append_nil]
        at hbefore hafter hasc ⊢
      refine Or.inr ⟨hafter c (by simp), fun y hy hlt => ?_⟩
      rcases List.mem_append.1 hy with hy | hy
      · exact (hnot y (hbefore y hy) hlt).elim
      · rcases List.mem_cons.1 hy with heq | hgreater
        · exact Or.inl heq
        · right
          have hpair := (List.pairwise_append.1 hasc).2.1
          exact (List.pairwise_cons.1 hpair).1 y hgreater

/-- Without the one element that compares equal. -/
theorem filter_ne_eq {l r : List α} {c : α}
    (hasc : (l ++ c :: r).Pairwise (fun a b => cmp a b = .lt)) (hc : cmp x c = .eq) :
    (l ++ c :: r).filter (fun y => cmp x y ≠ .eq) = l ++ r := by
  rw [List.pairwise_append, List.pairwise_cons] at hasc
  obtain ⟨-, ⟨hcr, -⟩, hlc⟩ := hasc
  have hl : ∀ y ∈ l, cmp x y ≠ .eq := by
    intro y hy heq
    have hlt := hlc y hy c List.mem_cons_self
    rw [Std.TransCmp.eq_trans (Std.OrientedCmp.eq_symm heq) hc] at hlt
    cases hlt
  have hr : ∀ y ∈ r, cmp x y ≠ .eq := by
    intro y hy heq
    have hlt := hcr y hy
    rw [Std.TransCmp.eq_trans (Std.OrientedCmp.eq_symm hc) heq] at hlt
    cases hlt
  rw [List.filter_append, List.filter_cons_of_neg (by simpa using hc),
    List.filter_eq_self.2 (by simpa using hl), List.filter_eq_self.2 (by simpa using hr)]

end SearchTree
