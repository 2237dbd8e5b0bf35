import SpinVpn.Lib.SearchTree
import SpinVpn.Lib.Simulation
import SpinVpn.Tun.SocksUdpGwClient

/-!
# BAVL — the tree of the sockets

`badvpn/structure/BAVL.h`, in which `SocksUdpGwClient` keeps the local addresses that have a socket.
A node is its value and its balance; the links to the parents are the frames of a position, and
whoever has a node of the tree has its position.

After every sequence of insertions and removals the tree is balanced and ordered, and its elements
are those of the sequence (`bavl_verified`).  A look-up finds the element that compares equal, and
where there is none the neighbour that is documented (`bavl_lookup`).  Going from node to node visits
the elements one by one, in order (`bavl_iterates`).  What a look-up finds is the socket of an address,
whatever sockets were opened and freed before (`socketTree_finds`).
-/

namespace SpinVpn
namespace Tun
namespace BAVL

open EventMachine SearchTree SearchTree.BinTree

universe u

variable {α : Type u}

/-! ## Nodes -/

def link : BinTree α → Bool → BinTree α
  | .nil, _ => .nil
  | .node l _ _ r, side => if side then r else l

def setLink : BinTree α → Bool → BinTree α → BinTree α
  | .nil, _, _ => .nil
  | .node l x b r, side, c => if side then .node l x b c else .node c x b r

def balance : BinTree α → Int
  | .nil => 0
  | .node _ _ b _ => b

def setBalance : BinTree α → Int → BinTree α
  | .nil, _ => .nil
  | .node l x _ r, b => .node l x b r

/-- `BAVL_OPTNEG` -/
def optneg (a : Int) (neg : Bool) : Int :=
  if neg then -a else a

/-- `_BAVL_rotate`: the child on the other side comes up, and the node goes down on the side `dir`. -/
def rotate (r : BinTree α) (dir : Bool) : BinTree α :=
  let nr := link r (!dir)
  setLink nr dir (setLink r (!dir) (link nr dir))

/-! ## Rebalancing -/

/-- The transformations of `_BAVL_rebalance`, for a node that is too heavy on the side `bside`.  The
rotations do not read the balances, which are set first here. -/
def restore (node : BinTree α) (bside : Bool) (delta : Int) : BinTree α × Int :=
  let bsidef : Int := if bside then 1 else -1
  let child := link node bside
  if balance child * bsidef = 1 then
    (rotate (setLink (setBalance node 0) bside (setBalance child 0)) (!bside), delta - 1)
  else if balance child * bsidef = 0 then
    (rotate (setLink (setBalance node (1 * bsidef)) bside (setBalance child (-1 * bsidef))) (!bside),
      delta)
  else
    let gchild := link child (!bside)
    let child' := setLink (setBalance child (max 0 (-balance gchild * bsidef) * bsidef)) (!bside)
      (setBalance gchild 0)
    let node' := setBalance node (-(max 0 (balance gchild * bsidef)) * bsidef)
    (rotate (setLink node' bside (rotate child' bside)) (!bside), delta - 1)

/-- What `_BAVL_rebalance` does at one node: the new subtree, and how much its height changed. -/
def rebalanceNode (f : Frame α) (t : BinTree α) (deltac : Int) : BinTree α × Int :=
  let delta := max deltac (optneg f.balance f.side) - max 0 (optneg f.balance f.side)
  let balance := f.balance - optneg deltac f.side
  let node := { f with balance := balance }.join t
  if balance = 2 then restore node true delta
  else if balance = -2 then restore node false delta
  else (node, delta)

/-- `_BAVL_rebalance`, on the way up: the subtree `t` is `deltac` higher than the one before it. -/
def rebalance : List (Frame α) → BinTree α → Int → BinTree α
  | [], t, _ => t
  | f :: up, t, deltac =>
      if deltac = 0 then plug (f :: up) t
      else rebalance up (rebalanceNode f t deltac).1 (rebalanceNode f t deltac).2

/-- The node is put right, and is one lower than before unless its child was in balance. -/
def Restored (node : BinTree α) (h : Int) (delta : Int) (p : BinTree α × Int) : Prop :=
  p.1.Balanced ∧ p.1.toList = node.toList ∧ (p.1.height : Int) = h + (p.2 - delta) ∧
    (p.2 = delta ∨ p.2 = delta - 1)

theorem restore_right {l child : BinTree α} {x : α} (delta : Int) (hchild : child.Balanced)
    (hl : l.Balanced) (hheight : child.height = l.height + 2) :
    Restored (.node l x 2 child) (l.height + 3) delta (restore (.node l x 2 child) true delta) := by
  cases child with
  | nil =>
      rw [height_nil] at hheight
      omega
  | node cl c cb cr =>
  simp only [balanced_node, height_node] at hchild hheight
  obtain ⟨hcl, hcr, hlow, hhigh, hcb⟩ := hchild
  rcases (by omega : cb = 1 ∨ cb = 0 ∨ cb = -1) with rfl | rfl | rfl
  · simp [Restored, restore, link, setLink, balance, setBalance, rotate, hcl, hcr, hl]
    omega
  · simp [Restored, restore, link, setLink, balance, setBalance, rotate, hcl, hcr, hl]
    omega
  · cases cl with
    | nil =>
        rw [height_nil] at hcb
        omega
    | node gl g gb gr =>
        simp only [balanced_node, height_node] at hcl hheight hcb
        obtain ⟨hgl, hgr, hglow, hghigh, hgb⟩ := hcl
        simp [Restored, restore, link, setLink, balance, setBalance, rotate, hcr, hl, hgl, hgr]
        omega

theorem restore_left {r child : BinTree α} {x : α} (delta : Int) (hchild : child.Balanced)
    (hr : r.Balanced) (hheight : child.height = r.height + 2) :
    Restored (.node child x (-2) r) (r.height + 3) delta
      (restore (.node child x (-2) r) false delta) := by
  cases child with
  | nil =>
      rw [height_nil] at hheight
      omega
  | node cl c cb cr =>
  simp only [balanced_node, height_node] at hchild hheight
  obtain ⟨hcl, hcr, hlow, hhigh, hcb⟩ := hchild
  rcases (by omega : cb = -1 ∨ cb = 0 ∨ cb = 1) with rfl | rfl | rfl
  · simp [Restored, restore, link, setLink, balance, setBalance, rotate, hcl, hcr, hr]
    omega
  · simp [Restored, restore, link, setLink, balance, setBalance, rotate, hcl, hcr, hr]
    omega
  · cases cr with
    | nil =>
        rw [height_nil] at hcb
        omega
    | node gl g gb gr =>
        simp only [balanced_node, height_node] at hcr hheight hcb
        obtain ⟨hgl, hgr, hglow, hghigh, hgb⟩ := hcr
        simp [Restored, restore, link, setLink, balance, setBalance, rotate, hcl, hr, hgl, hgr]
        omega

/-- The node in its new shape: in balance, with the same elements, and higher by the returned value. -/
theorem rebalanceNode_spec {f : Frame α} {up : List (Frame α)} {t : BinTree α} {h : Nat} {deltac : Int}
    (hfits : Fits (f :: up) h) (ht : t.Balanced) (hheight : (t.height : Int) = h + deltac)
    (hlow : -1 ≤ deltac) (hhigh : deltac ≤ 1) :
    (rebalanceNode f t deltac).1.Balanced ∧
      (rebalanceNode f t deltac).1.toList = (f.join t).toList ∧
      ((rebalanceNode f t deltac).1.height : Int) =
        (max h f.other.height + 1 : Nat) + (rebalanceNode f t deltac).2 ∧
      -1 ≤ (rebalanceNode f t deltac).2 ∧ (rebalanceNode f t deltac).2 ≤ 1 := by
  obtain ⟨side, x, b, other⟩ := f
  cases side with
  | true =>
      simp only [Fits, if_true] at hfits
      obtain ⟨hother, hblow, hbhigh, hb, -⟩ := hfits
      by_cases hright : b + deltac = 2
      · -- the subtree grew, and it was the higher one
        have hdelta : max deltac (-b) - max 0 (-b) = deltac := by omega
        have hmax : max h other.height = h := Nat.max_eq_left (by omega)
        obtain ⟨hbal, hlist, hnew, hd⟩ := restore_right (x := x) deltac ht hother (by omega)
        simp only [rebalanceNode, optneg, Frame.join, hright, if_true, sub_neg_eq_add, hdelta, hmax]
        refine ⟨hbal, hlist, ?_, ?_, ?_⟩ <;> omega
      · by_cases hleft : b + deltac = -2
        · -- it shrank, and the other one was higher
          have hdelta : max deltac (-b) - max 0 (-b) = 0 := by omega
          have hmax : max h other.height = other.height := Nat.max_eq_right (by omega)
          obtain ⟨hbal, hlist, hnew, hd⟩ := restore_left (x := x) 0 hother ht (by omega)
          simp [rebalanceNode, optneg, Frame.join, hleft, hdelta, hmax]
          refine ⟨hbal, hlist, ?_, ?_, ?_⟩ <;> omega
        · simp [rebalanceNode, optneg, Frame.join, hright, hleft, ht, hother]
          omega
  | false =>
      simp only [Fits, Bool.false_eq_true, if_false] at hfits
      obtain ⟨hother, hblow, hbhigh, hb, -⟩ := hfits
      by_cases hright : b - deltac = 2
      · have hdelta : max deltac b - max 0 b = 0 := by omega
        have hmax : max h other.height = other.height := Nat.max_eq_right (by omega)
        obtain ⟨hbal, hlist, hnew, hd⟩ := restore_right (x := x) 0 hother ht (by omega)
        simp [rebalanceNode, optneg, Frame.join, hright, hdelta, hmax]
        refine ⟨hbal, hlist, ?_, ?_, ?_⟩ <;> omega
      · by_cases hleft : b - deltac = -2
        · have hdelta : max deltac b - max 0 b = deltac := by omega
          have hmax : max h other.height = h := Nat.max_eq_left (by omega)
          obtain ⟨hbal, hlist, hnew, hd⟩ := restore_left (x := x) deltac ht hother (by omega)
          simp [rebalanceNode, optneg, Frame.join, hleft, hdelta, hmax]
          refine ⟨hbal, hlist, ?_, ?_, ?_⟩ <;> omega
        · simp [rebalanceNode, optneg, Frame.join, hright, hleft, ht, hother]
          omega

/-- The balance is restored all the way up, and no element moves. -/
theorem rebalance_spec (p : List (Frame α)) :
    ∀ {t : BinTree α} {h : Nat} {deltac : Int}, Fits p h → t.Balanced → (t.height : Int) = h + deltac →
      -1 ≤ deltac → deltac ≤ 1 →
        (rebalance p t deltac).Balanced ∧
          (rebalance p t deltac).toList = before p ++ t.toList ++ after p := by
  induction p with
  | nil =>
      intro t h deltac _ ht _ _ _
      exact ⟨ht, by simp [rebalance, before, after]⟩
  | cons f up ih =>
      intro t h deltac hfits ht hheight hlow hhigh
      rw [rebalance]
      split
      -- the height is the old one: nothing changes above
      · rename_i hzero
        have hsame : t.height = h := by omega
        exact ⟨balanced_plug.2 ⟨ht, hsame ▸ hfits⟩, toList_plug _ _⟩
      · obtain ⟨hbal, hlist, hnew, hlow', hhigh'⟩ := rebalanceNode_spec hfits ht hheight hlow hhigh
        have hup := ih hfits.2.2.2.2 hbal hnew hlow' hhigh'
        refine ⟨hup.1, ?_⟩
        rw [hup.2, hlist, ← toList_plug, ← toList_plug, plug_cons]

/-! ## Insertion and removal -/

variable (cmp : α → α → Ordering)

/-- `BAVL_Insert`: the tree, whether the node was inserted, and `*ref`. -/
def insert (node : α) (root : BinTree α) : BinTree α × Bool × Option α :=
  match descend cmp node [] root with
  | ([], .nil) => (.node .nil node 0 .nil, true, none)
  | (f :: up, .nil) => (rebalance (f :: up) (.node .nil node 0 .nil) 1, true, some f.value)
  | (_, .node _ c _ _) => (root, false, some c)

/-- The last node on one side; for the right side it is `_BAVL_subtree_max`. -/
def outermost (side : Bool) : List (Frame α) → BinTree α → List (Frame α) × BinTree α
  | p, .nil => (p, .nil)
  | p, .node l x b r =>
      match side with
      | false =>
          match l with
          | .nil => (p, .node l x b r)
          | .node _ _ _ _ => outermost side (⟨false, x, b, r⟩ :: p) l
      | true =>
          match r with
          | .nil => (p, .node l x b r)
          | .node _ _ _ _ => outermost side (⟨true, x, b, l⟩ :: p) r

/-- `BAVL_Remove` of the node at a position.  A node with two subtrees changes places with the largest
node of the left one, whose balance it takes and which takes its balance. -/
def remove (p : List (Frame α)) : BinTree α → BinTree α
  | .nil => plug p .nil
  | .node l x b r =>
      match l, r with
      | .nil, _ => rebalance p r (-1)
      | .node _ _ _ _, .nil => rebalance p l (-1)
      | .node _ _ _ _, .node _ _ _ _ =>
          match outermost true [] l with
          | (q, .node ml m _ _) => rebalance (q ++ ⟨false, m, b, r⟩ :: p) ml (-1)
          | (_, .nil) => plug p (.node l x b r)

/-- The largest node of a subtree has nothing to its right. -/
theorem outermost_true {t : BinTree α} (p : List (Frame α)) (ht : t ≠ .nil) :
    ∃ q l x b, outermost true p t = (q ++ p, .node l x b .nil) ∧ plug q (.node l x b .nil) = t ∧
      after q = [] := by
  induction t generalizing p with
  | nil => exact absurd rfl ht
  | node l x b r _ ih =>
      cases r with
      | nil => exact ⟨[], l, x, b, rfl, rfl, rfl⟩
      | node rl y c rr =>
          obtain ⟨q, l', x', b', hq, hplug, hafter⟩ := ih (⟨true, x, b, l⟩ :: p) (by simp)
          refine ⟨q ++ [⟨true, x, b, l⟩], l', x', b', ?_, ?_, ?_⟩
          · rw [outermost, hq, List.append_assoc]
            rfl
          · rw [plug_append, hplug]
            rfl
          · rw [after_append, hafter]
            rfl

theorem remove_spec {p : List (Frame α)} {l r : BinTree α} {x : α} {b : Int}
    (h : (plug p (.node l x b r)).Balanced) :
    (remove p (.node l x b r)).Balanced ∧
      (remove p (.node l x b r)).toList = before p ++ l.toList ++ r.toList ++ after p := by
  obtain ⟨hnode, hfits⟩ := balanced_plug.1 h
  obtain ⟨hl, hr, hlow, hhigh, hb⟩ := hnode
  cases l with
  | nil =>
      have hlower : (r.height : Int) = (BinTree.node .nil x b r).height + -1 := by simp
      have hspec := rebalance_spec p hfits hr hlower (by omega) (by omega)
      simpa [remove] using hspec
  | node ll lx lb lr =>
  cases r with
  | nil =>
      have hlower : ((BinTree.node ll lx lb lr).height : Int) =
          (BinTree.node (.node ll lx lb lr) x b .nil).height + -1 := by simp
      have hspec := rebalance_spec p hfits hl hlower (by omega) (by omega)
      simpa [remove] using hspec
  | node rl rx rb rr =>
      obtain ⟨q, ml, m, mb, hq, hplug, hafter⟩ := outermost_true [] (t := .node ll lx lb lr) (by simp)
      -- the place of the node is kept by the one that takes it
      have hswap :
          (plug (q ++ ⟨false, m, b, .node rl rx rb rr⟩ :: p) (.node ml m mb .nil)).Balanced := by
        rw [plug_append, hplug, balanced_plug]
        exact balanced_plug (p := ⟨false, x, b, .node rl rx rb rr⟩ :: p).1 h
      obtain ⟨hmax, hpath⟩ := balanced_plug.1 hswap
      have hlower : (ml.height : Int) = (BinTree.node ml m mb .nil).height + -1 := by simp
      have hspec := rebalance_spec _ hpath hmax.1 hlower (by omega) (by omega)
      have hlist : (BinTree.node ll lx lb lr).toList = before q ++ ml.toList ++ [m] := by
        rw [← hplug, toList_plug, hafter]
        simp
      rw [remove, hq, List.append_nil]
      refine ⟨hspec.1, ?_⟩
      rw [hspec.2, hlist, before_append, after_append, hafter]
      simp [before, after]

variable {cmp}

/-- The elements after an operation that keeps no two of them equal. -/
def inserted (cmp : α → α → Ordering) (x : α) (l : List α) : List α :=
  if l.any (fun y => cmp x y = .eq) then l else OrderedSet.insert cmp x l

def removed (cmp : α → α → Ordering) (x : α) (l : List α) : List α :=
  l.filter (fun y => cmp x y ≠ .eq)

section

variable [Std.TransCmp cmp] {x : α} {root : BinTree α}

theorem insert_spec (x : α) (hbal : root.Balanced) (hasc : Ascending cmp root) :
    (insert cmp x root).1.Balanced ∧ (insert cmp x root).1.toList = inserted cmp x root.toList ∧
      ((insert cmp x root).2.1 ↔ ∀ y ∈ root.toList, cmp x y ≠ .eq) := by
  have hplug := plug_descend cmp x [] root
  have hsep : Separates cmp x (descend cmp x [] root).1 := separates_descend Separates.nil hasc
  rw [insert]
  split
  · rename_i hdesc
    rw [hdesc] at hplug
    subst hplug
    exact ⟨by simp, rfl, by simp⟩
  · rename_i f up hdesc
    rw [hdesc] at hplug hsep
    have hroot : plug (f :: up) .nil = root := hplug
    have hnew : ∀ y ∈ root.toList, cmp x y ≠ .eq := hroot ▸ ne_of_separates hsep
    have hfits := (balanced_plug.1 (hroot ▸ hbal)).2
    have hleaf : (BinTree.node .nil x 0 .nil).Balanced := by simp
    have hhigher :
        ((BinTree.node .nil x 0 .nil).height : Int) = (BinTree.nil : BinTree α).height + 1 := rfl
    have hspec := rebalance_spec (f :: up) hfits hleaf hhigher (by omega) (by omega)
    refine ⟨hspec.1, ?_, by simpa using hnew⟩
    have hinsert := insert_of_separates hsep
    rw [hroot] at hinsert
    rw [hspec.2, inserted, if_neg (by simpa using hnew), hinsert]
    simp
  · rename_i p l c b r hdesc
    have hc : cmp x c = .eq := eq_of_descend hdesc
    rw [hdesc] at hplug
    have hroot : plug p (.node l c b r) = root := hplug
    have hmem : c ∈ root.toList := by
      rw [← hroot, toList_plug]
      simp
    refine ⟨hbal, ?_, ?_⟩
    · rw [inserted, if_pos (List.any_eq_true.2 ⟨c, hmem, by simpa using hc⟩)]
    · exact ⟨fun h => Bool.noConfusion h, fun h => absurd hc (h c hmem)⟩

theorem toList_remove {p : List (Frame α)} {l r : BinTree α} {c : α} {b : Int}
    (hc : cmp x c = .eq) (hbal : (plug p (.node l c b r)).Balanced)
    (hasc : Ascending cmp (plug p (.node l c b r))) :
    (remove p (.node l c b r)).toList = removed cmp x (plug p (.node l c b r)).toList := by
  have hlist : (plug p (.node l c b r)).toList =
      (before p ++ l.toList) ++ c :: (r.toList ++ after p) := by
    rw [toList_plug, toList_node]
    simp
  rw [Ascending, hlist] at hasc
  calc (remove p (.node l c b r)).toList
      = before p ++ l.toList ++ r.toList ++ after p := (remove_spec hbal).2
    _ = (before p ++ l.toList) ++ (r.toList ++ after p) := by simp
    _ = removed cmp x ((before p ++ l.toList) ++ c :: (r.toList ++ after p)) :=
        (filter_ne_eq hasc hc).symm
    _ = removed cmp x (plug p (.node l c b r)).toList := by rw [hlist]

theorem ascending_inserted {l : List α} (h : l.Pairwise (fun a b => cmp a b = .lt)) :
    (inserted cmp x l).Pairwise (fun a b => cmp a b = .lt) := by
  rw [inserted]
  split
  · exact h
  · exact OrderedSet.pairwise_insert h

end

/-! ## Runs -/

inductive Op (α : Type u) where
  | insert (node : α)
  | remove (value : α)
  deriving DecidableEq

/-- A node that is removed is one of the tree; it is named by its value. -/
def bavl (cmp : α → α → Ordering) : Machine (BinTree α) (Op α) where
  init := .nil
  step root
    | .insert x => some (insert cmp x root).1
    | .remove x =>
        match descend cmp x [] root with
        | (_, .nil) => none
        | (p, .node l c b r) => some (remove p (.node l c b r))

/-- What an operation is for. -/
def Op.effect (cmp : α → α → Ordering) (l : List α) : Op α → List α
  | .insert x => inserted cmp x l
  | .remove x => removed cmp x l

def elements (cmp : α → α → Ordering) (ops : List (Op α)) : List α :=
  ops.foldl (Op.effect cmp) []

structure Verified (cmp : α → α → Ordering) (root : BinTree α) : Prop where
  balanced : root.Balanced
  ascending : Ascending cmp root

theorem bavl_step [Std.TransCmp cmp] {root t : BinTree α} {op : Op α} (h : Verified cmp root)
    (hstep : (bavl cmp).step root op = some t) :
    Verified cmp t ∧ t.toList = op.effect cmp root.toList := by
  cases op with
  | insert x =>
      cases hstep
      obtain ⟨hbal, hlist, -⟩ := insert_spec x h.balanced h.ascending
      refine ⟨⟨hbal, ?_⟩, hlist⟩
      rw [Ascending, hlist]
      exact ascending_inserted h.ascending
  | remove x =>
      have hplug := plug_descend cmp x [] root
      simp only [bavl] at hstep
      split at hstep
      · cases hstep
      · rename_i p l c b r hdesc
        cases hstep
        rw [hdesc] at hplug
        have hroot : plug p (.node l c b r) = root := hplug
        subst hroot
        have hlist := toList_remove (eq_of_descend hdesc) h.balanced h.ascending
        refine ⟨⟨(remove_spec h.balanced).1, ?_⟩, hlist⟩
        rw [Ascending, hlist]
        exact List.Pairwise.filter _ h.ascending

theorem verified_of_run [Std.TransCmp cmp] {history : List (BinTree α × Op α)} {root : BinTree α}
    (h : Run (bavl cmp) history root) :
    Verified cmp root ∧ root.toList = elements cmp (history.map Prod.snd) := by
  induction h with
  | nil => exact ⟨⟨trivial, List.Pairwise.nil⟩, rfl⟩
  | snoc _ hst ih =>
      obtain ⟨hver, hlist⟩ := bavl_step ih.1 hst
      refine ⟨hver, ?_⟩
      rw [hlist, ih.2, List.map_append, elements, elements, List.foldl_append]
      rfl

/-- After any insertions and removals the tree is balanced and in order, it has the elements it is to
have, and its height is what the Fibonacci numbers allow. -/
theorem bavl_verified [Std.TransCmp cmp] {history : List (BinTree α × Op α)} {root : BinTree α}
    (h : Run (bavl cmp) history root) :
    Verified cmp root ∧ root.toList = elements cmp (history.map Prod.snd) ∧
      Nat.fib (root.height + 2) ≤ root.toList.length + 1 := by
  obtain ⟨hver, hlist⟩ := verified_of_run h
  exact ⟨hver, hlist, hver.balanced.fib_height_le⟩

/-- Seven nodes in order, and the root taken out. -/
def sevenAndBack : List (Op Nat) :=
  [.insert 1, .insert 2, .insert 3, .insert 4, .insert 5, .insert 6, .insert 7, .remove 4, .insert 3]

theorem bavl_verified_sevenAndBack :
    ∃ history root, (bavl (compare : Nat → Nat → Ordering)).play sevenAndBack = some (history, root) ∧
      root = .node (.node (.node .nil 1 0 .nil) 2 (-1) .nil) 3 0
        (.node (.node .nil 5 0 .nil) 6 0 (.node .nil 7 0 .nil)) ∧
      Verified compare root ∧ root.toList = elements compare (history.map Prod.snd) ∧
      Nat.fib (root.height + 2) ≤ root.toList.length + 1 :=
  ⟨_, _, rfl, by decide, bavl_verified (run_of_play (bavl compare) sevenAndBack rfl)⟩

/-! ## Look-ups -/

/-- `BAVL_Lookup` -/
def lookup (cmp : α → α → Ordering) (val : α) (root : BinTree α) : Option α :=
  match descend cmp val [] root with
  | ([], .nil) => none
  | (f :: _, .nil) => some f.value
  | (_, .node _ c _ _) => some c

/-- `BAVL_LookupExact` -/
def lookupExact (cmp : α → α → Ordering) (val : α) (root : BinTree α) : Option α :=
  match (descend cmp val [] root).2 with
  | .nil => none
  | .node _ c _ _ => some c

theorem lookupExact_iff [Std.TransCmp cmp] {root : BinTree α} (hasc : Ascending cmp root) (val c : α) :
    lookupExact cmp val root = some c ↔ c ∈ root.toList ∧ cmp val c = .eq := by
  have hplug := plug_descend cmp val [] root
  have hsep : Separates cmp val (descend cmp val [] root).1 :=
    separates_descend Separates.nil hasc
  rw [lookupExact]
  cases hdesc : descend cmp val [] root with
  | mk p t =>
  rw [hdesc] at hplug hsep
  have hroot : plug p t = root := hplug
  subst hroot
  cases t with
  | nil =>
      constructor
      · intro h
        cases h
      · rintro ⟨hmem, heq⟩
        exact absurd heq (ne_of_separates hsep c hmem)
  | node l c' b r =>
      have hc : cmp val c' = .eq := eq_of_descend hdesc
      constructor
      · intro h
        cases h
        exact ⟨by simp [toList_plug], hc⟩
      · rintro ⟨hmem, heq⟩
        exact congrArg some ((eq_iff_of_ascending hasc hc hmem).1 heq).symm

theorem lookup_nearest [Std.TransCmp cmp] {root : BinTree α} (hasc : Ascending cmp root) {val c : α}
    (h : lookup cmp val root = some c) :
    c ∈ root.toList ∧ (cmp val c = .eq ∨
      (∀ y ∈ root.toList, cmp val y ≠ .eq) ∧ Nearest cmp val root.toList c) := by
  have hplug := plug_descend cmp val [] root
  have hsep : Separates cmp val (descend cmp val [] root).1 :=
    separates_descend Separates.nil hasc
  rw [lookup] at h
  split at h
  · cases h
  · rename_i f up hdesc
    cases h
    rw [hdesc] at hplug hsep
    have hroot : plug (f :: up) .nil = root := hplug
    subst hroot
    refine ⟨?_, Or.inr ⟨ne_of_separates hsep, nearest_of_separates hsep hasc⟩⟩
    rw [plug_cons, toList_plug, toList_join, before, after]
    split <;> simp
  · rename_i p l c' b r hdesc
    cases h
    rw [hdesc] at hplug
    have hroot : plug p (.node l c b r) = root := hplug
    exact ⟨by simp [← hroot, toList_plug], Or.inl (eq_of_descend hdesc)⟩

theorem lookup_eq_none [Std.TransCmp cmp] {root : BinTree α} {val : α} :
    lookup cmp val root = none ↔ root.toList = [] := by
  have hplug := plug_descend cmp val [] root
  rw [lookup]
  cases hdesc : descend cmp val [] root with
  | mk p t =>
  rw [hdesc] at hplug
  have hroot : plug p t = root := hplug
  rw [← hroot, toList_plug]
  cases t with
  | nil =>
      cases p with
      | nil => simp [before, after]
      | cons f up =>
          simp only [before, after]
          split <;> simp
  | node l c b r => simp

/-- What the look-ups return, and what an insertion does and returns, after any operations. -/
theorem bavl_lookup [Std.TransCmp cmp] {history : List (BinTree α × Op α)} {root : BinTree α}
    (h : Run (bavl cmp) history root) (val : α) :
    (∀ c, lookupExact cmp val root = some c ↔ c ∈ root.toList ∧ cmp val c = .eq) ∧
      (∀ c, lookup cmp val root = some c → c ∈ root.toList ∧ (cmp val c = .eq ∨
        (∀ y ∈ root.toList, cmp val y ≠ .eq) ∧ Nearest cmp val root.toList c)) ∧
      (lookup cmp val root = none ↔ root.toList = []) ∧
      ((insert cmp val root).2.1 ↔ ∀ y ∈ root.toList, cmp val y ≠ .eq) ∧
      (insert cmp val root).2.2 = lookup cmp val root := by
  obtain ⟨hbal, hasc⟩ := (verified_of_run h).1
  refine ⟨lookupExact_iff hasc val, fun c => lookup_nearest hasc, lookup_eq_none,
    (insert_spec val hbal hasc).2.2, ?_⟩
  rw [insert, lookup]
  split <;> rfl

theorem bavl_lookup_sevenAndBack :
    ∃ history root, (bavl (compare : Nat → Nat → Ordering)).play sevenAndBack = some (history, root) ∧
      (∀ c, lookupExact compare 4 root = some c ↔ c ∈ root.toList ∧ compare 4 c = .eq) ∧
      (∀ c, lookup compare 4 root = some c → c ∈ root.toList ∧ (compare 4 c = .eq ∨
        (∀ y ∈ root.toList, compare 4 y ≠ .eq) ∧ Nearest compare 4 root.toList c)) ∧
      (lookup compare 4 root = none ↔ root.toList = []) ∧
      ((insert compare 4 root).2.1 ↔ ∀ y ∈ root.toList, compare 4 y ≠ .eq) ∧
      (insert compare 4 root).2.2 = lookup compare 4 root := by
  obtain ⟨history, root, hplay⟩ : ∃ history root,
      (bavl (compare : Nat → Nat → Ordering)).play sevenAndBack = some (history, root) := ⟨_, _, rfl⟩
  exact ⟨history, root, hplay, bavl_lookup (run_of_play _ sevenAndBack hplay) 4⟩

/-! ## From node to node -/

/-- The first node towards the side `side`, or none: `BAVL_GetFirst` on the left, `BAVL_GetLast` on
the right. -/
def getEnd (side : Bool) (root : BinTree α) : Option (List (Frame α) × BinTree α) :=
  match root with
  | .nil => none
  | .node l x b r => some (outermost side [] (.node l x b r))

/-- Up to the parent of the first node that is not on the side `side` of its parent. -/
def climb (side : Bool) : List (Frame α) → BinTree α → Option (List (Frame α) × BinTree α)
  | [], _ => none
  | f :: up, t => if f.side = side then climb side up (f.join t) else some (up, f.join t)

/-- The node that follows on the side `side`: `BAVL_GetPrev` on the left, `BAVL_GetNext` on the
right. -/
def neighbour (side : Bool) : List (Frame α) × BinTree α → Option (List (Frame α) × BinTree α)
  | (_, .nil) => none
  | (p, .node l x b r) =>
      match side with
      | false =>
          match l with
          | .nil => climb false p (.node l x b r)
          | .node _ _ _ _ => some (outermost true (⟨false, x, b, r⟩ :: p) l)
      | true =>
          match r with
          | .nil => climb true p (.node l x b r)
          | .node _ _ _ _ => some (outermost false (⟨true, x, b, l⟩ :: p) r)

def value : List (Frame α) × BinTree α → Option α
  | (_, .nil) => none
  | (_, .node _ x _ _) => some x

/-- The elements from a subtree on towards the side `side`, first those that are met first. -/
def listTo (side : Bool) (t : BinTree α) : List α :=
  if side then t.toList else t.toList.reverse

def ahead (side : Bool) (p : List (Frame α)) : List α :=
  if side then after p else (before p).reverse

/-- The elements beyond a node. -/
def beyond (side : Bool) : List (Frame α) × BinTree α → List α
  | (p, t) => listTo side (link t side) ++ ahead side p

/-- `q` is the position of the first of the elements `l`, in the tree `root`, and the others are
beyond it. -/
def Stands (side : Bool) (root : BinTree α) (q : List (Frame α) × BinTree α) (l : List α) : Prop :=
  plug q.1 q.2 = root ∧ ∃ x, value q = some x ∧ l = x :: beyond side q

/-- The position, if there is one, is that of the first of the elements `l`. -/
def Reached (side : Bool) (root : BinTree α) : Option (List (Frame α) × BinTree α) → List α → Prop
  | none, l => l = []
  | some q, l => Stands side root q l

theorem stands_outermost (side : Bool) {t : BinTree α} (p : List (Frame α)) (ht : t ≠ .nil) :
    Stands side (plug p t) (outermost (!side) p t) (listTo side t ++ ahead side p) := by
  induction t generalizing p with
  | nil => exact absurd rfl ht
  | node l x b r ihl ihr =>
      cases side with
      | true =>
          cases l with
          | nil => exact ⟨rfl, x, rfl, by simp [listTo, beyond, link, outermost]⟩
          | node ll y c lr =>
              have hleft := ihl (⟨false, x, b, r⟩ :: p) (by simp)
              simpa [Stands, outermost, listTo, ahead, after, Frame.join] using hleft
      | false =>
          cases r with
          | nil => exact ⟨rfl, x, rfl, by simp [listTo, beyond, link, outermost]⟩
          | node rl y c rr =>
              have hright := ihr (⟨true, x, b, l⟩ :: p) (by simp)
              simpa [Stands, outermost, listTo, ahead, before, Frame.join] using hright

theorem reached_getEnd (side : Bool) (root : BinTree α) :
    Reached side root (getEnd (!side) root) (listTo side root) := by
  cases root with
  | nil => cases side <;> rfl
  | node l x b r =>
      have hend := stands_outermost side [] (t := .node l x b r) (by simp)
      have hnil : ahead side ([] : List (Frame α)) = [] := by cases side <;> rfl
      rwa [hnil, List.append_nil] at hend

theorem reached_climb (side : Bool) (p : List (Frame α)) (t : BinTree α) :
    Reached side (plug p t) (climb side p t) (ahead side p) := by
  induction p generalizing t with
  | nil => cases side <;> rfl
  | cons f up ih =>
      obtain ⟨fside, x, b, other⟩ := f
      have hup := ih (Frame.join ⟨fside, x, b, other⟩ t)
      -- a node on the other side is the parent; on the same side everything above is as far away
      cases side <;> cases fside
      · simpa [climb, ahead, before] using hup
      · exact ⟨rfl, x, rfl, by simp [ahead, before, beyond, listTo, link, Frame.join]⟩
      · exact ⟨rfl, x, rfl, by simp [ahead, after, beyond, listTo, link, Frame.join]⟩
      · simpa [climb, ahead, after] using hup

theorem reached_neighbour (side : Bool) {root : BinTree α} {q : List (Frame α) × BinTree α} {l : List α}
    (h : Stands side root q l) : Reached side root (neighbour side q) l.tail := by
  obtain ⟨p, t⟩ := q
  obtain ⟨hroot, y, hvalue, rfl⟩ := h
  cases t with
  | nil => cases hvalue
  | node left x b right =>
      subst hroot
      rw [List.tail_cons]
      cases side with
      | true =>
          cases right with
          | nil =>
              simpa [neighbour, beyond, link, listTo] using reached_climb true p (.node left x b .nil)
          | node rl z c rr =>
              have hnext := stands_outermost true (⟨true, x, b, left⟩ :: p)
                (t := .node rl z c rr) (by simp)
              simpa [neighbour, beyond, link, listTo, ahead, after, Reached, Frame.join] using hnext
      | false =>
          cases left with
          | nil =>
              simpa [neighbour, beyond, link, listTo] using reached_climb false p (.node .nil x b right)
          | node ll z c lr =>
              have hprev := stands_outermost false (⟨false, x, b, right⟩ :: p)
                (t := .node ll z c lr) (by simp)
              simpa [neighbour, beyond, link, listTo, ahead, before, Reached, Frame.join] using hprev

/-- From the end of the tree, `n` nodes on. -/
def walk (side : Bool) (root : BinTree α) : Nat → Option (List (Frame α) × BinTree α)
  | 0 => getEnd (!side) root
  | n + 1 => (walk side root n).bind (neighbour side)

theorem reached_walk (side : Bool) (root : BinTree α) (n : Nat) :
    Reached side root (walk side root n) ((listTo side root).drop n) := by
  induction n with
  | zero => exact reached_getEnd side root
  | succ n ih =>
      rw [walk, ← List.tail_drop]
      cases hwalk : walk side root n with
      | none =>
          rw [hwalk] at ih
          have hnil : (listTo side root).drop n = [] := ih
          rw [hnil]
          rfl
      | some q =>
          rw [hwalk] at ih
          exact reached_neighbour side ih

/-- Going on from either end visits every element once, in order, and then ends. -/
theorem bavl_iterates (side : Bool) (root : BinTree α) (n : Nat) :
    (walk side root n).bind value = (listTo side root)[n]? := by
  have hreached := reached_walk side root n
  rw [← List.head?_drop]
  cases hwalk : walk side root n with
  | none =>
      rw [hwalk] at hreached
      have hnil : (listTo side root).drop n = [] := hreached
      rw [hnil]
      rfl
  | some q =>
      rw [hwalk] at hreached
      obtain ⟨-, x, hvalue, hlist⟩ := hreached
      rw [hlist]
      exact hvalue

end BAVL

/-! ## The tree of the sockets -/

open EventMachine BAVL SocksUdpGwClient

namespace BAddr

def type : BAddr → Nat
  | .ipv4 _ _ => 1
  | .ipv6 _ _ => 2

def ip : BAddr → Nat
  | .ipv4 ip _ => ip.toNat
  | .ipv6 ip _ => ip.toNat

def port : BAddr → Nat
  | .ipv4 _ port => port.toNat
  | .ipv6 _ port => port.toNat

/-- `BAddr_CompareOrder`, with the octets of an address as one number. -/
def compareOrder : BAddr → BAddr → Ordering :=
  compareLex (compareOn type) (compareLex (compareOn ip) (compareOn port))

instance : Std.TransCmp compareOrder :=
  inferInstanceAs (Std.TransCmp (compareLex _ _))

instance : Std.LawfulEqCmp compareOrder where
  compare_self := (inferInstance : Std.ReflCmp compareOrder).compare_self
  eq_of_compare := by
    intro a b h
    simp only [compareOrder, compareLex_eq_eq, compareOn, Nat.compare_eq_eq] at h
    obtain ⟨htype, hip, hport⟩ := h
    cases a <;> cases b <;> simp_all [type, ip, port, BitVec.toNat_inj]

end BAddr

/-- `connections_tree`: what `connection_init` inserts is not there (`ASSERT_EXECUTE`). -/
def connectionsTree : Machine (SearchTree.BinTree BAddr) (Op BAddr) where
  init := .nil
  step root
    | .insert a =>
        if (BAVL.insert BAddr.compareOrder a root).2.1 then
          (bavl BAddr.compareOrder).step root (.insert a)
        else none
    | .remove a => (bavl BAddr.compareOrder).step root (.remove a)

theorem connectionsTree_insert {root : SearchTree.BinTree BAddr} {a : BAddr}
    (h : Verified BAddr.compareOrder root) (ha : a ∉ root.toList) :
    ∃ t, connectionsTree.step root (.insert a) = some t ∧ Verified BAddr.compareOrder t ∧
      ∀ x, x ∈ t.toList ↔ x = a ∨ x ∈ root.toList := by
  have hnew : ∀ y ∈ root.toList, BAddr.compareOrder a y ≠ .eq := by
    intro y hy heq
    rw [← Std.LawfulEqCmp.eq_of_compare heq] at hy
    exact ha hy
  have hstep : (bavl BAddr.compareOrder).step root (.insert a) =
      some (BAVL.insert BAddr.compareOrder a root).1 := rfl
  obtain ⟨hver, hlist⟩ := bavl_step h hstep
  refine ⟨_, ?_, hver, fun x => ?_⟩
  · rw [connectionsTree]
    exact if_pos ((insert_spec a h.balanced h.ascending).2.2.2 hnew)
  · have hmem : (∃ y ∈ OrderedSet.insert BAddr.compareOrder a root.toList, BAddr.compareOrder y x = .eq) ↔
        BAddr.compareOrder a x = .eq ∨ ∃ y ∈ root.toList, BAddr.compareOrder y x = .eq :=
      OrderedSet.exists_mem_insert root.toList
    simp only [Std.LawfulEqCmp.compare_eq_iff_eq, exists_eq_right] at hmem
    rw [hlist, Op.effect, inserted, if_neg (by simpa using ha), hmem, eq_comm]

theorem connectionsTree_remove {root : SearchTree.BinTree BAddr} {a : BAddr}
    (h : Verified BAddr.compareOrder root) (ha : a ∈ root.toList) :
    ∃ t, connectionsTree.step root (.remove a) = some t ∧ Verified BAddr.compareOrder t ∧
      ∀ x, x ∈ t.toList ↔ x ≠ a ∧ x ∈ root.toList := by
  have hfound : lookupExact BAddr.compareOrder a root = some a :=
    (lookupExact_iff h.ascending a a).2 ⟨ha, Std.ReflCmp.compare_self⟩
  rw [lookupExact] at hfound
  cases hdesc : SearchTree.descend BAddr.compareOrder a [] root with
  | mk p t =>
  rw [hdesc] at hfound
  cases t with
  | nil => cases hfound
  | node l c b r =>
      have hstep : (bavl BAddr.compareOrder).step root (.remove a) =
          some (BAVL.remove p (.node l c b r)) := by
        simp only [bavl, hdesc]
      obtain ⟨hver, hlist⟩ := bavl_step h hstep
      refine ⟨_, hstep, hver, fun x => ?_⟩
      rw [hlist, Op.effect, removed, List.mem_filter, and_comm]
      simp only [ne_eq, decide_eq_true_eq, Std.LawfulEqCmp.compare_eq_iff_eq]
      exact and_congr_left (fun _ => not_congr eq_comm)

/-- What a datagram of an app does to the tree. -/
def treeOps (l : UdpLimits) (o : SocksUdpGwClient) : UdpEvent → List (Op BAddr)
  | .submit s initOk _ =>
      match o.findConnection s.localAddr with
      | none =>
          (if o.numConnections = limit l then
            (o.connections.head?.map (fun con => Op.remove con.localAddr)).toList else []) ++
              (if initOk then [.insert s.localAddr] else [])
      | some _ => []
  | .received _ _ => []

/-- The tree holds the addresses that have a socket. -/
structure Indexes (l : UdpLimits) (o : SocksUdpGwClient) (root : SearchTree.BinTree BAddr) : Prop where
  inv : Inv l o
  verified : Verified BAddr.compareOrder root
  mem_iff : ∀ a, a ∈ root.toList ↔ a ∈ o.connections.map (·.localAddr)

/-- The socket that was used longest ago is in the tree. -/
theorem indexes_makeRoom {l : UdpLimits} {o : SocksUdpGwClient} {root : SearchTree.BinTree BAddr}
    (h : Indexes l o root) :
    ∃ t, Steps connectionsTree root (if o.numConnections = limit l then
        (o.connections.head?.map (fun con => Op.remove con.localAddr)).toList else []) t ∧
      Indexes l (if o.numConnections = limit l then o.removeLruConnection else o) t := by
  split
  · cases hcons : o.connections with
    | nil =>
        have hsame : o.removeLruConnection = { o with numConnections := o.numConnections - 1 } := by
          simp [removeLruConnection, hcons]
        refine ⟨root, Steps.nil, inv_removeLruConnection h.inv, h.verified, ?_⟩
        simpa [removeLruConnection, hcons] using h.mem_iff
    | cons con rest =>
        have hmem : con.localAddr ∈ root.toList := by
          rw [h.mem_iff, hcons]
          exact List.mem_cons_self
        obtain ⟨t, hstep, hver, hiff⟩ := connectionsTree_remove h.verified hmem
        refine ⟨t, Steps.single hstep, inv_removeLruConnection h.inv, hver, fun a => ?_⟩
        have hnodup : (con.localAddr :: rest.map (·.localAddr)).Nodup := by
          have hrecent := h.inv.recent.nodup
          rwa [hcons] at hrecent
        rw [hiff, h.mem_iff, hcons, removeLruConnection, hcons]
        simp only [List.map_cons, List.mem_cons, List.tail_cons]
        constructor
        · rintro ⟨hne, heq | hrest⟩
          · exact absurd heq hne
          · exact hrest
        · intro hrest
          refine ⟨?_, Or.inr hrest⟩
          rintro rfl
          exact (List.nodup_cons.1 hnodup).1 hrest
  · exact ⟨root, Steps.nil, h⟩

theorem indexes_step {l : UdpLimits} {o o' : SocksUdpGwClient} {e : UdpEvent}
    {root : SearchTree.BinTree BAddr} (h : Indexes l o root) (hstep : (udpGw l).step o e = some o') :
    ∃ t, Steps connectionsTree root (treeOps l o e) t ∧ Indexes l o' t := by
  have hinv : Inv l o' := udpGw_step h.inv hstep
  cases e with
  | submit s initOk room =>
      cases hstep
      rw [treeOps]
      cases hfind : o.findConnection s.localAddr with
      | none =>
          obtain ⟨t, hsteps, hroom⟩ := indexes_makeRoom h
          cases initOk with
          | false =>
              refine ⟨t, by simpa using hsteps, ?_⟩
              simpa [submitPacket, hfind] using hroom
          | true =>
              have hnew : s.localAddr ∉ t.toList := by
                rw [hroom.mem_iff]
                have hnone := findConnection_none hfind
                split
                · intro hmem
                  obtain ⟨con, hcon, haddr⟩ := List.mem_map.1 hmem
                  exact hnone (List.mem_map.2 ⟨con, List.mem_of_mem_tail hcon, haddr⟩)
                · exact hnone
              obtain ⟨t', hstep, hver, hiff⟩ := connectionsTree_insert hroom.verified hnew
              refine ⟨t', hsteps.append (Steps.single hstep), hinv, hver, fun a => ?_⟩
              rw [hiff, hroom.mem_iff]
              simp [submitPacket, hfind, connectionInit, connectionSend, or_comm]
      | some con =>
          obtain ⟨hcon, haddr⟩ := findConnection_some hfind
          refine ⟨root, Steps.nil, hinv, h.verified, fun a => ?_⟩
          have hput : (o.put (resetConnection con s)).connections.map (·.localAddr) =
              o.connections.map (·.localAddr) := put_localAddrs h.inv hcon rfl haddr.symm
          rw [h.mem_iff, submitPacket, hfind]
          dsimp only
          split
          · have hmem : con.localAddr ∈ o.connections.map (·.localAddr) := List.mem_map_of_mem hcon
            rw [moveToEnd_localAddrs]
            change _ ↔ a ∈ Recency.touch ((o.put (resetConnection con s)).connections.map _) s.localAddr
            rw [hput, ← haddr, Recency.mem_touch hmem]
          · rw [hput]
  | received socket data =>
      obtain ⟨con, hfind, rfl⟩ := Option.map_eq_some_iff.1 hstep
      have hcon : con ∈ o.connections := List.mem_of_find?_eq_some hfind
      refine ⟨root, Steps.nil, hinv, h.verified, fun a => ?_⟩
      rw [h.mem_iff, dgramHandlerReceived]
      split
      · exact Iff.rfl
      · rename_i remoteAddr payload hread
        have hput : (o.put { con with remoteAddr := remoteAddr }).connections.map (·.localAddr) =
            o.connections.map (·.localAddr) := put_localAddrs h.inv hcon rfl rfl
        dsimp only
        split <;> rw [hput]

theorem indexes_simulation (l : UdpLimits) :
    Simulation (udpGw l) connectionsTree (fun _ _ => True) (treeOps l) (Indexes l) where
  init := ⟨inv_init l, ⟨trivial, List.Pairwise.nil⟩, fun _ => Iff.rfl⟩
  step := fun _ _ _ _ h _ hstep => indexes_step h hstep

theorem Indexes.lookupExact_eq {l : UdpLimits} {o : SocksUdpGwClient} {root : SearchTree.BinTree BAddr}
    (h : Indexes l o root) (a : BAddr) :
    lookupExact BAddr.compareOrder a root = (o.findConnection a).map (·.localAddr) := by
  have hiff := lookupExact_iff h.verified.ascending a
  cases hfind : o.findConnection a with
  | none =>
      rw [Option.map_none, Option.eq_none_iff_forall_ne_some]
      intro c hc
      obtain ⟨hmem, heq⟩ := (hiff c).1 hc
      rw [← Std.LawfulEqCmp.eq_of_compare heq, h.mem_iff] at hmem
      exact findConnection_none hfind hmem
  | some con =>
      obtain ⟨hcon, haddr⟩ := findConnection_some hfind
      rw [Option.map_some, haddr, hiff, h.mem_iff]
      exact ⟨List.mem_map.2 ⟨con, hcon, haddr⟩, Std.ReflCmp.compare_self⟩

/-- As many elements as sockets. -/
theorem Indexes.length_eq {l : UdpLimits} {o : SocksUdpGwClient} {root : SearchTree.BinTree BAddr}
    (h : Indexes l o root) : root.toList.length = o.numConnections := by
  have hnodup : root.toList.Nodup := by
    refine h.verified.ascending.imp ?_
    rintro a b hlt rfl
    have hself : BAddr.compareOrder a a = .eq := Std.ReflCmp.compare_self
    rw [hself] at hlt
    cases hlt
  have hperm : root.toList.Perm (o.connections.map (·.localAddr)) :=
    (List.perm_ext_iff_of_nodup hnodup h.inv.recent.nodup).2 h.mem_iff
  rw [hperm.length_eq, List.length_map, h.inv.count]

/-- Behind every run of the sockets there is a run of the tree: what is removed is there, what is
inserted is not, and a look-up in the tree finds what a search through the sockets finds. -/
theorem socketTree_finds {l : UdpLimits} {history : List (SocksUdpGwClient × UdpEvent)}
    {o : SocksUdpGwClient} (h : Run (udpGw l) history o) :
    ∃ ops root, Run connectionsTree ops root ∧
      ops.map Prod.snd = history.flatMap (fun p => treeOps l p.1 p.2) ∧
      (∀ a, lookupExact BAddr.compareOrder a root = (o.findConnection a).map (·.localAddr)) ∧
      Nat.fib (root.height + 2) ≤ o.numConnections + 1 := by
  obtain ⟨ops, root, hrun, hops, hindexes⟩ :=
    h.simulates (indexes_simulation l) (fun _ _ => trivial)
  refine ⟨ops, root, hrun, hops, hindexes.lookupExact_eq, ?_⟩
  rw [← hindexes.length_eq]
  exact hindexes.verified.balanced.fib_height_le

theorem socketTree_finds_twoAddresses :
    ∃ history o ops root, (udpGw oneSocket).play twoAddresses = some (history, o) ∧
      Run connectionsTree ops root ∧
      ops.map Prod.snd = history.flatMap (fun p => treeOps oneSocket p.1 p.2) ∧
      (∀ a, lookupExact BAddr.compareOrder a root = (o.findConnection a).map (·.localAddr)) ∧
      Nat.fib (root.height + 2) ≤ o.numConnections + 1 := by
  obtain ⟨ops, root, h⟩ := socketTree_finds (run_of_play (udpGw oneSocket) twoAddresses rfl)
  exact ⟨_, _, ops, root, rfl, h⟩

end Tun
end SpinVpn
