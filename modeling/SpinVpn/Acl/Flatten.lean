import SpinVpn.Acl.RoundTrip

/-!
# Flatten — lists with their imports

`Acl.flatten` reads the lists that a list imports, down to a depth, and takes over their rules.  An
imported list is read with the mode of the importing one as default; where it sets another mode, its
subnets are discarded.

Imports may be cyclic.  The depth bounds the recursion, and the rules of the result are those of the
lists within that many steps (`flatten_rules`), in whatever order the imports are visited.
-/

namespace SpinVpn
namespace Acl

open Net Utils

/-! ## The program -/

/-- The body of the loop, after the child was read and flattened. -/
def merge (a child : Acl) : Acl :=
  let child :=
    -- subnets for the different mode are discarded
    if a.bypass ≠ child.bypass then { child with subnets := .empty, bypass := a.bypass } else child
  { a with
    bypassHostnames := a.bypassHostnames.addAll child.bypassHostnames.items
    proxyHostnames := a.proxyHostnames.addAll child.proxyHostnames.items
    subnets := a.subnets.addAll child.subnets.items }

section Program

variable (T : AddressText) (url : String → Option URL) (same : URL → URL → Bool)
variable (fetch : URL → String) (order : List URL → List URL → List URL)

/-- The order in which the imports of a list are visited may depend on the way to that list. -/
def flattenTo : Nat → List URL → Acl → Except Failure Acl
  | 0, _, a => .ok { a with urls := .empty }
  | depth + 1, path, a => do
      let a ← (order path a.urls.items).foldlM (fun a u => do
        let child ← (fromReader T url same Acl.empty (fetch u) a.bypass).mapError Prod.fst
        let child ← flattenTo depth (u :: path) child
        return a.merge child) a
      return { a with urls := .empty }

/-- `if (depth > 0)`: a negative depth is as good as zero. -/
def flatten (depth : Int) (a : Acl) : Except Failure Acl :=
  flattenTo T url same fetch order depth.toNat [] a

end Program

/-! ## Steps -/

section Steps

variable {α : Type} {r : α → α → Prop}

/-- Reached in at most so many steps. -/
inductive Within (r : α → α → Prop) : Nat → α → α → Prop
  | refl (n : Nat) (a : α) : Within r n a a
  | head {n : Nat} {a b c : α} : r a b → Within r n b c → Within r (n + 1) a c

theorem within_zero {a c : α} : Within r 0 a c ↔ c = a := by
  constructor
  · intro h
    cases h
    rfl
  · rintro rfl
    exact Within.refl 0 c

theorem within_succ {n : Nat} {a c : α} :
    Within r (n + 1) a c ↔ c = a ∨ ∃ b, r a b ∧ Within r n b c := by
  constructor
  · intro h
    cases h with
    | refl => exact Or.inl rfl
    | head hab hbc => exact Or.inr ⟨_, hab, hbc⟩
  · rintro (rfl | ⟨b, hab, hbc⟩)
    · exact Within.refl _ c
    · exact Within.head hab hbc

end Steps

/-! ## Imports -/

section Imports

variable (T : AddressText) (url : String → Option URL) (same : URL → URL → Bool)
variable (fetch : URL → String)

/-- The child is read with the mode of its parent as default. -/
def Imports (a child : Acl) : Prop :=
  ∃ u ∈ a.urls.items, fromReader T url same Acl.empty (fetch u) a.bypass = .ok child

/-- An import that sets no other mode. -/
def ImportsAlike (a child : Acl) : Prop :=
  Imports T url same fetch a child ∧ child.bypass = a.bypass

/-- All texts that are fetched parse. -/
def Fetchable : Nat → Acl → Prop
  | 0, _ => True
  | depth + 1, a => ∀ u ∈ a.urls.items,
      ∃ child, fromReader T url same Acl.empty (fetch u) a.bypass = .ok child ∧ Fetchable depth child

end Imports

/-! ## Rules -/

inductive Rule
  | bypassHostname (h : String)
  | proxyHostname (h : String)
  | subnet (s : Subnet)

/-- Subnets are compared as the program compares them. -/
def HasRule (a : Acl) : Rule → Prop
  | .bypassHostname h => a.bypassHostnames.Has h
  | .proxyHostname h => a.proxyHostnames.Has h
  | .subnet s => a.subnets.Has s

/-- The rule is not lost on the way from the child to its parent. -/
def Rule.Passes (a child : Acl) : Rule → Prop
  | .subnet _ => child.bypass = a.bypass
  | _ => True

theorem hasRule_merge (a child : Acl) (rule : Rule) :
    (a.merge child).HasRule rule ↔ a.HasRule rule ∨ child.HasRule rule ∧ rule.Passes a child := by
  cases rule with
  | bypassHostname h =>
      have hlist : (a.merge child).bypassHostnames =
          a.bypassHostnames.addAll child.bypassHostnames.items := by
        rw [merge]
        split <;> rfl
      simp only [HasRule, Rule.Passes, and_true, hlist]
      exact OrderedSet.has_addAll _ _ _
  | proxyHostname h =>
      have hlist : (a.merge child).proxyHostnames =
          a.proxyHostnames.addAll child.proxyHostnames.items := by
        rw [merge]
        split <;> rfl
      simp only [HasRule, Rule.Passes, and_true, hlist]
      exact OrderedSet.has_addAll _ _ _
  | subnet s =>
      simp only [HasRule, Rule.Passes]
      by_cases hmode : child.bypass = a.bypass
      · have hlist : (a.merge child).subnets = a.subnets.addAll child.subnets.items := by
          rw [merge, if_neg (by simp [hmode])]
        rw [hlist, OrderedSet.has_addAll, and_iff_left hmode]
        rfl
      · have hlist : (a.merge child).subnets = a.subnets := by
          rw [merge, if_pos (Ne.symm hmode)]
          rfl
        simp [hlist, hmode]

/-! ## The recursion -/

section Recursion

variable {T : AddressText} {url : String → Option URL} {same : URL → URL → Bool}
variable {fetch : URL → String} {order : List URL → List URL → List URL}

/-- An import on whose way back the rule is not lost. -/
def PassesUp (T : AddressText) (url : String → Option URL) (same : URL → URL → Bool)
    (fetch : URL → String) (rule : Rule) (a child : Acl) : Prop :=
  Imports T url same fetch a child ∧ rule.Passes a child

/-- What `flatten` makes of a list. -/
structure Flattened (T : AddressText) (url : String → Option URL) (same : URL → URL → Bool)
    (fetch : URL → String) (depth : Nat) (a r : Acl) : Prop where
  bypass : r.bypass = a.bypass
  urls : r.urls = .empty
  rules : ∀ rule, r.HasRule rule ↔
    ∃ b, Within (PassesUp T url same fetch rule) depth a b ∧ b.HasRule rule

/-- The imports cleared at the end carry no rules. -/
theorem hasRule_cleared (a : Acl) (rule : Rule) :
    HasRule { a with urls := .empty } rule ↔ a.HasRule rule := by
  cases rule <;> rfl

theorem flattened_zero (a : Acl) : Flattened T url same fetch 0 a { a with urls := .empty } where
  bypass := rfl
  urls := rfl
  rules := by
    intro rule
    rw [hasRule_cleared]
    simp only [within_zero, exists_eq_left]

/-- The rules that come from the lists visited. -/
def RuleFrom (T : AddressText) (url : String → Option URL) (same : URL → URL → Bool)
    (fetch : URL → String) (depth : Nat) (visited : List URL) (a : Acl) (rule : Rule) : Prop :=
  ∃ u ∈ visited, ∃ child, fromReader T url same Acl.empty (fetch u) a.bypass = .ok child ∧
    rule.Passes a child ∧
    ∃ b, Within (PassesUp T url same fetch rule) depth child b ∧ b.HasRule rule

/-- The loop over the imports, given what the recursion makes of each.  The induction is on the
imports that are still to be visited; the mode of the list never changes. -/
theorem foldlM_merge {depth : Nat} {path : List URL}
    (hrec : ∀ (u : URL) (child : Acl), Fetchable T url same fetch depth child →
      ∃ r, flattenTo T url same fetch order depth (u :: path) child = .ok r ∧
        Flattened T url same fetch depth child r) (visited : List URL) :
    ∀ a : Acl, (∀ u ∈ visited, ∃ child,
        fromReader T url same Acl.empty (fetch u) a.bypass = .ok child ∧
          Fetchable T url same fetch depth child) →
      ∃ a', visited.foldlM (fun a u => do
            let child ← (fromReader T url same Acl.empty (fetch u) a.bypass).mapError Prod.fst
            let child ← flattenTo T url same fetch order depth (u :: path) child
            return a.merge child) a = .ok a' ∧
        a'.bypass = a.bypass ∧
        ∀ rule, a'.HasRule rule ↔
          a.HasRule rule ∨ RuleFrom T url same fetch depth visited a rule := by
  induction visited with
  | nil =>
      intro a _
      refine ⟨a, rfl, rfl, ?_⟩
      intro rule
      simp [RuleFrom]
  | cons u visited ih =>
      intro a hfetch
      obtain ⟨child, hchild, hfetchable⟩ := hfetch u List.mem_cons_self
      obtain ⟨r, hr, hflat⟩ := hrec u child hfetchable
      obtain ⟨a', hfold, hmode, hrules⟩ := ih (a.merge r)
        (fun v hv => hfetch v (List.mem_cons_of_mem u hv))
      refine ⟨a', ?_, hmode, ?_⟩
      · rw [List.foldlM_cons, hchild]
        simp only [Except.mapError, bind, Except.bind, hr]
        exact hfold
      · intro rule
        have hpasses : rule.Passes a r ↔ rule.Passes a child := by
          cases rule with
          | subnet s => simp only [Rule.Passes, hflat.bypass]
          | _ => exact Iff.rfl
        have hfirst : (r.HasRule rule ∧ rule.Passes a r) ↔
            RuleFrom T url same fetch depth [u] a rule := by
          simp only [RuleFrom, List.mem_singleton, exists_eq_left, hchild, Except.ok.injEq,
            exists_eq_left', hpasses, hflat.rules]
          exact and_comm
        have hsplit : RuleFrom T url same fetch depth (u :: visited) a rule ↔
            RuleFrom T url same fetch depth [u] a rule ∨
              RuleFrom T url same fetch depth visited a rule := by
          simp only [RuleFrom, List.mem_singleton, exists_eq_left, List.exists_mem_cons_iff]
        rw [hrules, hasRule_merge, hfirst, hsplit, or_assoc]
        exact Iff.rfl

/-- The induction is on the depth: one more level of imports is one more step to each list. -/
theorem flattenTo_spec (horder : ∀ path l, (order path l).Perm l) (depth : Nat) :
    ∀ (path : List URL) (a : Acl), Fetchable T url same fetch depth a →
      ∃ r, flattenTo T url same fetch order depth path a = .ok r ∧
        Flattened T url same fetch depth a r := by
  induction depth with
  | zero =>
      intro path a _
      exact ⟨_, rfl, flattened_zero a⟩
  | succ depth ih =>
      intro path a hfetch
      have hmem : ∀ u, u ∈ order path a.urls.items ↔ u ∈ a.urls.items := fun u =>
        (horder path a.urls.items).mem_iff
      obtain ⟨a', hfold, hmode, hrules⟩ := foldlM_merge (fun u => ih (u :: path))
        (order path a.urls.items) a (fun u hu => hfetch u ((hmem u).1 hu))
      refine ⟨{ a' with urls := .empty }, ?_, hmode, rfl, ?_⟩
      · rw [flattenTo, hfold]
        rfl
      · intro rule
        rw [hasRule_cleared, hrules]
        simp only [within_succ, or_and_right, exists_or, exists_eq_left, RuleFrom, hmem, PassesUp,
          Imports]
        refine or_congr_right ?_
        constructor
        · rintro ⟨u, hu, child, hchild, hpasses, b, hb, hrule⟩
          exact ⟨b, ⟨child, ⟨⟨u, hu, hchild⟩, hpasses⟩, hb⟩, hrule⟩
        · rintro ⟨b, ⟨child, ⟨⟨u, hu, hchild⟩, hpasses⟩, hb⟩, hrule⟩
          exact ⟨u, hu, child, hchild, hpasses, b, hb, hrule⟩

theorem passesUp_bypassHostname (h : String) :
    PassesUp T url same fetch (.bypassHostname h) = Imports T url same fetch := by
  funext a child
  exact and_true _

theorem passesUp_proxyHostname (h : String) :
    PassesUp T url same fetch (.proxyHostname h) = Imports T url same fetch := by
  funext a child
  exact and_true _

/-- The same list, up to the zones of addresses. -/
structure Same (a b : Acl) : Prop where
  bypassHostnames : a.bypassHostnames = b.bypassHostnames
  proxyHostnames : a.proxyHostnames = b.proxyHostnames
  subnets : List.Forall₂ Subnet.equals a.subnets.items b.subnets.items
  urls : a.urls = b.urls
  bypass : a.bypass = b.bypass

/-- The depth and the list determine the result. -/
theorem same_of_flattened {depth : Nat} {a r r' : Acl} (h : Flattened T url same fetch depth a r)
    (h' : Flattened T url same fetch depth a r') : Same r r' := by
  have hrules : ∀ rule, r.HasRule rule ↔ r'.HasRule rule := fun rule =>
    (h.rules rule).trans (h'.rules rule).symm
  constructor
  · exact OrderedSet.eq_of_has_iff (fun x => hrules (.bypassHostname x))
  · exact OrderedSet.eq_of_has_iff (fun x => hrules (.proxyHostname x))
  · have hsubnets := OrderedSet.forall₂_of_has_iff (fun s => hrules (.subnet s))
    simpa only [Subnet.compareTo_eq_iff] using hsubnets
  · rw [h.urls, h'.urls]
  · rw [h.bypass, h'.bypass]

theorem flatten_rules (horder : ∀ path l, (order path l).Perm l) (depth : Int) (a : Acl)
    (hfetch : Fetchable T url same fetch depth.toNat a) :
    ∃ r, flatten T url same fetch order depth a = .ok r ∧ r.bypass = a.bypass ∧ r.urls = .empty ∧
      (∀ h, h ∈ r.bypassHostnames.items ↔
        ∃ b, Within (Imports T url same fetch) depth.toNat a b ∧ h ∈ b.bypassHostnames.items) ∧
      (∀ h, h ∈ r.proxyHostnames.items ↔
        ∃ b, Within (Imports T url same fetch) depth.toNat a b ∧ h ∈ b.proxyHostnames.items) ∧
      (∀ s, (∃ t ∈ r.subnets.items, t.equals s) ↔
        ∃ b, Within (ImportsAlike T url same fetch) depth.toNat a b ∧
          ∃ t ∈ b.subnets.items, t.equals s) ∧
      ∀ order' : List URL → List URL → List URL, (∀ path l, (order' path l).Perm l) →
        ∃ r', flatten T url same fetch order' depth a = .ok r' ∧ Same r r' := by
  obtain ⟨r, hr, hflat⟩ := flattenTo_spec horder depth.toNat [] a hfetch
  refine ⟨r, hr, hflat.bypass, hflat.urls, ?_, ?_, ?_, ?_⟩
  · intro h
    have hrule := hflat.rules (.bypassHostname h)
    rw [passesUp_bypassHostname] at hrule
    simpa only [HasRule, OrderedSet.has_iff_mem] using hrule
  · intro h
    have hrule := hflat.rules (.proxyHostname h)
    rw [passesUp_proxyHostname] at hrule
    simpa only [HasRule, OrderedSet.has_iff_mem] using hrule
  · intro s
    have hrule := hflat.rules (.subnet s)
    simp only [HasRule, OrderedSet.Has, Subnet.compareTo_eq_iff] at hrule
    exact hrule
  · intro order' horder'
    obtain ⟨r', hr', hflat'⟩ := flattenTo_spec horder' depth.toNat [] a hfetch
    exact ⟨r', hr', same_of_flattened hflat hflat'⟩

theorem fetchable_of_forall
    (h : ∀ u b, ∃ child, fromReader T url same Acl.empty (fetch u) b = .ok child) (depth : Nat) :
    ∀ a, Fetchable T url same fetch depth a := by
  induction depth with
  | zero =>
      intro a
      trivial
  | succ depth ih =>
      intro a u _
      obtain ⟨child, hchild⟩ := h u a.bypass
      exact ⟨child, hchild, ih child⟩

end Recursion

/-! ## A list that imports itself -/

def ownURL : URL where
  protocol := "ftp"
  host := "d"
  port := -1
  file := "/"
  externalForm := "ftp://d/#e"

def cyclic : List String :=
  ["[proxy_all]", "[bypass_list]", "10.0.0.0/8", "example.com", "#IMPORT_URL <ftp://d/#e>"]

def cyclicText : String :=
  String.ofList (cyclic.flatMap (fun line => line.toList ++ ['\n']))

def importer : Acl :=
  { Acl.empty with urls := SortedList.Sorted.empty.add sameURL true ownURL }

theorem fromReader_cyclic (b : Bool) :
    ∃ child, fromReader twoAddresses oneURL sameURL Acl.empty cyclicText b = .ok child ∧
      "example.com" ∈ child.bypassHostnames.items ∧ child.urls.items = [ownURL] := by
  have hlines : useLines cyclicText = cyclic :=
    useLines_flatMap _ (by simp [cyclic, Unbroken, isBreak])
  have hread : (fromReader twoAddresses oneURL sameURL Acl.empty cyclicText b).toOption.map
      (fun a => (a.bypassHostnames.items, a.urls.items)) = some (["example.com"], [ownURL]) := by
    rw [fromReader, parse, hlines]
    cases b <;> decide +kernel
  cases hcase : fromReader twoAddresses oneURL sameURL Acl.empty cyclicText b with
  | error e =>
      rw [hcase] at hread
      cases hread
  | ok a =>
      rw [hcase] at hread
      have hfacts := Option.some.inj hread
      simp only [Prod.mk.injEq] at hfacts
      exact ⟨a, rfl, by simp [hfacts.1], hfacts.2⟩

theorem flatten_rules_cyclic :
    ∃ child r,
      fromReader twoAddresses oneURL sameURL Acl.empty cyclicText importer.bypass = .ok child ∧
      child.urls.items = [ownURL] ∧
      flatten twoAddresses oneURL sameURL (fun _ => cyclicText) (fun _ l => l.reverse) 3 importer =
        .ok r ∧
      r.urls = .empty ∧ "example.com" ∈ r.bypassHostnames.items := by
  have hfetch :
      Fetchable twoAddresses oneURL sameURL (fun _ => cyclicText) (3 : Int).toNat importer :=
    fetchable_of_forall (fun _ b => (fromReader_cyclic b).imp (fun _ h => h.1)) _ _
  obtain ⟨r, hr, -, hurls, hbypass, -⟩ :=
    flatten_rules (fun _ l => List.reverse_perm l) 3 importer hfetch
  obtain ⟨child, hchild, hmem, hcycle⟩ := fromReader_cyclic importer.bypass
  refine ⟨child, r, hchild, hcycle, hr, hurls, (hbypass _).2 ⟨child, ?_, hmem⟩⟩
  exact Within.head ⟨ownURL, List.mem_singleton_self _, hchild⟩ (Within.refl 2 child)

end Acl
end SpinVpn
