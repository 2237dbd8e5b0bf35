import Mathlib.Data.Finset.Basic

/-!
# BrandStrategy — which applications go through the tunnel

`brand/BrandStrategy.kt`.  A stored strategy decides which packages the VPN is told to allow or to
disallow.  A package that is not installed cannot be added, and the attempt is swallowed; where
none of the white list is installed, nothing is added at all and the tunnel is open to everything,
the application itself included (`brand_iff`).
-/

namespace SpinVpn
namespace Brand

/-! ## The device -/

structure Device where
  packageName : String
  installed : Finset String
  own : packageName ∈ installed

/-- `VpnService.Builder`: the packages that were added to either list. -/
structure Builder where
  allowed : List String
  disallowed : List String
  deriving DecidableEq

namespace Builder

def new : Builder where
  allowed := []
  disallowed := []

section

variable (d : Device) (b : Builder) (p : String)

/-- The two lists exclude each other.  `none` stands for the exceptions. -/
def addAllowedApplication : Option Builder :=
  if b.disallowed = [] ∧ p ∈ d.installed then some { b with allowed := b.allowed ++ [p] } else none

def addDisallowedApplication : Option Builder :=
  if b.allowed = [] ∧ p ∈ d.installed then some { b with disallowed := b.disallowed ++ [p] }
  else none

/-- What `establish` makes of the lists. -/
def Routed : Prop :=
  if b.allowed ≠ [] then p ∈ b.allowed else p ∉ b.disallowed

instance : Decidable (b.Routed p) :=
  inferInstanceAs (Decidable (if b.allowed ≠ [] then p ∈ b.allowed else p ∉ b.disallowed))

end

end Builder

/-! ## Strategies -/

structure MStrategy where
  strategy : Int
  packages : List String
  deriving DecidableEq

def MStrategy.default : MStrategy where
  strategy := 0
  packages := []

/-- `fromJson` is the adapter of the JSON library; `none` stands for null and for exceptions. -/
def getStrategy (fromJson : String → Option MStrategy) (stored : Option String) : MStrategy :=
  (fromJson (stored.getD "")).getD MStrategy.default

def getWhiteListPackages : List String :=
  ["com.android.chrome",
    "com.microsoft.emmx",
    "org.mozilla.firefox",
    "com.opera.browser",
    "com.google.android.googlequicksearchbox",
    "mark.via.gp",
    "com.UCMobile.intl",
    "com.brave.browser",
    "privacy.explorer.fast.safe.browser"]

def listGmsPackages : List String :=
  ["com.google.android.gms",
    "com.google.android.ext.services",
    "com.google.process.gservices",
    "com.android.vending",
    "com.google.android.gms.persistent",
    "com.google.android.cellbroadcastservice",
    "com.google.android.packageinstaller"]

/-- `forEachRemaining { runCatching { … } }` -/
def forEachCatching (add : Builder → String → Option Builder) (l : List String) (b : Builder) :
    Builder :=
  l.foldl (fun b p => (add b p).getD b) b

def brand (fromJson : String → Option MStrategy) (stored : Option String) (d : Device)
    (builder : Builder) (myPackageName : String) : Option Builder :=
  let strategy := getStrategy fromJson stored
  if strategy.strategy = 1 then
    some (forEachCatching (Builder.addDisallowedApplication d)
      ([myPackageName] ++ listGmsPackages ++ strategy.packages) builder)
  else if strategy.strategy = 2 then
    some (forEachCatching (Builder.addAllowedApplication d) getWhiteListPackages builder)
  else Builder.addDisallowedApplication d builder myPackageName

/-! ## What is added -/

section Added

variable {d : Device}

/-- The packages that are installed are added in turn; `m` is the builder with a list filled in. -/
theorem forEachCatching_eq {add : Builder → String → Option Builder} {m : List String → Builder}
    (hadd : ∀ added p, add (m added) p = if p ∈ d.installed then some (m (added ++ [p])) else none)
    (l : List String) :
    ∀ added, forEachCatching add l (m added) =
      m (added ++ l.filter (fun p => p ∈ d.installed)) := by
  induction l with
  | nil =>
      intro added
      simp [forEachCatching]
  | cons p l ih =>
      intro added
      have hstep : forEachCatching add (p :: l) (m added) =
          forEachCatching add l ((add (m added) p).getD (m added)) := rfl
      by_cases hp : p ∈ d.installed
      · rw [hstep, hadd, if_pos hp, Option.getD_some, ih]
        simp [hp]
      · rw [hstep, hadd, if_neg hp, Option.getD_none, ih]
        simp [hp]

theorem forEachCatching_allowed (l : List String) :
    forEachCatching (Builder.addAllowedApplication d) l .new =
      { allowed := l.filter (fun p => p ∈ d.installed), disallowed := [] } := by
  refine forEachCatching_eq (m := fun added => { allowed := added, disallowed := [] }) ?_ l []
  intro added p
  simp [Builder.addAllowedApplication]

theorem forEachCatching_disallowed (l : List String) :
    forEachCatching (Builder.addDisallowedApplication d) l .new =
      { allowed := [], disallowed := l.filter (fun p => p ∈ d.installed) } := by
  refine forEachCatching_eq (m := fun added => { allowed := [], disallowed := added }) ?_ l []
  intro added p
  simp [Builder.addDisallowedApplication]

end Added

/-! ## What is routed -/

section Routing

variable {fromJson : String → Option MStrategy} {stored : Option String} {d : Device}

/-- Under the first strategy the application itself is the first package to be added. -/
theorem brand_one (h : (getStrategy fromJson stored).strategy = 1) :
    ∃ b, brand fromJson stored d .new d.packageName = some b ∧ ¬ b.Routed d.packageName := by
  rw [brand]
  simp only [if_pos h]
  refine ⟨_, rfl, ?_⟩
  rw [forEachCatching_disallowed, Builder.Routed]
  simp [d.own]

theorem brand_two (h : (getStrategy fromJson stored).strategy = 2) :
    brand fromJson stored d .new d.packageName =
      some { allowed := getWhiteListPackages.filter (fun p => p ∈ d.installed), disallowed := [] } := by
  have hone : ¬ (getStrategy fromJson stored).strategy = 1 := by omega
  rw [brand]
  simp only [if_neg hone, if_pos h]
  rw [forEachCatching_allowed]

theorem brand_other (hone : (getStrategy fromJson stored).strategy ≠ 1)
    (htwo : (getStrategy fromJson stored).strategy ≠ 2) :
    ∃ b, brand fromJson stored d .new d.packageName = some b ∧ ¬ b.Routed d.packageName := by
  rw [brand]
  simp only [if_neg hone, if_neg htwo]
  refine ⟨_, if_pos ⟨rfl, d.own⟩, ?_⟩
  simp [Builder.Routed, Builder.new]

/-- The application stays outside, and under the second strategy so does all that is not on the
white list. -/
def Kept (fromJson : String → Option MStrategy) (stored : Option String) (d : Device) : Prop :=
  ∃ b, brand fromJson stored d .new d.packageName = some b ∧ ¬ b.Routed d.packageName ∧
    ((getStrategy fromJson stored).strategy = 2 →
      ∀ p ∈ d.installed, b.Routed p → p ∈ getWhiteListPackages)

/-- With an empty list of allowed packages everything is routed. -/
theorem kept_two_iff (h : (getStrategy fromJson stored).strategy = 2) :
    Kept fromJson stored d ↔
      (∃ p ∈ getWhiteListPackages, p ∈ d.installed) ∧ d.packageName ∉ getWhiteListPackages := by
  rw [Kept, brand_two h]
  constructor
  · rintro ⟨b, hb, hown, -⟩
    cases hb
    rw [Builder.Routed] at hown
    split at hown
    · rename_i hsome
      rcases List.exists_mem_of_ne_nil _ hsome with ⟨p, hp⟩
      rcases List.mem_filter.1 hp with ⟨hlist, hinstalled⟩
      refine ⟨⟨p, hlist, by simpa using hinstalled⟩, ?_⟩
      intro hmem
      exact hown (List.mem_filter.2 ⟨hmem, by simpa using d.own⟩)
    · exact absurd List.not_mem_nil hown
  · rintro ⟨⟨p, hlist, hinstalled⟩, hown⟩
    have hsome : getWhiteListPackages.filter (fun p => p ∈ d.installed) ≠ [] := by
      apply List.ne_nil_of_mem
      exact List.mem_filter.2 ⟨hlist, by simpa using hinstalled⟩
    refine ⟨_, rfl, ?_, ?_⟩
    · rw [Builder.Routed, if_pos hsome, List.mem_filter]
      exact fun hmem => hown hmem.1
    · intro _ q _ hq
      rw [Builder.Routed, if_pos hsome] at hq
      exact (List.mem_filter.1 hq).1

theorem brand_iff (fromJson : String → Option MStrategy) (stored : Option String) (d : Device) :
    Kept fromJson stored d ↔
      (getStrategy fromJson stored).strategy ≠ 2 ∨
        (∃ p ∈ getWhiteListPackages, p ∈ d.installed) ∧
          d.packageName ∉ getWhiteListPackages := by
  by_cases htwo : (getStrategy fromJson stored).strategy = 2
  · rw [kept_two_iff htwo]
    exact ⟨Or.inr, fun h => h.resolve_left (not_not_intro htwo)⟩
  · refine iff_of_true ?_ (Or.inl htwo)
    have hkept : ∃ b, brand fromJson stored d .new d.packageName = some b ∧
        ¬ b.Routed d.packageName := by
      by_cases hone : (getStrategy fromJson stored).strategy = 1
      · exact brand_one hone
      · exact brand_other hone htwo
    rcases hkept with ⟨b, hb, hown⟩
    exact ⟨b, hb, hown, fun h => absurd h htwo⟩

end Routing

/-! ## No browser at all -/

/-- A device with the application and none of the white list. -/
def bare : Device where
  packageName := "com.spin.secure"
  installed := {"com.spin.secure", "org.example.mail"}
  own := by decide

def secondStrategy (text : String) : Option MStrategy :=
  if text = "\x7b\"strategy\":2\x7d" then some { strategy := 2, packages := [] } else none

theorem brand_bare :
    brand secondStrategy (some "\x7b\"strategy\":2\x7d") bare .new bare.packageName = some .new ∧
      Builder.new.Routed bare.packageName ∧
      ¬ Kept secondStrategy (some "\x7b\"strategy\":2\x7d") bare := by
  have hbrand : brand secondStrategy (some "\x7b\"strategy\":2\x7d") bare .new bare.packageName =
      some .new := by
    decide
  refine ⟨hbrand, by decide, ?_⟩
  rintro ⟨b, hb, hown, -⟩
  rw [hbrand] at hb
  cases hb
  exact hown (by decide)

end Brand
end SpinVpn
