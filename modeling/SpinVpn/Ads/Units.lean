import Mathlib.Data.List.Perm.Basic
import Mathlib.Logic.Function.Basic
import SpinVpn.Ads.Load

/-!
# Units — which unit the revenue of an ad is reported for

`AdLoadUtils` keeps the unit of the last ad in one of five variables, chosen by the kind of the ad and
the position it was loaded at.  Loading an ad writes the address of the device into the unit, showing
it writes the address again, and a paid event of the ad reports the unit that the variable refers to.

Showing an interstitial at any position but `connect` takes the unit of `connect` by mistake.  Where
no such ad is shown, and an ad is shown and paid for only while the variable is still its own, the
report has the unit of the ad and the other units stay as they are (`units_kept`).
-/

namespace SpinVpn
namespace Ads

open EventMachine

/-! ## Ads and variables -/

inductive Kind
  | appOpen
  | interstitial
  | native
  deriving DecidableEq, Repr

/-- What `GoogleAds.load` asks the SDK for. -/
def MAd.kind? (unit : MAd) : Option Kind :=
  if unit.way = wayOpen then some .appOpen
  else if unit.way = wayInter then some .interstitial
  else if unit.way = wayNative then some .native
  else none

/-- The variables `myUnit_O`, `myUnit_H`, `myUnit_C`, `myUnit_R` and `myUnit_B`. -/
inductive MyUnit
  | o
  | h
  | c
  | r
  | b
  deriving DecidableEq, Repr

/-- The variable that a loaded ad is recorded in, and that its paid event reads. -/
def MyUnit.of : Kind → Position → MyUnit
  | .appOpen, _ => .o
  | .interstitial, pos => if pos = .connect then .c else .b
  | .native, pos => if pos = .home then .h else .r

/-- A unit object, which several variables may refer to. -/
abbrev Ref : Type := Nat

structure Ad where
  kind : Kind
  pos : Position
  /-- the unit the ad was requested with -/
  unit : Ref
  deriving DecidableEq, Repr

def Ad.myUnit (ad : Ad) : MyUnit :=
  MyUnit.of ad.kind ad.pos

structure AdRequest where
  kind : Kind
  pos : Position
  unit : Ref
  deriving DecidableEq, Repr

structure AdUnits where
  /-- the unit objects -/
  heap : List MAd := [{}, {}, {}, {}, {}]
  myUnit : MyUnit → Ref := fun
    | .o => 0
    | .h => 1
    | .c => 2
    | .r => 3
    | .b => 4
  requests : List AdRequest := []
  ads : List Ad := []
  /-- the calls of `SpinOkHttpUtils.postAdEvent`, with the ad each was made for -/
  posted : List (Ad × Ref) := []

/-! ## Addresses -/

/-- Where the device is in the network when it is asked. -/
structure LinkSettings where
  isVpnGlobalLink : Bool
  ipAfterVpnLink : String
  ipAfterVpnCity : String
  ip : String
  deriving DecidableEq, Repr

namespace LinkSettings

def address (link : LinkSettings) : String :=
  if link.isVpnGlobalLink then link.ipAfterVpnLink else link.ip

def city (link : LinkSettings) : String :=
  if link.isVpnGlobalLink then link.ipAfterVpnCity else "null"

end LinkSettings

namespace AdUnits

/-- The object is changed, and the reference is the same. -/
def beforeLoadLinkSettingsBa (link : LinkSettings) (unit : Ref) (s : AdUnits) : AdUnits × Ref :=
  ({ s with heap := s.heap.modify unit (fun mAd =>
      { mAd with spinLoadIp := link.address, spinLoadCity := link.city }) }, unit)

def afterLoadLinkSettingsBa (link : LinkSettings) (unit : Ref) (s : AdUnits) : AdUnits × Ref :=
  ({ s with heap := s.heap.modify unit (fun mAd =>
      { mAd with spinShowIp := link.address, spinShowCity := link.city }) }, unit)

def assign (v : MyUnit) (r : AdUnits × Ref) : AdUnits :=
  { r.1 with myUnit := Function.update r.1.myUnit v r.2 }

/-! ## GoogleAds -/

/-- `GoogleAds.load`; a unit of another way is not requested. -/
def load (pos : Position) (unit : MAd) (s : AdUnits) : AdUnits :=
  match unit.kind? with
  | none => s
  | some kind =>
      { s with
        heap := s.heap ++ [unit]
        requests := s.requests ++ [⟨kind, pos, s.heap.length⟩] }

/-- `onAdLoaded` -/
def onAdLoaded (link : LinkSettings) (request : AdRequest) (s : AdUnits) : AdUnits :=
  let s := assign (MyUnit.of request.kind request.pos) (s.beforeLoadLinkSettingsBa link request.unit)
  { s with ads := s.ads ++ [⟨request.kind, request.pos, request.unit⟩] }

/-- `showFullScreen` of an ad at its position, unless it is blocked. -/
def showFullScreen (link : LinkSettings) (blocked : Bool) (ad : Ad) (s : AdUnits) : AdUnits :=
  match ad.kind with
  | .appOpen => assign .o (s.afterLoadLinkSettingsBa link (s.myUnit .o))
  | .interstitial =>
      if blocked then s
      else if ad.pos = .connect then assign .c (s.afterLoadLinkSettingsBa link (s.myUnit .c))
      -- the argument is not the variable that is assigned
      else assign .b (s.afterLoadLinkSettingsBa link (s.myUnit .c))
  | .native => s

/-- `found` is whether the layout has a view for the ad. -/
def showNativeOf (link : LinkSettings) (found : Bool) (ad : Ad) (s : AdUnits) : AdUnits :=
  match ad.kind with
  | .native =>
      if found = false then s
      else if ad.pos = .home then assign .h (s.afterLoadLinkSettingsBa link (s.myUnit .h))
      else assign .r (s.afterLoadLinkSettingsBa link (s.myUnit .r))
  | _ => s

/-- The listener that `load` sets on the ad; a native ad may come without a `responseInfo`. -/
def onPaidEvent (responseInfo : Bool) (ad : Ad) (s : AdUnits) : AdUnits :=
  if ad.kind = .native ∧ responseInfo = false then s
  else { s with posted := s.posted ++ [(ad, s.myUnit ad.myUnit)] }

end AdUnits

/-! ## Runs -/

inductive UnitEvent
  | load (pos : Position) (unit : MAd)
  | onAdLoaded (index : Nat) (link : LinkSettings)
  | onAdFailedToLoad (index : Nat)
  | showFullScreen (index : Nat) (blocked : Bool) (link : LinkSettings)
  | showNativeOf (index : Nat) (found : Bool) (link : LinkSettings)
  | onPaidEvent (index : Nat) (responseInfo : Bool)
  deriving DecidableEq, Repr

def unitMachine : Machine AdUnits UnitEvent where
  init := {}
  step := fun s e =>
    match e with
    | .load pos unit => some (s.load pos unit)
    | .onAdLoaded index link =>
        (s.requests[index]?).map (fun request =>
          { s with requests := s.requests.eraseIdx index }.onAdLoaded link request)
    | .onAdFailedToLoad index =>
        (s.requests[index]?).map (fun _ => { s with requests := s.requests.eraseIdx index })
    | .showFullScreen index blocked link =>
        (s.ads[index]?).map (fun ad => s.showFullScreen link blocked ad)
    | .showNativeOf index found link => (s.ads[index]?).map (fun ad => s.showNativeOf link found ad)
    | .onPaidEvent index responseInfo => (s.ads[index]?).map (fun ad => s.onPaidEvent responseInfo ad)

/-- The last ad that was recorded in a variable. -/
def AdUnits.lastLoaded (s : AdUnits) (v : MyUnit) : Option Ad :=
  (s.ads.filter (fun ad => ad.myUnit = v)).getLast?

/-- The ad that is shown by an event. -/
def UnitEvent.shown? (s : AdUnits) : UnitEvent → Option Ad
  | .showFullScreen index _ _ => s.ads[index]?
  | .showNativeOf index _ _ => s.ads[index]?
  | _ => none

/-- The last ad of its variable is of the same position. -/
def AdUnits.Owned (s : AdUnits) (ad : Ad) : Prop :=
  ∀ last ∈ s.lastLoaded ad.myUnit, last.pos = ad.pos

/-- The condition on a step: an interstitial is shown at `connect` only, an ad is shown only while its
variable is its position's, and a paid event that is reported comes only while the variable is the ad's
own. -/
def UnitEvent.Unmixed (s : AdUnits) : UnitEvent → Prop
  | .showFullScreen index blocked _ => ∀ ad ∈ s.ads[index]?,
      (ad.kind = .appOpen → s.Owned ad) ∧
        (ad.kind = .interstitial → blocked = false → ad.pos = .connect ∧ s.Owned ad)
  | .showNativeOf index found _ => ∀ ad ∈ s.ads[index]?,
      ad.kind = .native → found = true → s.Owned ad
  | .onPaidEvent index responseInfo => ∀ ad ∈ s.ads[index]?,
      ¬(ad.kind = .native ∧ responseInfo = false) → s.lastLoaded ad.myUnit = some ad
  | _ => True

/-! ## Every variable has an object of its own -/

namespace AdUnits

structure Distinct (s : AdUnits) : Prop where
  injective : Function.Injective s.myUnit
  fresh : ∀ r ∈ s.requests, ∀ v, s.myUnit v ≠ r.unit
  nodup : (s.requests.map AdRequest.unit).Nodup
  assigned : ∀ v, s.myUnit v < s.heap.length
  requests : ∀ r ∈ s.requests, r.unit < s.heap.length
  recorded : ∀ v, ∀ ad ∈ s.lastLoaded v, s.myUnit v = ad.unit
  posted : ∀ q ∈ s.posted, q.2 = q.1.unit

section Steps

variable {s : AdUnits}

theorem assign_self (v : MyUnit) (link : LinkSettings) :
    assign v (s.afterLoadLinkSettingsBa link (s.myUnit v)) =
      (s.afterLoadLinkSettingsBa link (s.myUnit v)).1 := by
  have hsame : Function.update s.myUnit v (s.myUnit v) = s.myUnit := Function.update_eq_self v s.myUnit
  change { (s.afterLoadLinkSettingsBa link (s.myUnit v)).1 with
    myUnit := Function.update s.myUnit v (s.myUnit v) } = _
  rw [hsame]
  rfl

/-- What an event does that shows an ad under the condition: nothing, or it writes the address into
the unit that the ad's variable refers to, which is a unit of the ad's position. -/
theorem show_cases {e : UnitEvent} {ad : Ad} {t : AdUnits} (had : ad ∈ e.shown? s)
    (hok : e.Unmixed s) (hstep : unitMachine.step s e = some t) :
    t = s ∨ (s.Owned ad ∧ ∃ link, t = (s.afterLoadLinkSettingsBa link (s.myUnit ad.myUnit)).1) := by
  cases e with
  | showFullScreen index blocked link =>
      have hindex : s.ads[index]? = some ad := had
      simp only [unitMachine, hindex, Option.map_some, Option.some.injEq] at hstep
      obtain ⟨hopen, hinter⟩ := hok ad hindex
      subst hstep
      rw [showFullScreen]
      cases hkind : ad.kind with
      | appOpen =>
          have hmine : ad.myUnit = .o := by rw [Ad.myUnit, hkind, MyUnit.of]
          refine Or.inr ⟨hopen hkind, link, ?_⟩
          rw [hmine]
          exact assign_self .o link
      | interstitial =>
          cases blocked with
          | true => exact Or.inl rfl
          | false =>
              obtain ⟨hpos, howned⟩ := hinter hkind rfl
              have hmine : ad.myUnit = .c := by rw [Ad.myUnit, hkind, MyUnit.of, if_pos hpos]
              refine Or.inr ⟨howned, link, ?_⟩
              rw [hmine]
              simp only [Bool.false_eq_true, if_false, if_pos hpos]
              exact assign_self .c link
      | native => exact Or.inl rfl
  | showNativeOf index found link =>
      have hindex : s.ads[index]? = some ad := had
      simp only [unitMachine, hindex, Option.map_some, Option.some.injEq] at hstep
      have hnative := hok ad hindex
      subst hstep
      rw [showNativeOf]
      cases hkind : ad.kind with
      | native =>
          cases found with
          | false => exact Or.inl rfl
          | true =>
              refine Or.inr ⟨hnative hkind rfl, link, ?_⟩
              by_cases hpos : ad.pos = .home
              · have hmine : ad.myUnit = .h := by rw [Ad.myUnit, hkind, MyUnit.of, if_pos hpos]
                rw [hmine]
                simp only [Bool.true_eq_false, if_false, if_pos hpos]
                exact assign_self .h link
              · have hmine : ad.myUnit = .r := by rw [Ad.myUnit, hkind, MyUnit.of, if_neg hpos]
                rw [hmine]
                simp only [Bool.true_eq_false, if_false, if_neg hpos]
                exact assign_self .r link
      | appOpen => exact Or.inl rfl
      | interstitial => exact Or.inl rfl
  | load pos unit => cases had
  | onAdLoaded index link => cases had
  | onAdFailedToLoad index => cases had
  | onPaidEvent index responseInfo => cases had

theorem Distinct.afterLoad (h : s.Distinct) (link : LinkSettings) (unit : Ref) :
    (s.afterLoadLinkSettingsBa link unit).1.Distinct where
  injective := h.injective
  fresh := h.fresh
  nodup := h.nodup
  assigned := by
    intro v
    rw [afterLoadLinkSettingsBa, List.length_modify]
    exact h.assigned v
  requests := by
    intro r hr
    rw [afterLoadLinkSettingsBa, List.length_modify]
    exact h.requests r hr
  recorded := h.recorded
  posted := h.posted

/-- A new request has a new object. -/
theorem Distinct.load (h : s.Distinct) (pos : Position) (unit : MAd) : (s.load pos unit).Distinct := by
  rw [AdUnits.load]
  cases unit.kind? with
  | none => exact h
  | some kind =>
      refine ⟨h.injective, ?_, ?_, ?_, ?_, h.recorded, h.posted⟩
      · intro r hr v
        rcases List.mem_append.1 hr with hr | hr
        · exact h.fresh r hr v
        · rw [List.mem_singleton.1 hr]
          exact Nat.ne_of_lt (h.assigned v)
      · rw [List.map_append, List.nodup_append]
        refine ⟨h.nodup, List.nodup_singleton _, ?_⟩
        intro unit' hunit unit hnew
        obtain ⟨r, hr, rfl⟩ := List.mem_map.1 hunit
        rw [List.mem_singleton.1 hnew]
        exact Nat.ne_of_lt (h.requests r hr)
      · intro v
        rw [List.length_append]
        exact Nat.lt_add_right 1 (h.assigned v)
      · intro r hr
        rw [List.length_append]
        rcases List.mem_append.1 hr with hr | hr
        · exact Nat.lt_add_right 1 (h.requests r hr)
        · rw [List.mem_singleton.1 hr]
          exact Nat.lt_succ_self _

theorem Distinct.eraseIdx (h : s.Distinct) (index : Nat) :
    Distinct { s with requests := s.requests.eraseIdx index } where
  injective := h.injective
  fresh := fun r hr => h.fresh r (List.mem_of_mem_eraseIdx hr)
  nodup := h.nodup.sublist ((List.eraseIdx_sublist _ _).map _)
  assigned := h.assigned
  requests := fun r hr => h.requests r (List.mem_of_mem_eraseIdx hr)
  recorded := h.recorded
  posted := h.posted

/-- The request that is answered is no longer among the others. -/
theorem Distinct.not_mem_eraseIdx (h : s.Distinct) {index : Nat} {r : AdRequest}
    (hr : s.requests[index]? = some r) : ∀ r' ∈ s.requests.eraseIdx index, r.unit ≠ r'.unit := by
  obtain ⟨hlt, rfl⟩ := List.getElem?_eq_some_iff.1 hr
  have hperm := (List.getElem_cons_eraseIdx_perm hlt).map AdRequest.unit
  have hnodup := hperm.nodup_iff.2 h.nodup
  intro r' hr' heq
  rw [List.map_cons, List.nodup_cons] at hnodup
  exact hnodup.1 (List.mem_map.2 ⟨r', hr', heq.symm⟩)

theorem lastLoaded_append (ad : Ad) (v : MyUnit) :
    lastLoaded { s with ads := s.ads ++ [ad] } v =
      if ad.myUnit = v then some ad else s.lastLoaded v := by
  rw [lastLoaded, List.filter_append, List.filter_singleton]
  by_cases hv : ad.myUnit = v
  · rw [if_pos hv, decide_eq_true hv]
    exact List.getLast?_concat
  · rw [if_neg hv, decide_eq_false hv]
    exact congrArg List.getLast? (List.append_nil _)

theorem Distinct.onAdLoaded (h : s.Distinct) {index : Nat} {r : AdRequest}
    (hr : s.requests[index]? = some r) (link : LinkSettings) :
    Distinct ({ s with requests := s.requests.eraseIdx index }.onAdLoaded link r) := by
  have hothers := h.not_mem_eraseIdx hr
  have hmem : r ∈ s.requests := List.mem_of_getElem? hr
  refine ⟨?_, ?_, h.eraseIdx index |>.nodup, ?_, ?_, ?_, h.posted⟩
  · -- the new object is none of those the variables refer to
    intro v v' heq
    simp only [AdUnits.onAdLoaded, assign, beforeLoadLinkSettingsBa, Function.update_apply] at heq
    by_cases hv : v = MyUnit.of r.kind r.pos <;> by_cases hv' : v' = MyUnit.of r.kind r.pos
    · rw [hv, hv']
    · rw [if_pos hv, if_neg hv'] at heq
      exact absurd heq.symm (h.fresh r hmem v')
    · rw [if_neg hv, if_pos hv'] at heq
      exact absurd heq (h.fresh r hmem v)
    · rw [if_neg hv, if_neg hv'] at heq
      exact h.injective heq
  · intro r' hr' v
    simp only [AdUnits.onAdLoaded, assign, beforeLoadLinkSettingsBa, Function.update_apply]
    split
    · exact hothers r' hr'
    · exact h.fresh r' (List.mem_of_mem_eraseIdx hr') v
  · intro v
    simp only [AdUnits.onAdLoaded, assign, beforeLoadLinkSettingsBa, Function.update_apply,
      List.length_modify]
    split
    · exact h.requests r hmem
    · exact h.assigned v
  · intro r' hr'
    simp only [AdUnits.onAdLoaded, assign, beforeLoadLinkSettingsBa, List.length_modify]
    exact h.requests r' (List.mem_of_mem_eraseIdx hr')
  · intro v ad had
    have hlast := lastLoaded_append (s := s) ⟨r.kind, r.pos, r.unit⟩ v
    have had' : (if MyUnit.of r.kind r.pos = v then some ⟨r.kind, r.pos, r.unit⟩
        else s.lastLoaded v) = some ad := hlast.symm.trans had
    simp only [AdUnits.onAdLoaded, assign, beforeLoadLinkSettingsBa, Function.update_apply]
    by_cases hv : MyUnit.of r.kind r.pos = v
    · rw [if_pos hv] at had'
      cases had'
      exact if_pos hv.symm
    · rw [if_neg hv] at had'
      rw [if_neg (Ne.symm hv)]
      exact h.recorded v ad had'

theorem Distinct.onPaidEvent (h : s.Distinct) {ad : Ad} {responseInfo : Bool}
    (hlast : ¬(ad.kind = .native ∧ responseInfo = false) → s.lastLoaded ad.myUnit = some ad) :
    (s.onPaidEvent responseInfo ad).Distinct := by
  rw [AdUnits.onPaidEvent]
  split
  · exact h
  · rename_i hreported
    refine ⟨h.injective, h.fresh, h.nodup, h.assigned, h.requests, h.recorded, ?_⟩
    intro q hq
    rcases List.mem_append.1 hq with hq | hq
    · exact h.posted q hq
    · rw [List.mem_singleton.1 hq]
      exact h.recorded ad.myUnit ad (hlast hreported)

theorem Distinct.show (h : s.Distinct) {e : UnitEvent} {ad : Ad} {t : AdUnits} (had : ad ∈ e.shown? s)
    (hok : e.Unmixed s) (hstep : unitMachine.step s e = some t) : t.Distinct := by
  rcases show_cases had hok hstep with rfl | ⟨-, link, rfl⟩
  · exact h
  · exact h.afterLoad link _

theorem distinct_step (h : s.Distinct) {e : UnitEvent} {t : AdUnits} (hok : e.Unmixed s)
    (hstep : unitMachine.step s e = some t) : t.Distinct := by
  cases e with
  | load pos unit =>
      cases hstep
      exact h.load pos unit
  | onAdLoaded index link =>
      obtain ⟨r, hr, rfl⟩ := Option.map_eq_some_iff.1 hstep
      exact h.onAdLoaded hr link
  | onAdFailedToLoad index =>
      obtain ⟨r, hr, rfl⟩ := Option.map_eq_some_iff.1 hstep
      exact h.eraseIdx index
  | showFullScreen index blocked link =>
      obtain ⟨ad, had, -⟩ := Option.map_eq_some_iff.1 hstep
      exact h.show had hok hstep
  | showNativeOf index found link =>
      obtain ⟨ad, had, -⟩ := Option.map_eq_some_iff.1 hstep
      exact h.show had hok hstep
  | onPaidEvent index responseInfo =>
      obtain ⟨ad, had, rfl⟩ := Option.map_eq_some_iff.1 hstep
      exact h.onPaidEvent (hok ad had)

theorem mem_ads_of_shown {e : UnitEvent} {ad : Ad} (had : ad ∈ e.shown? s) : ad ∈ s.ads := by
  cases e with
  | showFullScreen index blocked link => exact List.mem_of_getElem? had
  | showNativeOf index found link => exact List.mem_of_getElem? had
  | load pos unit => cases had
  | onAdLoaded index link => cases had
  | onAdFailedToLoad index => cases had
  | onPaidEvent index responseInfo => cases had

theorem exists_lastLoaded {ad : Ad} (had : ad ∈ s.ads) : ∃ last, s.lastLoaded ad.myUnit = some last := by
  have hmem : ad ∈ s.ads.filter (fun ad' => ad'.myUnit = ad.myUnit) :=
    List.mem_filter.2 ⟨had, decide_eq_true rfl⟩
  exact ⟨_, List.getLast?_eq_some_getLast (List.ne_nil_of_mem hmem)⟩

/-- A variable that is not of the position keeps its object, and the object stays as it is. -/
theorem Distinct.show_frame (h : s.Distinct) {e : UnitEvent} {ad : Ad} {t : AdUnits}
    (had : ad ∈ e.shown? s) (hok : e.Unmixed s) (hstep : unitMachine.step s e = some t) {v : MyUnit}
    (hv : (s.lastLoaded v).map Ad.pos ≠ some ad.pos) :
    t.myUnit v = s.myUnit v ∧ t.heap[t.myUnit v]? = s.heap[s.myUnit v]? := by
  rcases show_cases had hok hstep with rfl | ⟨howned, link, rfl⟩
  · exact ⟨rfl, rfl⟩
  · obtain ⟨last, hlast⟩ := exists_lastLoaded (mem_ads_of_shown had)
    have hne : s.myUnit ad.myUnit ≠ s.myUnit v := by
      intro heq
      rw [← h.injective heq, hlast, Option.map_some, howned last hlast] at hv
      exact hv rfl
    exact ⟨rfl, List.getElem?_modify_ne _ _ hne⟩

end Steps

end AdUnits

theorem distinct_run {h : List (AdUnits × UnitEvent)} {s : AdUnits} (hrun : Run unitMachine h s)
    (hok : ∀ p ∈ h, p.2.Unmixed p.1) : s.Distinct := by
  have hinit : unitMachine.init.Distinct := by
    refine ⟨?_, nofun, List.nodup_nil, ?_, nofun, nofun, nofun⟩
    · intro v v' heq
      cases v <;> cases v' <;> first | rfl | cases heq
    · intro v
      cases v <;> decide
  exact hrun.invariant hinit (fun s e t hs he hst => AdUnits.distinct_step hs he hst) hok

/-- In every run that meets the condition, every paid event reports the unit that its ad was requested
with, and showing an ad does not change the units that are recorded for other positions. -/
theorem units_kept {h : List (AdUnits × UnitEvent)} {s : AdUnits} (hrun : Run unitMachine h s)
    (hok : ∀ p ∈ h, p.2.Unmixed p.1) :
    (∀ q ∈ s.posted, q.2 = q.1.unit) ∧
      ∀ p ∈ h, ∀ ad ∈ p.2.shown? p.1, ∀ t, unitMachine.step p.1 p.2 = some t →
        ∀ v, (p.1.lastLoaded v).map Ad.pos ≠ some ad.pos →
          t.myUnit v = p.1.myUnit v ∧ t.heap[t.myUnit v]? = p.1.heap[p.1.myUnit v]? := by
  refine ⟨(distinct_run hrun hok).posted, ?_⟩
  intro p hp ad had t hstep v hv
  obtain ⟨pre, -, hpre, hrun', -⟩ := hrun.step_of_mem hp
  have hdistinct := distinct_run hrun' (fun q hq => hok q (hpre.subset hq))
  exact hdistinct.show_frame had (hok p hp) hstep hv

/-! ## Two interstitials -/

def offline : LinkSettings where
  isVpnGlobalLink := false
  ipAfterVpnLink := ""
  ipAfterVpnCity := ""
  ip := "192.0.2.1"

def interstitial (dataId : String) : MAd where
  company := "admob"
  dataId := dataId
  way := "i"

/-- An ad is loaded at `connect`, shown and paid for. -/
def shownAtConnect : List UnitEvent :=
  [.load .connect (interstitial "c"), .onAdLoaded 0 offline, .showFullScreen 0 false offline,
    .onPaidEvent 0 true]

theorem units_kept_shownAtConnect :
    ∃ h s, unitMachine.play shownAtConnect = some (h, s) ∧
      s.posted = [(⟨.interstitial, .connect, 5⟩, 5)] ∧ ∀ q ∈ s.posted, q.2 = q.1.unit := by
  refine ⟨_, _, rfl, rfl, ?_⟩
  refine (units_kept (run_of_play unitMachine shownAtConnect rfl) ?_).1
  intro p hp
  simp only [List.nil_append, List.cons_append, List.mem_cons, List.not_mem_nil, or_false] at hp
  rcases hp with rfl | rfl | rfl | rfl
  · trivial
  · trivial
  · intro ad had
    cases had
    refine ⟨nofun, fun _ _ => ⟨rfl, ?_⟩⟩
    intro last hlast
    cases hlast
    rfl
  · intro ad had _
    cases had
    rfl

/-- The ad of the list screen is reported with the unit of the connection. -/
def shownAtBack : List UnitEvent :=
  [.load .connect (interstitial "c"), .onAdLoaded 0 offline, .load .back (interstitial "b"),
    .onAdLoaded 0 offline, .showFullScreen 1 false offline, .onPaidEvent 1 true]

theorem shownAtBack_not_kept :
    ∃ h s, Run unitMachine h s ∧ unitMachine.play shownAtBack = some (h, s) ∧
      s.posted = [(⟨.interstitial, .back, 6⟩, 5)] ∧ ¬ ∀ q ∈ s.posted, q.2 = q.1.unit := by
  refine ⟨_, _, run_of_play unitMachine shownAtBack rfl, rfl, rfl, ?_⟩
  intro hkept
  exact absurd (hkept _ (List.mem_singleton_self _)) (by decide)

end Ads
end SpinVpn
