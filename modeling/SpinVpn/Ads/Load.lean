import Mathlib.Data.List.Sort
import SpinVpn.Lib.Keyed
import SpinVpn.Lib.Machine

/-!
# Load — requesting and caching the ad of a position

`AdLoadUtils.Load` keeps one ad for each position of the app.  `load` asks for the units of the
position one after the other, the most important one first, until one of them gives an ad.

The requests are answered through callbacks, at once or later, and the callback of the last one
may call `load` again.  What has happened is written into a log, and the log is shown to be a
sequence of sessions (`load_spec`): a session asks each unit at most once, has a second pass only
at the position `open` after a first one without an ad, and is over before the next one starts.
-/

namespace SpinVpn
namespace Ads

open EventMachine

/-! ## Units -/

/-- `MAd` -/
structure MAd where
  company : String := ""
  dataId : String := ""
  way : String := ""
  importance : Int := 0
  spinLoadIp : String := ""
  spinLoadCity : String := ""
  spinShowIp : String := ""
  spinShowCity : String := ""
  deriving DecidableEq, Repr

structure MAds where
  opening : List MAd := []
  home : List MAd := []
  connect : List MAd := []
  back : List MAd := []
  result : List MAd := []
  deriving DecidableEq, Repr

/-- `AdsCons.POS_OPEN` and the others -/
inductive Position
  | opening
  | home
  | connect
  | back
  | result
  deriving DecidableEq, Repr

def wayOpen : String := "o"
def wayInter : String := "i"
def wayNative : String := "n"

/-- `GoogleAds.load` knows the way; for any other one it calls back at once, without an ad. -/
def MAd.isKnown (unit : MAd) : Bool :=
  unit.way = wayOpen || unit.way = wayInter || unit.way = wayNative

def MAds.of (inst : MAds) : Position → List MAd
  | .opening => inst.opening
  | .home => inst.home
  | .connect => inst.connect
  | .back => inst.back
  | .result => inst.result

/-- `sortedByDescending { it.importance }`, which is stable. -/
def sortedByDescending (units : List MAd) : List MAd :=
  units.insertionSort (fun a b => b.importance ≤ a.importance)

/-- The units in the order in which they are asked. -/
def MAds.sorted (inst : MAds) (pos : Position) : List MAd :=
  sortedByDescending (inst.of pos)

theorem sortedByDescending_spec (units : List MAd) :
    (sortedByDescending units).Perm units ∧
      (sortedByDescending units).Pairwise (fun a b => b.importance ≤ a.importance) ∧
      ∀ c : List MAd, c.Sublist units → c.Pairwise (fun a b => b.importance ≤ a.importance) →
        c.Sublist (sortedByDescending units) := by
  let descending : MAd → MAd → Prop := fun a b => b.importance ≤ a.importance
  have : Std.Total descending := ⟨fun a b => Int.le_total b.importance a.importance⟩
  have : IsTrans MAd descending := ⟨fun a b c hab hbc => Int.le_trans hbc hab⟩
  refine ⟨List.perm_insertionSort _ units, List.pairwise_insertionSort descending units, ?_⟩
  intro c hsub hc
  exact List.sublist_insertionSort (r := descending) hc hsub

/-! ## The cache of a position -/

/-- What happens at a position, in the order in which it happens. -/
inductive Note (α : Type)
  | started (requestCount : Nat) (inst : MAds)
  | requested (unit : MAd)
  | answered (result : Option α)
  /-- The callback of `load` gets an ad at some time, or none. -/
  | completed (result : Option (α × Int))
  | cleared
  deriving DecidableEq, Repr

/-- A request that waits for its answer, with what its callback knows. -/
structure Request where
  units : List MAd
  requestCount : Nat
  inst : MAds
  deriving DecidableEq, Repr

structure Load (α : Type) where
  isLoading : Bool := false
  createdTime : Int := 0
  res : Option α := none
  /-- the requests on their way, which the code has no list of -/
  pending : List Request := []
  log : List (Note α) := []
  deriving DecidableEq, Repr

namespace Load

variable {α : Type}

def note (n : Note α) (s : Load α) : Load α :=
  { s with log := s.log ++ [n] }

def clearCache (s : Load α) : Load α :=
  { s with res := none, createdTime := 0 }.note .cleared

/-- The test of `load` for an ad that is in the cache. -/
def isExpired (now : Int) (s : Load α) : Bool :=
  decide (0 < s.createdTime) && decide (1000 * 60 * 60 < now - s.createdTime)

section Requests

variable (pos : Position)

/-- What is done with the result of a waterfall; `sync` are the answers that come at once. -/
abbrev Callback (α : Type) : Type :=
  Option α → List (Option α) → Load α → Load α

/-- The units are asked until one of them gives an ad.  Where there is no answer at once, the
request waits. -/
def doRequest (callback : Callback α) (requestCount : Nat) (inst : MAds) :
    List MAd → List (Option α) → Load α → Load α
  | [], sync, s => callback none sync s
  | unit :: units, sync, s =>
      let s := s.note (.requested unit)
      if unit.isKnown = false then
        doRequest callback requestCount inst units sync (s.note (.answered none))
      else
        match sync with
        | [] => { s with pending := s.pending ++ [⟨units, requestCount, inst⟩] }
        | none :: sync => doRequest callback requestCount inst units sync (s.note (.answered none))
        | some ad :: sync => callback (some ad) sync (s.note (.answered (some ad)))

/-- The callback of `load`; `now` is the clock where it is read. -/
def complete (now : Int) (requestCount : Nat) (again : List (Option α) → Load α → Load α) :
    Callback α := fun result sync s =>
  let s := s.note (.completed (result.map (fun ad => (ad, now))))
  let s := match result with
    | none => s
    | some ad => { s with res := some ad, createdTime := now }
  let s := { s with isLoading := false }
  if result.isNone ∧ pos = .opening ∧ requestCount < 2 then again sync s else s

/-- `load`, with the call of itself as an argument. -/
def loadWith (now now' : Int) (requestCount : Nat) (again : List (Option α) → Load α → Load α)
    (inst : MAds) (sync : List (Option α)) (s : Load α) : Load α :=
  if s.isLoading then s
  else if s.res.isSome && !s.isExpired now then s
  else
    let s := if s.res.isSome then s.clearCache else s
    let s := { s with isLoading := true }.note (.started requestCount inst)
    doRequest (complete pos now' requestCount again) requestCount inst (inst.sorted pos) sync s

/-- The call with `requestCount` 2, which is the last one: `requestCount < 2` fails. -/
def loadAgain (now : Int) (inst : MAds) (sync : List (Option α)) (s : Load α) : Load α :=
  loadWith pos now now 2 (fun _ s => s) inst sync s

def load (now now' : Int) (inst : MAds) (sync : List (Option α)) (s : Load α) : Load α :=
  loadWith pos now now' 1 (loadAgain pos now' inst) inst sync s

variable {pos} in
theorem loadWith_idle {s : Load α} (hidle : s.isLoading = false) (hres : s.res = none) {now now' : Int}
    {requestCount : Nat} {again : List (Option α) → Load α → Load α} {inst : MAds}
    {sync : List (Option α)} :
    loadWith pos now now' requestCount again inst sync s =
      doRequest (complete pos now' requestCount again) requestCount inst (inst.sorted pos) sync
        ({ s with isLoading := true }.note (.started requestCount inst)) := by
  have hempty : s.res.isSome = false := by
    rw [hres]
    rfl
  simp only [loadWith, hidle, hempty, Bool.false_and, Bool.false_eq_true, if_false]

/-- The callback of a request that did not come at once. -/
def answer (now : Int) (r : Request) (result : Option α) (sync : List (Option α)) (s : Load α) :
    Load α :=
  let s := s.note (.answered result)
  let callback := complete pos now r.requestCount (loadAgain pos now r.inst)
  match result with
  | none => doRequest callback r.requestCount r.inst r.units sync s
  | some ad => callback (some ad) sync s

end Requests

end Load

inductive LoadEvent (α : Type)
  /-- The unit lists are read at the call, the clock before the requests and after them. -/
  | loadOf (inst : MAds) (sync : List (Option α)) (now now' : Int)
  | answered (index : Nat) (result : Option α) (sync : List (Option α)) (now : Int)
  /-- An ad has been shown. -/
  | clearCache
  | resultOf (now : Int)
  deriving DecidableEq, Repr

def loadMachine (α : Type) (pos : Position) : Machine (Load α) (LoadEvent α) where
  init := {}
  step := fun s e =>
    match e with
    | .loadOf inst sync now now' => some (s.load pos now now' inst sync)
    | .answered index result sync now =>
        (s.pending[index]?).map (fun r =>
          { s with pending := s.pending.eraseIdx index }.answer pos now r result sync)
    | .clearCache => some s.clearCache
    | .resultOf _ => some s

/-! ## Sessions -/

section Sessions

variable {α : Type}

/-- The units gave no ad. -/
def refused (tried : List MAd) : List (Note α) :=
  tried.flatMap (fun unit => [.requested unit, .answered none])

/-- The requests of a waterfall over `units`, up to the first ad. -/
inductive Pass (units : List MAd) : Option α → List (Note α) → Prop
  | failed : Pass units none (refused units)
  | filled {tried rest : List MAd} {unit : MAd} {ad : α} (h : units = tried ++ unit :: rest) :
      Pass units (some ad) (refused tried ++ [.requested unit, .answered (some ad)])

/-- What comes before a waterfall in its session. -/
inductive Opening (pos : Position) (inst : MAds) : Nat → List (Note α) → Prop
  | first : Opening pos inst 1 [.started 1 inst]
  | second (h : pos = .opening) : Opening pos inst 2
      (.started 1 inst :: refused (inst.sorted pos) ++ [.completed none, .started 2 inst])

/-- Without an ad, the session at the position `open` has two passes. -/
inductive Session (pos : Position) : List (Note α) → Prop
  | mk {inst : MAds} {requestCount : Nat} {before notes : List (Note α)} {result : Option α} {now : Int}
      (opening : Opening pos inst requestCount before)
      (pass : Pass (inst.sorted pos) result notes)
      (last : result = none → pos = .opening → requestCount = 2) :
      Session pos (before ++ notes ++ [.completed (result.map (fun ad => (ad, now)))])

/-- One session after the other. -/
inductive Sessions (pos : Position) : List (Note α) → Prop
  | nil : Sessions pos []
  | snoc {done session : List (Note α)} :
      Sessions pos done → Session pos session → Sessions pos (done ++ session)

/-- The beginning of a session that waits for the answer to `r`. -/
inductive Begun (pos : Position) (r : Request) : List (Note α) → Prop
  | mk {before : List (Note α)} {tried : List MAd} {unit : MAd}
      (opening : Opening pos r.inst r.requestCount before)
      (units : r.inst.sorted pos = tried ++ unit :: r.units) :
      Begun pos r (before ++ refused tried ++ [.requested unit])

def Note.isCleared : Note α → Bool
  | .cleared => true
  | _ => false

/-- What the cache holds after a note, with the time it was put there. -/
def Note.cached (cache : Option (α × Int)) : Note α → Option (α × Int)
  | .completed (some entry) => some entry
  | .cleared => none
  | _ => cache

namespace Load

/-- The notes of the requests alone. -/
def requests (s : Load α) : List (Note α) :=
  s.log.filter (fun n => !n.isCleared)

/-- What the cache should hold. -/
def cached (s : Load α) : Option (α × Int) :=
  s.log.foldl Note.cached none

theorem requests_note (n : Note α) (s : Load α) :
    (s.note n).requests = s.requests ++ if n.isCleared then [] else [n] := by
  rw [requests, note, List.filter_append, List.filter_singleton, requests]
  cases n.isCleared <;> rfl

theorem cached_note (n : Note α) (s : Load α) : (s.note n).cached = n.cached s.cached := by
  rw [cached, note, List.foldl_append]
  rfl

/-- The cache holds what it should, and was empty whenever the units gave no ad. -/
structure Kept (s : Load α) : Prop where
  res : s.res = s.cached.map Prod.fst
  createdTime : ∀ entry ∈ s.cached, s.createdTime = entry.2
  failed : ∀ before after, s.log = before ++ .completed none :: after →
    before.foldl Note.cached none = none

theorem Kept.failed_note {s : Load α} (h : s.Kept) {n : Note α}
    (hn : n = .completed none → s.res = none) :
    ∀ before after, (s.note n).log = before ++ .completed none :: after →
      before.foldl Note.cached none = none := by
  intro before after hlog
  rcases Keyed.snoc_cases hlog with ⟨rfl, hnew, -⟩ | ⟨rest, -, hlog⟩
  · -- it is the new note
    have hempty : s.cached.map Prod.fst = none := h.res.symm.trans (hn hnew.symm)
    exact Option.map_eq_none_iff.1 hempty
  · exact h.failed before rest hlog

theorem Kept.congr {s s' : Load α} (h : s.Kept) (hres : s'.res = s.res)
    (htime : s'.createdTime = s.createdTime) (hlog : s'.log = s.log) : s'.Kept := by
  have hcached : s'.cached = s.cached := by rw [cached, hlog, cached]
  constructor
  · rw [hres, hcached]
    exact h.res
  · rw [htime, hcached]
    exact h.createdTime
  · rw [hlog]
    exact h.failed

/-- The position after some sessions and the beginning `trail` of another one. -/
structure Trail (pos : Position) (loading : Bool) (waiting : List Request) (trail : List (Note α))
    (s : Load α) : Prop where
  isLoading : s.isLoading = loading
  pending : s.pending = waiting
  kept : s.Kept
  requests : ∃ done, Sessions pos done ∧ s.requests = done ++ trail

/-- Either no session is under way, or one is that waits for one answer. -/
inductive Orderly (pos : Position) (s : Load α) : Prop
  | idle (trail : Trail pos false [] [] s)
  | busy {r : Request} {notes : List (Note α)} (res : s.res = none) (begun : Begun pos r notes)
      (trail : Trail pos true [r] notes s)

section Trail

variable {pos : Position} {loading : Bool} {waiting : List Request} {trail : List (Note α)} {s : Load α}

/-- A note that is not about the cache. -/
theorem Trail.note (h : Trail pos loading waiting trail s) {n : Note α}
    (hcached : n.cached s.cached = s.cached) (hcleared : n.isCleared = false)
    (hfailed : n = .completed none → s.res = none) :
    Trail pos loading waiting (trail ++ [n]) (s.note n) := by
  obtain ⟨done, hdone, hrequests⟩ := h.requests
  refine ⟨h.isLoading, h.pending, ⟨?_, ?_, h.kept.failed_note hfailed⟩, done, hdone, ?_⟩
  · rw [cached_note, hcached]
    exact h.kept.res
  · rw [cached_note, hcached]
    exact h.kept.createdTime
  · rw [requests_note, hcleared, hrequests, List.append_assoc]
    rfl

/-- Clearing the cache does not touch the requests. -/
theorem Trail.clearCache (h : Trail pos loading waiting trail s) :
    Trail pos loading waiting trail s.clearCache := by
  obtain ⟨done, hdone, hrequests⟩ := h.requests
  have hcached : s.clearCache.cached = none := cached_note _ _
  refine ⟨h.isLoading, h.pending, ⟨?_, ?_, h.kept.failed_note nofun⟩, done, hdone, ?_⟩
  · rw [hcached]
    rfl
  · rw [hcached]
    intro entry hentry
    cases hentry
  · rw [Load.clearCache, requests_note]
    exact (List.append_nil _).trans hrequests

theorem refused_append_singleton (tried : List MAd) (unit : MAd) :
    (refused (tried ++ [unit]) : List (Note α)) =
      refused tried ++ [.requested unit] ++ [.answered none] := by
  rw [refused, refused, List.flatMap_append, List.append_assoc]
  rfl

/-- A waterfall ends in its callback, or waits. -/
theorem orderly_doRequest {callback : Callback α} {requestCount : Nat} {inst : MAds}
    {before : List (Note α)} (hopening : Opening pos inst requestCount before)
    (hcallback : ∀ result pass sync s, Pass (inst.sorted pos) result pass →
      Trail pos true [] (before ++ pass) s → s.res = none → Orderly pos (callback result sync s))
    (units : List MAd) :
    ∀ tried sync s, inst.sorted pos = tried ++ units →
      Trail pos true [] (before ++ refused tried) s → s.res = none →
        Orderly pos (doRequest callback requestCount inst units sync s) := by
  induction units with
  | nil =>
      intro tried sync s hunits htrail hres
      rw [List.append_nil] at hunits
      exact hcallback none _ sync s .failed (hunits ▸ htrail) hres
  | cons unit units ih =>
      intro tried sync s hunits htrail hres
      have hasked := htrail.note (n := .requested unit) rfl rfl nofun
      have hrest : inst.sorted pos = (tried ++ [unit]) ++ units := by
        rw [hunits, List.append_assoc]
        rfl
      -- the unit gives no ad, and the next one is asked
      have hnext : Trail pos true [] (before ++ refused (tried ++ [unit]))
          ((s.note (.requested unit)).note (.answered none)) := by
        have hnone := hasked.note (n := .answered none) rfl rfl nofun
        rwa [List.append_assoc, List.append_assoc, ← List.append_assoc (refused tried),
          ← refused_append_singleton] at hnone
      rw [doRequest.eq_def]
      dsimp only
      by_cases hknown : unit.isKnown = false
      · rw [if_pos hknown]
        exact ih _ sync _ hrest hnext hres
      · rw [if_neg hknown]
        cases sync with
        | nil =>
            refine .busy (r := ⟨units, requestCount, inst⟩) hres ⟨hopening, hunits⟩ ?_
            exact ⟨hasked.isLoading, by simp [Load.note, htrail.pending], hasked.kept.congr rfl rfl rfl,
              hasked.requests⟩
        | cons result sync =>
            cases result with
            | none => exact ih _ sync _ hrest hnext hres
            | some ad =>
                have hfilled := hasked.note (n := .answered (some ad)) rfl rfl nofun
                rw [List.append_assoc, List.append_assoc] at hfilled
                exact hcallback (some ad) _ sync _ (.filled hunits) hfilled hres

/-- A pass with an ad ends the session, and so does one without, unless there is another one. -/
theorem orderly_complete {now : Int} {requestCount : Nat} {again : List (Option α) → Load α → Load α}
    {inst : MAds} {before pass : List (Note α)} {result : Option α}
    (hopening : Opening pos inst requestCount before) (hpass : Pass (inst.sorted pos) result pass)
    (hagain : ∀ sync s, requestCount = 1 → pos = .opening →
      Trail pos false [] (before ++ refused (inst.sorted pos) ++ [.completed none]) s →
        s.res = none → Orderly pos (again sync s))
    (sync : List (Option α)) (htrail : Trail pos true [] (before ++ pass) s) (hres : s.res = none) :
    Orderly pos (complete pos now requestCount again result sync s) := by
  obtain ⟨done, hdone, hrequests⟩ := htrail.requests
  -- the session, if it ends here
  have hsession : (result = none → pos = .opening → requestCount = 2) → Sessions pos
      (done ++ (before ++ pass ++ [.completed (result.map (fun ad => (ad, now)))])) :=
    fun hlast => .snoc hdone ⟨hopening, hpass, hlast⟩
  have hnoted : (s.note (.completed (result.map (fun ad => (ad, now))))).requests =
      done ++ (before ++ pass ++ [.completed (result.map (fun ad => (ad, now)))]) := by
    rw [requests_note, hrequests, List.append_assoc]
    rfl
  cases result with
  | some ad =>
      have hcached := cached_note (.completed (some (ad, now))) s
      rw [complete, if_neg (fun h => nomatch h.1)]
      refine .idle ⟨rfl, htrail.pending, ⟨?_, ?_, ?_⟩, _, hsession nofun, ?_⟩
      · exact congrArg (Option.map Prod.fst) hcached.symm
      · intro entry hentry
        have hsome : some (ad, now) = some entry := hcached.symm.trans hentry
        cases hsome
        rfl
      · exact htrail.kept.failed_note nofun
      · exact hnoted.trans (List.append_nil _).symm
  | none =>
      have hkept : (s.note (.completed none)).Kept :=
        (htrail.note (n := .completed none) rfl rfl (fun _ => hres)).kept
      have hfailed : pass = refused (inst.sorted pos) := by
        cases hpass
        rfl
      by_cases hretry : pos = .opening ∧ requestCount < 2
      · have hfirst : requestCount = 1 := by
          cases hopening with
          | first => rfl
          | second _ => exact absurd hretry.2 (Nat.lt_irrefl 2)
        rw [complete, if_pos ⟨rfl, hretry⟩]
        have hidle : Kept { s.note (.completed none) with isLoading := false } :=
          hkept.congr rfl rfl rfl
        refine hagain sync _ hfirst hretry.1 ⟨rfl, htrail.pending, hidle, done, hdone, ?_⟩ hres
        rw [← hfailed]
        exact hnoted
      · have hlast : pos = .opening → requestCount = 2 := by
          intro hpos
          cases hopening with
          | first => exact absurd ⟨hpos, Nat.lt_succ_self 1⟩ hretry
          | second _ => rfl
        rw [complete, if_neg (fun h => hretry h.2)]
        exact .idle ⟨rfl, htrail.pending, hkept.congr rfl rfl rfl, _, hsession (fun _ => hlast),
          hnoted.trans (List.append_nil _).symm⟩

/-- What both calls of `load` do once they have found nothing in the way. -/
theorem orderly_start {now : Int} {requestCount : Nat} {again : List (Option α) → Load α → Load α}
    {inst : MAds} (hopening : Opening pos inst requestCount (trail ++ [.started requestCount inst]))
    (hagain : ∀ sync s, requestCount = 1 → pos = .opening →
      Trail pos false [] (trail ++ [.started requestCount inst] ++ refused (inst.sorted pos) ++
        [.completed none]) s → s.res = none → Orderly pos (again sync s))
    (sync : List (Option α)) (htrail : Trail pos false [] trail s) (hres : s.res = none) :
    Orderly pos (doRequest (complete pos now requestCount again) requestCount inst (inst.sorted pos)
      sync ({ s with isLoading := true }.note (.started requestCount inst))) := by
  have hbusy : Trail pos true [] trail { s with isLoading := true } :=
    ⟨rfl, htrail.pending, htrail.kept.congr rfl rfl rfl, htrail.requests⟩
  have hstarted := hbusy.note (n := .started requestCount inst) rfl rfl nofun
  refine orderly_doRequest hopening ?_ _ [] sync _ rfl ?_ hres
  · intro result pass sync s hpass htrail hres
    exact orderly_complete hopening hpass hagain sync htrail hres
  · rwa [refused, List.flatMap_nil, List.append_nil]

theorem orderly_loadAgain {now : Int} {inst : MAds} (hpos : pos = .opening) (sync : List (Option α))
    (htrail : Trail pos false []
      (.started 1 inst :: refused (inst.sorted pos) ++ [.completed none]) s) (hres : s.res = none) :
    Orderly pos (loadAgain pos now inst sync s) := by
  have hopening : Opening (α := α) pos inst 2
      (.started 1 inst :: refused (inst.sorted pos) ++ [.completed none] ++ [.started 2 inst]) := by
    rw [List.append_assoc]
    exact .second hpos
  rw [loadAgain, loadWith_idle htrail.isLoading hres]
  exact orderly_start hopening (fun _ _ h => nomatch h) sync htrail hres

/-- The callback of a first pass may start a second one. -/
theorem orderly_again {now : Int} {inst : MAds} {requestCount : Nat} {before : List (Note α)}
    (hopening : Opening pos inst requestCount before) (sync : List (Option α)) (s : Load α)
    (hfirst : requestCount = 1) (hpos : pos = .opening)
    (htrail : Trail pos false [] (before ++ refused (inst.sorted pos) ++ [.completed none]) s)
    (hres : s.res = none) : Orderly pos (loadAgain pos now inst sync s) := by
  cases hopening with
  | first => exact orderly_loadAgain hpos sync htrail hres
  | second _ => cases hfirst

theorem orderly_load (h : Orderly pos s) (now now' : Int) (inst : MAds) (sync : List (Option α)) :
    Orderly pos (s.load pos now now' inst sync) := by
  rw [load, loadWith]
  cases h with
  | busy res begun trail =>
      rw [if_pos trail.isLoading]
      exact .busy res begun trail
  | idle trail =>
      have hidle : ¬ s.isLoading = true := by simp [trail.isLoading]
      rw [if_neg hidle]
      by_cases hcache : (s.res.isSome && !s.isExpired now) = true
      · rw [if_pos hcache]
        exact .idle trail
      · rw [if_neg hcache]
        cases hres : s.res with
        | none => exact orderly_start .first (orderly_again .first) sync trail hres
        | some ad => exact orderly_start .first (orderly_again .first) sync trail.clearCache rfl

theorem orderly_answer {r : Request} {notes : List (Note α)} (hres : s.res = none)
    (hbegun : Begun pos r notes) (htrail : Trail pos true [] notes s) (now : Int) (result : Option α)
    (sync : List (Option α)) : Orderly pos (s.answer pos now r result sync) := by
  rcases hbegun with ⟨hopening, hunits⟩
  rename_i before tried unit
  have hcallback : ∀ result pass sync s, Pass (r.inst.sorted pos) result pass →
      Trail pos true [] (before ++ pass) s → s.res = none →
        Orderly pos (complete pos now r.requestCount (loadAgain pos now r.inst) result sync s) :=
    fun result pass sync s hpass htrail hres =>
      orderly_complete hopening hpass (orderly_again hopening) sync htrail hres
  cases result with
  | none =>
      have hnext := htrail.note (n := .answered none) rfl rfl nofun
      rw [List.append_assoc, List.append_assoc, ← List.append_assoc (refused tried),
        ← refused_append_singleton] at hnext
      have hrest : r.inst.sorted pos = (tried ++ [unit]) ++ r.units := by
        rw [hunits, List.append_assoc]
        rfl
      exact orderly_doRequest hopening hcallback r.units _ sync _ hrest hnext hres
  | some ad =>
      have hfilled := htrail.note (n := .answered (some ad)) rfl rfl nofun
      rw [List.append_assoc, List.append_assoc] at hfilled
      exact hcallback (some ad) _ sync _ (.filled hunits) hfilled hres

theorem orderly_step (h : Orderly pos s) {e : LoadEvent α} {t : Load α}
    (hstep : (loadMachine α pos).step s e = some t) : Orderly pos t := by
  cases e with
  | loadOf inst sync now now' =>
      cases hstep
      exact orderly_load h now now' inst sync
  | answered index result sync now =>
      obtain ⟨r, hr, rfl⟩ := Option.map_eq_some_iff.1 hstep
      cases h with
      | idle trail =>
          rw [trail.pending] at hr
          cases hr
      | busy res begun trail =>
          rw [trail.pending] at hr
          -- there is only one request to answer
          have hindex : index = 0 := by
            have hlt := (List.getElem?_eq_some_iff.1 hr).1
            exact Nat.lt_one_iff.1 hlt
          subst hindex
          cases hr
          refine orderly_answer (s := { s with pending := s.pending.eraseIdx 0 }) res begun
            ⟨trail.isLoading, ?_, trail.kept.congr rfl rfl rfl, trail.requests⟩ now result sync
          simp [trail.pending]
  | clearCache =>
      cases hstep
      cases h with
      | idle trail => exact .idle trail.clearCache
      | busy res begun trail => exact .busy rfl begun trail.clearCache
  | resultOf now =>
      cases hstep
      exact h

end Trail

/-! ## The log only grows -/

/-- Notes are added, and an ad that completes is put into the cache at the time `now`. -/
def Grows (now : Int) (s t : Load α) : Prop :=
  ∃ new, t.log = s.log ++ new ∧ ∀ ad time, .completed (some (ad, time)) ∈ new → time = now

section Grows

variable {now : Int} {s t u : Load α}

theorem Grows.of_log (h : t.log = s.log) : Grows now s t :=
  ⟨[], by rw [h, List.append_nil], nofun⟩

theorem Grows.trans (hst : Grows now s t) (htu : Grows now t u) : Grows now s u := by
  obtain ⟨new, hnew, htime⟩ := hst
  obtain ⟨new', hnew', htime'⟩ := htu
  refine ⟨new ++ new', by rw [hnew', hnew, List.append_assoc], ?_⟩
  intro ad time hmem
  rcases List.mem_append.1 hmem with hmem | hmem
  · exact htime ad time hmem
  · exact htime' ad time hmem

theorem Grows.isPrefix (h : Grows now s t) : s.log <+: t.log := by
  obtain ⟨new, hnew, -⟩ := h
  exact ⟨new, hnew.symm⟩

theorem grows_note {n : Note α} (hlog : t.log = s.log ++ [n])
    (hn : ∀ ad time, n = .completed (some (ad, time)) → time = now) : Grows now s t := by
  refine ⟨[n], hlog, ?_⟩
  intro ad time hmem
  exact hn ad time (List.mem_singleton.1 hmem).symm

theorem grows_doRequest {callback : Callback α}
    (hcallback : ∀ result sync s, Grows now s (callback result sync s)) (requestCount : Nat)
    (inst : MAds) (units : List MAd) :
    ∀ sync s, Grows now s (doRequest callback requestCount inst units sync s) := by
  induction units with
  | nil =>
      intro sync s
      exact hcallback none sync s
  | cons unit units ih =>
      intro sync s
      have hasked : Grows now s (s.note (.requested unit)) := grows_note rfl nofun
      have hnext : Grows now s ((s.note (.requested unit)).note (.answered none)) :=
        hasked.trans (grows_note rfl nofun)
      rw [doRequest.eq_def]
      dsimp only
      split
      · exact hnext.trans (ih _ _)
      · split
        · exact hasked
        · exact hnext.trans (ih _ _)
        · rename_i ad sync
          have hfilled : Grows now s ((s.note (.requested unit)).note (.answered (some ad))) :=
            hasked.trans (grows_note rfl nofun)
          exact hfilled.trans (hcallback _ _ _)

theorem grows_complete (pos : Position) (now : Int) (requestCount : Nat)
    {again : List (Option α) → Load α → Load α} (hagain : ∀ sync s, Grows now s (again sync s))
    (result : Option α) (sync : List (Option α)) (s : Load α) :
    Grows now s (complete pos now requestCount again result sync s) := by
  cases result with
  | none =>
      have hidle : Grows now s { s.note (.completed none) with isLoading := false } :=
        grows_note (n := .completed none) rfl nofun
      by_cases hretry : (none : Option α).isNone ∧ pos = .opening ∧ requestCount < 2
      · rw [complete, if_pos hretry]
        exact hidle.trans (hagain sync _)
      · rw [complete, if_neg hretry]
        exact hidle
  | some ad =>
      rw [complete, if_neg (fun h => nomatch h.1)]
      apply grows_note (n := .completed (some (ad, now))) rfl
      intro ad' time heq
      cases heq
      rfl

theorem grows_loadWith (pos : Position) (now' now : Int) (requestCount : Nat)
    {again : List (Option α) → Load α → Load α} (hagain : ∀ sync s, Grows now s (again sync s))
    (inst : MAds) (sync : List (Option α)) (s : Load α) :
    Grows now s (loadWith pos now' now requestCount again inst sync s) := by
  have hrequest := grows_doRequest (grows_complete pos now requestCount hagain) requestCount inst
    (inst.sorted pos) sync
  have hcleared : Grows now s (if s.res.isSome then s.clearCache else s) := by
    split
    · exact grows_note (n := .cleared) rfl nofun
    · exact .of_log rfl
  rw [loadWith]
  split
  · exact .of_log rfl
  · split
    · exact .of_log rfl
    · refine Grows.trans ?_ (hrequest _)
      exact hcleared.trans (grows_note (n := .started requestCount inst) rfl nofun)

theorem grows_loadAgain (pos : Position) (now : Int) (inst : MAds) (sync : List (Option α))
    (s : Load α) :
    Grows now s (loadAgain pos now inst sync s) :=
  grows_loadWith pos now now 2 (fun _ _ => .of_log rfl) inst sync s

theorem grows_load (pos : Position) (now now' : Int) (inst : MAds) (sync : List (Option α))
    (s : Load α) :
    Grows now' s (s.load pos now now' inst sync) :=
  grows_loadWith pos now now' 1 (grows_loadAgain pos now' inst) inst sync s

theorem grows_answer (pos : Position) (now : Int) (r : Request) (result : Option α)
    (sync : List (Option α)) (s : Load α) : Grows now s (s.answer pos now r result sync) := by
  have hanswered : Grows now s (s.note (.answered result)) := grows_note rfl nofun
  have hcallback := grows_complete pos now r.requestCount (grows_loadAgain (α := α) pos now r.inst)
  refine hanswered.trans ?_
  cases result with
  | none => exact grows_doRequest hcallback r.requestCount r.inst r.units sync _
  | some ad => exact hcallback (some ad) sync _

end Grows

/-- A call at a position that is not loading and has no ad starts a session. -/
theorem started_load (pos : Position) {s : Load α} (hidle : s.isLoading = false) (hres : s.res = none)
    (now now' : Int) (inst : MAds) (sync : List (Option α)) :
    s.log ++ [.started 1 inst] <+: (s.load pos now now' inst sync).log := by
  rw [load, loadWith_idle hidle hres]
  have hrequest := grows_doRequest (grows_complete pos now' 1 (grows_loadAgain pos now' inst)) 1 inst
    (inst.sorted pos) sync ({ s with isLoading := true }.note (.started 1 inst))
  exact hrequest.isPrefix

theorem orderly_run {pos : Position} {h : List (Load α × LoadEvent α)} {s : Load α}
    (hrun : Run (loadMachine α pos) h s) : Orderly pos s := by
  have hinit : Orderly pos (loadMachine α pos).init := by
    refine .idle ⟨rfl, rfl, ⟨rfl, nofun, ?_⟩, [], .nil, rfl⟩
    intro before after hlog
    have hnil : [] = before ++ .completed none :: after := hlog
    simp at hnil
  have hstep : ∀ s e t, Orderly pos s → True → (loadMachine α pos).step s e = some t → Orderly pos t :=
    fun s e t hs _ => orderly_step hs
  exact hrun.invariant hinit hstep (fun _ _ => trivial)

end Load

/-- In every state the requests so far are sessions one after the other, the last of which may wait
for its one open request; the cache holds the ad that completed last and was not cleared since, and
nothing where a session ended without an ad; and a position that is not loading can be loaded. -/
theorem load_spec (pos : Position) {h : List (Load α × LoadEvent α)} {s : Load α}
    (hrun : Run (loadMachine α pos) h s) :
    s.pending.length ≤ 1 ∧
      ((s.isLoading = false ∧ s.pending = [] ∧ Sessions pos s.requests) ∨
        (s.isLoading = true ∧ s.res = none ∧ ∃ r done notes, s.pending = [r] ∧ Sessions pos done ∧
          Begun pos r notes ∧ s.requests = done ++ notes)) ∧
      (s.res = s.cached.map Prod.fst ∧ ∀ before after, s.log = before ++ .completed none :: after →
        before.foldl Note.cached none = none) ∧
      (s.isLoading = false → s.res = none → ∀ now now' inst sync,
        s.log ++ [.started 1 inst] <+: (s.load pos now now' inst sync).log) ∧
      ∀ inst : MAds, (inst.sorted pos).Perm (inst.of pos) ∧
        (inst.sorted pos).Pairwise (fun a b => b.importance ≤ a.importance) ∧
        ∀ a b, [a, b].Sublist (inst.of pos) → a.importance = b.importance →
          [a, b].Sublist (inst.sorted pos) := by
  have hsorted : ∀ inst : MAds, (inst.sorted pos).Perm (inst.of pos) ∧
      (inst.sorted pos).Pairwise (fun a b => b.importance ≤ a.importance) ∧
      ∀ a b, [a, b].Sublist (inst.of pos) → a.importance = b.importance →
        [a, b].Sublist (inst.sorted pos) := by
    intro inst
    obtain ⟨hperm, hpairwise, hstable⟩ := sortedByDescending_spec (inst.of pos)
    refine ⟨hperm, hpairwise, ?_⟩
    intro a b hsub heq
    exact hstable [a, b] hsub (List.pairwise_pair.2 (Int.le_of_eq heq.symm))
  have hstart : s.isLoading = false → s.res = none → ∀ now now' inst sync,
      s.log ++ [.started 1 inst] <+: (s.load pos now now' inst sync).log :=
    fun hidle hres now now' inst sync => Load.started_load pos hidle hres now now' inst sync
  cases Load.orderly_run hrun with
  | idle trail =>
      obtain ⟨done, hdone, hrequests⟩ := trail.requests
      rw [List.append_nil] at hrequests
      have hlength : s.pending.length ≤ 1 := by simp [trail.pending]
      exact ⟨hlength, Or.inl ⟨trail.isLoading, trail.pending, hrequests ▸ hdone⟩,
        ⟨trail.kept.res, trail.kept.failed⟩, hstart, hsorted⟩
  | busy res begun trail =>
      obtain ⟨done, hdone, hrequests⟩ := trail.requests
      have hlength : s.pending.length ≤ 1 := by simp [trail.pending]
      exact ⟨hlength,
        Or.inr ⟨trail.isLoading, res, _, done, _, trail.pending, hdone, begun, hrequests⟩,
        ⟨trail.kept.res, trail.kept.failed⟩, hstart, hsorted⟩

def twoUnits : MAds where
  opening := [{ way := "i", importance := 1 }, { way := "o", importance := 2 }]

/-- The units fail, are asked once more, and the first of them gives an ad. -/
def secondChance : List (LoadEvent Nat) :=
  [.loadOf twoUnits [none] 10 10, .answered 0 none [] 20, .loadOf twoUnits [] 30 30,
    .answered 0 (some 7) [] 40]

theorem load_spec_secondChance :
    ∃ h s, (loadMachine Nat .opening).play secondChance = some (h, s) ∧ s.res = some 7 ∧
      s.log.length = 10 ∧ s.pending.length ≤ 1 ∧ s.res = s.cached.map Prod.fst := by
  have hend : ((loadMachine Nat .opening).play secondChance).map
      (fun r => (r.2.res, r.2.log.length)) = some (some 7, 10) := by decide +kernel
  obtain ⟨⟨h, s⟩, hplay, hres⟩ := Option.map_eq_some_iff.1 hend
  obtain ⟨hres, hlength⟩ := Prod.mk.inj hres
  have hspec := load_spec .opening (run_of_play _ secondChance hplay)
  exact ⟨h, s, hplay, hres, hlength, hspec.1, hspec.2.2.1.1⟩

end Sessions

end Ads
end SpinVpn
