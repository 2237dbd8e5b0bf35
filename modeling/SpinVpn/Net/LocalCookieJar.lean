import SpinVpn.Lib.Keyed

/-!
# LocalCookieJar — the cookies of the HTTP client

`LocalCookieJar` (`net/LocalCookieJar.kt`) appends every cookie that a response sets to one list.
A request gets the cookies of the list that have not expired and match its url, and those that have
expired are taken out of the list.

A server replaces or deletes a cookie by setting another one of the same name, domain and path.  The
list keeps both, so a request gets the right cookies exactly if no earlier one of them is still
valid for it (`loadForRequest_iff`).
-/

namespace SpinVpn
namespace Net

/-! ## Cookies -/

/-- `okhttp3.Cookie`, which is compared by all of its fields. -/
structure Cookie where
  name : String
  value : String
  expiresAt : Int
  domain : String
  path : String
  secure : Bool := false
  httpOnly : Bool := false
  persistent : Bool := true
  hostOnly : Bool := true
  deriving DecidableEq, Repr

/-- What a server names a cookie by. -/
def Cookie.identity (c : Cookie) : String × String × String :=
  (c.name, c.domain, c.path)

/-- A cookie that was handed to the jar, and how many were before it. -/
structure Saved where
  cookie : Cookie
  serial : Nat
  deriving DecidableEq, Repr

structure LocalCookieJar where
  cache : List Saved := []
  /-- every cookie that was ever saved, which the code has no list of -/
  saved : List Saved := []
  deriving DecidableEq, Repr

/-- The clock at each turn of the loop, by the cookie that the turn looks at. -/
abbrev Clock : Type :=
  Nat → Int

namespace LocalCookieJar

section Calls

variable {υ : Type} (pertains : Cookie → υ → Bool)

def saveFromResponse (cookies : List Cookie) (jar : LocalCookieJar) : LocalCookieJar :=
  let added := cookies.mapIdx (fun i cookie => ⟨cookie, jar.saved.length + i⟩)
  { cache := jar.cache ++ added
    saved := jar.saved ++ added }

/-- The loop of `loadForRequest` over the cache, with `invalidCookies` and `validCookies`.
`pertains` is `Cookie.matches`. -/
def sortOut (url : υ) (now : Clock) : List Saved → List Cookie × List Cookie
  | [] => ([], [])
  | s :: cache =>
      let r := sortOut url now cache
      if s.cookie.expiresAt < now s.serial then (s.cookie :: r.1, r.2)
      else if pertains s.cookie url then (r.1, s.cookie :: r.2)
      else r

def loadForRequest (url : υ) (now : Clock) (jar : LocalCookieJar) : LocalCookieJar × List Cookie :=
  let r := sortOut pertains url now jar.cache
  -- `removeAll` takes out every cookie that equals one of them
  ({ jar with cache := jar.cache.filter (fun s => s.cookie ∉ r.1) }, r.2)

end Calls

end LocalCookieJar

inductive JarCall (υ : Type)
  | saveFromResponse (cookies : List Cookie)
  | loadForRequest (url : υ) (now : Clock)

def JarCall.clock? {υ : Type} : JarCall υ → Option Clock
  | .saveFromResponse _ => none
  | .loadForRequest _ now => some now

namespace LocalCookieJar

section Runs

variable {υ : Type} (pertains : Cookie → υ → Bool)

def call (jar : LocalCookieJar) : JarCall υ → LocalCookieJar
  | .saveFromResponse cookies => jar.saveFromResponse cookies
  | .loadForRequest url now => (jar.loadForRequest pertains url now).1

/-- The jar after some calls. -/
def after (calls : List (JarCall υ)) : LocalCookieJar :=
  calls.foldl (call pertains) {}

end Runs

/-- The cookies of an identity in the order in which they were saved. -/
def versions (jar : LocalCookieJar) (identity : String × String × String) : List Saved :=
  jar.saved.filter (fun s => s.cookie.identity = identity)

end LocalCookieJar

/-- The clock does not go back from one call to the next. -/
def ClockForward {υ : Type} (calls : List (JarCall υ)) : Prop :=
  (calls.filterMap JarCall.clock?).Pairwise (fun earlier later => ∀ m n, earlier m ≤ later n)

/-! ## What a request gets -/

namespace Saved

/-- It has not expired when the loop looks at it. -/
def alive (now : Clock) (s : Saved) : Bool :=
  !(decide (s.cookie.expiresAt < now s.serial))

/-- A request gets the cookie. -/
def valid {υ : Type} (pertains : Cookie → υ → Bool) (url : υ) (now : Clock) (s : Saved) : Bool :=
  s.alive now && pertains s.cookie url

end Saved

namespace LocalCookieJar

section Reads

variable {υ : Type} {pertains : Cookie → υ → Bool} {url : υ} {now : Clock}

theorem sortOut_eq (cache : List Saved) :
    sortOut pertains url now cache =
      ((cache.filter (fun s => !s.alive now)).map Saved.cookie,
        (cache.filter (Saved.valid pertains url now)).map Saved.cookie) := by
  induction cache with
  | nil => rfl
  | cons s cache ih =>
      by_cases hexpired : s.cookie.expiresAt < now s.serial
      · simp [sortOut, ih, Saved.valid, Saved.alive, hexpired]
      · by_cases hpertains : pertains s.cookie url = true
        · simp [sortOut, ih, Saved.valid, Saved.alive, hexpired, hpertains]
        · simp [sortOut, ih, Saved.valid, Saved.alive, hexpired, hpertains]

/-- What expired at one call has expired at every later one. -/
theorem alive_of_le {now later : Clock} (hle : ∀ m n, now m ≤ later n) {s s' : Saved}
    (heq : s.cookie = s'.cookie) (halive : s.alive later = true) : s'.alive now = true := by
  have hlater : ¬ s.cookie.expiresAt < later s.serial := by simpa [Saved.alive] using halive
  have hnow : ¬ s'.cookie.expiresAt < now s'.serial := by
    have h := hle s'.serial s.serial
    rw [← heq]
    omega
  simpa [Saved.alive] using hnow

/-- The jar has all that was saved and can be valid for a request from now on. -/
def Complete (jar : LocalCookieJar) (past : List Clock) : Prop :=
  ∀ later, (∀ now ∈ past, ∀ m n, now m ≤ later n) →
    jar.cache.filter (Saved.alive later) = jar.saved.filter (Saved.alive later)

theorem Complete.saveFromResponse {jar : LocalCookieJar} {past : List Clock} (h : jar.Complete past)
    (cookies : List Cookie) : (jar.saveFromResponse cookies).Complete past := by
  intro later hlater
  rw [LocalCookieJar.saveFromResponse, List.filter_append, List.filter_append, h later hlater]

theorem Complete.loadForRequest {jar : LocalCookieJar} {past : List Clock} (h : jar.Complete past) :
    (jar.loadForRequest pertains url now).1.Complete (past ++ [now]) := by
  intro later hlater
  have hpast : ∀ now ∈ past, ∀ m n, now m ≤ later n :=
    fun now hnow => hlater now (List.mem_append_left _ hnow)
  have hnow := hlater now (List.mem_append_right _ (List.mem_singleton_self _))
  change _ = jar.saved.filter (Saved.alive later)
  rw [← h later hpast]
  simp only [LocalCookieJar.loadForRequest, sortOut_eq, List.filter_filter]
  apply List.filter_congr
  intro s _
  cases halive : s.alive later with
  | false => rfl
  | true =>
      -- no cookie that equals a live one is taken out
      have hkept : s.cookie ∉ (jar.cache.filter (fun s => !s.alive now)).map Saved.cookie := by
        intro hmem
        obtain ⟨s', hs', heq⟩ := List.mem_map.1 hmem
        have hexpired := (List.mem_filter.1 hs').2
        rw [alive_of_le hnow heq.symm halive] at hexpired
        cases hexpired
      simp [hkept]

end Reads

section Machine

variable {υ : Type} (pertains : Cookie → υ → Bool)

theorem complete_after (calls : List (JarCall υ)) :
    (after pertains calls).Complete (calls.filterMap JarCall.clock?) := by
  induction calls using List.reverseRecOn with
  | nil =>
      intro later _
      rfl
  | append_singleton calls c ih =>
      rw [after, List.foldl_append, List.filterMap_append]
      cases c with
      | saveFromResponse cookies =>
          have hkept := ih.saveFromResponse cookies
          rwa [← List.append_nil (calls.filterMap _)] at hkept
      | loadForRequest url now =>
          exact ih.loadForRequest

/-- A request gets every cookie that was ever saved and is valid for it. -/
theorem loadForRequest_eq (before : List (JarCall υ)) (url : υ) (now : Clock)
    (hclock : ClockForward (before ++ [.loadForRequest url now])) :
    ((after pertains before).loadForRequest pertains url now).2 =
      ((after pertains before).saved.filter (Saved.valid pertains url now)).map Saved.cookie := by
  have hpast : ∀ past ∈ before.filterMap JarCall.clock?, ∀ m n, past m ≤ now n := by
    intro past hmem
    rw [ClockForward, List.filterMap_append] at hclock
    exact (List.pairwise_append.1 hclock).2.2 past hmem now (List.mem_singleton_self _)
  have hfilter : ∀ l : List Saved, l.filter (Saved.valid pertains url now) =
      (l.filter (Saved.alive now)).filter (fun s => pertains s.cookie url) := by
    intro l
    rw [List.filter_filter]
    apply List.filter_congr
    intro s _
    exact Bool.and_comm _ _
  have hcomplete := complete_after pertains before now hpast
  calc
    ((after pertains before).loadForRequest pertains url now).2
        = ((after pertains before).cache.filter (Saved.valid pertains url now)).map Saved.cookie := by
          rw [loadForRequest, sortOut_eq]
    _ = ((after pertains before).saved.filter (Saved.valid pertains url now)).map Saved.cookie := by
          rw [hfilter, hcomplete, ← hfilter]

/-- After any calls, a request gets of each identity the cookie that was saved last, if it is valid,
and nothing else, exactly if none that was saved before it under the same identity is valid. -/
theorem loadForRequest_iff (before : List (JarCall υ)) (url : υ) (now : Clock)
    (hclock : ClockForward (before ++ [.loadForRequest url now])) :
    (∀ identity, ((after pertains before).loadForRequest pertains url now).2.filter
          (fun cookie => cookie.identity = identity) =
        (((after pertains before).versions identity).getLast?.toList.filter
          (Saved.valid pertains url now)).map Saved.cookie) ↔
      ∀ identity, ∀ s ∈ ((after pertains before).versions identity).dropLast,
        s.cookie.expiresAt < now s.serial ∨ pertains s.cookie url = false := by
  apply forall_congr'
  intro identity
  have hversions : (((after pertains before).saved.filter (Saved.valid pertains url now)).map
      Saved.cookie).filter (fun cookie => cookie.identity = identity) =
      (((after pertains before).versions identity).filter (Saved.valid pertains url now)).map
        Saved.cookie := by
    rw [List.filter_map, versions, List.filter_filter, List.filter_filter]
    apply congrArg (List.map Saved.cookie)
    apply List.filter_congr
    intro s _
    exact Bool.and_comm _ _
  have hinvalid : ∀ s : Saved, s.valid pertains url now = false ↔
      s.cookie.expiresAt < now s.serial ∨ pertains s.cookie url = false := by
    intro s
    rw [Saved.valid, Saved.alive, Bool.and_eq_false_iff, Bool.not_eq_false', decide_eq_true_iff]
  rw [loadForRequest_eq pertains before url now hclock, hversions, Keyed.map_filter_eq_last_iff]
  apply forall₂_congr
  intro s _
  exact hinvalid s

end Machine

/-! ## A cookie that is set twice -/

/-- What `Cookie.matches` looks at. -/
structure HttpUrl where
  host : String
  path : String
  isHttps : Bool
  deriving DecidableEq, Repr

/-- `Cookie.matches` of a cookie for one host, at its own path. -/
def hostOnly (cookie : Cookie) (url : HttpUrl) : Bool :=
  url.host = cookie.domain && url.path = cookie.path && (!cookie.secure || url.isHttps)

def home : HttpUrl where
  host := "example.test"
  path := "/"
  isHttps := true

def session (value : String) (expiresAt : Int) : Cookie where
  name := "session"
  value := value
  expiresAt := expiresAt
  domain := "example.test"
  path := "/"

/-- The server sets the cookie, and sets it again. -/
def setTwice (expiresAt : Int) : List (JarCall HttpUrl) :=
  [.saveFromResponse [session "1" expiresAt], .saveFromResponse [session "2" 2000]]

theorem clockForward_setTwice (expiresAt now : Int) :
    ClockForward (setTwice expiresAt ++ [.loadForRequest home (fun _ => now)]) :=
  List.pairwise_singleton _ _

theorem loadForRequest_iff_setTwice :
    ClockForward (setTwice 10 ++ [.loadForRequest home (fun _ => 20)]) ∧
      ∀ identity, ((after hostOnly (setTwice 10)).loadForRequest hostOnly home (fun _ => 20)).2.filter
          (fun cookie => cookie.identity = identity) =
        (((after hostOnly (setTwice 10)).versions identity).getLast?.toList.filter
          (Saved.valid hostOnly home (fun _ => 20))).map Saved.cookie := by
  refine ⟨clockForward_setTwice 10 20, ?_⟩
  refine (loadForRequest_iff hostOnly (setTwice 10) home (fun _ => 20)
    (clockForward_setTwice 10 20)).2 ?_
  intro identity s hs
  -- the first of the two has expired
  have hsaved : (after hostOnly (setTwice 10)).saved =
      [⟨session "1" 10, 0⟩, ⟨session "2" 2000, 1⟩] := rfl
  have hfirst : s = ⟨session "1" 10, 0⟩ := by
    rw [versions, hsaved] at hs
    by_cases hidentity : ("session", "example.test", "/") = identity
    · simpa [Cookie.identity, session, hidentity] using hs
    · simp [Cookie.identity, session, hidentity] at hs
  rw [hfirst]
  exact Or.inl (by decide)

/-- Both of them are sent. -/
theorem setTwice_sent :
    ClockForward (setTwice 1000 ++ [.loadForRequest home (fun _ => 20)]) ∧
      ((after hostOnly (setTwice 1000)).loadForRequest hostOnly home (fun _ => 20)).2 =
        [session "1" 1000, session "2" 2000] ∧
      ¬ ∀ identity, ((after hostOnly (setTwice 1000)).loadForRequest hostOnly home (fun _ => 20)).2.filter
          (fun cookie => cookie.identity = identity) =
        (((after hostOnly (setTwice 1000)).versions identity).getLast?.toList.filter
          (Saved.valid hostOnly home (fun _ => 20))).map Saved.cookie := by
  refine ⟨clockForward_setTwice 1000 20, by decide, ?_⟩
  intro h
  exact absurd (h ("session", "example.test", "/")) (by decide)

end LocalCookieJar

end Net
end SpinVpn
