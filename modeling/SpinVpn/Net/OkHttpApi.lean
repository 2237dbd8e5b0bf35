import Mathlib.Data.List.Pairwise
import SpinVpn.Lib.Keyed
import SpinVpn.Lib.Machine

/-!
# OkHttpApi — cancelling requests

`OkHttpApi` (`net/OkHttpApi.kt`) stores every call for cancelling it.  It is stored under the tag of its
request, which is the parameter map of a `get`, the body of a `post` and nothing for a `postService`.
So a call whose tag comes again is no longer stored while it may still run, and neither
`cancelRequest` nor `cancelAllRequest` reaches it: they cancel what they promise exactly if no call in
flight has been followed by one with an equal tag (`cancels_iff_clear`).

`κ` are the tags, compared by `equals`, `υ` the urls and `φ` the form bodies.
-/

namespace SpinVpn
namespace Net

/-- What the client library and the tags do: parsing and printing. -/
structure Web (κ υ : Type) where
  /-- `String.toHttpUrl`; `none` is its `IllegalArgumentException` -/
  toHttpUrl : String → Option υ
  /-- `Request.Builder.url`, which takes the urls of web sockets too -/
  url : String → Option υ
  addEncodedQueryParameter : υ → String → String → υ
  /-- `URLEncoder.encode` in UTF-8 -/
  encode : String → String
  /-- the entries of a parameter map, the values as texts -/
  entries : κ → List (String × String)
  toText : κ → String

inductive RequestBody (φ : Type)
  | json (text : String)
  | form (body : φ)
  deriving DecidableEq, Repr

structure HttpRequest (κ υ φ : Type) where
  url : υ
  tag : Option κ := none
  /-- `none` for a `GET` -/
  body : Option (RequestBody φ) := none
  /-- `CacheControl.FORCE_NETWORK` -/
  forceNetwork : Bool := false
  deriving DecidableEq, Repr

/-- What comes of a call. -/
inductive HttpAnswer
  /-- `body` is `none` where reading it fails -/
  | response (code : Int) (message : String) (body : Option String)
  | failure (message : Option String)
  deriving DecidableEq, Repr

/-- What the callback is told. -/
inductive HttpReport
  | onSuccess (data : String)
  | onFailed (error : Option String)
  deriving DecidableEq, Repr

/-- `onFailure` and `onResponse` of the callback that all three requests enqueue. -/
def HttpAnswer.report : HttpAnswer → Option HttpReport
  | .response code message body =>
      if code = 200 then body.map .onSuccess else some (.onFailed (some message))
  | .failure message => some (.onFailed message)

structure HttpCall (κ υ φ : Type) where
  request : HttpRequest κ υ φ
  cancelled : Bool := false
  finished : Bool := false
  report : Option HttpReport := none
  deriving DecidableEq, Repr

namespace HttpCall

variable {κ υ φ : Type}

def tag (c : HttpCall κ υ φ) : Option κ :=
  c.request.tag

/-- The call is neither finished nor cancelled. -/
def isLive (c : HttpCall κ υ φ) : Bool :=
  !c.finished && !c.cancelled

def cancel (c : HttpCall κ υ φ) : HttpCall κ υ φ :=
  { c with cancelled := true }

def answered (answer : HttpAnswer) (c : HttpCall κ υ φ) : HttpCall κ υ φ :=
  { c with finished := true, report := answer.report }

end HttpCall

/-- Calls are known by their place in `calls`. -/
structure OkHttpApi (κ υ φ : Type) where
  calls : List (HttpCall κ υ φ) := []
  callMap : List (Option κ × Nat) := []
  deriving DecidableEq, Repr

namespace OkHttpApi

variable {κ υ φ : Type} [DecidableEq κ]

/-- `mClient.newCall(request)`, stored under the tag and enqueued. -/
def newCall (request : HttpRequest κ υ φ) (s : OkHttpApi κ υ φ) : OkHttpApi κ υ φ where
  calls := s.calls ++ [{ request := request }]
  callMap := Keyed.put request.tag s.calls.length s.callMap

def get (web : Web κ υ) (params : κ) (urlStr : String) (isUrlencoding : Bool)
    (s : OkHttpApi κ υ φ) : OkHttpApi κ υ φ :=
  match web.toHttpUrl urlStr with
  | none => s
  | some base =>
      let value := fun v => if isUrlencoding then web.encode v else v
      let url := (web.entries params).foldl
        (fun url entry => web.addEncodedQueryParameter url entry.1 (value entry.2)) base
      newCall { url := url, tag := some params, forceNetwork := true } s

def post (web : Web κ υ) (body : κ) (urlStr : String) (s : OkHttpApi κ υ φ) : OkHttpApi κ υ φ :=
  match web.url urlStr with
  | none => s
  | some url => newCall { url := url, tag := some body, body := some (.json (web.toText body)) } s

/-- A request without a tag. -/
def postService (web : Web κ υ) (requestBody : φ) (urlStr : String) (s : OkHttpApi κ υ φ) :
    OkHttpApi κ υ φ :=
  match web.url urlStr with
  | none => s
  | some url => newCall { url := url, body := some (.form requestBody) } s

/-- `callMap.get(key)?.cancel()` -/
def cancelKey (s : OkHttpApi κ υ φ) (key : Option κ) : OkHttpApi κ υ φ :=
  match Keyed.get key s.callMap with
  | none => s
  | some i => { s with calls := s.calls.modify i HttpCall.cancel }

def cancelRequest (tag : κ) (s : OkHttpApi κ υ φ) : OkHttpApi κ υ φ :=
  s.cancelKey (some tag)

def cancelAllRequest (s : OkHttpApi κ υ φ) : OkHttpApi κ υ φ :=
  (s.callMap.map Prod.fst).foldl cancelKey s

inductive Event (κ φ : Type)
  | get (params : κ) (urlStr : String) (isUrlencoding : Bool)
  | post (body : κ) (urlStr : String)
  | postService (requestBody : φ) (urlStr : String)
  | cancelRequest (tag : κ)
  | cancelAllRequest
  /-- the call `i` comes to its end -/
  | answered (i : Nat) (answer : HttpAnswer)
  deriving DecidableEq, Repr

def step (web : Web κ υ) (s : OkHttpApi κ υ φ) : Event κ φ → Option (OkHttpApi κ υ φ)
  | .get params urlStr isUrlencoding => some (s.get web params urlStr isUrlencoding)
  | .post body urlStr => some (s.post web body urlStr)
  | .postService requestBody urlStr => some (s.postService web requestBody urlStr)
  | .cancelRequest tag => some (s.cancelRequest tag)
  | .cancelAllRequest => some s.cancelAllRequest
  | .answered i answer =>
      match s.calls[i]? with
      | none => none
      | some c =>
          if c.finished then none
          else some { s with calls := s.calls.modify i (HttpCall.answered answer) }

def machine (web : Web κ υ) : EventMachine.Machine (OkHttpApi κ υ φ) (Event κ φ) where
  init := {}
  step := step web

/-! ## Which calls are cancelled -/

section Cancelling

variable {s : OkHttpApi κ υ φ}

/-- The calls are stored under the tags of their requests, under each tag the last one. -/
def Stored (s : OkHttpApi κ υ φ) : Prop :=
  Keyed.Latest s.callMap (s.calls.map HttpCall.tag)

theorem cancelKey_callMap (s : OkHttpApi κ υ φ) (key : Option κ) :
    (s.cancelKey key).callMap = s.callMap := by
  unfold cancelKey
  split <;> rfl

theorem cancelKey_getElem? (s : OkHttpApi κ υ φ) (key : Option κ) (i : Nat) :
    (s.cancelKey key).calls[i]? = s.calls[i]?.map (fun c =>
      if Keyed.get key s.callMap = some i then c.cancel else c) := by
  unfold cancelKey
  split
  · rename_i hnone
    simp [hnone]
  · rename_i j hj
    rw [List.getElem?_modify, hj]
    by_cases hi : j = i <;> simp [hi]

/-- The calls stored under the keys are cancelled, and nothing else changes. -/
theorem foldl_cancelKey (keys : List (Option κ)) :
    ∀ s : OkHttpApi κ υ φ, (keys.foldl cancelKey s).callMap = s.callMap ∧
      ∀ i, (keys.foldl cancelKey s).calls[i]? = s.calls[i]?.map (fun c =>
        if ∃ k ∈ keys, Keyed.get k s.callMap = some i then c.cancel else c) := by
  induction keys with
  | nil =>
      intro s
      simp
  | cons key keys ih =>
      intro s
      obtain ⟨hmap, hcalls⟩ := ih (s.cancelKey key)
      rw [cancelKey_callMap] at hmap hcalls
      refine ⟨hmap, fun i => ?_⟩
      rw [List.foldl_cons, hcalls i, cancelKey_getElem?, Option.map_map]
      congr 1
      funext c
      simp only [Function.comp_apply, List.mem_cons, exists_eq_or_imp]
      by_cases hkey : Keyed.get key s.callMap = some i
      · by_cases hlater : ∃ k ∈ keys, Keyed.get k s.callMap = some i
        · rw [if_pos hkey, if_pos hlater, if_pos (Or.inl hkey)]
          rfl
        · rw [if_pos hkey, if_neg hlater, if_pos (Or.inl hkey)]
      · simp only [hkey, if_false, false_or]

theorem stored_foldl_cancelKey (hs : Stored s) (keys : List (Option κ)) :
    Stored (keys.foldl cancelKey s) := by
  obtain ⟨hmap, hcalls⟩ := foldl_cancelKey keys s
  have htags : (keys.foldl cancelKey s).calls.map HttpCall.tag = s.calls.map HttpCall.tag := by
    refine List.ext_getElem? fun i => ?_
    rw [List.getElem?_map, hcalls i, List.getElem?_map, Option.map_map]
    congr 1
    funext c
    rw [Function.comp_apply]
    split <;> rfl
  rw [Stored, hmap, htags]
  exact hs

/-- No call with one of the keys is left in flight exactly if none in flight has a later call with its
own tag. -/
theorem foldl_cancelKey_iff (hs : Stored s) (keys : List (Option κ)) :
    (∀ c ∈ (keys.foldl cancelKey s).calls, c.tag ∈ keys → c.isLive = false) ↔
      s.calls.Pairwise (fun c d => c.isLive = true → c.tag ∈ keys → d.tag ≠ c.tag) := by
  obtain ⟨-, hcalls⟩ := foldl_cancelKey keys s
  rw [List.pairwise_iff_getElem]
  constructor
  · intro hnone i j hi hj hij hlive hkey hsame
    -- the call `i` is not stored any more, so it is where it was
    have hkept : (keys.foldl cancelKey s).calls[i]? = some s.calls[i] := by
      rw [hcalls i, List.getElem?_eq_getElem hi, Option.map_some, if_neg]
      rintro ⟨k, -, hget⟩
      obtain ⟨htag, hlater⟩ := (hs.get_iff k i).1 hget
      rw [List.getElem?_map, List.getElem?_eq_getElem hi, Option.map_some, Option.some.injEq] at htag
      refine hlater j hij ?_
      rw [List.getElem?_map, List.getElem?_eq_getElem hj, Option.map_some, hsame, htag]
    have hdead := hnone _ (List.mem_of_getElem? hkept) hkey
    rw [hlive] at hdead
    cases hdead
  · intro hclear c hc hkey
    obtain ⟨i, hi⟩ := List.getElem?_of_mem hc
    rw [hcalls i, Option.map_eq_some_iff] at hi
    obtain ⟨c₀, hc₀, rfl⟩ := hi
    split
    · simp [HttpCall.isLive, HttpCall.cancel]
    · rename_i hkept
      rw [if_neg hkept] at hkey
      by_contra hlive
      obtain ⟨hi, rfl⟩ := List.getElem?_eq_some_iff.1 hc₀
      refine hkept ⟨_, hkey, (hs.get_iff _ i).2 ⟨?_, fun j hij hj => ?_⟩⟩
      · rw [List.getElem?_map, hc₀, Option.map_some]
      · rw [List.getElem?_map, Option.map_eq_some_iff] at hj
        obtain ⟨d, hd, hsame⟩ := hj
        obtain ⟨hj, rfl⟩ := List.getElem?_eq_some_iff.1 hd
        exact hclear i j hi hj hij (by simpa using hlive) hkey hsame

end Cancelling

/-! ## Runs -/

section Runs

variable {web : Web κ υ} {s t : OkHttpApi κ υ φ}

theorem stored_newCall (hs : Stored s) (request : HttpRequest κ υ φ) : Stored (newCall request s) := by
  have hput := Keyed.Latest.put hs request.tag
  rw [List.length_map] at hput
  have htags : (newCall request s).calls.map HttpCall.tag =
      s.calls.map HttpCall.tag ++ [request.tag] := by
    rw [newCall, List.map_append]
    rfl
  rw [Stored, htags]
  exact hput

theorem stored_step {e : Event κ φ} (hs : Stored s) (hst : step web s e = some t) : Stored t := by
  cases e with
  | get params urlStr isUrlencoding =>
      cases hst
      unfold get
      split
      · exact hs
      · exact stored_newCall hs _
  | post body urlStr =>
      cases hst
      unfold post
      split
      · exact hs
      · exact stored_newCall hs _
  | postService requestBody urlStr =>
      cases hst
      unfold postService
      split
      · exact hs
      · exact stored_newCall hs _
  | cancelRequest tag =>
      cases hst
      exact stored_foldl_cancelKey hs [some tag]
  | cancelAllRequest =>
      cases hst
      exact stored_foldl_cancelKey hs _
  | answered i answer =>
      simp only [step] at hst
      split at hst
      · cases hst
      · rw [Option.ite_none_left_eq_some, Option.some.injEq] at hst
        obtain ⟨-, rfl⟩ := hst
        have htags : (s.calls.modify i (HttpCall.answered answer)).map HttpCall.tag =
            s.calls.map HttpCall.tag := by
          refine List.ext_getElem? fun j => ?_
          rw [List.getElem?_map, List.getElem?_modify, Option.map_eq_map, List.getElem?_map,
            Option.map_map]
          congr 1
          funext c
          rw [Function.comp_apply]
          split <;> rfl
        rw [Stored, htags]
        exact hs

/-- After the step every call that was to be cancelled is over: with `cancelRequest` those with the
tag, with `cancelAllRequest` all of them. -/
def Cancels (t : OkHttpApi κ υ φ) : Event κ φ → Prop
  | .cancelRequest tag => ∀ c ∈ t.calls, c.tag = some tag → c.isLive = false
  | .cancelAllRequest => ∀ c ∈ t.calls, c.isLive = false
  | _ => True

/-- No call in flight that is to be cancelled has been followed by one with an equal tag. -/
def Clear (s : OkHttpApi κ υ φ) : Event κ φ → Prop
  | .cancelRequest tag =>
      s.calls.Pairwise (fun c d => c.isLive = true → c.tag = some tag → d.tag ≠ some tag)
  | .cancelAllRequest => s.calls.Pairwise (fun c d => c.isLive = true → d.tag ≠ c.tag)
  | _ => True

theorem cancels_cancelRequest_iff (hs : Stored s) (tag : κ) :
    Cancels (s.cancelRequest tag) (.cancelRequest tag : Event κ φ) ↔
      Clear s (.cancelRequest tag : Event κ φ) := by
  have hkeys := foldl_cancelKey_iff hs [some tag]
  simp only [List.mem_singleton] at hkeys
  refine hkeys.trans (List.Pairwise.iff fun {c d} => ?_)
  constructor
  · intro h hlive htag hsame
    exact h hlive htag (hsame.trans htag.symm)
  · intro h hlive htag hsame
    exact h hlive htag (hsame.trans htag)

theorem cancels_cancelAllRequest_iff (hs : Stored s) :
    Cancels s.cancelAllRequest (.cancelAllRequest : Event κ φ) ↔
      Clear s (.cancelAllRequest : Event κ φ) := by
  -- every call is stored under some key
  have hall : ∀ u : OkHttpApi κ υ φ, Stored u → ∀ c ∈ u.calls, c.tag ∈ u.callMap.map Prod.fst :=
    fun u hu c hc => (hu.mem_keys c.tag).2 (List.mem_map_of_mem hc)
  have hafter := hall _ (stored_foldl_cancelKey hs (s.callMap.map Prod.fst))
  rw [(foldl_cancelKey (s.callMap.map Prod.fst) s).1] at hafter
  have hkeys := foldl_cancelKey_iff hs (s.callMap.map Prod.fst)
  calc Cancels s.cancelAllRequest (.cancelAllRequest : Event κ φ)
      ↔ ∀ c ∈ s.cancelAllRequest.calls, c.tag ∈ s.callMap.map Prod.fst → c.isLive = false :=
        forall₂_congr fun c hc => (imp_iff_right (hafter c hc)).symm
    _ ↔ s.calls.Pairwise (fun c d : HttpCall κ υ φ =>
          c.isLive = true → c.tag ∈ s.callMap.map Prod.fst → d.tag ≠ c.tag) := hkeys
    _ ↔ Clear s (.cancelAllRequest : Event κ φ) := by
        refine List.Pairwise.iff_of_mem fun {c d} hc _ => ?_
        exact imp_congr_right fun _ => imp_iff_right (hall s hs c hc)

/-- Along a run all cancelling does what it promises exactly if no call in flight that is to be
cancelled has been followed by one with an equal tag. -/
theorem cancels_iff_clear {h : List (OkHttpApi κ υ φ × Event κ φ)}
    (hrun : EventMachine.Run (machine web) h s) :
    (∀ p ∈ h, ∀ t, step web p.1 p.2 = some t → Cancels t p.2) ↔ ∀ p ∈ h, Clear p.1 p.2 := by
  refine forall₂_congr fun p hp => ?_
  obtain ⟨s, e⟩ := p
  have hkeep : ∀ s (e : Event κ φ) t, Stored s → True → (machine web).step s e = some t → Stored t :=
    fun _ _ _ hs _ hst => stored_step hs hst
  have hs : Stored s := hrun.invariant_of_mem Keyed.Latest.nil hkeep (fun _ _ => trivial) hp
  obtain ⟨t, hst, -⟩ := hrun.succ_of_mem hp
  have hnext : (∀ t, step web s e = some t → Cancels t e) ↔ Cancels t e := by
    constructor
    · intro h
      exact h t hst
    · intro h t' hst'
      have hsame : t' = t := Option.some.inj (hst'.symm.trans hst)
      rwa [hsame]
  rw [hnext]
  cases e with
  | cancelRequest tag =>
      cases hst
      exact cancels_cancelRequest_iff hs tag
  | cancelAllRequest =>
      cases hst
      exact cancels_cancelAllRequest_iff hs
  | _ => exact Iff.rfl

end Runs

/-! ## Asking for the address twice -/

/-- Urls that are well formed and texts that need no encoding. -/
def plainWeb : Web (List (String × String)) String where
  toHttpUrl := some
  url := some
  addEncodedQueryParameter := fun url name value => url ++ name ++ "=" ++ value
  encode := fun v => v
  entries := fun params => params
  toText := fun _ => ""

/-- `getCurrentIp`, twice, and then all is cancelled, by the tag and altogether. -/
def currentIpTwice : List (Event (List (String × String)) Unit) :=
  [.get [] "https://ifconfig.me/ip" false, .get [] "https://ifconfig.me/ip" false, .cancelRequest [],
    .cancelAllRequest]

/-- The first of the two calls is still in flight. -/
theorem currentIpTwice_live :
    ∃ h s, EventMachine.Run (machine plainWeb) h s ∧ h.map Prod.snd = currentIpTwice ∧
      s.calls.map HttpCall.isLive = [true, false] ∧ s.calls.map HttpCall.tag = [some [], some []] :=
  ⟨_, _, EventMachine.run_of_play (machine plainWeb) currentIpTwice rfl, rfl, rfl, rfl⟩

/-- `getCurrentIp` once and the question for the blacklist, whose parameters are others. -/
def cancelledApart : List (Event (List (String × String)) Unit) :=
  [.get [] "https://ifconfig.me/ip" false,
    .get [("gannett", "rinse")] "https://leslie.securesuper.net/thousand/anodic/donna" true,
    .cancelAllRequest]

theorem cancelledApart_cancels :
    ∃ h s, (machine plainWeb).play cancelledApart = some (h, s) ∧
      ∀ p ∈ h, ∀ t, step plainWeb p.1 p.2 = some t → Cancels t p.2 := by
  refine ⟨_, _, rfl, ?_⟩
  refine (cancels_iff_clear (EventMachine.run_of_play (machine plainWeb) cancelledApart rfl)).2 ?_
  intro p hp
  simp only [List.mem_append, List.mem_singleton, List.not_mem_nil, false_or] at hp
  rcases hp with (rfl | rfl) | rfl
  · exact trivial
  · exact trivial
  · change List.Pairwise (fun c d => HttpCall.isLive c = true → HttpCall.tag d ≠ HttpCall.tag c) _
    decide

end OkHttpApi

end Net
end SpinVpn
