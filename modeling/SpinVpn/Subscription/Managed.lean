import Mathlib.Data.List.Basic
import SpinVpn.Subscription.Calls

/-!
# Managed — the managed profiles after a refresh

A refresh keeps the user's profiles and leaves at most one managed profile for each key.  That
profile should be Active if a document gives its key and Obsolete otherwise.

It is Active exactly if `create` was called for the key (`marked_run`).  `create` is called for every
main entry, but for a fallback only if no stored profile serves it: a fallback that is found is
linked to, and an old managed profile with its key stays Obsolete although it is still given.
-/

namespace SpinVpn
namespace Subscription

open Database EventMachine

variable {t : Table} {s : Refresh}

/-! ## What the documents give -/

def mainKeys (documents : List (List Entry)) : List Key :=
  documents.flatten.map (fun e => keyOf e.1)

def fallbackKeys (documents : List (List Entry)) : List Key :=
  documents.flatten.filterMap (fun e => e.2.map keyOf)

/-- A document gives the key, as a main entry or as a fallback. -/
def Given (documents : List (List Entry)) (k : Key) : Prop :=
  k ∈ mainKeys documents ∨ k ∈ fallbackKeys documents

/-- What a refresh is to leave of table `t`. -/
structure Settled (t : Table) (documents : List (List Entry)) (t' : Table) : Prop where
  unique : ((t'.rows.filter isManaged).map keyOf).Nodup
  active : ∀ p ∈ t'.rows, isManaged p = true → Given documents (keyOf p) →
    p.subscription = .active
  obsolete : ∀ p ∈ t'.rows, isManaged p = true → ¬ Given documents (keyOf p) →
    p.subscription = .obsolete
  user : ∀ p ∈ t.rows, p.subscription = .userConfigured → p ∈ t'.rows

/-! ## The keys that are created -/

def Call.createdKey : Call → Option Key
  | .create it => some (keyOf it)
  | .link _ _ => none

def created (calls : List Call) : List Key :=
  calls.filterMap Call.createdKey

theorem created_append (calls calls' : List Call) :
    created (calls ++ calls') = created calls ++ created calls' :=
  List.filterMap_append

/-- The objects after a list of calls: which there are and which of them are Active. -/
structure Marked (s₀ : Refresh) (calls : List Call) (s : Refresh) : Prop where
  active : ∀ o ∈ s.subscriptions, o.subscription = .active ↔ keyOf o ∈ created calls
  keys : ∀ k, k ∈ s.subscriptions.map keyOf ↔
    k ∈ s₀.subscriptions.map keyOf ∨ k ∈ created calls

theorem active_effect_create {ids : Key → Int} {it o : Profile} (hman : isManaged o = true) :
    (effect ids (.create it) o).subscription = .active ↔
      o.subscription = .active ∨ keyOf it = keyOf o := by
  simp only [effect]
  rcases managed_cases hman with hact | hobs
  · simp [hact]
  · by_cases hk : keyOf it = keyOf o
    · simp [hk, hobs, promote]
    · simp [hk, hobs]

theorem active_effect_link {ids : Key → Int} {key : Key} {target : Target} (o : Profile) :
    (effect ids (.link key target) o).subscription = o.subscription := by
  simp only [effect]
  split <;> rfl

theorem mem_fresh_create {o it : Profile} (ho : o ∈ fresh s (.create it)) :
    o = newObject s.table it := by
  simp only [fresh] at ho
  split at ho
  · exact List.mem_singleton.1 ho
  · cases ho

/-- A call adds the key it creates, unless it is there already. -/
theorem keys_step {s s' : Refresh} {c : Call} (hinv : Inv t s)
    (hobj : s'.subscriptions = s.subscriptions.map (effect (idOf s) c) ++ fresh s c) (k : Key) :
    k ∈ s'.subscriptions.map keyOf ↔ k ∈ s.subscriptions.map keyOf ∨ k ∈ created [c] := by
  have hkeys : (s.subscriptions.map (effect (idOf s) c)).map keyOf = s.subscriptions.map keyOf := by
    rw [List.map_map]
    exact List.map_congr_left (fun o _ => keyOf_effect _ _ o)
  rw [hobj, List.map_append, hkeys, List.mem_append]
  cases c with
  | link key target => simp [fresh, created, Call.createdKey]
  | create it =>
      have hcreated : created [.create it] = [keyOf it] := rfl
      rw [hcreated, List.mem_singleton]
      cases hfind : find s (keyOf it) with
      | none =>
          have hnew : fresh s (.create it) = [newObject s.table it] := by simp [fresh, hfind]
          rw [hnew, List.map_singleton, keyOf_newObject, List.mem_singleton]
      | some o =>
          have ho := hinv.find_iff.1 hfind
          have hmem : keyOf it ∈ s.subscriptions.map keyOf :=
            ho.2 ▸ List.mem_map_of_mem ho.1
          constructor
          · intro hk
            exact Or.inl (hk.resolve_right (by simp [fresh, hfind]))
          · rintro (hk | rfl)
            · exact Or.inl hk
            · exact Or.inl hmem

theorem marked_step {s₀ s s' : Refresh} {calls : List Call} {c : Call} (h : Marked s₀ calls s)
    (hinv : Inv t s)
    (hobj : s'.subscriptions = s.subscriptions.map (effect (idOf s) c) ++ fresh s c) :
    Marked s₀ (calls ++ [c]) s' := by
  constructor
  · intro o ho
    rw [hobj] at ho
    rw [created_append, List.mem_append]
    cases c with
    | create it =>
        have hcreated : created [.create it] = [keyOf it] := rfl
        rw [hcreated, List.mem_singleton]
        rcases List.mem_append.1 ho with hold | hnew
        · rcases List.mem_map.1 hold with ⟨q, hq, rfl⟩
          rw [active_effect_create (hinv.managed q hq), h.active q hq, keyOf_effect,
            eq_comm (a := keyOf q)]
        · rw [mem_fresh_create hnew]
          exact iff_of_true rfl (Or.inr rfl)
    | link key target =>
        have hcreated : created [.link key target] = [] := rfl
        rcases List.mem_append.1 ho with hold | hnew
        · rcases List.mem_map.1 hold with ⟨q, hq, rfl⟩
          simp [active_effect_link, h.active q hq, keyOf_effect, hcreated]
        · cases hnew
  · intro k
    calc
      k ∈ s'.subscriptions.map keyOf ↔ k ∈ s.subscriptions.map keyOf ∨ k ∈ created [c] :=
        keys_step hinv hobj k
      _ ↔ (k ∈ s₀.subscriptions.map keyOf ∨ k ∈ created calls) ∨ k ∈ created [c] := by rw [h.keys]
      _ ↔ k ∈ s₀.subscriptions.map keyOf ∨ k ∈ created (calls ++ [c]) := by
        rw [created_append, List.mem_append, or_assoc]

/-- After any run of enabled calls the Active objects are the created ones. -/
theorem marked_run {s₀ : Refresh} {h : List (Refresh × Call)} (hrun : Run (callMachine s₀) h s)
    (hall : ∀ p ∈ h, Proper t p) (hobs : ∀ o ∈ s₀.subscriptions, o.subscription = .obsolete) :
    Marked s₀ (h.map Prod.snd) s := by
  induction hrun with
  | nil =>
      constructor
      · intro o ho
        simp [hobs o ho, created]
      · intro k
        simp [callMachine, created]
  | snoc hrun hstep ih =>
      rename_i h s s' c
      have hpre := ih (fun p hp => hall p (List.mem_append_left _ hp))
      have hlast : Proper t (s, c) := hall _ (List.mem_append_right _ (List.mem_singleton_self _))
      rcases hlast.step hstep with ⟨_, hobj, _⟩
      simpa using marked_step hpre hlast.1 hobj

/-! ## The look-ups decide which fallbacks are created -/

theorem mem_created_fallbackCalls {e : Key × Profile} {found : Option Int} {k : Key} :
    k ∈ created (fallbackCalls e found) ↔ keyOf e.2 = k ∧ found = none := by
  cases found with
  | none => simp [fallbackCalls, created, Call.createdKey, eq_comm]
  | some id => simp [fallbackCalls, created, Call.createdKey]

theorem created_flatten (calls : List (List Call)) :
    created calls.flatten = (calls.map created).flatten := by
  induction calls with
  | nil => rfl
  | cons c calls ih =>
      calc
        created (c :: calls).flatten = created c ++ created calls.flatten := created_append _ _
        _ = created c ++ (calls.map created).flatten := by rw [ih]
        _ = ((c :: calls).map created).flatten := rfl

theorem mem_created_docCalls {entries : List Entry} {k : Key} :
    k ∈ created (docCalls entries (found s entries)) ↔
      k ∈ entries.map (fun e => keyOf e.1) ∨
        ∃ l ∈ lookups s entries, keyOf l.1 = k ∧ l.2 = none := by
  have hmains : created (entries.map (fun e => Call.create e.1)) =
      entries.map (fun e => keyOf e.1) := by
    rw [created, List.filterMap_map]
    exact congrFun (List.filterMap_eq_map (f := fun e : Entry => keyOf e.1)) entries
  rw [docCalls_found, created_append, hmains, List.mem_append, created_flatten, List.map_map]
  refine or_congr_right ?_
  simp only [List.mem_flatten, List.mem_map, Function.comp_apply, lookups]
  constructor
  · rintro ⟨l, ⟨e, he, rfl⟩, hk⟩
    rcases mem_created_fallbackCalls.1 hk with ⟨hkey, hnone⟩
    exact ⟨_, ⟨e, he, rfl⟩, hkey, by simpa using hnone⟩
  · rintro ⟨l, ⟨e, he, rfl⟩, hkey, hnone⟩
    refine ⟨_, ⟨e, he, rfl⟩, mem_created_fallbackCalls.2 ⟨hkey, ?_⟩⟩
    simpa using hnone

theorem mem_created_callsOf (documents : List (List Entry)) :
    ∀ {s : Refresh} {k : Key}, k ∈ created (callsOf documents (foundAll s documents)) ↔
      k ∈ mainKeys documents ∨ ∃ l ∈ lookupsAll s documents, keyOf l.1 = k ∧ l.2 = none := by
  induction documents with
  | nil =>
      intro s k
      simp [callsOf, created, mainKeys, lookupsAll]
  | cons entries documents ih =>
      intro s k
      have hsplit : callsOf (entries :: documents) (foundAll s (entries :: documents)) =
          docCalls entries (found s entries) ++
            callsOf documents (foundAll (afterDoc s entries) documents) := rfl
      rw [hsplit, created_append, List.mem_append, mem_created_docCalls, ih]
      simp only [mainKeys, lookupsAll, List.flatten_cons, List.map_append, List.mem_append,
        or_and_right, exists_or]
      exact or_or_or_comm

/-- A fallback that is looked up is given. -/
theorem lookup_given (documents : List (List Entry)) :
    ∀ {s : Refresh} {l : Profile × Option Profile}, l ∈ lookupsAll s documents →
      keyOf l.1 ∈ fallbackKeys documents := by
  induction documents with
  | nil =>
      intro s l hl
      cases hl
  | cons entries documents ih =>
      intro s l hl
      rw [fallbackKeys, List.flatten_cons, List.filterMap_append, List.mem_append]
      rcases List.mem_append.1 hl with hfirst | hrest
      · rcases List.mem_map.1 hfirst with ⟨e, he, rfl⟩
        rcases List.mem_map.1 (mem_linkedOf he).2 with ⟨x, hx, hxe⟩
        exact Or.inl (List.mem_filterMap.2 ⟨x, hx, by simp [hxe]⟩)
      · exact Or.inr (ih hrest)

/-! ## The table after the refresh -/

/-- The state in which the documents are read. -/
def started (currentId : Int) (t : Table) : Refresh :=
  (preprocess currentId t).getD
    { table := t, subscriptions := [], toUpdate := [], profileId := currentId }

/-- What a whole refresh comes down to: the calls lead to a state `s` whose objects are the managed
rows of the final table. -/
theorem refresh_spec (P : Platform) (currentId : Int) (documents : List (Except String Json))
    (t : Table) :
    ∃ s t' h, createProfilesFromSubscription P currentId documents t = some (t', s.profileId) ∧
      Inv t (started currentId t) ∧ Inv t s ∧
      (∀ o ∈ (started currentId t).subscriptions, o.subscription = .obsolete) ∧
      (∀ k, k ∈ (started currentId t).subscriptions.map keyOf ↔
        ∃ p ∈ t.rows, isManaged p = true ∧ keyOf p = k) ∧
      Run (callMachine (started currentId t)) h s ∧ (∀ p ∈ h, Proper t p) ∧
      h.map Prod.snd = callsOf (readable P (t.get currentId) documents)
        (foundAll (started currentId t) (readable P (t.get currentId) documents)) ∧
      t'.rows.filter isManaged = s.subscriptions.map Profile.stored ∧
      t'.rows.filter isUser = t.rows.filter isUser ∧ t'.lastId = s.table.lastId := by
  rcases preprocess_spec currentId t with ⟨s₀, hpre, hinv₀, hobs, hkeys⟩
  have hstart : started currentId t = s₀ := by simp [started, hpre]
  rcases run_of_sound (t := t) _ (Run.nil (M := callMachine s₀)) (by simp) hinv₀
      (sound_callsOf (Live s₀) (readable P (t.get currentId) documents)
        (foundAll s₀ (readable P (t.get currentId) documents))) with
    ⟨s, h, hfold, hrun, hcalls, hall, hinv⟩
  rcases writeBack_spec hinv with ⟨t', hback, hmanaged, huser, hlast⟩
  rw [hstart]
  refine ⟨s, t', h, ?_, hinv₀, hinv, hobs, hkeys, hrun, hall, by simpa using hcalls, hmanaged,
    huser, hlast⟩
  rw [createProfilesFromSubscription, hpre]
  simp only [Option.bind_some, importAll_eq]
  have hfold' : (callsOf (readable P (t.get currentId) documents)
      (foundAll s₀ (readable P (t.get currentId) documents))).foldlM apply s₀ = some s := hfold
  rw [hfold', Option.bind_some, hback]
  rfl

/-- Every old managed profile that is given as a fallback only is given by a look-up that finds no
profile to serve it. -/
def Promoted (t : Table) (s₀ : Refresh) (documents : List (List Entry)) : Prop :=
  ∀ m ∈ t.rows, isManaged m = true → keyOf m ∈ fallbackKeys documents →
    keyOf m ∉ mainKeys documents → ∃ l ∈ lookupsAll s₀ documents, keyOf l.1 = keyOf m ∧ l.2 = none

/-- A refresh settles the table exactly if it promotes the old profiles that are given as
fallbacks. -/
theorem settled_iff_promoted (P : Platform) (currentId : Int)
    (documents : List (Except String Json)) (t : Table) :
    ∃ t' profileId,
      createProfilesFromSubscription P currentId documents t = some (t', profileId) ∧
      (Settled t (readable P (t.get currentId) documents) t' ↔
        Promoted t (started currentId t) (readable P (t.get currentId) documents)) := by
  rcases refresh_spec P currentId documents t with
    ⟨s, t', h, hrefresh, _, hinv, hobs, hkeys, hrun, hall, hcalls, hmanaged, huser, _⟩
  refine ⟨t', s.profileId, hrefresh, ?_⟩
  set docs := readable P (t.get currentId) documents
  set s₀ := started currentId t
  have hmarked := marked_run hrun hall hobs
  rw [hcalls] at hmarked
  have hrow : ∀ {p}, p ∈ t'.rows → isManaged p = true → ∃ o ∈ s.subscriptions, o.stored = p := by
    intro p hp hman
    have hmem : p ∈ s.subscriptions.map Profile.stored := hmanaged ▸ List.mem_filter.2 ⟨hp, hman⟩
    exact List.mem_map.1 hmem
  have hobject : ∀ {o}, o ∈ s.subscriptions → o.stored ∈ t'.rows ∧ isManaged o.stored = true := by
    intro o ho
    have hmem : o.stored ∈ t'.rows.filter isManaged := hmanaged ▸ List.mem_map_of_mem ho
    exact List.mem_filter.1 hmem
  constructor
  · -- an old profile is still there, so it has to be Active, so its key was created
    intro hset m hm hman hfallback hmain
    have hkey : keyOf m ∈ s.subscriptions.map keyOf :=
      (hmarked.keys _).2 (Or.inl ((hkeys _).2 ⟨m, hm, hman, rfl⟩))
    rcases List.mem_map.1 hkey with ⟨o, ho, hok⟩
    have hact := hset.active o.stored (hobject ho).1 (hobject ho).2
      (Or.inr (show keyOf o ∈ fallbackKeys docs from hok ▸ hfallback))
    have hcreated := (hmarked.active o ho).1 hact
    rw [hok, mem_created_callsOf] at hcreated
    exact hcreated.resolve_left hmain
  · intro hpromoted
    constructor
    · have hsame : (s.subscriptions.map Profile.stored).map keyOf = s.subscriptions.map keyOf := by
        rw [List.map_map]
        rfl
      rw [hmanaged, hsame]
      exact hinv.keys
    · intro p hp hman hgiven
      rcases hrow hp hman with ⟨o, ho, rfl⟩
      refine (hmarked.active o ho).2 ?_
      rcases hgiven with hmain | hfallback
      · exact (mem_created_callsOf docs).2 (Or.inl hmain)
      · by_cases hmain : keyOf o ∈ mainKeys docs
        · exact (mem_created_callsOf docs).2 (Or.inl hmain)
        · rcases (hmarked.keys _).1 (List.mem_map_of_mem ho) with hold | hcreated
          · rcases (hkeys _).1 hold with ⟨m, hm, hmm, hmk⟩
            refine (mem_created_callsOf docs).2 (Or.inr ?_)
            rw [← hmk]
            exact hpromoted m hm hmm (hmk ▸ hfallback) (hmk ▸ hmain)
          · exact hcreated
    · intro p hp hman hnot
      rcases hrow hp hman with ⟨o, ho, rfl⟩
      rcases managed_cases hman with hact | hobsolete
      · exfalso
        have hcreated := (mem_created_callsOf docs).1 ((hmarked.active o ho).1 hact)
        rcases hcreated with hmain | ⟨l, hl, hlk, _⟩
        · exact hnot (Or.inl hmain)
        · exact hnot (Or.inr (show keyOf o ∈ fallbackKeys docs from hlk ▸ lookup_given docs hl))
      · exact hobsolete
    · intro p hp hsub
      have hmem : p ∈ t.rows.filter isUser :=
        List.mem_filter.2 ⟨hp, by simp [isUser, isManaged, hsub]⟩
      rw [← huser] at hmem
      exact (List.mem_filter.1 hmem).1

/-! ## A fallback that is found -/

def serverMembers (host : String) (port : Nat) : List (String × Json) :=
  [("server", .string host), ("server_port", .number (toString port) port),
    ("password", .string "secret"), ("method", .string "aes-256-gcm")]

/-- A document with one entry and its fallback. -/
def withFallback : Json :=
  .array [.object (serverMembers "a" 1 ++ [("udp_fallback", .object (serverMembers "b" 2))])]

/-- A table that holds the fallback, Active, as an earlier refresh has left it. -/
def holdsFallback : Table :=
  Table.empty.create
    { name := none, host := "b", remotePort := 2, password := "secret", method := "aes-256-gcm",
      subscription := .active }

/-- The fallback is still given, and the refresh makes it Obsolete. -/
theorem holdsFallback_not_settled :
    ∃ t' profileId,
      createProfilesFromSubscription plainPlatform 0 [.ok withFallback] holdsFallback =
        some (t', profileId) ∧
      Given (readable plainPlatform (holdsFallback.get 0) [.ok withFallback]) (none, "b:2") ∧
      (∃ p ∈ t'.rows, keyOf p = (none, "b:2") ∧ p.subscription = .obsolete) ∧
      ¬ Settled holdsFallback (readable plainPlatform (holdsFallback.get 0) [.ok withFallback])
        t' := by
  have hrows : (createProfilesFromSubscription plainPlatform 0 [.ok withFallback] holdsFallback).map
      (fun r => r.1.rows.any
        (fun p => keyOf p == (none, "b:2") && p.subscription == .obsolete)) = some true := by
    decide +kernel
  rcases Option.map_eq_some_iff.1 hrows with ⟨⟨t', profileId⟩, hrefresh, hany⟩
  rcases List.any_eq_true.1 hany with ⟨p, hp, hboth⟩
  simp only [Bool.and_eq_true, beq_iff_eq] at hboth
  have hgiven : Given (readable plainPlatform (holdsFallback.get 0) [.ok withFallback])
      (none, "b:2") := Or.inr (by decide +kernel)
  refine ⟨t', profileId, hrefresh, hgiven, ⟨p, hp, hboth⟩, ?_⟩
  intro hset
  have hman : isManaged p = true := by simp [isManaged, hboth.2]
  have hact := hset.active p hp hman (hboth.1 ▸ hgiven)
  rw [hboth.2] at hact
  cases hact

end Subscription
end SpinVpn
