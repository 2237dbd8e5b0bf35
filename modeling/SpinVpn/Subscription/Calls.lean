import Mathlib.Data.List.Basic
import SpinVpn.Lib.Machine
import SpinVpn.Database.Entries
import SpinVpn.Subscription.Invariant

/-!
# Calls — a refresh as a sequence of calls

Reading the documents comes down to two kinds of calls on the state: `create` a profile, and `link`
an object to its fallback.  Which calls are made depends on the state in one place only, the
look-ups of `finalize`:

* `callsOf` computes the calls from the entries and from what the look-ups found, and
* `importAll_eq` says that importing the documents is making these calls.

The calls then form a run of a `Machine`, each step of which is `Enabled`, and `apply_spec` says
what one step does to the objects: it applies `effect` to each of them, and may add a new one.
-/

namespace SpinVpn
namespace Subscription

open Database EventMachine

variable {t : Table} {s s' : Refresh} {o it : Profile} {key k : Key} {c : Call}

/-- A fallback is a row that was found, or the object of a profile just created. -/
inductive Target
  | row (id : Int)
  | object (key : Key)
  deriving DecidableEq

inductive Call
  | create (it : Profile)
  | link (key : Key) (target : Target)
  deriving DecidableEq

def idOf (s : Refresh) (key : Key) : Int :=
  creator.idOf s key

def Target.id (ids : Key → Int) : Target → Int
  | .row id => id
  | .object key => ids key

def apply (s : Refresh) : Call → Option Refresh
  | .create it => some (create s it).1
  | .link key target => link s key (target.id (idOf s))

/-! ## The calls of a document -/

/-- The entries of `fallbackMap` when `finalize` starts, by the key of the object. -/
def waiting : List (Profile × Profile) → List (Key × Profile) → List Entry → List (Key × Profile)
  | _, linked, [] => linked
  | pending, linked, (profile, _) :: entries =>
      let linked :=
        match Keyed.get profile pending with
        | none => linked
        | some fallback => Keyed.put (keyOf profile) fallback linked
      waiting (Keyed.remove profile pending) linked entries

def linkedOf (entries : List Entry) : List (Key × Profile) :=
  waiting (fallbackMap entries) [] entries

def createMains (s : Refresh) (entries : List Entry) : Refresh :=
  entries.foldl (fun s e => (create s e.1).1) s

/-- The look-ups of `finalize`: each waiting fallback with the row that is found for it. -/
def lookups (s : Refresh) (entries : List Entry) : List (Profile × Option Profile) :=
  (linkedOf entries).map
    (fun e => (e.2, (createMains s entries).table.rows.find? (serves e.2)))

def found (s : Refresh) (entries : List Entry) : List (Option Int) :=
  (lookups s entries).map (fun l => l.2.map Profile.id)

def fallbackCalls (e : Key × Profile) (found : Option Int) : List Call :=
  match found with
  | some id => [.link e.1 (.row id)]
  | none => [.create e.2, .link e.1 (.object (keyOf e.2))]

def docCalls (entries : List Entry) (found : List (Option Int)) : List Call :=
  entries.map (fun e => .create e.1) ++
    (List.zipWith fallbackCalls (linkedOf entries) found).flatten

theorem create_ref (s : Refresh) (it : Profile) : (create s it).2 = keyOf it := by
  unfold create
  split
  · rfl
  · split <;> rfl

theorem createAll_eq (entries : List Entry) :
    ∀ (s : Refresh) (pending : List (Profile × Profile)) (linked : List (Key × Profile)),
      createAll creator s pending linked entries =
        (createMains s entries, entries.foldl (fun m e => Keyed.remove e.1 m) pending,
          waiting pending linked entries) := by
  induction entries with
  | nil =>
      intro s pending linked
      rfl
  | cons e entries ih =>
      intro s pending linked
      rcases e with ⟨profile, fallback⟩
      have href : (creator.create s profile).2 = keyOf profile := create_ref s profile
      rw [createAll, ih, href]
      rfl

/-- One round of `finalize` makes the calls for one fallback. -/
theorem finalize_cons (rows : List Profile) (e : Key × Profile) (linked : List (Key × Profile))
    (s : Refresh) :
    finalize creator rows s (e :: linked) =
      ((fallbackCalls e ((rows.find? (serves e.2)).map Profile.id)).foldlM apply s).bind
        (fun s => finalize creator rows s linked) := by
  rcases e with ⟨profile, fallback⟩
  cases hfind : rows.find? (serves fallback) with
  | some row =>
      have hcalls : [Call.link profile (.row row.id)].foldlM apply s = link s profile row.id := by
        simp [List.foldlM_cons, apply, Target.id]
      simp only [finalize, hfind, Option.map_some, fallbackCalls, hcalls]
      rfl
  | none =>
      have href : (creator.create s fallback).2 = keyOf fallback := create_ref s fallback
      have hcalls : [Call.create fallback, .link profile (.object (keyOf fallback))].foldlM apply s =
          link (create s fallback).1 profile (idOf (create s fallback).1 (keyOf fallback)) := by
        simp [List.foldlM_cons, apply, Target.id]
      simp only [finalize, hfind, Option.map_none, fallbackCalls, hcalls, href]
      rfl

theorem finalize_eq (rows : List Profile) (linked : List (Key × Profile)) :
    ∀ s : Refresh, finalize creator rows s linked =
      ((linked.map
        (fun e => fallbackCalls e ((rows.find? (serves e.2)).map Profile.id))).flatten).foldlM
          apply s := by
  induction linked with
  | nil =>
      intro s
      rfl
  | cons e linked ih =>
      intro s
      rw [finalize_cons, List.map_cons, List.flatten_cons, List.foldlM_append]
      exact congrArg _ (funext ih)

theorem foldlM_creates (entries : List Entry) :
    ∀ s : Refresh, (entries.map (fun e => Call.create e.1)).foldlM apply s =
      some (createMains s entries) := by
  induction entries with
  | nil =>
      intro s
      rfl
  | cons e entries ih =>
      intro s
      simp [List.foldlM_cons, apply, ih, createMains]

theorem docCalls_found (s : Refresh) (entries : List Entry) :
    docCalls entries (found s entries) =
      entries.map (fun e => .create e.1) ++
        ((linkedOf entries).map (fun e => fallbackCalls e
          (((createMains s entries).table.rows.find? (serves e.2)).map Profile.id))).flatten := by
  simp only [docCalls, found, lookups, List.map_map, List.zipWith_map_right]
  rw [List.zipWith_self]
  rfl

/-- Importing a document is making its calls. -/
theorem importEntries_eq (s : Refresh) (entries : List Entry) :
    importEntries creator s entries = (docCalls entries (found s entries)).foldlM apply s := by
  rw [docCalls_found, List.foldlM_append, foldlM_creates, importEntries, createAll_eq,
    pending_eq_nil]
  exact finalize_eq _ _ _

/-! ## The calls of a list of documents -/

def afterDoc (s : Refresh) (entries : List Entry) : Refresh :=
  (importEntries creator s entries).getD s

def foundAll : Refresh → List (List Entry) → List (List (Option Int))
  | _, [] => []
  | s, entries :: documents => found s entries :: foundAll (afterDoc s entries) documents

def lookupsAll : Refresh → List (List Entry) → List (Profile × Option Profile)
  | _, [] => []
  | s, entries :: documents => lookups s entries ++ lookupsAll (afterDoc s entries) documents

def callsOf (documents : List (List Entry)) (found : List (List (Option Int))) : List Call :=
  (List.zipWith docCalls documents found).flatten

/-- Importing the documents is making all their calls. -/
theorem importAll_eq (documents : List (List Entry)) :
    ∀ s : Refresh, importAll s documents =
      (callsOf documents (foundAll s documents)).foldlM apply s := by
  induction documents with
  | nil =>
      intro s
      rfl
  | cons entries documents ih =>
      intro s
      have hsplit : callsOf (entries :: documents) (foundAll s (entries :: documents)) =
          docCalls entries (found s entries) ++
            callsOf documents (foundAll (afterDoc s entries) documents) := rfl
      rw [hsplit, List.foldlM_append, ← importEntries_eq]
      cases hdoc : importEntries creator s entries with
      | none => simp [importAll, List.foldlM_cons, hdoc]
      | some s₁ =>
          have hafter : afterDoc s entries = s₁ := by simp [afterDoc, hdoc]
          have hrest := ih s₁
          rw [hafter, Option.bind_eq_bind, Option.bind_some, ← hrest]
          simp [importAll, List.foldlM_cons, hdoc]

/-! ## One call -/

/-- The key has an Active object. -/
def Live (s : Refresh) (key : Key) : Prop :=
  ∃ o ∈ s.subscriptions, keyOf o = key ∧ o.subscription = .active

/-- The objects a call refers to are there. -/
def Enabled (s : Refresh) : Call → Prop
  | .create _ => True
  | .link key (.row _) => Live s key
  | .link key (.object k) => Live s key ∧ Live s k

/-- What a call does to an object. -/
def effect (ids : Key → Int) : Call → Profile → Profile
  | .create it, o =>
      if keyOf it = keyOf o ∧ o.subscription = .obsolete then promote it o else o
  | .link key target, o =>
      if key = keyOf o then setFallback (target.id ids) o else o

/-- The object that a call adds. -/
def fresh (s : Refresh) : Call → List Profile
  | .create it => if (find s (keyOf it)).isNone then [newObject s.table it] else []
  | .link _ _ => []

theorem ident_effect (ids : Key → Int) (c : Call) (o : Profile) :
    ident (effect ids c o) = ident o := by
  cases c with
  | create it =>
      simp only [effect]
      split <;> rfl
  | link key target =>
      simp only [effect]
      split <;> rfl

theorem keyOf_effect (ids : Key → Int) (c : Call) (o : Profile) :
    keyOf (effect ids c o) = keyOf o :=
  (ident_eq_iff.1 (ident_effect ids c o)).2

theorem idOf_eq (h : Inv t s) (ho : o ∈ s.subscriptions) : idOf s (keyOf o) = o.id := by
  have hfind : find s (keyOf o) = some o := h.find_iff.2 ⟨ho, rfl⟩
  simp [idOf, creator, hfind]

/-- Setting an object by its key is applying a function that spares the other objects. -/
theorem setObject_eq_map {objects : List Profile} {f g : Profile → Profile}
    (hset : ∀ o ∈ objects, keyOf o = key → f o = g o)
    (hkeep : ∀ o ∈ objects, keyOf o ≠ key → g o = o) :
    setObject objects key f = objects.map g := by
  refine List.map_congr_left (fun o ho => ?_)
  by_cases hk : keyOf o = key
  · rw [if_pos hk]
    exact hset o ho hk
  · rw [if_neg hk]
    exact (hkeep o ho hk).symm

theorem map_effect_create_eq_self {objects : List Profile} (ids : Key → Int)
    (h : ∀ o ∈ objects, keyOf o = keyOf it → o.subscription ≠ .obsolete) :
    objects.map (effect ids (.create it)) = objects := by
  refine (List.map_congr_left (fun o ho => ?_)).trans (List.map_id _)
  have hnot : ¬ (keyOf it = keyOf o ∧ o.subscription = .obsolete) :=
    fun hc => h o ho hc.1.symm hc.2
  simp [effect, hnot]

theorem create_objects (h : Inv t s) (ids : Key → Int) (it : Profile) :
    (create s it).1.subscriptions =
      s.subscriptions.map (effect ids (.create it)) ++ fresh s (.create it) := by
  cases hfind : find s (keyOf it) with
  | none =>
      have hother : ∀ o ∈ s.subscriptions, keyOf o ≠ keyOf it := by simpa [find] using hfind
      rw [create_of_absent hfind,
        map_effect_create_eq_self ids (fun o ho hk => absurd hk (hother o ho))]
      simp [fresh, hfind]
  | some o =>
      have ho := h.find_iff.1 hfind
      have hunique : ∀ q ∈ s.subscriptions, keyOf q = keyOf it → q = o := fun q hq hk =>
        Keyed.ext_of_key h.keys hq ho.1 (hk.trans ho.2.symm)
      rcases managed_cases (h.managed o ho.1) with hact | hobs
      · have hnot : ∀ q ∈ s.subscriptions, keyOf q = keyOf it → q.subscription ≠ .obsolete := by
          intro q hq hk
          simp [hunique q hq hk, hact]
        rw [create_of_active hfind hact, map_effect_create_eq_self ids hnot]
        simp [fresh, hfind]
      · rw [create_of_obsolete hfind hobs]
        simp only [fresh, hfind, Option.isNone_some, Bool.false_eq_true, if_false, List.append_nil]
        refine setObject_eq_map ?_ ?_
        · intro q hq hk
          simp [effect, hunique q hq hk, ho.2, hobs]
        · intro q hq hk
          have hnot : ¬ (keyOf it = keyOf q ∧ q.subscription = .obsolete) :=
            fun hc => hk hc.1.symm
          simp [effect, hnot]

theorem create_table (hfresh : fresh s (.create it) = []) (h : Inv t s) :
    (create s it).1.table = s.table := by
  cases hfind : find s (keyOf it) with
  | none => simp [fresh, hfind] at hfresh
  | some o =>
      rcases managed_cases (h.managed o (h.find_iff.1 hfind).1) with hact | hobs
      · rw [create_of_active hfind hact]
      · rw [create_of_obsolete hfind hobs]

theorem Enabled.live {target : Target} (hen : Enabled s (.link key target)) : Live s key := by
  cases target with
  | row id => exact hen
  | object k => exact hen.1

/-- A call that adds no object leaves the table alone, or writes one object to its row. -/
def Writes (s s' : Refresh) : Prop :=
  s'.table = s.table ∨ ∃ o ∈ s'.subscriptions, s'.table = s.table.update o

theorem Writes.lastId (h : Writes s s') : s'.table.lastId = s.table.lastId := by
  rcases h with heq | ⟨o, _, heq⟩
  · rw [heq]
  · rw [heq]
    rfl

/-- What one call does to the state. -/
theorem apply_spec (h : Inv t s) (hen : Enabled s c) :
    ∃ s', apply s c = some s' ∧ Inv t s' ∧
      s'.subscriptions = s.subscriptions.map (effect (idOf s) c) ++ fresh s c ∧
      (fresh s c = [] → Writes s s') := by
  cases c with
  | create it =>
      exact ⟨_, rfl, h.create it, create_objects h (idOf s) it,
        fun hf => Or.inl (create_table hf h)⟩
  | link key target =>
      rcases hen.live with ⟨o, ho, hk, _⟩
      have hfind : find s key = some o := h.find_iff.2 ⟨ho, hk⟩
      refine ⟨_, h.link_eq hfind _, h.link hfind _, ?_, fun _ => Or.inr ⟨_, ?_, rfl⟩⟩
      · rw [fresh, List.append_nil]
        refine setObject_eq_map ?_ ?_
        · intro q _ hq
          simp [effect, hq]
        · intro q _ hq
          have hne : ¬ key = keyOf q := fun he => hq he.symm
          simp [effect, hne]
      · -- the object that is written is the one with its new fallback
        exact mem_setObject.2 ⟨o, ho, by rw [if_pos hk]⟩

/-- Other ids serve as well, where they are those of the objects. -/
theorem effect_congr {ids : Key → Int} (h : Inv t s) (hen : Enabled s c)
    (hids : ∀ o ∈ s.subscriptions, ids (keyOf o) = o.id) : effect (idOf s) c = effect ids c := by
  funext o
  cases c with
  | create it => rfl
  | link key target =>
      cases target with
      | row id => rfl
      | object k =>
          rcases hen.2 with ⟨q, hq, rfl, _⟩
          simp [effect, Target.id, idOf_eq h hq, hids q hq]

theorem live_effect {ids : Key → Int} (hact : o.subscription = .active) :
    (effect ids c o).subscription = .active := by
  cases c with
  | create it => simp [effect, hact]
  | link key target =>
      simp only [effect]
      split
      · exact hact
      · exact hact

theorem live_apply {ids : Key → Int} (hlive : Live s k)
    (hobj : s'.subscriptions = s.subscriptions.map (effect ids c) ++ fresh s c) : Live s' k := by
  rcases hlive with ⟨o, ho, hk, hact⟩
  refine ⟨effect ids c o, ?_, (keyOf_effect ids c o).trans hk, live_effect hact⟩
  rw [hobj]
  exact List.mem_append_left _ (List.mem_map_of_mem ho)

/-- A created profile has an Active object. -/
theorem live_create (h : Inv t s) (it : Profile) : Live (create s it).1 (keyOf it) := by
  cases hfind : find s (keyOf it) with
  | none =>
      rw [create_of_absent hfind]
      exact ⟨newObject s.table it, List.mem_append_right _ (List.mem_singleton_self _), rfl, rfl⟩
  | some o =>
      have ho := h.find_iff.1 hfind
      rcases managed_cases (h.managed o ho.1) with hact | hobs
      · rw [create_of_active hfind hact]
        exact ⟨o, ho.1, ho.2, hact⟩
      · rw [create_of_obsolete hfind hobs]
        refine ⟨promote it o, mem_setObject.2 ⟨o, ho.1, by simp [ho.2]⟩, ?_, rfl⟩
        exact (keyOf_promote it o).trans ho.2

/-! ## Runs of calls -/

/-- Every link of the calls refers to keys that are live at the start or created before it. -/
def Sound : (Key → Prop) → List Call → Prop
  | _, [] => True
  | live, .create it :: calls => Sound (fun k => k = keyOf it ∨ live k) calls
  | live, .link key (.row _) :: calls => live key ∧ Sound live calls
  | live, .link key (.object k) :: calls => live key ∧ live k ∧ Sound live calls

theorem Sound.mono {calls : List Call} :
    ∀ {live live' : Key → Prop}, Sound live calls → (∀ k, live k → live' k) → Sound live' calls := by
  induction calls with
  | nil =>
      intro live live' _ _
      trivial
  | cons c calls ih =>
      intro live live' h hle
      cases c with
      | create it => exact ih h (fun k hk => hk.imp_right (hle k))
      | link key target =>
          cases target with
          | row id => exact ⟨hle _ h.1, ih h.2 hle⟩
          | object k => exact ⟨hle _ h.1, hle _ h.2.1, ih h.2.2 hle⟩

theorem Sound.append {calls calls' : List Call} :
    ∀ {live : Key → Prop}, Sound live calls → Sound live calls' → Sound live (calls ++ calls') := by
  induction calls with
  | nil =>
      intro live _ h'
      exact h'
  | cons c calls ih =>
      intro live h h'
      cases c with
      | create it => exact ih h (h'.mono (fun k hk => Or.inr hk))
      | link key target =>
          cases target with
          | row id => exact ⟨h.1, ih h.2 h'⟩
          | object k => exact ⟨h.1, h.2.1, ih h.2.2 h'⟩

theorem sound_creates (entries : List Entry) {calls : List Call} :
    ∀ {live : Key → Prop},
      Sound (fun k => k ∈ entries.map (fun e => keyOf e.1) ∨ live k) calls →
        Sound live (entries.map (fun e => Call.create e.1) ++ calls) := by
  induction entries with
  | nil =>
      intro live h
      exact h.mono (fun k hk => hk.resolve_left (by simp))
  | cons e entries ih =>
      intro live h
      refine ih (h.mono ?_)
      rintro k (hmem | hlive)
      · rcases List.mem_cons.1 hmem with hk | hk
        · exact Or.inr (Or.inl hk)
        · exact Or.inl hk
      · exact Or.inr (Or.inr hlive)

theorem mem_waiting (entries : List Entry) :
    ∀ {pending : List (Profile × Profile)} {linked : List (Key × Profile)} {e : Key × Profile},
      e ∈ waiting pending linked entries →
        e ∈ linked ∨ (e.1 ∈ entries.map (fun e => keyOf e.1) ∧ e.2 ∈ pending.map Prod.snd) := by
  induction entries with
  | nil =>
      intro pending linked e he
      exact Or.inl he
  | cons d entries ih =>
      intro pending linked e he
      rcases d with ⟨profile, fallback⟩
      have hsub : ∀ f, f ∈ (Keyed.remove profile pending).map Prod.snd →
          f ∈ pending.map Prod.snd := by
        intro f hf
        rcases List.mem_map.1 hf with ⟨x, hx, rfl⟩
        exact List.mem_map_of_mem (List.mem_filter.1 hx).1
      rcases ih he with hlinked | ⟨hkey, hf⟩
      · cases hget : Keyed.get profile pending with
        | none =>
            rw [hget] at hlinked
            exact Or.inl hlinked
        | some f =>
            rw [hget] at hlinked
            rcases Keyed.mem_put hlinked with rfl | hold
            · refine Or.inr ⟨by simp, ?_⟩
              rcases Option.map_eq_some_iff.1 hget with ⟨x, hx, rfl⟩
              exact List.mem_map_of_mem (List.mem_of_find?_eq_some hx)
            · exact Or.inl hold
      · exact Or.inr ⟨List.mem_cons_of_mem _ hkey, hsub _ hf⟩

/-- A waiting fallback belongs to an object of an entry, and some entry has it. -/
theorem mem_linkedOf {entries : List Entry} {e : Key × Profile} (he : e ∈ linkedOf entries) :
    e.1 ∈ entries.map (fun e => keyOf e.1) ∧ some e.2 ∈ entries.map Prod.snd := by
  rcases mem_waiting entries he with hnil | ⟨hkey, hf⟩
  · cases hnil
  · rcases List.mem_map.1 hf with ⟨x, hx, hxe⟩
    refine ⟨hkey, List.mem_map.2 ⟨_, mem_fallbackMap hx, ?_⟩⟩
    rw [hxe]

theorem sound_fallbacks {live : Key → Prop} :
    ∀ {linked : List (Key × Profile)} {found : List (Option Int)}, (∀ e ∈ linked, live e.1) →
      Sound live (List.zipWith fallbackCalls linked found).flatten := by
  intro linked
  induction linked with
  | nil =>
      intro found _
      trivial
  | cons e linked ih =>
      intro found hlive
      cases found with
      | nil => trivial
      | cons f found =>
          rw [List.zipWith_cons_cons, List.flatten_cons]
          refine Sound.append ?_ (ih (fun x hx => hlive x (List.mem_cons_of_mem _ hx)))
          have he := hlive e List.mem_cons_self
          cases f with
          | some id => exact ⟨he, trivial⟩
          | none => exact ⟨Or.inr he, Or.inl rfl, trivial⟩

theorem sound_docCalls (live : Key → Prop) (entries : List Entry) (found : List (Option Int)) :
    Sound live (docCalls entries found) := by
  refine sound_creates entries (sound_fallbacks ?_)
  intro e he
  exact Or.inl (mem_linkedOf he).1

theorem sound_callsOf (live : Key → Prop) (documents : List (List Entry)) :
    ∀ found : List (List (Option Int)), Sound live (callsOf documents found) := by
  induction documents with
  | nil =>
      intro found
      trivial
  | cons entries documents ih =>
      intro found
      cases found with
      | nil => trivial
      | cons f found => exact Sound.append (sound_docCalls live entries f) (ih found)

/-- The refresh from state `s` as a machine whose events are the calls. -/
def callMachine (s : Refresh) : Machine Refresh Call where
  init := s
  step := apply

def Proper (t : Table) (p : Refresh × Call) : Prop :=
  Inv t p.1 ∧ Enabled p.1 p.2

/-- What a step of a run does, for the proofs about runs. -/
theorem Proper.step {s₀ : Refresh} (h : Proper t (s, c))
    (hstep : (callMachine s₀).step s c = some s') :
    Inv t s' ∧ s'.subscriptions = s.subscriptions.map (effect (idOf s) c) ++ fresh s c ∧
      (fresh s c = [] → Writes s s') := by
  rcases apply_spec h.1 h.2 with ⟨s₁, happly, hspec⟩
  have hs₁ : s₁ = s' := Option.some.inj (happly.symm.trans hstep)
  exact hs₁ ▸ hspec

theorem enabled_of_sound {live : Key → Prop} {calls : List Call} (h : Sound live (c :: calls))
    (hlive : ∀ k, live k → Live s k) : Enabled s c := by
  cases c with
  | create it => trivial
  | link key target =>
      cases target with
      | row id => exact hlive _ h.1
      | object k => exact ⟨hlive _ h.1, hlive _ h.2.1⟩

theorem sound_tail {live : Key → Prop} {calls : List Call} (h : Sound live (c :: calls))
    (hlive : ∀ k, live k → Live s k) (hinv : Inv t s) (hstep : apply s c = some s')
    (hobj : s'.subscriptions = s.subscriptions.map (effect (idOf s) c) ++ fresh s c) :
    Sound (Live s') calls := by
  have hmono : ∀ k, live k → Live s' k := fun k hk => live_apply (hlive k hk) hobj
  cases c with
  | create it =>
      have hnext : Sound (fun k => k = keyOf it ∨ live k) calls := h
      refine hnext.mono ?_
      rintro k (rfl | hk)
      · cases hstep
        exact live_create hinv it
      · exact hmono k hk
  | link key target =>
      cases target with
      | row id => exact h.2.mono hmono
      | object k => exact h.2.2.mono hmono

/-- Sound calls can all be made, and each of them is enabled. -/
theorem run_of_sound {s₀ : Refresh} (calls : List Call) :
    ∀ {h : List (Refresh × Call)} {s : Refresh}, Run (callMachine s₀) h s → (∀ p ∈ h, Proper t p) →
      Inv t s → Sound (Live s) calls →
      ∃ s' h', calls.foldlM apply s = some s' ∧ Run (callMachine s₀) h' s' ∧
        h'.map Prod.snd = h.map Prod.snd ++ calls ∧ (∀ p ∈ h', Proper t p) ∧ Inv t s' := by
  induction calls with
  | nil =>
      intro h s hrun hall hinv _
      exact ⟨s, h, rfl, hrun, by simp, hall, hinv⟩
  | cons c calls ih =>
      intro h s hrun hall hinv hsound
      have hen : Enabled s c := enabled_of_sound hsound (fun _ hk => hk)
      rcases apply_spec hinv hen with ⟨s₁, hstep, hinv₁, hobj, _⟩
      have hall₁ : ∀ p ∈ h ++ [(s, c)], Proper t p := by
        intro p hp
        rcases List.mem_append.1 hp with hold | hlast
        · exact hall p hold
        · rw [List.mem_singleton.1 hlast]
          exact ⟨hinv, hen⟩
      rcases ih (Run.snoc hrun hstep) hall₁ hinv₁
          (sound_tail hsound (fun _ hk => hk) hinv hstep hobj) with
        ⟨s', h', hfold, hrun', hcalls, hall', hinv'⟩
      refine ⟨s', h', ?_, hrun', by simpa using hcalls, hall', hinv'⟩
      simp [List.foldlM_cons, hstep, hfold]

end Subscription
end SpinVpn
