import Mathlib.Data.List.Basic
import SpinVpn.Subscription.Managed

/-!
# Idempotent — refreshing twice

A second refresh with the same documents starts by demoting every managed profile and makes its
calls.  Whether it brings every row back can be read off the table it starts from:

* `Calm t calls`: the calls create no row and give every row the server it has.  As long as that
  is so, the look-ups find in the course of the refresh what they find in table `t`
  (`foundAll_eq`), and
* `Reflects t documents`: every managed row is what the calls of these look-ups make of it.

A row that the first refresh created for a fallback need not be: the second one finds it, and then
does not call `create` for it.
-/

namespace SpinVpn
namespace Subscription

open Database EventMachine

variable {t : Table} {s s' : Refresh} {o it : Profile} {k : Key} {c : Call} {ids : Key → Int}
  {calls : List Call}

/-! ## Replaying calls on an object -/

def replay (ids : Key → Int) (calls : List Call) (o : Profile) : Profile :=
  calls.foldl (fun o c => effect ids c o) o

theorem replay_cons (ids : Key → Int) (c : Call) (calls : List Call) (o : Profile) :
    replay ids (c :: calls) o = replay ids calls (effect ids c o) := rfl

theorem replay_snoc (ids : Key → Int) (calls : List Call) (c : Call) (o : Profile) :
    replay ids (calls ++ [c]) o = effect ids c (replay ids calls o) := by
  simp [replay]

theorem ident_replay (ids : Key → Int) (calls : List Call) (o : Profile) :
    ident (replay ids calls o) = ident o := by
  induction calls generalizing o with
  | nil => rfl
  | cons c calls ih =>
      rw [replay_cons, ih, ident_effect]

theorem keys_replay (ids : Key → Int) (calls : List Call) (objects : List Profile) :
    (objects.map (replay ids calls)).map keyOf = objects.map keyOf := by
  rw [List.map_map]
  exact List.map_congr_left (fun o _ => (ident_eq_iff.1 (ident_replay ids calls o)).2)

def Call.creates (k : Key) : Call → Option Profile
  | .create it => if keyOf it = k then some it else none
  | .link _ _ => none

def Call.linksTo (ids : Key → Int) (k : Key) : Call → Option Int
  | .create _ => none
  | .link key target => if key = k then some (target.id ids) else none

/-- The profile of the first call that creates the key. -/
def firstCreated (calls : List Call) (k : Key) : Option Profile :=
  calls.findSome? (Call.creates k)

/-- The fallback of the last call that links the key. -/
def lastLinked (ids : Key → Int) (calls : List Call) (k : Key) : Option Int :=
  calls.reverse.findSome? (Call.linksTo ids k)

theorem firstCreated_cons (c : Call) (calls : List Call) (k : Key) :
    firstCreated (c :: calls) k = (c.creates k).or (firstCreated calls k) := by
  cases hc : c.creates k with
  | none => simp [firstCreated, hc]
  | some it => simp [firstCreated, hc]

theorem lastLinked_cons (ids : Key → Int) (c : Call) (calls : List Call) (k : Key) :
    lastLinked ids (c :: calls) k = (lastLinked ids calls k).or (c.linksTo ids k) := by
  rw [lastLinked, List.reverse_cons, List.findSome?_append, List.findSome?_singleton]
  rfl

theorem firstCreated_append (calls calls' : List Call) (k : Key) :
    firstCreated (calls ++ calls') k = (firstCreated calls k).or (firstCreated calls' k) :=
  List.findSome?_append

/-- Calls do nothing to an Active object but link it. -/
theorem replay_active (ids : Key → Int) (calls : List Call) :
    ∀ {o : Profile}, o.subscription = .active →
      replay ids calls o =
        { o with udpFallback := (lastLinked ids calls (keyOf o)).or o.udpFallback } := by
  induction calls with
  | nil =>
      intro o _
      rfl
  | cons c calls ih =>
      intro o hact
      rw [replay_cons, lastLinked_cons]
      cases c with
      | create it =>
          have hsame : effect ids (.create it) o = o := by simp [effect, hact]
          rw [hsame, ih hact]
          simp [Call.linksTo]
      | link key target =>
          by_cases hk : key = keyOf o
          · have hlinked : effect ids (.link key target) o = setFallback (target.id ids) o := by
              simp [effect, hk]
            have hact' : (setFallback (target.id ids) o).subscription = .active := hact
            rw [hlinked, ih hact', keyOf_setFallback]
            simp [Call.linksTo, hk, setFallback]
          · have hsame : effect ids (.link key target) o = o := by simp [effect, hk]
            rw [hsame, ih hact]
            simp [Call.linksTo, hk]

/-- The first call that creates its key promotes an Obsolete object; only then it can be linked. -/
theorem replay_obsolete (ids : Key → Int) (calls : List Call) :
    ∀ {live : Key → Prop} {o : Profile}, Sound live calls → ¬ live (keyOf o) →
      o.subscription = .obsolete →
      replay ids calls o =
        match firstCreated calls (keyOf o) with
        | none => o
        | some it =>
            { promote it o with
              udpFallback := (lastLinked ids calls (keyOf o)).or it.udpFallback } := by
  induction calls with
  | nil =>
      intro live o _ _ _
      rfl
  | cons c calls ih =>
      intro live o hsound hlive hobs
      rw [replay_cons, firstCreated_cons, lastLinked_cons]
      cases c with
      | create it =>
          by_cases hk : keyOf it = keyOf o
          · have hpromoted : effect ids (.create it) o = promote it o := by
              simp [effect, hk, hobs]
            have hact : (promote it o).subscription = .active := rfl
            rw [hpromoted, replay_active ids calls hact, keyOf_promote]
            simp [Call.creates, Call.linksTo, hk, promote]
          · have hsame : effect ids (.create it) o = o := by simp [effect, hk]
            have hlive' : ¬ (keyOf o = keyOf it ∨ live (keyOf o)) := by
              rintro (he | hl)
              · exact hk he.symm
              · exact hlive hl
            rw [hsame, ih hsound hlive' hobs]
            simp [Call.creates, Call.linksTo, hk]
      | link key target =>
          have hsplit : live key ∧ Sound live calls := by
            cases target with
            | row id => exact hsound
            | object k => exact ⟨hsound.1, hsound.2.2⟩
          have hk : ¬ key = keyOf o := fun he => hlive (he ▸ hsplit.1)
          have hsame : effect ids (.link key target) o = o := by simp [effect, hk]
          rw [hsame, ih hsplit.2 hlive hobs]
          simp [Call.creates, Call.linksTo, hk]

/-! ## Rows that the calls bring back -/

/-- The row is what the calls make of an Obsolete object with its key. -/
def Mirrors (ids : Key → Int) (calls : List Call) (r : Profile) : Prop :=
  match firstCreated calls (keyOf r) with
  | none => r.subscription = .obsolete
  | some it =>
      r.subscription = .active ∧ r.password = it.password ∧ r.method = it.method ∧
        r.plugin = it.plugin ∧
        r.udpFallback = (lastLinked ids calls (keyOf r)).or it.udpFallback

/-- Replaying the calls on the demoted row brings it back exactly if the row mirrors them. -/
theorem replay_demote_iff (hsound : Sound (fun _ => False) calls) {r : Profile}
    (hclean : r.dirty = false) :
    (replay ids calls (demote r)).stored = r ↔ Mirrors ids calls r := by
  have hkey : keyOf (demote r) = keyOf r := rfl
  rw [replay_obsolete ids calls hsound (fun hf => hf) rfl, hkey, Mirrors]
  cases hfirst : firstCreated calls (keyOf r) with
  | none =>
      cases r
      simp_all [demote, Profile.stored, eq_comm]
  | some it =>
      cases r
      simp_all only [demote, promote, Profile.stored, Profile.mk.injEq, true_and, and_true]
      constructor
      · rintro ⟨hpassword, hmethod, hplugin, hfallback, hact⟩
        exact ⟨hact.symm, hpassword.symm, hmethod.symm, hplugin.symm, hfallback.symm⟩
      · rintro ⟨hact, hpassword, hmethod, hplugin, hfallback⟩
        exact ⟨hpassword.symm, hmethod.symm, hplugin.symm, hfallback.symm, hact.symm⟩

/-! ## Calls that keep the servers -/

/-- The fields of a row that a look-up reads. -/
def server (p : Profile) : Int × String × Int × String × String × Option String :=
  (p.id, p.host, p.remotePort, p.password, p.method, p.plugin)

/-- The calls create managed rows of the table only, and give them the server they have. -/
structure Calm (t : Table) (calls : List Call) : Prop where
  sound : Sound (fun _ => False) calls
  known : ∀ k ∈ created calls, ∃ r ∈ t.rows, isManaged r = true ∧ keyOf r = k
  kept : ∀ r ∈ t.rows, isManaged r = true → ∀ it, firstCreated calls (keyOf r) = some it →
    r.password = it.password ∧ r.method = it.method ∧ r.plugin = it.plugin

theorem Sound.left {calls' : List Call} :
    ∀ {live : Key → Prop}, Sound live (calls ++ calls') → Sound live calls := by
  induction calls with
  | nil =>
      intro live _
      trivial
  | cons c calls ih =>
      intro live h
      cases c with
      | create it => exact ih h
      | link key target =>
          cases target with
          | row id => exact ⟨h.1, ih h.2⟩
          | object k => exact ⟨h.1, h.2.1, ih h.2.2⟩

theorem Calm.left {calls' : List Call} (h : Calm t (calls ++ calls')) : Calm t calls := by
  refine ⟨h.sound.left, ?_, ?_⟩
  · intro k hk
    refine h.known k ?_
    rw [created_append]
    exact List.mem_append_left _ hk
  · intro r hr hman it hfirst
    refine h.kept r hr hman it ?_
    rw [firstCreated_append, hfirst]
    rfl

theorem Calm.server_replay (h : Calm t calls) {r : Profile} (hr : r ∈ t.rows)
    (hman : isManaged r = true) : server (replay ids calls (demote r)) = server r := by
  have hkey : keyOf (demote r) = keyOf r := rfl
  rw [replay_obsolete ids calls h.sound (fun hf => hf) rfl, hkey]
  cases hfirst : firstCreated calls (keyOf r) with
  | none => rfl
  | some it =>
      rcases h.kept r hr hman it hfirst with ⟨hpassword, hmethod, hplugin⟩
      simp only [server, promote, demote, hpassword, hmethod, hplugin]

theorem find?_serves_congr {rows rows' : List Profile} (h : rows.map server = rows'.map server)
    (fallback : Profile) :
    (rows.find? (serves fallback)).map Profile.id = (rows'.find? (serves fallback)).map Profile.id := by
  -- `serves` and the id are functions of the server
  have hread : ∀ l : List Profile, (l.find? (serves fallback)).map Profile.id =
      ((l.map server).find? (fun e => fallback.host == e.2.1 && fallback.remotePort == e.2.2.1 &&
        fallback.password == e.2.2.2.1 && fallback.method == e.2.2.2.2.1 &&
        isNullOrEmpty e.2.2.2.2.2)).map Prod.fst := by
    intro l
    rw [List.find?_map, Option.map_map]
    rfl
  rw [hread, hread, h]

theorem server_update (h : s.table.rows.map server = t.rows.map server)
    (ho : server o ∈ t.rows.map server) :
    (s.table.update o).rows.map server = t.rows.map server := by
  rw [← h, Table.update, List.map_map]
  refine List.map_congr_left (fun q hq => ?_)
  by_cases hid : q.id = o.id
  · have hqmem : server q ∈ t.rows.map server := h ▸ List.mem_map_of_mem hq
    rcases List.mem_map.1 hqmem with ⟨r, hr, hrq⟩
    rcases List.mem_map.1 ho with ⟨r', hr', hro⟩
    have hrr : r = r' := by
      refine Table.row_ext hr hr' ?_
      exact (congrArg Prod.fst hrq).trans (hid.trans (congrArg Prod.fst hro).symm)
    have hsame : server o.stored = server o := rfl
    calc
      server (Table.overwrite o q) = server o.stored := by rw [Table.overwrite, if_pos hid]
      _ = server r' := by rw [hsame, hro]
      _ = server q := by rw [← hrr, hrq]
  · rw [Function.comp_apply, Table.overwrite, if_neg hid]

theorem fresh_eq_nil (h : ∀ k ∈ created [c], k ∈ s.subscriptions.map keyOf) : fresh s c = [] := by
  cases c with
  | link key target => rfl
  | create it =>
      have hmem := h _ (List.mem_singleton_self (keyOf it))
      cases hfind : find s (keyOf it) with
      | none => exact absurd hmem (by simpa [find] using hfind)
      | some o => simp [fresh, hfind]

/-! ## The second run -/

/-- The state in which the second refresh makes its calls. -/
structure Rested (t : Table) (s₀ : Refresh) : Prop where
  table : s₀.table = t
  objects : s₀.subscriptions = (t.rows.filter isManaged).map demote

theorem Rested.mem_keys {s₀ : Refresh} (h : Rested t s₀) :
    k ∈ s₀.subscriptions.map keyOf ↔ ∃ r ∈ t.rows, isManaged r = true ∧ keyOf r = k := by
  rw [h.objects, List.map_map]
  simp only [List.mem_map, List.mem_filter, Function.comp_apply, and_assoc]
  exact Iff.rfl

/-- Calls that create known keys only change the objects one by one. -/
theorem replay_run {s₀ : Refresh} {h : List (Refresh × Call)} (hrun : Run (callMachine s₀) h s)
    (hall : ∀ p ∈ h, Proper t p) (hids : ∀ o ∈ s₀.subscriptions, ids (keyOf o) = o.id)
    (hknown : ∀ k ∈ created (h.map Prod.snd), k ∈ s₀.subscriptions.map keyOf) :
    s.subscriptions = s₀.subscriptions.map (replay ids (h.map Prod.snd)) ∧
      s.table.lastId = s₀.table.lastId := by
  induction hrun with
  | nil =>
      refine ⟨?_, rfl⟩
      exact (List.map_id _).symm
  | snoc hrun hstep ih =>
      rename_i h s s' c
      have hlast : Proper t (s, c) := hall _ (List.mem_append_right _ (List.mem_singleton_self _))
      rw [List.map_append, created_append] at hknown
      rcases ih (fun p hp => hall p (List.mem_append_left _ hp))
          (fun k hk => hknown k (List.mem_append_left _ hk)) with ⟨hsubs, hlastId⟩
      rcases hlast.step hstep with ⟨_, hobj, hwrites⟩
      have hkeys : s.subscriptions.map keyOf = s₀.subscriptions.map keyOf := by
        rw [hsubs, keys_replay]
      have hnofresh : fresh s c = [] :=
        fresh_eq_nil (fun k hk => hkeys ▸ hknown k (List.mem_append_right _ hk))
      have hids' : ∀ o ∈ s.subscriptions, ids (keyOf o) = o.id := by
        intro o ho
        rw [hsubs] at ho
        rcases List.mem_map.1 ho with ⟨q, hq, rfl⟩
        have hident := ident_eq_iff.1 (ident_replay ids (h.map Prod.snd) q)
        rw [hident.1, hident.2]
        exact hids q hq
      refine ⟨?_, (hwrites hnofresh).lastId.trans hlastId⟩
      calc
        s'.subscriptions = s.subscriptions.map (effect (idOf s) c) := by
          rw [hobj, hnofresh, List.append_nil]
        _ = s.subscriptions.map (effect ids c) := by rw [effect_congr hlast.1 hlast.2 hids']
        _ = s₀.subscriptions.map (effect ids c ∘ replay ids (h.map Prod.snd)) := by
          rw [hsubs, List.map_map]
        _ = s₀.subscriptions.map (replay ids ((h ++ [(s, c)]).map Prod.snd)) := by
          rw [List.map_append]
          exact List.map_congr_left (fun o _ => (replay_snoc ids _ c o).symm)

/-- Calm calls leave the servers of all rows in place. -/
theorem calm_run {s₀ : Refresh} {h : List (Refresh × Call)} (hrested : Rested t s₀)
    (hids : ∀ o ∈ s₀.subscriptions, ids (keyOf o) = o.id) (hrun : Run (callMachine s₀) h s)
    (hall : ∀ p ∈ h, Proper t p) (hcalm : Calm t (h.map Prod.snd)) :
    s.table.rows.map server = t.rows.map server := by
  have hobjects : ∀ {h : List (Refresh × Call)} {s : Refresh}, Run (callMachine s₀) h s →
      (∀ p ∈ h, Proper t p) → Calm t (h.map Prod.snd) →
      ∀ o ∈ s.subscriptions, server o ∈ t.rows.map server := by
    intro h s hrun hall hcalm o ho
    have hreplay := (replay_run hrun hall hids
      (fun k hk => hrested.mem_keys.2 (hcalm.known k hk))).1
    rw [hreplay, hrested.objects, List.map_map] at ho
    rcases List.mem_map.1 ho with ⟨r, hr, rfl⟩
    rcases List.mem_filter.1 hr with ⟨hr, hman⟩
    exact List.mem_map.2 ⟨r, hr, (hcalm.server_replay hr hman).symm⟩
  induction hrun with
  | nil =>
      have hinit : (callMachine s₀).init.table = t := hrested.table
      rw [hinit]
  | snoc hrun hstep ih =>
      rename_i h s s' c
      have hfull := Run.snoc hrun hstep
      rw [List.map_append] at hcalm
      have hallPre : ∀ p ∈ h, Proper t p := fun p hp => hall p (List.mem_append_left _ hp)
      have hpre := ih hallPre hcalm.left
      have hlast : Proper t (s, c) := hall _ (List.mem_append_right _ (List.mem_singleton_self _))
      rcases hlast.step hstep with ⟨_, _, hwrites⟩
      have hnofresh : fresh s c = [] := by
        refine fresh_eq_nil (fun k hk => ?_)
        have hreplay := (replay_run hrun hallPre hids
          (fun k hk => hrested.mem_keys.2 (hcalm.left.known k hk))).1
        rw [hreplay, keys_replay]
        refine hrested.mem_keys.2 (hcalm.known k ?_)
        rw [created_append]
        exact List.mem_append_right _ hk
      rcases hwrites hnofresh with hsame | ⟨o, ho, hwritten⟩
      · rw [hsame]
        exact hpre
      · rw [hwritten]
        refine server_update hpre (hobjects hfull hall ?_ o ho)
        rw [List.map_append]
        exact hcalm

/-! ## The look-ups of the second run -/

/-- What the look-ups of a document find in table `t`. -/
def foundIn (t : Table) (entries : List Entry) : List (Option Int) :=
  (linkedOf entries).map (fun e => (t.rows.find? (serves e.2)).map Profile.id)

theorem found_eq {s₀ : Refresh} {h : List (Refresh × Call)} {entries : List Entry}
    (hrested : Rested t s₀) (hids : ∀ o ∈ s₀.subscriptions, ids (keyOf o) = o.id)
    (hrun : Run (callMachine s₀) h s) (hall : ∀ p ∈ h, Proper t p) (hinv : Inv t s)
    (hcalm : Calm t (h.map Prod.snd ++ entries.map (fun e => .create e.1))) :
    found s entries = foundIn t entries := by
  have hnone : Sound (fun k => k ∈ entries.map (fun e => keyOf e.1) ∨ Live s k) [] := trivial
  have hsound : Sound (Live s) (entries.map (fun e => Call.create e.1)) := by
    simpa using sound_creates entries hnone
  rcases run_of_sound _ hrun hall hinv hsound with ⟨s', h', hfold, hrun', hcalls, hall', _⟩
  have hmains : s' = createMains s entries :=
    Option.some.inj (hfold.symm.trans (foldlM_creates entries s))
  have hservers := calm_run hrested hids hrun' hall' (hcalls ▸ hcalm)
  rw [hmains] at hservers
  rw [found, lookups, foundIn, List.map_map]
  exact List.map_congr_left (fun e _ => find?_serves_congr hservers e.2)

/-- In the course of calm calls, the look-ups find what they find in table `t`. -/
theorem foundAll_eq {s₀ : Refresh} (hrested : Rested t s₀)
    (hids : ∀ o ∈ s₀.subscriptions, ids (keyOf o) = o.id) (documents : List (List Entry)) :
    ∀ {h : List (Refresh × Call)} {s : Refresh} {fs : List (List (Option Int))},
      Run (callMachine s₀) h s → (∀ p ∈ h, Proper t p) → Inv t s →
      (fs = foundAll s documents ∨ fs = documents.map (foundIn t)) →
      Calm t (h.map Prod.snd ++ callsOf documents fs) →
      foundAll s documents = documents.map (foundIn t) := by
  induction documents with
  | nil =>
      intro h s fs _ _ _ _ _
      rfl
  | cons entries documents ih =>
      intro h s fs hrun hall hinv hfs hcalm
      have hcons : ∃ f fs', fs = f :: fs' ∧ (f = found s entries ∨ f = foundIn t entries) ∧
          (fs' = foundAll (afterDoc s entries) documents ∨ fs' = documents.map (foundIn t)) := by
        rcases hfs with rfl | rfl
        · exact ⟨_, _, rfl, Or.inl rfl, Or.inl rfl⟩
        · exact ⟨_, _, rfl, Or.inr rfl, Or.inr rfl⟩
      rcases hcons with ⟨f, fs', rfl, hf, hfs'⟩
      have hsplit : callsOf (entries :: documents) (f :: fs') =
          docCalls entries f ++ callsOf documents fs' := rfl
      rw [hsplit, ← List.append_assoc] at hcalm
      -- the look-ups follow the main entries, whose calls do not depend on what is found
      have hfound : found s entries = foundIn t entries := by
        refine found_eq hrested hids hrun hall hinv ?_
        have hdoc := hcalm.left
        rw [docCalls, ← List.append_assoc] at hdoc
        exact hdoc.left
      have hf' : f = found s entries := hf.elim id (fun he => he.trans hfound.symm)
      rcases run_of_sound (docCalls entries f) hrun hall hinv (sound_docCalls _ entries f) with
        ⟨s', h', hfold, hrun', hcalls, hall', hinv'⟩
      have hafter : afterDoc s entries = s' := by
        rw [afterDoc, importEntries_eq, ← hf', hfold]
        rfl
      rw [← hcalls] at hcalm
      rw [hafter] at hfs'
      rw [foundAll, List.map_cons, hfound, hafter, ih hrun' hall' hinv' hfs' hcalm]

/-- Where the managed keys are distinct, preprocessing demotes and deletes nothing. -/
theorem preprocess_loop_of_nodup (currentId : Int) (todo : List Profile) :
    ∀ (seen : List Profile) {s : Refresh},
      (((seen ++ todo).filter isManaged).map keyOf).Nodup →
      s.subscriptions = (seen.filter isManaged).map demote →
      ∃ s', todo.foldlM (preprocessOne currentId) s = some s' ∧ s'.table = s.table ∧
        s'.subscriptions = ((seen ++ todo).filter isManaged).map demote := by
  induction todo with
  | nil =>
      intro seen s _ hsubs
      exact ⟨s, rfl, rfl, by simpa using hsubs⟩
  | cons p todo ih =>
      intro seen s hnodup hsubs
      have hsplit : seen ++ p :: todo = (seen ++ [p]) ++ todo := by simp
      rw [hsplit] at hnodup ⊢
      by_cases huser : p.subscription = .userConfigured
      · have hman : isManaged p = false := by simp [isManaged, huser]
        rcases ih (seen ++ [p]) hnodup (s := s) (by simpa [hman] using hsubs) with ⟨s', hrun, hspec⟩
        refine ⟨s', ?_, hspec⟩
        simp [List.foldlM_cons, preprocessOne, huser, hrun]
      · have hman : isManaged p = true := by simpa [isManaged] using huser
        have hnew : ¬ s.subscriptions.any (fun o => keyOf o == keyOf p) = true := by
          intro hany
          rcases List.any_eq_true.1 hany with ⟨o, ho, hkey⟩
          rw [hsubs] at ho
          rcases List.mem_map.1 ho with ⟨q, hq, rfl⟩
          have hkq : keyOf q = keyOf p := eq_of_beq hkey
          rw [List.filter_append, List.filter_append, List.append_assoc, List.map_append,
            List.nodup_append] at hnodup
          refine hnodup.2.2 _ (List.mem_map_of_mem hq) (keyOf p) ?_ hkq
          simp [hman]
        have hsubs' : s.subscriptions ++ [demote p] =
            ((seen ++ [p]).filter isManaged).map demote := by
          simp [hsubs, hman]
        rcases managed_cases hman with hact | hobs
        · rcases ih (seen ++ [p]) hnodup (s := { s with
              subscriptions := s.subscriptions ++ [demote p]
              toUpdate := p.id :: s.toUpdate }) hsubs' with ⟨s', hrun, hspec⟩
          refine ⟨s', ?_, hspec⟩
          have hone : preprocessOne currentId s p = some { s with
              subscriptions := s.subscriptions ++ [demote p]
              toUpdate := p.id :: s.toUpdate } := by
            rw [preprocessOne, if_neg huser, if_neg hnew, if_pos hact]
            rfl
          simp [List.foldlM_cons, hone, hrun]
        · rcases ih (seen ++ [p]) hnodup (s := { s with subscriptions := s.subscriptions ++ [demote p] })
              hsubs' with ⟨s', hrun, hspec⟩
          refine ⟨s', ?_, hspec⟩
          have hone : preprocessOne currentId s p =
              some { s with subscriptions := s.subscriptions ++ [demote p] } := by
            have hne : ¬ p.subscription = .active := by simp [hobs]
            rw [preprocessOne, if_neg huser, if_neg hnew, if_neg hne,
              PreInv.demote_of_obsolete hobs]
          simp [List.foldlM_cons, hone, hrun]

theorem started_of_nodup (currentId : Int) {t : Table}
    (hnodup : ((t.rows.filter isManaged).map keyOf).Nodup) :
    (started currentId t).table = t ∧
      (started currentId t).subscriptions = (t.rows.filter isManaged).map demote := by
  rcases preprocess_loop_of_nodup currentId t.rows []
      (s := { table := t, subscriptions := [], toUpdate := [], profileId := currentId })
      (by simpa using hnodup) rfl with ⟨s', hrun, htable, hsubs⟩
  have hstart : started currentId t = s' := by
    have hpre : preprocess currentId t = some s' := hrun
    simp [started, hpre]
  rw [hstart]
  exact ⟨htable, by simpa using hsubs⟩

/-- A table is determined by its managed rows, its user rows and the last id. -/
theorem table_ext {t t' : Table} (hman : t.rows.filter isManaged = t'.rows.filter isManaged)
    (huser : t.rows.filter isUser = t'.rows.filter isUser) (hlast : t.lastId = t'.lastId) :
    t = t' := by
  refine Table.ext ?_ hlast
  have hperm : t.rows.Perm t'.rows := by
    have hleft := List.filter_append_perm isManaged t.rows
    have hright := List.filter_append_perm isManaged t'.rows
    have huser' : t.rows.filter (fun p => !isManaged p) = t'.rows.filter (fun p => !isManaged p) :=
      huser
    rw [hman, huser'] at hleft
    exact hleft.symm.trans hright
  refine List.Perm.eq_of_pairwise ?_ t.ids_lt t'.ids_lt hperm
  intro p q _ _ hpq hqp
  omega

/-! ## Twice -/

/-- The id of the managed row with the key. -/
def rowId (t : Table) (k : Key) : Int :=
  (((t.rows.filter isManaged).find? (fun r => keyOf r == k)).map Profile.id).getD 0

/-- The calls that the documents lead to if every look-up is made in table `t`. -/
def restCalls (t : Table) (documents : List (List Entry)) : List Call :=
  callsOf documents (documents.map (foundIn t))

/-- The table is as its own calls would leave it. -/
structure Reflects (t : Table) (documents : List (List Entry)) : Prop where
  known : ∀ k ∈ created (restCalls t documents), ∃ r ∈ t.rows, isManaged r = true ∧ keyOf r = k
  rows : ∀ r ∈ t.rows, isManaged r = true → Mirrors (rowId t) (restCalls t documents) r

theorem Mirrors.kept {r : Profile} (h : Mirrors ids calls r)
    (hfirst : firstCreated calls (keyOf r) = some it) :
    r.password = it.password ∧ r.method = it.method ∧ r.plugin = it.plugin := by
  rw [Mirrors, hfirst] at h
  exact ⟨h.2.1, h.2.2.1, h.2.2.2.1⟩

theorem calm_of_mirrors (hsound : Sound (fun _ => False) calls)
    (hknown : ∀ k ∈ created calls, ∃ r ∈ t.rows, isManaged r = true ∧ keyOf r = k)
    (hrows : ∀ r ∈ t.rows, isManaged r = true → Mirrors ids calls r) : Calm t calls :=
  ⟨hsound, hknown, fun r hr hman _ hfirst => (hrows r hr hman).kept hfirst⟩

theorem rowId_eq {s₀ : Refresh} (hrested : Rested t s₀)
    (hnodup : ((t.rows.filter isManaged).map keyOf).Nodup) :
    ∀ o ∈ s₀.subscriptions, rowId t (keyOf o) = o.id := by
  intro o ho
  rw [hrested.objects] at ho
  rcases List.mem_map.1 ho with ⟨r, hr, rfl⟩
  have hfind : (t.rows.filter isManaged).find? (fun q => keyOf q == keyOf (demote r)) = some r :=
    (Keyed.find?_key_iff hnodup).2 ⟨hr, rfl⟩
  rw [rowId, hfind]
  rfl

/-- Where the managed keys are distinct, a refresh leaves the table alone exactly if the table
reflects the documents. -/
theorem refresh_eq_iff (P : Platform) (currentId : Int) (documents : List (Except String Json))
    (hnodup : ((t.rows.filter isManaged).map keyOf).Nodup) :
    (∃ i, createProfilesFromSubscription P currentId documents t = some (t, i)) ↔
      Reflects t (readable P (t.get currentId) documents) := by
  rcases refresh_spec P currentId documents t with
    ⟨s, t', h, hrefresh, hinv₀, hinv, hobs, _, hrun, hall, hcalls, hmanaged, huser, hlast⟩
  set docs := readable P (t.get currentId) documents
  have hrested : Rested t (started currentId t) := by
    rcases started_of_nodup currentId hnodup with ⟨htable, hsubs⟩
    exact ⟨htable, hsubs⟩
  have hids := rowId_eq hrested hnodup
  have hsound : ∀ fs, Sound (fun _ => False) (callsOf docs fs) := sound_callsOf _ docs
  have hfound : ∀ {fs}, (fs = foundAll (started currentId t) docs ∨ fs = docs.map (foundIn t)) →
      Calm t (callsOf docs fs) → h.map Prod.snd = restCalls t docs := by
    intro fs hfs hcalm
    have hall : foundAll (started currentId t) docs = docs.map (foundIn t) :=
      foundAll_eq hrested hids docs Run.nil (by simp) hinv₀ hfs hcalm
    rw [hcalls, hall, restCalls]
  -- if all keys are known, the managed rows are the replayed ones
  have hrows : (∀ k ∈ created (h.map Prod.snd), ∃ r ∈ t.rows, isManaged r = true ∧ keyOf r = k) →
      t'.rows.filter isManaged = (t.rows.filter isManaged).map
        (fun r => (replay (rowId t) (h.map Prod.snd) (demote r)).stored) ∧ t'.lastId = t.lastId := by
    intro hknown
    rcases replay_run hrun hall hids (fun k hk => hrested.mem_keys.2 (hknown k hk)) with
      ⟨hsubs, hlastId⟩
    refine ⟨?_, ?_⟩
    · rw [hmanaged, hsubs, hrested.objects, List.map_map, List.map_map]
      rfl
    · rw [hlast, hlastId, hrested.table]
  constructor
  · rintro ⟨i, hsame⟩
    have ht' : t' = t := congrArg Prod.fst (Option.some.inj (hrefresh.symm.trans hsame))
    rw [ht'] at hmanaged hrows
    have hmarked := marked_run hrun hall hobs
    have hknown : ∀ k ∈ created (h.map Prod.snd),
        ∃ r ∈ t.rows, isManaged r = true ∧ keyOf r = k := by
      intro k hk
      rcases List.mem_map.1 ((hmarked.keys k).2 (Or.inr hk)) with ⟨o, ho, hok⟩
      have hmem : o.stored ∈ t.rows.filter isManaged := hmanaged ▸ List.mem_map_of_mem ho
      exact ⟨o.stored, (List.mem_filter.1 hmem).1, (List.mem_filter.1 hmem).2, hok⟩
    have hmirrors : ∀ r ∈ t.rows, isManaged r = true → Mirrors (rowId t) (h.map Prod.snd) r := by
      intro r hr hman
      refine (replay_demote_iff (hcalls ▸ hsound _) (t.not_dirty r hr)).1 ?_
      have hself := (hrows hknown).1.symm.trans (List.map_id _).symm
      exact List.map_inj_left.1 hself r (List.mem_filter.2 ⟨hr, hman⟩)
    have hcalm := calm_of_mirrors (hcalls ▸ hsound _) hknown hmirrors
    have hrest := hfound (Or.inl rfl) (hcalls ▸ hcalm)
    exact ⟨hrest ▸ hknown, hrest ▸ hmirrors⟩
  · intro hreflects
    have hcalm : Calm t (restCalls t docs) :=
      calm_of_mirrors (hsound _) hreflects.known hreflects.rows
    have hrest := hfound (Or.inr rfl) hcalm
    rw [hrest] at hrows
    rcases hrows hreflects.known with ⟨hback, hlastId⟩
    have hmanagedEq : t'.rows.filter isManaged = t.rows.filter isManaged := by
      rw [hback]
      refine (List.map_congr_left (fun r hr => ?_)).trans (List.map_id _)
      rcases List.mem_filter.1 hr with ⟨hr, hman⟩
      exact (replay_demote_iff (hsound _) (t.not_dirty r hr)).2 (hreflects.rows r hr hman)
    have ht' : t' = t := table_ext hmanagedEq huser hlastId
    exact ⟨s.profileId, by rw [hrefresh, ht']⟩

/-- A second refresh leaves the table as the first one left it exactly if that table reflects the
documents. -/
theorem refreshed_twice_iff (P : Platform) (currentId : Int)
    (documents : List (Except String Json)) (t : Table) :
    ∃ t₁ i, createProfilesFromSubscription P currentId documents t = some (t₁, i) ∧
      ((∃ j, createProfilesFromSubscription P currentId documents t₁ = some (t₁, j)) ↔
        Reflects t₁ (readable P (t₁.get currentId) documents)) := by
  rcases refresh_spec P currentId documents t with
    ⟨s, t₁, _, hrefresh, _, hinv, _, _, _, _, _, hmanaged, _, _⟩
  refine ⟨t₁, s.profileId, hrefresh, refresh_eq_iff P currentId documents ?_⟩
  rw [hmanaged, List.map_map]
  exact hinv.keys

/-- A document whose entry names a fallback that is an entry as well. -/
def fallbackListed : Json :=
  .array
    [.object (serverMembers "b" 2),
      .object (serverMembers "a" 1 ++ [("udp_fallback", .object (serverMembers "b" 2))])]

example :
    (createProfilesFromSubscription plainPlatform 0 [.ok fallbackListed] Table.empty).bind
      (fun r => (createProfilesFromSubscription plainPlatform 0 [.ok fallbackListed] r.1).map
        (fun r' => decide (r'.1.rows = r.1.rows))) = some true := by
  decide +kernel

/-- Refreshing an empty table twice with an entry and its fallback: the second refresh makes the
fallback Obsolete. -/
theorem withFallback_not_idempotent :
    ∃ t₁ t₂ i j,
      createProfilesFromSubscription plainPlatform 0 [.ok withFallback] Table.empty = some (t₁, i) ∧
      createProfilesFromSubscription plainPlatform 0 [.ok withFallback] t₁ = some (t₂, j) ∧
      (t₁.get 0).isSome = (Table.empty.get 0).isSome ∧ t₂ ≠ t₁ := by
  have hrows : (createProfilesFromSubscription plainPlatform 0 [.ok withFallback] Table.empty).bind
      (fun r => (createProfilesFromSubscription plainPlatform 0 [.ok withFallback] r.1).map
        (fun r' => (decide ((r.1.get 0).isSome = false), decide (r'.1.rows ≠ r.1.rows)))) =
        some (true, true) := by
    decide +kernel
  rcases Option.bind_eq_some_iff.1 hrows with ⟨⟨t₁, i⟩, hfirst, hrest⟩
  rcases Option.map_eq_some_iff.1 hrest with ⟨⟨t₂, j⟩, hsecond, hfacts⟩
  simp only [Prod.mk.injEq, decide_eq_true_eq] at hfacts
  refine ⟨t₁, t₂, i, j, hfirst, hsecond, hfacts.1, ?_⟩
  intro heq
  exact hfacts.2 (congrArg Table.rows heq)

end Subscription
end SpinVpn
