import Mathlib.Data.List.Basic
import SpinVpn.Subscription.Refresh

/-!
# Invariant — what a refresh keeps at every step

`Inv t s` relates the state `s` of a refresh to the table `t` it started from: the managed rows are
those of the objects in memory, in the same order, the user's rows are untouched, and an object
that differs from its row is listed in `toUpdate`.

Preprocessing establishes it (`preprocess_spec`), `create` and `link` keep it, and the write-back
turns it into the statement about the final table that everything else is read from
(`writeBack_spec`): the managed rows are the objects.
-/

namespace SpinVpn
namespace Subscription

open Database

variable {t : Table} {s : Refresh} {o p it : Profile} {key : Key} {id : Int}

/-- The fields that tell the profiles of a refresh apart. -/
def ident (p : Profile) : Int × Key :=
  (p.id, keyOf p)

def isUser (p : Profile) : Bool :=
  !isManaged p

structure Inv (t : Table) (s : Refresh) : Prop where
  idents : (s.table.rows.filter isManaged).map ident = s.subscriptions.map ident
  user : s.table.rows.filter isUser = t.rows.filter isUser
  managed : ∀ o ∈ s.subscriptions, isManaged o = true
  keys : (s.subscriptions.map keyOf).Nodup
  synced : ∀ o ∈ s.subscriptions, o.id ∉ s.toUpdate → o.stored ∈ s.table.rows
  updates : ∀ i ∈ s.toUpdate, ∃ o ∈ s.subscriptions, o.id = i ∧ ∃ p ∈ t.rows, p.id = i
  origin : ∀ o ∈ s.subscriptions, o.subscription = .obsolete → ∃ p ∈ t.rows, p.id = o.id

theorem ident_stored (p : Profile) : ident p.stored = ident p := rfl

theorem isManaged_stored (p : Profile) : isManaged p.stored = isManaged p := rfl

theorem ident_eq_iff {p q : Profile} : ident p = ident q ↔ p.id = q.id ∧ keyOf p = keyOf q :=
  Prod.mk.injEq _ _ _ _ ▸ Iff.rfl

theorem ids_of_idents {l l' : List Profile} (h : l.map ident = l'.map ident) :
    l.map Profile.id = l'.map Profile.id := by
  have hfst := congrArg (List.map Prod.fst) h
  rw [List.map_map, List.map_map] at hfst
  exact hfst

/-- Profiles with the identities of the managed rows have distinct ids. -/
theorem nodup_ids {t : Table} {objects : List Profile}
    (h : (t.rows.filter isManaged).map ident = objects.map ident) :
    (objects.map Profile.id).Nodup := by
  rw [← ids_of_idents h]
  exact (List.filter_sublist.map Profile.id).nodup t.ids_nodup

namespace Inv

theorem find_iff (h : Inv t s) : find s key = some o ↔ o ∈ s.subscriptions ∧ keyOf o = key :=
  Keyed.find?_key_iff h.keys

/-- Every object has a row. -/
theorem row_of_object (h : Inv t s) (ho : o ∈ s.subscriptions) :
    ∃ r ∈ s.table.rows, isManaged r = true ∧ ident r = ident o := by
  have hmem : ident o ∈ (s.table.rows.filter isManaged).map ident := by
    rw [h.idents]
    exact List.mem_map_of_mem ho
  rcases List.mem_map.1 hmem with ⟨r, hr, hident⟩
  exact ⟨r, (List.mem_filter.1 hr).1, (List.mem_filter.1 hr).2, hident⟩

end Inv

/-! ## Writing an object to its row -/

/-- What an update of a managed row by a value with the same identity does to the table. -/
theorem update_managed {t : Table} {r v : Profile} (hr : r ∈ t.rows) (hrm : isManaged r = true)
    (hv : isManaged v = true) (hident : ident r = ident v) :
    ProfileManager.updateProfile t v = some (t.update v) ∧
      ((t.update v).rows.filter isManaged).map ident = (t.rows.filter isManaged).map ident ∧
      (t.update v).rows.filter isUser = t.rows.filter isUser ∧
      v.stored ∈ (t.update v).rows ∧
      ∀ q ∈ t.rows, q.id ≠ v.id → q ∈ (t.update v).rows := by
  have hid : r.id = v.id := (ident_eq_iff.1 hident).1
  have hover : ∀ q ∈ t.rows, Table.overwrite v q = if q = r then v.stored else q :=
    fun q hq => Table.overwrite_eq hr hid hq
  -- the overwritten rows are told apart and sorted into managed and user rows as before
  have hsame : ∀ q ∈ t.rows, isManaged (Table.overwrite v q) = isManaged q ∧
      ident (Table.overwrite v q) = ident q := by
    intro q hq
    rw [hover q hq]
    by_cases hqr : q = r
    · rw [if_pos hqr, isManaged_stored, ident_stored, hqr, hv, hrm, hident]
      exact ⟨rfl, rfl⟩
    · simp [hqr]
  have huser : ∀ q ∈ t.rows, isUser (Table.overwrite v q) = isUser q :=
    fun q hq => by simp [isUser, (hsame q hq).1]
  refine ⟨ProfileManager.updateProfile_of_mem hr hid, ?_, ?_, ?_, ?_⟩
  · have hfilter : t.rows.filter (isManaged ∘ Table.overwrite v) = t.rows.filter isManaged :=
      List.filter_congr (fun q hq => (hsame q hq).1)
    rw [Table.update, List.filter_map, hfilter, List.map_map]
    exact List.map_congr_left (fun q hq => (hsame q (List.mem_filter.1 hq).1).2)
  · have hfilter : t.rows.filter (isUser ∘ Table.overwrite v) = t.rows.filter isUser :=
      List.filter_congr (fun q hq => huser q hq)
    rw [Table.update, List.filter_map, hfilter]
    refine (List.map_congr_left ?_).trans (List.map_id _)
    intro q hq
    have hqr : q ≠ r := by
      rintro rfl
      simp [isUser, hrm] at hq
    simp [hover q (List.mem_filter.1 hq).1, hqr]
  · refine List.mem_map.2 ⟨r, hr, ?_⟩
    simp [hover r hr]
  · intro q hq hne
    refine List.mem_map.2 ⟨q, hq, ?_⟩
    simp [Table.overwrite, hne]

/-! ## Changing an object in memory -/

theorem mem_setObject {objects : List Profile} {f : Profile → Profile} {x : Profile} :
    x ∈ setObject objects key f ↔ ∃ o ∈ objects, x = if keyOf o = key then f o else o := by
  simp only [setObject, List.mem_map, eq_comm]

theorem map_setObject {β : Type} {objects : List Profile} {f : Profile → Profile} {g : Profile → β}
    (h : ∀ o, g (f o) = g o) : (setObject objects key f).map g = objects.map g := by
  rw [setObject, List.map_map]
  refine List.map_congr_left (fun o _ => ?_)
  by_cases hk : keyOf o = key
  · simp [hk, h]
  · simp [hk]

theorem ident_promote (it o : Profile) : ident (promote it o) = ident o := rfl

theorem ident_setFallback (id : Int) (o : Profile) : ident (setFallback id o) = ident o := rfl

theorem keyOf_promote (it o : Profile) : keyOf (promote it o) = keyOf o := rfl

theorem keyOf_setFallback (id : Int) (o : Profile) : keyOf (setFallback id o) = keyOf o := rfl

/-! ## create -/

/-- The object of a new profile. -/
def newObject (t : Table) (it : Profile) : Profile :=
  ProfileManager.numbered t { it with subscription := .active }

theorem keyOf_newObject (t : Table) (it : Profile) : keyOf (newObject t it) = keyOf it := rfl

theorem create_of_absent (hfind : find s (keyOf it) = none) :
    (create s it).1 = { s with
      table := s.table.create (newObject s.table it)
      subscriptions := s.subscriptions ++ [newObject s.table it] } := by
  simp [create, hfind, createNew, ProfileManager.createProfile, newObject]

theorem create_of_active (hfind : find s (keyOf it) = some o) (hact : o.subscription = .active) :
    (create s it).1 = s := by
  simp [create, hfind, hact]

theorem create_of_obsolete (hfind : find s (keyOf it) = some o)
    (hobs : o.subscription = .obsolete) :
    (create s it).1 = { s with
      subscriptions := setObject s.subscriptions (keyOf it) (promote it)
      toUpdate := o.id :: s.toUpdate } := by
  simp [create, hfind, hobs]

theorem managed_cases (h : isManaged o = true) :
    o.subscription = .active ∨ o.subscription = .obsolete := by
  cases hs : o.subscription with
  | userConfigured => simp [isManaged, hs] at h
  | active => exact Or.inl rfl
  | obsolete => exact Or.inr rfl

theorem rows_create (t : Table) (it : Profile) :
    (t.create (newObject t it)).rows = t.rows ++ [(newObject t it).stored] := rfl

namespace Inv

theorem create_absent (h : Inv t s) (hfind : find s (keyOf it) = none) :
    Inv t (create s it).1 := by
  rw [create_of_absent hfind]
  set new := newObject s.table it with hnew
  have hrows : (s.table.create new).rows = s.table.rows ++ [new.stored] := rows_create _ _
  have hman : isManaged new.stored = true := rfl
  have hman' : isManaged new = true := rfl
  constructor
  · rw [hrows, List.filter_append, List.map_append, List.map_append, h.idents]
    simp only [List.filter_cons_of_pos hman, List.filter_nil, List.map_cons, List.map_nil]
    rw [ident_stored]
  · simp [hrows, List.filter_append, isUser, hman, ← h.user]
  · intro o ho
    rcases List.mem_append.1 ho with hold | hlast
    · exact h.managed o hold
    · rw [List.mem_singleton.1 hlast]
      exact hman'
  · have hfresh : ∀ o ∈ s.subscriptions, keyOf o ≠ keyOf it := by
      simpa [find] using hfind
    simp only [List.map_append, List.map_cons, List.map_nil]
    refine List.nodup_append.2 ⟨h.keys, List.nodup_singleton _, ?_⟩
    rw [hnew, keyOf_newObject]
    simpa using hfresh
  · intro o ho hnot
    rw [hrows]
    rcases List.mem_append.1 ho with hold | hlast
    · exact List.mem_append_left _ (h.synced o hold hnot)
    · rw [List.mem_singleton.1 hlast]
      exact List.mem_append_right _ (List.mem_singleton_self _)
  · intro i hi
    rcases h.updates i hi with ⟨o, ho, hid, hp⟩
    exact ⟨o, List.mem_append_left _ ho, hid, hp⟩
  · intro o ho hobs
    rcases List.mem_append.1 ho with hold | hlast
    · exact h.origin o hold hobs
    · rw [List.mem_singleton.1 hlast] at hobs
      cases hobs

theorem create_obsolete (h : Inv t s) (hfind : find s (keyOf it) = some o)
    (hobs : o.subscription = .obsolete) : Inv t (create s it).1 := by
  rw [create_of_obsolete hfind hobs]
  have ho := h.find_iff.1 hfind
  constructor
  · simpa [map_setObject (ident_promote it)] using h.idents
  · exact h.user
  · intro x hx
    rcases mem_setObject.1 hx with ⟨q, hq, rfl⟩
    by_cases hk : keyOf q = keyOf it
    · simp [hk, promote, isManaged]
    · simpa [hk] using h.managed q hq
  · simpa [map_setObject (keyOf_promote it)] using h.keys
  · intro x hx hnot
    rcases mem_setObject.1 hx with ⟨q, hq, rfl⟩
    by_cases hk : keyOf q = keyOf it
    · have hqo : q = o := Keyed.ext_of_key h.keys hq ho.1 (hk.trans ho.2.symm)
      rw [if_pos hk, hqo] at hnot
      exact absurd List.mem_cons_self hnot
    · simp only [hk, if_false, List.mem_cons, not_or] at hnot ⊢
      exact h.synced q hq hnot.2
  · have hkeep : ∀ q ∈ s.subscriptions,
        ∃ x ∈ setObject s.subscriptions (keyOf it) (promote it), x.id = q.id := by
      intro q hq
      refine ⟨_, mem_setObject.2 ⟨q, hq, rfl⟩, ?_⟩
      by_cases hk : keyOf q = keyOf it
      · simp [hk, promote]
      · simp [hk]
    intro i hi
    rcases List.mem_cons.1 hi with rfl | hold
    · rcases hkeep o ho.1 with ⟨x, hx, hid⟩
      exact ⟨x, hx, hid, h.origin o ho.1 hobs⟩
    · rcases h.updates i hold with ⟨q, hq, hid, hp⟩
      rcases hkeep q hq with ⟨x, hx, hid'⟩
      exact ⟨x, hx, hid'.trans hid, hp⟩
  · intro x hx hxobs
    rcases mem_setObject.1 hx with ⟨q, hq, rfl⟩
    by_cases hk : keyOf q = keyOf it
    · simp [hk, promote] at hxobs
    · simp only [hk, if_false] at hxobs ⊢
      exact h.origin q hq hxobs

theorem create (h : Inv t s) (it : Profile) : Inv t (create s it).1 := by
  cases hfind : find s (keyOf it) with
  | none => exact h.create_absent hfind
  | some o =>
      rcases managed_cases (h.managed o (h.find_iff.1 hfind).1) with hact | hobs
      · rw [create_of_active hfind hact]
        exact h
      · exact h.create_obsolete hfind hobs

end Inv

/-! ## link -/

namespace Inv

theorem link_eq (h : Inv t s) (hfind : find s key = some o) (id : Int) :
    link s key id = some { s with
      table := s.table.update (setFallback id o)
      subscriptions := setObject s.subscriptions key (setFallback id) } := by
  have ho := h.find_iff.1 hfind
  rcases h.row_of_object ho.1 with ⟨r, hr, hrm, hident⟩
  have hupdate := update_managed hr hrm (v := setFallback id o) (h.managed o ho.1) hident
  simp [link, hfind, hupdate.1]

theorem link (h : Inv t s) (hfind : find s key = some o) (id : Int) :
    Inv t { s with
      table := s.table.update (setFallback id o)
      subscriptions := setObject s.subscriptions key (setFallback id) } := by
  have ho := h.find_iff.1 hfind
  rcases h.row_of_object ho.1 with ⟨r, hr, hrm, hident⟩
  rcases update_managed hr hrm (v := setFallback id o) (h.managed o ho.1) hident with
    ⟨_, hidents, huser, hstored, hother⟩
  have hobject : ∀ q ∈ s.subscriptions, keyOf q = key → q = o := fun q hq hk =>
    Keyed.ext_of_key h.keys hq ho.1 (hk.trans ho.2.symm)
  constructor
  · rw [hidents, map_setObject (ident_setFallback id)]
    exact h.idents
  · exact huser.trans h.user
  · intro x hx
    rcases mem_setObject.1 hx with ⟨q, hq, rfl⟩
    by_cases hk : keyOf q = key
    · simpa [hk, setFallback, isManaged] using h.managed q hq
    · simpa [hk] using h.managed q hq
  · simpa [map_setObject (keyOf_setFallback id)] using h.keys
  · intro x hx hnot
    rcases mem_setObject.1 hx with ⟨q, hq, rfl⟩
    by_cases hk : keyOf q = key
    · rw [if_pos hk, hobject q hq hk]
      exact hstored
    · simp only [hk, if_false] at hnot ⊢
      refine hother _ (h.synced q hq hnot) ?_
      -- another object has another row
      intro hid
      rcases h.row_of_object hq with ⟨r', hr', _, hident'⟩
      have hrr : r' = r := Table.row_ext hr' hr
        ((ident_eq_iff.1 hident').1.trans (hid.trans (ident_eq_iff.1 hident).1.symm))
      have hkeys : keyOf q = keyOf o := by
        rw [← (ident_eq_iff.1 hident').2, hrr, (ident_eq_iff.1 hident).2]
      exact hk (hkeys.trans ho.2)
  · intro i hi
    rcases h.updates i hi with ⟨q, hq, hid, hp⟩
    refine ⟨_, mem_setObject.2 ⟨q, hq, rfl⟩, ?_, hp⟩
    by_cases hk : keyOf q = key
    · simpa [hk, setFallback] using hid
    · simpa [hk] using hid
  · intro x hx hxobs
    rcases mem_setObject.1 hx with ⟨q, hq, rfl⟩
    by_cases hk : keyOf q = key
    · simp only [hk, if_true] at hxobs ⊢
      exact h.origin q hq hxobs
    · simp only [hk, if_false] at hxobs ⊢
      exact h.origin q hq hxobs

end Inv

/-! ## Preprocessing -/

def demote (p : Profile) : Profile :=
  { p with subscription := .obsolete }

/-- The invariant of the preprocessing loop, with the rows still to come. -/
structure PreInv (t : Table) (seen todo : List Profile) (s : Refresh) : Prop where
  idents : (s.table.rows.filter isManaged).map ident =
    s.subscriptions.map ident ++ (todo.filter isManaged).map ident
  user : s.table.rows.filter isUser = t.rows.filter isUser
  obsolete : ∀ o ∈ s.subscriptions, o.subscription = .obsolete
  keys : (s.subscriptions.map keyOf).Nodup
  synced : ∀ o ∈ s.subscriptions, o.id ∉ s.toUpdate → o.stored ∈ s.table.rows
  updates : ∀ i ∈ s.toUpdate, ∃ o ∈ s.subscriptions, o.id = i
  origin : ∀ o ∈ s.subscriptions, ∃ p ∈ t.rows, p.id = o.id
  todo_rows : ∀ p ∈ todo, p ∈ s.table.rows
  todo_nodup : todo.Nodup
  todo_origin : ∀ p ∈ todo, p ∈ t.rows
  seen_keys : ∀ k, k ∈ s.subscriptions.map keyOf ↔ ∃ p ∈ seen, isManaged p = true ∧ keyOf p = k

namespace PreInv

variable {seen todo : List Profile}

theorem filter_delete (t : Table) (id : Int) (P : Profile → Bool) :
    (t.delete id).rows.filter P = (t.rows.filter P).filter (fun q => q.id != id) := by
  simp only [Table.delete, List.filter_filter, Bool.and_comm]

theorem filter_ident_of_ne {l : List Profile} {id : Int} (h : ∀ o ∈ l, o.id ≠ id) :
    (l.map ident).filter (fun e => e.1 != id) = l.map ident := by
  refine List.filter_eq_self.2 (fun e he => ?_)
  rcases List.mem_map.1 he with ⟨o, ho, rfl⟩
  simpa [ident] using h o ho

/-- One more profile was seen. -/
theorem exists_seen_append (k : Key) :
    (∃ q ∈ seen ++ [p], isManaged q = true ∧ keyOf q = k) ↔
      (∃ q ∈ seen, isManaged q = true ∧ keyOf q = k) ∨ isManaged p = true ∧ keyOf p = k := by
  simp only [List.mem_append, List.mem_singleton, or_and_right, exists_or, exists_eq_left]

/-- A duplicate is deleted. -/
theorem delete (h : PreInv t seen (p :: todo) s) (hp : isManaged p = true)
    (hdup : keyOf p ∈ s.subscriptions.map keyOf) (profileId : Int) :
    ProfileManager.delProfile s.table p.id = some (s.table.delete p.id) ∧
      PreInv t (seen ++ [p]) todo
        { s with table := s.table.delete p.id, profileId := profileId } := by
  have hrow : p ∈ s.table.rows := h.todo_rows p List.mem_cons_self
  -- the ids of the managed rows are distinct, so the deleted one does not occur again
  have hnodup : ((s.subscriptions ++ p :: todo.filter isManaged).map Profile.id).Nodup :=
    nodup_ids (by simpa [hp] using h.idents)
  have hfresh : ∀ o ∈ s.subscriptions ++ todo.filter isManaged, o.id ≠ p.id := by
    rw [List.map_append, List.map_cons, List.nodup_middle, List.nodup_cons] at hnodup
    intro o ho heq
    refine hnodup.1 ?_
    rw [← List.map_append]
    exact List.mem_map.2 ⟨o, ho, heq⟩
  have hsubs : ∀ o ∈ s.subscriptions, o.id ≠ p.id := fun o ho =>
    hfresh o (List.mem_append_left _ ho)
  refine ⟨ProfileManager.delProfile_of_mem hrow, ?_⟩
  constructor
  · have hmap : ((s.table.rows.filter isManaged).filter (fun q => q.id != p.id)).map ident =
        ((s.table.rows.filter isManaged).map ident).filter (fun e => e.1 != p.id) := by
      rw [List.filter_map]
      rfl
    have htodo : ∀ o ∈ todo.filter isManaged, o.id ≠ p.id := fun o ho =>
      hfresh o (List.mem_append_right _ ho)
    rw [filter_delete, hmap, h.idents, List.filter_append, filter_ident_of_ne hsubs]
    simp [hp, ident, filter_ident_of_ne htodo]
  · rw [filter_delete, ← h.user]
    refine List.filter_eq_self.2 (fun q hq => ?_)
    rcases List.mem_filter.1 hq with ⟨hqrow, hquser⟩
    have hne : q.id ≠ p.id := by
      intro hid
      rw [Table.row_ext hqrow hrow hid, isUser, hp] at hquser
      cases hquser
    simpa using hne
  · exact h.obsolete
  · exact h.keys
  · intro o ho hnot
    refine List.mem_filter.2 ⟨h.synced o ho hnot, ?_⟩
    simpa using hsubs o ho
  · exact h.updates
  · exact h.origin
  · intro q hq
    have hqrow := h.todo_rows q (List.mem_cons_of_mem _ hq)
    have hne : q.id ≠ p.id := by
      intro hid
      rw [Table.row_ext hqrow hrow hid] at hq
      exact (List.nodup_cons.1 h.todo_nodup).1 hq
    exact List.mem_filter.2 ⟨hqrow, by simpa using hne⟩
  · exact (List.nodup_cons.1 h.todo_nodup).2
  · exact fun q hq => h.todo_origin q (List.mem_cons_of_mem _ hq)
  · intro k
    rw [exists_seen_append, ← h.seen_keys]
    constructor
    · exact Or.inl
    · rintro (hold | ⟨-, rfl⟩)
      · exact hold
      · exact hdup

/-- The first profile with its key becomes an object, demoted if it was Active. -/
theorem add (h : PreInv t seen (p :: todo) s) (hp : isManaged p = true)
    (hnew : keyOf p ∉ s.subscriptions.map keyOf) (toUpdate : List Int)
    (hupdate : ∀ i, i ∈ toUpdate → i = p.id ∨ i ∈ s.toUpdate)
    (hkeep : ∀ i ∈ s.toUpdate, i ∈ toUpdate)
    (hsync : p.id ∉ toUpdate → p.subscription = .obsolete) :
    PreInv t (seen ++ [p]) todo
      { s with subscriptions := s.subscriptions ++ [demote p], toUpdate := toUpdate } := by
  have hident : ident (demote p) = ident p := rfl
  constructor
  · simpa [hp, hident] using h.idents
  · exact h.user
  · intro o ho
    rcases List.mem_append.1 ho with hold | hlast
    · exact h.obsolete o hold
    · rw [List.mem_singleton.1 hlast]
      rfl
  · rw [List.map_append]
    refine List.nodup_append.2 ⟨h.keys, List.nodup_singleton _, ?_⟩
    intro k hk k' hk' heq
    have hkp : k' = keyOf p := List.mem_singleton.1 hk'
    exact hnew (hkp ▸ heq ▸ hk)
  · intro o ho hnot
    rcases List.mem_append.1 ho with hold | hlast
    · exact h.synced o hold (fun hmem => hnot (hkeep _ hmem))
    · rw [List.mem_singleton.1 hlast] at hnot ⊢
      have hrow := h.todo_rows p List.mem_cons_self
      have hsame : (demote p).stored = p := by
        have hobs := hsync hnot
        have hclean := s.table.not_dirty p hrow
        cases p
        simp_all [demote, Profile.stored]
      rw [hsame]
      exact hrow
  · intro i hi
    rcases hupdate i hi with rfl | hold
    · exact ⟨demote p, List.mem_append_right _ (List.mem_singleton_self _), rfl⟩
    · rcases h.updates i hold with ⟨o, ho, hid⟩
      exact ⟨o, List.mem_append_left _ ho, hid⟩
  · intro o ho
    rcases List.mem_append.1 ho with hold | hlast
    · exact h.origin o hold
    · rw [List.mem_singleton.1 hlast]
      exact ⟨p, h.todo_origin p List.mem_cons_self, rfl⟩
  · exact fun q hq => h.todo_rows q (List.mem_cons_of_mem _ hq)
  · exact (List.nodup_cons.1 h.todo_nodup).2
  · exact fun q hq => h.todo_origin q (List.mem_cons_of_mem _ hq)
  · intro k
    have hlast : k ∈ [demote p].map keyOf ↔ isManaged p = true ∧ keyOf p = k := by
      rw [and_iff_right hp, eq_comm]
      exact List.mem_singleton
    rw [List.map_append, List.mem_append, exists_seen_append, h.seen_keys, hlast]

/-- A profile of the user is passed over. -/
theorem skip (h : PreInv t seen (p :: todo) s) (hp : isManaged p = false) :
    PreInv t (seen ++ [p]) todo s := by
  constructor
  · simpa [hp] using h.idents
  · exact h.user
  · exact h.obsolete
  · exact h.keys
  · exact h.synced
  · exact h.updates
  · exact h.origin
  · exact fun q hq => h.todo_rows q (List.mem_cons_of_mem _ hq)
  · exact (List.nodup_cons.1 h.todo_nodup).2
  · exact fun q hq => h.todo_origin q (List.mem_cons_of_mem _ hq)
  · intro k
    have hlast : ¬ (isManaged p = true ∧ keyOf p = k) := by simp [hp]
    rw [exists_seen_append, or_iff_left hlast, h.seen_keys]

theorem demote_of_obsolete {p : Profile} (h : p.subscription = .obsolete) : demote p = p := by
  cases p
  simp_all [demote]

theorem preprocessOne (h : PreInv t seen (p :: todo) s) (currentId : Int) :
    ∃ s', preprocessOne currentId s p = some s' ∧ PreInv t (seen ++ [p]) todo s' := by
  have hany : s.subscriptions.any (fun o => keyOf o == keyOf p) = true ↔
      keyOf p ∈ s.subscriptions.map keyOf := by
    simp
  by_cases huser : p.subscription = .userConfigured
  · exact ⟨s, by simp [Subscription.preprocessOne, huser], h.skip (by simp [isManaged, huser])⟩
  · have hp : isManaged p = true := by simpa [isManaged] using huser
    by_cases hdup : keyOf p ∈ s.subscriptions.map keyOf
    · rcases h.delete hp hdup (if currentId = p.id then 0 else s.profileId) with ⟨hdel, hinv⟩
      refine ⟨_, ?_, hinv⟩
      rw [Subscription.preprocessOne, if_neg huser, if_pos (hany.2 hdup), hdel]
      rfl
    · have hnot : ¬ s.subscriptions.any (fun o => keyOf o == keyOf p) = true :=
        fun hc => hdup (hany.1 hc)
      rcases managed_cases hp with hact | hobs
      · refine ⟨_, ?_, h.add hp hdup (p.id :: s.toUpdate)
          (fun i hi => List.mem_cons.1 hi) (fun i hi => List.mem_cons_of_mem _ hi)
          (fun hc => absurd List.mem_cons_self hc)⟩
        rw [Subscription.preprocessOne, if_neg huser, if_neg hnot, if_pos hact]
        rfl
      · refine ⟨_, ?_, h.add hp hdup s.toUpdate (fun i hi => Or.inr hi)
          (fun i hi => hi) (fun _ => hobs)⟩
        have hne : ¬ p.subscription = .active := by simp [hobs]
        rw [Subscription.preprocessOne, if_neg huser, if_neg hnot, if_neg hne,
          demote_of_obsolete hobs]

theorem preprocess_loop (currentId : Int) (todo : List Profile) :
    ∀ {seen : List Profile} {s : Refresh}, PreInv t seen todo s →
      ∃ s', todo.foldlM (Subscription.preprocessOne currentId) s = some s' ∧
        PreInv t (seen ++ todo) [] s' := by
  induction todo with
  | nil =>
      intro seen s h
      exact ⟨s, rfl, by simpa using h⟩
  | cons p todo ih =>
      intro seen s h
      rcases h.preprocessOne currentId with ⟨s₁, hstep, hinv⟩
      rcases ih hinv with ⟨s', hrest, hinv'⟩
      refine ⟨s', ?_, by simpa using hinv'⟩
      simp [List.foldlM_cons, hstep, hrest]

end PreInv

/-- Preprocessing leaves one Obsolete object for each key of a managed profile. -/
theorem preprocess_spec (currentId : Int) (t : Table) :
    ∃ s, preprocess currentId t = some s ∧ Inv t s ∧
      (∀ o ∈ s.subscriptions, o.subscription = .obsolete) ∧
      ∀ k, k ∈ s.subscriptions.map keyOf ↔ ∃ p ∈ t.rows, isManaged p = true ∧ keyOf p = k := by
  have hstart : PreInv t [] t.rows
      { table := t, subscriptions := [], toUpdate := [], profileId := currentId } := by
    constructor <;> try simp
    exact List.Nodup.of_map _ t.ids_nodup
  rcases PreInv.preprocess_loop currentId t.rows hstart with ⟨s, hrun, h⟩
  refine ⟨s, hrun, ?_, h.obsolete, by simpa using h.seen_keys⟩
  constructor
  · simpa using h.idents
  · exact h.user
  · intro o ho
    simp [isManaged, h.obsolete o ho]
  · exact h.keys
  · exact h.synced
  · intro i hi
    rcases h.updates i hi with ⟨o, ho, rfl⟩
    exact ⟨o, ho, rfl, h.origin o ho⟩
  · exact fun o ho _ => h.origin o ho

/-! ## The write-back -/

/-- Lists of rows of one table with the same ids are equal. -/
theorem rows_ext {t : Table} :
    ∀ {l l' : List Profile}, (∀ p ∈ l, p ∈ t.rows) → (∀ p ∈ l', p ∈ t.rows) →
      l.map Profile.id = l'.map Profile.id → l = l' := by
  intro l
  induction l with
  | nil =>
      intro l' _ _ hids
      exact (List.map_eq_nil_iff.1 hids.symm).symm
  | cons p l ih =>
      intro l' hl hl' hids
      cases l' with
      | nil => simp at hids
      | cons q l' =>
          simp only [List.map_cons, List.cons.injEq] at hids
          have hpq := Table.row_ext (hl p List.mem_cons_self) (hl' q List.mem_cons_self) hids.1
          have hrest := ih (fun x hx => hl x (List.mem_cons_of_mem _ hx))
            (fun x hx => hl' x (List.mem_cons_of_mem _ hx)) hids.2
          rw [hpq, hrest]

/-- The invariant of the write-back loop: `written` are the profiles it has passed. -/
structure BackInv (s : Refresh) (t' : Table) (written : List Profile) : Prop where
  idents : (t'.rows.filter isManaged).map ident = s.subscriptions.map ident
  user : t'.rows.filter isUser = s.table.rows.filter isUser
  lastId : t'.lastId = s.table.lastId
  synced : ∀ o ∈ s.subscriptions, (o.id ∉ s.toUpdate ∨ ∃ p ∈ written, p.id = o.id) →
    o.stored ∈ t'.rows

theorem BackInv.writeBackOne (h : Inv t s) {t' : Table} {written : List Profile}
    (hb : BackInv s t' written) (p : Profile) :
    ∃ t'', writeBackOne s t' p = some t'' ∧ BackInv s t'' (written ++ [p]) := by
  have hnodup : (s.subscriptions.map Profile.id).Nodup := nodup_ids hb.idents
  by_cases hmem : p.id ∈ s.toUpdate
  · rcases h.updates p.id hmem with ⟨o, ho, hid, _⟩
    have hfind : s.subscriptions.find? (fun o => o.id == p.id) = some o :=
      (Keyed.find?_key_iff hnodup).2 ⟨ho, hid⟩
    have hrow : ident o ∈ (t'.rows.filter isManaged).map ident := by
      rw [hb.idents]
      exact List.mem_map_of_mem ho
    rcases List.mem_map.1 hrow with ⟨r, hr, hident⟩
    rcases List.mem_filter.1 hr with ⟨hr, hrm⟩
    rcases update_managed hr hrm (h.managed o ho) hident with
      ⟨hupdate, hidents, huser, hstored, hother⟩
    refine ⟨t'.update o, ?_, ?_⟩
    · simp [Subscription.writeBackOne, hmem, hfind, hupdate]
    · constructor
      · exact hidents.trans hb.idents
      · exact huser.trans hb.user
      · exact hb.lastId
      · intro q hq hcond
        by_cases hqo : q.id = o.id
        · rw [Keyed.ext_of_key hnodup hq ho hqo]
          exact hstored
        · refine hother q.stored (hb.synced q hq ?_) hqo
          rcases hcond with hnot | ⟨x, hx, hxid⟩
          · exact Or.inl hnot
          · rcases List.mem_append.1 hx with hold | hlast
            · exact Or.inr ⟨x, hold, hxid⟩
            · rw [List.mem_singleton.1 hlast, ← hid] at hxid
              exact absurd hxid.symm hqo
  · refine ⟨t', by simp [Subscription.writeBackOne, hmem], ?_⟩
    refine ⟨hb.idents, hb.user, hb.lastId, ?_⟩
    intro q hq hcond
    refine hb.synced q hq ?_
    rcases hcond with hnot | ⟨x, hx, hxid⟩
    · exact Or.inl hnot
    · rcases List.mem_append.1 hx with hold | hlast
      · exact Or.inr ⟨x, hold, hxid⟩
      · rw [List.mem_singleton.1 hlast] at hxid
        exact Or.inl (hxid ▸ hmem)

theorem writeBack_loop (h : Inv t s) (profiles : List Profile) :
    ∀ {t' : Table} {written : List Profile}, BackInv s t' written →
      ∃ t'', profiles.foldlM (writeBackOne s) t' = some t'' ∧
        BackInv s t'' (written ++ profiles) := by
  induction profiles with
  | nil =>
      intro t' written hb
      exact ⟨t', rfl, by simpa using hb⟩
  | cons p profiles ih =>
      intro t' written hb
      rcases hb.writeBackOne h p with ⟨t₁, hstep, hb₁⟩
      rcases ih hb₁ with ⟨t'', hrest, hb''⟩
      refine ⟨t'', ?_, by simpa using hb''⟩
      simp [List.foldlM_cons, hstep, hrest]

/-- After the write-back the managed rows are the objects, and the user's rows are as they were. -/
theorem writeBack_spec (h : Inv t s) :
    ∃ t', writeBack s t.rows = some t' ∧
      t'.rows.filter isManaged = s.subscriptions.map Profile.stored ∧
      t'.rows.filter isUser = t.rows.filter isUser ∧ t'.lastId = s.table.lastId := by
  have hstart : BackInv s s.table [] := by
    refine ⟨h.idents, rfl, rfl, ?_⟩
    rintro o ho (hnot | ⟨p, hp, _⟩)
    · exact h.synced o ho hnot
    · cases hp
  rcases writeBack_loop h t.rows hstart with ⟨t', hrun, hb⟩
  refine ⟨t', hrun, ?_, hb.user.trans h.user, hb.lastId⟩
  refine rows_ext (t := t') (fun p hp => (List.mem_filter.1 hp).1) ?_ ?_
  · intro p hp
    rcases List.mem_map.1 hp with ⟨o, ho, rfl⟩
    refine hb.synced o ho ?_
    by_cases hmem : o.id ∈ s.toUpdate
    · rcases h.updates o.id hmem with ⟨_, _, _, p, hp, hid⟩
      exact Or.inr ⟨p, by simpa using hp, hid⟩
    · exact Or.inl hmem
  · have hids := ids_of_idents hb.idents
    rw [List.map_map]
    exact hids

end Subscription
end SpinVpn
