import Mathlib.Data.List.Basic
import SpinVpn.Database.Entries
import SpinVpn.Database.Export

/-!
# Import — creating the profiles of a document

`Profile.parseJson` with `ProfileManager.createProfile` as the caller's `create`.  The state is the
table with the profile objects that were created, which `finalize` changes and writes back; an
object is known by its id.

Into an empty table the import comes down to two lists.  `taken` pairs each created row with the
fallback it takes, and the final rows are these rows, each linked to the first row that serves as
its fallback (`importEntries_rows`).
-/

namespace SpinVpn
namespace Database

open Plugin
open Plugin.PluginConfiguration (selectedOptions rejoined)

/-! ## The caller's state -/

structure Import where
  table : Table
  /-- the profile objects that `createProfile` has returned -/
  objects : List Profile

namespace Import

def create (s : Import) (it : Profile) : Import × Int :=
  let created := ProfileManager.createProfile s.table it
  ({ table := created.1, objects := s.objects ++ [created.2] }, created.2.id)

def link (s : Import) (ref id : Int) : Option Import :=
  match s.objects.find? (fun o => o.id == ref) with
  | none => none
  | some o =>
      (ProfileManager.updateProfile s.table (setFallback id o)).map (fun t =>
        { table := t
          objects := s.objects.map (fun o => if o.id = ref then setFallback id o else o) })

def creator : Creator Import Int where
  create := create
  getAllProfiles := fun s => ProfileManager.getAllProfiles s.table
  idOf := fun _ ref => ref
  link := link

/-- In an import into an empty table every row is that of an object. -/
def Aligned (s : Import) : Prop :=
  s.objects = s.table.rows

end Import

/-- `parseJson` without a feature profile; `none` where it throws. -/
def parseJson (P : Platform) (json : Json) (t : Table) : Option Table :=
  match process (tryParse P none) json with
  | .error _ => none
  | .ok entries =>
      (importEntries Import.creator { table := t, objects := [] } entries).map Import.table

/-! ## Creating -/

/-- The rows that the loop creates, each with the fallback that it takes. -/
def taken : Table → List (Profile × Profile) → List Entry → List (Profile × Option Profile)
  | _, _, [] => []
  | t, pending, e :: entries =>
      (ProfileManager.numbered t e.1, Keyed.get e.1 pending) ::
        taken (t.create (ProfileManager.numbered t e.1)) (Keyed.remove e.1 pending) entries

theorem taken_snd (entries : List Entry) :
    ∀ (t : Table) (pending : List (Profile × Profile)),
      (taken t pending entries).map Prod.snd = assigned pending entries := by
  induction entries with
  | nil =>
      intro t pending
      rfl
  | cons e entries ih =>
      intro t pending
      rw [taken, assigned, List.map_cons, ih]

/-- A created row has everything but its id and place from the entry. -/
theorem taken_fst (entries : List Entry) :
    ∀ (t : Table) (pending : List (Profile × Profile)),
      List.Forall₂ (fun e x => ∃ id order, x.1 = { e.1 with id := id, userOrder := order }) entries
        (taken t pending entries) := by
  induction entries with
  | nil =>
      intro t pending
      exact List.Forall₂.nil
  | cons e entries ih =>
      intro t pending
      exact List.Forall₂.cons ⟨_, _, rfl⟩ (ih _ _)

/-- The entries of `fallbackMap` when `finalize` starts. -/
def links (l : List (Profile × Option Profile)) : List (Int × Profile) :=
  l.filterMap (fun x => x.2.map (fun fallback => (x.1.id, fallback)))

theorem create_rows {t : Table} {profile : Profile} (h : profile.dirty = false) :
    (t.create (ProfileManager.numbered t profile)).rows =
      t.rows ++ [ProfileManager.numbered t profile] := by
  simp [Table.create, ProfileManager.numbered, Profile.stored, h]

theorem next_not_mem {linked : List (Int × Profile)} {n : Int} (h : ∀ e ∈ linked, e.1 ≤ n) :
    n + 1 ∉ linked.map Prod.fst := by
  intro hmem
  rcases List.mem_map.1 hmem with ⟨d, hd, hid⟩
  have := h d hd
  omega

/-- A new reference is not in the map yet, so its fallback goes to the end. -/
theorem createAll_cons {σ : Type} {C : Creator σ Int} {s : σ} {pending : List (Profile × Profile)}
    {linked : List (Int × Profile)} {profile : Profile} {fallback : Option Profile}
    {entries : List Entry} (h : (C.create s profile).2 ∉ linked.map Prod.fst) :
    createAll C s pending linked ((profile, fallback) :: entries) =
      createAll C (C.create s profile).1 (Keyed.remove profile pending)
        (linked ++ (Keyed.get profile pending).toList.map (fun f => ((C.create s profile).2, f)))
          entries := by
  rw [createAll]
  cases Keyed.get profile pending with
  | none => rw [Option.toList_none, List.map_nil, List.append_nil]
  | some f =>
      rw [Option.toList_some, List.map_singleton, ← Keyed.put_of_not_mem f h]

theorem createAll_taken (entries : List Entry) :
    ∀ (s : Import) (pending : List (Profile × Profile)) (linked : List (Int × Profile)),
      s.Aligned → (∀ e ∈ entries, e.1.dirty = false) → (∀ e ∈ linked, e.1 ≤ s.table.lastId) →
        ∃ s' : Import, createAll Import.creator s pending linked entries =
            (s', entries.foldl (fun m e => Keyed.remove e.1 m) pending,
              linked ++ links (taken s.table pending entries)) ∧
          s'.Aligned ∧
          s'.table.rows = s.table.rows ++ (taken s.table pending entries).map Prod.fst := by
  induction entries with
  | nil =>
      intro s pending linked haligned _ _
      exact ⟨s, by simp [createAll, taken, links], haligned, by simp [taken]⟩
  | cons e entries ih =>
      intro s pending linked haligned hdirty hlinked
      rcases e with ⟨profile, fallback⟩
      have hclean : profile.dirty = false := hdirty _ List.mem_cons_self
      have hrows := @create_rows s.table profile hclean
      have hnext : (Import.create s profile).1.Aligned := by
        have hobjects : (Import.create s profile).1.objects =
            s.objects ++ [ProfileManager.numbered s.table profile] := rfl
        rw [Import.Aligned, hobjects, show s.objects = s.table.rows from haligned]
        exact hrows.symm
      let linked' := linked ++
        (Keyed.get profile pending).toList.map (fun f => (s.table.lastId + 1, f))
      have hbound : ∀ d ∈ linked', d.1 ≤ (Import.create s profile).1.table.lastId := by
        have hlast : (Import.create s profile).1.table.lastId = s.table.lastId + 1 := rfl
        intro d hd
        rcases List.mem_append.1 hd with hold | hnew
        · have := hlinked d hold
          omega
        · rcases List.mem_map.1 hnew with ⟨f, _, rfl⟩
          exact Int.le_of_eq hlast.symm
      rcases ih (Import.create s profile).1 (Keyed.remove profile pending) linked' hnext
          (fun d hd => hdirty d (List.mem_cons_of_mem _ hd)) hbound with ⟨s', hall, haligned', hs'⟩
      have htable : (Import.create s profile).1.table =
          s.table.create (ProfileManager.numbered s.table profile) := rfl
      rw [htable] at hall hs'
      refine ⟨s', ?_, haligned', ?_⟩
      · have hstep : createAll Import.creator s pending linked ((profile, fallback) :: entries) =
            createAll Import.creator (Import.create s profile).1 (Keyed.remove profile pending)
              linked' entries := createAll_cons (next_not_mem hlinked)
        rw [hstep, hall, List.foldl_cons, taken, List.append_assoc]
        cases Keyed.get profile pending <;> rfl
      · calc
          s'.table.rows = (s.table.create (ProfileManager.numbered s.table profile)).rows ++
              (taken (s.table.create (ProfileManager.numbered s.table profile))
                (Keyed.remove profile pending) entries).map Prod.fst := hs'
          _ = s.table.rows ++ ProfileManager.numbered s.table profile ::
              (taken (s.table.create (ProfileManager.numbered s.table profile))
                (Keyed.remove profile pending) entries).map Prod.fst := by
            rw [hrows, List.append_assoc, List.singleton_append]
          _ = s.table.rows ++ (taken s.table pending ((profile, fallback) :: entries)).map Prod.fst := by
            rw [taken, List.map_cons]

/-! ## Linking -/

/-- A row with the fallback that the map holds for it. -/
def relink (rows : List Profile) (linked : List (Int × Profile)) (r : Profile) : Profile :=
  match (Keyed.get r.id linked).bind (fun fallback => rows.find? (serves fallback)) with
  | none => r
  | some row => setFallback row.id r

/-- A profile that is written back with a fallback changes its own row only. -/
theorem update_setFallback {t : Table} {r : Profile} (hr : r ∈ t.rows) (id : Int) :
    (t.update (setFallback id r)).rows =
      t.rows.map (fun o => if o.id = r.id then setFallback id o else o) := by
  refine List.map_congr_left (fun o ho => ?_)
  have hid : (setFallback id r).id = r.id := rfl
  rw [Table.overwrite, hid]
  by_cases heq : o.id = r.id
  · have hclean : (setFallback id r).stored = setFallback id r := by
      simp [Profile.stored, setFallback, t.not_dirty r hr]
    rw [if_pos heq, if_pos heq, Table.row_ext ho hr heq, hclean]
  · rw [if_neg heq, if_neg heq]

theorem link_aligned {s : Import} (h : s.Aligned) {r : Profile} (hr : r ∈ s.table.rows) (id : Int) :
    ∃ s' : Import, Import.link s r.id id = some s' ∧ s'.Aligned ∧
      s'.table.rows = s.table.rows.map (fun o => if o.id = r.id then setFallback id o else o) := by
  have hfind : s.objects.find? (fun o => o.id == r.id) = some r := by
    rw [show s.objects = s.table.rows from h]
    exact Table.get_eq_some_iff.2 ⟨hr, rfl⟩
  have hupdate : ProfileManager.updateProfile s.table (setFallback id r) =
      some (s.table.update (setFallback id r)) := ProfileManager.updateProfile_of_mem hr rfl
  have hrows := update_setFallback hr id
  simp only [Import.link, hfind, hupdate, Option.map_some, Option.some.injEq]
  refine ⟨_, rfl, ?_, hrows⟩
  rw [Import.Aligned, hrows, show s.objects = s.table.rows from h]

/-- Where every waiting fallback is served by a row, `finalize` creates nothing. -/
theorem finalize_relink {rows : List Profile} (linked : List (Int × Profile)) :
    ∀ s : Import, s.Aligned → (linked.map Prod.fst).Nodup →
      (∀ e ∈ linked, e.1 ∈ s.table.rows.map Profile.id) →
      (∀ e ∈ linked, (rows.find? (serves e.2)).isSome = true) →
        ∃ s' : Import, finalize Import.creator rows s linked = some s' ∧
          s'.table.rows = s.table.rows.map (relink rows linked) := by
  induction linked with
  | nil =>
      intro s _ _ _ _
      exact ⟨s, rfl, (List.map_id _).symm⟩
  | cons e linked ih =>
      intro s haligned hnodup hids hserved
      rcases e with ⟨ref, fallback⟩
      rcases List.nodup_cons.1 hnodup with ⟨hnew, hnodup'⟩
      rcases Option.isSome_iff_exists.1 (hserved _ List.mem_cons_self) with ⟨row, hrow⟩
      rcases List.mem_map.1 (hids _ List.mem_cons_self) with ⟨r, hr, hid⟩
      dsimp only at hid hrow
      subst hid
      rcases link_aligned haligned hr row.id with ⟨s', hlink, haligned', hrows⟩
      have hids' : s'.table.rows.map Profile.id = s.table.rows.map Profile.id := by
        rw [hrows, List.map_map]
        refine List.map_congr_left (fun o _ => ?_)
        by_cases heq : o.id = r.id <;> simp [heq, setFallback]
      rcases ih s' haligned' hnodup'
          (fun d hd => hids' ▸ hids d (List.mem_cons_of_mem _ hd))
          (fun d hd => hserved d (List.mem_cons_of_mem _ hd)) with ⟨s'', hfinal, hrows'⟩
      refine ⟨s'', ?_, ?_⟩
      · have hcreator : Import.creator.link s r.id row.id = some s' := hlink
        simp only [finalize, hrow, hcreator, Option.bind_some, hfinal]
      · rw [hrows', hrows, List.map_map]
        refine List.map_congr_left (fun o _ => ?_)
        have hnone : Keyed.get r.id linked = none := Keyed.get_eq_none_iff.2 hnew
        by_cases heq : o.id = r.id
        · have hsame : (setFallback row.id o).id = r.id := heq
          simp [relink, heq, hsame, hnone, Keyed.get_cons, hrow]
        · simp [relink, heq, Keyed.get_cons, Ne.symm heq]

/-! ## The whole import -/

/-- A created row, linked to the first row that serves as the fallback it took. -/
def linkTaken (rows : List Profile) (x : Profile × Option Profile) : Profile :=
  match x.2.bind (fun fallback => rows.find? (serves fallback)) with
  | none => x.1
  | some row => setFallback row.id x.1

theorem mem_links {l : List (Profile × Option Profile)} {e : Int × Profile} (h : e ∈ links l) :
    ∃ x ∈ l, x.1.id = e.1 ∧ x.2 = some e.2 := by
  rcases List.mem_filterMap.1 h with ⟨x, hx, hmap⟩
  rcases Option.map_eq_some_iff.1 hmap with ⟨f, hf, rfl⟩
  exact ⟨x, hx, rfl, hf⟩

theorem get_links (l : List (Profile × Option Profile)) :
    ∀ {x : Profile × Option Profile}, (l.map (fun x => x.1.id)).Nodup → x ∈ l →
      Keyed.get x.1.id (links l) = x.2 := by
  induction l with
  | nil =>
      intro x _ hx
      cases hx
  | cons y l ih =>
      intro x hnodup hx
      rcases List.nodup_cons.1 hnodup with ⟨hnew, hnodup'⟩
      have hcons : links (y :: l) = y.2.toList.map (fun f => (y.1.id, f)) ++ links l := by
        cases hy : y.2 <;> simp [links, hy]
      have hnone : Keyed.get y.1.id (links l) = none := by
        refine Keyed.get_eq_none_iff.2 (fun hmem => ?_)
        rcases List.mem_map.1 hmem with ⟨e, he, hid⟩
        rcases mem_links he with ⟨z, hz, hzid, _⟩
        exact hnew (List.mem_map.2 ⟨z, hz, hzid.trans hid⟩)
      rw [hcons, Keyed.get_append]
      rcases List.mem_cons.1 hx with rfl | htail
      · rw [hnone, Option.or_none]
        cases hy : x.2 <;> simp [Keyed.get]
      · have hne : y.1.id ≠ x.1.id := fun heq => hnew (List.mem_map.2 ⟨x, htail, heq.symm⟩)
        rw [ih hnodup' htail]
        cases hy : y.2 <;> simp [Keyed.get, hne]

theorem nodup_links {l : List (Profile × Option Profile)}
    (h : (l.map (fun x => x.1.id)).Nodup) : ((links l).map Prod.fst).Nodup := by
  induction l with
  | nil => exact List.nodup_nil
  | cons x l ih =>
      rcases List.nodup_cons.1 h with ⟨hnew, hnodup⟩
      cases hx : x.2 with
      | none =>
          have hskip : links (x :: l) = links l := by simp [links, hx]
          rw [hskip]
          exact ih hnodup
      | some f =>
          have hcons : links (x :: l) = (x.1.id, f) :: links l := by simp [links, hx]
          rw [hcons, List.map_cons]
          refine List.nodup_cons.2 ⟨?_, ih hnodup⟩
          intro hmem
          rcases List.mem_map.1 hmem with ⟨e, he, hid⟩
          rcases mem_links he with ⟨y, hy, hyid, _⟩
          exact hnew (List.mem_map.2 ⟨y, hy, hyid.trans hid⟩)

/-- A document whose fallbacks are all among its own profiles. -/
def SelfServing (entries : List Entry) : Prop :=
  ∀ e ∈ entries, ∀ fallback, e.2 = some fallback → ∃ d ∈ entries, serves fallback d.1 = true

theorem mem_assigned {fallback : Profile} (entries : List Entry) :
    ∀ pending : List (Profile × Profile), some fallback ∈ assigned pending entries →
      fallback ∈ pending.map Prod.snd := by
  induction entries with
  | nil =>
      intro pending h
      cases h
  | cons e entries ih =>
      intro pending h
      rcases List.mem_cons.1 h with hhead | htail
      · rcases Option.map_eq_some_iff.1 hhead.symm with ⟨d, hd, rfl⟩
        exact List.mem_map_of_mem (List.mem_of_find?_eq_some hd)
      · rcases List.mem_map.1 (ih _ htail) with ⟨d, hd, rfl⟩
        exact List.mem_map_of_mem (List.mem_filter.1 hd).1

theorem importEntries_rows {entries : List Entry} (hclean : ∀ e ∈ entries, e.1.dirty = false)
    (hself : SelfServing entries) :
    let created := taken Table.empty (fallbackMap entries) entries
    ∃ s' : Import,
      importEntries Import.creator { table := Table.empty, objects := [] } entries = some s' ∧
        s'.table.rows = created.map (linkTaken (created.map Prod.fst)) ∧
        ∀ x ∈ created, ∀ fallback, x.2 = some fallback →
          ((created.map Prod.fst).find? (serves fallback)).isSome = true := by
  intro created
  rcases createAll_taken entries { table := Table.empty, objects := [] } (fallbackMap entries) []
    rfl hclean (by simp) with ⟨s, hall, haligned, hrows⟩
  rw [pending_eq_nil, List.nil_append] at hall
  have hrows' : s.table.rows = created.map Prod.fst := hrows
  have hnodup : (created.map (fun x => x.1.id)).Nodup := by
    have hids := s.table.ids_nodup
    rw [hrows', List.map_map] at hids
    exact hids
  -- a fallback that is taken was read with some entry, and is served by the row of another
  have hserved : ∀ x ∈ created, ∀ fallback, x.2 = some fallback →
      ((created.map Prod.fst).find? (serves fallback)).isSome = true := by
    intro x hx fallback hfallback
    have hassigned : some fallback ∈ assigned (fallbackMap entries) entries := by
      rw [← taken_snd entries Table.empty, ← hfallback]
      exact List.mem_map_of_mem hx
    rcases List.mem_map.1 (mem_assigned entries _ hassigned) with ⟨d, hd, rfl⟩
    rcases hself _ (mem_fallbackMap hd) _ rfl with ⟨e, he, hserves⟩
    rcases List.mem_iff_getElem.1 he with ⟨i, hi, rfl⟩
    have hfst := taken_fst entries Table.empty (fallbackMap entries)
    have hi' : i < created.length := hfst.length_eq ▸ hi
    rcases hfst.get hi hi' with ⟨id, order, hrow⟩
    refine List.find?_isSome.2 ⟨_, List.mem_map_of_mem (List.get_mem created ⟨i, hi'⟩), ?_⟩
    rw [hrow]
    exact hserves
  rcases finalize_relink (links created) s haligned (nodup_links hnodup)
      (by
        intro e he
        rcases mem_links he with ⟨x, hx, hid, _⟩
        rw [hrows', List.map_map]
        exact List.mem_map.2 ⟨x, hx, hid⟩)
      (by
        intro e he
        rcases mem_links he with ⟨x, hx, _, hfallback⟩
        exact hserved x hx _ hfallback) with ⟨s', hfinal, hfinalRows⟩
  refine ⟨s', ?_, ?_, hserved⟩
  · have hget : Import.creator.getAllProfiles s = created.map Prod.fst := hrows'
    rw [importEntries, hall]
    simp only [hget]
    exact hfinal
  · rw [hfinalRows, hrows', List.map_map]
    refine List.map_congr_left (fun x hx => ?_)
    simp only [Function.comp_apply, relink, get_links created hnodup hx, linkTaken]

end Database
end SpinVpn
