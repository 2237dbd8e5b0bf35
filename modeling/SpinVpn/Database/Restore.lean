import Mathlib.Data.List.Basic
import SpinVpn.Database.Import

/-!
# Restore — exporting profiles and importing them again

A list of profiles is written with `serializeToJson` and read into an empty table with `parseJson`.
Every profile comes back with its fields and its fallback, with two exceptions:

* plugin options that are not `Portable` are refused or read as those of another plugin, and
* of two profiles that are exported alike the first takes the fallback, whichever of them has it.

`restored_iff` says that there is no third.
-/

namespace SpinVpn
namespace Database

open Plugin PluginConfiguration

/-- What the profiles to be exported are promised to be. -/
structure Exportable (ps : List Profile) : Prop where
  ids : (ps.map Profile.id).Nodup
  server : ∀ p ∈ ps, HasServer p
  plugin : ∀ p ∈ ps, (PluginConfiguration.ofString (p.plugin.getD "")).isSome = true
  fallback : ∀ p ∈ ps, p.udpFallback = none ∨
    ∃ f ∈ ps, p.udpFallback = some f.id ∧ isNullOrEmpty f.plugin = true

/-- The row `r` of the imported `rows` is what became of the profile `p` of `ps`. -/
structure Restores (P : Platform) (ps rows : List Profile) (p r : Profile) : Prop where
  host : r.host = p.host
  remotePort : r.remotePort = p.remotePort
  password : r.password = p.password
  method : r.method = p.method
  name : r.name = p.name
  route : r.route = p.route
  remoteDns : r.remoteDns = p.remoteDns
  ipv6 : r.ipv6 = p.ipv6
  metered : r.metered = p.metered
  udpdns : r.udpdns = p.udpdns
  proxyApps : r.proxyApps = p.proxyApps
  bypass : p.proxyApps = true → r.bypass = p.bypass
  individual : p.proxyApps = true → r.individual = p.individual
  options : ∃ o o', selectedOptions P.defaultConfig p.plugin = some o ∧
    selectedOptions P.defaultConfig r.plugin = some o' ∧ o.Equals o'
  fallback : ∀ f ∈ ps, p.udpFallback = some f.id →
    ∃ g ∈ rows, r.udpFallback = some g.id ∧ g.host = f.host ∧ g.remotePort = f.remotePort ∧
      g.password = f.password ∧ g.method = f.method

/-- As many rows, in the same order, each what became of its profile. -/
def Restored (P : Platform) (ps : List Profile) (t : Table) : Prop :=
  List.Forall₂ (Restores P ps t.rows) ps t.rows

def Portable (P : Platform) (p : Profile) : Prop :=
  ∀ o, selectedOptions P.defaultConfig p.plugin = some o → PluginConfiguration.Portable o

section Entries

variable {P : Platform} {ps : List Profile} {p f : Profile}

/-! ## The document of a list -/

def entryOf (P : Platform) (ps : List Profile) (p : Profile) : Entry :=
  (exported P p, (writtenFallback (lookupOf ps) p).map exportedFallback)

theorem get_lookupOf (h : (ps.map Profile.id).Nodup) (hf : f ∈ ps) :
    Keyed.get f.id (lookupOf ps) = some f := by
  have hexists : ∃ g ∈ ps, Profile.id g = f.id := ⟨f, hf, rfl⟩
  rcases Keyed.get_foldl_put ps [] hexists with ⟨g, hg, hid, hget⟩
  rw [Keyed.ext_of_key h hg hf hid] at hget
  exact hget

theorem writtenFallback_none (hp : p.udpFallback = none) :
    writtenFallback (lookupOf ps) p = none := by
  simp [writtenFallback, hp]

theorem writtenFallback_some (h : Exportable ps) (hf : f ∈ ps) (hp : p.udpFallback = some f.id)
    (hplugin : isNullOrEmpty f.plugin = true) : writtenFallback (lookupOf ps) p = some f := by
  simp [writtenFallback, hp, get_lookupOf h.ids hf, Option.filter, hplugin]

theorem writtenFallback_spec (h : Exportable ps) (hp : p ∈ ps)
    (hwritten : writtenFallback (lookupOf ps) p = some f) :
    f ∈ ps ∧ p.udpFallback = some f.id ∧ isNullOrEmpty f.plugin = true := by
  rcases h.fallback p hp with hnone | ⟨g, hg, hid, hplugin⟩
  · rw [writtenFallback_none hnone] at hwritten
    cases hwritten
  · rw [writtenFallback_some h hg hid hplugin] at hwritten
    cases hwritten
    exact ⟨hg, hid, hplugin⟩

theorem writtenFallback_isSome (h : Exportable ps) (hp : p ∈ ps) :
    (writtenFallback (lookupOf ps) p).map exportedFallback ≠ none ↔ p.udpFallback ≠ none := by
  rcases h.fallback p hp with hnone | ⟨g, hg, hid, hplugin⟩
  · simp [writtenFallback_none hnone, hnone]
  · simp [writtenFallback_some h hg hid hplugin, hid]

/-- The options of the selected plugin of an exported profile. -/
def optionsOf (P : Platform) (p : Profile) : PluginOptions :=
  (selectedOptions P.defaultConfig p.plugin).getD PluginOptions.empty

theorem optionsOf_spec (h : Exportable ps) (hp : p ∈ ps) :
    selectedOptions P.defaultConfig p.plugin = some (optionsOf P p) ∧ (optionsOf P p).Proper ∧
      PluginOptions.plainText (optionsOf P p).id.toList = true ∧
      ((optionsOf P p).id = "" → optionsOf P p = {}) := by
  rcases @selectedOptions_spec P.defaultConfig _ (h.plugin p hp) with ⟨o, ho, hspec⟩
  have heq : optionsOf P p = o := by simp [optionsOf, ho]
  rw [heq]
  exact ⟨ho, hspec⟩

theorem serializeToJson_eq (h : Exportable ps) : serializeToJson P ps =
    some (.array (ps.map (fun p => .object (members P (lookupOf ps) p (optionsOf P p))))) := by
  have hall : ∀ p ∈ ps, toJson P (lookupOf ps) p =
      some (.object (members P (lookupOf ps) p (optionsOf P p))) := by
    intro p hp
    simp [toJson, (optionsOf_spec h hp).1]
  simp [serializeToJson, Codec.mapM_eq_map ps hall]

theorem process_exported (h : Exportable ps) (hjoin : ∀ p ∈ ps, Rejoins P (optionsOf P p)) :
    process (tryParse P none)
        (.array (ps.map (fun p => .object (members P (lookupOf ps) p (optionsOf P p))))) =
      .ok (ps.map (entryOf P ps)) := by
  refine processElements_ok ps (fun p hp => ?_)
  refine tryParse_members (h.server p hp) ?_ (optionsOf_spec h hp).1 (hjoin p hp)
  intro f hf
  exact h.server f (writtenFallback_spec h hp hf).1

theorem rejoins_of_process (h : Exportable ps) {entries : List Entry}
    (hok : process (tryParse P none)
        (.array (ps.map (fun p => .object (members P (lookupOf ps) p (optionsOf P p))))) =
      .ok entries) :
    ∀ p ∈ ps, Rejoins P (optionsOf P p) := by
  intro p hp
  by_contra hjoin
  have herror : ∃ q ∈ ps, ∃ e,
      tryParse P none (members P (lookupOf ps) q (optionsOf P q)) = .error e :=
    ⟨p, hp, tryParse_members_error (h.server p hp) hjoin⟩
  rcases processElements_error ps herror with ⟨e, he⟩
  rw [process, he] at hok
  cases hok

/-! ## The imported rows -/

/-- A profile without a plugin is exported without one, and serves as a fallback. -/
theorem exportedPlugin_of_empty (hplugin : isNullOrEmpty p.plugin = true) :
    exportedPlugin P p = none := by
  have hgetD : p.plugin.getD "" = "" := by
    cases hcase : p.plugin with
    | none => rfl
    | some s => simpa [hcase, isNullOrEmpty] using hplugin
  have hselected : selectedOptions P.defaultConfig p.plugin = some {} := by
    rw [selectedOptions, hgetD]
    exact selectedOptions_none
  simp [exportedPlugin, hselected]

theorem serves_exported (hplugin : isNullOrEmpty f.plugin = true) :
    serves (exportedFallback f) (exported P f) = true := by
  simp [serves, exportedFallback, exported, exportedPlugin_of_empty hplugin, isNullOrEmpty]

theorem selfServing_entries (h : Exportable ps) : SelfServing (ps.map (entryOf P ps)) := by
  intro e he fallback hfallback
  rcases List.mem_map.1 he with ⟨p, hp, rfl⟩
  rcases Option.map_eq_some_iff.1 hfallback with ⟨f, hf, rfl⟩
  rcases writtenFallback_spec h hp hf with ⟨hmem, _, hplugin⟩
  exact ⟨_, List.mem_map_of_mem hmem, serves_exported hplugin⟩

/-- The rows that the import creates, each with the fallback that it takes. -/
def createdRows (P : Platform) (ps : List Profile) : List (Profile × Option Profile) :=
  taken Table.empty (fallbackMap (ps.map (entryOf P ps))) (ps.map (entryOf P ps))

def finalRow (P : Platform) (ps : List Profile) (x : Profile × Option Profile) : Profile :=
  linkTaken ((createdRows P ps).map Prod.fst) x

theorem createdRows_fst : List.Forall₂
    (fun p x => ∃ id order, x.1 = { exported P p with id := id, userOrder := order }) ps
      (createdRows P ps) :=
  List.forall₂_map_left_iff.1 (taken_fst (ps.map (entryOf P ps)) _ _)

theorem imported_rows (h : Exportable ps) :
    ∃ s : Import, importEntries Import.creator { table := Table.empty, objects := [] }
        (ps.map (entryOf P ps)) = some s ∧
      s.table.rows = (createdRows P ps).map (finalRow P ps) ∧
      ∀ x ∈ createdRows P ps, ∀ fallback, x.2 = some fallback →
        (((createdRows P ps).map Prod.fst).find? (serves fallback)).isSome = true := by
  refine importEntries_rows ?_ (selfServing_entries h)
  intro e he
  rcases List.mem_map.1 he with ⟨p, _, rfl⟩
  rfl

theorem finalRow_eq (x : Profile × Option Profile) :
    finalRow P ps x = { x.1 with udpFallback := (finalRow P ps x).udpFallback } := by
  unfold finalRow linkTaken
  split <;> rfl

theorem finalRow_of_none {x : Profile × Option Profile} (hx : x.2 = none) :
    finalRow P ps x = x.1 := by
  simp [finalRow, linkTaken, hx]

/-! ## Field by field -/

theorem rejoins_of_portable (h : Exportable ps) (hp : p ∈ ps) (hport : Portable P p) :
    Rejoins P (optionsOf P p) := by
  rcases @optionsOf_spec P ps p h hp with ⟨ho, hproper, _, _⟩
  right
  rw [rejoined_eq P.hashOrder hproper, if_pos (hport _ ho).plain]
  rfl

theorem options_iff_portable (h : Exportable ps) (hp : p ∈ ps)
    (hjoin : Rejoins P (optionsOf P p)) :
    (∃ o o', selectedOptions P.defaultConfig p.plugin = some o ∧
      selectedOptions P.defaultConfig (exportedPlugin P p) = some o' ∧ o.Equals o') ↔
        Portable P p := by
  rcases @optionsOf_spec P ps p h hp with ⟨ho, hproper, hplainId, hempty⟩
  have hport : Portable P p ↔ PluginConfiguration.Portable (optionsOf P p) := by
    constructor
    · intro hall
      exact hall _ ho
    · intro hone o ho'
      rw [ho] at ho'
      cases ho'
      exact hone
  have hexported : exportedPlugin P p =
      if (optionsOf P p).id = "" then none else rejoined P.hashOrder (optionsOf P p) := by
    simp [exportedPlugin, ho]
  rw [hport, hexported]
  by_cases hid : (optionsOf P p).id = ""
  · rw [if_pos hid, selectedOptions_none, ho, hempty hid]
    constructor
    · intro _
      exact ⟨rfl, by decide +kernel⟩
    · intro _
      exact ⟨_, _, rfl, rfl, rfl, List.Perm.refl _⟩
  · rcases Option.isSome_iff_exists.1 (hjoin.resolve_left hid) with ⟨plugin, hplugin⟩
    rw [if_neg hid, ← @readBack_iff_portable P.defaultConfig P.hashOrder _ hproper hid hplainId,
      hplugin, ho]
    constructor
    · rintro ⟨o, o', hso, ho', heq⟩
      cases hso
      exact ⟨plugin, o', rfl, ho', heq⟩
    · rintro ⟨plugin', o', hsome, ho', heq⟩
      cases hsome
      exact ⟨_, o', rfl, ho', heq⟩

theorem restores_finalRow {rows : List Profile} {x : Profile × Option Profile}
    (hx : ∃ id order, x.1 = { exported P p with id := id, userOrder := order })
    (hoptions : ∃ o o', selectedOptions P.defaultConfig p.plugin = some o ∧
      selectedOptions P.defaultConfig (exportedPlugin P p) = some o' ∧ o.Equals o')
    (hfallback : ∀ f ∈ ps, p.udpFallback = some f.id →
      ∃ g ∈ rows, (finalRow P ps x).udpFallback = some g.id ∧ g.host = f.host ∧
        g.remotePort = f.remotePort ∧ g.password = f.password ∧ g.method = f.method) :
    Restores P ps rows p (finalRow P ps x) := by
  rcases hx with ⟨id, order, hx⟩
  have hrow := @finalRow_eq P ps x
  rw [hx] at hrow
  generalize (finalRow P ps x).udpFallback = link at hrow hfallback
  rw [hrow]
  refine ⟨rfl, rfl, rfl, rfl, rfl, rfl, rfl, rfl, rfl, rfl, rfl, ?_, ?_, hoptions, hfallback⟩
  · intro happs
    simp [exported, happs]
  · intro happs
    simp [exported, happs]

theorem finalRow_plugin {x : Profile × Option Profile}
    (hx : ∃ id order, x.1 = { exported P p with id := id, userOrder := order }) :
    (finalRow P ps x).plugin = exportedPlugin P p := by
  rcases hx with ⟨id, order, hx⟩
  rw [finalRow_eq, hx]
  rfl

/-- A row that took the fallback of its profile is linked to a row that serves as it. -/
theorem linked_finalRow {x : Profile × Option Profile}
    (hserved : (((createdRows P ps).map Prod.fst).find?
      (serves (exportedFallback f))).isSome = true)
    (htaken : x.2 = some (exportedFallback f)) :
    ∃ g ∈ (createdRows P ps).map (finalRow P ps), (finalRow P ps x).udpFallback = some g.id ∧
      g.host = f.host ∧ g.remotePort = f.remotePort ∧ g.password = f.password ∧
      g.method = f.method := by
  rcases Option.isSome_iff_exists.1 hserved with ⟨row, hrow⟩
  rcases List.mem_map.1 (List.mem_of_find?_eq_some hrow) with ⟨y, hy, rfl⟩
  have hlink : (finalRow P ps x).udpFallback = some y.1.id := by
    simp only [finalRow, linkTaken, htaken, Option.bind_some, hrow, setFallback]
  have hserves := List.find?_some hrow
  simp only [serves, exportedFallback, Bool.and_eq_true, beq_iff_eq] at hserves
  rcases hserves with ⟨⟨⟨⟨hhost, hport⟩, hpassword⟩, hmethod⟩, _⟩
  refine ⟨_, List.mem_map_of_mem hy, ?_⟩
  rw [hlink, @finalRow_eq P ps y]
  exact ⟨rfl, hhost.symm, hport.symm, hpassword.symm, hmethod.symm⟩

theorem uniqueMains_iff (h : Exportable ps) : UniqueMains (ps.map (entryOf P ps)) ↔
    ps.Pairwise (fun p q => q.udpFallback ≠ none → exported P p ≠ exported P q) := by
  rw [UniqueMains, List.pairwise_map]
  refine List.Pairwise.iff_of_mem ?_
  intro p q _ hq
  rw [entryOf, entryOf, writtenFallback_isSome h hq]

end Entries

/-! ## Round trip -/

section RoundTrip

variable {P : Platform} {ps : List Profile}

theorem restored_of (h : Exportable ps) (hport : ∀ p ∈ ps, Portable P p)
    (hunique : ps.Pairwise (fun p q => q.udpFallback ≠ none → exported P p ≠ exported P q)) :
    ∃ json t, serializeToJson P ps = some json ∧ parseJson P json Table.empty = some t ∧
      Restored P ps t := by
  have hjoin : ∀ p ∈ ps, Rejoins P (optionsOf P p) :=
    fun p hp => rejoins_of_portable h hp (hport p hp)
  rcases @imported_rows P ps h with ⟨s, himport, hrows, hserved⟩
  refine ⟨_, s.table, serializeToJson_eq h, ?_, ?_⟩
  · simp only [parseJson, process_exported h hjoin, himport, Option.map_some]
  · -- without twins every row takes the fallback that its profile was written with
    have htaken : List.Forall₂ (fun p x => x.2 = (entryOf P ps p).2) ps (createdRows P ps) := by
      have hsnd : (createdRows P ps).map Prod.snd = ps.map (fun p => (entryOf P ps p).2) := by
        rw [createdRows, taken_snd, assigned_eq ((uniqueMains_iff h).2 hunique), List.map_map]
        rfl
      have heq : List.Forall₂ Eq ((createdRows P ps).map Prod.snd)
          (ps.map (fun p => (entryOf P ps p).2)) := hsnd ▸ List.forall₂_refl _
      exact (List.forall₂_map_left_iff.1 (List.forall₂_map_right_iff.1 heq)).flip
    rw [Restored, hrows, List.forall₂_map_right_iff]
    refine List.forall₂_iff_get.2 ⟨htaken.length_eq, fun i hi hi' => ?_⟩
    have hp : ps.get ⟨i, hi⟩ ∈ ps := List.get_mem _ _
    have hx : (createdRows P ps).get ⟨i, hi'⟩ ∈ createdRows P ps := List.get_mem _ _
    refine restores_finalRow (createdRows_fst.get hi hi')
      ((options_iff_portable h hp (hjoin _ hp)).2 (hport _ hp)) ?_
    intro f hf hid
    have hplugin : isNullOrEmpty f.plugin = true := by
      rcases h.fallback _ hp with hnone | ⟨g, hg, hgid, hplugin⟩
      · rw [hid] at hnone
        cases hnone
      · rw [hid, Option.some.injEq] at hgid
        rwa [Keyed.ext_of_key h.ids hf hg hgid]
    have htook : ((createdRows P ps).get ⟨i, hi'⟩).2 = some (exportedFallback f) := by
      rw [htaken.get hi hi', entryOf, writtenFallback_some h hf hid hplugin]
      rfl
    exact linked_finalRow (hserved _ hx _ htook) htook

theorem of_restored (h : Exportable ps) {json : Json} {t : Table}
    (hjson : serializeToJson P ps = some json) (himport : parseJson P json Table.empty = some t)
    (hrestored : Restored P ps t) :
    (∀ p ∈ ps, Portable P p) ∧
      ps.Pairwise (fun p q => q.udpFallback ≠ none → exported P p ≠ exported P q) := by
  rw [serializeToJson_eq h, Option.some.injEq] at hjson
  subst hjson
  have hjoin : ∀ p ∈ ps, Rejoins P (optionsOf P p) := by
    cases hprocess : process (tryParse P none)
        (.array (ps.map (fun p => .object (members P (lookupOf ps) p (optionsOf P p))))) with
    | error e =>
        rw [parseJson, hprocess] at himport
        cases himport
    | ok entries => exact rejoins_of_process h hprocess
  rcases @imported_rows P ps h with ⟨s, hentries, hrows, _⟩
  simp only [parseJson, process_exported h hjoin, hentries, Option.map_some,
    Option.some.injEq] at himport
  subst himport
  rw [Restored, hrows, List.forall₂_map_right_iff] at hrestored
  have hcreated := @createdRows_fst P ps
  constructor
  · intro p hp
    rcases List.mem_iff_getElem.1 hp with ⟨i, hi, rfl⟩
    have hi' : i < (createdRows P ps).length := hcreated.length_eq ▸ hi
    have hoptions := (hrestored.get hi hi').options
    rw [finalRow_plugin (hcreated.get hi hi')] at hoptions
    exact (options_iff_portable h hp (hjoin _ hp)).1 hoptions
  · -- the row of a profile with a fallback is linked, so it took one
    have htook : List.Forall₂ (fun p x => (entryOf P ps p).2 ≠ none → x.2 ≠ none) ps
        (createdRows P ps) := by
      refine List.forall₂_iff_get.2 ⟨hcreated.length_eq, fun i hi hi' hsome hnone => ?_⟩
      have hp : ps.get ⟨i, hi⟩ ∈ ps := List.get_mem _ _
      rcases h.fallback _ hp with hno | ⟨f, hf, hid, _⟩
      · exact (writtenFallback_isSome h hp).1 hsome hno
      · rcases (hrestored.get hi hi').fallback f hf hid with ⟨g, _, hlink, _⟩
        rw [finalRow_of_none hnone] at hlink
        rcases hcreated.get hi hi' with ⟨id, order, hrow⟩
        rw [hrow] at hlink
        cases hlink
    refine (uniqueMains_iff h).1 (unique_of_assigned _ (fallbackMap (ps.map (entryOf P ps))) ?_)
    rw [← taken_snd _ Table.empty, List.forall₂_map_left_iff, List.forall₂_map_right_iff]
    exact htook

/-- The export and import of a list of profiles restores it exactly if no plugin is in the way and
no profile with a fallback comes after one that is exported alike. -/
theorem restored_iff (P : Platform) {ps : List Profile} (h : Exportable ps) :
    (∃ json t, serializeToJson P ps = some json ∧ parseJson P json Table.empty = some t ∧
      Restored P ps t) ↔
      (∀ p ∈ ps, Portable P p) ∧
        ps.Pairwise (fun p q => q.udpFallback ≠ none → exported P p ≠ exported P q) := by
  constructor
  · rintro ⟨json, t, hjson, himport, hrestored⟩
    exact of_restored h hjson himport hrestored
  · rintro ⟨hport, hunique⟩
    exact restored_of h hport hunique

end RoundTrip

/-! ## Samples -/

def plainServer : Profile where
  id := 1
  host := "b"
  remotePort := 2
  password := "secret"
  method := "aes-256-gcm"

/-- A profile with a plugin, per-app settings and a fallback. -/
def proxied : Profile where
  id := 2
  name := some "proxied"
  host := "a"
  remotePort := 1
  password := "secret"
  method := "aes-256-gcm"
  proxyApps := true
  individual := "x\ny"
  plugin := some "v2ray;tls"
  udpFallback := some 1

theorem exportable_sample : Exportable [plainServer, proxied] where
  ids := by decide
  server := by
    intro p hp
    rcases List.mem_pair.1 hp with rfl | rfl
    · exact ⟨by decide, by decide, by decide, by decide⟩
    · exact ⟨by decide, by decide, by decide, by decide⟩
  plugin := by decide +kernel
  fallback := by decide +kernel

theorem restored_sample : ∃ json t, serializeToJson plainPlatform [plainServer, proxied] = some json ∧
    parseJson plainPlatform json Table.empty = some t ∧
      Restored plainPlatform [plainServer, proxied] t := by
  refine (restored_iff plainPlatform exportable_sample).2 ⟨?_, by decide +kernel⟩
  intro p hp o ho
  have hplain : ∀ p ∈ [plainServer, proxied],
      ((selectedOptions plainPlatform.defaultConfig p.plugin).map
        (fun o => (o.entries.all PluginOptions.plainEntry, isLegacy o.id))) = some (true, false) := by
    decide +kernel
  have hfacts := hplain p hp
  rw [ho, Option.map_some, Option.some.injEq, Prod.mk.injEq] at hfacts
  exact ⟨hfacts.1, hfacts.2⟩

/-- The copy of a profile, as a user makes it to have two with the same settings. -/
def copied : List Profile :=
  [plainServer, { plainServer with id := 2, host := "a", udpFallback := some 1 },
    { plainServer with id := 3, host := "a", udpFallback := some 1 }]

/-- The copy comes back without its fallback. -/
theorem copied_not_restored :
    Exportable copied ∧
      ∃ json t, serializeToJson plainPlatform copied = some json ∧
        parseJson plainPlatform json Table.empty = some t ∧
        t.rows.map Profile.udpFallback = [none, some 1, none] ∧ ¬ Restored plainPlatform copied t := by
  have hexportable : Exportable copied := by
    refine ⟨by decide, ?_, by decide +kernel, by decide +kernel⟩
    intro p hp
    have hfields : ∀ p ∈ copied, p.host ≠ "" ∧ 0 < p.remotePort ∧ p.password ≠ "" ∧
        p.method ≠ "" := by
      decide +kernel
    rcases hfields p hp with ⟨hhost, hport, hpassword, hmethod⟩
    exact ⟨hhost, hport, hpassword, hmethod⟩
  have hlinks : ((serializeToJson plainPlatform copied).bind
      (fun json => parseJson plainPlatform json Table.empty)).map
        (fun t => t.rows.map Profile.udpFallback) = some [none, some 1, none] := by
    decide +kernel
  rcases Option.map_eq_some_iff.1 hlinks with ⟨t, ht, hrows⟩
  rcases Option.bind_eq_some_iff.1 ht with ⟨json, hjson, himport⟩
  refine ⟨hexportable, json, t, hjson, himport, hrows, ?_⟩
  intro hrestored
  have htwins := (of_restored hexportable hjson himport hrestored).2
  revert htwins
  decide +kernel

end Database
end SpinVpn
