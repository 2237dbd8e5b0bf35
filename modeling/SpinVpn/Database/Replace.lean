import Mathlib.Data.List.ReduceOption
import SpinVpn.Database.Import

/-!
# Replace — importing documents in place of the profiles

`ProfileManager.createProfilesFromJson` with `replace`: the first profile that is created clears the
table, and a profile whose address the old table had takes over its counters.  The documents are read
one after the other by `forEachTry`, which goes on after a document that fails.

A document that fails has created nothing, since `process` reads all of it before the first profile is
created and the rest cannot fail (`importEntries_progress`).  So the table is the old one, or it has
exactly the profiles of the documents that could be read (`createProfilesFromJson_spec`).
-/

namespace SpinVpn
namespace Database

/-! ## ProfileManager -/

/-- `associateBy { it.formattedAddress }` -/
def associateByAddress (profiles : List Profile) : List (String × Profile) :=
  profiles.foldl (fun map it => Keyed.put it.formattedAddress it map) []

/-- `singleOrNull` -/
def singleOrNull (p : Profile → Bool) (profiles : List Profile) : Option Profile :=
  match profiles.filter p with
  | [profile] => some profile
  | _ => none

/-- The counters of the old profile with the same address. -/
def copyStats (profiles : List (String × Profile)) (it : Profile) : Profile :=
  match Keyed.get it.formattedAddress profiles with
  | none => it
  | some old => { it with tx := old.tx, rx := old.rx }

structure Replace where
  table : Table
  /-- the profile objects that were created for the document -/
  objects : List Profile := []
  /-- whether `lazyClear` has its value -/
  cleared : Bool := false

namespace Replace

/-- The table once `lazyClear` has its value. -/
def lazyClear (s : Replace) : Table :=
  if s.cleared then s.table else s.table.deleteAll

variable (profiles : List (String × Profile))

def create (s : Replace) (it : Profile) : Replace × Int :=
  let created := ProfileManager.createProfile s.lazyClear (copyStats profiles it)
  ({ table := created.1, objects := s.objects ++ [created.2], cleared := true }, created.2.id)

def link (s : Replace) (ref id : Int) : Option Replace :=
  match s.objects.find? (fun o => o.id == ref) with
  | none => none
  | some o =>
      (ProfileManager.updateProfile s.table (setFallback id o)).map (fun t =>
        { s with
          table := t
          objects := s.objects.map (fun o => if o.id = ref then setFallback id o else o) })

def creator : Creator Replace Int where
  create := create profiles
  getAllProfiles := fun s => ProfileManager.getAllProfiles s.table
  idOf := fun _ ref => ref
  link := link

end Replace

inductive DocumentError
  /-- The stream is not one JSON element. -/
  | malformed
  /-- from `PluginOptions` -/
  | illegalArgument (message : String)
  /-- from `updateProfile` -/
  | illegalState
  deriving DecidableEq, Repr

/-- The elements are handled in order; the exceptions are collected and thrown together. -/
def forEachTry {α σ ε : Type} (action : α → σ → σ × Option ε) : List α → σ → σ × List ε
  | [], s => (s, [])
  | element :: rest, s =>
      let r := action element s
      let r' := forEachTry action rest r.1
      (r'.1, r.2.toList ++ r'.2)

section Documents

variable (P : Platform) (feature : Option Profile)

/-- `none` is a stream that cannot be read as one element. -/
def readDocument : Option Json → Except DocumentError (List Entry)
  | none => .error .malformed
  | some json =>
      match process (tryParse P feature) json with
      | .error message => .error (.illegalArgument message)
      | .ok entries => .ok entries

/-- The last branch but one is never taken (`importEntries_progress`), so the state it would leave is
not modelled. -/
def importDocument (profiles : List (String × Profile)) (document : Option Json) (s : Replace) :
    Replace × Option DocumentError :=
  match readDocument P feature document with
  | .error e => (s, some e)
  | .ok entries =>
      match importEntries (Replace.creator profiles) { s with objects := [] } entries with
      | none => (s, some .illegalState)
      | some s => (s, none)

end Documents

namespace ProfileManager

def replacedProfiles (t : Table) : List (String × Profile) :=
  associateByAddress (getAllProfiles t)

def replacedFeature (profileId : Int) (t : Table) : Option Profile :=
  singleOrNull (fun it => it.id = profileId) ((replacedProfiles t).map Prod.snd)

/-- `createProfilesFromJson(jsons, replace = true)`: the table, and the exceptions. -/
def createProfilesFromJson (P : Platform) (profileId : Int) (documents : List (Option Json))
    (t : Table) : Table × List DocumentError :=
  let r := forEachTry (importDocument P (replacedFeature profileId t) (replacedProfiles t)) documents
    { table := t }
  (r.1.table, r.2)

end ProfileManager

/-! ## What is read -/

/-- A profile that no one has used yet. -/
structure Plain (p : Profile) : Prop where
  tx : p.tx = 0
  rx : p.rx = 0
  dirty : p.dirty = false

theorem plain_parseServer {P : Platform} {feature : Option Profile} {json : List (String × Json)}
    {p : Profile} (h : parseServer P feature json = .ok (some p)) : Plain p := by
  have hfeature : ∀ p, Plain p → Plain (applyFeature feature p) := by
    intro p hp
    cases feature with
    | none => exact hp
    | some f => exact ⟨hp.tx, hp.rx, hp.dirty⟩
  rw [parseServer] at h
  split at h
  · rename_i host port password method _ _ _ _
    have hplain := hfeature { host := host, remotePort := port, password := password, method := method }
      ⟨rfl, rfl, rfl⟩
    dsimp only at h
    split at h
    · cases h
      exact ⟨hplain.tx, hplain.rx, hplain.dirty⟩
    · split at h
      · cases h
      · cases h
        exact ⟨hplain.tx, hplain.rx, hplain.dirty⟩
  · cases h

theorem plain_readProxyApps {p : Profile} (h : Plain p) (json : List (String × Json)) :
    Plain (readProxyApps p json) := by
  rw [readProxyApps]
  split
  · exact ⟨h.tx, h.rx, h.dirty⟩
  · exact h

/-- The profiles of an entry. -/
def PlainEntry (e : Entry) : Prop :=
  Plain e.1 ∧ ∀ fallback ∈ e.2, Plain fallback

theorem plain_tryParse {P : Platform} {feature : Option Profile} {json : List (String × Json)}
    {e : Entry} (h : tryParse P feature json = .ok (some e)) : PlainEntry e := by
  rw [tryParse] at h
  cases hserver : parseServer P feature json with
  | error message => simp [hserver] at h
  | ok server =>
      cases server with
      | none => simp [hserver] at h
      | some server =>
          have hplain := plain_parseServer hserver
          have hread := plain_readProxyApps (p := { server with
            remoteDns := (optString (Keyed.get "remote_dns" json)).getD server.remoteDns
            ipv6 := (optBoolean (Keyed.get "ipv6" json)).getD server.ipv6
            metered := (optBoolean (Keyed.get "metered" json)).getD server.metered })
            ⟨hplain.tx, hplain.rx, hplain.dirty⟩ json
          simp only [hserver] at h
          split at h
          · rename_i it _
            cases hfallback : parseServer P feature it with
            | error message => simp [hfallback, Except.map] at h
            | ok fallback =>
                simp only [hfallback, Except.map, Except.ok.injEq, Option.some.injEq] at h
                subst h
                refine ⟨⟨hread.tx, hread.rx, hread.dirty⟩, ?_⟩
                intro f hf
                cases hf
                exact plain_parseServer hfallback
          · cases h
            refine ⟨⟨hread.tx, hread.rx, hread.dirty⟩, ?_⟩
            intro f hf
            cases hf

section Process

variable {parse : List (String × Json) → Except String (Option Entry)} {Q : Entry → Prop}

mutual

/-- What holds of every entry that is parsed holds of all entries of a document. -/
theorem forall_process (hparse : ∀ members e, parse members = .ok (some e) → Q e) :
    ∀ (json : Json) {entries : List Entry}, process parse json = .ok entries → ∀ e ∈ entries, Q e
  | .object members, entries, h => by
      rw [process] at h
      cases hentry : parse members with
      | error message => simp [hentry] at h
      | ok entry =>
          cases entry with
          | none =>
              simp only [hentry] at h
              exact forall_processMembers hparse members h
          | some entry =>
              simp only [hentry, Except.ok.injEq] at h
              subst h
              intro e he
              rw [List.mem_singleton.1 he]
              exact hparse members entry hentry
  | .array elements, entries, h => by
      rw [process] at h
      exact forall_processElements hparse elements h
  | .null, entries, h => by
      cases h
      exact List.forall_mem_nil Q
  | .bool _, entries, h => by
      cases h
      exact List.forall_mem_nil Q
  | .number _ _, entries, h => by
      cases h
      exact List.forall_mem_nil Q
  | .string _, entries, h => by
      cases h
      exact List.forall_mem_nil Q

theorem forall_processElements (hparse : ∀ members e, parse members = .ok (some e) → Q e) :
    ∀ (elements : List Json) {entries : List Entry}, processElements parse elements = .ok entries →
      ∀ e ∈ entries, Q e
  | [], entries, h => by
      cases h
      exact List.forall_mem_nil Q
  | json :: rest, entries, h => by
      rw [processElements] at h
      split at h
      · rename_i hhead htail
        cases h
        intro e he
        rcases List.mem_append.1 he with he | he
        · exact forall_process hparse json hhead e he
        · exact forall_processElements hparse rest htail e he
      · cases h
      · cases h

theorem forall_processMembers (hparse : ∀ members e, parse members = .ok (some e) → Q e) :
    ∀ (members : List (String × Json)) {entries : List Entry},
      processMembers parse members = .ok entries → ∀ e ∈ entries, Q e
  | [], entries, h => by
      cases h
      exact List.forall_mem_nil Q
  | (_, json) :: rest, entries, h => by
      rw [processMembers] at h
      split at h
      · rename_i hhead htail
        cases h
        intro e he
        rcases List.mem_append.1 he with he | he
        · exact forall_process hparse json hhead e he
        · exact forall_processMembers hparse rest htail e he
      · cases h
      · cases h

end

end Process

/-! ## What is created -/

/-- A row that was created from a profile: it has a new id and place, and the counters of an old
profile with its address, or none. -/
structure Made (t : Table) (source row : Profile) : Prop where
  eq : row = { source with
    id := row.id
    userOrder := row.userOrder
    udpFallback := row.udpFallback
    tx := row.tx
    rx := row.rx }
  isNew : t.lastId < row.id
  stats : (∃ old ∈ t.rows, old.formattedAddress = row.formattedAddress ∧ row.tx = old.tx ∧
      row.rx = old.rx) ∨
    ((∀ old ∈ t.rows, old.formattedAddress ≠ row.formattedAddress) ∧ row.tx = 0 ∧ row.rx = 0)

/-- The fallbacks that the entries take, in the order of the entries. -/
def takenFallbacks (entries : List Entry) : List Profile :=
  (assigned (fallbackMap entries) entries).reduceOption

/-- No profile can serve as the fallback. -/
def unserved (profiles : List Profile) (fallback : Profile) : Bool :=
  profiles.all (fun it => !serves fallback it)

/-- The profiles that a document creates: its entries, and then the fallbacks that neither they nor the
profiles of the documents before can serve as. -/
def createdFrom (before : List Profile) (entries : List Entry) : List Profile :=
  let mains := entries.map Prod.fst
  mains ++ (takenFallbacks entries).filter (unserved (before ++ mains))

/-- The profiles that some documents create after others. -/
def sourcesFrom : List Profile → List (List Entry) → List Profile
  | before, [] => before
  | before, entries :: rest => sourcesFrom (before ++ createdFrom before entries) rest

section Made

variable {t : Table} {source row it : Profile}

theorem Made.setFallback (h : Made t source row) (id : Int) : Made t source (setFallback id row) := by
  refine ⟨?_, h.isNew, h.stats⟩
  have heq := h.eq
  rw [Database.setFallback]
  conv_lhs => rw [heq]

theorem Made.serves_eq (h : Made t source row) (fallback : Profile) :
    serves fallback row = serves fallback source := by
  rw [h.eq]
  rfl

theorem stats_copyStats (hit : Plain it) :
    (∃ old ∈ t.rows, old.formattedAddress = it.formattedAddress ∧
      (copyStats (ProfileManager.replacedProfiles t) it).tx = old.tx ∧
      (copyStats (ProfileManager.replacedProfiles t) it).rx = old.rx) ∨
    ((∀ old ∈ t.rows, old.formattedAddress ≠ it.formattedAddress) ∧
      (copyStats (ProfileManager.replacedProfiles t) it).tx = 0 ∧
      (copyStats (ProfileManager.replacedProfiles t) it).rx = 0) := by
  by_cases hknown : ∃ old ∈ t.rows, old.formattedAddress = it.formattedAddress
  · obtain ⟨old, hold, haddress, hget⟩ := Keyed.get_foldl_put t.rows [] hknown
    have hcopy : Keyed.get it.formattedAddress (ProfileManager.replacedProfiles t) = some old := hget
    refine Or.inl ⟨old, hold, haddress, ?_⟩
    rw [copyStats, hcopy]
    exact ⟨rfl, rfl⟩
  · have hnone : ∀ old ∈ t.rows, old.formattedAddress ≠ it.formattedAddress :=
      fun old hold haddress => hknown ⟨old, hold, haddress⟩
    have hget : Keyed.get it.formattedAddress (ProfileManager.replacedProfiles t) = none :=
      Keyed.get_foldl_put_of_not t.rows [] hnone
    refine Or.inr ⟨hnone, ?_⟩
    rw [copyStats, hget]
    exact ⟨hit.tx, hit.rx⟩

theorem copyStats_eq (profiles : List (String × Profile)) (it : Profile) :
    ∃ tx rx, copyStats profiles it = { it with tx := tx, rx := rx } := by
  rw [copyStats]
  cases Keyed.get it.formattedAddress profiles with
  | none => exact ⟨it.tx, it.rx, rfl⟩
  | some old => exact ⟨old.tx, old.rx, rfl⟩

theorem made_numbered (hit : Plain it) {b : Table} (hlast : t.lastId ≤ b.lastId) :
    Made t it (ProfileManager.numbered b (copyStats (ProfileManager.replacedProfiles t) it)) := by
  rcases copyStats_eq (ProfileManager.replacedProfiles t) it with ⟨tx, rx, hcopy⟩
  have hstats := stats_copyStats (t := t) hit
  rw [hcopy] at hstats ⊢
  exact ⟨rfl, Int.lt_add_one_of_le hlast, hstats⟩

end Made

/-! ## The state of the loop -/

/-- After the first profile was created there is one row for each profile, and nothing else. -/
structure Tracks (t : Table) (sources : List Profile) (s : Replace) : Prop where
  rows : List.Forall₂ (Made t) sources s.table.rows
  nonempty : sources ≠ []
  objects : ∀ o ∈ s.objects, o ∈ s.table.rows
  lastId : t.lastId ≤ s.table.lastId
  cleared : s.cleared = true

/-- Before it the table is the old one. -/
def Progress (t : Table) (sources : List Profile) (s : Replace) : Prop :=
  (sources = [] ∧ s = { table := t }) ∨ Tracks t sources s

section Steps

variable {t : Table} {sources : List Profile} {s : Replace}

theorem lazyClear_lastId (s : Replace) : s.lazyClear.lastId = s.table.lastId := by
  rw [Replace.lazyClear]
  split
  · rfl
  · rfl

/-- In either case the next profile is created beside the ones before it. -/
theorem Progress.cleared (h : Progress t sources s) :
    List.Forall₂ (Made t) sources s.lazyClear.rows ∧ (∀ o ∈ s.objects, o ∈ s.lazyClear.rows) ∧
      t.lastId ≤ s.lazyClear.lastId := by
  rcases h with ⟨rfl, rfl⟩ | h
  · exact ⟨List.Forall₂.nil, List.forall_mem_nil _, Int.le_refl _⟩
  · have htable : s.lazyClear = s.table := by
      rw [Replace.lazyClear, h.cleared, if_pos rfl]
    rw [htable]
    exact ⟨h.rows, h.objects, h.lastId⟩

theorem tracks_create (h : Progress t sources s) {it : Profile} (hit : Plain it) :
    Tracks t (sources ++ [it]) (s.create (ProfileManager.replacedProfiles t) it).1 := by
  let row := ProfileManager.numbered s.lazyClear (copyStats (ProfileManager.replacedProfiles t) it)
  rcases h.cleared with ⟨hbefore, hobjects, hlast⟩
  have hclean : (copyStats (ProfileManager.replacedProfiles t) it).dirty = false := by
    rcases copyStats_eq (ProfileManager.replacedProfiles t) it with ⟨tx, rx, hcopy⟩
    rw [hcopy]
    exact hit.dirty
  have hrows : (s.create (ProfileManager.replacedProfiles t) it).1.table.rows =
      s.lazyClear.rows ++ [row] := create_rows hclean
  have hmade : Made t it row := made_numbered hit hlast
  refine ⟨?_, by simp, ?_, ?_, rfl⟩
  · rw [hrows]
    exact List.rel_append hbefore (List.Forall₂.cons hmade List.Forall₂.nil)
  · rw [hrows]
    intro o ho
    rcases List.mem_append.1 ho with hold | hnew
    · exact List.mem_append_left _ (hobjects o hold)
    · exact List.mem_append_right _ hnew
  · have hnext : (s.create (ProfileManager.replacedProfiles t) it).1.table.lastId =
        s.lazyClear.lastId + 1 := rfl
    omega

theorem create_snd (s : Replace) (profiles : List (String × Profile)) (it : Profile) :
    (s.create profiles it).2 = s.table.lastId + 1 := by
  rw [← lazyClear_lastId]
  rfl

theorem tracks_link (h : Tracks t sources s) {ref : Int} (href : ref ∈ s.objects.map Profile.id)
    (id : Int) :
    ∃ s', s.link ref id = some s' ∧ Tracks t sources s' ∧
      s'.objects.map Profile.id = s.objects.map Profile.id := by
  let relinked := fun o : Profile => if o.id = ref then setFallback id o else o
  rcases List.mem_map.1 href with ⟨known, hknown, hid⟩
  cases hfind : s.objects.find? (fun o => o.id == ref) with
  | none =>
      have hnone := List.find?_eq_none.1 hfind known hknown
      simp [hid] at hnone
  | some o =>
      have ho : o ∈ s.table.rows := h.objects o (List.mem_of_find?_eq_some hfind)
      have hoid : o.id = ref := by simpa using List.find?_some hfind
      have hupdate : ProfileManager.updateProfile s.table (setFallback id o) =
          some (s.table.update (setFallback id o)) := ProfileManager.updateProfile_of_mem ho rfl
      -- the object is equal to its row, so that writing it back changes the fallback only
      have hrows : (s.table.update (setFallback id o)).rows = s.table.rows.map relinked := by
        rw [update_setFallback ho id, hoid]
      have hmade : ∀ source row, Made t source row → Made t source (relinked row) := by
        intro source row hrow
        by_cases hrowid : row.id = ref
        · simp only [relinked, if_pos hrowid]
          exact hrow.setFallback id
        · simp only [relinked, if_neg hrowid]
          exact hrow
      have hids : ∀ o : Profile, (relinked o).id = o.id := by
        intro o
        by_cases hoid : o.id = ref <;> simp [relinked, hoid, setFallback]
      simp only [Replace.link, hfind, hupdate, Option.map_some, Option.some.injEq]
      refine ⟨_, rfl, ⟨?_, h.nonempty, ?_, h.lastId, h.cleared⟩, ?_⟩
      · rw [hrows]
        exact List.forall₂_map_right_iff.2 (h.rows.imp hmade)
      · intro x hx
        rcases List.mem_map.1 hx with ⟨y, hy, rfl⟩
        rw [hrows]
        exact List.mem_map_of_mem (f := relinked) (h.objects y hy)
      · rw [List.map_map]
        exact List.map_congr_left (fun o _ => hids o)

end Steps

/-! ## One document -/

section Document

variable {t : Table}

theorem createAll_progress (entries : List Entry) :
    ∀ {sources : List Profile} {s : Replace} (pending : List (Profile × Profile))
      {linked : List (Int × Profile)}, Progress t sources s → (∀ e ∈ entries, Plain e.1) →
        (∀ e ∈ linked, e.1 ∈ s.objects.map Profile.id) →
          ∃ s' linked', createAll (Replace.creator (ProfileManager.replacedProfiles t)) s pending
              linked entries = (s', entries.foldl (fun m e => Keyed.remove e.1 m) pending, linked') ∧
            Progress t (sources ++ entries.map Prod.fst) s' ∧
            linked'.map Prod.snd = linked.map Prod.snd ++ (assigned pending entries).reduceOption ∧
            ∀ e ∈ linked', e.1 ∈ s'.objects.map Profile.id := by
  induction entries with
  | nil =>
      intro sources s pending linked h _ hlinked
      refine ⟨s, linked, rfl, ?_, ?_, hlinked⟩
      · rwa [List.map_nil, List.append_nil]
      · exact (List.append_nil _).symm
  | cons e entries ih =>
      intro sources s pending linked h hplain hlinked
      rcases e with ⟨profile, fallback⟩
      let next := s.create (ProfileManager.replacedProfiles t) profile
      let added := (Keyed.get profile pending).toList.map (fun f => (next.2, f))
      have hnext : Tracks t (sources ++ [profile]) next.1 :=
        tracks_create h (hplain _ List.mem_cons_self)
      have hids : next.1.objects.map Profile.id = s.objects.map Profile.id ++ [next.2] :=
        List.map_append
      -- the references are ids of objects, which have rows, so the next id is not among them
      have hbound : ∀ d ∈ linked, d.1 ≤ s.table.lastId := by
        intro d hd
        rcases List.mem_map.1 (hlinked d hd) with ⟨o, ho, hid⟩
        have hpos := s.lazyClear.ids_pos o (h.cleared.2.1 o ho)
        rw [lazyClear_lastId, hid] at hpos
        exact hpos.2
      have hlinked' : ∀ d ∈ linked ++ added, d.1 ∈ next.1.objects.map Profile.id := by
        intro d hd
        rw [hids]
        rcases List.mem_append.1 hd with hold | hnew
        · exact List.mem_append_left _ (hlinked d hold)
        · rcases List.mem_map.1 hnew with ⟨f, _, rfl⟩
          exact List.mem_append_right _ (List.mem_singleton_self _)
      rcases ih (Keyed.remove profile pending) (Or.inr hnext)
          (fun d hd => hplain d (List.mem_cons_of_mem _ hd)) hlinked' with
        ⟨s', linked', hall, hprogress, hsnd, hrefs⟩
      refine ⟨s', linked', ?_, ?_, ?_, hrefs⟩
      · have hnew : next.2 ∉ linked.map Prod.fst := by
          rw [create_snd]
          exact next_not_mem hbound
        have hstep : createAll (Replace.creator (ProfileManager.replacedProfiles t)) s pending linked
            ((profile, fallback) :: entries) = createAll (Replace.creator
              (ProfileManager.replacedProfiles t)) next.1 (Keyed.remove profile pending)
                (linked ++ added) entries := createAll_cons hnew
        rw [hstep, hall, List.foldl_cons]
      · rwa [List.map_cons, List.append_cons]
      · have hadded : added.map Prod.snd = (Keyed.get profile pending).toList := by
          rw [List.map_map]
          exact List.map_id _
        rw [hsnd, List.map_append, hadded, List.append_assoc, assigned]
        cases Keyed.get profile pending with
        | none => rfl
        | some f => rfl

theorem unserved_eq {before rows : List Profile} (h : List.Forall₂ (Made t) before rows)
    (fallback : Profile) :
    unserved before fallback = (rows.find? (serves fallback)).isNone := by
  induction h with
  | nil => rfl
  | @cons source row sources rows hrow _ ih =>
      rw [unserved] at ih ⊢
      rw [List.all_cons, List.find?_cons, hrow.serves_eq, ih]
      cases serves fallback source with
      | true => rfl
      | false => rfl

theorem finalize_progress {before rows : List Profile} (hbefore : List.Forall₂ (Made t) before rows)
    (linked : List (Int × Profile)) :
    ∀ {sources : List Profile} {s : Replace}, Tracks t sources s →
      (∀ e ∈ linked, e.1 ∈ s.objects.map Profile.id) → (∀ e ∈ linked, Plain e.2) →
        ∃ s', finalize (Replace.creator (ProfileManager.replacedProfiles t)) rows s linked = some s' ∧
          Tracks t (sources ++ (linked.map Prod.snd).filter (unserved before)) s' := by
  induction linked with
  | nil =>
      intro sources s h _ _
      refine ⟨s, rfl, ?_⟩
      rwa [List.map_nil, List.filter_nil, List.append_nil]
  | cons e linked ih =>
      intro sources s h hrefs hplain
      rcases e with ⟨ref, fallback⟩
      have href := hrefs _ List.mem_cons_self
      have hrefs' : ∀ e ∈ linked, e.1 ∈ s.objects.map Profile.id :=
        fun d hd => hrefs d (List.mem_cons_of_mem _ hd)
      have hplain' : ∀ e ∈ linked, Plain e.2 := fun d hd => hplain d (List.mem_cons_of_mem _ hd)
      have hserved := unserved_eq hbefore fallback
      cases hrow : rows.find? (serves fallback) with
      | some row =>
          rw [hrow, Option.isNone_some] at hserved
          rcases tracks_link h href row.id with ⟨next, hlink, hnext, hids⟩
          rcases ih hnext (hids ▸ hrefs') hplain' with ⟨s', hfinal, hs'⟩
          have hcreator : (Replace.creator (ProfileManager.replacedProfiles t)).link s ref row.id =
              some next := hlink
          refine ⟨s', ?_, ?_⟩
          · simp only [finalize, hrow, hcreator, Option.bind_some, hfinal]
          · rwa [List.map_cons, List.filter_cons_of_neg (by simp [hserved])]
      | none =>
          -- the fallback becomes an object too, and the one that takes it is still among them
          rw [hrow, Option.isNone_none] at hserved
          let created := s.create (ProfileManager.replacedProfiles t) fallback
          have hcreated : Tracks t (sources ++ [fallback]) created.1 :=
            tracks_create (Or.inr h) (hplain _ List.mem_cons_self)
          have hkeep : ∀ n ∈ s.objects.map Profile.id, n ∈ created.1.objects.map Profile.id := by
            have hobjects : created.1.objects.map Profile.id =
                s.objects.map Profile.id ++ [created.2] := List.map_append
            intro n hn
            rw [hobjects]
            exact List.mem_append_left _ hn
          rcases tracks_link hcreated (hkeep _ href) created.2 with ⟨next, hlink, hnext, hids⟩
          rcases ih hnext (fun d hd => hids ▸ hkeep _ (hrefs' d hd)) hplain' with ⟨s', hfinal, hs'⟩
          have hcreator : (Replace.creator (ProfileManager.replacedProfiles t)).link created.1 ref
              created.2 = some next := hlink
          refine ⟨s', ?_, ?_⟩
          · have hstep : finalize (Replace.creator (ProfileManager.replacedProfiles t)) rows s
                ((ref, fallback) :: linked) =
                  ((Replace.creator (ProfileManager.replacedProfiles t)).link created.1 ref
                    created.2).bind (fun s => finalize (Replace.creator
                      (ProfileManager.replacedProfiles t)) rows s linked) := by
              rw [finalize, hrow]
              rfl
            rw [hstep, hcreator, Option.bind_some, hfinal]
          · rwa [List.map_cons, List.filter_cons_of_pos hserved, List.append_cons]

theorem plain_takenFallbacks {entries : List Entry} (h : ∀ e ∈ entries, PlainEntry e) :
    ∀ fallback ∈ takenFallbacks entries, Plain fallback := by
  intro fallback hf
  have hassigned : some fallback ∈ assigned (fallbackMap entries) entries :=
    List.reduceOption_mem_iff.1 hf
  rcases List.mem_map.1 (mem_assigned entries _ hassigned) with ⟨d, hd, rfl⟩
  exact (h _ (mem_fallbackMap hd)).2 _ rfl

/-- Once a document has been read its import does not fail. -/
theorem importEntries_progress {before : List Profile} {s : Replace} {entries : List Entry}
    (h : Progress t before s) (hplain : ∀ e ∈ entries, PlainEntry e) :
    ∃ s', importEntries (Replace.creator (ProfileManager.replacedProfiles t))
        { s with objects := [] } entries = some s' ∧
      Progress t (before ++ createdFrom before entries) s' := by
  have hstart : Progress t before { s with objects := [] } := by
    rcases h with ⟨hnil, rfl⟩ | h
    · exact Or.inl ⟨hnil, rfl⟩
    · exact Or.inr ⟨h.rows, h.nonempty, List.forall_mem_nil _, h.lastId, h.cleared⟩
  rcases createAll_progress entries (fallbackMap entries) hstart (fun e he => (hplain e he).1)
    (List.forall_mem_nil _) with ⟨s', linked, hall, hprogress, hsnd, hrefs⟩
  rw [pending_eq_nil] at hall
  have hlinked : linked.map Prod.snd = takenFallbacks entries := hsnd
  have himport : importEntries (Replace.creator (ProfileManager.replacedProfiles t))
      { s with objects := [] } entries =
        finalize (Replace.creator (ProfileManager.replacedProfiles t)) s'.table.rows s' linked := by
    rw [importEntries, hall]
    rfl
  rw [himport]
  rcases hprogress with ⟨hnil, hs'⟩ | htracks
  · -- no profile was created, so that nothing is linked and the table has not been cleared
    have hentries : entries = [] := List.map_eq_nil_iff.1 (List.append_eq_nil_iff.1 hnil).2
    subst hentries
    have hnone : linked = [] := List.map_eq_nil_iff.1 hlinked
    subst hnone
    exact ⟨s', rfl, Or.inl ⟨hnil, hs'⟩⟩
  · have hplain' : ∀ e ∈ linked, Plain e.2 := by
      intro e he
      refine plain_takenFallbacks hplain e.2 ?_
      rw [← hlinked]
      exact List.mem_map_of_mem he
    rcases finalize_progress htracks.rows linked htracks hrefs hplain' with ⟨s'', hfinal, hs''⟩
    refine ⟨s'', hfinal, Or.inr ?_⟩
    rwa [hlinked, List.append_assoc] at hs''

end Document

/-! ## All documents -/

theorem forEachTry_fst {α σ ε : Type} (action : α → σ → σ × Option ε) (elements : List α) :
    ∀ s, (forEachTry action elements s).1 =
      elements.foldl (fun s element => (action element s).1) s := by
  induction elements with
  | nil =>
      intro s
      rfl
  | cons element rest ih =>
      intro s
      rw [forEachTry, ih, List.foldl_cons]

/-- Elements that leave every state as it is can be left out. -/
theorem forEachTry_filter {α σ ε : Type} {action : α → σ → σ × Option ε} {p : α → Bool}
    (h : ∀ a, p a = false → ∀ s, (action a s).1 = s) (elements : List α) (s : σ) :
    (forEachTry action elements s).1 = (forEachTry action (elements.filter p) s).1 := by
  have hstep : ∀ s a, (action a s).1 = if p a then (action a s).1 else s := by
    intro s a
    cases hp : p a with
    | false => exact h a hp s
    | true => rfl
  rw [forEachTry_fst, forEachTry_fst, List.foldl_filter]
  exact congrArg (fun f => elements.foldl f s) (funext (fun s => funext (hstep s)))

section Documents

variable (P : Platform) (feature : Option Profile)

/-- The entries of a document, none where it cannot be read. -/
def entriesOf (document : Option Json) : List Entry :=
  match readDocument P feature document with
  | .error _ => []
  | .ok entries => entries

def canRead (document : Option Json) : Bool :=
  match readDocument P feature document with
  | .error _ => false
  | .ok _ => true

variable {P feature} {t : Table}

theorem plain_entriesOf (document : Option Json) :
    ∀ e ∈ entriesOf P feature document, PlainEntry e := by
  cases document with
  | none => exact List.forall_mem_nil _
  | some json =>
      rw [entriesOf, readDocument]
      cases hprocess : process (tryParse P feature) json with
      | error message => exact List.forall_mem_nil _
      | ok entries => exact forall_process (fun _ _ => plain_tryParse) json hprocess

/-- A document that cannot be read changes nothing. -/
theorem importDocument_of_not_canRead {document : Option Json}
    (h : canRead P feature document = false) (profiles : List (String × Profile)) (s : Replace) :
    (importDocument P feature profiles document s).1 = s := by
  rw [canRead] at h
  rw [importDocument]
  cases hread : readDocument P feature document with
  | error e => rfl
  | ok entries =>
      rw [hread] at h
      cases h

theorem importDocument_progress {before : List Profile} {s : Replace} (h : Progress t before s)
    (document : Option Json) :
    Progress t (before ++ createdFrom before (entriesOf P feature document))
      (importDocument P feature (ProfileManager.replacedProfiles t) document s).1 := by
  have hplain : ∀ e ∈ entriesOf P feature document, PlainEntry e := plain_entriesOf document
  rw [entriesOf] at hplain ⊢
  rw [importDocument]
  cases hread : readDocument P feature document with
  | error e =>
      have hnothing : createdFrom before [] = [] := rfl
      simp only [hnothing, List.append_nil]
      exact h
  | ok entries =>
      rw [hread] at hplain
      rcases importEntries_progress h hplain with ⟨s', himport, hs'⟩
      simp only [himport]
      exact hs'

theorem foldl_importDocument (documents : List (Option Json)) :
    ∀ {before : List Profile} {s : Replace}, Progress t before s →
      Progress t (sourcesFrom before (documents.map (entriesOf P feature)))
        (documents.foldl (fun s document =>
          (importDocument P feature (ProfileManager.replacedProfiles t) document s).1) s) := by
  induction documents with
  | nil =>
      intro before s h
      exact h
  | cons document rest ih =>
      intro before s h
      rw [List.foldl_cons, List.map_cons, sourcesFrom]
      exact ih (importDocument_progress h document)

theorem sourcesFrom_eq_nil_iff (read : List (List Entry)) :
    ∀ before, sourcesFrom before read = [] ↔ before = [] ∧ ∀ entries ∈ read, entries = [] := by
  induction read with
  | nil =>
      intro before
      rw [sourcesFrom]
      exact (and_iff_left (List.forall_mem_nil _)).symm
  | cons entries rest ih =>
      intro before
      have hcreated : createdFrom before entries = [] ↔ entries = [] := by
        constructor
        · intro h
          exact List.map_eq_nil_iff.1 (List.append_eq_nil_iff.1 h).1
        · rintro rfl
          rfl
      rw [sourcesFrom, ih, List.append_eq_nil_iff, hcreated, List.forall_mem_cons, and_assoc]

end Documents

/-- The table is the old one, or it has one new row for each profile of the documents that can be read
and no other row; the documents that cannot be read make no difference wherever they stand. -/
theorem createProfilesFromJson_spec (P : Platform) (profileId : Int)
    (documents : List (Option Json)) (t : Table) :
    let feature := ProfileManager.replacedFeature profileId t
    let read := documents.map (entriesOf P feature)
    let after := (ProfileManager.createProfilesFromJson P profileId documents t).1
    (((∀ entries ∈ read, entries = []) ∧ after = t) ∨
      ((∃ entries ∈ read, entries ≠ []) ∧
        List.Forall₂ (Made t) (sourcesFrom [] read) after.rows)) ∧
    after = (ProfileManager.createProfilesFromJson P profileId
      (documents.filter (canRead P feature)) t).1 := by
  intro feature read after
  have hrun : Progress t (sourcesFrom [] read) (forEachTry
      (importDocument P feature (ProfileManager.replacedProfiles t)) documents { table := t }).1 := by
    rw [forEachTry_fst]
    exact foldl_importDocument documents (Or.inl ⟨rfl, rfl⟩)
  refine ⟨?_, ?_⟩
  · rcases hrun with ⟨hnil, hs⟩ | htracks
    · exact Or.inl ⟨((sourcesFrom_eq_nil_iff read []).1 hnil).2, congrArg Replace.table hs⟩
    · refine Or.inr ⟨?_, htracks.rows⟩
      by_contra hnone
      refine htracks.nonempty ((sourcesFrom_eq_nil_iff read []).2 ⟨rfl, ?_⟩)
      intro entries hentries
      by_contra hne
      exact hnone ⟨entries, hentries, hne⟩
  · have hskip : ∀ document, canRead P feature document = false → ∀ s,
        (importDocument P feature (ProfileManager.replacedProfiles t) document s).1 = s :=
      fun document h s => importDocument_of_not_canRead h _ s
    exact congrArg Replace.table (forEachTry_filter hskip documents { table := t })

/-- A document that cannot be read, and one with the server of the only profile. -/
example :
    let t := Table.empty.create { host := "a", remotePort := 8388, tx := 5, rx := 7 }
    let document := Json.object [("server", .string "a"), ("server_port", .number "8388" 8388),
      ("password", .string "p"), ("method", .string "m")]
    let after := (ProfileManager.createProfilesFromJson plainPlatform 1 [none, some document] t).1
    after.rows.map (fun p => (p.id, p.host, p.tx, p.rx)) = [(2, "a", 5, 7)] := by
  decide +kernel

end Database
end SpinVpn
