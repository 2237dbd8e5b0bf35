import Mathlib.Data.List.Basic
import SpinVpn.Main.Servers

/-!
# Records — which row is written, and what is left of the others

`createOrUpdateRecord` and `getDataId` (`ShadowsockExt.kt`) both scan the table for a host and
port.  The scan that chooses the row to write keeps the last match, the scan that chooses the row
to start takes the first.  On tables that `syncFromData` alone builds the two agree; here the
table is arbitrary, since imports and subscriptions put several rows with one address into it.

The row that is written is written as a whole, from a value that carries no more than name, host,
port, password and method.
-/

namespace SpinVpn
namespace Main

open Database

/-! ## The two scans -/

/-- The row that `createOrUpdateRecord` writes over, if there is one. -/
def lastRow (t : Table) (profile : Profile) : Option Profile :=
  t.rows.reverse.find? (sameAddress profile)

/-- The row that `getDataId` selects, if there is one. -/
def firstRow (t : Table) (profile : Profile) : Option Profile :=
  t.rows.find? (sameAddress profile)

theorem existed_eq (t : Table) (profile : Profile) :
    existed t profile = (lastRow t profile).map Profile.id := by
  simp [existed, foldl_found, lastRow, ProfileManager.getAllProfiles, Table.listAll]

theorem getDataId_eq {t : Table} {profile q : Profile} (h : firstRow t profile = some q) :
    getDataId t profile = q.id := by
  have hfind : (ProfileManager.getAllProfiles t).find? (sameAddress profile) = some q := h
  simp [getDataId, hfind]

theorem sameAddress_iff (profile it : Profile) :
    sameAddress profile it = true ↔ addressOf it = addressOf profile := by
  simp [sameAddress_eq]

/-- Rows are in the order of their ids, so the last match is the one with the largest id. -/
theorem lastRow_spec {t : Table} {profile q : Profile} (h : lastRow t profile = some q) :
    q ∈ t.rows ∧ addressOf q = addressOf profile ∧
      ∀ r ∈ t.rows, addressOf r = addressOf profile → r.id ≤ q.id := by
  refine ⟨List.mem_reverse.1 (List.mem_of_find?_eq_some h),
    (sameAddress_iff _ _).1 (List.find?_some h), ?_⟩
  intro r hr haddr
  -- the scan from the end meets larger ids first
  have hsorted : t.rows.reverse.Pairwise (fun p q => q.id < p.id) :=
    List.pairwise_reverse.2 t.ids_lt
  rcases Keyed.find?_pairwise hsorted h (List.mem_reverse.2 hr)
    ((sameAddress_iff _ _).2 haddr) with rfl | hlt
  · exact Int.le_refl _
  · omega

theorem firstRow_spec {t : Table} {profile q : Profile} (h : firstRow t profile = some q) :
    q ∈ t.rows ∧ addressOf q = addressOf profile ∧
      ∀ r ∈ t.rows, addressOf r = addressOf profile → q.id ≤ r.id := by
  refine ⟨List.mem_of_find?_eq_some h, (sameAddress_iff _ _).1 (List.find?_some h), ?_⟩
  intro r hr haddr
  rcases Keyed.find?_pairwise t.ids_lt h hr ((sameAddress_iff _ _).2 haddr) with rfl | hlt
  · exact Int.le_refl _
  · omega

theorem lastRow_eq_none {t : Table} {profile : Profile} :
    lastRow t profile = none ↔ ∀ q ∈ t.rows, addressOf q ≠ addressOf profile := by
  simp [lastRow, sameAddress_iff]

theorem firstRow_ne_none {t : Table} {profile q : Profile} (hq : q ∈ t.rows)
    (haddr : addressOf q = addressOf profile) : ∃ r, firstRow t profile = some r := by
  refine Option.isSome_iff_exists.1 (List.find?_isSome.2 ⟨q, hq, ?_⟩)
  exact (sameAddress_iff _ _).2 haddr

theorem lastRow_eq_some {t : Table} {profile q : Profile} :
    lastRow t profile = some q ↔
      q ∈ t.rows ∧ addressOf q = addressOf profile ∧
        ∀ r ∈ t.rows, addressOf r = addressOf profile → r.id ≤ q.id := by
  constructor
  · exact lastRow_spec
  · rintro ⟨hq, haddr, hmax⟩
    cases hfind : lastRow t profile with
    | none => exact absurd haddr (lastRow_eq_none.1 hfind q hq)
    | some r =>
        rcases lastRow_spec hfind with ⟨hr, hraddr, hrmax⟩
        -- two rows that are both the last have one id
        have hid : r.id = q.id := Int.le_antisymm (hmax r hr hraddr) (hrmax q hq haddr)
        rw [Table.row_ext hr hq hid]

/-! ## What one record does to the table -/

/-- Either no row has the address and one is added, or the last of those that have it is written
over. -/
theorem createOrUpdateRecord_cases (t : Table) (profile : Profile) :
    (lastRow t profile = none ∧
      createOrUpdateRecord t profile = some (ProfileManager.createProfile t profile).1) ∨
    ∃ q, lastRow t profile = some q ∧
      createOrUpdateRecord t profile = some (t.update { profile with id := q.id }) := by
  cases hlast : lastRow t profile with
  | none =>
      refine Or.inl ⟨rfl, ?_⟩
      simp [createOrUpdateRecord, existed_eq, hlast]
  | some q =>
      refine Or.inr ⟨q, rfl, ?_⟩
      have hq : q ∈ t.rows := (lastRow_spec hlast).1
      simp only [createOrUpdateRecord, existed_eq, hlast, Option.map_some]
      exact ProfileManager.updateProfile_of_mem hq rfl

/-- The row that stands in `t.update value` in the place of `q`. -/
theorem mem_update {t : Table} {value q : Profile} (hq : q ∈ t.rows) :
    Table.overwrite value q ∈ (t.update value).rows :=
  List.mem_map_of_mem hq

/-- Writing over a row with the same address moves no address. -/
theorem addressOf_overwrite {t : Table} {profile q r : Profile} (hq : q ∈ t.rows)
    (haddr : addressOf q = addressOf profile) (hr : r ∈ t.rows) :
    addressOf (Table.overwrite { profile with id := q.id } r) = addressOf r := by
  have hover : Table.overwrite { profile with id := q.id } r = _ := Table.overwrite_eq hq rfl hr
  by_cases hrq : r = q
  · rw [hover, if_pos hrq, hrq]
    exact haddr.symm
  · rw [hover, if_neg hrq]

/-! ## The written and the started row -/

/-- The id of the row that `createOrUpdateRecord` writes. -/
def writtenId (t : Table) (profile : Profile) : Int :=
  (existed t profile).getD (t.lastId + 1)

/-- In `t'`, which a call of `createOrUpdateRecord` on `t` has left, `getDataId` selects the row
that the call wrote, and that row is `profile`'s. -/
def SelectsWritten (t t' : Table) (profile : Profile) : Prop :=
  ∃ q ∈ t'.rows, q.id = getDataId t' profile ∧ q.id = writtenId t profile ∧
    q.host = profile.host ∧ q.remotePort = profile.remotePort ∧
    q.password = profile.password ∧ q.method = profile.method ∧ q.name = profile.name

def AtMostOneRow (t : Table) (address : String × Int) : Prop :=
  ∀ q ∈ t.rows, ∀ r ∈ t.rows, addressOf q = address → addressOf r = address → q = r

theorem selectsWritten_create {t : Table} {profile : Profile} (h : lastRow t profile = none) :
    SelectsWritten t (ProfileManager.createProfile t profile).1 profile := by
  set row : Profile := { (ProfileManager.numbered t profile).stored with id := t.lastId + 1 }
    with hrow
  have hrows : (ProfileManager.createProfile t profile).1.rows = t.rows ++ [row] := rfl
  -- nothing before the new row has its address
  have hnone : t.rows.find? (sameAddress profile) = none := by
    simpa [sameAddress_iff] using lastRow_eq_none.1 h
  have hfirst : firstRow (ProfileManager.createProfile t profile).1 profile = some row := by
    have hsame : sameAddress profile row = true := (sameAddress_iff _ _).2 rfl
    simp [firstRow, hrows, List.find?_append, hnone, hsame]
  have hid : writtenId t profile = row.id := by simp [writtenId, existed_eq, h, hrow]
  refine ⟨row, by simp [hrows], (getDataId_eq hfirst).symm, hid.symm, rfl, rfl, rfl, rfl, rfl⟩

theorem selectsWritten_update {t : Table} {profile q : Profile} (h : lastRow t profile = some q) :
    SelectsWritten t (t.update { profile with id := q.id }) profile ↔
      AtMostOneRow t (addressOf profile) := by
  rcases lastRow_spec h with ⟨hq, haddr, hmax⟩
  set value : Profile := { profile with id := q.id } with hvalue
  have hwritten : writtenId t profile = q.id := by simp [writtenId, existed_eq, h]
  -- the written row keeps its id and its address, so the scan for the first one may find it
  have hover : Table.overwrite value q = value.stored := if_pos rfl
  have hmem : Table.overwrite value q ∈ (t.update value).rows := mem_update hq
  have hmemAddr : addressOf (Table.overwrite value q) = addressOf profile :=
    (addressOf_overwrite hq haddr hq).trans haddr
  rcases firstRow_ne_none hmem hmemAddr with ⟨f, hf⟩
  rcases firstRow_spec hf with ⟨hfmem, hfaddr, hfmin⟩
  constructor
  · rintro ⟨s, -, hsel, hsid, -⟩
    -- the first match is the last one, so every match lies between them
    have hfid : f.id = q.id := (getDataId_eq hf).symm.trans (hsel.symm.trans (hsid.trans hwritten))
    have hall : ∀ r ∈ t.rows, addressOf r = addressOf profile → r = q := by
      intro r hr hraddr
      have hle := hfmin _ (mem_update hr) ((addressOf_overwrite hq haddr hr).trans hraddr)
      rw [Table.overwrite_id] at hle
      have hge := hmax r hr hraddr
      exact Table.row_ext hr hq (by omega)
    intro r hr s hs hraddr hsaddr
    exact (hall r hr hraddr).trans (hall s hs hsaddr).symm
  · intro hone
    rcases List.mem_map.1 hfmem with ⟨r, hr, rfl⟩
    have hraddr : addressOf r = addressOf profile :=
      (addressOf_overwrite hq haddr hr).symm.trans hfaddr
    have hrq : r = q := hone r hr q hq hraddr haddr
    subst hrq
    refine ⟨_, hfmem, (getDataId_eq hf).symm, ?_, ?_⟩
    · rw [hwritten, Table.overwrite_id]
    · rw [hover]
      exact ⟨rfl, rfl, rfl, rfl, rfl⟩

/-- The row that is written and the row that is started are one, and it is `profile`'s, exactly
if the table had no two rows with its host and port. -/
theorem selectsWritten_iff (t : Table) (profile : Profile) :
    (∃ t', createOrUpdateRecord t profile = some t' ∧ SelectsWritten t t' profile) ↔
      AtMostOneRow t (addressOf profile) := by
  rcases createOrUpdateRecord_cases t profile with ⟨hlast, heq⟩ | ⟨q, hlast, heq⟩
  · have hmiss := lastRow_eq_none.1 hlast
    constructor
    · rintro - q hq r - hqaddr -
      exact absurd hqaddr (hmiss q hq)
    · intro _
      exact ⟨_, heq, selectsWritten_create hlast⟩
  · rw [heq, ← selectsWritten_update hlast]
    constructor
    · rintro ⟨t', ht', hsel⟩
      cases ht'
      exact hsel
    · exact fun hsel => ⟨_, rfl, hsel⟩

/-- Two rows with the address of `tokyo`, as two imports of it leave them. -/
def importedTwice : Table :=
  let old : Profile := { tokyo.toConnection.toProfile with password := "expired" }
  let once := (ProfileManager.createProfile Table.empty old).1
  (ProfileManager.createProfile once old).1

/-- The second row gets the new password, the first is started with the old one. -/
theorem importedTwice_not_selected :
    ∃ t', createOrUpdateRecord importedTwice tokyo.toConnection.toProfile = some t' ∧
      getDataId t' tokyo.toConnection.toProfile = 1 ∧
      (t'.get 1).map Profile.password = some "expired" ∧
      (t'.get 2).map Profile.password = some "secret" ∧
      ¬ SelectsWritten importedTwice t' tokyo.toConnection.toProfile := by
  refine ⟨_, rfl, by decide, by decide, by decide, ?_⟩
  rintro ⟨q, -, hsel, hwritten, -⟩
  have hone : q.id = 1 := hsel
  have htwo : q.id = 2 := hwritten
  omega

/-! ## What a delivery leaves of the rows -/

/-- A row without its name, password and method: what a delivery has no business changing. -/
def otherSettings (p : Profile) : Profile :=
  { p with name := none, password := "", method := "" }

/-- Every row is still there under its id, with the same settings. -/
def Framed (t t' : Table) : Prop :=
  ∀ q ∈ t.rows, ∃ q' ∈ t'.rows, q'.id = q.id ∧ otherSettings q' = otherSettings q

/-- The settings are those of a profile that has just been made for the address. -/
def Fresh (q : Profile) : Prop :=
  otherSettings q = otherSettings { id := q.id, host := q.host, remotePort := q.remotePort }

/-- The row is the last one with the address of some delivered connection. -/
def Touched (t : Table) (data : List MConnection) (q : Profile) : Prop :=
  ∃ c ∈ data, lastRow t c.toProfile = some q

/-- A written row is fresh. -/
theorem fresh_toProfile (c : MConnection) (id : Int) :
    Fresh (Profile.stored { c.toProfile with id := id }) := rfl

/-- `q'` is what a delivery makes of the row `q`, which it writes over or leaves alone. -/
structure Rewritten (touched : Prop) (q q' : Profile) : Prop where
  id : q'.id = q.id
  address : addressOf q' = addressOf q
  fresh : touched → Fresh q'
  same : ¬ touched → q' = q

/-- Between two tables of which the second has every row of the first, and more rows only for
addresses the first did not have, the last row of an address stays the last. -/
theorem lastRow_rewritten {t t₁ : Table} {profile q q₁ : Profile} (hq : q ∈ t.rows)
    (hq₁ : q₁ ∈ t₁.rows) (hid : q₁.id = q.id) (haddr : addressOf q₁ = addressOf q)
    (hkept : ∀ r ∈ t.rows, ∃ r₁ ∈ t₁.rows, r₁.id = r.id ∧ addressOf r₁ = addressOf r)
    (hnew : ∀ r₁ ∈ t₁.rows, (∃ r ∈ t.rows, r₁.id = r.id ∧ addressOf r₁ = addressOf r) ∨
      ∀ r ∈ t.rows, addressOf r ≠ addressOf r₁) :
    lastRow t₁ profile = some q₁ ↔ lastRow t profile = some q := by
  simp only [lastRow_eq_some, hq, hq₁, hid, haddr, true_and]
  refine and_congr_right (fun hqaddr => ⟨?_, ?_⟩)
  · intro hmax r hr hraddr
    rcases hkept r hr with ⟨r₁, hr₁, hrid, hr₁addr⟩
    exact hrid ▸ hmax r₁ hr₁ (hr₁addr.trans hraddr)
  · intro hmax r₁ hr₁ hr₁addr
    rcases hnew r₁ hr₁ with ⟨r, hr, hrid, hraddr⟩ | hother
    · exact hrid ▸ hmax r hr (hraddr.symm.trans hr₁addr)
    · exact absurd (hqaddr.trans hr₁addr.symm) (hother q hq)

/-- Storing one connection: which rows it writes over, and which it adds. -/
theorem createOrUpdateRecord_rows (t : Table) (c : MConnection) :
    ∃ t₁, createOrUpdateRecord t c.toProfile = some t₁ ∧
      (∀ q ∈ t.rows, ∃ q₁ ∈ t₁.rows, Rewritten (lastRow t c.toProfile = some q) q q₁) ∧
      ∀ r₁ ∈ t₁.rows, (∃ r ∈ t.rows, r₁.id = r.id ∧ addressOf r₁ = addressOf r) ∨
        ∀ r ∈ t.rows, addressOf r ≠ addressOf r₁ := by
  rcases createOrUpdateRecord_cases t c.toProfile with ⟨hlast, heq⟩ | ⟨p, hlast, heq⟩
  · refine ⟨_, heq, ?_, ?_⟩
    · intro q hq
      refine ⟨q, List.mem_append_left _ hq, rfl, rfl, ?_, fun _ => rfl⟩
      simp [hlast]
    · intro r₁ hr₁
      rcases List.mem_append.1 hr₁ with hold | hrow
      · exact Or.inl ⟨r₁, hold, rfl, rfl⟩
      · rw [List.mem_singleton.1 hrow]
        exact Or.inr (lastRow_eq_none.1 hlast)
  · rcases lastRow_spec hlast with ⟨hp, haddr, -⟩
    refine ⟨_, heq, ?_, ?_⟩
    · intro q hq
      refine ⟨_, mem_update hq, Table.overwrite_id _ _, addressOf_overwrite hp haddr hq, ?_, ?_⟩
      · intro htouched
        have hpq : p = q := Option.some.inj (hlast.symm.trans htouched)
        subst hpq
        rw [Table.overwrite, if_pos rfl]
        exact fresh_toProfile c p.id
      · intro huntouched
        have hqp : ¬ q = p := by
          rintro rfl
          exact huntouched hlast
        have hover : Table.overwrite { c.toProfile with id := p.id } q = _ :=
          Table.overwrite_eq hp rfl hq
        rw [hover, if_neg hqp]
    · intro r₁ hr₁
      rcases List.mem_map.1 hr₁ with ⟨r, hr, rfl⟩
      exact Or.inl ⟨r, hr, Table.overwrite_id _ _, addressOf_overwrite hp haddr hr⟩

/-- A delivery keeps every row and its id; the rows it touches come out fresh, the others as they
were. -/
theorem syncFromData_rows (t : Table) (data : List MConnection) :
    ∃ t', syncFromData t data = some t' ∧
      ∀ q ∈ t.rows, ∃ q' ∈ t'.rows, Rewritten (Touched t data q) q q' := by
  induction data generalizing t with
  | nil =>
      refine ⟨t, rfl, fun q hq => ⟨q, hq, rfl, rfl, ?_, fun _ => rfl⟩⟩
      rintro ⟨c, hc, -⟩
      simp at hc
  | cons c data ih =>
      rcases createOrUpdateRecord_rows t c with ⟨t₁, hstep, hrows, hnew⟩
      rcases ih t₁ with ⟨t', hsync, hrows'⟩
      refine ⟨t', by simpa [syncFromData, hstep] using hsync, ?_⟩
      intro q hq
      rcases hrows q hq with ⟨q₁, hq₁, hone⟩
      rcases hrows' q₁ hq₁ with ⟨q', hq', hrest⟩
      have hkept : ∀ r ∈ t.rows, ∃ r₁ ∈ t₁.rows, r₁.id = r.id ∧ addressOf r₁ = addressOf r := by
        intro r hr
        rcases hrows r hr with ⟨r₁, hr₁, hr⟩
        exact ⟨r₁, hr₁, hr.id, hr.address⟩
      -- whether a later connection touches the row does not depend on this one
      have htouched : Touched t₁ data q₁ ↔ Touched t data q :=
        exists_congr (fun d => and_congr_right (fun _ =>
          lastRow_rewritten hq hq₁ hone.id hone.address hkept hnew))
      refine ⟨q', hq', hrest.id.trans hone.id, hrest.address.trans hone.address, ?_, ?_⟩
      · rintro ⟨d, hd, hlast⟩
        by_cases hlater : Touched t₁ data q₁
        · exact hrest.fresh hlater
        · -- no later connection writes the row, so it was this one
          rcases List.mem_cons.1 hd with rfl | hd
          · rw [hrest.same hlater]
            exact hone.fresh hlast
          · exact absurd (htouched.2 ⟨d, hd, hlast⟩) hlater
      · intro huntouched
        have hhead : ¬ lastRow t c.toProfile = some q :=
          fun hlast => huntouched ⟨c, List.mem_cons_self, hlast⟩
        have htail : ¬ Touched t₁ data q₁ := by
          rw [htouched]
          rintro ⟨d, hd, hlast⟩
          exact huntouched ⟨d, List.mem_cons_of_mem _ hd, hlast⟩
        exact (hrest.same htail).trans (hone.same hhead)

/-- A fresh row has the settings of the row it was written over exactly if that row was fresh. -/
theorem otherSettings_eq_iff {q q' : Profile} (hid : q'.id = q.id)
    (haddr : addressOf q' = addressOf q) (h : Fresh q') :
    otherSettings q' = otherSettings q ↔ Fresh q := by
  have hhost : q'.host = q.host := congrArg Prod.fst haddr
  have hport : q'.remotePort = q.remotePort := congrArg Prod.snd haddr
  rw [Fresh, hid, hhost, hport] at h
  rw [Fresh, h]
  exact eq_comm

/-- A delivery changes no more than name, password and method of the rows that were there exactly
if the rows it writes over had no other settings than the defaults. -/
theorem framed_iff_fresh (t : Table) (data : List MConnection) :
    (∃ t', syncFromData t data = some t' ∧ Framed t t') ↔
      ∀ q, Touched t data q → Fresh q := by
  rcases syncFromData_rows t data with ⟨t', hsync, hrows⟩
  constructor
  · rintro ⟨t'', hsync', hframed⟩ q htouched
    cases hsync.symm.trans hsync'
    have hq : q ∈ t.rows := by
      rcases htouched with ⟨c, -, hlast⟩
      exact (lastRow_spec hlast).1
    rcases hrows q hq with ⟨q', hq', hrow⟩
    rcases hframed q hq with ⟨q'', hq'', hid, hsame⟩
    -- ids are unique, so the row that was kept is the one that was rewritten
    cases Table.row_ext hq' hq'' (hrow.id.trans hid.symm)
    exact (otherSettings_eq_iff hrow.id hrow.address (hrow.fresh htouched)).1 hsame
  · intro hfresh
    refine ⟨t', hsync, ?_⟩
    intro q hq
    rcases hrows q hq with ⟨q', hq', hrow⟩
    refine ⟨q', hq', hrow.id, ?_⟩
    by_cases htouched : Touched t data q
    · exact (otherSettings_eq_iff hrow.id hrow.address (hrow.fresh htouched)).2 (hfresh q htouched)
    · rw [hrow.same htouched]

/-- A stored server over which some traffic has gone. -/
def used : Table :=
  (ProfileManager.createProfile Table.empty { tokyo.toConnection.toProfile with tx := 1024 }).1

/-- Delivering the same server again resets its counter. -/
theorem used_not_framed :
    ∃ t', syncFromData used [tokyo.toConnection] = some t' ∧
      (used.get 1).map Profile.tx = some 1024 ∧ (t'.get 1).map Profile.tx = some 0 ∧
      ¬ Framed used t' := by
  refine ⟨_, rfl, by decide, by decide, ?_⟩
  intro hframed
  rcases hframed _ (List.mem_singleton.2 rfl) with ⟨q', hq', -, hsame⟩
  rw [List.mem_singleton.1 hq'] at hsame
  exact absurd (congrArg Profile.tx hsame) (by decide)

end Main
end SpinVpn
