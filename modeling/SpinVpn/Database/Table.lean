import Mathlib.Data.List.Basic
import Mathlib.Data.List.Pairwise
import SpinVpn.Lib.Keyed
import SpinVpn.Database.Profile

/-!
# Table — the `Profile` table and `ProfileManager`

The table is the list of its rows in the order of their ids, which is the order in which
`SELECT *` returns them, together with the last id handed out (`AUTOINCREMENT` never reuses an
id).  Both facts are fields of the structure, so every table the model can build has them, and so
is that `dirty` is not a column.

A DAO method returns the changed table; `ProfileManager` functions are built from these.
-/

namespace SpinVpn
namespace Database

structure Table where
  rows : List Profile
  lastId : Int
  ids_pos : ∀ p ∈ rows, 0 < p.id ∧ p.id ≤ lastId
  ids_lt : rows.Pairwise (fun p q => p.id < q.id)
  lastId_nonneg : 0 ≤ lastId
  not_dirty : ∀ p ∈ rows, p.dirty = false

namespace Table

@[ext] theorem ext {t t' : Table} (hrows : t.rows = t'.rows) (hlast : t.lastId = t'.lastId) :
    t = t' := by
  cases t
  cases t'
  simp_all

def empty : Table where
  rows := []
  lastId := 0
  ids_pos := by simp
  ids_lt := List.Pairwise.nil
  lastId_nonneg := Int.le_refl 0
  not_dirty := by simp

/-! ## DAO -/

def listAll (t : Table) : List Profile :=
  t.rows

def get (t : Table) (id : Int) : Option Profile :=
  t.rows.find? (fun p => p.id == id)

/-- `SELECT MAX(userOrder) + 1` -/
def nextOrder (t : Table) : Option Int :=
  (t.rows.map Profile.userOrder).max?.map (· + 1)

/-- `@Insert` of a value without an id; the new id is `lastId + 1`. -/
def create (t : Table) (value : Profile) : Table where
  rows := t.rows ++ [{ value.stored with id := t.lastId + 1 }]
  lastId := t.lastId + 1
  ids_pos := by
    intro p hp
    have hnonneg := t.lastId_nonneg
    rcases List.mem_append.1 hp with hold | hnew
    · have := t.ids_pos p hold
      omega
    · rw [List.mem_singleton] at hnew
      subst hnew
      dsimp only
      omega
  ids_lt := by
    refine List.pairwise_append.2 ⟨t.ids_lt, List.pairwise_singleton _ _, ?_⟩
    intro p hp q hq
    rw [List.mem_singleton] at hq
    subst hq
    have := t.ids_pos p hp
    dsimp only
    omega
  lastId_nonneg := by
    have := t.lastId_nonneg
    omega
  not_dirty := by
    intro p hp
    rcases List.mem_append.1 hp with hold | hnew
    · exact t.not_dirty p hold
    · rw [List.mem_singleton] at hnew
      subst hnew
      rfl

/-- The row that `@Update` leaves in place of `row`. -/
def overwrite (value row : Profile) : Profile :=
  if row.id = value.id then value.stored else row

@[simp] theorem overwrite_id (value row : Profile) : (overwrite value row).id = row.id := by
  unfold overwrite
  split
  · simp [*]
  · rfl

def update (t : Table) (value : Profile) : Table where
  rows := t.rows.map (overwrite value)
  lastId := t.lastId
  ids_pos := by
    intro p hp
    rcases List.mem_map.1 hp with ⟨q, hq, rfl⟩
    simpa using t.ids_pos q hq
  ids_lt := by
    refine List.pairwise_map.2 (t.ids_lt.imp ?_)
    intro p q hpq
    simpa using hpq
  lastId_nonneg := t.lastId_nonneg
  not_dirty := by
    intro p hp
    rcases List.mem_map.1 hp with ⟨q, hq, rfl⟩
    unfold overwrite
    split
    · rfl
    · exact t.not_dirty q hq

def delete (t : Table) (id : Int) : Table where
  rows := t.rows.filter (fun p => p.id != id)
  lastId := t.lastId
  ids_pos := fun p hp => t.ids_pos p (List.mem_filter.1 hp).1
  ids_lt := t.ids_lt.filter _
  lastId_nonneg := t.lastId_nonneg
  not_dirty := fun p hp => t.not_dirty p (List.mem_filter.1 hp).1

/-- The ids go on from where they were. -/
def deleteAll (t : Table) : Table where
  rows := []
  lastId := t.lastId
  ids_pos := by simp
  ids_lt := List.Pairwise.nil
  lastId_nonneg := t.lastId_nonneg
  not_dirty := by simp

/-! ## Rows by id -/

variable {t : Table} {p q : Profile} {id : Int}

theorem ids_nodup (t : Table) : (t.rows.map Profile.id).Nodup := by
  refine List.pairwise_map.2 (t.ids_lt.imp ?_)
  intro p q hlt heq
  omega

/-- Rows of one table with the same id are the same row. -/
theorem row_ext (hp : p ∈ t.rows) (hq : q ∈ t.rows) (hid : p.id = q.id) : p = q :=
  Keyed.ext_of_key t.ids_nodup hp hq hid

theorem get_eq_some_iff : t.get id = some p ↔ p ∈ t.rows ∧ p.id = id :=
  Keyed.find?_key_iff t.ids_nodup

/-- An update replaces one row and keeps the others. -/
theorem overwrite_eq {value : Profile} (hp : p ∈ t.rows) (hid : p.id = value.id)
    (hq : q ∈ t.rows) : overwrite value q = if q = p then value.stored else q := by
  by_cases hqp : q = p
  · rw [if_pos hqp, overwrite, if_pos (hqp ▸ hid)]
  · have hne : ¬ q.id = value.id := fun hqid => hqp (row_ext hq hp (hqid.trans hid.symm))
    rw [if_neg hqp, overwrite, if_neg hne]

end Table

/-! ## ProfileManager -/

namespace ProfileManager

/-- The profile object as `createProfile` leaves and returns it. -/
def numbered (t : Table) (profile : Profile) : Profile :=
  { profile with id := t.lastId + 1, userOrder := t.nextOrder.getD 0 }

def createProfile (t : Table) (profile : Profile) : Table × Profile :=
  (t.create (numbered t profile), numbered t profile)

/-- `check(update(profile) == 1)`: fails where no row has the id. -/
def updateProfile (t : Table) (profile : Profile) : Option Table :=
  if t.rows.any (fun p => p.id == profile.id) then some (t.update profile) else none

/-- `check(delete(id) == 1)` -/
def delProfile (t : Table) (id : Int) : Option Table :=
  if t.rows.any (fun p => p.id == id) then some (t.delete id) else none

theorem updateProfile_of_mem {t : Table} {p value : Profile} (hp : p ∈ t.rows)
    (hid : p.id = value.id) : updateProfile t value = some (t.update value) :=
  if_pos (List.any_eq_true.2 ⟨p, hp, by simp [hid]⟩)

theorem delProfile_of_mem {t : Table} {p : Profile} (hp : p ∈ t.rows) :
    delProfile t p.id = some (t.delete p.id) :=
  if_pos (List.any_eq_true.2 ⟨p, hp, by simp⟩)

def getProfile (t : Table) (id : Int) : Option Profile :=
  t.get id

def getAllProfiles (t : Table) : List Profile :=
  t.listAll

end ProfileManager

end Database
end SpinVpn
