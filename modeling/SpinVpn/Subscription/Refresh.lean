import Mathlib.Data.List.Basic
import SpinVpn.Database.Json

/-!
# Refresh — `createProfilesFromSubscription`

The refresh of `subscription/SubscriptionService.kt` works on three things at once:

* the table, where it deletes duplicates and creates rows as it goes,
* the profile objects it read at the start, which it changes in memory only, and
* `toUpdate`, the ids of the objects to be written back at the end.

`subscriptions` maps a key, the name and the formatted address of a profile, to the object of the
managed profile with that key.  No assignment of the refresh reaches a name, host or port, so the
key of an object never changes and the map is the list of its objects; the key is also how the
model refers to an object.
-/

namespace SpinVpn
namespace Subscription

open Database

abbrev Key := Option String × String

def keyOf (p : Profile) : Key :=
  (p.name, p.formattedAddress)

/-- The profile is Active or Obsolete. -/
def isManaged (p : Profile) : Bool :=
  p.subscription ≠ .userConfigured

structure Refresh where
  table : Table
  subscriptions : List Profile
  toUpdate : List Int
  /-- `DataStore.profileId` -/
  profileId : Int

/-! ## Preprocessing -/

/-- One round of the preprocessing loop; `none` where the `check` of `delProfile` fails. -/
def preprocessOne (currentId : Int) (s : Refresh) (profile : Profile) : Option Refresh :=
  if profile.subscription = .userConfigured then some s
  else if s.subscriptions.any (fun o => keyOf o == keyOf profile) then
    (ProfileManager.delProfile s.table profile.id).map (fun t =>
      { s with
        table := t
        profileId := if currentId = profile.id then 0 else s.profileId })
  else if profile.subscription = .active then
    some
      { s with
        subscriptions := s.subscriptions ++ [{ profile with subscription := .obsolete }]
        toUpdate := profile.id :: s.toUpdate }
  else some { s with subscriptions := s.subscriptions ++ [profile] }

def preprocess (currentId : Int) (t : Table) : Option Refresh :=
  (ProfileManager.getAllProfiles t).foldlM (preprocessOne currentId)
    { table := t, subscriptions := [], toUpdate := [], profileId := currentId }

/-! ## The create callback -/

/-- An object of the map is replaced by its new value. -/
def setObject (objects : List Profile) (key : Key) (value : Profile → Profile) : List Profile :=
  objects.map (fun o => if keyOf o = key then value o else o)

/-- What a document entry writes over the object of an Obsolete profile. -/
def promote (it oldProfile : Profile) : Profile :=
  { oldProfile with
    password := it.password
    method := it.method
    plugin := it.plugin
    udpFallback := it.udpFallback
    subscription := .active }

def createNew (s : Refresh) (it : Profile) : Refresh × Profile :=
  let created := ProfileManager.createProfile s.table { it with subscription := .active }
  ({ s with table := created.1 }, created.2)

def find (s : Refresh) (key : Key) : Option Profile :=
  s.subscriptions.find? (fun o => keyOf o == key)

def create (s : Refresh) (it : Profile) : Refresh × Key :=
  match find s (keyOf it) with
  | none =>
      let (s, created) := createNew s it
      ({ s with subscriptions := s.subscriptions ++ [created] }, keyOf it)
  | some oldProfile =>
      match oldProfile.subscription with
      | .active => (s, keyOf it)
      | .obsolete =>
          ({ s with
              subscriptions := setObject s.subscriptions (keyOf it) (promote it)
              toUpdate := oldProfile.id :: s.toUpdate }, keyOf it)
      | .userConfigured =>
          let (s, created) := createNew s it
          ({ s with subscriptions := setObject s.subscriptions (keyOf it) (fun _ => created) },
            keyOf it)

def link (s : Refresh) (key : Key) (id : Int) : Option Refresh :=
  match find s key with
  | none => none
  | some o =>
      (ProfileManager.updateProfile s.table (setFallback id o)).map
        (fun t =>
          { s with table := t, subscriptions := setObject s.subscriptions key (setFallback id) })

def creator : Creator Refresh Key where
  create := create
  getAllProfiles := fun s => ProfileManager.getAllProfiles s.table
  idOf := fun s key => ((find s key).map Profile.id).getD 0
  link := link

/-! ## Documents -/

/-- The entries a document gives; the text may fail to be one JSON value. -/
def entriesOf (P : Platform) (feature : Option Profile) (document : Except String Json) :
    Except String (List Entry) :=
  match document with
  | .error e => .error e
  | .ok json => process (tryParse P feature) json

/-- A document that cannot be read is logged and skipped; reading has no effect on the state. -/
def readable (P : Platform) (feature : Option Profile) (documents : List (Except String Json)) :
    List (List Entry) :=
  documents.filterMap (fun d => (entriesOf P feature d).toOption)

def importAll (s : Refresh) (documents : List (List Entry)) : Option Refresh :=
  documents.foldlM (importEntries creator) s

/-- The write-back of the objects in `toUpdate`. -/
def writeBackOne (s : Refresh) (t : Table) (profile : Profile) : Option Table :=
  if profile.id ∈ s.toUpdate then
    ProfileManager.updateProfile t
      ((s.subscriptions.find? (fun o => o.id == profile.id)).getD profile)
  else some t

def writeBack (s : Refresh) (profiles : List Profile) : Option Table :=
  profiles.foldlM (writeBackOne s) s.table

/-- The table and the selected profile id that a refresh leaves. -/
def createProfilesFromSubscription (P : Platform) (currentId : Int)
    (documents : List (Except String Json)) (t : Table) : Option (Table × Int) :=
  let feature := t.get currentId
  (preprocess currentId t).bind (fun s =>
    (importAll s (readable P feature documents)).bind (fun s =>
      (writeBack s t.rows).map (fun t => (t, s.profileId))))

end Subscription
end SpinVpn
