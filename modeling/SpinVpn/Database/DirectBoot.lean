import Mathlib.Data.List.Basic
import SpinVpn.Database.Table

/-!
# DirectBoot — the two places a profile is kept

The private database can only be opened once the user has unlocked the device.  Before that a
service started by direct boot works on the copy of its profile in device storage
(`utils/DirectBoot.kt`).  `Storage` holds both, and `stored` is the copy that counts.
-/

namespace SpinVpn
namespace Database

structure ExpandedProfile where
  main : Profile
  udpFallback : Option Profile
  deriving DecidableEq, Repr

def ExpandedProfile.toList (e : ExpandedProfile) : List Profile :=
  e.main :: e.udpFallback.toList

structure Storage where
  table : Table
  /-- `directBootProfile`, the file in device storage -/
  deviceProfile : Option ExpandedProfile
  directBootAware : Bool
  unlocked : Bool

namespace Storage

/-- `none` is the `IOException` of a database that cannot be opened. -/
def getProfile (s : Storage) (id : Int) : Option (Option Profile) :=
  if s.unlocked then some (ProfileManager.getProfile s.table id) else none

def expand (s : Storage) (profile : Profile) : Option ExpandedProfile :=
  match profile.udpFallback with
  | none => some ⟨profile, none⟩
  -- the fallback is looked up in the database, which fails while the device is locked
  | some id => (s.getProfile id).map (fun fallback => ⟨profile, fallback⟩)

def updateProfile (s : Storage) (profile : Profile) : Option Storage :=
  (ProfileManager.updateProfile s.table profile).map (fun table => { s with table := table })

/-- `DirectBoot.update(profile)` -/
def updateDevice (s : Storage) (profile : Profile) : Option Storage :=
  (s.expand profile).map (fun e => { s with deviceProfile := some e })

/-- `DirectBoot.getDeviceProfile()!!.toList().single { it.id == id }` -/
def singleDeviceProfile (s : Storage) (id : Int) : Option Profile :=
  match s.deviceProfile with
  | none => none
  | some e =>
      match e.toList.filter (fun it => it.id == id) with
      | [profile] => some profile
      -- `single` throws on none and on several
      | _ => none

/-- The profile as it is kept where the service can reach it. -/
def stored (s : Storage) (id : Int) : Option Profile :=
  if s.unlocked then s.table.get id
  else (s.deviceProfile.elim [] ExpandedProfile.toList).find? (fun it => it.id == id)

end Storage

end Database
end SpinVpn
