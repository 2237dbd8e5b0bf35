import Mathlib.Data.List.Basic

/-!
# Profile — the stored server record

`Profile` is the row type of the private database (`database/Profile.kt`).  Counters that wrap in
the source (`tx`, `rx`) are `Int64`; the other numbers are never near their bounds and are `Int`.
-/

namespace SpinVpn
namespace Database

inductive SubscriptionStatus
  | userConfigured
  | active
  | obsolete
  deriving DecidableEq, Repr

structure Profile where
  id : Int := 0
  name : Option String := some ""
  host : String := ""
  remotePort : Int := 0
  password : String := ""
  method : String := ""
  route : String := "all"
  remoteDns : String := "dns.google"
  proxyApps : Bool := false
  bypass : Bool := false
  udpdns : Bool := false
  ipv6 : Bool := false
  metered : Bool := false
  individual : String := ""
  plugin : Option String := none
  udpFallback : Option Int := none
  subscription : SubscriptionStatus := .userConfigured
  tx : Int64 := 0
  rx : Int64 := 0
  userOrder : Int := 0
  dirty : Bool := false
  deriving DecidableEq, Repr

/-- `String?.isNullOrEmpty()` -/
def isNullOrEmpty : Option String → Bool
  | none => true
  | some s => s == ""

namespace Profile

def formattedAddress (p : Profile) : String :=
  if p.host.toList.contains ':' then "[" ++ p.host ++ "]:" ++ toString p.remotePort
  else p.host ++ ":" ++ toString p.remotePort

def formattedName (p : Profile) : String :=
  match p.name with
  | none => p.formattedAddress
  | some name => if name == "" then p.formattedAddress else name

/-- Returns the argument profile with this profile's feature settings written over it. -/
def copyFeatureSettingsTo (feature profile : Profile) : Profile :=
  { profile with
    route := feature.route
    ipv6 := feature.ipv6
    metered := feature.metered
    proxyApps := feature.proxyApps
    bypass := feature.bypass
    individual := feature.individual
    udpdns := feature.udpdns }

/-- What the database keeps of a record: `dirty` is not a column. -/
def stored (p : Profile) : Profile :=
  { p with dirty := false }

@[simp] theorem stored_id (p : Profile) : p.stored.id = p.id := rfl

end Profile

end Database
end SpinVpn
