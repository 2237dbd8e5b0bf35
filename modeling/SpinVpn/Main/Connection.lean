import Mathlib.Data.List.Basic

/-!
# Connection — the servers the app offers

`MConnection` (`main/core/MConnection.kt`, `MConnectionExt.kt`) and the app's own
`ConnectState`.
-/

namespace SpinVpn
namespace Main

inductive ConnectState
  | connecting
  | connected
  | stopping
  | stopped
  deriving DecidableEq, Repr

structure MConnection where
  host : String := ""
  smart : Bool := false
  port : Int := 0
  method : String := ""
  password : String := ""
  city : String := ""
  country : String := ""
  deriving DecidableEq, Repr

def MConnection.name (c : MConnection) : String :=
  if c.smart then "Super Fast Servers" else c.country ++ " - " ++ c.city

def SmartConnection : MConnection :=
  { smart := true }

end Main
end SpinVpn
