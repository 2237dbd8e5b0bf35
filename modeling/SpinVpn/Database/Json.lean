import Mathlib.Data.List.Basic
import SpinVpn.Database.Table
import SpinVpn.Plugin.Options

/-!
# Json — reading profiles from JSON documents

The `JsonParser` of `database/Profile.kt`.  A document is first read into its entries, each a
profile with its optional UDP fallback (`process`); the entries are then handed to the caller's
`create` one by one, and at the end every entry with a fallback is linked to a profile of the
table (`finalize`).

Between the two the fallbacks wait in `fallbackMap`.  Its keys are profiles, compared by value:

* before its turn an entry is the parsed value, whose id is `0`;
* afterwards it is the object that `create` returned, whose id is that of a row.

The two never agree, so the model keeps them apart: `pending` by value, `linked` by reference.
-/

namespace SpinVpn
namespace Database

open Plugin

/-! ## Documents -/

/-- A parsed document.  A number carries its text and its `intValue()`. -/
inductive Json
  | null
  | bool (value : Bool)
  | number (literal : String) (intValue : Int)
  | string (value : String)
  | array (elements : List Json)
  | object (members : List (String × Json))

/-- What libraries decide: the iteration order of hash maps and the default configuration of the
installed plugins, and which strings `Integer.parseInt` reads. -/
structure Platform where
  hashOrder : HashOrder
  parseInt : String → Option Int
  defaultConfig : String → Option String

/-- A device without plugins. -/
def plainPlatform : Platform where
  hashOrder := .insertion
  parseInt := fun _ => none
  defaultConfig := fun _ => none

def optString : Option Json → Option String
  | some (.string s) => some s
  | some (.number literal _) => some literal
  | some (.bool b) => some (if b then "true" else "false")
  | _ => none

def optBoolean : Option Json → Option Bool
  | some (.bool b) => some b
  | _ => none

def optInt (P : Platform) : Option Json → Option Int
  | some (.number _ n) => some n
  | some (.string s) => P.parseInt s
  | _ => none

/-- `joinToString("\n")` -/
def joinLines (lines : List String) : String :=
  String.ofList (List.intercalate ['\n'] (lines.map String.toList))

/-! ## Entries -/

section Parse

variable (P : Platform) (feature : Option Profile)

/-- A string that is present and not empty. -/
def requiredString (name : String) (json : List (String × Json)) : Option String :=
  (optString (Keyed.get name json)).filter (fun s => s ≠ "")

def applyFeature (profile : Profile) : Profile :=
  match feature with
  | none => profile
  | some f => f.copyFeatureSettingsTo profile

/-- The part of `tryParse` that an entry and a fallback share.  The error is that of
`PluginOptions`. -/
def parseServer (json : List (String × Json)) : Except String (Option Profile) :=
  match requiredString "server" json,
      (optInt P (Keyed.get "server_port" json)).filter (fun port => 0 < port),
      requiredString "password" json, requiredString "method" json with
  | some host, some remotePort, some password, some method =>
      let profile := applyFeature feature
        { host := host, remotePort := remotePort, password := password, method := method }
      let name := optString (Keyed.get "remarks" json)
      let route := (optString (Keyed.get "route" json)).getD profile.route
      match requiredString "plugin" json with
      | none => .ok (some { profile with name := name, route := route })
      | some id =>
          match PluginOptions.ofIdAndOptions id (optString (Keyed.get "plugin_opts" json)) with
          | none => .error "No control characters allowed."
          | some o =>
              let plugin := o.toString P.hashOrder false
              .ok (some { profile with plugin := some plugin, name := name, route := route })
  | _, _, _, _ => .ok none

def readProxyApps (profile : Profile) (json : List (String × Json)) : Profile :=
  match Keyed.get "proxy_apps" json with
  | some (.object it) =>
      { profile with
        proxyApps := (optBoolean (Keyed.get "enabled" it)).getD profile.proxyApps
        bypass := (optBoolean (Keyed.get "bypass" it)).getD profile.bypass
        individual :=
          match Keyed.get "android_list" it with
          | some (.array list) => joinLines (list.filterMap (fun e => optString (some e)))
          | _ => profile.individual }
  | _ => profile

/-- An entry of a document: the profile, and its fallback if it has one. -/
abbrev Entry := Profile × Option Profile

def tryParse (json : List (String × Json)) : Except String (Option Entry) :=
  match parseServer P feature json with
  | .error e => .error e
  | .ok none => .ok none
  | .ok (some server) =>
      let profile := { server with
        remoteDns := (optString (Keyed.get "remote_dns" json)).getD server.remoteDns
        ipv6 := (optBoolean (Keyed.get "ipv6" json)).getD server.ipv6
        metered := (optBoolean (Keyed.get "metered" json)).getD server.metered }
      let profile := readProxyApps profile json
      let profile := { profile with
        udpdns := (optBoolean (Keyed.get "udpdns" json)).getD profile.udpdns }
      match Keyed.get "udp_fallback" json with
      | some (.object it) => (parseServer P feature it).map (fun fallback => some (profile, fallback))
      | _ => .ok (some (profile, none))

end Parse

section Process

variable (parse : List (String × Json) → Except String (Option Entry))

mutual

/-- The entries of a document in the order in which they are added. -/
def process : Json → Except String (List Entry)
  | .object members =>
      match parse members with
      | .error e => .error e
      | .ok (some entry) => .ok [entry]
      | .ok none => processMembers members
  | .array elements => processElements elements
  | _ => .ok []

def processElements : List Json → Except String (List Entry)
  | [] => .ok []
  | json :: rest =>
      match process json, processElements rest with
      | .ok entries, .ok entries' => .ok (entries ++ entries')
      | .error e, _ => .error e
      | .ok _, .error e => .error e

def processMembers : List (String × Json) → Except String (List Entry)
  | [] => .ok []
  | (_, json) :: rest =>
      match process json, processMembers rest with
      | .ok entries, .ok entries' => .ok (entries ++ entries')
      | .error e, _ => .error e
      | .ok _, .error e => .error e

end

end Process

/-! ## Creating and linking -/

def setFallback (id : Int) (o : Profile) : Profile :=
  { o with udpFallback := some id }

/-- What `parseJson` does to the caller's state: `create` returns a reference to a profile object,
and `link` is `profile.udpFallback = id; ProfileManager.updateProfile(profile)`. -/
structure Creator (σ ρ : Type) where
  create : σ → Profile → σ × ρ
  getAllProfiles : σ → List Profile
  idOf : σ → ρ → Int
  link : σ → ρ → Int → Option σ

/-- The fallbacks as `tryParse` has put them: an equal profile takes over the place of the first. -/
def fallbackMap (entries : List Entry) : List (Profile × Profile) :=
  entries.foldl
    (fun map entry =>
      match entry.2 with
      | none => map
      | some fallback => Keyed.put entry.1 fallback map) []

/-- The condition under which a stored profile serves as the fallback. -/
def serves (fallback it : Profile) : Bool :=
  fallback.host == it.host && fallback.remotePort == it.remotePort &&
    fallback.password == it.password && fallback.method == it.method && isNullOrEmpty it.plugin

section Import

variable {σ ρ : Type} [DecidableEq ρ] (C : Creator σ ρ)

/-- The loop of `parseJson` over the entries. -/
def createAll : σ → List (Profile × Profile) → List (ρ × Profile) → List Entry →
    σ × List (Profile × Profile) × List (ρ × Profile)
  | s, pending, linked, [] => (s, pending, linked)
  | s, pending, linked, (profile, _) :: entries =>
      let fallback := Keyed.get profile pending
      let created := C.create s profile
      let linked :=
        match fallback with
        | none => linked
        | some fallback => Keyed.put created.2 fallback linked
      createAll created.1 (Keyed.remove profile pending) linked entries

/-- `JsonParser.finalize`; the rows are read once, before the loop. -/
def finalize (rows : List Profile) : σ → List (ρ × Profile) → Option σ
  | s, [] => some s
  | s, (profile, fallback) :: linked =>
      match rows.find? (serves fallback) with
      | some row => (C.link s profile row.id).bind (fun s => finalize rows s linked)
      | none =>
          let created := C.create s fallback
          (C.link created.1 profile (C.idOf created.1 created.2)).bind
            (fun s => finalize rows s linked)

/-- `parseJson` after `process`.  A profile that were still pending has no row to update. -/
def importEntries (s : σ) (entries : List Entry) : Option σ :=
  match createAll C s (fallbackMap entries) [] entries with
  | (s, [], linked) => finalize C (C.getAllProfiles s) s linked
  | _ => none

end Import

end Database
end SpinVpn
