import Mathlib.Data.List.Basic
import SpinVpn.Database.Json
import SpinVpn.Plugin.RoundTrip

/-!
# Export — writing profiles to JSON

`toJson` and `serializeToJson`.  A profile is written with its fallback inside it: the fallback is
looked up among the profiles that are written along with it, and only its server fields go into the
document.

`exported` is what of a profile goes through a document: `tryParse` reads a written profile as the
pair of its `exported` value and of its fallback's (`tryParse_members`), unless its plugin options
hold a control character.
-/

namespace SpinVpn
namespace Database

open Plugin
open Plugin.PluginConfiguration (selectedOptions rejoined lines)

/-! ## Writing -/

/-- `toJson()` without a lookup table. -/
def serverJson (p : Profile) : List (String × Json) :=
  [("server", .string p.host),
    ("server_port", .number (toString p.remotePort) p.remotePort),
    ("password", .string p.password),
    ("method", .string p.method)]

section Write

variable (P : Platform)

def pluginJson (o : PluginOptions) : List (String × Json) :=
  if o.id = "" then []
  else [("plugin", .string o.id), ("plugin_opts", .string (o.toString P.hashOrder true))]

/-- A null value is not put. -/
def remarksJson (name : Option String) : List (String × Json) :=
  match name with
  | none => []
  | some name => [("remarks", .string name)]

def proxyAppsJson (p : Profile) : List (String × Json) :=
  ("enabled", .bool p.proxyApps) ::
    if p.proxyApps then
      [("bypass", .bool p.bypass), ("android_list", .array ((lines p.individual).map .string))]
    else []

def settingsJson (p : Profile) : List (String × Json) :=
  [("route", .string p.route),
    ("remote_dns", .string p.remoteDns),
    ("ipv6", .bool p.ipv6),
    ("metered", .bool p.metered),
    ("proxy_apps", .object (proxyAppsJson p)),
    ("udpdns", .bool p.udpdns)]

/-- The fallback that goes into the document: known, and without a plugin. -/
def writtenFallback (lookup : List (Int × Profile)) (p : Profile) : Option Profile :=
  match p.udpFallback with
  | none => none
  | some id => (Keyed.get id lookup).filter (fun fallback => isNullOrEmpty fallback.plugin)

def fallbackJson (fallback : Option Profile) : List (String × Json) :=
  match fallback with
  | none => []
  | some fallback => [("udp_fallback", .object (serverJson fallback))]

/-- The members of `toJson(profiles)`, given the options of the selected plugin. -/
def members (lookup : List (Int × Profile)) (p : Profile) (o : PluginOptions) :
    List (String × Json) :=
  serverJson p ++ pluginJson P o ++ remarksJson p.name ++ settingsJson p ++
    fallbackJson (writtenFallback lookup p)

/-- `none` where the plugin string cannot be parsed. -/
def toJson (lookup : List (Int × Profile)) (p : Profile) : Option Json :=
  (selectedOptions P.defaultConfig p.plugin).map (fun o => .object (members P lookup p o))

/-- The `LongSparseArray` of the profiles under their ids. -/
def lookupOf (ps : List Profile) : List (Int × Profile) :=
  ps.foldl (fun m p => Keyed.put p.id p m) []

def serializeToJson (ps : List Profile) : Option Json :=
  (ps.mapM (toJson P (lookupOf ps))).map .array

end Write

/-! ## What goes through a document -/

/-- The plugin string that a reader makes of the written options. -/
def exportedPlugin (P : Platform) (p : Profile) : Option String :=
  (selectedOptions P.defaultConfig p.plugin).bind (fun o =>
    if o.id = "" then none else rejoined P.hashOrder o)

def exported (P : Platform) (p : Profile) : Profile where
  name := p.name
  host := p.host
  remotePort := p.remotePort
  password := p.password
  method := p.method
  route := p.route
  remoteDns := p.remoteDns
  proxyApps := p.proxyApps
  bypass := p.proxyApps && p.bypass
  udpdns := p.udpdns
  ipv6 := p.ipv6
  metered := p.metered
  individual := if p.proxyApps then p.individual else ""
  plugin := exportedPlugin P p

/-- A fallback is read from its server fields alone. -/
def exportedFallback (p : Profile) : Profile where
  name := none
  host := p.host
  remotePort := p.remotePort
  password := p.password
  method := p.method

/-- The fields without which `tryParse` passes over an object. -/
structure HasServer (p : Profile) : Prop where
  host : p.host ≠ ""
  remotePort : 0 < p.remotePort
  password : p.password ≠ ""
  method : p.method ≠ ""

/-! ## Reading back -/

theorem joinLines_lines (s : String) : joinLines (lines s) = s := by
  have hmap : (lines s).map String.toList = s.toList.splitOn '\n' := by
    simp [lines, List.map_map, Function.comp_def]
  rw [joinLines, hmap, List.intercalate_splitOn, String.ofList_toList]

section Read

variable {P : Platform} {p : Profile} {o : PluginOptions} {lookup : List (Int × Profile)}

theorem requiredString_of_get {name s : String} {json : List (String × Json)}
    (hget : Keyed.get name json = some (.string s)) (hne : s ≠ "") :
    requiredString name json = some s := by
  simp [requiredString, hget, optString, Option.filter, hne]

theorem requiredString_of_get_none {name : String} {json : List (String × Json)}
    (hget : Keyed.get name json = none) : requiredString name json = none := by
  simp [requiredString, hget, optString]

/-- The server fields are read; what else the object says is the business of `rest`. -/
theorem parseServer_append (hp : HasServer p) (rest : List (String × Json)) :
    parseServer P none (serverJson p ++ rest) =
      let server := { exportedFallback p with
        name := optString (Keyed.get "remarks" rest)
        route := (optString (Keyed.get "route" rest)).getD "all" }
      match requiredString "plugin" rest with
      | none => .ok (some server)
      | some id =>
          match PluginOptions.ofIdAndOptions id (optString (Keyed.get "plugin_opts" rest)) with
          | none => .error "No control characters allowed."
          | some o => .ok (some { server with plugin := some (o.toString P.hashOrder false) }) := by
  have hhost : requiredString "server" (serverJson p ++ rest) = some p.host :=
    requiredString_of_get (by simp [serverJson, Keyed.get_cons]) hp.host
  have hport : (optInt P (Keyed.get "server_port" (serverJson p ++ rest))).filter
      (fun port => 0 < port) = some p.remotePort := by
    simp [serverJson, Keyed.get_cons, optInt, Option.filter, hp.remotePort]
  have hpassword : requiredString "password" (serverJson p ++ rest) = some p.password :=
    requiredString_of_get (by simp [serverJson, Keyed.get_cons]) hp.password
  have hmethod : requiredString "method" (serverJson p ++ rest) = some p.method :=
    requiredString_of_get (by simp [serverJson, Keyed.get_cons]) hp.method
  have hplugin : requiredString "plugin" (serverJson p ++ rest) = requiredString "plugin" rest := by
    simp [requiredString, serverJson, Keyed.get_cons]
  simp only [parseServer, hhost, hport, hpassword, hmethod, hplugin]
  simp only [serverJson, List.cons_append, List.nil_append, Keyed.get_cons, applyFeature]
  cases requiredString "plugin" rest with
  | none => rfl
  | some id =>
      cases hopts : PluginOptions.ofIdAndOptions id (optString (Keyed.get "plugin_opts" rest)) with
      | none => simp [hopts]
      | some o => simp [hopts, exportedFallback]

theorem parseServer_serverJson (hp : HasServer p) :
    parseServer P none (serverJson p) = .ok (some (exportedFallback p)) := by
  have hread := @parseServer_append P p hp []
  rw [List.append_nil, requiredString_of_get_none rfl] at hread
  exact hread

/-! ## A written profile -/

/-- The members after the server fields. -/
def otherMembers (P : Platform) (lookup : List (Int × Profile)) (p : Profile) (o : PluginOptions) :
    List (String × Json) :=
  pluginJson P o ++ remarksJson p.name ++ settingsJson p ++ fallbackJson (writtenFallback lookup p)

theorem members_eq : members P lookup p o = serverJson p ++ otherMembers P lookup p o := by
  simp [members, otherMembers]

theorem get_pluginJson_of_ne {name : String} (h : name ≠ "plugin") (h' : name ≠ "plugin_opts") :
    Keyed.get name (pluginJson P o) = none := by
  unfold pluginJson
  split
  · rfl
  · simp [Keyed.get, h.symm, h'.symm]

theorem get_remarksJson_of_ne {name : String} (h : name ≠ "remarks") :
    Keyed.get name (remarksJson p.name) = none := by
  unfold remarksJson
  split
  · rfl
  · simp [Keyed.get, h.symm]

theorem get_otherMembers {name : String} (h : name ≠ "plugin") (h' : name ≠ "plugin_opts") :
    Keyed.get name (otherMembers P lookup p o) =
      ((Keyed.get name (remarksJson p.name)).or (Keyed.get name (settingsJson p))).or
        (Keyed.get name (fallbackJson (writtenFallback lookup p))) := by
  simp only [otherMembers, Keyed.get_append, get_pluginJson_of_ne h h', Option.none_or]

theorem get_settings {name : String} {value : Json}
    (h : name ≠ "plugin" ∧ name ≠ "plugin_opts" ∧ name ≠ "remarks")
    (hget : Keyed.get name (settingsJson p) = some value) :
    Keyed.get name (otherMembers P lookup p o) = some value := by
  rw [get_otherMembers h.1 h.2.1, get_remarksJson_of_ne h.2.2, hget]
  rfl

theorem get_remarks : optString (Keyed.get "remarks" (otherMembers P lookup p o)) = p.name := by
  rw [get_otherMembers (by decide) (by decide)]
  cases p.name with
  | none =>
      have hsettings : Keyed.get "remarks" (settingsJson p) = none := by
        simp [settingsJson, Keyed.get]
      have hfallback : Keyed.get "remarks" (fallbackJson (writtenFallback lookup p)) = none := by
        cases writtenFallback lookup p <;> simp [fallbackJson, Keyed.get]
      rw [hsettings, hfallback]
      rfl
  | some name => rfl

theorem get_udpFallback : Keyed.get "udp_fallback" (members P lookup p o) =
    (writtenFallback lookup p).map (fun fallback => .object (serverJson fallback)) := by
  have hserver : Keyed.get "udp_fallback" (serverJson p) = none := by simp [serverJson, Keyed.get]
  have hsettings : Keyed.get "udp_fallback" (settingsJson p) = none := by
    simp [settingsJson, Keyed.get]
  rw [members_eq, Keyed.get_append, hserver, get_otherMembers (by decide) (by decide),
    get_remarksJson_of_ne (by decide), hsettings]
  cases writtenFallback lookup p <;> rfl

theorem parseServer_members (hp : HasServer p) :
    parseServer P none (members P lookup p o) =
      let server := { exportedFallback p with name := p.name, route := p.route }
      if o.id = "" then .ok (some server)
      else
        match rejoined P.hashOrder o with
        | none => .error "No control characters allowed."
        | some plugin => .ok (some { server with plugin := some plugin }) := by
  have hroute : optString (Keyed.get "route" (otherMembers P lookup p o)) = some p.route := by
    rw [get_settings (by decide) (by simp [settingsJson, Keyed.get]; rfl)]
    rfl
  have hrest : ∀ name, Keyed.get name (otherMembers P lookup p o) =
      (Keyed.get name (pluginJson P o)).or (Keyed.get name (remarksJson p.name ++ settingsJson p ++
        fallbackJson (writtenFallback lookup p))) := by
    intro name
    rw [← Keyed.get_append]
    simp [otherMembers]
  rw [members_eq, parseServer_append hp, get_remarks, hroute]
  by_cases hid : o.id = ""
  · have hnone : Keyed.get "plugin" (otherMembers P lookup p o) = none := by
      rw [hrest, pluginJson, if_pos hid]
      cases hname : p.name <;> cases hf : writtenFallback lookup p <;>
        simp [remarksJson, settingsJson, fallbackJson, Keyed.get]
    simp only [requiredString_of_get_none hnone, hid, if_true, Option.getD_some]
  · have hplugin : Keyed.get "plugin" (otherMembers P lookup p o) = some (.string o.id) := by
      rw [hrest, pluginJson, if_neg hid]
      simp [Keyed.get]
    have hopts : Keyed.get "plugin_opts" (otherMembers P lookup p o) =
        some (.string (o.toString P.hashOrder true)) := by
      rw [hrest, pluginJson, if_neg hid]
      simp [Keyed.get]
    simp only [requiredString_of_get hplugin hid, hopts, optString, hid, if_false, rejoined,
      Option.getD_some]
    cases PluginOptions.ofIdAndOptions o.id (some (o.toString P.hashOrder true)) <;> rfl

/-- The options can be written as an id and an options string and put together again. -/
def Rejoins (P : Platform) (o : PluginOptions) : Prop :=
  o.id = "" ∨ (rejoined P.hashOrder o).isSome = true

theorem parseServer_members_ok (hp : HasServer p)
    (ho : selectedOptions P.defaultConfig p.plugin = some o) (hjoin : Rejoins P o) :
    parseServer P none (members P lookup p o) = .ok (some { exportedFallback p with
      name := p.name, route := p.route, plugin := exportedPlugin P p }) := by
  have hexported : exportedPlugin P p = if o.id = "" then none else rejoined P.hashOrder o := by
    simp [exportedPlugin, ho]
  rw [parseServer_members hp, hexported]
  by_cases hid : o.id = ""
  · simp [hid, exportedFallback]
  · rcases Option.isSome_iff_exists.1 (hjoin.resolve_left hid) with ⟨plugin, hplugin⟩
    simp [hid, hplugin]

theorem readProxyApps_eq {profile : Profile} {json : List (String × Json)}
    (hget : Keyed.get "proxy_apps" json = some (.object (proxyAppsJson p)))
    (hbypass : profile.bypass = false) (hindividual : profile.individual = "") :
    readProxyApps profile json = { profile with
      proxyApps := p.proxyApps
      bypass := p.proxyApps && p.bypass
      individual := if p.proxyApps then p.individual else "" } := by
  simp only [readProxyApps, hget]
  cases happs : p.proxyApps with
  | false =>
      simp [proxyAppsJson, happs, Keyed.get, optBoolean, hbypass, hindividual]
  | true =>
      have hlist : ((lines p.individual).map Json.string).filterMap (fun e => optString (some e)) =
          lines p.individual := by
        simp [List.filterMap_map, optString]
      simp [proxyAppsJson, happs, Keyed.get, optBoolean, hlist, joinLines_lines]

/-- A written profile is read as its exported value, with its fallback's. -/
theorem tryParse_members (hp : HasServer p)
    (hfallback : ∀ f, writtenFallback lookup p = some f → HasServer f)
    (ho : selectedOptions P.defaultConfig p.plugin = some o) (hjoin : Rejoins P o) :
    tryParse P none (members P lookup p o) =
      .ok (some (exported P p, (writtenFallback lookup p).map exportedFallback)) := by
  have hserver : ∀ name, Keyed.get name (serverJson p) = none →
      Keyed.get name (members P lookup p o) = Keyed.get name (otherMembers P lookup p o) := by
    intro name hname
    rw [members_eq, Keyed.get_append, hname, Option.none_or]
  have hsetting : ∀ {name : String} {value : Json},
      name ≠ "plugin" ∧ name ≠ "plugin_opts" ∧ name ≠ "remarks" →
      Keyed.get name (serverJson p) = none → Keyed.get name (settingsJson p) = some value →
      Keyed.get name (members P lookup p o) = some value := by
    intro name value hne hname hget
    rw [hserver name hname, get_settings hne hget]
  have hdns : Keyed.get "remote_dns" (members P lookup p o) = some (.string p.remoteDns) :=
    hsetting (by decide) rfl rfl
  have hipv6 : Keyed.get "ipv6" (members P lookup p o) = some (.bool p.ipv6) :=
    hsetting (by decide) rfl rfl
  have hmetered : Keyed.get "metered" (members P lookup p o) = some (.bool p.metered) :=
    hsetting (by decide) rfl rfl
  have happs : Keyed.get "proxy_apps" (members P lookup p o) = some (.object (proxyAppsJson p)) :=
    hsetting (by decide) rfl rfl
  have hudpdns : Keyed.get "udpdns" (members P lookup p o) = some (.bool p.udpdns) :=
    hsetting (by decide) rfl rfl
  simp only [tryParse, parseServer_members_ok hp ho hjoin, hdns, hipv6, hmetered, hudpdns,
    get_udpFallback, optString, optBoolean, Option.getD_some]
  rw [readProxyApps_eq happs rfl rfl]
  cases hwritten : writtenFallback lookup p with
  | none => rfl
  | some f =>
      simp only [Option.map_some, parseServer_serverJson (hfallback f hwritten)]
      rfl

theorem tryParse_members_error (hp : HasServer p) (hjoin : ¬ Rejoins P o) :
    ∃ e, tryParse P none (members P lookup p o) = .error e := by
  rw [Rejoins, not_or, Bool.not_eq_true, Option.isSome_eq_false_iff, Option.isNone_iff_eq_none] at hjoin
  refine ⟨"No control characters allowed.", ?_⟩
  simp only [tryParse, parseServer_members hp, hjoin.1, hjoin.2, if_false]

end Read

/-! ## Documents -/

section Documents

variable {parse : List (String × Json) → Except String (Option Entry)}

theorem processElements_ok {α : Type} {f : α → List (String × Json)} {g : α → Entry} (l : List α) :
    (∀ x ∈ l, parse (f x) = .ok (some (g x))) →
      processElements parse (l.map (fun x => .object (f x))) = .ok (l.map g) := by
  induction l with
  | nil =>
      intro _
      rfl
  | cons x l ih =>
      intro h
      have hhead := h x List.mem_cons_self
      have htail := ih (fun y hy => h y (List.mem_cons_of_mem _ hy))
      simp [processElements, process, hhead, htail]

theorem processElements_error {α : Type} {f : α → List (String × Json)} (l : List α) :
    (∃ x ∈ l, ∃ e, parse (f x) = .error e) →
      ∃ e, processElements parse (l.map (fun x => .object (f x))) = .error e := by
  induction l with
  | nil => simp
  | cons x l ih =>
      rintro ⟨y, hy, e, he⟩
      simp only [List.map_cons, processElements]
      rcases List.mem_cons.1 hy with rfl | htail
      · exact ⟨e, by simp [process, he]⟩
      · rcases ih ⟨y, htail, e, he⟩ with ⟨e', he'⟩
        rw [he']
        cases process parse (.object (f x)) with
        | error e'' => exact ⟨e'', rfl⟩
        | ok _ => exact ⟨e', rfl⟩

end Documents

end Database
end SpinVpn
