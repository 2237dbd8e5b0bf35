import Mathlib.Data.List.Basic
import SpinVpn.Lib.Keyed
import SpinVpn.Utils.Commandline

/-!
# Options — plugin options and plugin configurations

`plugin/PluginOptions.kt` and `plugin/PluginConfiguration.kt`.  A `PluginOptions` is a hash map; the
model keeps its entries in the order of their insertion, and `HashOrder` is the order in which the
map hands them out when it is printed.

As in `Commandline`, the tokenizer's runs of ordinary characters are only ever appended, so the
parser reads one character at a time.
-/

namespace SpinVpn
namespace Plugin

open Utils

/-- The iteration order of a hash map filled with the given entries: some permutation of them. -/
structure HashOrder where
  entries : List (String × Option String) → List (String × Option String)
  perm : ∀ l, (entries l).Perm l

/-- The order of a linked map, as one instance. -/
def HashOrder.insertion : HashOrder where
  entries := fun l => l
  perm := List.Perm.refl

structure PluginOptions where
  id : String := ""
  entries : List (String × Option String) := []
  nodup : (entries.map Prod.fst).Nodup := by simp
  deriving DecidableEq

/-- `Char.isISOControl` -/
def isISOControl (c : Char) : Bool :=
  c.toNat ≤ 0x1f || (0x7f ≤ c.toNat && c.toNat ≤ 0x9f)

namespace PluginOptions

def empty : PluginOptions := {}

/-- `equals` of the source: a map does not know the order of its entries. -/
def Equals (o o' : PluginOptions) : Prop :=
  o.id = o'.id ∧ o.entries.Perm o'.entries

def put (o : PluginOptions) (key : String) (value : Option String) : PluginOptions where
  id := o.id
  entries := Keyed.put key value o.entries
  nodup := Keyed.nodup_put value o.nodup

def withId (o : PluginOptions) (id : String) : PluginOptions :=
  { o with id := id }

/-! ## Parsing -/

structure Parser where
  options : PluginOptions := {}
  parseId : Bool
  key : Option String := none
  current : List Char := []

namespace Parser

def append (s : Parser) (c : Char) : Parser :=
  { s with current := s.current ++ [c] }

/-- A `;` ends a key with its value, a bare key, or the id. -/
def endOption (s : Parser) : Parser :=
  let options :=
    match s.key with
    | some key => s.options.put key (some (String.ofList s.current))
    | none =>
        if s.current.isEmpty then s.options
        else if s.parseId then s.options.withId (String.ofList s.current)
        else s.options.put (String.ofList s.current) none
  { options := options, parseId := false, key := none, current := [] }

/-- The loop over the tokens; `none` where a backslash is the last one. -/
def run : Parser → List Char → Option PluginOptions
  | s, [] => some s.options
  | s, c :: rest =>
      if c = '\\' then
        match rest with
        | [] => none
        | d :: rest => run (s.append d) rest
      else if c = '=' then
        match s.key with
        | none => run { s with key := some (String.ofList s.current), current := [] } rest
        | some _ => run (s.append c) rest
      else if c = ';' then run s.endOption rest
      else run (s.append c) rest

end Parser

/-- The private constructor; `none` stands for its exceptions. -/
def parse (options : Option String) (parseId : Bool) : Option PluginOptions :=
  match options with
  | none => some {}
  | some options =>
      if options = "" then some {}
      else if options.toList.all (fun c => !isISOControl c) then
        Parser.run { parseId := parseId } (options.toList ++ [';'])
      else none

/-- `PluginOptions(options)` -/
def ofString (options : String) : Option PluginOptions :=
  parse (some options) true

/-- `PluginOptions(id, options)` -/
def ofIdAndOptions (id : String) (options : Option String) : Option PluginOptions :=
  (parse options false).map (fun o => o.withId id)

/-! ## Printing -/

def escapeChar (c : Char) : List Char :=
  if c = '\\' ∨ c = '=' ∨ c = ';' then ['\\', c] else [c]

/-- The private `append` of the source. -/
def escape (s : String) : List Char :=
  s.toList.flatMap escapeChar

def printEntry (e : String × Option String) : List Char :=
  escape e.1 ++
    match e.2 with
    | none => []
    | some value => '=' :: escape value

def printEntries (result : List Char) (entries : List (String × Option String)) : List Char :=
  entries.foldl
    (fun result e => result ++ (if result.isEmpty then [] else [';']) ++ printEntry e) result

/-- `toString(trimId)` -/
def toString (H : HashOrder) (o : PluginOptions) (trimId : Bool) : String :=
  if !trimId && o.id = "" then ""
  else
    String.ofList (printEntries (if trimId then [] else escape o.id) (H.entries o.entries))

end PluginOptions

/-! ## PluginConfiguration -/

structure PluginConfiguration where
  pluginsOptions : List (String × PluginOptions)
  selected : String
  deriving DecidableEq

namespace PluginConfiguration

/-- The loop over the parameters of a legacy `kcptun` line; an exception ends it and keeps what
was read. -/
def kcptunOptions : PluginOptions → List String → PluginOptions
  | opt, [] => opt
  | opt, option :: rest =>
      if option = "--nocomp" then kcptunOptions (opt.put "nocomp" none) rest
      else if "--".toList.isPrefixOf option.toList then
        match rest with
        | [] => opt
        | value :: rest =>
            kcptunOptions (opt.put (String.ofList (option.toList.drop 2)) (some value)) rest
      else opt

def isLegacy (line : String) : Bool :=
  "kcptun ".toList.isPrefixOf line.toList

def parseLine (line : String) : Option PluginOptions :=
  if isLegacy line then
    let opt := PluginOptions.withId {} "kcptun"
    match Commandline.translateCommandline line with
    | .error _ => some opt
    | .ok args => some (kcptunOptions opt (args.drop 1))
  else PluginOptions.ofString line

/-- The private constructor. -/
def ofPlugins (plugins : List PluginOptions) : PluginConfiguration where
  pluginsOptions :=
    (plugins.filter (fun o => o.id ≠ "")).foldl (fun m o => Keyed.put o.id o m) []
  selected := (plugins.head?.map PluginOptions.id).getD ""

/-- `String.split('\n')` -/
def lines (plugin : String) : List String :=
  (plugin.toList.splitOn '\n').map String.ofList

def ofString (plugin : String) : Option PluginConfiguration :=
  ((lines plugin).mapM parseLine).map ofPlugins

def getOptions (defaultConfig : String → Option String) (c : PluginConfiguration) (id : String) :
    Option PluginOptions :=
  if id = "" then some {}
  else
    match Keyed.get id c.pluginsOptions with
    | some o => some o
    | none => PluginOptions.ofIdAndOptions id (defaultConfig id)

end PluginConfiguration

end Plugin
end SpinVpn
