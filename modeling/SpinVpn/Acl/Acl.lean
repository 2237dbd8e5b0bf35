import SpinVpn.Database.Url
import SpinVpn.Lib.OrderedSet
import SpinVpn.Lib.SortedList
import SpinVpn.Net.Subnet

/-!
# Acl — access control lists and their text

`acl/Acl.kt`.  A list is read line by line.  A line may import another list in its comment, open a
block or set the mode, or else be a rule of the open block: a subnet where it can be read as one, a
pattern of host names where not.

The parser reports what it finds to callbacks, which work on a state of their own.  Where it fails,
what they have done until then stays.
-/

namespace SpinVpn

open Net Utils
open Database (isLine)

namespace Acl

/-! ## Imported lists -/

/-- What the program uses of a `java.net.URL`. -/
structure URL where
  protocol : String
  host : String
  port : Int
  file : String
  externalForm : String
  deriving DecidableEq

/-- The textual form of an address that was read is that address again.  It is put together from the
parts of the text, so it is not empty, and on one line if the text is. -/
structure URL.Lawful (url : String → Option URL) : Prop where
  inverse : ∀ {text u}, url text = some u → url u.externalForm = some u
  nonempty : ∀ {text u}, url text = some u → u.externalForm ≠ ""
  line : ∀ {text u}, url text = some u → isLine text.toList = true →
    isLine u.externalForm.toList = true

/-- Host, port, file and protocol, in this order; strings are compared as `compareTo` does. -/
def URL.compare : URL → URL → Ordering :=
  compareLex (compareOn (fun u => utf16 u.host))
    (compareLex (compareOn (fun u => u.port))
      (compareLex (compareOn (fun u => utf16 u.file)) (compareOn (fun u => utf16 u.protocol))))

/-- `URLSorter.compare`, of which the sign is used. -/
def URLSorter.compare (o1 o2 : URL) : Int :=
  match URL.compare o1 o2 with
  | .lt => -1
  | .eq => 0
  | .gt => 1

theorem order_compare : SortedList.order URLSorter.compare = URL.compare := by
  funext o1 o2
  rw [SortedList.order, URLSorter.compare]
  cases URL.compare o1 o2 <;> rfl

instance : Std.TransCmp (SortedList.order URLSorter.compare) := by
  rw [order_compare]
  exact inferInstanceAs (Std.TransCmp (compareLex _ (compareLex _ (compareLex _ _))))

/-- `\s` -/
def isSpace (c : Char) : Bool :=
  " \t\n\u000b\u000c\r".toList.contains c

/-- `networkAclParser.matchEntire`: the blanks behind the last `>` are not part of the address, and
every `>` before it is. -/
def matchImport (s : String) : Option String :=
  if "IMPORT_URL".toList.isPrefixOf s.toList then
    -- `\s*<` can only be matched in one way, since `<` is no blank
    match (s.toList.drop 10).dropWhile isSpace with
    | '<' :: rest =>
        let body := rest.rdropWhile isSpace
        if body.getLast? = some '>' ∧ body.dropLast ≠ [] ∧ isLine body.dropLast = true then
          some (String.ofList body.dropLast)
        else none
    | _ => none
  else none

/-! ## The parser -/

/-- Where the rules of a block go. -/
inductive Block
  | bypass
  | proxy
  deriving DecidableEq, Repr

inductive Failure
  | malformedURL
  | illegalState (message : String)
  deriving DecidableEq, Repr

structure Callbacks (σ : Type) where
  bypassHostnames : String → σ → σ
  proxyHostnames : String → σ → σ
  urls : Option (URL → σ → σ)

structure Parser (σ : Type) where
  state : σ
  bypass : Bool
  bypassSubnets : List Subnet := []
  proxySubnets : List Subnet := []
  /-- `hostnames` and `subnets`, which are null together -/
  block : Option Block

namespace Parser

variable {σ : Type}

def start (state : σ) (defaultBypass : Bool) : Parser σ where
  state := state
  bypass := defaultBypass
  block := some (if defaultBypass then .proxy else .bypass)

section

variable (T : AddressText) (url : String → Option URL) (cb : Callbacks σ)

/-- The import in the comment of a line, and what stands before the comment. -/
def comment (s : Parser σ) (line : String) : Except (Failure × σ) (Parser σ × String) :=
  match cb.urls with
  -- without a callback for imports, a comment is not even cut off
  | none => .ok (s, line)
  | some add =>
      match matchImport ((split2 '#' line).2.getD "") with
      | none => .ok (s, (split2 '#' line).1)
      | some text =>
          match url text with
          | none => .error (.malformedURL, s.state)
          | some u => .ok ({ s with state := add u s.state }, (split2 '#' line).1)

/-- The lines in brackets; `none` for those that are not known. -/
def enter (s : Parser σ) (input : String) : Option (Parser σ) :=
  if input = "[outbound_block_list]" then some { s with block := none }
  else if input = "[black_list]" ∨ input = "[bypass_list]" then some { s with block := some .bypass }
  else if input = "[white_list]" ∨ input = "[proxy_list]" then some { s with block := some .proxy }
  else if input = "[reject_all]" ∨ input = "[bypass_all]" then some { s with bypass := true }
  else if input = "[accept_all]" ∨ input = "[proxy_all]" then some { s with bypass := false }
  else none

def addSubnet (b : Block) (s : Parser σ) (subnet : Subnet) : Parser σ :=
  match b with
  | .bypass => { s with bypassSubnets := s.bypassSubnets ++ [subnet] }
  | .proxy => { s with proxySubnets := s.proxySubnets ++ [subnet] }

def addHostname (b : Block) (s : Parser σ) (hostname : String) : Parser σ :=
  match b with
  | .bypass => { s with state := cb.bypassHostnames hostname s.state }
  | .proxy => { s with state := cb.proxyHostnames hostname s.state }

def addRule (b : Block) (s : Parser σ) (input : String) : Parser σ :=
  match Subnet.fromString T input with
  | none => s.addHostname cb b input
  | some subnet => s.addSubnet b subnet

/-- What is left of a line without its comment and the blanks around it. -/
def readInput (s : Parser σ) (input : String) : Except (Failure × σ) (Parser σ) :=
  if input.toList.head? = some '[' then
    match s.enter input with
    | none => .error (.illegalState ("Unrecognized block: " ++ input), s.state)
    | some s' => .ok s'
  else
    match s.block with
    -- the rules of `[outbound_block_list]` are skipped
    | none => .ok s
    | some b => .ok (if input = "" then s else s.addRule T cb b input)

def readLine (s : Parser σ) (line : String) : Except (Failure × σ) (Parser σ) :=
  (s.comment url cb line).bind (fun r => r.1.readInput T cb (trim r.2))

def run (s : Parser σ) (lines : List String) : Except (Failure × σ) (Parser σ) :=
  lines.foldlM (fun s line => s.readLine T url cb line) s

end

end Parser

/-- The subnets that are kept are those of the block that the mode makes an exception for. -/
def parse {σ : Type} (T : AddressText) (url : String → Option URL) (cb : Callbacks σ) (state : σ)
    (text : String) (defaultBypass : Bool) : Except (Failure × σ) (σ × Bool × List Subnet) :=
  ((Parser.start state defaultBypass).run T url cb (useLines text)).map (fun s =>
    (s.state, s.bypass, if s.bypass then s.proxySubnets else s.bypassSubnets))

end Acl

/-! ## Lists -/

/-- Host names, and subnets, that compare equal are the same, so that their lists are sets.  Of the
imports some may compare equal that differ in what `URLSorter` does not look at. -/
structure Acl where
  bypassHostnames : OrderedSet compareTo
  proxyHostnames : OrderedSet compareTo
  subnets : OrderedSet Subnet.compareTo
  urls : SortedList.Sorted Acl.URLSorter.compare
  bypass : Bool
  deriving DecidableEq

namespace Acl

def empty : Acl where
  bypassHostnames := .empty
  proxyHostnames := .empty
  subnets := .empty
  urls := .empty
  bypass := false

/-- `same` is `URL.equals`, which tells apart imports that compare equal.  What it makes of two hosts is
up to the platform. -/
def adding (same : URL → URL → Bool) : Callbacks Acl where
  bypassHostnames := fun h a => { a with bypassHostnames := a.bypassHostnames.add h }
  proxyHostnames := fun h a => { a with proxyHostnames := a.proxyHostnames.add h }
  urls := some (fun u a => { a with urls := a.urls.add same true u })

/-- The lists are cleared at once, the mode is set at the end. -/
def fromReader (T : AddressText) (url : String → Option URL) (same : URL → URL → Bool) (a : Acl)
    (text : String) (defaultBypass : Bool) : Except (Failure × Acl) Acl :=
  (parse T url (adding same) { Acl.empty with bypass := a.bypass } text defaultBypass).map (fun r =>
    { r.1 with bypass := r.2.1, subnets := r.1.subnets.addAll r.2.2 })

/-! ## Printing -/

section Printing

variable (T : AddressText)

def bypassList (a : Acl) : List String :=
  if a.bypass then a.bypassHostnames.items
  else a.subnets.items.map (Subnet.toString T) ++ a.bypassHostnames.items

def proxyList (a : Acl) : List String :=
  if a.bypass then a.subnets.items.map (Subnet.toString T) ++ a.proxyHostnames.items
  else a.proxyHostnames.items

def printBlock (header : String) (list : List String) : List Char :=
  if list = [] then []
  else header.toList ++ '\n' :: List.intercalate ['\n'] (list.map String.toList) ++ ['\n']

def printURL (u : URL) : List Char :=
  "#IMPORT_URL <".toList ++ u.externalForm.toList ++ ">\n".toList

def toString (a : Acl) : String :=
  String.ofList ((if a.bypass then "[bypass_all]\n".toList else "[proxy_all]\n".toList) ++
    printBlock "[bypass_list]" (a.bypassList T) ++ printBlock "[proxy_list]" (a.proxyList T) ++
    a.urls.items.flatMap printURL)

end Printing

end Acl
end SpinVpn
