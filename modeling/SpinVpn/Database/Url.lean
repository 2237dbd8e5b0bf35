import Mathlib.Data.List.DropRight
import SpinVpn.Database.Json
import SpinVpn.Net.Uri
import SpinVpn.Plugin.RoundTrip

/-!
# Url — profiles as `ss://` links

`toUri` and `findAllUrls` of `database/Profile.kt`.  A link is looked for in free text with a
regular expression, then read by both URI parsers, and its user info is taken apart by another
expression.  The expressions are written out as searches in the order in which a backtracking
matcher tries the alternatives; a match of `pattern` is given by its part after `ss://`.
-/

namespace SpinVpn
namespace Database

open Codec Net Plugin

/-! ## Regular expressions -/

/-- The characters of a link after `ss://`. -/
def isUrlChar (c : Char) : Bool :=
  c.isAlphanum || "-+&@#/%?=.~*'()|!:,;_[]".toList.contains c

/-- The characters that a link may end with. -/
def isLastUrlChar (c : Char) : Bool :=
  c.isAlphanum || "-+&@#/%=.~*'()|[]".toList.contains c

/-- `pattern` at the start of a text. -/
def matchUrl (l : List Char) : Option (List Char) :=
  match l with
  | s :: s' :: ':' :: '/' :: '/' :: rest =>
      let body := (rest.takeWhile isUrlChar).rdropWhile (fun c => !isLastUrlChar c)
      if "sS".toList.contains s && "sS".toList.contains s' && !body.isEmpty then some body else none
  | _ => none

/-- `pattern.findAll`; the number says how much of the text still belongs to the last match. -/
def findAll : Nat → List Char → List (List Char)
  | _, [] => []
  | skip + 1, _ :: l => findAll skip l
  | 0, c :: l =>
      match matchUrl (c :: l) with
      | none => findAll 0 l
      | some body => body :: findAll (body.length + 4) l

def isLineTerminator (c : Char) : Bool :=
  "\n\r\u0085\u2028\u2029".toList.contains c

/-- The texts of `.*` -/
def isLine (l : List Char) : Bool :=
  l.all (fun c => !isLineTerminator c)

/-- `userInfoPattern.matchEntire`: method and password. -/
def matchUserInfo (l : List Char) : Option (List Char × List Char) :=
  (splits ':' l).find? (fun s => !s.1.isEmpty && isLine s.1 && isLine s.2)

/-- The groups of `legacyPattern`. -/
structure LegacyMatch where
  method : List Char
  password : List Char
  host : List Char
  port : List Char

/-- `legacyPattern.matchEntire`: method and host as short, the password as long as possible. -/
def matchLegacy (l : List Char) : Option LegacyMatch :=
  (splits ':' l).findSome? (fun (method, rest) =>
    if !method.isEmpty && isLine method then
      (splits '@' rest).reverse.findSome? (fun (password, server) =>
        if isLine password then
          (splits ':' server).findSome? (fun (host, port) =>
            if !host.isEmpty && isLine host && !port.isEmpty && port.all Char.isDigit then
              some { method := method, password := password, host := host, port := port }
            else none)
        else none)
    else none)

/-! ## Reading -/

/-- `Key.plugin` -/
def pluginKey : List Char :=
  "plugin".toList

section Read

variable (F : Framework) (feature : Option Profile)

/-- A link without user info.  A port that is no `Int` makes `toInt` throw. -/
def parseLegacy (uri : List Char) : Option Profile :=
  (F.base64Decode (F.uriDecode false (AndroidUri.encodedHost uri))).bind (fun bytes =>
    (matchLegacy (F.stringOf bytes)).bind (fun m =>
      if Nat.ofDigitChars 10 m.port 0 ≤ JavaUri.maxInt then
        some { applyFeature feature {} with
          method := String.ofList (F.lowercase m.method)
          password := String.ofList m.password
          host := String.ofList m.host
          remotePort := Nat.ofDigitChars 10 m.port 0
          plugin := (AndroidUri.getQueryParameter F pluginKey uri).map String.ofList
          name := (AndroidUri.encodedFragment uri).map (fun f => String.ofList (F.uriDecode false f)) }
      else none))

/-- The host without the brackets of an IPv6 literal. -/
def unwrapHost (host : List Char) : List Char :=
  if host.head? = some '[' ∧ host.getLast? = some ']' then host.tail.dropLast else host

/-- A link with user info.  The first `none` is that of `IllegalArgumentException`, the last that of
`URISyntaxException`. -/
def parseSip002 (uri userInfo : List Char) : Option Profile :=
  (F.base64UrlDecode (F.uriDecode false userInfo)).bind (fun bytes =>
    (matchUserInfo (F.stringOf bytes)).bind (fun m =>
      (JavaUri.parse F uri).map (fun javaURI =>
        { applyFeature feature {} with
          method := String.ofList m.1
          password := String.ofList m.2
          host := String.ofList (unwrapHost (javaURI.1.getD []))
          remotePort := javaURI.2
          plugin := (AndroidUri.getQueryParameter F pluginKey uri).map String.ofList
          name := some (String.ofList
            (((AndroidUri.encodedFragment uri).map (F.uriDecode false)).getD [])) })))

def parseUrl (uri : List Char) : Option Profile :=
  match AndroidUri.encodedUserInfo uri with
  | none => parseLegacy F feature uri
  | some userInfo => parseSip002 F feature uri userInfo

def findAllUrls (data : String) : List Profile :=
  (findAll 0 data.toList).filterMap (parseUrl F feature)

end Read

/-! ## Writing -/

section Write

end Write

end Database
end SpinVpn
