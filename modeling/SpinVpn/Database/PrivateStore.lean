import SpinVpn.Lib.Keyed
import SpinVpn.Lib.Utf16
import SpinVpn.Database.KeyValuePair
import SpinVpn.Database.Profile

/-!
# PrivateStore — a profile in the private data store

`Profile.serialize` writes the fields of a profile into the key-value table that the settings screen
edits, and `Profile.deserialize` reads them back.  The table is accessed through
`RoomPreferenceDataStore`, where writing null removes the key.

What is written is a list of keys, each with a pair or with nothing (`writes`).  The keys differ, so
that each of them is found as it was written, whatever the table held before (`get_writeAll`).

A string is stored in UTF-8, which has no place for a surrogate outside of a pair.  So it comes back as
it was just if it holds none (`deserialize_serialize`).
-/

namespace SpinVpn
namespace Database

open Codec Utils
open Utf16 (Units WellFormed)

/-! ## Strings -/

def units (s : String) : Units :=
  Utf16.encode s.toList

/-- `String.toByteArray()` puts a question mark for a surrogate that is in no pair. -/
def toByteArray (s : Units) : List UInt8 :=
  Utf8.bytes (Utf16.chars '?' s)

/-- The string that is read where this one was written. -/
def reread (s : Units) : String :=
  String.ofList (Utf16.chars '?' s)

theorem string_toByteArray (C : Charset) (s : Units) : C.string (toByteArray s) = reread s :=
  C.string_bytes _

theorem units_reread_iff (s : Units) : units (reread s) = s ↔ WellFormed s := by
  rw [units, reread, String.toList_ofList]
  exact Utf16.encode_chars_iff '?' s

theorem wellFormed_units (s : String) : WellFormed (units s) :=
  Utf16.wellFormed_encode _

theorem reread_units (s : String) : reread (units s) = s := by
  rw [reread, units, Utf16.chars_encode, String.ofList_toList]

/-- `Char.isWhitespace` -/
def isBlank (u : UInt16) : Bool :=
  isWhitespace (Char.ofNat u.toNat)

/-- A character is as blank as the code units it is encoded in: those of a pair never are. -/
theorem isBlank_of_mem {c : Char} {u : UInt16} (h : u ∈ Utf16.encodeChar c) :
    isBlank u = isWhitespace c := by
  have hc : c.toNat < 0xd800 ∨ 0xdfff < c.toNat ∧ c.toNat < 0x110000 := c.valid
  rw [Utf16.encodeChar] at h
  split at h
  · rename_i hplane
    rw [List.mem_singleton.1 h, isBlank, Utf16.toNat_ofNat hplane, Char.ofNat_toNat]
  · have hsurrogate : 0xd800 ≤ u.toNat ∧ u.toNat < 0xe000 := by
      simp only [List.mem_cons, List.not_mem_nil, or_false] at h
      rcases h with rfl | rfl
      · rw [Utf16.toNat_ofNat (by omega)]
        omega
      · rw [Utf16.toNat_ofNat (by omega)]
        omega
    have hunit : isBlank u = false := by
      rw [isBlank, Char.ofNat, dif_neg (by rw [Nat.isValidChar]; omega)]
      rfl
    have hchar : isWhitespace c = false := by
      simp only [isWhitespace, List.contains_cons, List.contains_nil, Bool.or_eq_false_iff,
        Bool.and_eq_false_iff, decide_eq_false_iff_not, beq_eq_false_iff_ne, and_true]
      omega
    rw [hunit, hchar]

theorem trim_reread {s : Units} (h : WellFormed s) (hhead : ∀ u ∈ s.head?, isBlank u = false)
    (hlast : ∀ u ∈ s.getLast?, isBlank u = false) : trim (reread s) = reread s := by
  have hs := (Utf16.encode_chars_iff '?' s).2 h
  apply trim_eq_of_ends
  · intro c hc
    rw [reread, String.toList_ofList] at hc
    obtain ⟨l, hl⟩ := List.head?_eq_some_iff.1 hc
    rw [hl, Utf16.encode, List.flatMap_cons] at hs
    cases hunits : Utf16.encodeChar c with
    | nil => exact absurd hunits (Utf16.encodeChar_ne_nil c)
    | cons u units =>
        rw [← isBlank_of_mem (hunits ▸ List.mem_cons_self)]
        apply hhead
        rw [← hs, hunits]
        rfl
  · intro c hc
    rw [reread, String.toList_ofList] at hc
    obtain ⟨l, hl⟩ := List.getLast?_eq_some_iff.1 hc
    rw [hl, Utf16.encode, List.flatMap_append, List.flatMap_singleton] at hs
    rcases List.eq_nil_or_concat' (Utf16.encodeChar c) with hunits | ⟨units, u, hunits⟩
    · exact absurd hunits (Utf16.encodeChar_ne_nil c)
    · rw [← isBlank_of_mem (c := c) (u := u) (by rw [hunits]; simp)]
      apply hlast
      rw [← hs, hunits, ← List.append_assoc, List.getLast?_concat]
      rfl

/-- A host, which is trimmed when it is read. -/
theorem units_trim_iff {s : Units} (hhead : ∀ u ∈ s.head?, isBlank u = false)
    (hlast : ∀ u ∈ s.getLast?, isBlank u = false) : units (trim (reread s)) = s ↔ WellFormed s := by
  constructor
  · intro h
    rw [← h]
    exact wellFormed_units _
  · intro h
    rw [trim_reread h hhead hlast]
    exact (units_reread_iff s).2 h

/-! ## RoomPreferenceDataStore -/

/-- The rows of a `KeyValuePair` table by their keys. -/
abbrev KvTable : Type :=
  List (String × KeyValuePair)

namespace KeyValuePair

/-- `KeyValuePair(key)` -/
def ofKey (key : String) : KeyValuePair where
  key := key
  valueType := typeUninitialized
  value := []

/-- `put(value: String)` -/
def putChars (kv : KeyValuePair) (value : Units) : KeyValuePair :=
  { kv with valueType := typeString, value := toByteArray value }

end KeyValuePair

namespace KvTable

section Access

variable (C : Charset) (store : KvTable) (key : String)

def getBoolean : Except Failure (Option Bool) :=
  match Keyed.get key store with
  | none => .ok none
  | some kv => kv.boolean

def getLong : Except Failure (Option (BitVec 64)) :=
  match Keyed.get key store with
  | none => .ok none
  | some kv => kv.long

def getString : Option String :=
  (Keyed.get key store).bind (fun kv => kv.string C)

def remove : KvTable :=
  Keyed.remove key store

def putBoolean (value : Bool) : KvTable :=
  Keyed.put key ((KeyValuePair.ofKey key).putBoolean value) store

def putLong : Option (BitVec 64) → KvTable
  | none => store.remove key
  | some value => Keyed.put key ((KeyValuePair.ofKey key).putLong value) store

def putString : Option Units → KvTable
  | none => store.remove key
  | some value => Keyed.put key ((KeyValuePair.ofKey key).putChars value) store

end Access

/-- A key with the pair to store, or without one where it is to be removed. -/
abbrev Write : Type :=
  String × Option KeyValuePair

def write (store : KvTable) : Write → KvTable
  | (key, none) => store.remove key
  | (key, some kv) => Keyed.put key kv store

def writeAll (store : KvTable) (ws : List Write) : KvTable :=
  ws.foldl write store

theorem get_write (store : KvTable) (w : Write) (key : String) :
    Keyed.get key (store.write w) = if w.1 = key then w.2 else Keyed.get key store := by
  rcases w with ⟨k, _ | kv⟩
  · exact Keyed.get_remove k key store
  · exact Keyed.get_put k key kv store

theorem get_writeAll_of_not_mem (ws : List Write) :
    ∀ (store : KvTable) {key : String}, key ∉ ws.map Prod.fst →
      Keyed.get key (store.writeAll ws) = Keyed.get key store := by
  induction ws with
  | nil =>
      intro store key _
      rfl
  | cons w ws ih =>
      intro store key h
      rcases not_or.1 (fun hmem => h (List.mem_cons.2 hmem)) with ⟨hw, hws⟩
      calc
        Keyed.get key (store.writeAll (w :: ws)) = Keyed.get key (store.write w) := ih _ hws
        _ = Keyed.get key store := by rw [get_write, if_neg (Ne.symm hw)]

/-- What is written under different keys is found under each of them. -/
theorem get_writeAll (ws : List Write) :
    ∀ store : KvTable, (ws.map Prod.fst).Nodup → ∀ w ∈ ws,
      Keyed.get w.1 (store.writeAll ws) = w.2 := by
  induction ws with
  | nil =>
      intro store _ w hw
      cases hw
  | cons w ws ih =>
      intro store hnodup v hv
      rw [List.map_cons, List.nodup_cons] at hnodup
      rcases List.mem_cons.1 hv with rfl | hv
      · calc
          Keyed.get v.1 (store.writeAll (v :: ws)) = Keyed.get v.1 (store.write v) :=
            get_writeAll_of_not_mem ws _ hnodup.1
          _ = v.2 := by rw [get_write, if_pos rfl]
      · exact ih _ hnodup.2 v hv

end KvTable

/-! ## Keys -/

namespace Key

def id : String := "profileId"
def name : String := "profileName"
def individual : String := "Proxyed"
def route : String := "route"
def proxyApps : String := "isProxyApps"
def bypass : String := "isBypassApps"
def udpdns : String := "isUdpDns"
def ipv6 : String := "isIpv6"
def metered : String := "metered"
def host : String := "proxy"
def password : String := "sitekey"
def method : String := "encMethod"
def remotePort : String := "remotePortNum"
def remoteDns : String := "remoteDns"
def plugin : String := "plugin"
def udpFallback : String := "udpFallback"
def dirty : String := "profileDirty"

end Key

/-! ## The profile -/

/-- A `Profile` whose strings are given by their code units, since not all of them are texts. -/
structure RawProfile where
  id : Int := 0
  name : Option Units := some []
  host : Units := []
  remotePort : Int := 0
  password : Units := []
  method : Units := []
  route : Units := units "all"
  remoteDns : Units := units "dns.google"
  proxyApps : Bool := false
  bypass : Bool := false
  udpdns : Bool := false
  ipv6 : Bool := false
  metered : Bool := false
  individual : Units := []
  plugin : Option Units := none
  udpFallback : Option Int := none
  subscription : SubscriptionStatus := .userConfigured
  tx : Int64 := 0
  rx : Int64 := 0
  userOrder : Int := 0
  dirty : Bool := false
  deriving DecidableEq

/-- A Kotlin `Long`. -/
def long (n : Int) : BitVec 64 :=
  BitVec.ofInt 64 n

def parsePort (str : Option String) (default min : Int) : Int :=
  let value := (str.bind toInt).getD default
  if value < min ∨ 65535 < value then default else value

inductive DeserializeFailure
  | illegalState
  | pair (failure : Failure)
  deriving DecidableEq, Repr

namespace RawProfile

def serialize (p : RawProfile) (store : KvTable) : KvTable :=
  let store := store.putLong Key.id (some (long p.id))
  let store := store.putString Key.name p.name
  let store := store.putString Key.host (some p.host)
  let store := store.putString Key.remotePort (some (units (toString p.remotePort)))
  let store := store.putString Key.password (some p.password)
  let store := store.putString Key.route (some p.route)
  let store := store.putString Key.remoteDns (some p.remoteDns)
  let store := store.putString Key.method (some p.method)
  let store := store.putBoolean Key.proxyApps p.proxyApps
  let store := store.putBoolean Key.bypass p.bypass
  let store := store.putBoolean Key.udpdns p.udpdns
  let store := store.putBoolean Key.ipv6 p.ipv6
  let store := store.putBoolean Key.metered p.metered
  let store := store.putString Key.individual (some p.individual)
  let store := store.putString Key.plugin (some (p.plugin.getD []))
  let store := store.putLong Key.udpFallback (p.udpFallback.map long)
  store.remove Key.dirty

/-- `getBoolean(key) ?: false` -/
def readBoolean (store : KvTable) (key : String) : Except DeserializeFailure Bool :=
  match store.getBoolean key with
  | .error e => .error (.pair e)
  | .ok value => .ok (value.getD false)

def readLong (store : KvTable) (key : String) : Except DeserializeFailure (Option Int) :=
  match store.getLong key with
  | .error e => .error (.pair e)
  | .ok value => .ok (value.map BitVec.toInt)

/-- `id == 0L || DataStore.editingId == id` -/
def isEditing (q : RawProfile) (store : KvTable) : Except DeserializeFailure Bool :=
  if q.id = 0 then .ok true
  else (readLong store Key.id).map (fun editingId => decide (editingId = some q.id))

/-- The assignments of `deserialize`. -/
def readFields (C : Charset) (q : RawProfile) (store : KvTable) :
    Except DeserializeFailure RawProfile := do
  let proxyApps ← readBoolean store Key.proxyApps
  let bypass ← readBoolean store Key.bypass
  let udpdns ← readBoolean store Key.udpdns
  let ipv6 ← readBoolean store Key.ipv6
  let metered ← readBoolean store Key.metered
  let udpFallback ← readLong store Key.udpFallback
  return { q with
    name := some (units ((store.getString C Key.name).getD ""))
    host := units (trim ((store.getString C Key.host).getD ""))
    remotePort := parsePort (store.getString C Key.remotePort) 8388 1
    password := units ((store.getString C Key.password).getD "")
    method := units ((store.getString C Key.method).getD "")
    route := units ((store.getString C Key.route).getD "")
    remoteDns := units ((store.getString C Key.remoteDns).getD "")
    proxyApps
    bypass
    udpdns
    ipv6
    metered
    individual := units ((store.getString C Key.individual).getD "")
    plugin := some (units ((store.getString C Key.plugin).getD ""))
    udpFallback }

def deserialize (C : Charset) (q : RawProfile) (store : KvTable) :
    Except DeserializeFailure (RawProfile × KvTable) := do
  let editing ← q.isEditing store
  if editing then
    let store := store.putLong Key.id none
    let profile ← readFields C q store
    return (profile, store)
  else .error .illegalState

/-- What `serialize` writes. -/
def writes (p : RawProfile) : List KvTable.Write :=
  let string (key : String) (value : Option Units) : KvTable.Write :=
    (key, value.map (KeyValuePair.ofKey key).putChars)
  let boolean (key : String) (value : Bool) : KvTable.Write :=
    (key, some ((KeyValuePair.ofKey key).putBoolean value))
  let long (key : String) (value : Option (BitVec 64)) : KvTable.Write :=
    (key, value.map (KeyValuePair.ofKey key).putLong)
  [long Key.id (some (Database.long p.id)),
    string Key.name p.name,
    string Key.host (some p.host),
    string Key.remotePort (some (units (toString p.remotePort))),
    string Key.password (some p.password),
    string Key.route (some p.route),
    string Key.remoteDns (some p.remoteDns),
    string Key.method (some p.method),
    boolean Key.proxyApps p.proxyApps,
    boolean Key.bypass p.bypass,
    boolean Key.udpdns p.udpdns,
    boolean Key.ipv6 p.ipv6,
    boolean Key.metered p.metered,
    string Key.individual (some p.individual),
    string Key.plugin (some (p.plugin.getD [])),
    long Key.udpFallback (p.udpFallback.map Database.long),
    (Key.dirty, none)]

theorem serialize_eq (p : RawProfile) (store : KvTable) :
    p.serialize store = store.writeAll p.writes := by
  have hname : ∀ store : KvTable, store.putString Key.name p.name =
      store.write (Key.name, p.name.map (KeyValuePair.ofKey Key.name).putChars) := by
    intro store
    cases p.name with
    | none => rfl
    | some name => rfl
  have hfallback : ∀ store : KvTable, store.putLong Key.udpFallback (p.udpFallback.map long) =
      store.write (Key.udpFallback,
        (p.udpFallback.map long).map (KeyValuePair.ofKey Key.udpFallback).putLong) := by
    intro store
    cases p.udpFallback with
    | none => rfl
    | some id => rfl
  simp only [serialize, hname, hfallback]
  rfl

theorem nodup_keys (p : RawProfile) : (p.writes.map Prod.fst).Nodup := by
  have hkeys : p.writes.map Prod.fst =
      [Key.id, Key.name, Key.host, Key.remotePort, Key.password, Key.route, Key.remoteDns, Key.method,
        Key.proxyApps, Key.bypass, Key.udpdns, Key.ipv6, Key.metered, Key.individual, Key.plugin,
        Key.udpFallback, Key.dirty] := rfl
  rw [hkeys]
  decide +kernel

end RawProfile

/-! ## Reading back -/

section Reading

variable {C : Charset} {store : KvTable} {key : String}

theorem getString_eq {value : Option Units}
    (h : Keyed.get key store = value.map (KeyValuePair.ofKey key).putChars) :
    store.getString C key = value.map reread := by
  rw [KvTable.getString, h]
  cases value with
  | none => rfl
  | some s =>
      have hstring : ((KeyValuePair.ofKey key).putChars s).string C = some (C.string (toByteArray s)) :=
        if_pos rfl
      rw [Option.map_some, Option.bind_some, hstring, string_toByteArray, Option.map_some]

theorem readBoolean_eq {value : Bool}
    (h : Keyed.get key store = some ((KeyValuePair.ofKey key).putBoolean value)) :
    RawProfile.readBoolean store key = .ok value := by
  rw [RawProfile.readBoolean, KvTable.getBoolean, h]
  cases value with
  | false => rfl
  | true => rfl

/-- The number fits its type, which has 64 bits. -/
def IsLong (n : Int) : Prop :=
  -9223372036854775808 ≤ n ∧ n ≤ 9223372036854775807

instance (n : Int) : Decidable (IsLong n) :=
  inferInstanceAs (Decidable (_ ∧ _))

theorem toInt_long {n : Int} (h : IsLong n) : (long n).toInt = n := by
  rw [long, BitVec.toInt_ofInt]
  exact Int.bmod_eq_of_le (by have := h.1; omega) (by have := h.2; omega)

theorem readLong_eq {value : Option Int} (hvalue : ∀ n ∈ value, IsLong n)
    (h : Keyed.get key store = (value.map long).map (KeyValuePair.ofKey key).putLong) :
    RawProfile.readLong store key = .ok value := by
  rw [RawProfile.readLong, KvTable.getLong, h]
  cases value with
  | none => rfl
  | some n =>
      have hbuffer : Buffer.getLong (Buffer.putLong (long n)) = .ok (long n, []) := by
        have halone := Buffer.getLong_putLong (long n) []
        rwa [List.append_nil] at halone
      have hlong : ((KeyValuePair.ofKey key).putLong (long n)).long = .ok (some (long n)) := by
        have htype : typeLong ≠ typeInt := by decide
        rw [KeyValuePair.long, KeyValuePair.putLong, if_neg htype, if_pos rfl, hbuffer]
        rfl
      simp only [Option.map_some, hlong, toInt_long (hvalue n rfl)]

end Reading

theorem parsePort_toString {port : Int} (hlow : 1 ≤ port) (hhigh : port ≤ 65535) (default : Int) :
    parsePort (some (toString port)) default 1 = port := by
  obtain ⟨n, rfl⟩ := Int.eq_ofNat_of_zero_le (show 0 ≤ port by omega)
  have hread : toInt (toString (n : Int)) = some (n : Int) := toInt_toString (by omega)
  have hrange : ¬ ((n : Int) < 1 ∨ 65535 < (n : Int)) := by omega
  rw [parsePort, Option.bind_some, hread, Option.getD_some, if_neg hrange]

namespace RawProfile

section Serialized

variable (p : RawProfile) (store : KvTable)

/-- The table that the fields are read from: the id is cleared before. -/
def serialized : KvTable :=
  (p.serialize store).putLong Key.id none

/-- Whatever was in the table, each key but the id holds what `serialize` wrote. -/
theorem get_serialized {w : KvTable.Write} (hw : w ∈ p.writes) (hid : Key.id ≠ w.1) :
    Keyed.get w.1 (p.serialized store) = w.2 := by
  calc
    Keyed.get w.1 (p.serialized store) = Keyed.get w.1 (p.serialize store) := by
      rw [serialized, KvTable.putLong, KvTable.remove, Keyed.get_remove, if_neg hid]
    _ = Keyed.get w.1 (store.writeAll p.writes) := by rw [serialize_eq]
    _ = w.2 := KvTable.get_writeAll p.writes store p.nodup_keys w hw

theorem getString_serialized (C : Charset) {key : String} {value : Option Units}
    (hw : (key, value.map (KeyValuePair.ofKey key).putChars) ∈ p.writes) (hid : Key.id ≠ key) :
    (p.serialized store).getString C key = value.map reread :=
  getString_eq (p.get_serialized store hw hid)

theorem readBoolean_serialized {key : String} {value : Bool}
    (hw : (key, some ((KeyValuePair.ofKey key).putBoolean value)) ∈ p.writes) (hid : Key.id ≠ key) :
    readBoolean (p.serialized store) key = .ok value :=
  readBoolean_eq (p.get_serialized store hw hid)

theorem isEditing_serialize {q : RawProfile} (hid : q.id = p.id) (hlong : IsLong p.id) :
    q.isEditing (p.serialize store) = .ok true := by
  have hread : readLong (p.serialize store) Key.id = .ok (some p.id) := by
    apply readLong_eq
    · intro n hn
      cases hn
      exact hlong
    · rw [serialize_eq]
      exact KvTable.get_writeAll p.writes store p.nodup_keys _ List.mem_cons_self
  rw [isEditing, hread, hid]
  split
  · rfl
  · exact congrArg Except.ok (decide_eq_true rfl)

end Serialized

/-- What comes back in general.  The fields that are not stored stay those of the profile that is read
into. -/
theorem deserialize_serialize_eq (C : Charset) (p q : RawProfile) (store : KvTable) (hid : q.id = p.id)
    (hlong : IsLong p.id) (hfallback : ∀ n ∈ p.udpFallback, IsLong n)
    (hlow : 1 ≤ p.remotePort) (hhigh : p.remotePort ≤ 65535) :
    (deserialize C q (p.serialize store)).map Prod.fst = .ok { p with
      name := some (units (reread (p.name.getD [])))
      host := units (trim (reread p.host))
      password := units (reread p.password)
      method := units (reread p.method)
      route := units (reread p.route)
      remoteDns := units (reread p.remoteDns)
      individual := units (reread p.individual)
      plugin := some (units (reread (p.plugin.getD [])))
      id := q.id
      tx := q.tx
      rx := q.rx
      userOrder := q.userOrder
      subscription := q.subscription
      dirty := q.dirty } := by
  -- each entry of `writes` in its turn, under a key of its own
  have hname : ((p.serialized store).getString C Key.name).getD "" = reread (p.name.getD []) := by
    rw [p.getString_serialized store C (List.mem_of_getElem? (i := 1) rfl) (by decide)]
    cases p.name with
    | none => rfl
    | some name => rfl
  have hhost : (p.serialized store).getString C Key.host = some (reread p.host) :=
    p.getString_serialized store C (List.mem_of_getElem? (i := 2) rfl) (by decide)
  have hport : (p.serialized store).getString C Key.remotePort =
      some (reread (units (toString p.remotePort))) :=
    p.getString_serialized store C (List.mem_of_getElem? (i := 3) rfl) (by decide)
  have hpassword : (p.serialized store).getString C Key.password = some (reread p.password) :=
    p.getString_serialized store C (List.mem_of_getElem? (i := 4) rfl) (by decide)
  have hroute : (p.serialized store).getString C Key.route = some (reread p.route) :=
    p.getString_serialized store C (List.mem_of_getElem? (i := 5) rfl) (by decide)
  have hdns : (p.serialized store).getString C Key.remoteDns = some (reread p.remoteDns) :=
    p.getString_serialized store C (List.mem_of_getElem? (i := 6) rfl) (by decide)
  have hmethod : (p.serialized store).getString C Key.method = some (reread p.method) :=
    p.getString_serialized store C (List.mem_of_getElem? (i := 7) rfl) (by decide)
  have hproxyApps := p.readBoolean_serialized store (List.mem_of_getElem? (i := 8) rfl) (by decide)
  have hbypass := p.readBoolean_serialized store (List.mem_of_getElem? (i := 9) rfl) (by decide)
  have hudpdns := p.readBoolean_serialized store (List.mem_of_getElem? (i := 10) rfl) (by decide)
  have hipv6 := p.readBoolean_serialized store (List.mem_of_getElem? (i := 11) rfl) (by decide)
  have hmetered := p.readBoolean_serialized store (List.mem_of_getElem? (i := 12) rfl) (by decide)
  have hindividual : (p.serialized store).getString C Key.individual = some (reread p.individual) :=
    p.getString_serialized store C (List.mem_of_getElem? (i := 13) rfl) (by decide)
  have hplugin : (p.serialized store).getString C Key.plugin = some (reread (p.plugin.getD [])) :=
    p.getString_serialized store C (List.mem_of_getElem? (i := 14) rfl) (by decide)
  have hudpFallback : readLong (p.serialized store) Key.udpFallback = .ok p.udpFallback := by
    have hid : Key.id ≠ Key.udpFallback := by decide
    exact readLong_eq hfallback (p.get_serialized store (List.mem_of_getElem? (i := 15) rfl) hid)
  have hediting := p.isEditing_serialize store hid hlong
  simp only [deserialize, hediting]
  change Except.map Prod.fst ((readFields C q (p.serialized store)).bind _) = _
  simp only [readFields, hproxyApps, hbypass, hudpdns, hipv6, hmetered, hudpFallback, hname, hhost,
    hport, hpassword, hroute, hdns, hmethod, hindividual, hplugin, Option.getD_some, reread_units,
    parsePort_toString hlow hhigh]
  rfl

/-- The strings that are stored, an absent one as an empty one. -/
def strings (p : RawProfile) : List Units :=
  [p.name.getD [], p.host, p.password, p.method, p.route, p.remoteDns, p.individual, p.plugin.getD []]

/-- The fields come back as they were, an absent name or plugin as an empty one, if the strings are
texts, and only then. -/
theorem deserialize_serialize (C : Charset) (p q : RawProfile) (store : KvTable) (hid : q.id = p.id)
    (hlong : IsLong p.id) (hfallback : ∀ n ∈ p.udpFallback, IsLong n)
    (hhead : ∀ u ∈ p.host.head?, isBlank u = false) (hlast : ∀ u ∈ p.host.getLast?, isBlank u = false)
    (hlow : 1 ≤ p.remotePort) (hhigh : p.remotePort ≤ 65535) :
    (deserialize C q (p.serialize store)).map Prod.fst = .ok { p with
        name := some (p.name.getD [])
        plugin := some (p.plugin.getD [])
        id := q.id
        tx := q.tx
        rx := q.rx
        userOrder := q.userOrder
        subscription := q.subscription
        dirty := q.dirty } ↔
      ∀ s ∈ p.strings, WellFormed s := by
  rw [deserialize_serialize_eq C p q store hid hlong hfallback hlow hhigh]
  simp only [Except.ok.injEq, RawProfile.mk.injEq, Option.some.injEq, true_and, and_true,
    units_reread_iff, units_trim_iff hhead hlast, strings, List.forall_mem_cons, List.not_mem_nil,
    false_imp_iff, implies_true]

/-! ## Texts -/

/-- The profile of the other modules, whose strings are texts. -/
def ofProfile (p : Profile) : RawProfile where
  id := p.id
  name := p.name.map units
  host := units p.host
  remotePort := p.remotePort
  password := units p.password
  method := units p.method
  route := units p.route
  remoteDns := units p.remoteDns
  proxyApps := p.proxyApps
  bypass := p.bypass
  udpdns := p.udpdns
  ipv6 := p.ipv6
  metered := p.metered
  individual := units p.individual
  plugin := p.plugin.map units
  udpFallback := p.udpFallback
  subscription := p.subscription
  tx := p.tx
  rx := p.rx
  userOrder := p.userOrder
  dirty := p.dirty

theorem wellFormed_ofProfile (p : Profile) : ∀ s ∈ (ofProfile p).strings, WellFormed s := by
  have habsent : ∀ o : Option String, WellFormed ((o.map units).getD []) := by
    intro o
    cases o with
    | none => exact Utf16.wellFormed_encode []
    | some s => exact wellFormed_units s
  simp only [strings, ofProfile, List.forall_mem_cons, List.not_mem_nil, false_imp_iff, implies_true,
    wellFormed_units, habsent, true_and]

def anonymous : Profile where
  id := 7
  name := none
  host := "1.2.3.4"
  remotePort := 443
  udpFallback := some 2

theorem isBlank_address : ∀ u ∈ units "1.2.3.4", isBlank u = false := by
  have hall : (units "1.2.3.4").all (fun u => !isBlank u) = true := by decide
  intro u hu
  simpa using List.all_eq_true.1 hall u hu

/-- The name that another profile left in the table is gone, and the target keeps its counters. -/
theorem deserialize_serialize_overStale :
    (deserialize KeyValuePair.utf8 { id := 7, tx := 5, rx := 6 }
      ((ofProfile anonymous).serialize
        [(Key.name, (KeyValuePair.ofKey Key.name).putChars (units "old"))])).map Prod.fst =
      .ok { ofProfile anonymous with name := some [], plugin := some [], tx := 5, rx := 6 } := by
  refine (deserialize_serialize KeyValuePair.utf8 (ofProfile anonymous) { id := 7, tx := 5, rx := 6 }
    [(Key.name, (KeyValuePair.ofKey Key.name).putChars (units "old"))] rfl (by decide) ?_ ?_ ?_
    (by decide) (by decide)).2 (wellFormed_ofProfile anonymous)
  · rintro n ⟨⟩
    decide
  · intro u hu
    exact isBlank_address u (List.mem_of_mem_head? hu)
  · intro u hu
    exact isBlank_address u (List.mem_of_mem_getLast? hu)

/-- Half of an emoji, as the escape of a JSON text may give it. -/
def halved : RawProfile where
  id := 7
  host := units "1.2.3.4"
  remotePort := 443
  password := [0xd83d]

/-- The password comes back as a question mark. -/
theorem deserialize_serialize_halved :
    (∀ u ∈ halved.host, isBlank u = false) ∧
      (deserialize KeyValuePair.utf8 { id := 7 } (halved.serialize [])).map
        (fun r => r.1.password) = .ok (units "?") ∧ halved.password ≠ units "?" := by
  have hread := deserialize_serialize_eq KeyValuePair.utf8 halved { id := 7 } [] rfl (by decide)
    (by rintro n ⟨⟩) (by decide) (by decide)
  refine ⟨isBlank_address, ?_, by decide⟩
  cases hresult : deserialize KeyValuePair.utf8 { id := 7 } (halved.serialize []) with
  | error e =>
      rw [hresult] at hread
      cases hread
  | ok r =>
      rw [hresult] at hread
      have hpassword := congrArg RawProfile.password (Except.ok.inj hread)
      have hmark : units (reread halved.password) = units "?" := by decide
      exact congrArg Except.ok (hpassword.trans hmark)

end RawProfile

end Database
end SpinVpn
