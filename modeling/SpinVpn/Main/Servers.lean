import Mathlib.Data.List.Basic
import Mathlib.Logic.Function.Basic
import SpinVpn.Database.Table
import SpinVpn.Main.Connection

/-!
# Servers — from the delivered document to the started profile

The app stores the servers of the delivered document as profiles (`SpinUtils.kt`,
`ShadowsockExt.kt`) and later finds the one to start by its host and port.  Three lists take part:

* the `serverList` that `deliverServerTransitions` stores,
* the `serverList` that the user chooses from, and
* the `smartList` that `BaseConnector.start` draws from when the smart entry is chosen.

Over the table stands its purpose, the `book`: the credentials kept for each address.  Storing a
connection updates the book at one address (`book_createOrUpdateRecord`), and `getDataId` reads
it (`starts_iff_book`).
-/

namespace SpinVpn
namespace Main

open Database

/-! ## The delivered document -/

structure SpinServer where
  ip : Option String := none
  port : Option Int := none
  password : Option String := none
  method : Option String := none
  city : Option String := none
  country : Option String := none
  deriving DecidableEq, Repr

/-- The lists may hold nulls: the parser does not check the nullability of elements. -/
structure SpinData where
  serverList : Option (List (Option SpinServer)) := none
  smartList : Option (List (Option SpinServer)) := none
  deriving DecidableEq, Repr

structure SpinVpnBean where
  data : SpinData
  deriving DecidableEq, Repr

/-- `String?.toString()` -/
def nullableToString (s : Option String) : String :=
  s.getD "null"

def SpinServer.toConnection (it : SpinServer) : MConnection where
  host := nullableToString it.ip
  smart := false
  port := it.port.getD 0
  method := nullableToString it.method
  password := nullableToString it.password
  city := nullableToString it.city
  country := nullableToString it.country

/-- The common body of the two getters; `none` where the list is missing, empty or holds a null. -/
def toConnections : Option (List (Option SpinServer)) → Option (List MConnection)
  | none => none
  | some list =>
      if list.isEmpty then none
      else list.mapM (fun it => it.map SpinServer.toConnection)

section Document

-- The JSON library's parser; nothing is assumed about it.
variable (toModelOrNull : String → Option SpinVpnBean)

def getDataFromTheServer (document : String) : Option (List MConnection) :=
  (toModelOrNull document).bind (fun spinVpnBean => toConnections spinVpnBean.data.serverList)

def getDataFastServerData (document : String) : Option (List MConnection) :=
  (toModelOrNull document).bind (fun spinVpnBean => toConnections spinVpnBean.data.smartList)

/-- `ConnectionRepository.listAll` -/
def listAll (document : String) : List MConnection :=
  (getDataFromTheServer toModelOrNull document).getD []

/-- `ConnectionRepository.listSmart` -/
def listSmart (document : String) : List MConnection :=
  (getDataFastServerData toModelOrNull document).getD []

/-- What `BaseConnector.start` may hand to `doStart` when `server` is chosen: the random draw from
the smart list may be any of its elements. -/
def startChoices (document : String) (server : MConnection) : List MConnection :=
  if server.smart then listSmart toModelOrNull document else [server]

/-- `c` is handed to `doStart` for some choice that the app offers. -/
def Handed (document : String) (c : MConnection) : Prop :=
  ∃ server ∈ SmartConnection :: listAll toModelOrNull document,
    c ∈ startChoices toModelOrNull document server

end Document

/-! ## Storing and finding profiles -/

def MConnection.toProfile (c : MConnection) : Profile where
  id := 0
  name := some c.name
  host := c.host
  remotePort := c.port
  password := c.password
  method := c.method

def sameAddress (profile it : Profile) : Bool :=
  it.host == profile.host && it.remotePort == profile.remotePort

/-- `return@forEach` only ends one round of the loop, so the last match stays. -/
def existed (t : Table) (profile : Profile) : Option Int :=
  (ProfileManager.getAllProfiles t).foldl
    (fun found it => if sameAddress profile it then some it.id else found) none

def createOrUpdateRecord (t : Table) (profile : Profile) : Option Table :=
  match existed t profile with
  | none => some (ProfileManager.createProfile t profile).1
  | some id => ProfileManager.updateProfile t { profile with id := id }

/-- Here `return` leaves the function: the first match counts. -/
def getDataId (t : Table) (profile : Profile) : Int :=
  match (ProfileManager.getAllProfiles t).find? (sameAddress profile) with
  | none => 0
  | some it => it.id

def syncFromData (t : Table) (data : List MConnection) : Option Table :=
  data.foldlM (fun t it => createOrUpdateRecord t it.toProfile) t

def deliverServerTransitions (toModelOrNull : String → Option SpinVpnBean) (document : String)
    (t : Table) : Option (Bool × Table) :=
  match getDataFromTheServer toModelOrNull document with
  | none => some (false, t)
  | some data => (syncFromData t data).map (fun t' => (true, t'))

/-- The tables that `syncFromData` alone builds. -/
inductive Synced : Table → Prop where
  | empty : Synced Table.empty
  | sync {t t' : Table} {data : List MConnection} :
      Synced t → syncFromData t data = some t' → Synced t'

/-! ## The book of a table -/

structure Credentials where
  password : String
  method : String
  deriving DecidableEq, Repr

def addressOf (p : Profile) : String × Int :=
  (p.host, p.remotePort)

def credentialsOf (p : Profile) : Credentials :=
  { password := p.password, method := p.method }

/-- The credentials stored for an address. -/
def book (t : Table) (address : String × Int) : Option Credentials :=
  (t.rows.find? (fun p => addressOf p == address)).map credentialsOf

def UniqueAddresses (t : Table) : Prop :=
  (t.rows.map addressOf).Nodup

theorem sameAddress_eq (profile it : Profile) :
    sameAddress profile it = (addressOf it == addressOf profile) := by
  rw [Bool.eq_iff_iff]
  simp [sameAddress, addressOf]

theorem book_eq_some {t : Table} (h : UniqueAddresses t) {address : String × Int}
    {c : Credentials} :
    book t address = some c ↔ ∃ p ∈ t.rows, addressOf p = address ∧ credentialsOf p = c := by
  have hkey : ∀ p, t.rows.find? (fun p => addressOf p == address) = some p ↔
      p ∈ t.rows ∧ addressOf p = address := fun p => Keyed.find?_key_iff h
  simp only [book, Option.map_eq_some_iff, hkey, and_assoc]

/-! ## Storing one connection -/

theorem foldl_found (P : Profile → Bool) (rows : List Profile) (found : Option Int) :
    rows.foldl (fun found it => if P it then some it.id else found) found =
      ((rows.reverse.find? P).map Profile.id).or found := by
  induction rows generalizing found with
  | nil => simp
  | cons p rows ih =>
      rw [List.foldl_cons, ih, List.reverse_cons, List.find?_append]
      cases rows.reverse.find? P with
      | some q => simp
      | none => by_cases hp : P p <;> simp [hp]

theorem existed_eq_none {t : Table} {profile : Profile} (h : existed t profile = none) :
    ∀ p ∈ t.rows, addressOf p ≠ addressOf profile := by
  intro p hp haddr
  have hnone : t.rows.reverse.find? (sameAddress profile) = none := by
    simpa [existed, foldl_found, ProfileManager.getAllProfiles, Table.listAll] using h
  have hdiff := List.find?_eq_none.1 hnone p (List.mem_reverse.2 hp)
  simp [sameAddress_eq, haddr] at hdiff

theorem existed_eq_some {t : Table} {profile : Profile} {id : Int}
    (h : existed t profile = some id) :
    ∃ p ∈ t.rows, addressOf p = addressOf profile ∧ p.id = id := by
  have hsome : ∃ p, t.rows.reverse.find? (sameAddress profile) = some p ∧ p.id = id := by
    simpa [existed, foldl_found, ProfileManager.getAllProfiles, Table.listAll] using h
  rcases hsome with ⟨p, hfind, hid⟩
  have haddr := List.find?_some hfind
  simp only [sameAddress_eq, beq_iff_eq] at haddr
  exact ⟨p, List.mem_reverse.1 (List.mem_of_find?_eq_some hfind), haddr, hid⟩

/-- A new address is added to the book. -/
theorem book_create {t : Table} {profile : Profile} (h : UniqueAddresses t)
    (hnew : ∀ p ∈ t.rows, addressOf p ≠ addressOf profile) :
    UniqueAddresses (ProfileManager.createProfile t profile).1 ∧
      book (ProfileManager.createProfile t profile).1 =
        Function.update (book t) (addressOf profile) (some (credentialsOf profile)) := by
  -- the new row keeps the address and the credentials it was made from
  set row : Profile := { (ProfileManager.numbered t profile).stored with id := t.lastId + 1 }
    with hrow
  have hrows : (ProfileManager.createProfile t profile).1.rows = t.rows ++ [row] := rfl
  have hrowAddr : addressOf row = addressOf profile := rfl
  have hrowCred : credentialsOf row = credentialsOf profile := rfl
  constructor
  · simp only [UniqueAddresses, hrows, List.map_append, List.map_cons, List.map_nil, hrowAddr]
    refine List.nodup_append.2 ⟨h, List.nodup_singleton _, ?_⟩
    simpa using hnew
  · funext address
    simp only [book, hrows, List.find?_append]
    by_cases haddr : address = addressOf profile
    · have hnone : t.rows.find? (fun p => addressOf p == addressOf profile) = none := by
        simpa using hnew
      subst haddr
      simp [hnone, hrowAddr, hrowCred]
    · have hmiss : ¬ addressOf profile = address := fun he => haddr he.symm
      simp [haddr, hmiss, hrowAddr, book]

/-- A known address has its credentials replaced in the book. -/
theorem book_update {t : Table} {profile q : Profile} (h : UniqueAddresses t) (hq : q ∈ t.rows)
    (haddr : addressOf q = addressOf profile) :
    UniqueAddresses (t.update { profile with id := q.id }) ∧
      book (t.update { profile with id := q.id }) =
        Function.update (book t) (addressOf profile) (some (credentialsOf profile)) := by
  set value : Profile := { profile with id := q.id }
  have hover : ∀ p ∈ t.rows, Table.overwrite value p = if p = q then value.stored else p :=
    fun p hp => Table.overwrite_eq hq rfl hp
  have hsame : ∀ p ∈ t.rows, addressOf (Table.overwrite value p) = addressOf p := by
    intro p hp
    by_cases hpq : p = q
    · rw [hover p hp, if_pos hpq, hpq, haddr]
      rfl
    · rw [hover p hp, if_neg hpq]
  have hunique : UniqueAddresses (t.update value) := by
    have hmap : t.rows.map (addressOf ∘ Table.overwrite value) = t.rows.map addressOf :=
      List.map_congr_left hsame
    simpa [UniqueAddresses, Table.update, List.map_map, hmap] using h
  refine ⟨hunique, ?_⟩
  funext address
  apply Option.ext
  intro c
  rw [book_eq_some hunique]
  by_cases hat : address = addressOf profile
  · subst hat
    rw [Function.update_self, Option.some.injEq]
    constructor
    · rintro ⟨p, hp, hpaddr, rfl⟩
      rcases List.mem_map.1 hp with ⟨r, hr, rfl⟩
      have hrq : r = q := Keyed.ext_of_key h hr hq ((hsame r hr).symm.trans (hpaddr.trans haddr.symm))
      simp only [hover r hr, if_pos hrq]
      rfl
    · rintro rfl
      refine ⟨Table.overwrite value q, List.mem_map_of_mem hq, (hsame q hq).trans haddr, ?_⟩
      simp only [hover q hq, if_true]
      rfl
  · rw [Function.update_of_ne hat, book_eq_some h]
    constructor
    · rintro ⟨p, hp, hpaddr, hcred⟩
      rcases List.mem_map.1 hp with ⟨r, hr, rfl⟩
      have hraddr : addressOf r = address := (hsame r hr).symm.trans hpaddr
      have hrq : r ≠ q := by
        rintro rfl
        exact hat (hraddr.symm.trans haddr)
      rw [hover r hr, if_neg hrq] at hcred
      exact ⟨r, hr, hraddr, hcred⟩
    · rintro ⟨r, hr, hraddr, hcred⟩
      have hrq : r ≠ q := by
        rintro rfl
        exact hat (hraddr.symm.trans haddr)
      refine ⟨Table.overwrite value r, List.mem_map_of_mem hr, (hsame r hr).trans hraddr, ?_⟩
      rw [hover r hr, if_neg hrq]
      exact hcred

/-- Storing a profile never fails and updates the book at its address. -/
theorem book_createOrUpdateRecord {t : Table} (h : UniqueAddresses t) (profile : Profile) :
    ∃ t', createOrUpdateRecord t profile = some t' ∧ UniqueAddresses t' ∧
      book t' = Function.update (book t) (addressOf profile) (some (credentialsOf profile)) := by
  cases hex : existed t profile with
  | none =>
      exact ⟨_, by simp [createOrUpdateRecord, hex], book_create h (existed_eq_none hex)⟩
  | some id =>
      rcases existed_eq_some hex with ⟨q, hq, haddr, rfl⟩
      refine ⟨t.update { profile with id := q.id }, ?_, book_update h hq haddr⟩
      rw [createOrUpdateRecord, hex]
      exact ProfileManager.updateProfile_of_mem hq rfl

/-! ## Storing a list -/

/-- The last element of the list with the given address. -/
def lastAt (data : List MConnection) (address : String × Int) : Option MConnection :=
  data.reverse.find? (fun d => addressOf d.toProfile == address)

theorem book_syncFromData {t : Table} (h : UniqueAddresses t) (data : List MConnection) :
    ∃ t', syncFromData t data = some t' ∧ UniqueAddresses t' ∧
      ∀ address, book t' address =
        ((lastAt data address).map (fun d => credentialsOf d.toProfile)).or (book t address) := by
  induction data generalizing t with
  | nil => exact ⟨t, rfl, h, fun address => by simp [lastAt]⟩
  | cons d data ih =>
      rcases book_createOrUpdateRecord h d.toProfile with ⟨t₁, hstep, hunique, hbook⟩
      rcases ih hunique with ⟨t', hsync, hunique', hbook'⟩
      refine ⟨t', by simpa [syncFromData, hstep] using hsync, hunique', ?_⟩
      intro address
      rw [hbook' address, hbook, lastAt, lastAt, List.reverse_cons, List.find?_append]
      cases data.reverse.find? (fun d => addressOf d.toProfile == address) with
      | some e => simp
      | none =>
          by_cases hat : addressOf d.toProfile = address
          · simp [hat]
          · have hat' : address ≠ addressOf d.toProfile := fun he => hat he.symm
            simp [hat, Function.update_of_ne hat']

theorem uniqueAddresses_of_synced {t : Table} (h : Synced t) : UniqueAddresses t := by
  induction h with
  | empty => simp [UniqueAddresses, Table.empty]
  | sync _ hsync ih =>
      rename_i data _
      rcases book_syncFromData ih data with ⟨t', hsync', hunique, _⟩
      rw [hsync] at hsync'
      cases hsync'
      exact hunique

/-! ## The started profile -/

/-- `getDataId` finds a stored profile with the address and the credentials of `c`. -/
def Starts (t : Table) (c : MConnection) : Prop :=
  ∃ p ∈ t.rows, p.id = getDataId t c.toProfile ∧ p.host = c.host ∧ p.remotePort = c.port ∧
    p.password = c.password ∧ p.method = c.method

theorem starts_iff_book {t : Table} (h : UniqueAddresses t) (c : MConnection) :
    Starts t c ↔ book t (addressOf c.toProfile) = some (credentialsOf c.toProfile) := by
  rw [book_eq_some h]
  constructor
  · rintro ⟨p, hp, _, hhost, hport, hpass, hmethod⟩
    exact ⟨p, hp, Prod.ext hhost hport, by simp [credentialsOf, MConnection.toProfile, *]⟩
  · rintro ⟨p, hp, haddr, hcred⟩
    have hfind : t.rows.find? (sameAddress c.toProfile) = some p := by
      have hsame : sameAddress c.toProfile = fun it => addressOf it == addressOf c.toProfile :=
        funext (sameAddress_eq c.toProfile)
      rw [hsame]
      exact (Keyed.find?_key_iff h).2 ⟨hp, haddr⟩
    have hid : getDataId t c.toProfile = p.id := by
      simp [getDataId, ProfileManager.getAllProfiles, Table.listAll, hfind]
    simp only [credentialsOf, Credentials.mk.injEq] at hcred
    exact ⟨p, hp, hid.symm, congrArg Prod.fst haddr, congrArg Prod.snd haddr, hcred.1, hcred.2⟩

/-- The last `serverList` entry with the address of `c` has its credentials; where there is none,
an earlier delivery has stored them. -/
def Kept (t : Table) (serverList : List MConnection) (c : MConnection) : Prop :=
  match lastAt serverList (c.host, c.port) with
  | some d => d.password = c.password ∧ d.method = c.method
  | none => ∃ p ∈ t.rows, p.host = c.host ∧ p.remotePort = c.port ∧ p.password = c.password ∧
      p.method = c.method

theorem kept_iff {t : Table} (h : UniqueAddresses t) (serverList : List MConnection)
    (c : MConnection) :
    Kept t serverList c ↔
      ((lastAt serverList (addressOf c.toProfile)).map (fun d => credentialsOf d.toProfile)).or
        (book t (addressOf c.toProfile)) = some (credentialsOf c.toProfile) := by
  have haddr : addressOf c.toProfile = (c.host, c.port) := rfl
  rw [Kept, haddr]
  cases lastAt serverList (c.host, c.port) with
  | some d => simp [credentialsOf, MConnection.toProfile]
  | none => simp [book_eq_some h, addressOf, credentialsOf, MConnection.toProfile, and_assoc]

/-- After a delivery, the service is started on the server that was chosen, whichever that is,
exactly if every server on offer is kept. -/
theorem starts_iff_kept (toModelOrNull : String → Option SpinVpnBean) (document : String)
    {t t' : Table} (hsynced : Synced t)
    (hdeliver : deliverServerTransitions toModelOrNull document t = some (true, t')) :
    (∀ c, Handed toModelOrNull document c → Starts t' c) ↔
      ∀ c, Handed toModelOrNull document c → Kept t (listAll toModelOrNull document) c := by
  have hunique := uniqueAddresses_of_synced hsynced
  cases hdata : getDataFromTheServer toModelOrNull document with
  | none => simp [deliverServerTransitions, hdata] at hdeliver
  | some data =>
      have hlist : listAll toModelOrNull document = data := by simp [listAll, hdata]
      rcases book_syncFromData hunique data with ⟨t₁, hsync, hunique', hbook⟩
      have ht' : t₁ = t' := by simpa [deliverServerTransitions, hdata, hsync] using hdeliver
      subst ht'
      refine forall_congr' (fun c => imp_congr_right (fun _ => ?_))
      rw [starts_iff_book hunique', hbook, hlist, kept_iff hunique]

def tokyo : SpinServer :=
  { ip := some "213.183.48.10", port := some 8116, password := some "secret",
    method := some "chacha20-ietf-poly1305", city := some "Tokyo", country := some "Japan" }

def paris : SpinServer :=
  { tokyo with ip := some "51.15.0.1", city := some "Paris", country := some "France" }

/-- A delivered document whose smart list is part of its server list. -/
def overlapping (_ : String) : Option SpinVpnBean :=
  some { data := { serverList := some [some tokyo, some paris], smartList := some [some paris] } }

theorem starts_iff_kept_overlapping :
    ∃ t', deliverServerTransitions overlapping "" Table.empty = some (true, t') ∧
      Starts t' tokyo.toConnection ∧ Starts t' paris.toConnection := by
  refine ⟨_, rfl, ?_⟩
  have hall := (starts_iff_kept overlapping "" Synced.empty rfl).2 ?_
  · refine ⟨hall _ ⟨tokyo.toConnection, by decide, by decide⟩, ?_⟩
    exact hall _ ⟨SmartConnection, by decide, by decide⟩
  · rintro c ⟨server, hserver, hc⟩
    have hserver' : server = SmartConnection ∨ server = tokyo.toConnection ∨
        server = paris.toConnection := by
      simpa [listAll, getDataFromTheServer, overlapping, toConnections] using hserver
    have hcases : c = tokyo.toConnection ∨ c = paris.toConnection := by
      rcases hserver' with rfl | rfl | rfl
      · exact Or.inr (List.mem_singleton.1 hc)
      · exact Or.inl (List.mem_singleton.1 hc)
      · exact Or.inr (List.mem_singleton.1 hc)
    rcases hcases with rfl | rfl
    · exact ⟨rfl, rfl⟩
    · exact ⟨rfl, rfl⟩

/-- A delivered document whose smart list names another server. -/
def disjoint (_ : String) : Option SpinVpnBean :=
  some { data := { serverList := some [some tokyo], smartList := some [some paris] } }

/-- The smart choice then starts the service on the profile id `0`, which no row has. -/
theorem disjoint_not_starts :
    ∃ t', deliverServerTransitions disjoint "" Table.empty = some (true, t') ∧
      Handed disjoint "" paris.toConnection ∧ getDataId t' paris.toConnection.toProfile = 0 ∧
      ¬ Starts t' paris.toConnection := by
  refine ⟨_, rfl, ⟨SmartConnection, by decide, by decide⟩, by decide, ?_⟩
  rintro ⟨p, hp, hid, _⟩
  have hpos := (Table.ids_pos _ p hp).1
  have hzero : p.id = 0 := hid
  omega

end Main
end SpinVpn
