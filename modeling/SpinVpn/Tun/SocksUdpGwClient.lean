import SpinVpn.Lib.Machine
import SpinVpn.Lib.Recency
import SpinVpn.Tun.UdpPacket

/-!
# SocksUdpGwClient — the sockets behind the datagrams of the apps

`badvpn/tun2socks/SocksUdpGwClient.c`, as it is compiled for Android.  Every address that an app
sends from gets a socket of its own, over which its datagrams go to the SOCKS server, with the
address they are for in front, or to the DNS gateway as they are.  When there are as many sockets as
there may be, the one that was used longest ago is freed.

The sockets that are open are those of the most recently used addresses (`udpGw_recent`), and what
comes in over a socket is for the address whose datagrams went out over it (`udpGw_isolated`).  Where
a socket sends to is settled by its first datagram, and what it sends by the kind of the present one
(`udpGw_addressed_iff`).  The space for a datagram does not count what is put in front of it
(`udpGw_fits_iff`).
-/

namespace SpinVpn
namespace Tun

open EventMachine Octets Recency

/-! ## Datagrams -/

/-- `struct socks_udp_header` with the address behind it -/
def socksUdpHeader : BAddr → List UInt8
  | .ipv4 ip port => [0, 0, 0, 1] ++ (octets 4 ip ++ octets 2 port)
  | .ipv6 ip port => [0, 0, 0, 4] ++ (octets 16 ip ++ octets 2 port)

/-- What `dgram_handler_received` finds in front of the data: every type but that of IPv6 is taken
for IPv4. -/
def readSocksUdpHeader (data : List UInt8) : Option (BAddr × List UInt8) :=
  if data.length < 4 then none
  else
    let rest := data.drop 4
    if byteAt data 2 ≠ 0 then none
    else if byteAt data 3 = 4 then
      if rest.length < 18 then none
      else some (.ipv6 (.ofNat 128 (field 16 rest 0)) (.ofNat 16 (field 2 rest 16)), rest.drop 18)
    else if rest.length < 6 then none
    else some (.ipv4 (.ofNat 32 (field 4 rest 0)) (.ofNat 16 (field 2 rest 4)), rest.drop 6)

/-- The datagram that `connection_send` writes. -/
def datagramOf (remoteAddr : BAddr) (isDns : Bool) (data : List UInt8) : List UInt8 :=
  if isDns then data else socksUdpHeader remoteAddr ++ data

/-- The octets in front of the data. -/
def headerLen : BAddr → Nat
  | .ipv4 _ _ => 10
  | .ipv6 _ _ => 22

theorem length_datagramOf (remoteAddr : BAddr) (isDns : Bool) (data : List UInt8) :
    (datagramOf remoteAddr isDns data).length =
      (if isDns then 0 else headerLen remoteAddr) + data.length := by
  cases isDns with
  | true => simp [datagramOf]
  | false =>
      cases remoteAddr <;> simp [datagramOf, socksUdpHeader, headerLen] <;> omega

/-- A datagram is of one kind only. -/
theorem datagramOf_inj {remoteAddr : BAddr} {data : List UInt8} {b b' : Bool} :
    datagramOf remoteAddr b data = datagramOf remoteAddr b' data ↔ b = b' := by
  constructor
  · intro h
    have hlen := congrArg List.length h
    have hpos : 0 < headerLen remoteAddr := by cases remoteAddr <;> simp [headerLen]
    rw [length_datagramOf, length_datagramOf] at hlen
    cases b <;> cases b' <;> simp at hlen ⊢ <;> omega
  · rintro rfl
    rfl

/-- What is put in front of the data is read back, and the data with it. -/
theorem readSocksUdpHeader_datagramOf (remoteAddr : BAddr) (data : List UInt8) :
    readSocksUdpHeader (datagramOf remoteAddr false data) = some (remoteAddr, data) := by
  cases remoteAddr with
  | ipv4 ip port =>
      have hrest : ((octets 4 ip ++ octets 2 port) ++ data).drop 6 = data :=
        List.drop_left' (by simp)
      have hlen : 6 ≤ 4 + (2 + data.length) := by omega
      rw [List.append_assoc] at hrest
      simp [readSocksUdpHeader, datagramOf, socksUdpHeader, byteAt, List.append_assoc, field_octets,
        field_octets_skip, hrest, hlen]
  | ipv6 ip port =>
      have hrest : ((octets 16 ip ++ octets 2 port) ++ data).drop 18 = data :=
        List.drop_left' (by simp)
      have hlen : 18 ≤ 16 + (2 + data.length) := by omega
      rw [List.append_assoc] at hrest
      simp [readSocksUdpHeader, datagramOf, socksUdpHeader, byteAt, List.append_assoc, field_octets,
        field_octets_skip, hrest, hlen]

/-! ## The client -/

/-- Where a socket sends to, as `BDatagram_SetSendAddrs` was told when it was opened. -/
inductive SendAddr where
  | dnsgw
  | socksServer
  deriving DecidableEq, Repr

/-- `SocksUdpGwClient_connection`; sockets are told apart by the order in which they were opened. -/
structure Connection where
  socket : Nat
  localAddr : BAddr
  remoteAddr : BAddr
  isDns : Bool
  sendAddr : SendAddr
  deriving DecidableEq, Repr

/-- A datagram in the buffer of a socket, and what it was written for. -/
structure Sent where
  socket : Nat
  sendAddr : SendAddr
  submitted : Submitted
  datagram : List UInt8
  deriving DecidableEq, Repr

/-- What was handed to `handler_received`, and the socket over which it came in. -/
structure Delivered where
  socket : Nat
  localAddr : BAddr
  remoteAddr : BAddr
  data : List UInt8
  deriving DecidableEq, Repr

structure SocksUdpGwClient where
  /-- `connections_list`, with the least recently used one first; `connections_tree` finds its
  members by their local address -/
  connections : List Connection := []
  numConnections : Nat := 0
  /-- the local addresses for which sockets were opened -/
  opened : List BAddr := []
  /-- the local addresses whose datagrams were sent, in order -/
  uses : List BAddr := []
  sent : List Sent := []
  delivered : List Delivered := []
  deriving DecidableEq, Repr

/-- `udp_mtu`, and `max_connections` with its limit. -/
structure UdpLimits where
  udpMtu : Nat
  maxConnections : Nat
  max_pos : 0 < maxConnections

namespace SocksUdpGwClient

def limit (l : UdpLimits) : Nat :=
  min l.maxConnections 65536

def findConnection (o : SocksUdpGwClient) (localAddr : BAddr) : Option Connection :=
  o.connections.find? (·.localAddr = localAddr)

def removeLruConnection (o : SocksUdpGwClient) : SocksUdpGwClient :=
  { o with connections := o.connections.tail, numConnections := o.numConnections - 1 }

/-- `connection_send`, when there is room in the buffer. -/
def connectionSend (o : SocksUdpGwClient) (con : Connection) (s : Submitted) : SocksUdpGwClient :=
  { o with
    uses := o.uses ++ [con.localAddr]
    sent := o.sent ++ [{
      socket := con.socket, sendAddr := con.sendAddr, submitted := s
      datagram := datagramOf con.remoteAddr con.isDns s.data }] }

/-- `connection_init`, and the job that sends the first datagram before anything else happens. -/
def connectionInit (o : SocksUdpGwClient) (s : Submitted) : SocksUdpGwClient :=
  let con : Connection := {
    socket := o.opened.length, localAddr := s.localAddr, remoteAddr := s.remoteAddr, isDns := s.isDns
    sendAddr := if s.isDns then .dnsgw else .socksServer }
  connectionSend { o with
    connections := o.connections ++ [con], numConnections := o.numConnections + 1
    opened := o.opened ++ [s.localAddr] } con s

def resetConnection (con : Connection) (s : Submitted) : Connection :=
  { con with localAddr := s.localAddr, remoteAddr := s.remoteAddr, isDns := s.isDns }

/-- A connection is changed where it is. -/
def put (o : SocksUdpGwClient) (con : Connection) : SocksUdpGwClient :=
  { o with connections := o.connections.map (fun k => if k.socket = con.socket then con else k) }

def moveToEnd (o : SocksUdpGwClient) (con : Connection) : SocksUdpGwClient :=
  { o with connections := o.connections.eraseP (·.localAddr = con.localAddr) ++ [con] }

/-- `initOk`: the socket can be opened; `room`: the buffer of the socket is not full. -/
def submitPacket (l : UdpLimits) (o : SocksUdpGwClient) (s : Submitted) (initOk room : Bool) :
    SocksUdpGwClient :=
  match o.findConnection s.localAddr with
  | none =>
      let o₁ := if o.numConnections = limit l then o.removeLruConnection else o
      if initOk then o₁.connectionInit s else o₁
  | some con =>
      let con₁ := resetConnection con s
      let o₁ := o.put con₁
      -- without room the packet is dropped
      if room then (o₁.connectionSend con₁ s).moveToEnd con₁ else o₁

def dgramHandlerReceived (l : UdpLimits) (o : SocksUdpGwClient) (con : Connection)
    (data : List UInt8) : SocksUdpGwClient :=
  match if con.isDns then some (con.remoteAddr, data) else readSocksUdpHeader data with
  | none => o
  | some (remoteAddr, payload) =>
      let con₁ := { con with remoteAddr := remoteAddr }
      let o₁ := o.put con₁
      if payload.length > l.udpMtu then o₁
      else
        { o₁ with delivered := o₁.delivered ++ [{
            socket := con₁.socket, localAddr := con₁.localAddr, remoteAddr := con₁.remoteAddr
            data := payload }] }

end SocksUdpGwClient

/-! ## Runs -/

inductive UdpEvent where
  | submit (s : Submitted) (initOk room : Bool)
  | received (socket : Nat) (data : List UInt8)
  deriving DecidableEq, Repr

/-- Only sockets that are open receive. -/
def udpGw (l : UdpLimits) : Machine SocksUdpGwClient UdpEvent where
  init := {}
  step o
    | .submit s initOk room => some (o.submitPacket l s initOk room)
    | .received socket data =>
        (o.connections.find? (·.socket = socket)).map (fun con => o.dgramHandlerReceived l con data)

/-! ## Who owns a socket -/

namespace SocksUdpGwClient

variable {l : UdpLimits} {o : SocksUdpGwClient}

structure Inv (l : UdpLimits) (o : SocksUdpGwClient) : Prop where
  count : o.numConnections = o.connections.length
  bound : o.connections.length ≤ limit l
  recent : Recent (o.connections.map (·.localAddr)) o.uses
  owner : ∀ con ∈ o.connections, o.opened[con.socket]? = some con.localAddr
  sent : ∀ e ∈ o.sent, o.opened[e.socket]? = some e.submitted.localAddr
  delivered : ∀ d ∈ o.delivered, o.opened[d.socket]? = some d.localAddr

theorem limit_pos (l : UdpLimits) : 0 < limit l := by
  have hmax := l.max_pos
  rw [limit]
  omega

theorem inv_init (l : UdpLimits) : Inv l {} where
  count := rfl
  bound := Nat.zero_le _
  recent := Recent.nil
  owner := nofun
  sent := nofun
  delivered := nofun

/-- The same socket is the same address. -/
theorem Inv.localAddr_eq (h : Inv l o) {con con' : Connection} (hcon : con ∈ o.connections)
    (hcon' : con' ∈ o.connections) (hsocket : con.socket = con'.socket) :
    con.localAddr = con'.localAddr := by
  have howner := h.owner con hcon
  rw [hsocket, h.owner con' hcon'] at howner
  exact (Option.some.inj howner).symm

theorem put_localAddrs (h : Inv l o) {con con₁ : Connection} (hcon : con ∈ o.connections)
    (hsocket : con₁.socket = con.socket) (haddr : con₁.localAddr = con.localAddr) :
    (o.put con₁).connections.map (·.localAddr) = o.connections.map (·.localAddr) := by
  simp only [put, List.map_map]
  apply List.map_congr_left
  intro k hk
  simp only [Function.comp_apply]
  split
  · rename_i hsame
    exact haddr.trans (h.localAddr_eq hk hcon (hsame.trans hsocket)).symm
  · rfl

theorem inv_put (h : Inv l o) {con con₁ : Connection} (hcon : con ∈ o.connections)
    (hsocket : con₁.socket = con.socket) (haddr : con₁.localAddr = con.localAddr) :
    Inv l (o.put con₁) where
  count := by simpa [put] using h.count
  bound := by simpa [put] using h.bound
  recent := by
    rw [put_localAddrs h hcon hsocket haddr]
    exact h.recent
  owner := by
    intro k hk
    simp only [put, List.mem_map] at hk
    obtain ⟨k₀, hk₀, rfl⟩ := hk
    split
    · change o.opened[con₁.socket]? = some con₁.localAddr
      rw [hsocket, haddr]
      exact h.owner con hcon
    · exact h.owner k₀ hk₀
  sent := h.sent
  delivered := h.delivered

theorem inv_removeLruConnection (h : Inv l o) : Inv l o.removeLruConnection where
  count := by simp [removeLruConnection, h.count]
  bound := by
    have hbound := h.bound
    simp only [removeLruConnection, List.length_tail]
    omega
  recent := by
    have htail : o.connections.tail.map (·.localAddr) = (o.connections.map (·.localAddr)).tail := by
      cases o.connections <;> rfl
    rw [removeLruConnection, htail]
    exact h.recent.tail
  owner := fun con hcon => h.owner con (List.mem_of_mem_tail hcon)
  sent := h.sent
  delivered := h.delivered

theorem getElem?_snoc {α : Type} {xs : List α} {i : Nat} {a x : α} (h : xs[i]? = some a) :
    (xs ++ [x])[i]? = some a := by
  rw [List.getElem?_append_left (List.getElem?_eq_some_iff.1 h).1, h]

/-- A new socket is the first one of its number. -/
theorem inv_connectionInit (h : Inv l o) (s : Submitted)
    (hnew : s.localAddr ∉ o.connections.map (·.localAddr)) (hroom : o.connections.length < limit l) :
    Inv l (o.connectionInit s) where
  count := by simp [connectionInit, connectionSend, h.count]
  bound := by
    simp only [connectionInit, connectionSend, List.length_append, List.length_singleton]
    omega
  recent := by
    have htouch := h.recent.touch s.localAddr
    rw [Recency.touch, List.erase_of_not_mem hnew] at htouch
    simpa [connectionInit, connectionSend] using htouch
  owner := by
    intro con hcon
    simp only [connectionInit, connectionSend, List.mem_append, List.mem_singleton] at hcon
    obtain hold | rfl := hcon
    · exact getElem?_snoc (h.owner con hold)
    · exact List.getElem?_concat_length
  sent := by
    intro e he
    simp only [connectionInit, connectionSend, List.mem_append, List.mem_singleton] at he
    obtain hold | rfl := he
    · exact getElem?_snoc (h.sent e hold)
    · exact List.getElem?_concat_length
  delivered := fun d hd => getElem?_snoc (h.delivered d hd)

theorem findConnection_none {a : BAddr} (h : o.findConnection a = none) :
    a ∉ o.connections.map (·.localAddr) := by
  intro hmem
  obtain ⟨con, hcon, haddr⟩ := List.mem_map.1 hmem
  have hnot := List.find?_eq_none.1 h con hcon
  exact hnot (by simpa using haddr)

theorem findConnection_some {a : BAddr} {con : Connection} (h : o.findConnection a = some con) :
    con ∈ o.connections ∧ con.localAddr = a :=
  ⟨List.mem_of_find?_eq_some h, by simpa using List.find?_some h⟩

theorem moveToEnd_localAddrs (o : SocksUdpGwClient) (con : Connection) :
    (o.moveToEnd con).connections.map (·.localAddr) =
      touch (o.connections.map (·.localAddr)) con.localAddr := by
  have herase : (o.connections.map (·.localAddr)).erase con.localAddr =
      (o.connections.eraseP (·.localAddr = con.localAddr)).map (·.localAddr) := by
    rw [List.erase_eq_eraseP', List.eraseP_map]
    rfl
  rw [moveToEnd, List.map_append, List.map_singleton, Recency.touch, herase]

theorem moveToEnd_length (o : SocksUdpGwClient) {con : Connection} (hcon : con ∈ o.connections) :
    (o.moveToEnd con).connections.length = o.connections.length := by
  have hlen := congrArg List.length (moveToEnd_localAddrs o con)
  rwa [List.length_map, length_touch_of_mem (List.mem_map_of_mem hcon), List.length_map] at hlen

theorem inv_moveToEnd (h : Inv l o) {con : Connection} (hcon : con ∈ o.connections)
    (s : Submitted) (haddr : s.localAddr = con.localAddr) :
    Inv l ((o.connectionSend con s).moveToEnd con) where
  count := h.count.trans (moveToEnd_length (o.connectionSend con s) hcon).symm
  bound := (Nat.le_of_eq (moveToEnd_length (o.connectionSend con s) hcon)).trans h.bound
  recent := by
    rw [moveToEnd_localAddrs]
    exact h.recent.touch con.localAddr
  owner := by
    intro k hk
    simp only [moveToEnd, connectionSend, List.mem_append, List.mem_singleton] at hk
    obtain hold | rfl := hk
    · exact h.owner k (List.mem_of_mem_eraseP hold)
    · exact h.owner k hcon
  sent := by
    intro e he
    simp only [moveToEnd, connectionSend, List.mem_append, List.mem_singleton] at he
    obtain hold | rfl := he
    · exact h.sent e hold
    · exact haddr ▸ h.owner con hcon
  delivered := h.delivered

/-- Before a new socket is opened there is room for it. -/
theorem inv_makeRoom (h : Inv l o) :
    Inv l (if o.numConnections = limit l then o.removeLruConnection else o) ∧
      (if o.numConnections = limit l then o.removeLruConnection else o).connections.length <
        limit l := by
  have hcount := h.count
  have hbound := h.bound
  have hpos := limit_pos l
  split
  · refine ⟨inv_removeLruConnection h, ?_⟩
    simp only [removeLruConnection, List.length_tail]
    omega
  · exact ⟨h, by omega⟩

theorem inv_submitPacket (h : Inv l o) (s : Submitted) (initOk room : Bool) :
    Inv l (o.submitPacket l s initOk room) := by
  rw [submitPacket]
  cases hfind : o.findConnection s.localAddr with
  | none =>
      dsimp only
      obtain ⟨hinv, hlt⟩ := inv_makeRoom h
      split
      · apply inv_connectionInit hinv s ?_ hlt
        have hnew := findConnection_none hfind
        split
        · intro hmem
          obtain ⟨con, hcon, haddr⟩ := List.mem_map.1 hmem
          exact hnew (List.mem_map.2 ⟨con, List.mem_of_mem_tail hcon, haddr⟩)
        · exact hnew
      · exact hinv
  | some con =>
      obtain ⟨hcon, haddr⟩ := findConnection_some hfind
      have hinv : Inv l (o.put (resetConnection con s)) := inv_put h hcon rfl haddr.symm
      dsimp only
      split
      · apply inv_moveToEnd hinv ?_ s rfl
        simp only [put, List.mem_map]
        exact ⟨con, hcon, if_pos rfl⟩
      · exact hinv

theorem inv_dgramHandlerReceived (h : Inv l o) {con : Connection} (hcon : con ∈ o.connections)
    (data : List UInt8) : Inv l (o.dgramHandlerReceived l con data) := by
  rw [dgramHandlerReceived]
  split
  · exact h
  · rename_i remoteAddr payload hread
    have hinv : Inv l (o.put { con with remoteAddr := remoteAddr }) := inv_put h hcon rfl rfl
    dsimp only
    split
    · exact hinv
    · refine ⟨hinv.count, hinv.bound, hinv.recent, hinv.owner, hinv.sent, ?_⟩
      intro d hd
      obtain hold | rfl := (List.mem_append.1 hd).imp id List.mem_singleton.1
      · exact hinv.delivered d hold
      · exact h.owner con hcon

/-! ## How many sockets are open -/

/-- All sockets that there may be, or one for each address that ever sent. -/
def Full (l : UdpLimits) (o : SocksUdpGwClient) : Prop :=
  o.connections.length = min (limit l) o.uses.dedup.length

theorem full_submitPacket (h : Inv l o) (hfull : Full l o) (s : Submitted) (room : Bool) :
    Full l (o.submitPacket l s true room) := by
  have hinv := inv_submitPacket h s true room
  have hcount := h.count
  have hle := hinv.recent.length_le
  rw [List.length_map] at hle
  rw [Full] at *
  cases hfind : o.findConnection s.localAddr with
  | none =>
      have hnew := findConnection_none hfind
      by_cases hlimit : o.numConnections = limit l
      · have hpos := limit_pos l
        have hlen : (o.submitPacket l s true room).connections.length = limit l := by
          simp [submitPacket, hfind, hlimit, connectionInit, connectionSend, removeLruConnection]
          omega
        omega
      · have hlen : (o.submitPacket l s true room).connections.length = o.connections.length + 1 := by
          simp [submitPacket, hfind, hlimit, connectionInit, connectionSend]
        have huses : (o.submitPacket l s true room).uses = o.uses ++ [s.localAddr] := by
          simp [submitPacket, hfind, hlimit, connectionInit, connectionSend]
        have hbound := h.bound
        have hall : o.connections.length = o.uses.dedup.length := by omega
        rw [hlen, huses, h.recent.length_dedup_of_not_mem (by rwa [List.length_map]) hnew]
        omega
  | some con =>
      obtain ⟨hcon, haddr⟩ := findConnection_some hfind
      cases room with
      | false =>
          simpa [submitPacket, hfind, put] using hfull
      | true =>
          have hmem : resetConnection con s ∈ (o.put (resetConnection con s)).connections := by
            simp only [put, List.mem_map]
            exact ⟨con, hcon, if_pos rfl⟩
          have hlen : (o.submitPacket l s true true).connections.length = o.connections.length := by
            simp only [submitPacket, hfind, if_true]
            have hmoved := moveToEnd_length
              ((o.put (resetConnection con s)).connectionSend (resetConnection con s) s) hmem
            rw [hmoved]
            simp [connectionSend, put]
          have huses : (o.submitPacket l s true true).uses = o.uses ++ [s.localAddr] := by
            simp [submitPacket, hfind, moveToEnd, connectionSend, put, resetConnection]
          have hold : s.localAddr ∈ o.connections.map (·.localAddr) :=
            List.mem_map.2 ⟨con, hcon, haddr⟩
          rw [hlen, huses, h.recent.length_dedup_of_mem hold, hfull]

theorem full_dgramHandlerReceived (hfull : Full l o) (con : Connection) (data : List UInt8) :
    Full l (o.dgramHandlerReceived l con data) := by
  rw [dgramHandlerReceived]
  split
  · exact hfull
  · dsimp only
    split
    · simpa [Full, put] using hfull
    · simpa [Full, put] using hfull

end SocksUdpGwClient

def InitOk : UdpEvent → Prop
  | .submit _ initOk _ => initOk = true
  | .received _ _ => True

theorem udpGw_step {l : UdpLimits} {o t : SocksUdpGwClient} {e : UdpEvent}
    (h : SocksUdpGwClient.Inv l o) (hstep : (udpGw l).step o e = some t) :
    SocksUdpGwClient.Inv l t := by
  cases e with
  | submit s initOk room =>
      cases hstep
      exact SocksUdpGwClient.inv_submitPacket h s initOk room
  | received socket data =>
      obtain ⟨con, hfind, rfl⟩ := Option.map_eq_some_iff.1 hstep
      exact SocksUdpGwClient.inv_dgramHandlerReceived h (List.mem_of_find?_eq_some hfind) data

theorem udpGw_inv {l : UdpLimits} {history : List (SocksUdpGwClient × UdpEvent)}
    {o : SocksUdpGwClient} (h : Run (udpGw l) history o) : SocksUdpGwClient.Inv l o := by
  have hkeep : ∀ o e t, SocksUdpGwClient.Inv l o → True → (udpGw l).step o e = some t →
      SocksUdpGwClient.Inv l t :=
    fun _ _ _ hinv _ hstep => udpGw_step hinv hstep
  exact h.invariant (SocksUdpGwClient.inv_init l) hkeep (fun _ _ => trivial)

/-- Room for one socket only. -/
def oneSocket : UdpLimits where
  udpMtu := 1472
  maxConnections := 1
  max_pos := Nat.one_pos

/-- One address asks the DNS gateway, another one takes over the socket and gets an answer. -/
def twoAddresses : List UdpEvent :=
  [.submit { localAddr := .ipv4 1 1000, remoteAddr := .ipv4 9 53, isDns := true, data := [1, 2] }
      true true,
    .submit { localAddr := .ipv4 1 2000, remoteAddr := .ipv4 9 443, isDns := false, data := [3] }
      true true,
    .received 1 [0, 0, 0, 1, 0, 0, 0, 9, 1, 187, 4]]

/-- The open sockets are those of the addresses that sent last, in the order in which they did, and
never more than allowed.  As long as sockets can be opened, they are as many as there may be, or one
for each address. -/
theorem udpGw_recent {l : UdpLimits} {history : List (SocksUdpGwClient × UdpEvent)}
    {o : SocksUdpGwClient} (h : Run (udpGw l) history o) :
    o.connections.map (·.localAddr) <:+ o.uses.dedup ∧ o.numConnections = o.connections.length ∧
      o.numConnections ≤ SocksUdpGwClient.limit l ∧
      ((∀ p ∈ history, InitOk p.2) →
        o.numConnections = min (SocksUdpGwClient.limit l) o.uses.dedup.length) := by
  have hinv := udpGw_inv h
  refine ⟨hinv.recent, hinv.count, hinv.count ▸ hinv.bound, fun hok => ?_⟩
  have hkeep : ∀ o e t, SocksUdpGwClient.Inv l o ∧ SocksUdpGwClient.Full l o → InitOk e →
      (udpGw l).step o e = some t → SocksUdpGwClient.Inv l t ∧ SocksUdpGwClient.Full l t := by
    intro o e t ho he hstep
    refine ⟨udpGw_step ho.1 hstep, ?_⟩
    cases e with
    | submit s initOk room =>
        cases hstep
        cases (show initOk = true from he)
        exact SocksUdpGwClient.full_submitPacket ho.1 ho.2 s room
    | received socket data =>
        obtain ⟨con, -, rfl⟩ := Option.map_eq_some_iff.1 hstep
        exact SocksUdpGwClient.full_dgramHandlerReceived ho.2 con data
  have hinit : SocksUdpGwClient.Full l {} := by simp [SocksUdpGwClient.Full]
  have hfull := (h.invariant (I := fun o => SocksUdpGwClient.Inv l o ∧ SocksUdpGwClient.Full l o)
    ⟨SocksUdpGwClient.inv_init l, hinit⟩ hkeep hok).2
  rw [hinv.count, hfull]

theorem udpGw_recent_twoAddresses :
    ∃ history o, (udpGw oneSocket).play twoAddresses = some (history, o) ∧
      o.connections.map (·.localAddr) <:+ o.uses.dedup :=
  ⟨_, _, rfl, (udpGw_recent (run_of_play (udpGw oneSocket) twoAddresses rfl)).1⟩

/-- What comes in over a socket is handed to the address whose datagrams went out over it, and open
sockets of different addresses are different. -/
theorem udpGw_isolated {l : UdpLimits} {history : List (SocksUdpGwClient × UdpEvent)}
    {o : SocksUdpGwClient} (h : Run (udpGw l) history o) :
    (∀ d ∈ o.delivered, ∀ e ∈ o.sent, d.socket = e.socket →
      d.localAddr = e.submitted.localAddr) ∧
    (∀ con ∈ o.connections, ∀ con' ∈ o.connections,
      con.socket = con'.socket ∨ con.localAddr = con'.localAddr → con = con') := by
  have hinv := udpGw_inv h
  constructor
  · intro d hd e he hsocket
    have howner := hinv.delivered d hd
    rw [hsocket, hinv.sent e he] at howner
    exact (Option.some.inj howner).symm
  · intro con hcon con' hcon' hsame
    have haddr := hsame.elim (hinv.localAddr_eq hcon hcon') id
    exact List.inj_on_of_nodup_map hinv.recent.nodup hcon hcon' haddr

theorem udpGw_isolated_twoAddresses :
    ∃ history o, (udpGw oneSocket).play twoAddresses = some (history, o) ∧
      ∀ d ∈ o.delivered, ∀ e ∈ o.sent, d.socket = e.socket → d.localAddr = e.submitted.localAddr :=
  ⟨_, _, rfl, (udpGw_isolated (run_of_play (udpGw oneSocket) twoAddresses rfl)).1⟩

/-! ## What is written -/

namespace SocksUdpGwClient

/-- The datagram that a step writes into the buffer of a socket. -/
def written (o : SocksUdpGwClient) : UdpEvent → Option Sent
  | .received _ _ => none
  | .submit s initOk room =>
      match o.findConnection s.localAddr with
      | none =>
          if initOk then some {
            socket := o.opened.length, sendAddr := if s.isDns then .dnsgw else .socksServer
            submitted := s, datagram := datagramOf s.remoteAddr s.isDns s.data }
          else none
      | some con =>
          if room then some {
            socket := con.socket, sendAddr := con.sendAddr, submitted := s
            datagram := datagramOf s.remoteAddr s.isDns s.data }
          else none

theorem sent_step {l : UdpLimits} {o t : SocksUdpGwClient} {e : UdpEvent}
    (hstep : (udpGw l).step o e = some t) : t.sent = o.sent ++ (o.written e).toList := by
  cases e with
  | submit s initOk room =>
      cases hstep
      cases hfind : o.findConnection s.localAddr with
      | none =>
          by_cases hlimit : o.numConnections = limit l <;> cases initOk <;>
            simp [submitPacket, written, hfind, hlimit, connectionInit, connectionSend,
              removeLruConnection]
      | some con =>
          cases room <;>
            simp [submitPacket, written, hfind, moveToEnd, connectionSend, put, resetConnection]
  | received socket data =>
      obtain ⟨con, -, rfl⟩ := Option.map_eq_some_iff.1 hstep
      simp only [dgramHandlerReceived, written]
      split
      · simp
      · split <;> simp [put]

end SocksUdpGwClient

/-- A property that some datagrams have holds of all that are ever written exactly if it holds of
each one that a step writes. -/
theorem sent_always_iff {l : UdpLimits} {Q : Sent → Prop}
    {history : List (SocksUdpGwClient × UdpEvent)} {o : SocksUdpGwClient}
    (h : Run (udpGw l) history o) :
    ((∀ x ∈ o.sent, Q x) ∧ ∀ p ∈ history, ∀ x ∈ p.1.sent, Q x) ↔
      ∀ p ∈ history, ∀ x, p.1.written p.2 = some x → Q x := by
  have hinit : ∀ x ∈ (udpGw l).init.sent, Q x := by
    intro x hx
    cases hx
  have hkeep : ∀ o e t, True → (∀ x ∈ SocksUdpGwClient.sent o, Q x) →
      (udpGw l).step o e = some t →
      ((∀ x ∈ t.sent, Q x) ↔ ∀ x, o.written e = some x → Q x) := by
    intro o e t _ hall hstep
    rw [SocksUdpGwClient.sent_step hstep]
    constructor
    · intro hafter x hx
      exact hafter x (by simp [hx])
    · intro hnew x hx
      obtain hold | hold := List.mem_append.1 hx
      · exact hall x hold
      · exact hnew x (by simpa using hold)
  exact h.always_iff (J := fun _ => True) trivial (fun _ _ _ _ _ => trivial) hinit hkeep

/-- The datagram is what the one it goes to takes: with an address in front for the SOCKS server, and
as it is for the DNS gateway. -/
def Addressed (x : Sent) : Prop :=
  x.datagram = datagramOf x.submitted.remoteAddr (x.sendAddr = .dnsgw) x.submitted.data

/-- A datagram for a socket that is open is of the kind of the first one there. -/
def SameKind (o : SocksUdpGwClient) : UdpEvent → Prop
  | .received _ _ => True
  | .submit s _ room => ∀ con, o.findConnection s.localAddr = some con → room = true →
      (s.isDns = true ↔ con.sendAddr = .dnsgw)

/-- Every datagram goes to the one it is written for exactly if no address ever sends datagrams of
both kinds through one socket. -/
theorem udpGw_addressed_iff {l : UdpLimits} {history : List (SocksUdpGwClient × UdpEvent)}
    {o : SocksUdpGwClient} (h : Run (udpGw l) history o) :
    ((∀ x ∈ o.sent, Addressed x) ∧ ∀ p ∈ history, ∀ x ∈ p.1.sent, Addressed x) ↔
      ∀ p ∈ history, SameKind p.1 p.2 := by
  rw [sent_always_iff h]
  refine forall_congr' (fun p => imp_congr_right (fun _ => ?_))
  obtain ⟨o, e⟩ := p
  cases e with
  | received socket data => simp [SocksUdpGwClient.written, SameKind]
  | submit s initOk room =>
      cases hfind : o.findConnection s.localAddr with
      | none =>
          cases initOk <;> cases hdns : s.isDns <;>
            simp [SocksUdpGwClient.written, SameKind, Addressed, hfind, hdns]
      | some con =>
          have hkind : datagramOf s.remoteAddr s.isDns s.data =
              datagramOf s.remoteAddr (con.sendAddr = .dnsgw) s.data ↔
                (s.isDns = true ↔ con.sendAddr = .dnsgw) := by
            rw [datagramOf_inj, Bool.eq_iff_iff, decide_eq_true_iff]
          cases room <;> simp [SocksUdpGwClient.written, SameKind, Addressed, hfind, hkind]

theorem udpGw_addressed_iff_twoAddresses :
    ∃ history o, (udpGw oneSocket).play twoAddresses = some (history, o) ∧
      (((∀ x ∈ o.sent, Addressed x) ∧ ∀ p ∈ history, ∀ x ∈ p.1.sent, Addressed x) ↔
        ∀ p ∈ history, SameKind p.1 p.2) :=
  ⟨_, _, rfl, udpGw_addressed_iff (run_of_play (udpGw oneSocket) twoAddresses rfl)⟩

def FitsMtu (l : UdpLimits) (o : SocksUdpGwClient) : UdpEvent → Prop
  | .received _ _ => True
  | .submit s initOk room =>
      (if (o.findConnection s.localAddr).isSome then room else initOk) = true →
        (if s.isDns then 0 else headerLen s.remoteAddr) + s.data.length ≤ l.udpMtu

/-- No datagram is longer than the space for it exactly if all that are written leave enough of
`udp_mtu` for what is put in front of them. -/
theorem udpGw_fits_iff {l : UdpLimits} {history : List (SocksUdpGwClient × UdpEvent)}
    {o : SocksUdpGwClient} (h : Run (udpGw l) history o) :
    ((∀ x ∈ o.sent, x.datagram.length ≤ l.udpMtu) ∧
        ∀ p ∈ history, ∀ x ∈ p.1.sent, x.datagram.length ≤ l.udpMtu) ↔
      ∀ p ∈ history, FitsMtu l p.1 p.2 := by
  rw [sent_always_iff (Q := fun x => x.datagram.length ≤ l.udpMtu) h]
  refine forall_congr' (fun p => imp_congr_right (fun _ => ?_))
  obtain ⟨o, e⟩ := p
  cases e with
  | received socket data => simp [SocksUdpGwClient.written, FitsMtu]
  | submit s initOk room =>
      cases hfind : o.findConnection s.localAddr with
      | none =>
          cases initOk <;> simp [SocksUdpGwClient.written, FitsMtu, hfind, length_datagramOf]
      | some con =>
          cases room <;> simp [SocksUdpGwClient.written, FitsMtu, hfind, length_datagramOf]

theorem udpGw_fits_iff_twoAddresses :
    ∃ history o, (udpGw oneSocket).play twoAddresses = some (history, o) ∧
      (((∀ x ∈ o.sent, x.datagram.length ≤ 1472) ∧
          ∀ p ∈ history, ∀ x ∈ p.1.sent, x.datagram.length ≤ 1472) ↔
        ∀ p ∈ history, FitsMtu oneSocket p.1 p.2) :=
  ⟨_, _, rfl, udpGw_fits_iff (run_of_play (udpGw oneSocket) twoAddresses rfl)⟩

end Tun
end SpinVpn
