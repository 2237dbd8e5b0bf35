import SpinVpn.Lib.Dialog
import SpinVpn.Lib.Machine
import SpinVpn.Tun.UdpPacket

/-!
# BSocksClient — the handshake with the SOCKS server

`badvpn/socksclient/BSocksClient.c`.  The client says hello, gives a password if the server asks for
one, and requests the connection; each message goes out when the reply to the one before is complete.
Replies come in pieces of any length.

The code is a state machine over callbacks.  Above it stands what it is for, a reader of the bytes of
the server (`talk`).  However the replies are cut, the code gets where the reader gets, and has sent
what goes with that (`socksClient_reads`).  It comes up after exactly the right replies, and has not
taken a byte behind them (`socksClient_up`).
-/

namespace SpinVpn
namespace Tun

open EventMachine Octets

/-! ## The code -/

/-- `struct BSocksClient_auth_info` -/
inductive AuthInfo where
  | none
  | password (username password : List UInt8)
  deriving DecidableEq, Repr

/-- `SOCKS_METHOD_NO_AUTHENTICATION_REQUIRED`, `SOCKS_METHOD_USERNAME_PASSWORD` -/
def AuthInfo.authType : AuthInfo → UInt8
  | .none => 0
  | .password _ _ => 2

/-- The `STATE_` constants, and `error` once an error was reported. -/
inductive SocksState where
  | connecting
  | sendingHello
  | sentHello
  | sendingPassword
  | sentPassword
  | sendingRequest
  | sentRequest
  | receivedReplyHeader
  | up
  | error
  deriving DecidableEq, Repr

/-- What the client is given: methods of authentication, of which there are between 1 and 255, and
where to connect to. -/
structure SocksTarget where
  authInfo : List AuthInfo
  destAddr : BAddr
  authInfo_ne_nil : authInfo ≠ []
  authInfo_le : authInfo.length ≤ 255

structure BSocksClient where
  state : SocksState := .connecting
  /-- `buffer`, as far as it was received -/
  buffer : List UInt8 := []
  recvDest : Nat := 0
  recvLen : Nat := 0
  recvTotal : Nat := 0
  /-- all that was given out to send, and all that came in -/
  wire : List UInt8 := []
  received : List UInt8 := []
  deriving DecidableEq, Repr

def helloMessage (t : SocksTarget) : List UInt8 :=
  5 :: UInt8.ofNat t.authInfo.length :: t.authInfo.map AuthInfo.authType

def passwordMessage (username password : List UInt8) : List UInt8 :=
  [1, UInt8.ofNat username.length] ++ (username ++ (UInt8.ofNat password.length :: password))

def requestMessage : BAddr → List UInt8
  | .ipv4 ip port => [5, 1, 0, 1] ++ (octets 4 ip ++ octets 2 port)
  | .ipv6 ip port => [5, 1, 0, 4] ++ (octets 16 ip ++ octets 2 port)

namespace BSocksClient

def reportError (o : BSocksClient) : BSocksClient :=
  { o with state := .error }

def startReceive (o : BSocksClient) (dest total : Nat) : BSocksClient :=
  { o with buffer := o.buffer.take dest, recvDest := dest, recvLen := 0, recvTotal := total }

def send (o : BSocksClient) (message : List UInt8) : BSocksClient :=
  { o with wire := o.wire ++ message }

/-- `ok`: the connection can be set up and the buffer reserved. -/
def connectorHandler (t : SocksTarget) (o : BSocksClient) (isError ok : Bool) : BSocksClient :=
  if isError ∨ !ok then o.reportError
  else if t.authInfo.length = 0 ∨ t.authInfo.length > 255 then o.reportError
  else { o.send (helloMessage t) with state := .sendingHello }

def authFinished (t : SocksTarget) (o : BSocksClient) (ok : Bool) : BSocksClient :=
  if !ok then o.reportError
  else { o.send (requestMessage t.destAddr) with state := .sendingRequest }

def receivedHello (t : SocksTarget) (o : BSocksClient) (ok : Bool) : BSocksClient :=
  if byteAt o.buffer 0 ≠ 5 then o.reportError
  else
    match t.authInfo.find? (·.authType = byteAt o.buffer 1) with
    | none => o.reportError
    | some .none => o.authFinished t ok
    | some (.password username password) =>
        if username.length = 0 ∨ username.length > 255 ∨ password.length = 0 ∨
            password.length > 255 then o.reportError
        else if !ok then o.reportError
        else { o.send (passwordMessage username password) with state := .sendingPassword }

def receivedReply (o : BSocksClient) : BSocksClient :=
  if byteAt o.buffer 0 ≠ 5 then o.reportError
  else if byteAt o.buffer 1 ≠ 0 then o.reportError
  else if byteAt o.buffer 3 = 1 then { o.startReceive 4 6 with state := .receivedReplyHeader }
  else if byteAt o.buffer 3 = 4 then { o.startReceive 4 18 with state := .receivedReplyHeader }
  else o.reportError

def receivedPassword (t : SocksTarget) (o : BSocksClient) (ok : Bool) : BSocksClient :=
  if byteAt o.buffer 0 ≠ 1 then o.reportError
  else if byteAt o.buffer 1 ≠ 0 then o.reportError
  else o.authFinished t ok

def receive (o : BSocksClient) (data : List UInt8) : BSocksClient :=
  { o with
    buffer := o.buffer.take (o.recvDest + o.recvLen) ++ data, recvLen := o.recvLen + data.length
    received := o.received ++ data }

def recvHandlerDone (t : SocksTarget) (o : BSocksClient) (data : List UInt8) (ok : Bool) :
    BSocksClient :=
  let o₁ := o.receive data
  if o₁.recvLen < o₁.recvTotal then o₁
  else
    match o.state with
    | .sentHello => o₁.receivedHello t ok
    | .sentPassword => o₁.receivedPassword t ok
    | .sentRequest => o₁.receivedReply
    | .receivedReplyHeader => { o₁ with state := .up }
    | _ => o₁.reportError

def sendHandlerDone (o : BSocksClient) (ok : Bool) : BSocksClient :=
  if !ok then o.reportError
  else
    match o.state with
    | .sendingHello => { o.startReceive 0 2 with state := .sentHello }
    | .sendingRequest => { o.startReceive 0 4 with state := .sentRequest }
    | .sendingPassword => { o.startReceive 0 2 with state := .sentPassword }
    | _ => o.reportError

/-- A reply is awaited. -/
def Receiving (o : BSocksClient) : Prop :=
  o.state = .sentHello ∨ o.state = .sentPassword ∨ o.state = .sentRequest ∨
    o.state = .receivedReplyHeader

def Sending (o : BSocksClient) : Prop :=
  o.state = .sendingHello ∨ o.state = .sendingPassword ∨ o.state = .sendingRequest

instance (o : BSocksClient) : Decidable o.Receiving := by
  unfold Receiving
  infer_instance

instance (o : BSocksClient) : Decidable o.Sending := by
  unfold Sending
  infer_instance

end BSocksClient

inductive SocksEvent where
  | connected (isError ok : Bool)
  | sendDone (ok : Bool)
  | recvDone (data : List UInt8) (ok : Bool)
  /-- the connection is closed or broken -/
  | connection
  deriving DecidableEq, Repr

open BSocksClient in
def socksClient (t : SocksTarget) : Machine BSocksClient SocksEvent where
  init := {}
  step o
    | .connected isError ok =>
        if o.state = .connecting then some (o.connectorHandler t isError ok) else none
    | .sendDone ok => if o.Sending then some (o.sendHandlerDone ok) else none
    | .recvDone data ok =>
        if o.Receiving ∧ data ≠ [] ∧ data.length ≤ o.recvTotal - o.recvLen then
          some (o.recvHandlerDone t data ok)
        else none
    | .connection =>
        if o.state = .connecting ∨ o.state = .error then none else some o.reportError

/-! ## What it is for -/

/-- How far the talk with the server is, and which method it is by. -/
inductive Talk where
  | hello
  | password (username password : List UInt8)
  | request (method : AuthInfo)
  | address (method : AuthInfo) (len : Nat)
  | up (method : AuthInfo)
  | failed
  deriving DecidableEq, Repr

/-- After the hello of the server. -/
def Talk.byMethod : AuthInfo → Talk
  | .none => .request .none
  | .password u p =>
      if u.length = 0 ∨ u.length > 255 ∨ p.length = 0 ∨ p.length > 255 then .failed
      else .password u p

/-- The reader of the bytes of the server. -/
def talk (t : SocksTarget) : Dialog.Reader Talk where
  need
    | .hello => 2
    | .password _ _ => 2
    | .request _ => 4
    | .address _ len => len
    | .up _ => 0
    | .failed => 0
  next
    | .hello, reply =>
        if byteAt reply 0 ≠ 5 then .failed
        else ((t.authInfo.find? (·.authType = byteAt reply 1)).map Talk.byMethod).getD .failed
    | .password username password, reply =>
        if byteAt reply 0 = 1 ∧ byteAt reply 1 = 0 then .request (.password username password)
        else .failed
    | .request method, reply =>
        if byteAt reply 0 = 5 ∧ byteAt reply 1 = 0 then
          if byteAt reply 3 = 1 then .address method 6
          else if byteAt reply 3 = 4 then .address method 18
          else .failed
        else .failed
    | .address method _, _ => .up method
    | .up method, _ => .up method
    | .failed, _ => .failed

/-- What is said to the server between hello and request. -/
def AuthInfo.message : AuthInfo → List UInt8
  | .none => []
  | .password u p => passwordMessage u p

/-- What has been said to the server by then. -/
def said (t : SocksTarget) : Talk → List UInt8
  | .hello => helloMessage t
  | .password u p => helloMessage t ++ passwordMessage u p
  | .request method => helloMessage t ++ method.message ++ requestMessage t.destAddr
  | .address method _ => helloMessage t ++ method.message ++ requestMessage t.destAddr
  | .up method => helloMessage t ++ method.message ++ requestMessage t.destAddr
  | .failed => []

/-! ## The code follows the reader -/

namespace BSocksClient

variable {t : SocksTarget} {o : BSocksClient}

/-- The reply that is awaited, or will be once the message is sent, is the one the reader is at. -/
def At (o : BSocksClient) : Talk → Prop
  | .hello => o.state = .connecting ∨ o.state = .sendingHello ∨ o.state = .sentHello
  | .password _ _ => o.state = .sendingPassword ∨ o.state = .sentPassword
  | .request _ => o.state = .sendingRequest ∨ o.state = .sentRequest
  | .address _ _ => o.state = .receivedReplyHeader
  | .up _ => o.state = .up
  | .failed => o.state = .error

/-- The phases of the reader that a state of the client goes with. -/
def Reads (phase : Talk) : SocksState → Prop
  | .connecting | .sendingHello | .sentHello => phase = .hello
  | .sendingPassword | .sentPassword => ∃ u p, phase = .password u p
  | .sendingRequest | .sentRequest => ∃ m, phase = .request m
  | .receivedReplyHeader => ∃ m len, phase = .address m len
  | .up => ∃ m, phase = .up m
  | .error => phase = .failed

/-- What is received of the reply that is awaited. -/
def partialReply (o : BSocksClient) : List UInt8 :=
  o.buffer.drop o.recvDest

/-- The client is where the reader is, which stopped at `p`. -/
structure Follows (t : SocksTarget) (o : BSocksClient) (p : Talk × List UInt8) : Prop where
  state : o.At p.1
  wire : o.state ≠ .error → o.wire = if o.state = .connecting then [] else said t p.1
  /-- while a reply is awaited -/
  awaited : o.Receiving →
    p.2 = o.partialReply ∧ o.buffer.length = o.recvDest + o.recvLen ∧
      o.recvTotal = (talk t).need p.1 ∧ o.recvLen < o.recvTotal ∧
      (o.state ≠ .receivedReplyHeader → o.recvDest = 0)
  /-- at any other time all that was received is used up -/
  idle : o.state ≠ .error → ¬ o.Receiving → p.2 = []

theorem follows_init (t : SocksTarget) : Follows t {} (.hello, []) where
  state := Or.inl rfl
  wire := by simp
  awaited := by simp [Receiving]
  idle := fun _ _ => rfl

/-- A reported error is where the reader has failed. -/
theorem follows_reportError (o : BSocksClient) (rest : List UInt8) :
    Follows t o.reportError (.failed, rest) where
  state := rfl
  wire := fun h => absurd rfl h
  awaited := by simp [Receiving, reportError]
  idle := fun h => absurd rfl h

/-- A message is given out, and the reader is where its reply is awaited. -/
theorem follows_send {o : BSocksClient} {message : List UInt8} {state : SocksState} {phase : Talk}
    (hsending : state = .sendingHello ∨ state = .sendingPassword ∨ state = .sendingRequest)
    (hat : ({ o.send message with state := state } : BSocksClient).At phase)
    (hsaid : o.wire ++ message = said t phase) :
    Follows t { o.send message with state := state } (phase, []) where
  state := hat
  wire := by
    intro _
    have hnot : state ≠ .connecting := by
      rintro rfl
      simp at hsending
    rw [if_neg hnot, ← hsaid]
    rfl
  awaited := by
    intro h
    have h : state = .sentHello ∨ state = .sentPassword ∨ state = .sentRequest ∨
        state = .receivedReplyHeader := h
    obtain rfl | rfl | rfl := hsending <;> simp at h
  idle := fun _ _ => rfl

theorem At.reads {phase : Talk} {state : SocksState} (h : o.At phase) (hs : o.state = state) :
    Reads phase state := by
  cases phase with
  | hello => rcases h with h | h | h <;> cases hs.symm.trans h <;> rfl
  | password u p => rcases h with h | h <;> cases hs.symm.trans h <;> exact ⟨u, p, rfl⟩
  | request m => rcases h with h | h <;> cases hs.symm.trans h <;> exact ⟨m, rfl⟩
  | address m len =>
      cases hs.symm.trans h
      exact ⟨m, len, rfl⟩
  | up m =>
      cases hs.symm.trans h
      exact ⟨m, rfl⟩
  | failed =>
      cases hs.symm.trans h
      rfl

theorem follows_connectorHandler {p : Talk × List UInt8} (h : Follows t o p)
    (hstate : o.state = .connecting) : Follows t (o.connectorHandler t false true) p := by
  obtain ⟨phase, rest⟩ := p
  have hphase : phase = .hello := h.state.reads hstate
  have hrest : rest = [] := h.idle (by simp [hstate]) (by simp [Receiving, hstate])
  have hwire : o.wire = [] := by
    have hw := h.wire (by simp [hstate])
    rwa [if_pos hstate] at hw
  subst hphase hrest
  have hle := t.authInfo_le
  have hpos := List.length_pos_of_ne_nil t.authInfo_ne_nil
  rw [connectorHandler, if_neg (by simp), if_neg (by omega)]
  apply follows_send
  · exact Or.inl rfl
  · exact Or.inr (Or.inl rfl)
  · rw [hwire, said, List.nil_append]

/-- A reply is awaited from its first byte on. -/
theorem follows_startReceive {dest : Nat} {state : SocksState} (phase : Talk)
    (hdest : dest ≤ o.buffer.length)
    (hawait : state = .sentHello ∨ state = .sentPassword ∨ state = .sentRequest ∨
      state = .receivedReplyHeader)
    (hat : ({ o.startReceive dest ((talk t).need phase) with state := state } : BSocksClient).At phase)
    (hneed : 0 < (talk t).need phase) (hwire : o.wire = said t phase)
    (hstart : state ≠ .receivedReplyHeader → dest = 0) :
    Follows t { o.startReceive dest ((talk t).need phase) with state := state } (phase, []) where
  state := hat
  wire := by
    intro _
    have hnot : state ≠ .connecting := by
      rintro rfl
      simp at hawait
    rw [if_neg hnot, ← hwire]
    rfl
  awaited := by
    intro _
    have hlen : (o.buffer.take dest).length = dest := by
      rw [List.length_take, Nat.min_eq_left hdest]
    refine ⟨?_, hlen, rfl, hneed, hstart⟩
    rw [partialReply, startReceive, List.drop_of_length_le (Nat.le_of_eq hlen)]
  idle := fun _ hidle => absurd hawait hidle

theorem follows_sendHandlerDone {p : Talk × List UInt8} (h : Follows t o p) (hsending : o.Sending) :
    Follows t (o.sendHandlerDone true) p := by
  obtain ⟨phase, rest⟩ := p
  have hnot : o.state ≠ .error ∧ o.state ≠ .connecting ∧ ¬ o.Receiving := by
    obtain hs | hs | hs := hsending <;> simp [Receiving, hs]
  have hrest : rest = [] := h.idle hnot.1 hnot.2.2
  have hwire : o.wire = said t phase := by
    have hw := h.wire hnot.1
    rwa [if_neg hnot.2.1] at hw
  subst hrest
  obtain hs | hs | hs := hsending
  · have hphase : phase = .hello := h.state.reads hs
    subst hphase
    rw [sendHandlerDone, if_neg (by simp), hs]
    exact follows_startReceive .hello (Nat.zero_le _) (Or.inl rfl) (Or.inr (Or.inr rfl)) Nat.two_pos
      hwire (fun _ => rfl)
  · obtain ⟨u, pw, hphase⟩ := h.state.reads hs
    subst hphase
    rw [sendHandlerDone, if_neg (by simp), hs]
    exact follows_startReceive (.password u pw) (Nat.zero_le _) (Or.inr (Or.inl rfl)) (Or.inr rfl)
      Nat.two_pos hwire (fun _ => rfl)
  · obtain ⟨m, hphase⟩ := h.state.reads hs
    subst hphase
    rw [sendHandlerDone, if_neg (by simp), hs]
    exact follows_startReceive (.request m) (Nat.zero_le _) (Or.inr (Or.inr (Or.inl rfl)))
      (Or.inr rfl) (Nat.succ_pos _) hwire (fun _ => rfl)

theorem follows_authFinished {m : AuthInfo} (hwire : o.wire = helloMessage t ++ m.message) :
    Follows t (o.authFinished t true) (.request m, []) := by
  rw [authFinished, if_neg (by simp)]
  apply follows_send
  · exact Or.inr (Or.inr rfl)
  · exact Or.inl rfl
  · rw [hwire, said]

/-- The reply to the hello is complete. -/
theorem follows_receivedHello (hwire : o.wire = helloMessage t) :
    Follows t (o.receivedHello t true) ((talk t).next .hello o.buffer, []) := by
  rw [receivedHello]
  dsimp only [talk]
  split
  · exact follows_reportError o []
  · cases hfind : t.authInfo.find? (·.authType = byteAt o.buffer 1) with
    | none => exact follows_reportError o []
    | some method =>
        cases method with
        | none =>
            apply follows_authFinished
            rw [hwire, AuthInfo.message, List.append_nil]
        | password u p =>
            dsimp only [Option.map_some, Option.getD_some, Talk.byMethod]
            split
            · exact follows_reportError o []
            · rw [if_neg (by simp)]
              apply follows_send
              · exact Or.inr (Or.inl rfl)
              · exact Or.inl rfl
              · rw [hwire, said]

theorem follows_receivedPassword {u p : List UInt8}
    (hwire : o.wire = helloMessage t ++ passwordMessage u p) :
    Follows t (o.receivedPassword t true) ((talk t).next (.password u p) o.buffer, []) := by
  rw [receivedPassword]
  dsimp only [talk]
  by_cases hver : byteAt o.buffer 0 = 1
  · by_cases hstatus : byteAt o.buffer 1 = 0
    · rw [if_neg (by simp [hver]), if_neg (by simp [hstatus]), if_pos ⟨hver, hstatus⟩]
      exact follows_authFinished hwire
    · rw [if_neg (by simp [hver]), if_pos hstatus, if_neg (fun h => hstatus h.2)]
      exact follows_reportError o []
  · rw [if_pos hver, if_neg (fun h => hver h.1)]
    exact follows_reportError o []

theorem follows_receivedReply {m : AuthInfo} (hlen : o.buffer.length = 4)
    (hwire : o.wire = helloMessage t ++ m.message ++ requestMessage t.destAddr) :
    Follows t o.receivedReply ((talk t).next (.request m) o.buffer, []) := by
  have hstart : ∀ len, 0 < len →
      Follows t { o.startReceive 4 len with state := .receivedReplyHeader } (.address m len, []) := by
    intro len hpos
    exact follows_startReceive (.address m len) (Nat.le_of_eq hlen.symm)
      (Or.inr (Or.inr (Or.inr rfl))) rfl hpos hwire (fun h => absurd rfl h)
  by_cases hver : byteAt o.buffer 0 = 5
  · by_cases hrep : byteAt o.buffer 1 = 0
    · simp only [receivedReply, talk, hver, hrep, ne_eq, not_true_eq_false, if_false, and_self, if_true]
      split
      · exact hstart 6 (by omega)
      · split
        · exact hstart 18 (by omega)
        · exact follows_reportError o []
    · simp only [receivedReply, talk, hver, hrep, ne_eq, not_true_eq_false, not_false_eq_true, if_false,
        and_false, if_true]
      exact follows_reportError o []
  · simp only [receivedReply, talk, hver, ne_eq, not_false_eq_true, if_false, false_and, if_true]
    exact follows_reportError o []

/-- One piece of a reply: the code goes on as the reader does. -/
theorem follows_recvHandlerDone {p : Talk × List UInt8} (h : Follows t o p) (hreceiving : o.Receiving)
    {data : List UInt8} (hfit : data.length ≤ o.recvTotal - o.recvLen) :
    Follows t (o.recvHandlerDone t data true) (Dialog.feed (talk t) p data) := by
  obtain ⟨phase, rest⟩ := p
  obtain ⟨hpart, hlen, htotal, hlt, hdest⟩ := h.awaited hreceiving
  dsimp only at hpart htotal
  have hnot : o.state ≠ .error ∧ o.state ≠ .connecting := by
    obtain hs | hs | hs | hs := hreceiving <;> simp [hs]
  have hwire : o.wire = said t phase := by
    have hw := h.wire hnot.1
    rwa [if_neg hnot.2] at hw
  have hbuffer : (o.receive data).buffer = o.buffer ++ data := by
    rw [receive, ← hlen, List.take_length]
  have hreply : rest ++ data = (o.receive data).partialReply := by
    have hd : o.recvDest ≤ o.buffer.length := by omega
    rw [partialReply, hbuffer, receive, List.drop_append_of_le_length hd, hpart, partialReply]
  have hrest : rest.length = o.recvLen := by
    rw [hpart, partialReply, List.length_drop]
    omega
  have hlength : (o.receive data).recvLen = rest.length + data.length := by rw [receive, hrest]
  rw [recvHandlerDone, Dialog.feed]
  dsimp only
  by_cases hmore : rest.length + data.length < (talk t).need phase
  · have hwait : (o.receive data).recvLen < (o.receive data).recvTotal := by
      rw [hlength]
      exact htotal ▸ hmore
    rw [if_pos hmore, if_pos hwait]
    refine ⟨h.state, fun _ => ?_, fun _ => ?_, fun _ hidle => absurd hreceiving hidle⟩
    · rw [if_neg (show (o.receive data).state ≠ .connecting from hnot.2)]
      exact hwire
    · refine ⟨hreply, ?_, htotal, hwait, hdest⟩
      rw [hbuffer, List.length_append, hlen]
      exact Nat.add_assoc ..
  · have hdone : ¬ (o.receive data).recvLen < (o.receive data).recvTotal := by
      rw [hlength]
      exact fun hlt => hmore (htotal ▸ hlt)
    -- the reply is complete
    have hall : (o.receive data).partialReply.length = (talk t).need phase := by
      rw [← hreply, List.length_append]
      omega
    rw [if_neg hmore, if_neg hdone, hreply]
    obtain hs | hs | hs | hs := hreceiving
    · have hphase : phase = .hello := h.state.reads hs
      subst hphase
      have hzero := hdest (by simp [hs])
      rw [hs, partialReply, show (o.receive data).recvDest = 0 from hzero, List.drop_zero]
      exact follows_receivedHello hwire
    · obtain ⟨u, pw, hphase⟩ := h.state.reads hs
      subst hphase
      have hzero := hdest (by simp [hs])
      rw [hs, partialReply, show (o.receive data).recvDest = 0 from hzero, List.drop_zero]
      exact follows_receivedPassword hwire
    · obtain ⟨m, hphase⟩ := h.state.reads hs
      subst hphase
      have hzero := hdest (by simp [hs])
      rw [partialReply, show (o.receive data).recvDest = 0 from hzero, List.drop_zero] at hall
      rw [hs, partialReply, show (o.receive data).recvDest = 0 from hzero, List.drop_zero]
      exact follows_receivedReply hall hwire
    · obtain ⟨m, len, hphase⟩ := h.state.reads hs
      subst hphase
      rw [hs]
      refine ⟨rfl, fun _ => ?_, fun hr => ?_, fun _ _ => rfl⟩
      · rw [if_neg (by simp)]
        exact hwire
      · simp [Receiving] at hr

theorem authFinished_received (o : BSocksClient) (ok : Bool) :
    (o.authFinished t ok).received = o.received := by
  rw [authFinished]
  split <;> rfl

theorem recvHandlerDone_received (o : BSocksClient) (data : List UInt8) (ok : Bool) :
    (o.recvHandlerDone t data ok).received = o.received ++ data := by
  simp only [recvHandlerDone, receivedHello, receivedPassword, receivedReply]
  split
  · rfl
  · split
    · split
      · rfl
      · split
        · rfl
        · exact authFinished_received ..
        · split
          · rfl
          · split <;> rfl
    · split
      · rfl
      · split
        · rfl
        · exact authFinished_received ..
    · split
      · rfl
      · split
        · rfl
        · split
          · rfl
          · split <;> rfl
    · rfl
    · rfl

/-- Where the reader of all that was received is. -/
def reading (t : SocksTarget) (o : BSocksClient) : Talk × List UInt8 :=
  Dialog.read (talk t) .hello o.received

end BSocksClient

/-! ## Every run -/

/-- Steps at which nothing fails but what the server says. -/
def NoFault : SocksEvent → Prop
  | .connected isError ok => isError = false ∧ ok = true
  | .sendDone ok => ok = true
  | .recvDone _ ok => ok = true
  | .connection => False

open BSocksClient in
theorem follows_step {t : SocksTarget} {o o' : BSocksClient} {e : SocksEvent}
    (h : Follows t o (o.reading t)) (he : NoFault e) (hstep : (socksClient t).step o e = some o') :
    Follows t o' (o'.reading t) := by
  cases e with
  | connected isError ok =>
      obtain ⟨rfl, rfl⟩ := he
      simp only [socksClient] at hstep
      split at hstep
      · rename_i hstate
        cases hstep
        have hsame : (o.connectorHandler t false true).received = o.received := by
          rw [connectorHandler]
          split
          · rfl
          · split <;> rfl
        rw [reading, hsame]
        exact follows_connectorHandler h hstate
      · cases hstep
  | sendDone ok =>
      cases (show ok = true from he)
      simp only [socksClient] at hstep
      split at hstep
      · rename_i hsending
        cases hstep
        have hsame : (o.sendHandlerDone true).received = o.received := by
          rw [sendHandlerDone, if_neg (by simp)]
          split <;> rfl
        rw [reading, hsame]
        exact follows_sendHandlerDone h hsending
      · cases hstep
  | recvDone data ok =>
      cases (show ok = true from he)
      simp only [socksClient] at hstep
      split at hstep
      · rename_i hrecv
        obtain ⟨hreceiving, -, hfit⟩ := hrecv
        cases hstep
        obtain ⟨hpart, hlen, htotal, hlt, -⟩ := h.awaited hreceiving
        have hrest : (o.reading t).2.length = o.recvLen := by
          rw [hpart, partialReply, List.length_drop]
          omega
        rw [reading, recvHandlerDone_received, Dialog.read_feed]
        · exact follows_recvHandlerDone h hreceiving hfit
        · exact htotal ▸ Nat.lt_of_le_of_lt (Nat.zero_le _) hlt
        · change (o.reading t).2.length + data.length ≤ (talk t).need (o.reading t).1
          omega
      · cases hstep
  | connection => exact he.elim

/-- Two methods to choose from. -/
def twoMethods : SocksTarget where
  authInfo := [.none, .password [117] [112]]
  destAddr := .ipv4 16909060 443
  authInfo_ne_nil := by simp
  authInfo_le := by simp

/-- The server asks for the password, and its replies come in pieces. -/
def inPieces : List SocksEvent :=
  [.connected false true, .sendDone true, .recvDone [5] true, .recvDone [2] true, .sendDone true,
    .recvDone [1, 0] true, .sendDone true, .recvDone [5, 0, 0] true, .recvDone [1] true,
    .recvDone [127, 0, 0, 1, 4] true, .recvDone [56] true]

/-- However the replies are cut, the client gets where the reader of the whole text gets: it is up
where that is, having taken nothing beyond, reports an error where that fails, and has sent what goes
with it. -/
theorem socksClient_reads {t : SocksTarget} {history : List (BSocksClient × SocksEvent)}
    {o : BSocksClient} (h : Run (socksClient t) history o) (hok : ∀ p ∈ history, NoFault p.2) :
    (o.state = .up ↔ ∃ m, o.reading t = (.up m, [])) ∧
      (o.state = .error ↔ (o.reading t).1 = .failed) ∧
      (o.state ≠ .error → o.state ≠ .connecting → o.wire = said t (o.reading t).1) := by
  have hinit : BSocksClient.Follows t (socksClient t).init ((socksClient t).init.reading t) := by
    rw [BSocksClient.reading, socksClient, Dialog.read_nil]
    exact BSocksClient.follows_init t
  have hfollows := h.invariant (I := fun o => BSocksClient.Follows t o (o.reading t)) hinit
    (fun _ _ _ => follows_step) hok
  refine ⟨?_, ?_, ?_⟩
  · constructor
    · intro hup
      have hrest := hfollows.idle (by simp [hup]) (by simp [BSocksClient.Receiving, hup])
      obtain ⟨m, hphase⟩ := hfollows.state.reads hup
      exact ⟨m, Prod.ext hphase hrest⟩
    · rintro ⟨m, hm⟩
      have hat := hfollows.state
      rwa [hm] at hat
  · constructor
    · exact fun herror => hfollows.state.reads herror
    · intro hfailed
      have hat := hfollows.state
      rwa [hfailed] at hat
  · intro herror hconnected
    have hwire := hfollows.wire herror
    rwa [if_neg hconnected] at hwire

theorem socksClient_reads_inPieces :
    ∃ history o, (socksClient twoMethods).play inPieces = some (history, o) ∧
      ∃ m, o.reading twoMethods = (.up m, []) :=
  ⟨_, _, rfl, (socksClient_reads (run_of_play (socksClient twoMethods) inPieces rfl)
    (forall_of_play (socksClient twoMethods) inPieces rfl (by simp [inPieces, NoFault]))).1.1 rfl⟩

/-! ### Coming up -/

/-- Whether a reservation fails shows only where there is one. -/
theorem recvHandlerDone_cases (t : SocksTarget) (o : BSocksClient) (data : List UInt8) (ok : Bool) :
    o.recvHandlerDone t data ok = o.recvHandlerDone t data true ∨
      (o.recvHandlerDone t data ok).state = .error := by
  cases ok with
  | true => exact Or.inl rfl
  | false =>
      simp only [BSocksClient.recvHandlerDone, BSocksClient.receivedHello,
        BSocksClient.receivedPassword, BSocksClient.authFinished]
      split
      · exact Or.inl rfl
      · split
        · split
          · exact Or.inl rfl
          · split
            · exact Or.inl rfl
            · exact Or.inr rfl
            · split
              · exact Or.inl rfl
              · exact Or.inr rfl
        · split
          · exact Or.inl rfl
          · split
            · exact Or.inl rfl
            · exact Or.inr rfl
        · exact Or.inl rfl
        · exact Or.inl rfl
        · exact Or.inl rfl

/-- Nothing follows an error, and a step at which something else fails is one. -/
theorem follows_or_error {t : SocksTarget} {o o' : BSocksClient} {e : SocksEvent}
    (h : o.state = .error ∨ BSocksClient.Follows t o (o.reading t))
    (hstep : (socksClient t).step o e = some o') :
    o'.state = .error ∨ BSocksClient.Follows t o' (o'.reading t) := by
  obtain herror | h := h
  · cases e <;> simp [socksClient, herror, BSocksClient.Sending, BSocksClient.Receiving] at hstep
  · cases e with
    | connected isError ok =>
        by_cases hok : isError = false ∧ ok = true
        · exact Or.inr (follows_step h (show NoFault (.connected isError ok) from hok) hstep)
        · simp only [socksClient] at hstep
          split at hstep
          · cases hstep
            have hbad : isError = true ∨ (!ok) = true := by
              cases isError <;> cases ok <;> simp at hok ⊢
            rw [BSocksClient.connectorHandler, if_pos hbad]
            exact Or.inl rfl
          · cases hstep
    | sendDone ok =>
        cases ok with
        | true => exact Or.inr (follows_step h (show NoFault (.sendDone true) from rfl) hstep)
        | false =>
            simp only [socksClient] at hstep
            split at hstep
            · cases hstep
              exact Or.inl rfl
            · cases hstep
    | recvDone data ok =>
        obtain hsame | herror := recvHandlerDone_cases t o data ok
        · refine Or.inr (follows_step h (show NoFault (.recvDone data true) from rfl) ?_)
          rw [← hstep]
          simp only [socksClient, hsame]
        · simp only [socksClient] at hstep
          split at hstep
          · cases hstep
            exact Or.inl herror
          · cases hstep
    | connection =>
        simp only [socksClient] at hstep
        split at hstep
        · cases hstep
        · cases hstep
          exact Or.inl rfl

/-- What the server says between its hello and its reply to the request. -/
def AuthInfo.reply : AuthInfo → List UInt8
  | .none => []
  | .password _ _ => [1, 0]

theorem up_of_address {t : SocksTarget} {m m' : AuthInfo} {len : Nat} {text : List UInt8}
    (h : Dialog.read (talk t) (.address m len) text = (.up m', [])) : m' = m ∧ text.length = len := by
  obtain ⟨hlen, h⟩ := Dialog.read_step (talk t) h (by simp)
  rw [show (talk t).next (.address m len) _ = .up m from rfl, Dialog.read_end (talk t) rfl] at h
  simp only [Prod.mk.injEq, Talk.up.injEq] at h
  exact ⟨h.1.symm, Nat.le_antisymm (List.drop_eq_nil_iff.1 h.2) hlen⟩

/-- From a failure nothing comes up. -/
theorem not_up_of_failed {t : SocksTarget} {m : AuthInfo} {text : List UInt8}
    (h : Dialog.read (talk t) .failed text = (.up m, [])) : False := by
  rw [Dialog.read_end (talk t) rfl] at h
  simp at h

theorem up_of_request {t : SocksTarget} {m m' : AuthInfo} {text : List UInt8}
    (h : Dialog.read (talk t) (.request m) text = (.up m', [])) :
    m' = m ∧ ∃ rsv atyp addr, text = [5, 0, rsv, atyp] ++ addr ∧
      (atyp = 1 ∧ addr.length = 6 ∨ atyp = 4 ∧ addr.length = 18) := by
  obtain ⟨hlen, hnext⟩ := Dialog.read_step (talk t) h (by simp)
  have hlen : 4 ≤ text.length := hlen
  obtain ⟨ver, rep, rsv, atyp, addr, rfl⟩ : ∃ ver rep rsv atyp addr,
      text = ver :: rep :: rsv :: atyp :: addr := by
    match text, hlen with
    | ver :: rep :: rsv :: atyp :: addr, _ => exact ⟨ver, rep, rsv, atyp, addr, rfl⟩
  change Dialog.read (talk t) (if ver = 5 ∧ rep = 0 then
    if atyp = 1 then .address m 6 else if atyp = 4 then .address m 18 else .failed
    else .failed) addr = (.up m', []) at hnext
  split at hnext
  · rename_i hok
    obtain ⟨rfl, rfl⟩ := hok
    split at hnext
    · rename_i hv4
      obtain ⟨rfl, haddr⟩ := up_of_address hnext
      exact ⟨rfl, rsv, atyp, addr, rfl, Or.inl ⟨hv4, haddr⟩⟩
    · split at hnext
      · rename_i hv6
        obtain ⟨rfl, haddr⟩ := up_of_address hnext
        exact ⟨rfl, rsv, atyp, addr, rfl, Or.inr ⟨hv6, haddr⟩⟩
      · exact (not_up_of_failed hnext).elim
  · exact (not_up_of_failed hnext).elim

theorem up_of_password {t : SocksTarget} {m : AuthInfo} {u p text : List UInt8}
    (h : Dialog.read (talk t) (.password u p) text = (.up m, [])) :
    ∃ rest, text = [1, 0] ++ rest ∧
      Dialog.read (talk t) (.request (.password u p)) rest = (.up m, []) := by
  obtain ⟨hlen, hnext⟩ := Dialog.read_step (talk t) h (by simp)
  have hlen : 2 ≤ text.length := hlen
  obtain ⟨ver, status, rest, rfl⟩ : ∃ ver status rest, text = ver :: status :: rest := by
    match text, hlen with
    | ver :: status :: rest, _ => exact ⟨ver, status, rest, rfl⟩
  change Dialog.read (talk t) (if ver = 1 ∧ status = 0 then .request (.password u p) else .failed)
    rest = (.up m, []) at hnext
  split at hnext
  · rename_i hok
    obtain ⟨rfl, rfl⟩ := hok
    exact ⟨rest, rfl, hnext⟩
  · exact (not_up_of_failed hnext).elim

theorem up_of_hello {t : SocksTarget} {m : AuthInfo} {text : List UInt8}
    (h : Dialog.read (talk t) .hello text = (.up m, [])) :
    m ∈ t.authInfo ∧ ∃ rest, text = [5, m.authType] ++ (m.reply ++ rest) ∧
      Dialog.read (talk t) (.request m) rest = (.up m, []) := by
  obtain ⟨hlen, hnext⟩ := Dialog.read_step (talk t) h (by simp)
  have hlen : 2 ≤ text.length := hlen
  obtain ⟨ver, method, rest, rfl⟩ : ∃ ver method rest, text = ver :: method :: rest := by
    match text, hlen with
    | ver :: method :: rest, _ => exact ⟨ver, method, rest, rfl⟩
  change Dialog.read (talk t) (if ver ≠ 5 then .failed
    else ((t.authInfo.find? (·.authType = method)).map Talk.byMethod).getD .failed)
    rest = (.up m, []) at hnext
  split at hnext
  · exact (not_up_of_failed hnext).elim
  · rename_i hver
    have hver : ver = 5 := by simpa using hver
    subst hver
    cases hfind : t.authInfo.find? (·.authType = method) with
    | none =>
        rw [hfind] at hnext
        exact (not_up_of_failed hnext).elim
    | some found =>
        rw [hfind, Option.map_some, Option.getD_some] at hnext
        have hmem := List.mem_of_find?_eq_some hfind
        have htype : found.authType = method := by simpa using List.find?_some hfind
        cases found with
        | none =>
            obtain ⟨rfl, -⟩ := up_of_request hnext
            exact ⟨hmem, rest, by rw [htype]; rfl, hnext⟩
        | password u p =>
            rw [Talk.byMethod] at hnext
            split at hnext
            · exact (not_up_of_failed hnext).elim
            · obtain ⟨rest', rfl, hrequest⟩ := up_of_password hnext
              obtain ⟨rfl, -⟩ := up_of_request hrequest
              exact ⟨hmem, rest', by rw [htype]; rfl, hrequest⟩

/-- A client that is up has received a hello for one of its methods, what that method asks for, and a
successful reply with its address, and not a byte more; and it has sent its hello, what the method
asks for, and the request. -/
theorem socksClient_up {t : SocksTarget} {history : List (BSocksClient × SocksEvent)}
    {o : BSocksClient} (h : Run (socksClient t) history o) (hup : o.state = .up) :
    ∃ m ∈ t.authInfo, (∃ rsv atyp addr,
        o.received = [5, m.authType] ++ (m.reply ++ ([5, 0, rsv, atyp] ++ addr)) ∧
        (atyp = 1 ∧ addr.length = 6 ∨ atyp = 4 ∧ addr.length = 18)) ∧
      o.wire = helloMessage t ++ m.message ++ requestMessage t.destAddr := by
  have hinit : (socksClient t).init.state = .error ∨
      BSocksClient.Follows t (socksClient t).init ((socksClient t).init.reading t) := by
    rw [BSocksClient.reading, socksClient, Dialog.read_nil]
    exact Or.inr (BSocksClient.follows_init t)
  have hkeep : ∀ o e o', (o.state = .error ∨ BSocksClient.Follows t o (o.reading t)) → True →
      (socksClient t).step o e = some o' →
      (o'.state = .error ∨ BSocksClient.Follows t o' (o'.reading t)) :=
    fun _ _ _ ho _ hstep => follows_or_error ho hstep
  obtain herror | hfollows := h.invariant
    (I := fun o => o.state = .error ∨ BSocksClient.Follows t o (o.reading t)) hinit hkeep
    (fun _ _ => trivial)
  · exact absurd (herror.symm.trans hup) (by simp)
  · have hrest := hfollows.idle (by simp [hup]) (by simp [BSocksClient.Receiving, hup])
    obtain ⟨m, hphase⟩ := hfollows.state.reads hup
    have hread : Dialog.read (talk t) .hello o.received = (.up m, []) := Prod.ext hphase hrest
    have hwire := hfollows.wire (by simp [hup])
    rw [if_neg (by simp [hup]), hphase] at hwire
    obtain ⟨hmem, rest, htext, hrequest⟩ := up_of_hello hread
    obtain ⟨-, rsv, atyp, addr, rfl, haddr⟩ := up_of_request hrequest
    exact ⟨m, hmem, ⟨rsv, atyp, addr, htext, haddr⟩, hwire⟩

theorem socksClient_up_inPieces :
    ∃ history o, (socksClient twoMethods).play inPieces = some (history, o) ∧
      ∃ m ∈ twoMethods.authInfo,
        o.wire = helloMessage twoMethods ++ m.message ++ requestMessage twoMethods.destAddr :=
  ⟨_, _, rfl, (socksClient_up (run_of_play (socksClient twoMethods) inPieces rfl) rfl).imp
    (fun _ h => ⟨h.1, h.2.2⟩)⟩

end Tun
end SpinVpn
