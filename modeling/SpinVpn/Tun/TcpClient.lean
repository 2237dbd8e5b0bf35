import SpinVpn.Lib.Machine

/-!
# TcpClient — one connection between lwIP and the SOCKS server

`badvpn/tun2socks/tun2socks.c`, the functions whose names begin with `client_`.  A connection of an
app ends in lwIP, which hands over what the app sends and takes what the app is to receive, and goes
on as a connection to the SOCKS server.  Either end can go down while the other one still has data
to deliver; the connection is freed when both are closed.

A handler whose assertion fails, or that runs after the connection was freed, has no result here.
That never happens (`handle_isSome`).  The bytes of both directions arrive in order and none is lost
or doubled, the app is never told of more space than there is, and no connection stays open on one
side without data for it (`relay_invariant`).  Short of an error, an end is closed only after all of
its data has been delivered (`close_delivered`).
-/

namespace SpinVpn
namespace Tun

open EventMachine

/-- `TCP_WND`, four segments of 1460 octets -/
def tcpWnd : Nat :=
  5840

/-- `CLIENT_SOCKS_RECV_BUF_SIZE` -/
def clientSocksRecvBufSize : Nat :=
  8192

/-! ## The state -/

/-- `struct tcp_client`, with what both of its ends keep of the connection. -/
structure TcpClient where
  aborted : Bool := false
  clientClosed : Bool := false
  /-- `buf`, up to `buf_used` -/
  buf : List UInt8 := []
  socksUp : Bool := false
  socksClosed : Bool := false
  /-- `socks_recv_buf`, up to `socks_recv_buf_used`; `none` where that is -1 -/
  socksRecvBuf : Option (List UInt8) := none
  socksRecvBufSent : Nat := 0
  socksRecvWaiting : Bool := false
  socksRecvTcpPending : Nat := 0
  freed : Bool := false
  /-- the callbacks of the lwIP connection -/
  tcpRecv : Bool := true
  tcpSent : Bool := false
  tcpErr : Bool := true
  /-- what the app may still send -/
  window : Nat := tcpWnd
  /-- what the app has sent, as far as it was accepted -/
  delivered : List UInt8 := []
  /-- what lwIP has taken for the app, and how much of it the app has confirmed -/
  taken : List UInt8 := []
  acked : Nat := 0
  /-- the send to the SOCKS server that is under way, and whether a receive is -/
  sending : Option Nat := none
  receiving : Bool := false
  /-- what the SOCKS server has taken, and what it has sent for the app -/
  sent : List UInt8 := []
  received : List UInt8 := []
  deriving DecidableEq, Repr

inductive WriteResult where
  | ok
  | mem
  | error
  deriving DecidableEq, Repr

/-- How lwIP answers: the values of `tcp_sndbuf` with the results of `tcp_write`, as long as there is
space, and then whether `tcp_output` succeeds. -/
structure TcpAnswers where
  writes : List (Nat × WriteResult)
  output : Bool
  deriving DecidableEq, Repr

namespace TcpClient

/-! ## Closing -/

def dealloc (c : TcpClient) : Option TcpClient :=
  if c.clientClosed ∧ c.socksClosed then some { c with freed := true } else none

/-- `BSocksClient_Free`, and what goes with it: whatever is under way there ends. -/
def freeSocks (c : TcpClient) : TcpClient :=
  { c with
    tcpRecv := c.tcpRecv && !(c.socksUp && !c.clientClosed)
    socksClosed := true, sending := none, receiving := false }

/-- Where the SOCKS side is freed here, the client is closed, and both go. -/
def handleFreedClient (c : TcpClient) : Option TcpClient :=
  if c.clientClosed then none
  else
    let c₁ := { c with clientClosed := true }
    if c₁.buf ≠ [] ∧ !c₁.socksClosed then some c₁
    else if !c₁.socksClosed then c₁.freeSocks.dealloc
    else c₁.dealloc

def removeCallbacks (c : TcpClient) : TcpClient :=
  { c with tcpErr := false, tcpRecv := false, tcpSent := false }

def abortPcb (c : TcpClient) : Option TcpClient :=
  if c.aborted then none else some { c with aborted := true }

/-- `closeOk`: `tcp_close` succeeds. -/
def freeClient (closeOk : Bool) (c : TcpClient) : Option TcpClient :=
  if c.clientClosed then none
  else if closeOk then c.removeCallbacks.handleFreedClient
  else c.removeCallbacks.abortPcb.bind handleFreedClient

def abortClient (c : TcpClient) : Option TcpClient :=
  if c.clientClosed then none else c.removeCallbacks.abortPcb.bind handleFreedClient

def clientFreeSocks (closeOk : Bool) (c : TcpClient) : Option TcpClient :=
  if c.socksClosed then none
  else
    let c₁ := c.freeSocks
    -- buffered data is still sent to the client
    if c₁.socksUp ∧ (c₁.socksRecvBuf.isSome ∨ 0 < c₁.socksRecvTcpPending) ∧ !c₁.clientClosed then
      some c₁
    else if !c₁.clientClosed then c₁.freeClient closeOk
    else c₁.dealloc

/-! ## From the app to the SOCKS server -/

def sendToSocks (c : TcpClient) : Option TcpClient :=
  if !c.socksClosed ∧ c.socksUp ∧ c.buf ≠ [] ∧ c.sending = none then
    some { c with sending := some c.buf.length }
  else none

/-- Data of the app goes into the buffer. -/
def bufAppend (c : TcpClient) (p : List UInt8) : TcpClient :=
  { c with buf := c.buf ++ p, delivered := c.delivered ++ p, window := c.window - p.length }

/-- Sent data leaves the buffer, which lwIP is told as long as it is there. -/
def bufRemove (c : TcpClient) (len : Nat) : TcpClient :=
  { c with
    buf := c.buf.drop len, sent := c.sent ++ c.buf.take len, sending := none
    window := if c.clientClosed then c.window else c.window + len }

def recvFunc (c : TcpClient) (closeOk : Bool) : Option (List UInt8) → Option TcpClient
  | none => c.freeClient closeOk
  | some p =>
      if c.clientClosed ∨ p = [] then none
      -- `ERR_MEM`, and lwIP keeps the data
      else if p.length > tcpWnd - c.buf.length then some c
      else
        let c₁ := c.bufAppend p
        if c₁.buf.length = p.length ∧ c₁.socksUp then c₁.sendToSocks else some c₁

def socksSendHandlerDone (c : TcpClient) (closeOk : Bool) (len : Nat) : Option TcpClient :=
  if !c.socksClosed ∧ c.socksUp ∧ 0 < len ∧ len ≤ c.buf.length then
    let c₁ := c.bufRemove len
    if c₁.buf ≠ [] then some { c₁ with sending := some c₁.buf.length }
    else if c₁.clientClosed then c₁.clientFreeSocks closeOk
    else some c₁
  else none

/-! ## From the SOCKS server to the app -/

def recvInitiate (c : TcpClient) : Option TcpClient :=
  if !c.clientClosed ∧ !c.socksClosed ∧ c.socksUp ∧ c.socksRecvBuf = none ∧ !c.receiving then
    some { c with receiving := true }
  else none

/-- The loop around `tcp_write`: how much has been sent, and whether a write failed. -/
def writeLoop (used : Nat) : Nat → List (Nat × WriteResult) → Nat × Bool
  | sent, [] => (sent, false)
  | sent, (sndbuf, result) :: rest =>
      let toWrite := min (used - sent) sndbuf
      if toWrite = 0 then (sent, false)
      else
        match result with
        | .mem => (sent, false)
        | .error => (sent, true)
        | .ok => if sent + toWrite < used then writeLoop used (sent + toWrite) rest
            else (sent + toWrite, false)

/-- What the loop has written is to be confirmed by the app. -/
def written (c : TcpClient) (data : List UInt8) (sent : Nat) : TcpClient :=
  { c with
    socksRecvBufSent := sent
    socksRecvTcpPending := c.socksRecvTcpPending + (sent - c.socksRecvBufSent)
    taken := c.taken ++ (data.take sent).drop c.socksRecvBufSent }

/-- `client_socks_recv_send_out`; the flag stands for -1. -/
def recvSendOut (c : TcpClient) (answers : TcpAnswers) : Option (TcpClient × Bool) :=
  match c.socksRecvBuf with
  | none => none
  | some data =>
      if !c.clientClosed ∧ c.socksUp ∧ c.socksRecvBufSent < data.length ∧ !c.socksRecvWaiting then
        let loop := writeLoop data.length c.socksRecvBufSent answers.writes
        let c₁ := c.written data loop.1
        if loop.2 ∨ !answers.output then c₁.abortClient.map (·, true)
        else if loop.1 < data.length then
          -- can't queue data, but all data was confirmed
          if c₁.socksRecvTcpPending = 0 then c₁.abortClient.map (·, true)
          else some ({ c₁ with socksRecvWaiting := true }, false)
        else some ({ c₁ with socksRecvBuf := none }, false)
      else none

/-- Received data is what goes out next. -/
def recvBufFill (c : TcpClient) (data : List UInt8) : TcpClient :=
  { c with
    receiving := false, received := c.received ++ data, socksRecvBuf := some data
    socksRecvBufSent := 0, socksRecvWaiting := false }

def socksRecvHandlerDone (c : TcpClient) (answers : TcpAnswers) (data : List UInt8) :
    Option TcpClient :=
  if data ≠ [] ∧ data.length ≤ clientSocksRecvBufSize ∧ !c.socksClosed ∧ c.socksUp ∧
      c.socksRecvBuf = none then
    -- if client was closed, stop receiving
    if c.clientClosed then some { c with receiving := false }
    else
      ((c.recvBufFill data).recvSendOut answers).bind (fun r =>
        if r.2 then some r.1
        else if r.1.socksRecvBuf = none then r.1.recvInitiate
        else some r.1)
  else none

/-- The app has confirmed data. -/
def confirmed (c : TcpClient) (len : Nat) : TcpClient :=
  { c with socksRecvTcpPending := c.socksRecvTcpPending - len, acked := c.acked + len }

def sentFunc (c : TcpClient) (answers : TcpAnswers) (closeOk : Bool) (len : Nat) : Option TcpClient :=
  if !c.clientClosed ∧ c.socksUp ∧ 0 < len ∧ len ≤ c.socksRecvTcpPending then
    let c₁ := c.confirmed len
    if c₁.socksRecvBuf.isSome then
      if c₁.socksRecvWaiting then
        ({ c₁ with socksRecvWaiting := false }.recvSendOut answers).bind (fun r =>
          if r.2 then some r.1
          -- we just queued some data, so it can't have been confirmed yet
          else if r.1.socksRecvTcpPending = 0 then none
          else if r.1.socksRecvBuf = none ∧ !r.1.socksClosed then r.1.recvInitiate
          else some r.1)
      else none
    else if c₁.socksClosed ∧ c₁.socksRecvTcpPending = 0 then c₁.freeClient closeOk
    else some c₁
  else none

/-! ## Events of the SOCKS client -/

/-- The connection is up, and its receive buffer is there. -/
def comeUp (c : TcpClient) : TcpClient :=
  { c with
    socksRecvBuf := none, socksRecvTcpPending := 0, socksUp := true
    tcpSent := c.tcpSent || !c.clientClosed }

/-- `BSOCKSCLIENT_EVENT_UP` -/
def socksHandlerUp (c : TcpClient) : Option TcpClient :=
  if !c.socksClosed ∧ !c.socksUp then
    let c₁ := c.comeUp
    (if c₁.buf ≠ [] then c₁.sendToSocks else some c₁).bind (fun c₂ =>
      if !c₂.clientClosed then c₂.recvInitiate else some c₂)
  else none

end TcpClient

/-! ## Runs -/

inductive RelayEvent where
  /-- data from the app, or the end of it -/
  | recv (p : Option (List UInt8)) (closeOk : Bool)
  /-- the lwIP connection is gone -/
  | err
  | sent (len : Nat) (answers : TcpAnswers) (closeOk : Bool)
  | up
  /-- `BSOCKSCLIENT_EVENT_ERROR` or `BSOCKSCLIENT_EVENT_ERROR_CLOSED`, which do the same; the latter
  comes only once SOCKS is up, which is not asked for here -/
  | error (closeOk : Bool)
  | sendDone (len : Nat) (closeOk : Bool)
  | recvDone (data : List UInt8) (answers : TcpAnswers)
  deriving DecidableEq, Repr

namespace TcpClient

/-- What can happen: lwIP calls the callbacks that are set, with data that fits the window or
confirming data it has taken, and the SOCKS client reports until it is freed. -/
def Enabled (c : TcpClient) : RelayEvent → Prop
  | .recv none _ => c.tcpRecv
  | .recv (some p) _ => c.tcpRecv ∧ p ≠ [] ∧ p.length ≤ c.window
  | .err => c.tcpErr
  | .sent len _ _ => c.tcpSent ∧ 0 < len ∧ c.acked + len ≤ c.taken.length
  | .up => !c.socksClosed ∧ !c.socksUp
  | .error _ => !c.socksClosed
  | .sendDone len _ => ∃ n ∈ c.sending, 0 < len ∧ len ≤ n
  | .recvDone data _ => c.receiving ∧ data ≠ [] ∧ data.length ≤ clientSocksRecvBufSize

instance (c : TcpClient) (e : RelayEvent) : Decidable (c.Enabled e) :=
  match e with
  | .recv none _ => inferInstanceAs (Decidable (c.tcpRecv = true))
  | .recv (some p) _ =>
      inferInstanceAs (Decidable (c.tcpRecv = true ∧ p ≠ [] ∧ p.length ≤ c.window))
  | .err => inferInstanceAs (Decidable (c.tcpErr = true))
  | .sent len _ _ =>
      inferInstanceAs (Decidable (c.tcpSent = true ∧ 0 < len ∧ c.acked + len ≤ c.taken.length))
  | .up => inferInstanceAs (Decidable ((!c.socksClosed) = true ∧ (!c.socksUp) = true))
  | .error _ => inferInstanceAs (Decidable ((!c.socksClosed) = true))
  | .sendDone len _ => inferInstanceAs (Decidable (∃ n ∈ c.sending, 0 < len ∧ len ≤ n))
  | .recvDone data _ => inferInstanceAs
      (Decidable (c.receiving = true ∧ data ≠ [] ∧ data.length ≤ clientSocksRecvBufSize))

def handle (c : TcpClient) (e : RelayEvent) : Option TcpClient :=
  -- no handler may see a connection that is gone
  if c.freed then none
  else
    match e with
    | .recv p closeOk => c.recvFunc closeOk p
    | .err => c.removeCallbacks.handleFreedClient
    | .sent len answers closeOk => c.sentFunc answers closeOk len
    | .up => c.socksHandlerUp
    | .error closeOk => c.clientFreeSocks closeOk
    | .sendDone len closeOk => c.socksSendHandlerDone closeOk len
    | .recvDone data answers => c.socksRecvHandlerDone answers data

end TcpClient

/-! ## The invariant -/

namespace TcpClient

/-- What was received for the app and has not been passed on yet. -/
def unsent (c : TcpClient) : List UInt8 :=
  match c.socksRecvBuf with
  | none => []
  | some data => data.drop c.socksRecvBufSent

/-- What holds at any time, also within the handlers. -/
structure Sound (c : TcpClient) : Prop where
  up : c.sent ++ c.buf = c.delivered
  down : c.taken ++ c.unsent = c.received
  pending : c.acked + c.socksRecvTcpPending = c.taken.length
  window : c.clientClosed = false → c.window + c.buf.length = tcpWnd
  early : c.socksUp = false → c.socksRecvBuf = none ∧ c.socksRecvTcpPending = 0
  sending : ∀ n, c.sending = some n →
    c.socksUp = true ∧ c.socksClosed = false ∧ 0 < n ∧ n ≤ c.buf.length
  receiving : c.receiving = true →
    c.socksUp = true ∧ c.socksClosed = false ∧ c.socksRecvBuf = none

/-- What holds between the handlers, up to what is to be under way. -/
structure Settled (c : TcpClient) : Prop extends Sound c where
  freed : c.freed = (c.clientClosed && c.socksClosed)
  aborted : c.aborted = true → c.clientClosed = true
  tcpRecv : c.tcpRecv = true → c.clientClosed = false ∧ (c.socksUp = true → c.socksClosed = false)
  tcpSent : c.tcpSent = true → c.clientClosed = false ∧ c.socksUp = true
  tcpErr : c.tcpErr = !c.clientClosed
  waiting : c.clientClosed = false → ∀ data, c.socksRecvBuf = some data →
    c.socksRecvBufSent < data.length ∧ c.socksRecvWaiting = true ∧ 0 < c.socksRecvTcpPending
  /-- one side stays open only for data that it still has to deliver -/
  lingerDown : c.clientClosed = false → c.socksClosed = true →
    c.socksUp = true ∧ (c.socksRecvBuf ≠ none ∨ 0 < c.socksRecvTcpPending)
  lingerUp : c.clientClosed = true → c.socksClosed = false → c.buf ≠ []

/-- What holds between the handlers. -/
structure Inv (c : TcpClient) : Prop extends Settled c where
  sends : c.socksUp = true → c.socksClosed = false → c.buf ≠ [] → c.sending ≠ none
  receives : c.clientClosed = false → c.socksUp = true → c.socksClosed = false →
    c.socksRecvBuf = none → c.receiving = true

variable {c : TcpClient}

theorem inv_init : Inv {} := by
  constructor <;> (try constructor) <;> (try constructor) <;> simp [unsent, tcpWnd]

/-! ### Closing -/

/-- The lwIP connection is gone, or about to go, and no callback is set any more. -/
structure Leaving (c : TcpClient) : Prop extends Sound c where
  freed : c.freed = false
  notClosed : c.clientClosed = false
  tcpRecv : c.tcpRecv = false
  tcpSent : c.tcpSent = false
  tcpErr : c.tcpErr = false
  sends : c.socksUp = true → c.socksClosed = false → c.buf ≠ [] → c.sending ≠ none

theorem Sound.freeSocks (h : c.Sound) : c.freeSocks.Sound where
  up := h.up
  down := h.down
  pending := h.pending
  window := h.window
  early := h.early
  sending := by simp [TcpClient.freeSocks]
  receiving := by simp [TcpClient.freeSocks]

/-- Both sides are closed, and the connection is freed. -/
theorem inv_dealloc (h : c.Sound) (hclient : c.clientClosed = true) (hsocks : c.socksClosed = true)
    (hrecv : c.tcpRecv = false) (hsent : c.tcpSent = false) (herr : c.tcpErr = false) :
    ∃ c', c.dealloc = some c' ∧ c'.Inv := by
  refine ⟨{ c with freed := true }, if_pos ⟨hclient, hsocks⟩, ?_⟩
  refine ⟨⟨⟨h.up, h.down, h.pending, h.window, h.early, h.sending, h.receiving⟩, ?_,
    ?_, ?_, ?_, ?_, ?_, ?_, ?_⟩, ?_, ?_⟩ <;> simp [hclient, hsocks, hrecv, hsent, herr]

theorem inv_handleFreedClient (h : c.Leaving) : ∃ c', c.handleFreedClient = some c' ∧ c'.Inv := by
  have hclosed : Sound { c with clientClosed := true } :=
    ⟨h.up, h.down, h.pending, by simp, h.early, h.sending, h.receiving⟩
  rw [handleFreedClient, if_neg (by simp [h.notClosed])]
  dsimp only
  split
  · -- buffered data is still sent to the SOCKS server
    rename_i hwait
    have hsocks : c.socksClosed = false := by simpa using hwait.2
    refine ⟨_, rfl, ⟨hclosed, ?_, ?_, ?_, ?_, ?_, ?_, ?_, ?_⟩, h.sends, ?_⟩ <;>
      simp [h.freed, h.tcpRecv, h.tcpSent, h.tcpErr, hsocks, hwait.1]
  · split
    · exact inv_dealloc hclosed.freeSocks rfl rfl (by simp [freeSocks, h.tcpRecv]) h.tcpSent h.tcpErr
    · rename_i hsocks
      exact inv_dealloc hclosed rfl (by simpa using hsocks) h.tcpRecv h.tcpSent h.tcpErr

/-- A connection that lwIP has not closed yet. -/
structure Live (c : TcpClient) : Prop extends Sound c where
  freed : c.freed = false
  notClosed : c.clientClosed = false
  notAborted : c.aborted = false
  sends : c.socksUp = true → c.socksClosed = false → c.buf ≠ [] → c.sending ≠ none

theorem Live.leaving (h : c.Live) : c.removeCallbacks.Leaving where
  up := h.up
  down := h.down
  pending := h.pending
  window := h.window
  early := h.early
  sending := h.sending
  receiving := h.receiving
  freed := h.freed
  notClosed := h.notClosed
  tcpRecv := rfl
  tcpSent := rfl
  tcpErr := rfl
  sends := h.sends

theorem inv_abort (h : c.Live) :
    ∃ c', c.removeCallbacks.abortPcb.bind handleFreedClient = some c' ∧ c'.Inv := by
  have habort : c.removeCallbacks.abortPcb = some { c.removeCallbacks with aborted := true } :=
    if_neg (by simp [removeCallbacks, h.notAborted])
  have hl := h.leaving
  rw [habort, Option.bind_some]
  apply inv_handleFreedClient
  exact ⟨⟨hl.up, hl.down, hl.pending, hl.window, hl.early, hl.sending, hl.receiving⟩,
    hl.freed, hl.notClosed, hl.tcpRecv, hl.tcpSent, hl.tcpErr, hl.sends⟩

theorem inv_abortClient (h : c.Live) : ∃ c', c.abortClient = some c' ∧ c'.Inv := by
  rw [abortClient, if_neg (by simp [h.notClosed])]
  exact inv_abort h

theorem inv_freeClient (h : c.Live) (closeOk : Bool) :
    ∃ c', c.freeClient closeOk = some c' ∧ c'.Inv := by
  rw [freeClient, if_neg (by simp [h.notClosed])]
  split
  · exact inv_handleFreedClient h.leaving
  · exact inv_abort h

theorem Inv.live (h : c.Inv) (hclient : c.clientClosed = false) : c.Live where
  toSound := h.toSound
  freed := by rw [h.freed, hclient, Bool.false_and]
  notClosed := hclient
  notAborted := by
    cases habort : c.aborted with
    | false => rfl
    | true =>
        have hclosed := h.aborted habort
        rw [hclient] at hclosed
        cases hclosed
  sends := h.sends

/-! ### The handlers -/

/-- With the client closed, nothing is left to wait for once the SOCKS side goes. -/
theorem inv_clientFreeSocks_of_closed (h : c.Sound) (hclient : c.clientClosed = true)
    (hsocks : c.socksClosed = false) (hrecv : c.tcpRecv = false) (hsent : c.tcpSent = false)
    (herr : c.tcpErr = false) (closeOk : Bool) :
    ∃ c', c.clientFreeSocks closeOk = some c' ∧ c'.Inv := by
  have hclosed : c.freeSocks.clientClosed = true := hclient
  rw [clientFreeSocks, if_neg (by simp [hsocks])]
  dsimp only
  rw [if_neg (by simp [hclosed]), if_neg (by simp [hclosed])]
  exact inv_dealloc h.freeSocks hclosed rfl (by simp [freeSocks, hrecv]) hsent herr

theorem Inv.live_freeSocks (h : c.Inv) (hclient : c.clientClosed = false) : c.freeSocks.Live where
  toSound := h.toSound.freeSocks
  freed := (h.live hclient).freed
  notClosed := hclient
  notAborted := (h.live hclient).notAborted
  sends := by simp [freeSocks]

theorem Settled.tcpRecv_false (h : c.Settled) (hclient : c.clientClosed = true) :
    c.tcpRecv = false := by
  by_contra hrecv
  have hopen := (h.tcpRecv (by simpa using hrecv)).1
  rw [hclient] at hopen
  cases hopen

theorem Settled.tcpSent_false (h : c.Settled) (hclient : c.clientClosed = true) :
    c.tcpSent = false := by
  by_contra hsent
  have hopen := (h.tcpSent (by simpa using hsent)).1
  rw [hclient] at hopen
  cases hopen

theorem Settled.tcpErr_false (h : c.Settled) (hclient : c.clientClosed = true) :
    c.tcpErr = false := by
  rw [h.tcpErr, hclient, Bool.not_true]

theorem inv_clientFreeSocks (h : c.Inv) (hsocks : c.socksClosed = false) (closeOk : Bool) :
    ∃ c', c.clientFreeSocks closeOk = some c' ∧ c'.Inv := by
  cases hclient : c.clientClosed with
  | true =>
      exact inv_clientFreeSocks_of_closed h.toSound hclient hsocks (h.tcpRecv_false hclient)
        (h.tcpSent_false hclient) (h.tcpErr_false hclient) closeOk
  | false =>
      have hopen : c.freeSocks.clientClosed = false := hclient
      rw [clientFreeSocks, if_neg (by simp [hsocks])]
      dsimp only
      split
      · -- buffered data is still sent to the client
        rename_i hwait
        have hup : c.socksUp = true := hwait.1
        have hlinger : c.socksRecvBuf ≠ none ∨ 0 < c.socksRecvTcpPending := by
          simpa [freeSocks, Option.isSome_iff_ne_none] using hwait.2.1
        refine ⟨_, rfl, ⟨h.toSound.freeSocks, ?_, h.aborted, ?_, h.tcpSent, h.tcpErr, h.waiting,
          fun _ _ => ⟨hup, hlinger⟩, ?_⟩, ?_, ?_⟩
        · simpa [freeSocks, hclient] using (h.live hclient).freed
        · simp [freeSocks, hup, hclient]
        · simp [freeSocks]
        · simp [freeSocks]
        · simp [freeSocks]
      · rw [if_pos (by simp [hopen])]
        exact inv_freeClient (h.live_freeSocks hclient) closeOk

theorem settled_sendToSocks (h : c.Settled) (hup : c.socksUp = true)
    (hsocks : c.socksClosed = false) (hbuf : c.buf ≠ []) :
    Settled { c with sending := some c.buf.length } := by
  have hsending : ∀ n, some c.buf.length = some n →
      c.socksUp = true ∧ c.socksClosed = false ∧ 0 < n ∧ n ≤ c.buf.length := by
    intro n hn
    cases hn
    exact ⟨hup, hsocks, List.length_pos_of_ne_nil hbuf, Nat.le_refl _⟩
  exact ⟨⟨h.up, h.down, h.pending, h.window, h.early, hsending, h.receiving⟩,
    h.freed, h.aborted, h.tcpRecv, h.tcpSent, h.tcpErr, h.waiting, h.lingerDown, h.lingerUp⟩

theorem sendToSocks_eq (hup : c.socksUp = true) (hsocks : c.socksClosed = false)
    (hbuf : c.buf ≠ []) (hsending : c.sending = none) :
    c.sendToSocks = some { c with sending := some c.buf.length } :=
  if_pos ⟨by simp [hsocks], hup, hbuf, hsending⟩

/-- Nothing is sent where nothing is buffered. -/
theorem Sound.sending_none (h : c.Sound) (hbuf : c.buf = []) : c.sending = none := by
  cases hsending : c.sending with
  | none => rfl
  | some n =>
      obtain ⟨-, -, hpos, hle⟩ := h.sending n hsending
      rw [hbuf, List.length_nil] at hle
      omega

theorem inv_recvInitiate (h : c.Settled) (hclient : c.clientClosed = false)
    (hup : c.socksUp = true) (hsocks : c.socksClosed = false) (hnone : c.socksRecvBuf = none)
    (hreceiving : c.receiving = false)
    (hsends : c.buf ≠ [] → c.sending ≠ none) :
    ∃ c', c.recvInitiate = some c' ∧ c'.Inv := by
  refine ⟨{ c with receiving := true }, ?_, ?_⟩
  · exact if_pos ⟨by simp [hclient], by simp [hsocks], hup, hnone, by simp [hreceiving]⟩
  · exact ⟨⟨⟨h.up, h.down, h.pending, h.window, h.early, h.sending,
      fun _ => ⟨hup, hsocks, hnone⟩⟩, h.freed, h.aborted, h.tcpRecv, h.tcpSent,
      h.tcpErr, h.waiting, h.lingerDown, h.lingerUp⟩, fun _ _ => hsends, fun _ _ _ _ => rfl⟩

theorem inv_recvFunc (h : c.Inv) (hrecv : c.tcpRecv = true) {p : List UInt8} (hp : p ≠ [])
    (hfit : p.length ≤ c.window) (closeOk : Bool) :
    ∃ c', c.recvFunc closeOk (some p) = some c' ∧ c'.Inv := by
  have hclient := (h.tcpRecv hrecv).1
  have hwindow := h.window hclient
  have hroom : ¬ p.length > tcpWnd - c.buf.length := by omega
  have hne : c.buf ++ p ≠ [] := by simp [hp]
  have hsound : (c.bufAppend p).Sound := by
    refine ⟨?_, h.down, h.pending, ?_, h.early, ?_, h.receiving⟩
    · change c.sent ++ (c.buf ++ p) = c.delivered ++ p
      rw [← List.append_assoc, h.up]
    · intro _
      change c.window - p.length + (c.buf ++ p).length = tcpWnd
      rw [List.length_append]
      omega
    · intro n hn
      obtain ⟨hup, hsocks, hpos, hle⟩ := h.sending n hn
      refine ⟨hup, hsocks, hpos, ?_⟩
      calc n ≤ c.buf.length := hle
        _ ≤ (c.buf ++ p).length := by simp
  have hsettled : (c.bufAppend p).Settled :=
    ⟨hsound, h.freed, h.aborted, h.tcpRecv, h.tcpSent, h.tcpErr, h.waiting, h.lingerDown,
      fun _ _ => hne⟩
  rw [recvFunc, if_neg (by simp [hclient, hp]), if_neg hroom]
  dsimp only
  split
  · -- what was just received is all there is to send
    rename_i hfirst
    have hempty : c.buf = [] := by simpa [bufAppend] using hfirst.1
    have hsocks := (h.tcpRecv hrecv).2 hfirst.2
    have hsend := sendToSocks_eq (c := c.bufAppend p) hfirst.2 hsocks hne (h.sending_none hempty)
    exact ⟨_, hsend, settled_sendToSocks hsettled hfirst.2 hsocks hne, by simp, h.receives⟩
  · rename_i hmore
    refine ⟨_, rfl, hsettled, ?_, h.receives⟩
    intro hup hsocks _
    apply h.sends hup hsocks
    intro hempty
    exact hmore ⟨by simp [bufAppend, hempty], hup⟩

theorem inv_socksSendHandlerDone (h : c.Inv) {n len : Nat} (hsending : c.sending = some n)
    (hpos : 0 < len) (hle : len ≤ n) (closeOk : Bool) :
    ∃ c', c.socksSendHandlerDone closeOk len = some c' ∧ c'.Inv := by
  obtain ⟨hup, hsocks, -, hn⟩ := h.sending n hsending
  have hlen : len ≤ c.buf.length := Nat.le_trans hle hn
  have hsound : (c.bufRemove len).Sound := by
    refine ⟨?_, h.down, h.pending, ?_, h.early, by simp [bufRemove], h.receiving⟩
    · change (c.sent ++ c.buf.take len) ++ c.buf.drop len = c.delivered
      rw [List.append_assoc, List.take_append_drop, h.up]
    · intro hclient
      have hwindow := h.window hclient
      have hclient : c.clientClosed = false := hclient
      simp only [bufRemove, hclient, Bool.false_eq_true, if_false, List.length_drop]
      omega
  rw [socksSendHandlerDone, if_pos ⟨by simp [hsocks], hup, hpos, hlen⟩]
  dsimp only
  split
  · -- some data is left
    rename_i hbuf
    have hsettled : (c.bufRemove len).Settled :=
      ⟨hsound, h.freed, h.aborted, h.tcpRecv, h.tcpSent, h.tcpErr, h.waiting, h.lingerDown,
        fun _ _ => hbuf⟩
    exact ⟨_, rfl, settled_sendToSocks hsettled hup hsocks hbuf, by simp, h.receives⟩
  · rename_i hempty
    have hempty : (c.bufRemove len).buf = [] := by simpa using hempty
    split
    · rename_i hclient
      exact inv_clientFreeSocks_of_closed hsound hclient hsocks (h.tcpRecv_false hclient)
        (h.tcpSent_false hclient) (h.tcpErr_false hclient) closeOk
    · rename_i hclient
      refine ⟨_, rfl, ⟨hsound, h.freed, h.aborted, h.tcpRecv, h.tcpSent, h.tcpErr, h.waiting,
        h.lingerDown, ?_⟩, ?_, h.receives⟩
      · exact fun hclosed _ => absurd hclosed hclient
      · exact fun _ _ hbuf => absurd hempty hbuf

/-! ### Data for the app -/

/-- An open connection that is up, where data for the app is being passed on. -/
structure Passing (c : TcpClient) : Prop extends Live c where
  up_ : c.socksUp = true
  tcpRecv : c.tcpRecv = true → c.socksClosed = false
  tcpErr : c.tcpErr = true

theorem Inv.passing (h : c.Inv) (hclient : c.clientClosed = false) (hup : c.socksUp = true) :
    c.Passing where
  toLive := h.live hclient
  up_ := hup
  tcpRecv := fun hrecv => (h.tcpRecv hrecv).2 hup
  tcpErr := by rw [h.tcpErr, hclient, Bool.not_false]

/-- While data waits to be confirmed, the handlers leave a connection as it is to be. -/
theorem Passing.settled (h : c.Passing) (hpending : 0 < c.socksRecvTcpPending)
    (hwaiting : ∀ data, c.socksRecvBuf = some data →
      c.socksRecvBufSent < data.length ∧ c.socksRecvWaiting = true) : c.Settled where
  toSound := h.toSound
  freed := by rw [h.freed, h.notClosed, Bool.false_and]
  aborted := by simp [h.notAborted]
  tcpRecv := fun hrecv => ⟨h.notClosed, fun _ => h.tcpRecv hrecv⟩
  tcpSent := fun _ => ⟨h.notClosed, h.up_⟩
  tcpErr := by rw [h.tcpErr, h.notClosed, Bool.not_false]
  waiting := fun _ data hdata => ⟨(hwaiting data hdata).1, (hwaiting data hdata).2, hpending⟩
  lingerDown := fun _ _ => ⟨h.up_, Or.inr hpending⟩
  lingerUp := by simp [h.notClosed]

/-- The loop goes on from where it was, and not beyond the data. -/
theorem writeLoop_le (used : Nat) (writes : List (Nat × WriteResult)) :
    ∀ sent, sent ≤ used → sent ≤ (writeLoop used sent writes).1 ∧
      (writeLoop used sent writes).1 ≤ used := by
  induction writes with
  | nil => exact fun sent hle => ⟨Nat.le_refl _, hle⟩
  | cons w rest ih =>
      intro sent hle
      obtain ⟨sndbuf, result⟩ := w
      simp only [writeLoop]
      split
      · exact ⟨Nat.le_refl _, hle⟩
      · cases result with
        | mem => exact ⟨Nat.le_refl _, hle⟩
        | error => exact ⟨Nat.le_refl _, hle⟩
        | ok =>
            dsimp only
            split
            · rename_i hlt
              obtain ⟨hfrom, hto⟩ := ih _ (Nat.le_of_lt hlt)
              exact ⟨by omega, hto⟩
            · exact ⟨by omega, by omega⟩

theorem Passing.written (h : c.Passing) {data : List UInt8} (hdata : c.socksRecvBuf = some data)
    {sent : Nat} (hfrom : c.socksRecvBufSent ≤ sent) (hto : sent ≤ data.length) :
    (c.written data sent).Passing := by
  have hdown : (c.written data sent).taken ++ data.drop sent = c.received := by
    have hrest : c.taken ++ data.drop c.socksRecvBufSent = c.received := by
      simpa [unsent, hdata] using h.down
    calc (c.taken ++ (data.take sent).drop c.socksRecvBufSent) ++ data.drop sent
        = c.taken ++ ((data.take sent).drop c.socksRecvBufSent ++ data.drop sent) :=
          List.append_assoc ..
      _ = c.taken ++ data.drop c.socksRecvBufSent := by
          congr 1
          conv_rhs => rw [← List.take_append_drop sent data]
          rw [List.drop_append_of_le_length (by simp; omega)]
      _ = c.received := hrest
  have hpending : c.acked + (c.socksRecvTcpPending + (sent - c.socksRecvBufSent)) =
      (c.taken ++ (data.take sent).drop c.socksRecvBufSent).length := by
    have htaken := h.pending
    simp only [List.length_append, List.length_drop, List.length_take]
    omega
  refine ⟨⟨⟨h.up, ?_, hpending, h.window, ?_, h.sending, h.receiving⟩, h.freed, h.notClosed,
    h.notAborted, h.sends⟩, h.up_, h.tcpRecv, h.tcpErr⟩
  · simpa [unsent, TcpClient.written, hdata] using hdown
  · exact fun hearly => absurd (h.up_.symm.trans hearly) (by simp)

/-- Either an error ends the connection, or something waits for the app to confirm data, or
everything went out. -/
theorem recvSendOut_spec (h : c.Passing) {data : List UInt8} (hdata : c.socksRecvBuf = some data)
    (hsent : c.socksRecvBufSent < data.length) (hwaiting : c.socksRecvWaiting = false)
    (answers : TcpAnswers) :
    ∃ r, c.recvSendOut answers = some r ∧
      (r.2 = true ∧ r.1.Inv ∨
        r.2 = false ∧ r.1.Inv ∧ r.1.socksRecvBuf ≠ none ∧ 0 < r.1.socksRecvTcpPending ∨
        r = ({ c.written data data.length with socksRecvBuf := none }, false) ∧
          r.1.Settled ∧ 0 < r.1.socksRecvTcpPending) := by
  obtain ⟨hfrom, hto⟩ := writeLoop_le data.length answers.writes _ (Nat.le_of_lt hsent)
  have hpassing := h.written hdata hfrom hto
  rw [recvSendOut]
  simp only [hdata]
  rw [if_pos ⟨by simp [h.notClosed], h.up_, hsent, by simp [hwaiting]⟩]
  generalize (writeLoop data.length c.socksRecvBufSent answers.writes).1 = upto at *
  have habort : ∃ r, (c.written data upto).abortClient.map (·, true) = some r ∧
      r.2 = true ∧ r.1.Inv := by
    obtain ⟨c', hc', hinv⟩ := inv_abortClient hpassing.toLive
    exact ⟨(c', true), by rw [hc', Option.map_some], rfl, hinv⟩
  split
  · obtain ⟨r, hr, hflag, hinv⟩ := habort
    exact ⟨r, hr, Or.inl ⟨hflag, hinv⟩⟩
  · split
    · rename_i hrest
      split
      · obtain ⟨r, hr, hflag, hinv⟩ := habort
        exact ⟨r, hr, Or.inl ⟨hflag, hinv⟩⟩
      · rename_i hconfirm
        have hpending : 0 < (c.written data upto).socksRecvTcpPending := Nat.pos_of_ne_zero hconfirm
        have hwait : Passing { c.written data upto with socksRecvWaiting := true } :=
          ⟨⟨⟨hpassing.up, hpassing.down, hpassing.pending, hpassing.window, hpassing.early,
            hpassing.sending, hpassing.receiving⟩, hpassing.freed, hpassing.notClosed,
            hpassing.notAborted, hpassing.sends⟩, hpassing.up_, hpassing.tcpRecv, hpassing.tcpErr⟩
        have hbuf : (c.written data upto).socksRecvBuf = some data := hdata
        refine ⟨_, rfl, Or.inr (Or.inl ⟨rfl, ⟨hwait.settled hpending ?_, ?_, ?_⟩, ?_, hpending⟩)⟩
        · intro d hd
          cases hbuf.symm.trans hd
          exact ⟨hrest, rfl⟩
        · exact hpassing.sends
        · exact fun _ _ _ hnone => absurd (hbuf.symm.trans hnone) (by simp)
        · exact fun hnone => absurd (hbuf.symm.trans hnone) (by simp)
    · rename_i hall
      have hupto : upto = data.length := Nat.le_antisymm hto (Nat.le_of_not_lt hall)
      subst hupto
      have hpending : 0 < (c.written data data.length).socksRecvTcpPending := by
        change 0 < c.socksRecvTcpPending + (data.length - c.socksRecvBufSent)
        omega
      have hdone : Passing { c.written data data.length with socksRecvBuf := none } := by
        refine ⟨⟨⟨hpassing.up, ?_, hpassing.pending, hpassing.window, ?_, hpassing.sending, ?_⟩,
          hpassing.freed, hpassing.notClosed, hpassing.notAborted, hpassing.sends⟩, hpassing.up_,
          hpassing.tcpRecv, hpassing.tcpErr⟩
        · simpa [unsent, TcpClient.written, hdata] using hpassing.down
        · exact fun hearly => absurd (h.up_.symm.trans hearly) (by simp)
        · exact fun hr => ⟨(hpassing.receiving hr).1, (hpassing.receiving hr).2.1, rfl⟩
      exact ⟨_, rfl, Or.inr (Or.inr ⟨rfl, hdone.settled hpending (by simp), hpending⟩)⟩

theorem inv_socksRecvHandlerDone (h : c.Inv) (hreceiving : c.receiving = true)
    {data : List UInt8} (hne : data ≠ []) (hlen : data.length ≤ clientSocksRecvBufSize)
    (answers : TcpAnswers) :
    ∃ c', c.socksRecvHandlerDone answers data = some c' ∧ c'.Inv := by
  obtain ⟨hup, hsocks, hnone⟩ := h.receiving hreceiving
  rw [socksRecvHandlerDone, if_pos ⟨hne, hlen, by simp [hsocks], hup, hnone⟩]
  split
  · rename_i hclient
    refine ⟨_, rfl, ⟨⟨h.up, h.down, h.pending, h.window, h.early, h.sending, by simp⟩, h.freed,
      h.aborted, h.tcpRecv, h.tcpSent, h.tcpErr, h.waiting, h.lingerDown, h.lingerUp⟩, h.sends, ?_⟩
    exact fun hopen => absurd (hclient.symm.trans hopen) (by simp)
  · rename_i hclient
    have hclient : c.clientClosed = false := by simpa using hclient
    have hp := h.passing hclient hup
    have hpassing : (c.recvBufFill data).Passing := by
      refine ⟨⟨⟨h.up, ?_, h.pending, h.window, ?_, h.sending, by simp [recvBufFill]⟩, hp.freed, hclient,
        hp.notAborted, h.sends⟩, hup, hp.tcpRecv, hp.tcpErr⟩
      · have hdown := h.down
        simp only [unsent, hnone, List.append_nil] at hdown
        simp [unsent, recvBufFill, hdown]
      · exact fun hearly => absurd (hup.symm.trans hearly) (by simp)
    obtain ⟨r, hr, hcase⟩ := recvSendOut_spec hpassing rfl (List.length_pos_of_ne_nil hne) rfl answers
    rw [hr, Option.bind_some]
    obtain ⟨hflag, hinv⟩ | ⟨hflag, hinv, hbuf, -⟩ | ⟨rfl, hsettled, hpending⟩ := hcase
    · rw [if_pos hflag]
      exact ⟨_, rfl, hinv⟩
    · rw [if_neg (by simp [hflag]), if_neg hbuf]
      exact ⟨_, rfl, hinv⟩
    · rw [if_neg (by simp), if_pos rfl]
      exact inv_recvInitiate hsettled hclient hup hsocks rfl rfl (h.sends hup hsocks)

theorem inv_sentFunc (h : c.Inv) (hsent : c.tcpSent = true) {len : Nat} (hpos : 0 < len)
    (hle : c.acked + len ≤ c.taken.length) (answers : TcpAnswers) (closeOk : Bool) :
    ∃ c', c.sentFunc answers closeOk len = some c' ∧ c'.Inv := by
  obtain ⟨hclient, hup⟩ := h.tcpSent hsent
  have hp := h.passing hclient hup
  have hpend := h.pending
  have hconfirm : c.acked + len + (c.socksRecvTcpPending - len) = c.taken.length := by omega
  have hearly : c.socksUp = false →
      c.socksRecvBuf = none ∧ c.socksRecvTcpPending - len = 0 :=
    fun hearly => absurd (hup.symm.trans hearly) (by simp)
  have hsound : (c.confirmed len).Sound :=
    ⟨h.up, h.down, hconfirm, h.window, hearly, h.sending, h.receiving⟩
  rw [sentFunc, if_pos ⟨by simp [hclient], hup, hpos, by omega⟩]
  dsimp only
  split
  · rename_i hsome
    obtain ⟨data, hdata⟩ := Option.isSome_iff_exists.mp hsome
    obtain ⟨hless, hwait, -⟩ := h.waiting hclient data hdata
    rw [if_pos (show (c.confirmed len).socksRecvWaiting = true from hwait)]
    have hpassing : Passing { c.confirmed len with socksRecvWaiting := false } :=
      ⟨⟨⟨h.up, h.down, hconfirm, h.window, hearly, h.sending, h.receiving⟩, hp.freed, hclient,
        hp.notAborted, h.sends⟩, hup, hp.tcpRecv, hp.tcpErr⟩
    obtain ⟨r, hr, hcase⟩ := recvSendOut_spec hpassing hdata hless rfl answers
    rw [hr, Option.bind_some]
    obtain ⟨hflag, hinv⟩ | ⟨hflag, hinv, hbuf, hpending⟩ | ⟨rfl, hsettled, hpending⟩ := hcase
    · rw [if_pos hflag]
      exact ⟨_, rfl, hinv⟩
    · rw [if_neg (by simp [hflag]), if_neg (Nat.ne_of_gt hpending), if_neg (by simp [hbuf])]
      exact ⟨_, rfl, hinv⟩
    · rw [if_neg (by simp), if_neg (Nat.ne_of_gt hpending)]
      split
      · rename_i hmore
        have hsocks : c.socksClosed = false := (Bool.not_eq_true' _).mp hmore.2
        have hidle : c.receiving = false := by
          by_contra hr
          have hnone := (h.receiving (by simpa using hr)).2.2
          exact absurd (hnone.symm.trans hdata) (by simp)
        exact inv_recvInitiate hsettled hclient hup hsocks rfl hidle (h.sends hup hsocks)
      · rename_i hlast
        refine ⟨_, rfl, hsettled, h.sends, ?_⟩
        exact fun _ _ hsocks _ => absurd ⟨rfl, (Bool.not_eq_true' _).mpr hsocks⟩ hlast
  · rename_i hnone
    have hnone : c.socksRecvBuf = none := by simpa [confirmed] using hnone
    have hlive : (c.confirmed len).Live :=
      ⟨hsound, hp.freed, hclient, hp.notAborted, h.sends⟩
    split
    · exact inv_freeClient hlive closeOk
    · rename_i hrest
      refine ⟨_, rfl, ⟨hsound, h.freed, h.aborted, h.tcpRecv, h.tcpSent, h.tcpErr, ?_, ?_, ?_⟩,
        h.sends, h.receives⟩
      · exact fun _ data hdata => absurd (hnone.symm.trans hdata) (by simp)
      · exact fun _ hsocks => ⟨hup, Or.inr (Nat.pos_of_ne_zero (fun hz => hrest ⟨hsocks, hz⟩))⟩
      · exact h.lingerUp

/-- Once it is up, nothing has been received and nothing sent, as nothing could be. -/
theorem inv_socksHandlerUp (h : c.Inv) (hsocks : c.socksClosed = false) (hup : c.socksUp = false) :
    ∃ c', c.socksHandlerUp = some c' ∧ c'.Inv := by
  obtain ⟨hnone, hzero⟩ := h.early hup
  have hsending : c.sending = none := by
    cases hs : c.sending with
    | none => rfl
    | some n => exact absurd (hup.symm.trans (h.sending n hs).1) (by simp)
  have hreceiving : c.receiving = false := by
    by_contra hr
    exact absurd (hup.symm.trans (h.receiving (by simpa using hr)).1) (by simp)
  have hsettled : c.comeUp.Settled := by
    refine ⟨⟨h.up, ?_, ?_, h.window, by simp [comeUp], ?_, ?_⟩, h.freed, h.aborted, ?_, ?_, h.tcpErr,
      by simp [comeUp], ?_, h.lingerUp⟩
    · simpa [unsent, comeUp, hnone] using h.down
    · simpa [comeUp, hzero] using h.pending
    · simp [comeUp, hsending]
    · simp [comeUp, hreceiving]
    · exact fun hrecv => ⟨(h.tcpRecv hrecv).1, fun _ => hsocks⟩
    · intro hsent
      have hcase : c.tcpSent = true ∨ c.clientClosed = false := by simpa [comeUp] using hsent
      exact ⟨hcase.elim (fun hs => (h.tcpSent hs).1) id, rfl⟩
    · exact fun _ hclosed => absurd (hsocks.symm.trans hclosed) (by simp)
  rw [socksHandlerUp, if_pos ⟨by simp [hsocks], by simp [hup]⟩]
  dsimp only
  have hfirst : ∃ c₁, (if c.comeUp.buf ≠ [] then c.comeUp.sendToSocks else some c.comeUp) = some c₁ ∧
      c₁.Settled ∧ (c₁.buf ≠ [] → c₁.sending ≠ none) ∧ c₁.clientClosed = c.clientClosed ∧
      c₁.socksUp = true ∧ c₁.socksClosed = false ∧ c₁.socksRecvBuf = none ∧ c₁.receiving = false := by
    split
    · rename_i hbuf
      exact ⟨_, sendToSocks_eq rfl hsocks hbuf hsending, settled_sendToSocks hsettled rfl hsocks hbuf,
        by simp, rfl, rfl, hsocks, rfl, hreceiving⟩
    · rename_i hbuf
      exact ⟨_, rfl, hsettled, fun hne => absurd hne hbuf, rfl, rfl, hsocks, rfl, hreceiving⟩
  obtain ⟨c₁, heq, hset, hsends, hopen, hup₁, hsocks₁, hnone₁, hreceiving₁⟩ := hfirst
  rw [heq, Option.bind_some]
  split
  · rename_i hclient
    exact inv_recvInitiate hset (by simpa using hclient) hup₁ hsocks₁ hnone₁ hreceiving₁ hsends
  · rename_i hclient
    refine ⟨_, rfl, hset, fun _ _ => hsends, ?_⟩
    exact fun hopen₁ => absurd (by simp [hopen₁]) hclient

/-- A connection that was freed has no callback and no SOCKS client any more. -/
theorem Inv.freed_false (h : c.Inv) {e : RelayEvent} (hen : c.Enabled e) : c.freed = false := by
  by_contra hfreed
  have hclosed : c.clientClosed = true ∧ c.socksClosed = true := by
    simpa [h.freed] using hfreed
  obtain ⟨hclient, hsocks⟩ := hclosed
  cases e with
  | recv p closeOk =>
      have hrecv : c.tcpRecv = true := by
        cases p with
        | none => exact hen
        | some p => exact hen.1
      exact absurd (hrecv.symm.trans (h.tcpRecv_false hclient)) (by simp)
  | err => exact absurd (Eq.trans (Eq.symm hen) (h.tcpErr_false hclient)) (by simp)
  | sent len answers closeOk => exact absurd (hen.1.symm.trans (h.tcpSent_false hclient)) (by simp)
  | up => exact absurd hen.1 (by simp [hsocks])
  | error closeOk => exact absurd hen (by simp [Enabled, hsocks])
  | sendDone len closeOk =>
      obtain ⟨n, hn, -⟩ := hen
      exact absurd ((h.sending n hn).2.1.symm.trans hsocks) (by simp)
  | recvDone data answers =>
      exact absurd ((h.receiving hen.1).2.1.symm.trans hsocks) (by simp)

theorem inv_err (h : c.Inv) (herr : c.tcpErr = true) :
    ∃ c', c.removeCallbacks.handleFreedClient = some c' ∧ c'.Inv :=
  inv_handleFreedClient (h.live (by simpa [h.tcpErr] using herr)).leaving

/-- A step: an event that can happen is handled without a failed assertion. -/
theorem inv_handle (h : c.Inv) {e : RelayEvent} (hen : c.Enabled e) :
    ∃ c', c.handle e = some c' ∧ c'.Inv := by
  rw [handle.eq_def, if_neg (by simp [h.freed_false hen])]
  cases e with
  | recv p closeOk =>
      cases p with
      | none => exact inv_freeClient (h.live (h.tcpRecv hen).1) closeOk
      | some p => exact inv_recvFunc h hen.1 hen.2.1 hen.2.2 closeOk
  | err => exact inv_err h hen
  | sent len answers closeOk => exact inv_sentFunc h hen.1 hen.2.1 hen.2.2 answers closeOk
  | up => exact inv_socksHandlerUp h (by simpa using hen.1) (by simpa using hen.2)
  | error closeOk => exact inv_clientFreeSocks h (by simpa [Enabled] using hen) closeOk
  | sendDone len closeOk =>
      obtain ⟨n, hn, hpos, hle⟩ := hen
      exact inv_socksSendHandlerDone h hn hpos hle closeOk
  | recvDone data answers => exact inv_socksRecvHandlerDone h hen.1 hen.2.1 hen.2.2 answers

end TcpClient

/-! ## What is closed -/

namespace TcpClient

variable {c c' : TcpClient}

/-- Closing leaves the data for the SOCKS server, and that side stays as long as there is some. -/
structure Keeps (c c' : TcpClient) : Prop where
  buf : c'.buf = c.buf
  socksClosed : c'.socksClosed = true → c.socksClosed = true ∨ c.buf = []

/-- The app has confirmed everything that was received for it. -/
def Confirmed (c : TcpClient) : Prop :=
  c.socksRecvBuf = none ∧ c.socksRecvTcpPending = 0

/-- An orderly end of the client comes after that. -/
def Passed (c : TcpClient) : Prop :=
  c.clientClosed = true → c.aborted = false → c.Confirmed

/-- The SOCKS server has everything that was accepted from the app when its side is closed. -/
def SentAll (c : TcpClient) : Prop :=
  c.socksClosed = true → c.buf = []

theorem Keeps.sentAll (h : Keeps c c') (hall : c.SentAll) : c'.SentAll := by
  intro hclosed
  rw [h.buf]
  exact (h.socksClosed hclosed).elim hall id

theorem handleFreedClient_keeps (h : c.handleFreedClient = some c') :
    Keeps c c' ∧ c'.aborted = c.aborted ∧ (c.Confirmed → c'.Confirmed) := by
  grind [handleFreedClient, dealloc, freeSocks, Keeps, Confirmed]

theorem abortClient_keeps (h : c.abortClient = some c') : Keeps c c' ∧ c'.aborted = true := by
  rw [abortClient] at h
  split at h
  · cases h
  · obtain ⟨c₁, habort, hc₁⟩ := Option.bind_eq_some_iff.mp h
    obtain ⟨hkeeps, haborted, -⟩ := handleFreedClient_keeps hc₁
    have hpcb : c₁.buf = c.buf ∧ c₁.socksClosed = c.socksClosed ∧ c₁.aborted = true := by
      grind [abortPcb, removeCallbacks]
    obtain ⟨hbuf, hclosed, haborted₁⟩ := hpcb
    rw [haborted₁] at haborted
    exact ⟨⟨hkeeps.buf.trans hbuf, by simpa [hbuf, hclosed] using hkeeps.socksClosed⟩, haborted⟩

theorem freeClient_keeps {closeOk : Bool} (h : c.freeClient closeOk = some c') :
    Keeps c c' ∧ (c.Confirmed → c'.Passed) := by
  rw [freeClient] at h
  split at h
  · cases h
  · rename_i hopen
    split at h
    · obtain ⟨hkeeps, -, hconfirmed⟩ := handleFreedClient_keeps h
      exact ⟨⟨hkeeps.buf, hkeeps.socksClosed⟩, fun hc _ _ => hconfirmed hc⟩
    · have habort : c.abortClient = some c' := by rw [abortClient, if_neg hopen, h]
      obtain ⟨hkeeps, haborted⟩ := abortClient_keeps habort
      exact ⟨hkeeps, fun _ _ horderly => absurd (haborted.symm.trans horderly) (by simp)⟩

theorem clientFreeSocks_keeps {closeOk : Bool} (h : c.clientFreeSocks closeOk = some c')
    (hearly : c.socksUp = false → c.Confirmed) :
    c'.buf = c.buf ∧ (c.Passed → c'.Passed) := by
  rw [clientFreeSocks] at h
  split at h
  · cases h
  · dsimp only at h
    split at h
    · cases h
      exact ⟨rfl, id⟩
    · rename_i hstop
      split at h
      · rename_i hopen
        obtain ⟨hkeeps, hend⟩ := freeClient_keeps h
        refine ⟨hkeeps.buf, fun _ => hend ?_⟩
        cases hup : c.socksUp with
        | false => exact hearly hup
        | true =>
            by_contra hdata
            apply hstop ⟨hup, ?_, hopen⟩
            by_contra hnone
            apply hdata
            exact ⟨by simpa using fun h => hnone (Or.inl h),
              Nat.eq_zero_of_not_pos (fun hpos => hnone (Or.inr hpos))⟩
      · rename_i hclosed
        grind [freeSocks, dealloc, Passed, Confirmed]

theorem recvSendOut_keeps {answers : TcpAnswers} {r : TcpClient × Bool}
    (h : c.recvSendOut answers = some r) : Keeps c r.1 ∧ r.1.Passed := by
  have hend : ∀ c₁ : TcpClient, c₁.buf = c.buf → c₁.socksClosed = c.socksClosed →
      c₁.abortClient.map (·, true) = some r → Keeps c r.1 ∧ r.1.Passed := by
    intro c₁ hbuf hclosed hmap
    obtain ⟨c₂, habort, rfl⟩ := Option.map_eq_some_iff.mp hmap
    obtain ⟨hkeeps, haborted⟩ := abortClient_keeps habort
    refine ⟨⟨hkeeps.buf.trans hbuf, by simpa [hbuf, hclosed] using hkeeps.socksClosed⟩, ?_⟩
    exact fun _ horderly => absurd (haborted.symm.trans horderly) (by simp)
  rw [recvSendOut] at h
  split at h
  · cases h
  · split at h
    · rename_i hopen
      have hopen : c.clientClosed = false := by simpa using hopen.1
      have hstays : ∀ c₁ : TcpClient, c₁.clientClosed = c.clientClosed → c₁.Passed :=
        fun c₁ h₁ hclosed => absurd (hclosed.symm.trans (h₁.trans hopen)) (by simp)
      dsimp only at h
      split at h
      · exact hend (c.written _ _) rfl rfl h
      · split at h
        · split at h
          · exact hend (c.written _ _) rfl rfl h
          · cases h
            exact ⟨⟨rfl, Or.inl⟩, hstays _ rfl⟩
        · cases h
          exact ⟨⟨rfl, Or.inl⟩, hstays _ rfl⟩
    · cases h

theorem recvInitiate_keeps (h : c.recvInitiate = some c') :
    Keeps c c' ∧ (c.Passed → c'.Passed) := by
  rw [recvInitiate] at h
  split at h
  · cases h
    exact ⟨⟨rfl, Or.inl⟩, id⟩
  · cases h

/-- Only a connection that is open on both sides takes data of the app. -/
theorem Inv.socksClosed_false (h : c.Inv) (hrecv : c.tcpRecv = true) : c.socksClosed = false := by
  obtain ⟨hclient, hup⟩ := h.tcpRecv hrecv
  by_contra hsocks
  have hsocks : c.socksClosed = true := by simpa using hsocks
  exact absurd (hsocks.symm.trans (hup (h.lingerDown hclient hsocks).1)) (by simp)

theorem recvFunc_keeps (h : c.Inv) (hrecv : c.tcpRecv = true) {closeOk : Bool} {p : List UInt8}
    (hstep : c.recvFunc closeOk (some p) = some c') : c'.SentAll ∧ c'.Passed := by
  have hopen := (h.tcpRecv hrecv).1
  have hsame : c'.socksClosed = c.socksClosed ∧ c'.clientClosed = c.clientClosed := by
    grind [recvFunc, bufAppend, sendToSocks]
  constructor
  · exact fun hclosed =>
      absurd (hclosed.symm.trans (hsame.1.trans (h.socksClosed_false hrecv))) (by simp)
  · exact fun hclosed => absurd (hclosed.symm.trans (hsame.2.trans hopen)) (by simp)

/-- Data that fits the window fits the buffer. -/
theorem recvFunc_delivered (h : c.Inv) (hrecv : c.tcpRecv = true) {closeOk : Bool} {p : List UInt8}
    (hfit : p.length ≤ c.window) (hstep : c.recvFunc closeOk (some p) = some c') :
    c'.delivered = c.delivered ++ p := by
  have hwindow := h.window (h.tcpRecv hrecv).1
  have hroom : ¬ p.length > tcpWnd - c.buf.length := by omega
  rw [recvFunc] at hstep
  grind [bufAppend, sendToSocks]

theorem socksSendHandlerDone_keeps {closeOk : Bool} {len : Nat}
    (hstep : c.socksSendHandlerDone closeOk len = some c')
    (hearly : c.socksUp = false → c.Confirmed) :
    c'.SentAll ∧ (c.Passed → c'.Passed) := by
  rw [socksSendHandlerDone] at hstep
  split at hstep
  · rename_i hopen
    dsimp only at hstep
    have hsocks : ∀ c₁ : TcpClient, c₁.socksClosed = c.socksClosed → c₁.SentAll :=
      fun c₁ h₁ hclosed => absurd (hclosed.symm.trans h₁) (by simpa using hopen.1)
    split at hstep
    · cases hstep
      exact ⟨hsocks _ rfl, id⟩
    · rename_i hempty
      split at hstep
      · have hempty : (c.bufRemove len).buf = [] := by simpa using hempty
        obtain ⟨hbuf, hend⟩ := clientFreeSocks_keeps hstep hearly
        exact ⟨fun _ => hbuf.trans hempty, hend⟩
      · cases hstep
        exact ⟨hsocks _ rfl, id⟩
  · cases hstep

theorem socksRecvHandlerDone_keeps {answers : TcpAnswers} {data : List UInt8}
    (hstep : c.socksRecvHandlerDone answers data = some c') :
    (c.SentAll → c'.SentAll) ∧ (c.Passed → c'.Passed) := by
  rw [socksRecvHandlerDone] at hstep
  split at hstep
  · split at hstep
    · cases hstep
      exact ⟨id, id⟩
    · obtain ⟨r, hr, hstep⟩ := Option.bind_eq_some_iff.mp hstep
      obtain ⟨hkeeps, hend⟩ := recvSendOut_keeps hr
      have hall : c.SentAll → r.1.SentAll := Keeps.sentAll (c := c.recvBufFill data) hkeeps
      split at hstep
      · cases hstep
        exact ⟨hall, fun _ => hend⟩
      · split at hstep
        · obtain ⟨hkeeps', hend'⟩ := recvInitiate_keeps hstep
          exact ⟨fun h => hkeeps'.sentAll (hall h), fun _ => hend' hend⟩
        · cases hstep
          exact ⟨hall, fun _ => hend⟩
  · cases hstep

theorem sentFunc_keeps {answers : TcpAnswers} {closeOk : Bool} {len : Nat}
    (hstep : c.sentFunc answers closeOk len = some c') :
    (c.SentAll → c'.SentAll) ∧ c'.Passed := by
  rw [sentFunc] at hstep
  split at hstep
  · rename_i hopen
    dsimp only at hstep
    split at hstep
    · split at hstep
      · obtain ⟨r, hr, hstep⟩ := Option.bind_eq_some_iff.mp hstep
        obtain ⟨hkeeps, hend⟩ := recvSendOut_keeps hr
        have hall : c.SentAll → r.1.SentAll :=
          Keeps.sentAll (c := { c.confirmed len with socksRecvWaiting := false }) hkeeps
        split at hstep
        · cases hstep
          exact ⟨hall, hend⟩
        · split at hstep
          · cases hstep
          · split at hstep
            · obtain ⟨hkeeps', hend'⟩ := recvInitiate_keeps hstep
              exact ⟨fun h => hkeeps'.sentAll (hall h), hend' hend⟩
            · cases hstep
              exact ⟨hall, hend⟩
      · cases hstep
    · rename_i hnone
      split at hstep
      · rename_i hlast
        obtain ⟨hkeeps, hend⟩ := freeClient_keeps hstep
        exact ⟨Keeps.sentAll (c := c.confirmed len) hkeeps, hend ⟨by simpa using hnone, hlast.2⟩⟩
      · cases hstep
        refine ⟨id, fun hclosed => absurd hclosed ?_⟩
        simpa [confirmed] using hopen.1
  · cases hstep

theorem socksHandlerUp_keeps (hstep : c.socksHandlerUp = some c') :
    (c.SentAll → c'.SentAll) ∧ c'.Passed := by
  have hsame : c'.socksClosed = c.socksClosed ∧ c'.buf = c.buf ∧ c'.Confirmed := by
    grind [socksHandlerUp, comeUp, sendToSocks, recvInitiate, Confirmed]
  obtain ⟨hclosed, hbuf, hconfirmed⟩ := hsame
  exact ⟨fun hall h => hbuf.trans (hall (hclosed.symm.trans h)), fun _ _ => hconfirmed⟩

/-- Steps that are no error of the SOCKS client. -/
def NoError : RelayEvent → Prop
  | .error _ => False
  | _ => True

/-- Steps that do not take the client away: neither the end of its data nor an error of lwIP. -/
def NoEnd : RelayEvent → Prop
  | .recv none _ => False
  | .err => False
  | _ => True

/-- A step: only an error of the SOCKS client closes its side over data. -/
theorem sentAll_handle (h : c.Inv) {e : RelayEvent} (hen : c.Enabled e) (he : NoError e)
    (hstep : c.handle e = some c') (hall : c.SentAll) : c'.SentAll := by
  rw [handle.eq_def, if_neg (by simp [h.freed_false hen])] at hstep
  cases e with
  | recv p closeOk =>
      cases p with
      | none => exact (freeClient_keeps hstep).1.sentAll hall
      | some p => exact (recvFunc_keeps h hen.1 hstep).1
  | err => exact Keeps.sentAll (c := c.removeCallbacks) (handleFreedClient_keeps hstep).1 hall
  | sent len answers closeOk => exact (sentFunc_keeps hstep).1 hall
  | up => exact (socksHandlerUp_keeps hstep).1 hall
  | error closeOk => exact he.elim
  | sendDone len closeOk => exact (socksSendHandlerDone_keeps hstep h.early).1
  | recvDone data answers => exact (socksRecvHandlerDone_keeps hstep).1 hall

/-- A step: as long as lwIP does not end it, the client is closed in good order or aborted. -/
theorem passed_handle (h : c.Inv) {e : RelayEvent} (hen : c.Enabled e) (he : NoEnd e)
    (hstep : c.handle e = some c') (hpassed : c.Passed) : c'.Passed := by
  rw [handle.eq_def, if_neg (by simp [h.freed_false hen])] at hstep
  cases e with
  | recv p closeOk =>
      cases p with
      | none => exact he.elim
      | some p => exact (recvFunc_keeps h hen.1 hstep).2
  | err => exact he.elim
  | sent len answers closeOk => exact (sentFunc_keeps hstep).2
  | up => exact (socksHandlerUp_keeps hstep).2
  | error closeOk => exact (clientFreeSocks_keeps hstep h.early).2 hpassed
  | sendDone len closeOk => exact (socksSendHandlerDone_keeps hstep h.early).2 hpassed
  | recvDone data answers => exact (socksRecvHandlerDone_keeps hstep).2 hpassed

end TcpClient

/-! ## Every run -/

/-- A connection of an app, from its acceptance on. -/
def relay : Machine TcpClient RelayEvent where
  init := {}
  step c e := if c.Enabled e then c.handle e else none

theorem relay_step {c c' : TcpClient} {e : RelayEvent} (h : c.Inv)
    (hstep : relay.step c e = some c') : c.Enabled e ∧ c.handle e = some c' ∧ c'.Inv := by
  simp only [relay] at hstep
  split at hstep
  · rename_i hen
    obtain ⟨c₁, hc₁, hinv⟩ := TcpClient.inv_handle h hen
    cases hc₁.symm.trans hstep
    exact ⟨hen, hc₁, hinv⟩
  · cases hstep

theorem relay_inv {history : List (TcpClient × RelayEvent)} {c : TcpClient}
    (h : Run relay history c) : c.Inv := by
  have hkeep : ∀ c e c', TcpClient.Inv c → True → relay.step c e = some c' → c'.Inv :=
    fun _ _ _ hinv _ hstep => (relay_step hinv hstep).2.2
  exact h.invariant TcpClient.inv_init hkeep (fun _ _ => trivial)

/-- The SOCKS server goes away while two of three octets wait for the app to confirm them. -/
def serverGone : List RelayEvent :=
  [.recv (some [1, 2]) true, .up, .sendDone 2 true, .recvDone [7, 8, 9] ⟨[(2, .ok)], true⟩,
    .error true, .sent 2 ⟨[(10, .ok)], true⟩ true, .sent 1 ⟨[], true⟩ true]

/-- Nothing is lost, doubled or out of order in either direction.  The app never has more space to
fill than the buffer has, a connection is freed when both of its sides are closed and not before,
and a side that stays open alone still has something to deliver. -/
theorem relay_invariant {history : List (TcpClient × RelayEvent)} {c : TcpClient}
    (h : Run relay history c) :
    c.sent ++ c.buf = c.delivered ∧ c.taken ++ c.unsent = c.received ∧
      c.acked ≤ c.taken.length ∧
      (c.clientClosed = false → c.window + c.buf.length = tcpWnd) ∧
      (c.freed = true ↔ c.clientClosed = true ∧ c.socksClosed = true) ∧
      (c.clientClosed = true → c.socksClosed = false → c.sent.length < c.delivered.length) ∧
      (c.clientClosed = false → c.socksClosed = true → c.acked < c.received.length) := by
  have hinv := relay_inv h
  have hpending := hinv.pending
  refine ⟨hinv.up, hinv.down, by omega, hinv.window, ?_, ?_, ?_⟩
  · rw [hinv.freed, Bool.and_eq_true]
  · intro hclient hsocks
    have hbuf := List.length_pos_of_ne_nil (hinv.lingerUp hclient hsocks)
    have hlen := congrArg List.length hinv.up
    rw [List.length_append] at hlen
    omega
  · intro hclient hsocks
    have hpos : 0 < c.socksRecvTcpPending := by
      obtain ⟨-, hbuf | hpos⟩ := hinv.lingerDown hclient hsocks
      · obtain ⟨data, hdata⟩ := Option.ne_none_iff_exists'.mp hbuf
        exact (hinv.waiting hclient data hdata).2.2
      · exact hpos
    have hlen := congrArg List.length hinv.down
    rw [List.length_append] at hlen
    omega

theorem relay_invariant_serverGone :
    ∃ history c, relay.play serverGone = some (history, c) ∧ c.taken ++ c.unsent = c.received :=
  ⟨_, _, rfl, (relay_invariant (run_of_play relay serverGone rfl)).2.1⟩

/-- No assertion of a handler fails, no handler meets a connection that was freed, and data that fits
the window is accepted.  While both ends are there, the connection never stalls: data for the SOCKS
server is being sent, and a receive is under way unless the app has yet to confirm data. -/
theorem handle_isSome {history : List (TcpClient × RelayEvent)} {c : TcpClient}
    (h : Run relay history c) :
    (∀ e, c.Enabled e → c.freed = false ∧ ∃ c', c.handle e = some c' ∧
      ∀ p closeOk, e = .recv (some p) closeOk → c'.delivered = c.delivered ++ p) ∧
    (c.socksUp = true → c.socksClosed = false →
      (c.buf ≠ [] → c.sending.isSome = true) ∧
      (c.clientClosed = false → c.receiving = true ∨ c.acked < c.taken.length)) := by
  have hinv := relay_inv h
  constructor
  · intro e hen
    obtain ⟨c', hc', -⟩ := TcpClient.inv_handle hinv hen
    refine ⟨hinv.freed_false hen, c', hc', ?_⟩
    rintro p closeOk rfl
    rw [TcpClient.handle.eq_def, if_neg (by simp [hinv.freed_false hen])] at hc'
    exact TcpClient.recvFunc_delivered hinv hen.1 hen.2.2 hc'
  · intro hup hsocks
    have hpending := hinv.pending
    constructor
    · exact fun hbuf => Option.isSome_iff_ne_none.mpr (hinv.sends hup hsocks hbuf)
    · intro hclient
      cases hbuf : c.socksRecvBuf with
      | none => exact Or.inl (hinv.receives hclient hup hsocks hbuf)
      | some data =>
          have hpos := (hinv.waiting hclient data hbuf).2.2
          exact Or.inr (by omega)

theorem handle_isSome_serverGone :
    ∃ history c, relay.play (serverGone.take 6) = some (history, c) ∧ ∃ c', c.handle .err = some c' :=
  ⟨_, _, rfl, ((handle_isSome (run_of_play relay (serverGone.take 6) rfl)).1 .err rfl).2.imp
    (fun _ h => h.1)⟩

/-- Short of an error of the SOCKS client, that side is closed only after the SOCKS server has taken
everything that was accepted from the app.  Unless lwIP ends it or it is aborted, the other side is
closed only after the app has confirmed everything that was received for it. -/
theorem close_delivered {history : List (TcpClient × RelayEvent)} {c : TcpClient}
    (h : Run relay history c) :
    ((∀ p ∈ history, TcpClient.NoError p.2) → c.socksClosed = true → c.sent = c.delivered) ∧
    ((∀ p ∈ history, TcpClient.NoEnd p.2) → c.clientClosed = true → c.aborted = false →
      c.taken = c.received ∧ c.acked = c.received.length) := by
  have hinv := relay_inv h
  constructor
  · intro hok hclosed
    have hkeep : ∀ c e c', TcpClient.Inv c ∧ c.SentAll → TcpClient.NoError e →
        relay.step c e = some c' → c'.Inv ∧ c'.SentAll := by
      intro c e c' hc he hstep
      obtain ⟨hen, hrun, hinv'⟩ := relay_step hc.1 hstep
      exact ⟨hinv', TcpClient.sentAll_handle hc.1 hen he hrun hc.2⟩
    have hall : c.SentAll :=
      (h.invariant (I := fun c => c.Inv ∧ c.SentAll) ⟨TcpClient.inv_init, nofun⟩ hkeep hok).2
    have hup := hinv.up
    rwa [hall hclosed, List.append_nil] at hup
  · intro hok hclosed horderly
    have hkeep : ∀ c e c', TcpClient.Inv c ∧ c.Passed → TcpClient.NoEnd e →
        relay.step c e = some c' → c'.Inv ∧ c'.Passed := by
      intro c e c' hc he hstep
      obtain ⟨hen, hrun, hinv'⟩ := relay_step hc.1 hstep
      exact ⟨hinv', TcpClient.passed_handle hc.1 hen he hrun hc.2⟩
    have hpassed : c.Passed :=
      (h.invariant (I := fun c => c.Inv ∧ c.Passed) ⟨TcpClient.inv_init, nofun⟩ hkeep hok).2
    obtain ⟨hnone, hzero⟩ := hpassed hclosed horderly
    have htaken : c.taken = c.received := by simpa [TcpClient.unsent, hnone] using hinv.down
    refine ⟨htaken, ?_⟩
    rw [← htaken, ← hinv.pending, hzero, Nat.add_zero]

theorem close_delivered_serverGone :
    ∃ history c, relay.play serverGone = some (history, c) ∧ c.taken = c.received :=
  ⟨_, _, rfl, ((close_delivered (run_of_play relay serverGone rfl)).2
    (forall_of_play relay serverGone rfl (by simp [serverGone, TcpClient.NoEnd])) rfl rfl).1⟩

end Tun
end SpinVpn
