import Mathlib.Data.List.Basic
import SpinVpn.Lib.Machine
import SpinVpn.Database.Profile

/-!
# Service — the background service and its coroutines

`BaseService.Interface` with the three services that implement it (`ProxyService`, `VpnService`,
`TransproxyService`).  Everything here runs on the main thread, so one event is one task of the
main looper:

* a callback (`onStartCommand`, `forceLoad`, a call of `stopRunner`), or
* the continuation of a suspended coroutine, which runs until it suspends again or ends.

`onStartCommand` launches the *connecting coroutine*; `stopRunner` launches the *stop coroutine*.
The body of the connecting coroutine is a list of statements (`connect`), and a resumed coroutine
is given an `Outcome` for every statement it reaches.  Cancelling only marks a coroutine; it
notices at its next resumption.

Resources get fresh numbers, and `pools` and `workers` list the ones created and not yet closed.
-/

namespace SpinVpn
namespace Bg

open Database

inductive State
  | idle
  | connecting
  | connected
  | stopping
  | stopped
  deriving DecidableEq, Repr

def State.canStop : State → Bool
  | .connecting => true
  | .connected => true
  | _ => false

/-- Which class implements the service. -/
inductive Mode
  | proxy
  | vpn
  | transproxy
  deriving DecidableEq, Repr

/-! ## The connecting coroutine's body -/

inductive Stmt
  /-- `Executable.killAll()` -/
  | killAll
  /-- `preInit()` -/
  | preInit
  /-- `Acl.customRules.flatten(..)` and `Acl.save`, on the IO dispatcher -/
  | flattenRules
  /-- `data.processes = GuardedProcessPool { .. }` -/
  | newPool
  /-- `worker = ProtectWorker().apply { start() }` -/
  | newProtectWorker
  /-- `startRedsocksDaemon()` -/
  | startRedsocks
  /-- `data.proxy!!.start(..)` -/
  | startProxy
  /-- the plugin check and start of `udpFallback` -/
  | startUdpFallback
  /-- `data.localDns = LocalDnsWorker(..).apply { start() }` -/
  | newLocalDns
  /-- `startVpn()` up to `active = true` -/
  | configureVpn
  /-- `conn = builder.establish()` -/
  | establish
  /-- `data.processes!!.start(cmd, ..)` for tun2socks -/
  | startTun2socks
  /-- `sendFd(..)` with its delays -/
  | sendFd
  /-- `data.proxy!!.scheduleUpdate()` and that of `udpFallback` -/
  | scheduleUpdate
  /-- `data.changeState(State.Connected)` -/
  | publishConnected
  deriving DecidableEq, Repr

/-- `Interface.startProcesses` -/
def startProcessesBase : List Stmt :=
  [.startProxy, .startUdpFallback, .newLocalDns]

def startProcesses : Mode → List Stmt
  | .proxy => startProcessesBase
  | .vpn =>
      [.newProtectWorker] ++ startProcessesBase ++
        [.configureVpn, .establish, .startTun2socks, .sendFd]
  | .transproxy => [.startRedsocks] ++ startProcessesBase

def customRules : String := "custom-rules"

/-- The statements of the `try` block that `onStartCommand` launches. -/
def connect (mode : Mode) (profile : Profile) : List Stmt :=
  [.killAll, .preInit] ++ (if profile.route = customRules then [.flattenRules] else []) ++
    [.newPool] ++ startProcesses mode ++ [.scheduleUpdate, .publishConnected]

/-- The statements in which the coroutine can suspend. -/
def Stmt.canSuspend : Stmt → Bool
  | .preInit => true
  | .flattenRules => true
  | .sendFd => true
  | _ => false

def Stmt.canThrow : Stmt → Bool
  | .newPool => false
  | .publishConnected => false
  | _ => true

/-! ## State of the service -/

structure Data where
  state : State := .stopped
  processes : Option Nat := none
  proxy : Option Profile := none
  udpFallback : Option Profile := none
  localDns : Option Nat := none
  notification : Option String := none
  closeReceiverRegistered : Bool := false
  connectingJob : Option Nat := none
  deriving DecidableEq, Repr

/-- The private fields of `VpnService` that `killProcesses` clears. -/
structure Vpn where
  worker : Option Nat := none
  conn : Option Nat := none
  active : Bool := false
  deriving DecidableEq, Repr

/-- A connecting coroutine that has not completed. -/
structure Connecting where
  id : Nat
  /-- `false` until the dispatcher first runs it -/
  started : Bool
  cancelled : Bool
  /-- what is left to do; the head is the statement it is suspended in -/
  rest : List Stmt
  deriving DecidableEq, Repr

inductive StopPhase
  /-- suspended in `connectingJob.cancelAndJoin()` -/
  | joining (job : Nat)
  /-- suspended at the end of `coroutineScope`, waiting for the clean-up of the resources -/
  | cleaning
  deriving DecidableEq, Repr

/-- A stop coroutine that has not completed. -/
structure Stop where
  id : Nat
  restart : Bool
  msg : Option String
  phase : StopPhase
  deriving DecidableEq, Repr

structure Service where
  data : Data := {}
  vpn : Vpn := {}
  jobs : List Connecting := []
  stops : List Stop := []
  pools : List Nat := []
  workers : List Nat := []
  next : Nat := 0
  /-- how often `startRunner` has asked the system to start the service -/
  startRequests : Nat := 0
  deriving DecidableEq, Repr

def Service.isLive (s : Service) (job : Nat) : Bool :=
  s.jobs.any (fun j => j.id == job)

/-! ## Data.changeState, killProcesses, stopRunner -/

def changeState (st : State) (msg : Option String) (s : Service) : Service :=
  -- a message is reported even if the state stays the same
  if s.data.state = st ∧ msg = none then s
  else { s with data := { s.data with state := st } }

def closed (resource : Option Nat) (created : List Nat) : List Nat :=
  match resource with
  | none => created
  | some n => created.filter (fun m => m != n)

/-- `killProcesses`, with what `VpnService` adds to it. -/
def killProcesses (s : Service) : Service :=
  { s with
    pools := closed s.data.processes s.pools
    workers := closed s.data.localDns s.workers
    data := { s.data with processes := none, localDns := none }
    vpn := {} }

/-- The `coroutineScope` block of the stop coroutine, up to the wait for its children. -/
def cleanUp (s : Service) : Service :=
  -- `shutdown` of the proxies and the clean-up of the notification have no other effect on the data
  let s := killProcesses s
  { s with
    data := { s.data with
      closeReceiverRegistered := false
      notification := none
      proxy := none
      udpFallback := none } }

/-- `connectingJob.cancel()` -/
def cancelJob (job : Nat) (s : Service) : Service :=
  { s with jobs := s.jobs.map (fun j => if j.id = job then { j with cancelled := true } else j) }

def addStop (restart : Bool) (msg : Option String) (phase : StopPhase) (s : Service) : Service :=
  { s with
    stops := s.stops ++ [{ id := s.next, restart := restart, msg := msg, phase := phase }]
    next := s.next + 1 }

/-- The stop coroutine's first block: it runs at once, and only waits for a live job. -/
def launchStop (restart : Bool) (msg : Option String) (s : Service) : Service :=
  match s.data.connectingJob with
  | none => cleanUp (addStop restart msg .cleaning s)
  | some job =>
      -- `cancelAndJoin` suspends only if the job has not completed
      if s.isLive job then cancelJob job (addStop restart msg (.joining job) s)
      else cleanUp (addStop restart msg .cleaning s)

def stopRunner (restart : Bool) (msg : Option String) (s : Service) : Service :=
  -- a stop is under way already
  if s.data.state = .stopping then s
  else launchStop restart msg (changeState .stopping none s)

def startRunner (s : Service) : Service :=
  { s with startRequests := s.startRequests + 1 }

def forceLoad (s : Service) : Service :=
  if s.data.state = .stopped then startRunner s
  else if s.data.state.canStop then stopRunner true none s
  -- Stopping: logged as illegal and ignored
  else s

/-! ## onStartCommand -/

def profileEmpty : String := "Please select a profile"

def serviceFailed : String := "Failed to connect the remote server"

/-- Register the receiver, show the notification and launch the connecting coroutine.  The
constructor of `ProxyInstance` checks nothing, so the `catch` around it is never entered. -/
def launchConnecting (mode : Mode) (profile : Profile) (s : Service) : Service :=
  { s with
    data := { s.data with
      proxy := some profile
      udpFallback := none
      closeReceiverRegistered := true
      notification := some profile.formattedName
      connectingJob := some s.next }
    jobs := s.jobs ++
      [{ id := s.next, started := false, cancelled := false, rest := connect mode profile }]
    next := s.next + 1 }

def onStartCommand (mode : Mode) (currentProfile : Option Profile) (s : Service) : Service :=
  -- the only guard; nothing on the way to `publishConnected` changes the state
  if s.data.state ≠ .stopped then s
  else
    match currentProfile with
    | none =>
        stopRunner false (some profileEmpty)
          { s with data := { s.data with notification := some "" } }
    | some profile => launchConnecting mode profile s

/-! ## Running the connecting coroutine -/

/-- A `!!` of the statement meets a null field, so that it can only throw. -/
def Stmt.isNull (d : Data) : Stmt → Bool
  | .startProxy => d.proxy.isNone || d.processes.isNone
  | .startRedsocks => d.processes.isNone
  | .configureVpn => d.proxy.isNone
  | .startTun2socks => d.processes.isNone
  | .scheduleUpdate => d.proxy.isNone
  | _ => false

def Stmt.effect (s : Service) : Stmt → Service
  | .newPool =>
      { s with
        data := { s.data with processes := some s.next }
        pools := s.pools ++ [s.next]
        next := s.next + 1 }
  | .newLocalDns =>
      { s with
        data := { s.data with localDns := some s.next }
        workers := s.workers ++ [s.next]
        next := s.next + 1 }
  | .newProtectWorker =>
      { s with vpn := { s.vpn with worker := some s.next }, next := s.next + 1 }
  | .configureVpn => { s with vpn := { s.vpn with active := true } }
  | .establish => { s with vpn := { s.vpn with conn := some s.next }, next := s.next + 1 }
  | .publishConnected => changeState .connected none s
  | _ => s

inductive Outcome
  | ok
  | suspend
  | throw (msg : String)
  deriving DecidableEq, Repr

/-- How a block of the coroutine ends. -/
inductive Ended
  | suspended (rest : List Stmt)
  | finished
  | threw (msg : String)
  deriving DecidableEq, Repr

def exec : List Stmt → List Outcome → Service → Option (Ended × Service)
  | [], [], s => some (.finished, s)
  | st :: rest, .ok :: os, s =>
      -- the statement succeeds and the block goes on
      if st.isNull s.data then none else exec rest os (st.effect s)
  | st :: rest, [.suspend], s =>
      -- the suspended statement stays at the head, to be completed at the next resumption
      if st.canSuspend then some (.suspended (st :: rest), s) else none
  -- the outcome list ends with the statement that ends the block
  | st :: _, [.throw msg], s =>
      if st.canThrow then some (.threw msg, s) else none
  | _, _, _ => none

def removeJob (job : Nat) (s : Service) : Service :=
  { s with jobs := s.jobs.filter (fun j => j.id != job) }

/-- `finally { data.connectingJob = null }`, and the coroutine completes. -/
def complete (job : Nat) (s : Service) : Service :=
  removeJob job { s with data := { s.data with connectingJob := none } }

def fail (job : Nat) (msg : String) (s : Service) : Service :=
  complete job (stopRunner false (some (serviceFailed ++ ": " ++ msg)) s)

def suspendJob (job : Nat) (rest : List Stmt) (s : Service) : Service :=
  { s with
    jobs := s.jobs.map (fun j => if j.id = job then { j with started := true, rest := rest } else j) }

/-- The dispatcher runs the continuation of `j`. -/
def resume (j : Connecting) (outcomes : List Outcome) (s : Service) : Option Service :=
  if j.cancelled then
    match j.started, outcomes with
    -- cancelled before its first dispatch: the body, `finally` included, never runs
    | false, [] => some (removeJob j.id s)
    | true, [] => some (complete j.id s)
    -- a failure inside `withContext` takes precedence over the cancellation
    | true, [.throw msg] => some (fail j.id msg s)
    | _, _ => none
  else
    match exec j.rest outcomes s with
    | none => none
    | some (.suspended rest, t) => some (suspendJob j.id rest t)
    | some (.finished, t) => some (complete j.id t)
    | some (.threw msg, t) => some (fail j.id msg t)

/-! ## Running the stop coroutine -/

def setCleaning (stop : Nat) (s : Service) : Service :=
  { s with
    stops := s.stops.map (fun k => if k.id = stop then { k with phase := .cleaning } else k) }

/-- `cancelAndJoin` returns once the job has completed. -/
def joined (k : Stop) (s : Service) : Option Service :=
  match k.phase with
  | .cleaning => none
  | .joining job => if s.isLive job then none else some (cleanUp (setCleaning k.id s))

/-- The clean-up is over: publish `Stopped`, then restart or stop the service. -/
def cleaned (k : Stop) (s : Service) : Option Service :=
  match k.phase with
  | .joining _ => none
  | .cleaning =>
      -- the stop coroutine is over; `startRunner` only asks for a new `onStartCommand`
      let s := changeState .stopped k.msg
        { s with stops := s.stops.filter (fun k' => k'.id != k.id) }
      some (if k.restart then startRunner s else s)

/-! ## The machine -/

inductive Event
  | onStartCommand (currentProfile : Option Profile)
  | forceLoad
  | stopRunner (restart : Bool) (msg : Option String)
  | resume (job : Nat) (outcomes : List Outcome)
  | joined (stop : Nat)
  | cleaned (stop : Nat)
  deriving DecidableEq, Repr

def step (mode : Mode) (s : Service) : Event → Option Service
  | .onStartCommand p => some (onStartCommand mode p s)
  | .forceLoad => some (forceLoad s)
  | .stopRunner restart msg => some (stopRunner restart msg s)
  | .resume job outcomes =>
      (s.jobs.find? (fun j => j.id == job)).bind (fun j => resume j outcomes s)
  | .joined stop => (s.stops.find? (fun k => k.id == stop)).bind (fun k => joined k s)
  | .cleaned stop => (s.stops.find? (fun k => k.id == stop)).bind (fun k => cleaned k s)

def machine (mode : Mode) : EventMachine.Machine Service Event where
  init := {}
  step := step mode

end Bg
end SpinVpn
