import Mathlib.Data.List.Basic
import SpinVpn.Lib.Machine
import SpinVpn.Bg.Service
import SpinVpn.Main.Connection

/-!
# App — the toggle, from the button to the connector

`SpinViewModel`, `BaseConnector` with its companion object, and `ShadowsockConnector`, for one
`SpinActivity` with the observers it registers.  Everything here runs on the main thread; one
event is one callback.

A *toggle* is what `prepareToggleConnection` prepares.  It waits in the connect animator
(`mConnectJob`), possibly for a connect ad, and is then handed to the connector by way of the
`doToggleConnection` live data.  A live data value set while the activity is not started waits
for the next start, and a later value replaces it.

Toggles are numbered; `executed` and `rolledBack` record what happened to them.  Progress bars,
texts and ad bookkeeping are left out.

The animator is a `ValueAnimator` from 0 to 100, of which it is assumed that its last frame and no
other one has the value 100.  `onPause` and `onResume` pause and resume it.  That is not modelled:
here there may be frames while the activity is stopped as well, so that there are more runs.
-/

namespace SpinVpn
namespace Main

structure Toggle where
  id : Nat
  forConnect : Bool
  deriving DecidableEq, Repr

/-- The connect animator.  `ended` is set by its last frame, after which it sends no more. -/
structure Animator where
  toggle : Toggle
  ended : Bool := false
  deriving DecidableEq, Repr

/-- The polling coroutine of `connectServiceInternal`. -/
structure ConnectServiceJob where
  toggle : Toggle
  connectConsumeTime : Nat := 0
  deriving DecidableEq, Repr

structure App where
  -- companion object of `BaseConnector`
  state : ConnectState := .stopped
  connectData : MConnection := SmartConnection
  preConnectData : MConnection := SmartConnection
  /-- `connectTimeJob` is running -/
  timer : Bool := false
  mConnectTime : Int := 0
  preConnectTime : Int := 0
  -- the connector
  /-- the service connection is bound -/
  bound : Bool := true
  shadowsockState : Bg.State := .idle
  /-- `permissionCallback` is set -/
  permissionCallback : Bool := false
  connectServiceJob : Option ConnectServiceJob := none
  -- `SpinViewModel`
  mConnector : Bool := true
  mConnection : MConnection := SmartConnection
  mNewConnection : Option MConnection := none
  mConnectJob : Option Animator := none
  clickable : Bool := true
  -- live data and ads
  /-- the activity is started, so that its observers are active -/
  active : Bool := true
  pendingAd : Option Toggle := none
  pendingToggle : Option Toggle := none
  pendingResult : Bool := false
  /-- connect ads on show -/
  ads : List Toggle := []
  /-- running coroutines of the `startResultActivity` observer -/
  results : Nat := 0
  -- bookkeeping
  next : Nat := 0
  executed : List Nat := []
  rolledBack : List Nat := []
  deriving DecidableEq, Repr

/-! ## Companion object of BaseConnector -/

/-- The setter of `connectData`, with the view model's `onConnectionChanged`. -/
def setConnectData (c : MConnection) (a : App) : App :=
  { a with connectData := c, mConnection := if a.mConnector then c else a.mConnection }

def startTimer (a : App) : App :=
  { a with timer := true }

def stopTimer (isReset : Bool) (a : App) : App :=
  { a with
    timer := false
    preConnectTime := if isReset then a.preConnectTime else a.mConnectTime
    mConnectTime := 0 }

def onConnected (a : App) : App :=
  startTimer { a with preConnectData := a.connectData }

def onDisconnected (a : App) : App :=
  stopTimer false a

def canStop (a : App) : Bool :=
  a.state == .connected

def isConnected (a : App) : Bool :=
  a.shadowsockState == .connected

/-! ## Executing a toggle -/

def changeConnectDataReally (a : App) : App :=
  match a.mNewConnection with
  | none => a
  | some c => { setConnectData c a with mNewConnection := none }

/-- `startResultActivity.value = ..`: its observer waits 300 ms and then sets `clickable`. -/
def postResult (a : App) : App :=
  if a.active then { a with results := a.results + 1 } else { a with pendingResult := true }

/-- The `onStartResult` callback that the view model passes to the connector. -/
def onStartResult (forConnect connected : Bool) (a : App) : App :=
  if forConnect == connected then postResult a else { a with clickable := true }

def connectServiceInternal (t : Toggle) (a : App) : App :=
  { stopTimer true a with connectServiceJob := some { toggle := t } }

def disconnectServiceInternal (a : App) : App :=
  onStartResult false false (onDisconnected { a with state := .stopped })

/-- `BaseConnector.doToggleConnection` -/
def connectorToggle (t : Toggle) (a : App) : App :=
  let a := { a with executed := a.executed ++ [t.id] }
  if t.forConnect then connectServiceInternal t a else disconnectServiceInternal a

/-- `SpinViewModel.doToggleConnection` -/
def doToggleConnection (t : Toggle) (a : App) : App :=
  let a := changeConnectDataReally a
  if a.mConnector then connectorToggle t a else a

/-- `doToggleConnection.value = ..` -/
def postToggle (t : Toggle) (a : App) : App :=
  if a.active then doToggleConnection t a else { a with pendingToggle := some t }

/-- `showConnectAd.value = ..` -/
def postAd (t : Toggle) (a : App) : App :=
  if a.active then { a with ads := a.ads ++ [t] } else { a with pendingAd := some t }

/-! ## Preparing a toggle -/

def destroyConnectJob (a : App) : App :=
  { a with mConnectJob := none }

def prepareToggleConnection (forConnect : Bool) (a : App) : App :=
  { a with
    clickable := false
    state := if forConnect then .connecting else .stopping
    mConnectJob := some { toggle := { id := a.next, forConnect := forConnect } }
    next := a.next + 1 }

/-- The callback that `openConnection` passes to `checkPermission`. -/
def onPermission (granted : Bool) (a : App) : App :=
  if granted then prepareToggleConnection true a else changeConnectDataReally a

/-- What the system answers when a connection is opened. -/
structure Environment where
  /-- `NetworkUtils.isConnected()` -/
  network : Bool := true
  /-- `VpnService.prepare(context) == null` -/
  prepared : Bool := true
  deriving DecidableEq, Repr

def checkPermission (env : Environment) (a : App) : App :=
  if env.prepared then onPermission true a else { a with permissionCallback := true }

def openConnection (env : Environment) (a : App) : App :=
  if !env.network then changeConnectDataReally a
  else if !a.mConnector then a
  else if isConnected a then a
  else checkPermission env a

def closeConnection (a : App) : App :=
  prepareToggleConnection false a

def toggleConnection (env : Environment) (a : App) : App :=
  if !a.mConnector then a
  else if canStop a then closeConnection a
  else openConnection env a

def linkVpn (env : Environment) (a : App) : App :=
  if !a.mConnector then a
  else if canStop a then a
  else openConnection env a

inductive Action
  | connect
  | disconnect
  deriving DecidableEq, Repr

def setNewConnectData (env : Environment) (c : MConnection) (action : Action) (a : App) : App :=
  let a := { a with mNewConnection := some c, mConnection := c }
  match action with
  | .connect => openConnection env a
  | .disconnect => closeConnection a

/-! ## Animator frames -/

/-- One frame of the connect animator; `ad` tells whether a connect ad is loaded. -/
def onFrame (an : Animator) (progress : Nat) (ad : Bool) (a : App) : App :=
  if 20 ≤ progress ∧ progress ≤ 99 then
    if ad then postAd an.toggle (destroyConnectJob a) else a
  else if 100 ≤ progress then
    -- the last frame: the animator ends, but `mConnectJob` keeps referring to it
    postToggle an.toggle { a with mConnectJob := some { an with ended := true } }
  else a

/-! ## Interception -/

def resumeConnection (a : App) : App :=
  match a.state with
  | .connecting => { a with state := .stopped }
  | .stopping => { a with state := .connected }
  | _ => a

def interceptToggleConnection (a : App) : App :=
  match a.mConnectJob with
  | none => a
  | some an =>
      let a := resumeConnection (destroyConnectJob a)
      let a :=
        match a.mNewConnection with
        | none => a
        | some _ => { a with mNewConnection := none, mConnection := a.preConnectData }
      { a with clickable := true, rolledBack := a.rolledBack ++ [an.toggle.id] }

/-- The activity goes for good: its observers are removed, the connection is dropped and the
coroutines of its `lifecycleScope` are cancelled. -/
def onDestroy (a : App) : App :=
  { interceptToggleConnection a with
    mConnector := false
    bound := false
    active := false
    connectServiceJob := none
    results := 0 }

/-! ## The connector's coroutine -/

def maxWaitTime : Nat := 10000

/-- The end of the polling loop. -/
def connectResult (a : App) : App :=
  let a := { a with connectServiceJob := none }
  if isConnected a then onStartResult true true (onConnected { a with state := .connected })
  else onStartResult true false (onDisconnected { a with state := .stopped })

/-- One round of the polling loop. -/
def poll (job : ConnectServiceJob) (a : App) : App :=
  let time := if isConnected a then maxWaitTime else job.connectConsumeTime + 500
  let a := { a with connectServiceJob := some { job with connectConsumeTime := time } }
  if time < maxWaitTime then a else connectResult a

/-! ## Service events -/

/-- `serviceStateCallback` with the view model's `resumeConnectedState`. -/
def serviceStateCallback (serviceConnected : Bool) (a : App) : App :=
  if serviceConnected && isConnected a then { a with mConnection := a.connectData } else a

def stateChanged (st : Bg.State) (a : App) : App :=
  { a with shadowsockState := st }

def onServiceConnected (st : Bg.State) (a : App) : App :=
  let a := { a with shadowsockState := st }
  let a :=
    match st with
    | .connected => onConnected { a with state := .connected }
    | .stopped => stopTimer true { a with state := .stopped }
    | _ => a
  serviceStateCallback true a

def onServiceDisconnected (a : App) : App :=
  serviceStateCallback false (stopTimer true { a with state := .stopped })

/-! ## Activity life cycle -/

/-- The observers become active and get the last value they have not seen. -/
def onStart (a : App) : App :=
  let a := { a with active := true }
  let a := if a.pendingResult then { a with pendingResult := false, results := a.results + 1 } else a
  let a :=
    match a.pendingAd with
    | none => a
    | some t => { a with pendingAd := none, ads := a.ads ++ [t] }
  match a.pendingToggle with
  | none => a
  | some t => doToggleConnection t { a with pendingToggle := none }

/-! ## The machine -/

inductive Event
  | toggleConnection (env : Environment)
  | linkVpn (env : Environment)
  | onActivityResult (env : Environment) (c : MConnection) (action : Action)
  | permissionResult (granted : Bool)
  | frame (progress : Nat) (ad : Bool)
  | adCompleted (toggle : Nat)
  | intercept
  | onStart
  | onStop
  | onDestroy
  | poll
  | resultShown
  | timerTick
  | stateChanged (st : Bg.State)
  | onServiceConnected (st : Bg.State)
  | onServiceDisconnected
  | onBinderDied
  deriving DecidableEq, Repr

def step (a : App) : Event → Option App
  | .toggleConnection env => some (toggleConnection env a)
  | .linkVpn env => some (linkVpn env a)
  | .onActivityResult env c action => some (setNewConnectData env c action a)
  | .permissionResult granted =>
      if a.permissionCallback then some (onPermission granted { a with permissionCallback := false })
      else none
  | .frame progress ad =>
      match a.mConnectJob with
      | none => none
      | some an => if an.ended then none else some (onFrame an progress ad a)
  | .adCompleted toggle =>
      (a.ads.find? (fun t => t.id == toggle)).map
        (fun t => postToggle t { a with ads := a.ads.erase t })
  | .intercept => some (interceptToggleConnection a)
  | .onStart => if a.mConnector then some (onStart a) else none
  | .onStop => some { a with active := false }
  | .onDestroy => some (onDestroy a)
  | .poll => a.connectServiceJob.map (fun job => poll job a)
  | .resultShown =>
      if a.results = 0 then none else some { a with results := a.results - 1, clickable := true }
  | .timerTick => if a.timer then some { a with mConnectTime := a.mConnectTime + 1000 } else none
  | .stateChanged st => if a.bound then some (stateChanged st a) else none
  | .onServiceConnected st => if a.bound then some (onServiceConnected st a) else none
  | .onServiceDisconnected => if a.bound then some (onServiceDisconnected a) else none
  -- the connection is dropped and bound anew
  | .onBinderDied => if a.bound then some a else none

def machine : EventMachine.Machine App Event where
  init := {}
  step := step

/-! ## What a step can do -/

/-- The steps as a relation, one case for each event, with what the event presupposes. -/
inductive Steps (a : App) : Event → App → Prop where
  | toggleConnection (env : Environment) : Steps a (.toggleConnection env) (toggleConnection env a)
  | linkVpn (env : Environment) : Steps a (.linkVpn env) (linkVpn env a)
  | onActivityResult (env : Environment) (c : MConnection) (action : Action) :
      Steps a (.onActivityResult env c action) (setNewConnectData env c action a)
  | permissionResult (granted : Bool) : a.permissionCallback = true →
      Steps a (.permissionResult granted) (onPermission granted { a with permissionCallback := false })
  | frame (an : Animator) (progress : Nat) (ad : Bool) : a.mConnectJob = some an →
      an.ended = false → Steps a (.frame progress ad) (onFrame an progress ad a)
  | adCompleted (t : Toggle) : t ∈ a.ads →
      Steps a (.adCompleted t.id) (postToggle t { a with ads := a.ads.erase t })
  | intercept : Steps a .intercept (interceptToggleConnection a)
  | onStart : a.mConnector = true → Steps a .onStart (onStart a)
  | onStop : Steps a .onStop { a with active := false }
  | onDestroy : Steps a .onDestroy (onDestroy a)
  | poll (job : ConnectServiceJob) : a.connectServiceJob = some job → Steps a .poll (poll job a)
  | resultShown : a.results ≠ 0 →
      Steps a .resultShown { a with results := a.results - 1, clickable := true }
  | timerTick : a.timer = true →
      Steps a .timerTick { a with mConnectTime := a.mConnectTime + 1000 }
  | stateChanged (st : Bg.State) : a.bound = true → Steps a (.stateChanged st) (stateChanged st a)
  | onServiceConnected (st : Bg.State) : a.bound = true →
      Steps a (.onServiceConnected st) (onServiceConnected st a)
  | onServiceDisconnected : a.bound = true →
      Steps a .onServiceDisconnected (onServiceDisconnected a)
  | onBinderDied : a.bound = true → Steps a .onBinderDied a

theorem steps_of_step {a b : App} {e : Event} (h : step a e = some b) : Steps a e b := by
  cases e with
  | toggleConnection env =>
      cases h
      exact .toggleConnection env
  | linkVpn env =>
      cases h
      exact .linkVpn env
  | onActivityResult env c action =>
      cases h
      exact .onActivityResult env c action
  | permissionResult granted =>
      simp only [step, Option.ite_none_right_eq_some, Option.some.injEq] at h
      rcases h with ⟨hcallback, rfl⟩
      exact .permissionResult granted hcallback
  | frame progress ad =>
      simp only [step] at h
      split at h
      · cases h
      · rename_i an hjob
        split at h <;> cases h
        exact .frame an progress ad hjob (by simpa using ‹¬ an.ended = true›)
  | adCompleted toggle =>
      simp only [step, Option.map_eq_some_iff] at h
      rcases h with ⟨t, hfind, rfl⟩
      have hid : t.id = toggle := by simpa using List.find?_some hfind
      subst hid
      exact .adCompleted t (List.mem_of_find?_eq_some hfind)
  | intercept =>
      cases h
      exact .intercept
  | onStart =>
      simp only [step, Option.ite_none_right_eq_some, Option.some.injEq] at h
      rcases h with ⟨hconnector, rfl⟩
      exact .onStart hconnector
  | onStop =>
      cases h
      exact .onStop
  | onDestroy =>
      cases h
      exact .onDestroy
  | poll =>
      simp only [step, Option.map_eq_some_iff] at h
      rcases h with ⟨job, hjob, rfl⟩
      exact .poll job hjob
  | resultShown =>
      simp only [step, Option.ite_none_left_eq_some, Option.some.injEq] at h
      rcases h with ⟨hresults, rfl⟩
      exact .resultShown hresults
  | timerTick =>
      simp only [step, Option.ite_none_right_eq_some, Option.some.injEq] at h
      rcases h with ⟨htimer, rfl⟩
      exact .timerTick htimer
  | stateChanged st =>
      simp only [step, Option.ite_none_right_eq_some, Option.some.injEq] at h
      rcases h with ⟨hbound, rfl⟩
      exact .stateChanged st hbound
  | onServiceConnected st =>
      simp only [step, Option.ite_none_right_eq_some, Option.some.injEq] at h
      rcases h with ⟨hbound, rfl⟩
      exact .onServiceConnected st hbound
  | onServiceDisconnected =>
      simp only [step, Option.ite_none_right_eq_some, Option.some.injEq] at h
      rcases h with ⟨hbound, rfl⟩
      exact .onServiceDisconnected hbound
  | onBinderDied =>
      simp only [step, Option.ite_none_right_eq_some, Option.some.injEq] at h
      rcases h with ⟨hbound, rfl⟩
      exact .onBinderDied hbound

/-- Opening a connection commits the choice, does nothing, prepares a toggle or asks for the
permission. -/
theorem openConnection_cases (env : Environment) (a : App) :
    openConnection env a = changeConnectDataReally a ∨ openConnection env a = a ∨
      openConnection env a = prepareToggleConnection true a ∨
      openConnection env a = { a with permissionCallback := true } := by
  unfold openConnection
  split
  · exact Or.inl rfl
  · split
    · exact Or.inr (Or.inl rfl)
    · split
      · exact Or.inr (Or.inl rfl)
      · unfold checkPermission
        split
        · exact Or.inr (Or.inr (Or.inl rfl))
        · exact Or.inr (Or.inr (Or.inr rfl))

theorem toggleConnection_cases (env : Environment) (a : App) :
    toggleConnection env a = a ∨
      (canStop a = true ∧ toggleConnection env a = prepareToggleConnection false a) ∨
      (canStop a = false ∧ toggleConnection env a = openConnection env a) := by
  unfold toggleConnection
  split
  · exact Or.inl rfl
  · cases canStop a with
    | true => exact Or.inr (Or.inl ⟨rfl, rfl⟩)
    | false => exact Or.inr (Or.inr ⟨rfl, rfl⟩)

theorem linkVpn_cases (env : Environment) (a : App) :
    linkVpn env a = a ∨ linkVpn env a = openConnection env a := by
  unfold linkVpn
  split
  · exact Or.inl rfl
  · split
    · exact Or.inl rfl
    · exact Or.inr rfl

end Main
end SpinVpn
