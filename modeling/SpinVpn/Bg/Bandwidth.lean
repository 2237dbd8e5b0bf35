import SpinVpn.Bg.Service
import SpinVpn.Bg.Traffic
import SpinVpn.Lib.Keyed
import SpinVpn.Lib.Machine

/-!
# Bandwidth — the clients of the binder that listen for the traffic

`BaseService.Binder` polls the traffic monitors in a coroutine `looper` while some client listens.
The bodies of `startListeningForBandwidth` and `stopListeningForBandwidth` run on the main
dispatcher, each of them up to its end, and so does each pass of the loop between two delays.

The loop is there exactly while there are listeners (`InStep`): the first listener starts it, the
last one cancels it, and it does not return by itself in between.

Two things end the process, or keep the main thread for ever, and have no state after them:

* a client that cannot be reached when it starts to listen (`remote`), and
* a timeout that is not positive, with which `delay` returns at once (`unending`).
-/

namespace SpinVpn
namespace Bg

open EventMachine

/-- `TrafficStats.plus` -/
def TrafficStats.plus (a b : TrafficStats) : TrafficStats where
  txRate := a.txRate + b.txRate
  rxRate := a.rxRate + b.rxRate
  txTotal := a.txTotal + b.txTotal
  rxTotal := a.rxTotal + b.rxTotal

/-! ## What the binder reads of the service -/

structure ProxyInstance where
  profileId : Int
  trafficMonitor : Option TrafficMonitor
  deriving DecidableEq, Repr

/-- The fields of `BaseService.Data` that the binder uses. -/
structure Running where
  state : State
  proxy : Option ProxyInstance
  udpFallback : Option ProxyInstance
  deriving DecidableEq, Repr

namespace ProxyInstance

/-- `Pair(it.profile.id, it.trafficMonitor?.requestUpdate())`, where there is a monitor. -/
def requestUpdate (now : Int64) (p : ProxyInstance) :
    ProxyInstance × Option (Int × TrafficStats × Bool) :=
  match p.trafficMonitor with
  | none => (p, none)
  | some monitor =>
      let r := monitor.requestUpdate now
      ({ p with trafficMonitor := some r.1 }, some (p.profileId, r.2.1, r.2.2))

/-- `trafficMonitor?.out`, or zeros. -/
def out (p : ProxyInstance) : TrafficStats :=
  match p.trafficMonitor with
  | none => {}
  | some monitor => monitor.out

end ProxyInstance

/-- What a client is told when it starts to listen. -/
def Running.greeting (data : Running) : List (Int × TrafficStats) :=
  if data.state = .connected then
    match data.proxy with
    | none => []
    | some proxy =>
        match data.udpFallback with
        | none => [(proxy.profileId, proxy.out), (0, TrafficStats.plus {} proxy.out)]
        | some fallback =>
            [(proxy.profileId, proxy.out), (fallback.profileId, fallback.out),
              (0, (TrafficStats.plus {} proxy.out).plus fallback.out)]
  else []

/-! ## The binder -/

inductive BinderFailure
  /-- `check(looper == null)` -/
  | illegalState
  /-- `looper!!` -/
  | nullPointer
  /-- a `RemoteException` that nothing catches -/
  | remote
  /-- The loop never suspends. -/
  | unending
  deriving DecidableEq, Repr

structure Update (κ : Type) where
  client : κ
  profileId : Int
  stats : TrafficStats
  deriving DecidableEq, Repr

structure Binder (κ : Type) where
  data : Option Running
  callbacks : List κ := []
  bandwidthListeners : List (κ × Int) := []
  looper : Option Nat := none
  /-- the coroutines of `loop` that neither returned nor were cancelled -/
  live : List Nat := []
  /-- how many of them were launched -/
  launched : Nat := 0
  /-- The scope of the binder is cancelled, so that `launch` has no effect. -/
  closed : Bool := false
  deriving DecidableEq, Repr

namespace Binder

variable {κ : Type} [DecidableEq κ]

/-- The clients that listen and are registered are told the stats of each proxy and the sum. -/
def broadcast (b : Binder κ) (stats : List (Int × TrafficStats × Bool)) : List (Update κ) :=
  let sum : TrafficStats := stats.foldl (fun a s => a.plus s.2.1) {}
  (b.callbacks.filter (fun item => item ∈ b.bandwidthListeners.map Prod.fst)).flatMap
    (fun item => stats.map (fun s => ⟨item, s.1, s.2.1⟩) ++ [⟨item, 0, sum⟩])

/-- One pass of `loop`, after its delay; each of the two monitors reads the clock. -/
def pass (now now' : Int64) (b : Binder κ) : Binder κ × List (Update κ) :=
  match b.data with
  | none => (b, [])
  | some data =>
      let proxy := data.proxy.map (ProxyInstance.requestUpdate now)
      let fallback := data.udpFallback.map (ProxyInstance.requestUpdate now')
      let stats := (proxy.toList ++ fallback.toList).filterMap Prod.snd
      let b := { b with data := some { data with
        proxy := proxy.map Prod.fst
        udpFallback := fallback.map Prod.fst } }
      if stats.any (fun s => s.2.2) && data.state = .connected && !b.bandwidthListeners.isEmpty then
        (b, b.broadcast stats)
      else (b, [])

/-- `bandwidthListeners.values.minOrNull()` -/
def timeout (b : Binder κ) : Option Int :=
  (b.bandwidthListeners.map Prod.snd).min?

/-- The head of `while (true)`: the loop returns, suspends, or goes on without suspending. -/
def delay (job : Nat) (b : Binder κ) : Except BinderFailure (Binder κ) :=
  match b.timeout with
  | none => .ok { b with live := b.live.filter (fun j => j ≠ job) }
  | some timeout => if 0 < timeout then .ok b else .error .unending

/-- `check(looper == null)` and `looper = launch { loop() }` -/
def startLoop (b : Binder κ) : Except BinderFailure (Binder κ) :=
  if b.looper.isSome then .error .illegalState
  else
    let job := b.launched
    (({ b with launched := job + 1, live := job :: b.live } : Binder κ).delay job).map
      (fun b => { b with looper := some job })

/-- What a new listener is sent at once; `reachable` is false if its process has died. -/
def greet (cb : κ) (reachable : Bool) (b : Binder κ) :
    Except BinderFailure (Binder κ × List (Update κ)) :=
  let greeting := (b.data.map Running.greeting).getD []
  if reachable = false ∧ greeting ≠ [] then .error .remote
  else .ok (b, greeting.map (fun u => ⟨cb, u.1, u.2⟩))

def startListeningForBandwidth (cb : κ) (timeout : Int) (reachable : Bool) (b : Binder κ) :
    Except BinderFailure (Binder κ × List (Update κ)) :=
  if b.closed then .ok (b, [])
  else
    -- both operands are evaluated, the test before the insertion
    let isEmpty := b.bandwidthListeners.isEmpty
    let previous := Keyed.get cb b.bandwidthListeners
    let b := { b with bandwidthListeners := Keyed.put cb timeout b.bandwidthListeners }
    let started := if isEmpty && previous.isNone then b.startLoop else .ok b
    started.bind (greet cb reachable)

def stopListeningForBandwidth (cb : κ) (b : Binder κ) : Except BinderFailure (Binder κ) :=
  if b.closed then .ok b
  else
    let previous := Keyed.get cb b.bandwidthListeners
    let b := { b with bandwidthListeners := Keyed.remove cb b.bandwidthListeners }
    if previous.isSome && b.bandwidthListeners.isEmpty then
      match b.looper with
      | none => .error .nullPointer
      | some job => .ok { b with live := b.live.filter (fun j => j ≠ job), looper := none }
    else .ok b

def registerCallback (cb : κ) (b : Binder κ) : Binder κ :=
  -- nothing is registered in a list that was killed
  if b.closed ∨ cb ∈ b.callbacks then b else { b with callbacks := b.callbacks ++ [cb] }

/-- `RemoteCallbackList.unregister`, and what the list itself does when a client dies. -/
def unregister (cb : κ) (b : Binder κ) : Binder κ :=
  { b with callbacks := b.callbacks.filter (fun item => item ≠ cb) }

def unregisterCallback (cb : κ) (b : Binder κ) : Except BinderFailure (Binder κ) :=
  (b.stopListeningForBandwidth cb).map (fun b => b.unregister cb)

def onCallbackDied (cb : Option κ) (b : Binder κ) : Except BinderFailure (Binder κ) :=
  match cb with
  | none => .ok b
  | some cb => (b.unregister cb).stopListeningForBandwidth cb

def close (b : Binder κ) : Binder κ :=
  { b with callbacks := [], live := [], closed := true, data := none }

end Binder

/-! ## Runs -/

inductive BinderEvent (κ : Type)
  | registerCallback (cb : κ)
  | startListeningForBandwidth (cb : κ) (timeout : Int) (reachable : Bool)
  | stopListeningForBandwidth (cb : κ)
  | unregisterCallback (cb : κ)
  | onCallbackDied (cb : Option κ)
  /-- The delay of a loop is over. -/
  | resumed (job : Nat) (now now' : Int64)
  /-- The service goes on. -/
  | data (data : Running)
  | close
  deriving DecidableEq, Repr

namespace Binder

variable {κ : Type} [DecidableEq κ]

def handle (b : Binder κ) : BinderEvent κ → Except BinderFailure (Binder κ)
  | .registerCallback cb => .ok (b.registerCallback cb)
  | .startListeningForBandwidth cb timeout reachable =>
      (b.startListeningForBandwidth cb timeout reachable).map Prod.fst
  | .stopListeningForBandwidth cb => b.stopListeningForBandwidth cb
  | .unregisterCallback cb => b.unregisterCallback cb
  | .onCallbackDied cb => b.onCallbackDied cb
  | .resumed job now now' => (b.pass now now').1.delay job
  | .data data => .ok { b with data := b.data.map (fun _ => data) }
  | .close => .ok b.close

/-- Only a loop that is alive is resumed. -/
def enabled (b : Binder κ) : BinderEvent κ → Bool
  | .resumed job _ _ => job ∈ b.live
  | _ => true

end Binder

def binderMachine (κ : Type) [DecidableEq κ] (data : Running) : Machine (Binder κ) (BinderEvent κ) where
  init := { data := some data }
  step := fun b e => if b.enabled e then (b.handle e).toOption else none

/-! ## The loop and the listeners -/

namespace Binder

section InStep

variable {κ : Type} {b : Binder κ}

/-- The loop is there exactly while some client listens, and no other one is alive. -/
structure InStep (b : Binder κ) : Prop where
  looper : b.looper.isSome ↔ b.bandwidthListeners ≠ []
  live : b.live = if b.closed then [] else b.looper.toList

theorem InStep.mem_live (h : b.InStep) {job : Nat} (hjob : job ∈ b.live) :
    b.closed = false ∧ b.looper = some job := by
  rw [h.live] at hjob
  split at hjob
  · cases hjob
  · rename_i hopen
    exact ⟨Bool.eq_false_iff.2 hopen, Option.mem_toList.1 hjob⟩

theorem InStep.length_live (h : b.InStep) : b.live.length ≤ 1 := by
  rw [h.live]
  split
  · exact Nat.zero_le 1
  · exact Option.length_toList_le

/-- Nothing but these four fields matters. -/
theorem InStep.congr {b' : Binder κ} (h : b.InStep)
    (hlisteners : b'.bandwidthListeners = b.bandwidthListeners) (hlooper : b'.looper = b.looper)
    (hlive : b'.live = b.live) (hclosed : b'.closed = b.closed) : b'.InStep := by
  constructor
  · rw [hlooper, hlisteners]
    exact h.looper
  · rw [hlive, hclosed, hlooper]
    exact h.live

/-- A call leaves the loop in step, and neither of the two checks of the source fails. -/
def Keeps : Except BinderFailure (Binder κ) → Prop
  | .ok b => b.InStep
  | .error e => e = .remote ∨ e = .unending

theorem Keeps.not_error {r : Except BinderFailure (Binder κ)} (h : Keeps r) :
    r ≠ .error .illegalState ∧ r ≠ .error .nullPointer := by
  constructor
  · rintro rfl
    rcases h with h | h <;> cases h
  · rintro rfl
    rcases h with h | h <;> cases h

theorem timeout_eq_none_iff : b.timeout = none ↔ b.bandwidthListeners = [] := by
  rw [timeout, List.min?_eq_none_iff, List.map_eq_nil_iff]

/-- While some client listens, a loop that comes to its head suspends there, if anything. -/
theorem delay_cases (job : Nat) (h : b.bandwidthListeners ≠ []) :
    b.delay job = .ok b ∨ b.delay job = .error .unending := by
  rw [delay]
  cases htimeout : b.timeout with
  | none => exact absurd (timeout_eq_none_iff.1 htimeout) h
  | some timeout =>
      by_cases hpos : 0 < timeout
      · exact Or.inl (if_pos hpos)
      · exact Or.inr (if_neg hpos)

/-- The first listener is in the map already when the loop is started. -/
theorem keeps_startLoop (hlooper : b.looper = none) (hlive : b.live = []) (hopen : b.closed = false)
    (hlisteners : b.bandwidthListeners ≠ []) : Keeps b.startLoop := by
  have hnone : ¬ b.looper.isSome = true := by simp [hlooper]
  rw [startLoop, if_neg hnone]
  dsimp only
  rcases delay_cases (b := { b with launched := b.launched + 1, live := b.launched :: b.live })
    b.launched hlisteners with hdelay | hdelay
  · rw [hdelay]
    constructor
    · exact ⟨fun _ => hlisteners, fun _ => rfl⟩
    · simp [hlive, hopen]
  · rw [hdelay]
    exact Or.inr rfl

theorem keeps_greet (h : b.InStep) (cb : κ) (reachable : Bool) :
    Keeps ((b.greet cb reachable).map Prod.fst) := by
  rw [greet]
  by_cases hremote : reachable = false ∧ (b.data.map Running.greeting).getD [] ≠ []
  · rw [if_pos hremote]
    exact Or.inl rfl
  · rw [if_neg hremote]
    exact h

theorem keeps_bind_greet {started : Except BinderFailure (Binder κ)} (h : Keeps started) (cb : κ)
    (reachable : Bool) : Keeps ((started.bind (greet cb reachable)).map Prod.fst) := by
  cases started with
  | ok b => exact keeps_greet h cb reachable
  | error e => exact h

end InStep

section Calls

variable {κ : Type} [DecidableEq κ] {b : Binder κ}

theorem pass_frame (now now' : Int64) (b : Binder κ) :
    (b.pass now now').1.bandwidthListeners = b.bandwidthListeners ∧
      (b.pass now now').1.looper = b.looper ∧ (b.pass now now').1.live = b.live ∧
      (b.pass now now').1.closed = b.closed := by
  rw [pass]
  cases b.data with
  | none => exact ⟨rfl, rfl, rfl, rfl⟩
  | some data =>
      dsimp only
      split <;> exact ⟨rfl, rfl, rfl, rfl⟩

theorem keeps_start (h : b.InStep) (cb : κ) (timeout : Int) (reachable : Bool) :
    Keeps ((b.startListeningForBandwidth cb timeout reachable).map Prod.fst) := by
  rw [startListeningForBandwidth]
  by_cases hclosed : b.closed = true
  · rw [if_pos hclosed]
    exact h
  · rw [if_neg hclosed]
    have hput := Keyed.put_ne_nil cb timeout b.bandwidthListeners
    apply keeps_bind_greet
    cases hlisteners : b.bandwidthListeners with
    | nil =>
        -- the looper was null, and so no loop was alive
        have hlooper : b.looper = none := by
          have hnot : ¬ b.looper.isSome = true := fun hsome => h.looper.1 hsome hlisteners
          simpa using hnot
        have hlive : b.live = [] := by simp [h.live, hlooper]
        rw [hlisteners] at hput
        exact keeps_startLoop hlooper hlive (Bool.eq_false_iff.2 hclosed) hput
    | cons l ls =>
        have hsome := h.looper.2 (by simp [hlisteners])
        rw [hlisteners] at hput
        exact ⟨⟨fun _ => hput, fun _ => hsome⟩, h.live⟩

theorem keeps_stop (h : b.InStep) (cb : κ) : Keeps (b.stopListeningForBandwidth cb) := by
  rw [stopListeningForBandwidth]
  by_cases hclosed : b.closed = true
  · rw [if_pos hclosed]
    exact h
  · rw [if_neg hclosed]
    dsimp only
    cases hprevious : Keyed.get cb b.bandwidthListeners with
    | none =>
        -- the client did not listen
        have hsame := Keyed.remove_of_get_eq_none hprevious
        exact h.congr hsame rfl rfl rfl
    | some timeout =>
        have hlistened : b.bandwidthListeners ≠ [] := by
          intro hnil
          rw [hnil] at hprevious
          cases hprevious
        obtain ⟨job, hjob⟩ := Option.isSome_iff_exists.1 (h.looper.2 hlistened)
        have hlive : b.live = [job] := by simp [h.live, hclosed, hjob]
        by_cases hlast : Keyed.remove cb b.bandwidthListeners = []
        · -- the last listener has gone, and the loop with it
          simp only [hlast, Option.isSome_some, List.isEmpty_nil, Bool.and_true, if_true, hjob, hlive]
          exact ⟨by simp, by simp⟩
        · simp only [Option.isSome_some, Bool.true_and, List.isEmpty_iff, hlast, if_false]
          exact ⟨⟨fun _ => hlast, fun _ => h.looper.2 hlistened⟩, h.live⟩

theorem InStep.unregister (h : b.InStep) (cb : κ) : (b.unregister cb).InStep :=
  h.congr rfl rfl rfl rfl

theorem keeps_unregisterCallback (h : b.InStep) (cb : κ) : Keeps (b.unregisterCallback cb) := by
  have hstop := keeps_stop h cb
  rw [unregisterCallback]
  cases hresult : b.stopListeningForBandwidth cb with
  | ok b' =>
      rw [hresult] at hstop
      exact InStep.unregister hstop cb
  | error e =>
      rw [hresult] at hstop
      exact hstop

/-- A loop that is resumed finds the listener it was started for, or a later one. -/
theorem keeps_resumed (h : b.InStep) {job : Nat} (hjob : job ∈ b.live) (now now' : Int64) :
    Keeps ((b.pass now now').1.delay job) := by
  obtain ⟨hlisteners, hlooper, hlive, hclosed⟩ := pass_frame now now' b
  have hkept : (b.pass now now').1.InStep := h.congr hlisteners hlooper hlive hclosed
  have hsome : b.looper.isSome = true := by rw [(h.mem_live hjob).2]; rfl
  have hne : (b.pass now now').1.bandwidthListeners ≠ [] := by
    rw [hlisteners]
    exact h.looper.1 hsome
  rcases delay_cases job hne with hdelay | hdelay
  · rw [hdelay]
    exact hkept
  · rw [hdelay]
    exact Or.inr rfl

theorem keeps_handle (h : b.InStep) {e : BinderEvent κ} (he : b.enabled e = true) :
    Keeps (b.handle e) := by
  cases e with
  | registerCallback cb =>
      change (b.registerCallback cb).InStep
      rw [registerCallback]
      split
      · exact h
      · exact h.congr rfl rfl rfl rfl
  | startListeningForBandwidth cb timeout reachable => exact keeps_start h cb timeout reachable
  | stopListeningForBandwidth cb => exact keeps_stop h cb
  | unregisterCallback cb => exact keeps_unregisterCallback h cb
  | onCallbackDied cb =>
      cases cb with
      | none => exact h
      | some cb => exact keeps_stop (h.unregister cb) cb
  | resumed job now now' => exact keeps_resumed h (of_decide_eq_true he) now now'
  | data data => exact h.congr rfl rfl rfl rfl
  | close => exact ⟨h.looper, rfl⟩

end Calls

end Binder

section Machine

variable {κ : Type} [DecidableEq κ] {data : Running} {h : List (Binder κ × BinderEvent κ)} {b : Binder κ}

theorem inStep_run (hrun : Run (binderMachine κ data) h b) : b.InStep := by
  have hinit : (binderMachine κ data).init.InStep := ⟨by simp [binderMachine], rfl⟩
  have hkeep : ∀ b e b', b.InStep → True → (binderMachine κ data).step b e = some b' → b'.InStep := by
    intro b e b' hb _ hstep
    simp only [binderMachine] at hstep
    split at hstep
    · rename_i he
      have hkeeps := Binder.keeps_handle hb he
      cases hresult : b.handle e with
      | ok b'' =>
          rw [hresult] at hkeeps hstep
          cases hstep
          exact hkeeps
      | error e => simp [hresult, Except.toOption] at hstep
    · cases hstep
  exact hrun.invariant hinit hkeep (fun _ _ => trivial)

/-- The looper is there exactly while some client listens; it is the only loop that is alive; and no
call that can come next fails at one of the two checks. -/
theorem looper_spec (hrun : Run (binderMachine κ data) h b) :
    (b.looper.isSome ↔ b.bandwidthListeners ≠ []) ∧
      (b.live.length ≤ 1 ∧ ∀ job ∈ b.live, b.looper = some job) ∧
      ∀ e, b.enabled e = true →
        b.handle e ≠ .error .illegalState ∧ b.handle e ≠ .error .nullPointer := by
  have hb := inStep_run hrun
  refine ⟨hb.looper, ⟨hb.length_live, fun job hjob => (hb.mem_live hjob).2⟩, ?_⟩
  intro e he
  exact (Binder.keeps_handle hb he).not_error

/-- Two clients come and go; the second loop is another one. -/
def twoListeners : List (BinderEvent Bool) :=
  [.startListeningForBandwidth true 1000 true, .startListeningForBandwidth false 500 true,
    .startListeningForBandwidth true 2000 true, .resumed 0 5 6, .stopListeningForBandwidth true,
    .stopListeningForBandwidth true, .unregisterCallback false, .onCallbackDied (some false),
    .startListeningForBandwidth true 1000 true]

def quiet : Running where
  state := .connected
  proxy := some ⟨1, some {}⟩
  udpFallback := none

theorem looper_spec_twoListeners :
    ∃ h b, (binderMachine Bool quiet).play twoListeners = some (h, b) ∧ b.looper = some 1 ∧
      (b.looper.isSome ↔ b.bandwidthListeners ≠ []) ∧ b.live.length ≤ 1 := by
  have hend : ((binderMachine Bool quiet).play twoListeners).map (fun r => r.2.looper) =
      some (some 1) := by decide +kernel
  obtain ⟨⟨h, b⟩, hplay, hjob⟩ := Option.map_eq_some_iff.1 hend
  obtain ⟨hlooper, ⟨hlive, -⟩, -⟩ := looper_spec (run_of_play _ twoListeners hplay)
  exact ⟨h, b, hplay, hjob, hlooper, hlive⟩

end Machine

end Bg
end SpinVpn
