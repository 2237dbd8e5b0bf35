import Mathlib.Data.List.Basic
import SpinVpn.Lib.Machine
import SpinVpn.Main.App

/-!
# Heartbeat — the loops that report the connection

At the end of a connect attempt, whether it is connected or given up, `BaseConnector` launches a
coroutine that reports the connection once a minute (`getHeartbeatReported`).  Unlike the timer and the
attempt itself (`connectTimeJob`, `connectServiceJob`) it is kept nowhere: only the end of the activity,
in whose `lifecycleScope` it runs, stops it.

So one loop at most is active exactly as long as one attempt at most has come to its end
(`heartbeats_le_one_iff`).  What cuts an attempt short, a new toggle to connect, launches nothing.
-/

namespace SpinVpn
namespace Main

open EventMachine

/-- The connector of an activity, with its heartbeats. -/
structure Beating where
  app : App := {}
  /-- `context.lifecycleScope` is not cancelled -/
  scope : Bool := true
  /-- the active coroutines of `getHeartbeatReported` -/
  heartbeats : Nat := 0
  /-- what they have reported: the connection, and the address of the report -/
  reports : List (String × String) := []
  deriving DecidableEq, Repr

/-- A coroutine of a cancelled scope does not start. -/
def getHeartbeatReported (s : Beating) : Beating :=
  if s.scope then { s with heartbeats := s.heartbeats + 1 } else s

/-- One round of the loop; the addresses are those stored for a connected and for another state. -/
def heartbeat (ipAfterVpnLink currentIp : String) (s : Beating) : Beating :=
  let report := if isConnected s.app then ("go", ipAfterVpnLink) else ("ba", currentIp)
  { s with reports := s.reports ++ [report] }

/-- The next round of the polling loop is the last. -/
def waitEnds (a : App) : Bool :=
  match a.connectServiceJob with
  | none => false
  | some job => isConnected a || decide (maxWaitTime ≤ job.connectConsumeTime + 500)

inductive ConnectorEvent
  | app (e : Event)
  /-- `BaseConnector.doToggleConnection`, whoever calls it -/
  | doToggleConnection (t : Toggle)
  | heartbeat (ipAfterVpnLink currentIp : String)
  deriving DecidableEq, Repr

def beatingStep (s : Beating) : ConnectorEvent → Option Beating
  | .app e => (step s.app e).map fun b =>
      let s' := { s with app := b }
      match e with
      | .poll => if waitEnds s.app then getHeartbeatReported s' else s'
      | .onDestroy => { s' with scope := false, heartbeats := 0 }
      | _ => s'
  | .doToggleConnection t =>
      let b := connectorToggle t s.app
      some { s with app := if s.scope then b else { b with connectServiceJob := none } }
  | .heartbeat ipAfterVpnLink currentIp =>
      if s.heartbeats = 0 then none else some (heartbeat ipAfterVpnLink currentIp s)

def beatingMachine : Machine Beating ConnectorEvent where
  init := {}
  step := beatingStep

/-! ## The end of an attempt -/

theorem onStartResult_connectServiceJob (forConnect connected : Bool) (a : App) :
    (onStartResult forConnect connected a).connectServiceJob = a.connectServiceJob := by
  unfold onStartResult postResult
  cases forConnect == connected <;> cases a.active <;> rfl

theorem connectResult_connectServiceJob (a : App) : (connectResult a).connectServiceJob = none := by
  dsimp only [connectResult]
  split
  · exact onStartResult_connectServiceJob _ _ _
  · exact onStartResult_connectServiceJob _ _ _

/-- The poll ends the wait exactly if it leaves the loop. -/
theorem waitEnds_iff {a : App} {job : ConnectServiceJob} (hjob : a.connectServiceJob = some job) :
    waitEnds a = true ↔ (poll job a).connectServiceJob = none := by
  simp only [waitEnds, hjob, poll]
  cases isConnected a with
  | true => simp [connectResult_connectServiceJob]
  | false =>
      by_cases htime : job.connectConsumeTime + 500 < maxWaitTime
      · simp [htime]
      · have hle : maxWaitTime ≤ job.connectConsumeTime + 500 := Nat.le_of_not_lt htime
        simp [htime, hle, connectResult_connectServiceJob]

/-- An attempt comes to its end, connected or given up, while the activity is there. -/
def Ended (s : Beating) (e : ConnectorEvent) : Bool :=
  s.scope && e == .app .poll && waitEnds s.app

/-- What a step can do to the loops: one more at the end of an attempt, none left at the end of the
activity, and nothing else. -/
theorem beatingStep_cases {s t : Beating} {e : ConnectorEvent} (h : beatingStep s e = some t) :
    (Ended s e = true ∧ t.scope = true ∧ t.heartbeats = s.heartbeats + 1) ∨
      (Ended s e = false ∧
        (t.scope = false ∧ t.heartbeats = 0 ∨ t.scope = s.scope ∧ t.heartbeats = s.heartbeats)) := by
  cases e with
  | app e =>
      simp only [beatingStep, Option.map_eq_some_iff] at h
      rcases h with ⟨b, -, ht⟩
      subst ht
      cases e with
      | poll =>
          cases hscope : s.scope <;> cases hwait : waitEnds s.app <;>
            simp [Ended, getHeartbeatReported, hscope, hwait]
      | onDestroy => exact Or.inr ⟨by simp [Ended], Or.inl ⟨rfl, rfl⟩⟩
      | _ => exact Or.inr ⟨by simp [Ended], Or.inr ⟨rfl, rfl⟩⟩
  | doToggleConnection t =>
      cases h
      exact Or.inr ⟨by simp [Ended], Or.inr ⟨rfl, rfl⟩⟩
  | heartbeat ipAfterVpnLink currentIp =>
      simp only [beatingStep, Option.ite_none_left_eq_some, Option.some.injEq] at h
      rcases h with ⟨-, rfl⟩
      exact Or.inr ⟨by simp [Ended], Or.inr ⟨rfl, rfl⟩⟩

/-! ## Runs -/

/-- The attempts that came to their end. -/
def ended (h : List (Beating × ConnectorEvent)) : Nat :=
  h.countP fun p => Ended p.1 p.2

theorem ended_snoc (h : List (Beating × ConnectorEvent)) (s : Beating) (e : ConnectorEvent) :
    ended (h ++ [(s, e)]) = ended h + if Ended s e then 1 else 0 := by
  simp only [ended, List.countP_append, List.countP_singleton]

/-- While the activity is there, every attempt that came to its end has left its loop behind. -/
theorem heartbeats_eq {h : List (Beating × ConnectorEvent)} {s : Beating}
    (hrun : Run beatingMachine h s) : s.heartbeats = if s.scope then ended h else 0 := by
  induction hrun with
  | nil => rfl
  | snoc hrun hst ih =>
      rename_i h s t e
      rw [ended_snoc]
      rcases beatingStep_cases hst with ⟨hended, hscope, hcount⟩ | ⟨hended, hkept⟩
      · have hbefore : s.scope = true := by
          simp only [Ended, Bool.and_eq_true] at hended
          exact hended.1.1
        rw [hcount, ih, hbefore, hscope, hended]
        rfl
      · rcases hkept with ⟨hscope, hcount⟩ | ⟨hscope, hcount⟩
        · rw [hcount, hscope]
          rfl
        · rw [hcount, hscope, ih, hended]
          rfl

/-- Along a run one heartbeat at most is active exactly if one attempt at most comes to its end while
the activity is there. -/
theorem heartbeats_le_one_iff {h : List (Beating × ConnectorEvent)} {s : Beating}
    (hrun : Run beatingMachine h s) :
    (s.heartbeats ≤ 1 ∧ ∀ p ∈ h, p.1.heartbeats ≤ 1) ↔ ended h ≤ 1 := by
  induction hrun with
  | nil => simp [beatingMachine, ended]
  | snoc hrun hst ih =>
      rename_i h s t e
      have hcount := heartbeats_eq (hrun.snoc hst)
      have hstates : (t.heartbeats ≤ 1 ∧ ∀ p ∈ h ++ [(s, e)], p.1.heartbeats ≤ 1) ↔
          t.heartbeats ≤ 1 ∧ ended h ≤ 1 := by
        rw [← ih]
        simp only [List.forall_mem_append, List.forall_mem_singleton]
        exact and_congr_right fun _ => And.comm
      rw [hstates]
      rcases beatingStep_cases hst with ⟨hended, hscope, -⟩ | ⟨hended, hkept⟩
      · rw [hscope, if_pos rfl, ended_snoc, hended] at hcount
        rw [ended_snoc, hended, hcount]
        simp only [if_pos]
        omega
      · have hsame : ended (h ++ [(s, e)]) = ended h := by
          rw [ended_snoc, hended]
          rfl
        rw [hsame] at hcount ⊢
        refine and_iff_right_of_imp fun hle => ?_
        rw [hcount]
        split <;> omega

/-! ## Connecting once, and twice -/

def toggleTo (forConnect : Bool) (id : Nat) : ConnectorEvent :=
  .doToggleConnection { id := id, forConnect := forConnect }

/-- The service reports its state, and the connector polls. -/
def connectedOnce : List ConnectorEvent :=
  [toggleTo true 0, .app (.stateChanged .connected), .app .poll]

theorem connectedOnce_heartbeats :
    ∃ h s, beatingMachine.play connectedOnce = some (h, s) ∧ s.heartbeats = 1 ∧
      s.heartbeats ≤ 1 ∧ ∀ p ∈ h, p.1.heartbeats ≤ 1 := by
  refine ⟨_, _, rfl, rfl, ?_⟩
  exact (heartbeats_le_one_iff (run_of_play beatingMachine connectedOnce rfl)).2 (by decide)

def connectedTwice : List ConnectorEvent :=
  connectedOnce ++
    [toggleTo false 1, .app (.stateChanged .stopped), toggleTo true 2, .app (.stateChanged .connected),
      .app .poll]

/-- The loop of the first connection is still there when the second one launches its own. -/
theorem connectedTwice_heartbeats :
    ∃ h s, Run beatingMachine h s ∧ h.map Prod.snd = connectedTwice ∧ s.heartbeats = 2 :=
  ⟨_, _, run_of_play beatingMachine connectedTwice rfl, rfl, rfl⟩

end Main
end SpinVpn
