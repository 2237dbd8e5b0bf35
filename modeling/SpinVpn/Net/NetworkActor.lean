import Mathlib.Data.List.Basic
import SpinVpn.Lib.Machine
import SpinVpn.Lib.Keyed

/-!
# NetworkActor — who is told about the default network

`DefaultNetworkListener` is one actor.  Services send it `Start`, `Stop` and `Get`; the system's
network callback, which the actor registers with its first listener and unregisters with its last,
sends `Put`, `Update` and `Lost`.  The actor takes one message at a time, in the order in which
they are sent.

Keys are compared by identity and networks by `equals`, so both are arbitrary types here.  A
listener is a function without a result, and is known by a name; what the actor does to the
outside is the list of `Output`s of a step.  The actor has no number for a `Get`; it gets the one
under which it was received.
-/

namespace SpinVpn
namespace Net

inductive NetworkMessage (κ ν ℓ : Type)
  | start (key : κ) (listener : ℓ)
  | get
  | stop (key : κ)
  | put (network : ν)
  | update (network : ν)
  | lost (network : ν)
  deriving DecidableEq, Repr

inductive Output (ν ℓ : Type)
  | call (listener : ℓ) (network : Option ν)
  /-- `response.complete(network)` of the `Get` with the number -/
  | complete (request : Nat) (network : ν)
  deriving DecidableEq, Repr

structure NetworkActor (κ ν ℓ : Type) where
  listeners : List (κ × ℓ) := []
  network : Option ν := none
  pendingRequests : List Nat := []
  /-- the network callback is registered with the system -/
  registered : Bool := false
  fallback : Bool := false
  /-- how many `Get`s have been received -/
  requests : Nat := 0
  deriving DecidableEq, Repr

namespace NetworkActor

variable {κ ν ℓ : Type}

/-- `accepted` tells whether the call into the system returns.  Only on the versions without a
callback for the default network is a failure caught. -/
def register (sdk : Nat) (accepted : Bool) (a : NetworkActor κ ν ℓ) :
    Option (NetworkActor κ ν ℓ) :=
  if 24 ≤ sdk ∧ sdk < 31 then
    if accepted then some { a with registered := true } else none
  else if accepted then some { a with fallback := false, registered := true }
  else some { a with fallback := true }

def unregister (accepted : Bool) (a : NetworkActor κ ν ℓ) : Option (NetworkActor κ ν ℓ) :=
  if accepted then some { a with registered := false } else none

/-- `listeners.values.forEach { it(network) }` -/
def callAll (a : NetworkActor κ ν ℓ) (network : Option ν) : List (Output ν ℓ) :=
  a.listeners.map (fun l => .call l.2 network)

variable [DecidableEq κ] [DecidableEq ν]

/-- One round of the actor's loop; `none` where an exception ends it. -/
def process (sdk : Nat) (accepted : Bool) (a : NetworkActor κ ν ℓ) :
    NetworkMessage κ ν ℓ → Option (NetworkActor κ ν ℓ × List (Output ν ℓ))
  | .start key listener =>
      let registering := if a.listeners = [] then register sdk accepted a else some a
      registering.map (fun a =>
        ({ a with listeners := Keyed.put key listener a.listeners },
          (a.network.map (fun n => .call listener (some n))).toList))
  | .get =>
      -- `check(listeners.isNotEmpty())`
      if a.listeners = [] then none
      else
        match a.network with
        | none =>
            some ({ a with
              pendingRequests := a.pendingRequests ++ [a.requests]
              requests := a.requests + 1 }, [])
        | some network =>
            some ({ a with requests := a.requests + 1 }, [.complete a.requests network])
  | .stop key =>
      let stopped := { a with listeners := Keyed.remove key a.listeners }
      -- a key that is not there removes nothing, and the last listener is still one
      if Keyed.get key a.listeners ≠ none ∧ stopped.listeners = [] then
        (unregister accepted { stopped with network := none }).map (fun a => (a, []))
      else some (stopped, [])
  | .put network =>
      some ({ a with network := some network, pendingRequests := [] },
        a.pendingRequests.map (fun g => .complete g network) ++ a.callAll (some network))
  | .update network => some (a, if a.network = some network then a.callAll (some network) else [])
  | .lost network =>
      if a.network = some network then some ({ a with network := none }, a.callAll none)
      else some (a, [])

/-- Registering only sets flags. -/
theorem process_start {sdk : Nat} {accepted : Bool} {a b : NetworkActor κ ν ℓ} {key : κ}
    {listener : ℓ} {out : List (Output ν ℓ)}
    (h : a.process sdk accepted (.start key listener) = some (b, out)) :
    ∃ registered fallback, b = { a with
        listeners := Keyed.put key listener a.listeners
        registered := registered
        fallback := fallback } ∧
      out = (a.network.map (fun n => .call listener (some n))).toList := by
  simp only [process, Option.map_eq_some_iff, Prod.mk.injEq] at h
  rcases h with ⟨r, hregister, rfl, rfl⟩
  have hflags : ∃ registered fallback,
      r = { a with registered := registered, fallback := fallback } := by
    split at hregister
    · unfold register at hregister
      split at hregister <;> split at hregister <;> cases hregister <;> exact ⟨_, _, rfl⟩
    · cases hregister
      exact ⟨_, _, rfl⟩
  rcases hflags with ⟨registered, fallback, rfl⟩
  exact ⟨registered, fallback, rfl, rfl⟩

end NetworkActor

/-! ## The machine -/

structure Received (κ ν ℓ : Type) where
  message : NetworkMessage κ ν ℓ
  accepted : Bool := true
  deriving DecidableEq, Repr

section Actor

variable {κ ν ℓ : Type} [DecidableEq κ] [DecidableEq ν]

def networkActor (sdk : Nat) :
    EventMachine.Machine (NetworkActor κ ν ℓ) (Received κ ν ℓ) where
  init := {}
  step a r := (a.process sdk r.accepted r.message).map Prod.fst

/-- What the actor does to the outside when it receives the message. -/
def outputs (sdk : Nat) (a : NetworkActor κ ν ℓ) (r : Received κ ν ℓ) : List (Output ν ℓ) :=
  ((a.process sdk r.accepted r.message).map Prod.snd).getD []

end Actor

end Net
end SpinVpn
