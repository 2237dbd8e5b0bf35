import SpinVpn.Lib.Machine

/-!
# Binding — the connection of the app to its service

`ShadowsocksConnection` (`aidl/ShadowsocksConnection.kt`) binds the service and tells a callback about
it.  When the process of the service dies, a binder thread runs `binderDied`, which reads the callback
and queues `onBinderDied` to the main thread.  `ShadowsockConnector` then disconnects and connects
again.

The queued call keeps the callback it was queued for, so it connects again even if the connector was
destroyed in the meantime.  After `destroyConnection` the connection stays down exactly if no such call
is left to run (`dormant_iff`), and it is enough that none is queued at that moment
(`dormant_of_settled`).
-/

namespace SpinVpn
namespace Main

open EventMachine

/-! ## ShadowsocksConnection -/

/-- `κ` are the callbacks and `β` the binders. -/
structure ShadowsocksConnection (κ β : Type) where
  connectionActive : Bool := false
  callbackRegistered : Bool := false
  callback : Option κ := none
  binder : Option β := none
  service : Option β := none
  deriving DecidableEq, Repr

inductive Lifecycle
  | initialized
  | created
  | destroyed
  deriving DecidableEq, Repr

/-- A connector with its connection, and what is under way around it. -/
structure Binding (κ β : Type) where
  connection : ShadowsocksConnection κ β := {}
  /-- The context has bound the service for the connection. -/
  bound : Bool := false
  /-- the binders whose death is listened for -/
  links : List β := []
  /-- death notices that `binderDied` has not been called for yet -/
  noticed : Nat := 0
  /-- calls of `binderDied` that have not read the callback yet -/
  clearing : Nat := 0
  /-- calls of `onBinderDied` on their way to the main thread -/
  queued : List κ := []
  lifecycle : Lifecycle := .initialized
  deriving DecidableEq, Repr

namespace Binding

variable {κ β : Type}

section Calls

variable [DecidableEq β]

/-- The callback is stored, and the service is bound; `none` is the failed `check`. -/
def connect (callback : κ) (s : Binding κ β) : Option (Binding κ β) :=
  if s.connection.connectionActive then some s
  else if s.connection.callback.isSome then none
  else some { s with
    connection := { s.connection with connectionActive := true, callback := some callback }
    bound := true }

def disconnect (s : Binding κ β) : Binding κ β :=
  { s with
    connection := {}
    bound := if s.connection.connectionActive then false else s.bound
    links := match s.connection.binder with
      | none => s.links
      | some binder => s.links.filter (fun b => b ≠ binder) }

/-- `linked` and `registered` are whether the two calls reach the service before it dies.  The result is
`none` where `check(!callbackRegistered)` or `callback!!` fails. -/
def onServiceConnected (binder : β) (linked registered : Bool) (s : Binding κ β) :
    Option (Binding κ β) :=
  let s := { s with
    connection := { s.connection with binder := some binder, service := some binder } }
  let s := if linked then { s with links := s.links ++ [binder] } else s
  if linked ∧ s.connection.callbackRegistered then none
  else
    let s := if linked ∧ registered then
        { s with connection := { s.connection with callbackRegistered := true } } else s
    if s.connection.callback.isNone then none else some s

def onServiceDisconnected (s : Binding κ β) : Binding κ β :=
  { s with
    connection := { s.connection with callbackRegistered := false, service := none, binder := none } }

/-- The first part of `binderDied`. -/
def binderDied (s : Binding κ β) : Binding κ β :=
  { s with
    connection := { s.connection with service := none, callbackRegistered := false }
    noticed := s.noticed - 1
    clearing := s.clearing + 1 }

/-- The second part of `binderDied`: the callback is read, and its `onBinderDied` queued. -/
def launch (s : Binding κ β) : Binding κ β :=
  { s with clearing := s.clearing - 1, queued := s.queued ++ s.connection.callback.toList }

/-- `ShadowsockConnector.onBinderDied` -/
def onBinderDied (callback : κ) (s : Binding κ β) : Option (Binding κ β) :=
  s.disconnect.connect callback

end Calls

end Binding

/-! ## Runs -/

inductive BindingEvent (β : Type)
  | onCreate
  | onDestroy
  | onServiceConnected (binder : β) (linked registered : Bool)
  | onServiceDisconnected
  /-- The process of the service dies. -/
  | died (binder : β)
  | binderDied
  | launch
  /-- The main thread comes to a call that was queued. -/
  | onBinderDied (index : Nat)
  deriving DecidableEq, Repr

/-- The connector `self`, which is the only callback of its connection.  The framework calls a service
connection back only while it is bound. -/
def bindingMachine {κ : Type} (β : Type) [DecidableEq β] (self : κ) :
    Machine (Binding κ β) (BindingEvent β) where
  init := {}
  step := fun s e =>
    match e with
    | .onCreate =>
        if s.lifecycle = .initialized then
          (s.connect self).map (fun s => { s with lifecycle := .created })
        else none
    | .onDestroy =>
        if s.lifecycle = .created then some { s.disconnect with lifecycle := .destroyed } else none
    | .onServiceConnected binder linked registered =>
        if s.bound then s.onServiceConnected binder linked registered else none
    | .onServiceDisconnected => if s.bound then some s.onServiceDisconnected else none
    | .died binder =>
        if binder ∈ s.links then
          some { s with links := s.links.filter (fun b => b ≠ binder), noticed := s.noticed + 1 }
        else none
    | .binderDied => if 0 < s.noticed then some s.binderDied else none
    | .launch => if 0 < s.clearing then some s.launch else none
    | .onBinderDied index =>
        (s.queued[index]?).bind (fun callback =>
          { s with queued := s.queued.eraseIdx index }.onBinderDied callback)

/-- Once the connector is destroyed, its connection is not active: the service is not bound for it, and
no callback is stored. -/
def Dormant {κ β : Type} (s : Binding κ β) : Prop :=
  s.lifecycle = .destroyed →
    s.connection.connectionActive = false ∧ s.connection.callback = none ∧ s.bound = false

/-- The condition on a step: a queued `onBinderDied` runs before the connector is destroyed. -/
def BindingEvent.Timely {κ β : Type} (s : Binding κ β) : BindingEvent β → Prop
  | .onBinderDied _ => s.lifecycle ≠ .destroyed
  | _ => True

section Dormant

variable {κ β : Type} {s t : Binding κ β}

/-- What neither a callback of the framework nor the death of the binder changes. -/
structure Unmoved (s t : Binding κ β) : Prop where
  connectionActive : t.connection.connectionActive = s.connection.connectionActive
  callback : t.connection.callback = s.connection.callback
  bound : t.bound = s.bound
  lifecycle : t.lifecycle = s.lifecycle
  queued : t.queued <+: s.queued ++ s.connection.callback.toList

theorem Unmoved.dormant (h : Unmoved s t) (hs : Dormant s) : Dormant t := by
  intro hdestroyed
  rw [h.connectionActive, h.callback, h.bound]
  exact hs (h.lifecycle.symm.trans hdestroyed)

/-- The service is bound while the connection is active. -/
def Matched (s : Binding κ β) : Prop :=
  s.bound = s.connection.connectionActive

theorem Unmoved.matched (h : Unmoved s t) (hs : Matched s) : Matched t :=
  h.bound.trans (hs.trans h.connectionActive.symm)

theorem matched_connect {callback : κ} (h : Matched s) (hconnect : s.connect callback = some t) :
    Matched t := by
  rw [Binding.connect] at hconnect
  split at hconnect
  · cases hconnect
    exact h
  · split at hconnect
    · cases hconnect
    · cases hconnect
      rfl

theorem unmoved_onServiceConnected {binder : β} {linked registered : Bool}
    (h : s.onServiceConnected binder linked registered = some t) : Unmoved s t := by
  rw [Binding.onServiceConnected] at h
  cases linked with
  | false =>
      simp only [Bool.false_eq_true, false_and, if_false] at h
      split at h
      · cases h
      · cases h
        exact ⟨rfl, rfl, rfl, rfl, List.prefix_append _ _⟩
  | true =>
      cases registered with
      | false =>
          simp only [Bool.false_eq_true, and_false, if_false, if_true, true_and] at h
          split at h
          · cases h
          · split at h
            · cases h
            · cases h
              exact ⟨rfl, rfl, rfl, rfl, List.prefix_append _ _⟩
      | true =>
          simp only [if_true, true_and] at h
          split at h
          · cases h
          · split at h
            · cases h
            · cases h
              exact ⟨rfl, rfl, rfl, rfl, List.prefix_append _ _⟩

variable [DecidableEq β]

/-- After `disconnect` the connection is down. -/
theorem disconnect_spec (h : Matched s) :
    s.disconnect.connection.connectionActive = false ∧ s.disconnect.connection.callback = none ∧
      s.disconnect.bound = false := by
  refine ⟨rfl, rfl, ?_⟩
  rw [Binding.disconnect]
  split
  · rfl
  · rename_i hinactive
    exact h.trans (Bool.eq_false_iff.2 hinactive)

/-- Whatever was there before, the connection is up after a reconnection. -/
theorem onBinderDied_spec {callback : κ} (h : s.onBinderDied callback = some t) :
    t.connection.connectionActive = true ∧ t.bound = true ∧ t.lifecycle = s.lifecycle := by
  simp only [Binding.onBinderDied, Binding.connect, Binding.disconnect, Bool.false_eq_true, if_false,
    Option.isSome_none, Option.some.injEq] at h
  rw [← h]
  exact ⟨rfl, rfl, rfl⟩

/-- What a step can do: one of the three that move the connection, or one that does not. -/
theorem step_cases {self : κ} {e : BindingEvent β} (hstep : (bindingMachine β self).step s e = some t) :
    (e = .onCreate ∧ ∃ s', s.connect self = some s' ∧ t = { s' with lifecycle := .created }) ∨
    (e = .onDestroy ∧ t = { s.disconnect with lifecycle := .destroyed }) ∨
    (∃ index callback, e = .onBinderDied index ∧ s.queued[index]? = some callback ∧
      { s with queued := s.queued.eraseIdx index }.onBinderDied callback = some t) ∨
    (e.Timely s ∧ e ≠ .onDestroy ∧ Unmoved s t) := by
  cases e with
  | onCreate =>
      obtain ⟨-, hcreate⟩ := Option.ite_none_right_eq_some.1 hstep
      obtain ⟨s', hconnect, rfl⟩ := Option.map_eq_some_iff.1 hcreate
      exact Or.inl ⟨rfl, s', hconnect, rfl⟩
  | onDestroy =>
      obtain ⟨-, hdestroy⟩ := Option.ite_none_right_eq_some.1 hstep
      cases hdestroy
      exact Or.inr (Or.inl ⟨rfl, rfl⟩)
  | onServiceConnected binder linked registered =>
      obtain ⟨-, hconnected⟩ := Option.ite_none_right_eq_some.1 hstep
      exact Or.inr (Or.inr (Or.inr ⟨trivial, nofun, unmoved_onServiceConnected hconnected⟩))
  | onServiceDisconnected =>
      obtain ⟨-, hdisconnected⟩ := Option.ite_none_right_eq_some.1 hstep
      cases hdisconnected
      exact Or.inr (Or.inr (Or.inr ⟨trivial, nofun, rfl, rfl, rfl, rfl, List.prefix_append _ _⟩))
  | died binder =>
      obtain ⟨-, hdied⟩ := Option.ite_none_right_eq_some.1 hstep
      cases hdied
      exact Or.inr (Or.inr (Or.inr ⟨trivial, nofun, rfl, rfl, rfl, rfl, List.prefix_append _ _⟩))
  | binderDied =>
      obtain ⟨-, hdied⟩ := Option.ite_none_right_eq_some.1 hstep
      cases hdied
      exact Or.inr (Or.inr (Or.inr ⟨trivial, nofun, rfl, rfl, rfl, rfl, List.prefix_append _ _⟩))
  | launch =>
      obtain ⟨-, hlaunch⟩ := Option.ite_none_right_eq_some.1 hstep
      cases hlaunch
      exact Or.inr (Or.inr (Or.inr ⟨trivial, nofun, rfl, rfl, rfl, rfl, List.prefix_refl _⟩))
  | onBinderDied index =>
      obtain ⟨callback, hqueued, hdied⟩ := Option.bind_eq_some_iff.1 hstep
      exact Or.inr (Or.inr (Or.inl ⟨index, callback, rfl, hqueued, hdied⟩))

theorem matched_step {self : κ} {e : BindingEvent β} (h : Matched s)
    (hstep : (bindingMachine β self).step s e = some t) : Matched t := by
  rcases step_cases hstep with ⟨-, s', hconnect, rfl⟩ | ⟨-, rfl⟩ | ⟨index, callback, -, -, hdied⟩ |
    ⟨-, -, hunmoved⟩
  · have hs' : Matched s' := matched_connect h hconnect
    exact hs'
  · exact (disconnect_spec h).2.2
  · obtain ⟨hactive, hbound, -⟩ := onBinderDied_spec hdied
    exact hbound.trans hactive.symm
  · exact hunmoved.matched h

theorem dormant_step {self : κ} {e : BindingEvent β} (hmatched : Matched s) (hdormant : Dormant s)
    (hstep : (bindingMachine β self).step s e = some t) : Dormant t ↔ e.Timely s := by
  rcases step_cases hstep with ⟨rfl, s', -, rfl⟩ | ⟨rfl, rfl⟩ | ⟨index, callback, rfl, -, hdied⟩ |
    ⟨htimely, -, hunmoved⟩
  · exact iff_of_true nofun trivial
  · exact iff_of_true (fun _ => disconnect_spec hmatched) trivial
  · obtain ⟨hactive, -, hlifecycle⟩ := onBinderDied_spec hdied
    constructor
    · intro ht hdestroyed
      have hdown := (ht (hlifecycle.trans hdestroyed)).1
      rw [hactive] at hdown
      cases hdown
    · intro hup hdestroyed
      exact absurd (hlifecycle.symm.trans hdestroyed) hup
  · exact iff_of_true (hunmoved.dormant hdormant) htimely

/-- In every run, the connection of a destroyed connector stays down in all states exactly if every
`onBinderDied` that was queued runs before the connector is destroyed. -/
theorem dormant_iff {self : κ} {h : List (Binding κ β × BindingEvent β)}
    (hrun : Run (bindingMachine β self) h s) :
    (Dormant s ∧ ∀ p ∈ h, Dormant p.1) ↔ ∀ p ∈ h, p.2.Timely p.1 := by
  have hmatched : Matched (bindingMachine β self).init := rfl
  have hinit : Dormant (bindingMachine β self).init := nofun
  exact hrun.always_iff hmatched (fun _ _ _ hs hst => matched_step hs hst) hinit
    (fun _ _ _ hs hgood hst => dormant_step hs hgood hst)

/-- It is enough that no call is queued when the connector is destroyed, since none is queued then. -/
theorem dormant_of_settled {self : κ} {h : List (Binding κ β × BindingEvent β)}
    (hrun : Run (bindingMachine β self) h s) (hsettled : ∀ p ∈ h, p.2 = .onDestroy → p.1.queued = []) :
    Dormant s := by
  have hkeep : ∀ s e t, (Matched s ∧ Dormant s ∧ (s.lifecycle = .destroyed → s.queued = [])) →
      (e = .onDestroy → s.queued = []) → (bindingMachine β self).step s e = some t →
      Matched t ∧ Dormant t ∧ (t.lifecycle = .destroyed → t.queued = []) := by
    intro s e t hs he hstep
    obtain ⟨hmatched, hdormant, hqueued⟩ := hs
    refine ⟨matched_step hmatched hstep, ?_⟩
    rcases step_cases hstep with ⟨rfl, s', -, rfl⟩ | ⟨rfl, rfl⟩ | ⟨index, callback, rfl, hget, hdied⟩ |
      ⟨htimely, -, hunmoved⟩
    · exact ⟨nofun, nofun⟩
    · exact ⟨fun _ => disconnect_spec hmatched, fun _ => he rfl⟩
    · -- a call is queued, so that the connector is not destroyed
      have hup : s.lifecycle ≠ .destroyed := by
        intro hdestroyed
        rw [hqueued hdestroyed] at hget
        cases hget
      have hlifecycle := (onBinderDied_spec hdied).2.2
      exact ⟨fun h => absurd (hlifecycle.symm.trans h) hup,
        fun h => absurd (hlifecycle.symm.trans h) hup⟩
    · refine ⟨hunmoved.dormant hdormant, ?_⟩
      intro hdestroyed
      have hbefore := hunmoved.lifecycle.symm.trans hdestroyed
      have hprefix := hunmoved.queued
      rw [hqueued hbefore, (hdormant hbefore).2.1] at hprefix
      exact List.prefix_nil.1 hprefix
  exact (hrun.invariant ⟨rfl, nofun, nofun⟩ hkeep hsettled).2.1

end Dormant

/-! ## A binder that dies while the activity is closed -/

/-- The service dies, the connector connects again, and is then destroyed. -/
def reconnected : List (BindingEvent Nat) :=
  [.onCreate, .onServiceConnected 1 true true, .died 1, .binderDied, .launch, .onBinderDied 0,
    .onServiceConnected 2 true true, .onDestroy]

theorem dormant_iff_reconnected :
    ∃ h s, (bindingMachine Nat ()).play reconnected = some (h, s) ∧ s.lifecycle = .destroyed ∧
      Dormant s ∧ ∀ p ∈ h, Dormant p.1 := by
  refine ⟨_, _, rfl, rfl, ?_⟩
  refine (dormant_iff (run_of_play (bindingMachine Nat ()) reconnected rfl)).2 ?_
  intro p hp
  simp only [List.nil_append, List.cons_append, List.mem_cons, List.not_mem_nil, or_false] at hp
  rcases hp with rfl | rfl | rfl | rfl | rfl | rfl | rfl | rfl
  · trivial
  · trivial
  · trivial
  · trivial
  · trivial
  · exact nofun
  · trivial
  · trivial

/-- The connector is destroyed before the queued call runs. -/
def destroyedMeanwhile : List (BindingEvent Nat) :=
  [.onCreate, .onServiceConnected 1 true true, .died 1, .binderDied, .launch, .onDestroy,
    .onBinderDied 0]

/-- The service is bound again for it. -/
theorem destroyedMeanwhile_not_dormant :
    ∃ h s, Run (bindingMachine Nat ()) h s ∧
      (bindingMachine Nat ()).play destroyedMeanwhile = some (h, s) ∧ s.lifecycle = .destroyed ∧
      s.bound = true ∧ s.connection.callback = some () ∧ ¬ Dormant s := by
  refine ⟨_, _, run_of_play (bindingMachine Nat ()) destroyedMeanwhile rfl, rfl, rfl, rfl, rfl, ?_⟩
  intro hdormant
  exact absurd (hdormant rfl).2.2 (by decide)

end Main
end SpinVpn
