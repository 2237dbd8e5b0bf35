import Mathlib.Logic.Function.Basic
import SpinVpn.Bg.Lifetime
import SpinVpn.Net.Registration

/-!
# Listening — the listeners that VPN services leave behind

Any number of `VpnService` objects over their whole lives, and the one `DefaultNetworkListener`
actor.  `preInit` registers a listener under the service object and goes on once the actor has
received the message.  The clean-up launches a coroutine that sends the `Stop`,

    scope.launch { DefaultNetworkListener.stop(this) }

where `this` is that coroutine and not the service, and ends after the actor has received it.
The key of a `Stop` is therefore never one under which a listener is registered, and what a
service has registered stays.
-/

namespace SpinVpn
namespace Bg

open EventMachine Net

/-! ## The services and the actor -/

/-- The objects that serve as keys. -/
inductive Key
  /-- the service, in `preInit` -/
  | service (i : Nat)
  /-- the coroutine that a stop coroutine of the service launches, in `killProcesses` -/
  | scope (i : Nat) (stop : Nat)
  deriving DecidableEq, Repr

structure VpnSystem (ν : Type) where
  services : Nat → Service := fun _ => {}
  actor : NetworkActor Key ν Nat := {}
  /-- the jobs of services whose `Start` the actor has received -/
  started : List (Nat × Nat) := []
  /-- the stop coroutines of services whose `Stop` the actor has received -/
  stopped : List (Nat × Nat) := []

inductive VpnEvent (ν : Type)
  | service (i : Nat) (e : Event)
  | startReceived (i : Nat) (job : Nat) (accepted : Bool)
  | stopReceived (i : Nat) (stop : Nat) (accepted : Bool)
  | getReceived
  | callbackReceived (callback : Callback ν)
  deriving DecidableEq, Repr

/-- The statements that the coroutine completes in the block. -/
def Connecting.completes (j : Connecting) (outcomes : List Outcome) : List Stmt :=
  if j.cancelled then [] else j.rest.take (outcomes.takeWhile (· == .ok)).length

/-- The coroutine waits in `preInit`. -/
def Connecting.inPreInit (j : Connecting) : Bool :=
  !j.cancelled && j.rest.head? == some .preInit

variable {ν : Type}

/-- `preInit` returns after its `Start` has been received, and a clean-up after its `Stop`. -/
def VpnSystem.admits (s : VpnSystem ν) (i : Nat) : Event → Bool
  | .resume job outcomes =>
      (s.services i).jobs.all (fun j =>
        j.id != job || !(j.completes outcomes).contains .preInit || s.started.contains (i, job))
  | .cleaned stop => s.stopped.contains (i, stop)
  | _ => true

section Steps

variable [DecidableEq ν]

def VpnSystem.receive (sdk : Nat) (accepted : Bool) (m : NetworkMessage Key ν Nat)
    (s : VpnSystem ν) : Option (VpnSystem ν) :=
  (s.actor.process sdk accepted m).map (fun p => { s with actor := p.1 })

def VpnSystem.step (sdk : Nat) (s : VpnSystem ν) : VpnEvent ν → Option (VpnSystem ν)
  | .service i e =>
      if s.admits i e then
        (Bg.step .vpn (s.services i) e).map (fun t =>
          { s with services := Function.update s.services i t })
      else none
  | .startReceived i job accepted =>
      if (s.services i).jobs.any (fun j => j.id == job && j.inPreInit) ∧ (i, job) ∉ s.started then
        VpnSystem.receive sdk accepted (.start (.service i) i)
          { s with started := s.started ++ [(i, job)] }
      else none
  | .stopReceived i stop accepted =>
      if (s.services i).stops.any (fun k => k.id == stop && k.phase == .cleaning) ∧
          (i, stop) ∉ s.stopped then
        VpnSystem.receive sdk accepted (.stop (.scope i stop))
          { s with stopped := s.stopped ++ [(i, stop)] }
      else none
  | .getReceived => s.receive sdk true .get
  | .callbackReceived callback => s.receive sdk true callback.message

def vpnMachine (sdk : Nat) : Machine (VpnSystem ν) (VpnEvent ν) where
  init := {}
  step := VpnSystem.step sdk

end Steps

/-! ## The property and the condition -/

/-- The actor has a listener under the key with which the service's `preInit` registers one. -/
def Holds (s : VpnSystem ν) (i : Nat) : Prop :=
  .service i ∈ s.actor.listeners.map Prod.fst

/-- The network callback is registered exactly while a started service holds a listener. -/
def Registered (s : VpnSystem ν) : Prop :=
  s.actor.registered = true ↔ ∃ i, Up (s.services i) ∧ Holds s i

/-- At the end of a clean-up the service's listener is gone. -/
def Released [DecidableEq ν] (sdk : Nat) (s : VpnSystem ν) (e : VpnEvent ν) : Prop :=
  ∀ i stop t, e = .service i (.cleaned stop) → s.step sdk e = some t → ¬ Holds t i

/-- No clean-up ends of a service that has come as far as to register a listener, and no
registration with the system fails. -/
def Unheard (s : VpnSystem ν) : VpnEvent ν → Prop
  | .service i (.cleaned _) => ∀ job, (i, job) ∉ s.started
  | .startReceived _ _ accepted => s.actor.listeners = [] → accepted = true
  | _ => True

/-! ## The invariants -/

/-- In any case: the listeners are those of the services whose `Start` has been received. -/
structure Ledger (s : VpnSystem ν) : Prop where
  attended : ∀ i, Attended (s.services i)
  keys : ∀ key, key ∈ s.actor.listeners.map Prod.fst ↔
    ∃ i job, key = .service i ∧ (i, job) ∈ s.started

theorem holds_iff {s : VpnSystem ν} (h : Ledger s) (i : Nat) :
    Holds s i ↔ ∃ job, (i, job) ∈ s.started := by
  rw [Holds, h.keys]
  constructor
  · rintro ⟨i', job, hkey, hmem⟩
    cases hkey
    exact ⟨job, hmem⟩
  · rintro ⟨job, hmem⟩
    exact ⟨i, job, rfl, hmem⟩

theorem listeners_ne_nil {s : VpnSystem ν} (h : Ledger s) :
    s.actor.listeners ≠ [] ↔ ∃ i, Holds s i := by
  constructor
  · intro hne
    rcases List.exists_mem_of_ne_nil _ hne with ⟨l, hl⟩
    have hkey := (h.keys l.1).1 (List.mem_map_of_mem hl)
    rcases hkey with ⟨i, job, -, hmem⟩
    exact ⟨i, (holds_iff h i).2 ⟨job, hmem⟩⟩
  · rintro ⟨i, hholds⟩ hnil
    simp [Holds, hnil] at hholds

/-- What the condition keeps up: the callback is registered with the first listener, and a service
that has registered one is up. -/
structure Faultless (s : VpnSystem ν) : Prop where
  registered : s.actor.registered = true ↔ s.actor.listeners ≠ []
  up : ∀ i job, (i, job) ∈ s.started → Up (s.services i)

theorem registered_of_faultless {s : VpnSystem ν} (hledger : Ledger s) (h : Faultless s) :
    Registered s := by
  rw [Registered, h.registered, listeners_ne_nil hledger]
  constructor
  · rintro ⟨i, hholds⟩
    rcases (holds_iff hledger i).1 hholds with ⟨job, hmem⟩
    exact ⟨i, h.up i job hmem, hholds⟩
  · rintro ⟨i, -, hholds⟩
    exact ⟨i, hholds⟩

/-! ## What the messages do to the listeners -/

section Steps

variable [DecidableEq ν] {sdk : Nat} {accepted : Bool} {a b : NetworkActor Key ν Nat}
  {out : List (Output ν Nat)}

/-- A `Get` and the callbacks leave the listeners alone. -/
theorem process_other {m : NetworkMessage Key ν Nat} (hstart : ∀ key l, m ≠ .start key l)
    (hstop : ∀ key, m ≠ .stop key) (h : a.process sdk accepted m = some (b, out)) :
    b.listeners = a.listeners ∧ b.registered = a.registered := by
  cases m with
  | start key l => exact absurd rfl (hstart key l)
  | stop key => exact absurd rfl (hstop key)
  | get =>
      simp only [NetworkActor.process] at h
      split at h
      · cases h
      · split at h <;> cases h <;> exact ⟨rfl, rfl⟩
  | put n =>
      cases h
      exact ⟨rfl, rfl⟩
  | update n =>
      cases h
      exact ⟨rfl, rfl⟩
  | lost n =>
      simp only [NetworkActor.process] at h
      split at h <;> cases h <;> exact ⟨rfl, rfl⟩

/-- A `Stop` under a key that is not there does nothing. -/
theorem process_stop_absent {key : Key} (habsent : key ∉ a.listeners.map Prod.fst)
    (h : a.process sdk accepted (.stop key) = some (b, out)) :
    b.listeners = a.listeners ∧ b.registered = a.registered := by
  have hget := Keyed.get_eq_none_iff.2 habsent
  simp only [NetworkActor.process, hget, ne_eq, not_true_eq_false, false_and, if_false] at h
  cases h
  exact ⟨Keyed.remove_of_get_eq_none hget, rfl⟩

/-- A `Start` registers the callback if it brings the first listener. -/
theorem process_start_registered {key : Key} {l : Nat}
    (h : a.process sdk accepted (.start key l) = some (b, out)) :
    b.registered = if a.listeners = [] then a.registered || accepted else a.registered := by
  simp only [NetworkActor.process, Option.map_eq_some_iff, Prod.mk.injEq] at h
  rcases h with ⟨r, hregister, rfl, -⟩
  split at hregister
  · rename_i hnil
    rw [if_pos hnil]
    unfold NetworkActor.register at hregister
    split at hregister <;> split at hregister <;> cases hregister <;> simp_all
  · rename_i hne
    cases hregister
    rw [if_neg hne]

/-! ## One step -/

/-- Everything a step can do to the services and to the actor's listeners. -/
theorem vpn_step_cases {s t : VpnSystem ν} {e : VpnEvent ν} (h : Ledger s)
    (hstep : s.step sdk e = some t) :
    (∃ i e' u, e = .service i e' ∧ Bg.step .vpn (s.services i) e' = some u ∧
      t = { s with services := Function.update s.services i u }) ∨
    (∃ i job accepted, e = .startReceived i job accepted ∧ (s.services i).jobs ≠ [] ∧
      t.services = s.services ∧ t.started = s.started ++ [(i, job)] ∧
      t.actor.listeners = Keyed.put (.service i) i s.actor.listeners ∧
      t.actor.registered =
        if s.actor.listeners = [] then s.actor.registered || accepted else s.actor.registered) ∨
    (t.services = s.services ∧ t.started = s.started ∧ t.actor.listeners = s.actor.listeners ∧
      t.actor.registered = s.actor.registered ∧ Unheard s e ∧ ∀ i e', e ≠ .service i e') := by
  cases e with
  | service i e' =>
      simp only [VpnSystem.step] at hstep
      split at hstep
      · rcases Option.map_eq_some_iff.1 hstep with ⟨u, hu, rfl⟩
        exact Or.inl ⟨i, e', u, rfl, hu, rfl⟩
      · cases hstep
  | startReceived i job accepted =>
      simp only [VpnSystem.step] at hstep
      split at hstep
      · rename_i hwaits
        rcases Option.map_eq_some_iff.1 hstep with ⟨⟨b, out⟩, hproc, rfl⟩
        rcases NetworkActor.process_start hproc with ⟨registered, fallback, hb, -⟩
        refine Or.inr (Or.inl ⟨i, job, accepted, rfl, ?_, rfl, rfl, by rw [hb], ?_⟩)
        · intro hnil
          simp [hnil] at hwaits
        · exact process_start_registered hproc
      · cases hstep
  | stopReceived i stop accepted =>
      simp only [VpnSystem.step] at hstep
      split at hstep
      · rcases Option.map_eq_some_iff.1 hstep with ⟨⟨b, out⟩, hproc, rfl⟩
        -- no listener is registered under a coroutine
        have habsent : Key.scope i stop ∉ s.actor.listeners.map Prod.fst := by
          rw [h.keys]
          rintro ⟨i', job, hkey, -⟩
          cases hkey
        rcases process_stop_absent habsent hproc with ⟨hlisteners, hregistered⟩
        exact Or.inr (Or.inr ⟨rfl, rfl, hlisteners, hregistered, trivial, by simp⟩)
      · cases hstep
  | getReceived =>
      rcases Option.map_eq_some_iff.1 hstep with ⟨⟨b, out⟩, hproc, rfl⟩
      rcases process_other (by simp) (by simp) hproc with ⟨hlisteners, hregistered⟩
      exact Or.inr (Or.inr ⟨rfl, rfl, hlisteners, hregistered, trivial, by simp⟩)
  | callbackReceived callback =>
      rcases Option.map_eq_some_iff.1 hstep with ⟨⟨b, out⟩, hproc, rfl⟩
      have hmessage : (∀ key l, (callback.message : NetworkMessage Key ν Nat) ≠ .start key l) ∧
          ∀ key, (callback.message : NetworkMessage Key ν Nat) ≠ .stop key := by
        cases callback <;> simp [Callback.message]
      rcases process_other hmessage.1 hmessage.2 hproc with ⟨hlisteners, hregistered⟩
      exact Or.inr (Or.inr ⟨rfl, rfl, hlisteners, hregistered, trivial, by simp⟩)

theorem ledger_step {s t : VpnSystem ν} {e : VpnEvent ν} (h : Ledger s)
    (hstep : s.step sdk e = some t) : Ledger t := by
  rcases vpn_step_cases h hstep with ⟨i, e', u, -, hu, rfl⟩ |
    ⟨i, job, accepted, -, -, hservices, hstarted, hlisteners, -⟩ |
    ⟨hservices, hstarted, hlisteners, -⟩
  · refine ⟨fun i' => ?_, h.keys⟩
    by_cases hi : i' = i
    · subst hi
      simpa using (lifetime_step (h.attended i') hu).1
    · simpa [Function.update_of_ne hi] using h.attended i'
  · refine ⟨fun i' => hservices ▸ h.attended i', fun key => ?_⟩
    rw [hlisteners, hstarted, Keyed.mem_keys_put, h.keys]
    constructor
    · rintro (rfl | ⟨i', job', rfl, hmem⟩)
      · exact ⟨i, job, rfl, List.mem_append_right _ List.mem_cons_self⟩
      · exact ⟨i', job', rfl, List.mem_append_left _ hmem⟩
    · rintro ⟨i', job', rfl, hmem⟩
      rcases List.mem_append.1 hmem with hmem | hmem
      · exact Or.inr ⟨i', job', rfl, hmem⟩
      · cases List.mem_singleton.1 hmem
        exact Or.inl rfl
  · refine ⟨fun i => hservices ▸ h.attended i, fun key => ?_⟩
    rw [hlisteners, hstarted, h.keys]

theorem faultless_step {s t : VpnSystem ν} {e : VpnEvent ν} (hledger : Ledger s)
    (h : Faultless s) (hok : Unheard s e) (hstep : s.step sdk e = some t) : Faultless t := by
  rcases vpn_step_cases hledger hstep with ⟨i, e', u, rfl, hu, rfl⟩ |
    ⟨i, job, accepted, rfl, hjobs, hservices, hstarted, hlisteners, hregistered⟩ |
    ⟨hservices, hstarted, hlisteners, hregistered, -⟩
  · refine ⟨h.registered, fun i' job hmem => ?_⟩
    by_cases hi : i' = i
    · subst hi
      simp only [Function.update_self]
      cases hcleaned : e'.isCleaned with
      | false => exact (lifetime_step (hledger.attended i') hu).2 hcleaned (h.up i' job hmem)
      -- the end of a clean-up, which the condition keeps from services with a listener
      | true =>
          cases e' with
          | cleaned stop => exact absurd hmem (hok job)
          | _ => cases hcleaned
    · simpa [Function.update_of_ne hi] using h.up i' job hmem
  · constructor
    · rw [hregistered, hlisteners]
      -- after a `Start` there is a listener, so the callback has to be registered by now
      refine iff_of_true ?_ (Keyed.put_ne_nil _ _ _)
      by_cases hnil : s.actor.listeners = []
      · have haccepted : accepted = true := hok hnil
        simp [hnil, haccepted]
      · rw [if_neg hnil]
        exact h.registered.2 hnil
    · intro i' job' hmem
      rw [hservices]
      rw [hstarted] at hmem
      rcases List.mem_append.1 hmem with hmem | hmem
      · exact h.up i' job' hmem
      -- the service whose `Start` it is has a coroutine in `preInit`
      · cases List.mem_singleton.1 hmem
        exact Or.inl hjobs
  · refine ⟨by rw [hregistered, hlisteners]; exact h.registered, fun i job hmem => ?_⟩
    rw [hservices]
    exact h.up i job (hstarted ▸ hmem)

/-- The other way round: a step that breaks the condition shows. -/
theorem unheard_of_registered {s t : VpnSystem ν} {e : VpnEvent ν} (hledger : Ledger s)
    (hs : Registered s) (ht : Registered t) (hreleased : Released sdk s e)
    (hstep : s.step sdk e = some t) : Unheard s e := by
  rcases vpn_step_cases hledger hstep with ⟨i, e', u, rfl, -, rfl⟩ |
    ⟨i, job, accepted, rfl, hjobs, hservices, hstarted, hlisteners, hregistered⟩ |
    ⟨-, -, -, -, hunheard, -⟩
  · cases e' with
    | cleaned stop =>
        intro job hmem
        exact hreleased i stop _ rfl hstep ((holds_iff hledger i).2 ⟨job, hmem⟩)
    | _ => trivial
  · intro hnil
    -- nothing was registered before, and the service now holds a listener
    have hbefore : s.actor.registered = false := by
      rw [Bool.eq_false_iff]
      intro hregistered
      rcases hs.1 hregistered with ⟨i', -, hholds⟩
      simp [Holds, hnil] at hholds
    have hafter : t.actor.registered = true := by
      refine ht.2 ⟨i, ?_, ?_⟩
      · rw [hservices]
        exact Or.inl hjobs
      · rw [Holds, hlisteners, Keyed.mem_keys_put]
        exact Or.inl rfl
    simpa [hregistered, hnil, hbefore] using hafter
  · exact hunheard

end Steps

/-! ## All runs -/

/-- Along the run the callback is registered exactly while a started service holds a listener, and
every clean-up has taken its service's listener away. -/
def Unregisters [DecidableEq ν] (sdk : Nat) (h : List (VpnSystem ν × VpnEvent ν))
    (s : VpnSystem ν) : Prop :=
  Registered s ∧ ∀ p ∈ h, Registered p.1 ∧ Released sdk p.1 p.2

/-- Over all start and stop cycles of any services this holds exactly if no clean-up ends of a
service that has registered its listener, and no registration with the system fails. -/
theorem unregisters_iff_unheard [DecidableEq ν] {sdk : Nat}
    {h : List (VpnSystem ν × VpnEvent ν)} {s : VpnSystem ν} (hrun : Run (vpnMachine sdk) h s) :
    Unregisters sdk h s ↔ ∀ p ∈ h, Unheard p.1 p.2 := by
  have hledger : Ledger (vpnMachine (ν := ν) sdk).init := by
    refine ⟨fun i => ⟨by simp [vpnMachine], by simp [vpnMachine], by simp [vpnMachine],
      by simp [vpnMachine]⟩, fun key => by simp [vpnMachine]⟩
  have hfaultless : Faultless (vpnMachine (ν := ν) sdk).init :=
    ⟨by simp [vpnMachine], by simp [vpnMachine]⟩
  refine hrun.holds_iff hledger (fun _ _ _ hs => ledger_step hs) hfaultless ?_ ?_ ?_ ?_
  · exact fun s e t hs hgood he hst => faultless_step hs hgood he hst
  · exact fun s hs hgood => registered_of_faultless hs hgood
  · intro s e t' hs hgood hunheard _ i stop t he hst hholds
    rw [he] at hunheard
    rcases (holds_iff (ledger_step hs hst) i).1 hholds with ⟨job, hmem⟩
    rcases vpn_step_cases hs hst with ⟨i', e', u, -, -, rfl⟩ | ⟨i', job', accepted, he', -⟩ |
      ⟨-, -, -, -, -, hnot⟩
    · -- a step of the service does not send the actor anything
      exact hunheard job hmem
    · rw [he] at he'
      cases he'
    · exact hnot _ _ he
  · exact fun s e t hs hregistered ht hreleased hst =>
      unheard_of_registered hs hregistered ht hreleased hst

/-- One service is stopped before its attempt has begun, another one gets to register. -/
def earlyStop : List (VpnEvent String) :=
  [.service 0 (.onStartCommand (some {})), .service 0 (.stopRunner false none),
    .service 0 (.resume 0 []), .service 0 (.joined 1), .stopReceived 0 1 true,
    .service 0 (.cleaned 1), .service 1 (.onStartCommand (some {})),
    .service 1 (.resume 0 [.ok, .suspend]), .startReceived 1 0 true]

theorem unregisters_iff_unheard_earlyStop :
    ∃ h s, Run (vpnMachine 28) h s ∧ (vpnMachine 28).play earlyStop = some (h, s) ∧
      s.actor.registered = true ∧ Unregisters 28 h s := by
  refine ⟨_, _, run_of_play _ earlyStop rfl, rfl, rfl, ?_⟩
  refine (unregisters_iff_unheard (run_of_play _ earlyStop rfl)).2 ?_
  intro p hp
  simp only [List.nil_append, List.cons_append, List.mem_cons, List.not_mem_nil, or_false] at hp
  rcases hp with rfl | rfl | rfl | rfl | rfl | rfl | rfl | rfl | rfl
  · trivial
  · trivial
  · trivial
  · trivial
  · trivial
  · -- the clean-up ends, and no `Start` has been received
    intro job hmem
    cases hmem
  · trivial
  · trivial
  · exact fun _ => rfl

/-- A service is stopped while it connects, after `preInit`. -/
def stopWhileConnecting : List (VpnEvent String) :=
  [.service 0 (.onStartCommand (some {})), .service 0 (.resume 0 [.ok, .suspend]),
    .startReceived 0 0 true, .service 0 (.stopRunner false none), .service 0 (.resume 0 []),
    .service 0 (.joined 1), .stopReceived 0 1 true, .service 0 (.cleaned 1)]

/-- Its listener outlives the clean-up, and the callback stays registered for nobody. -/
theorem stopWhileConnecting_not_unregisters :
    ∃ h s, Run (vpnMachine 28) h s ∧ (vpnMachine 28).play stopWhileConnecting = some (h, s) ∧
      s.actor.listeners = [(.service 0, 0)] ∧ s.actor.registered = true ∧
      (∀ i, ¬ Up (s.services i)) ∧ ¬ Unregisters 28 h s := by
  have hrun := run_of_play (vpnMachine 28) stopWhileConnecting rfl
  refine ⟨_, _, hrun, rfl, rfl, rfl, ?_⟩
  refine (and_iff_left_of_imp ?_).2 ?_
  · -- registered, but with no service to be registered for
    rintro hdown ⟨hregistered, -⟩
    rcases hregistered.1 rfl with ⟨i, hup, -⟩
    exact hdown i hup
  · intro i
    cases i with
    | zero => rintro (h | h | h) <;> exact h rfl
    | succ i => rintro (h | h | h) <;> exact h rfl

end Bg
end SpinVpn
