import SpinVpn.Net.NetworkActor

/-!
# Registration — networks of an earlier registration

The actor together with the system's side.  A callback may be invoked while it is registered; its
thread then waits in `runBlocking` until the actor has received the message, and in the meantime
the actor may receive other messages, the last `Stop` among them.

Each call of `register()` begins a new *registration*.  A network is on time as long as the
registration lasts in which it was reported.  `timely_iff_prompt` shows that the actor gives away
a late network, or remembers one without having a listener, exactly if it receives a late `Put`.
-/

namespace SpinVpn
namespace Net

open EventMachine

/-! ## The system around the actor -/

inductive Request (κ ℓ : Type)
  | start (key : κ) (listener : ℓ)
  | get
  | stop (key : κ)
  deriving DecidableEq, Repr

inductive Callback (ν : Type)
  | onAvailable (network : ν)
  | onCapabilitiesChanged (network : ν)
  | onLost (network : ν)
  deriving DecidableEq, Repr

variable {κ ν ℓ : Type}

def Request.message : Request κ ℓ → NetworkMessage κ ν ℓ
  | .start key listener => .start key listener
  | .get => .get
  | .stop key => .stop key

def Callback.message : Callback ν → NetworkMessage κ ν ℓ
  | .onAvailable network => .put network
  | .onCapabilitiesChanged network => .update network
  | .onLost network => .lost network

structure Listening (κ ν ℓ : Type) where
  actor : NetworkActor κ ν ℓ := {}
  /-- how often the actor has called `register()` -/
  registrations : Nat := 0
  /-- the callback whose thread waits, with the registration in which it was invoked -/
  inFlight : Option (Callback ν × Nat) := none
  /-- the registration in which the remembered network was reported -/
  reportedIn : Nat := 0
  deriving DecidableEq, Repr

inductive Happening (κ ν ℓ : Type)
  | request (request : Request κ ℓ) (accepted : Bool)
  | invoke (callback : Callback ν)
  | deliver
  deriving DecidableEq, Repr

/-- The request is the one that makes the actor call `register()`. -/
def Request.registers (a : NetworkActor κ ν ℓ) : Request κ ℓ → Bool
  | .start _ _ => a.listeners.isEmpty
  | _ => false

/-- The registration of the remembered network after a callback that was invoked in `k`. -/
def Callback.remembered (k reportedIn : Nat) : Callback ν → Nat
  | .onAvailable _ => k
  | _ => reportedIn

section Steps

variable [DecidableEq κ] [DecidableEq ν]

/-- The next state, and what the actor does to the outside on the way there. -/
def Listening.step (sdk : Nat) (s : Listening κ ν ℓ) :
    Happening κ ν ℓ → Option (Listening κ ν ℓ × List (Output ν ℓ))
  | .request r accepted =>
      (s.actor.process sdk accepted r.message).map (fun p =>
        ({ s with
          actor := p.1
          registrations := if r.registers s.actor then s.registrations + 1 else s.registrations },
          p.2))
  | .invoke callback =>
      if s.actor.registered ∧ s.inFlight = none then
        some ({ s with inFlight := some (callback, s.registrations) }, [])
      else none
  | .deliver =>
      s.inFlight.bind (fun c =>
        (s.actor.process sdk true c.1.message).map (fun p =>
          ({ s with
            actor := p.1
            inFlight := none
            reportedIn := c.1.remembered c.2 s.reportedIn }, p.2)))

def listening (sdk : Nat) : Machine (Listening κ ν ℓ) (Happening κ ν ℓ) where
  init := {}
  step s e := (s.step sdk e).map Prod.fst

end Steps

/-! ## The property and the condition -/

/-- The output gives a network to a listener or a `Get`. -/
def Output.gives : Output ν ℓ → Bool
  | .call _ network => network.isSome
  | .complete _ _ => true

/-- A network is remembered only while there is a listener. -/
def Remembers (s : Listening κ ν ℓ) : Prop :=
  s.actor.network ≠ none → s.actor.listeners ≠ []

/-- The networks given away in a step were reported in the registration that is current then. -/
def GivesCurrent [DecidableEq κ] [DecidableEq ν] (sdk : Nat) (s : Listening κ ν ℓ)
    (e : Happening κ ν ℓ) : Prop :=
  ∀ t out, s.step sdk e = some (t, out) → ∀ o ∈ out, o.gives = true →
    t.reportedIn = t.registrations

/-- A `Put` is received in the registration in which its network was reported, and before that
one's last listener has gone. -/
def Prompt (s : Listening κ ν ℓ) : Happening κ ν ℓ → Prop
  | .deliver =>
      ∀ network k, s.inFlight = some (.onAvailable network, k) →
        s.actor.listeners ≠ [] ∧ k = s.registrations
  | _ => True

/-! ## What a message does to the remembered network -/

variable [DecidableEq κ] [DecidableEq ν]

/-- The network stays, is forgotten, or is that of a `Put`; and it only stays with its
listeners. -/
theorem process_network {sdk : Nat} {accepted : Bool} {a b : NetworkActor κ ν ℓ}
    {m : NetworkMessage κ ν ℓ} {out : List (Output ν ℓ)}
    (h : a.process sdk accepted m = some (b, out)) (hnet : b.network ≠ none) :
    (∃ n, m = .put n ∧ b.listeners = a.listeners) ∨
      ((∀ n, m ≠ .put n) ∧ b.network = a.network ∧ (a.listeners ≠ [] → b.listeners ≠ [])) := by
  cases m with
  | put n =>
      cases h
      exact Or.inl ⟨n, rfl, rfl⟩
  | start key listener =>
      refine Or.inr ⟨by simp, ?_⟩
      rcases NetworkActor.process_start h with ⟨registered, fallback, rfl, -⟩
      exact ⟨rfl, fun _ => Keyed.put_ne_nil _ _ _⟩
  | get =>
      refine Or.inr ⟨by simp, ?_⟩
      simp only [NetworkActor.process] at h
      split at h
      · cases h
      · split at h <;> cases h
        · exact absurd ‹_› hnet
        · exact ⟨by simp [*], id⟩
  | stop key =>
      refine Or.inr ⟨by simp, ?_⟩
      simp only [NetworkActor.process] at h
      split at h
      · unfold NetworkActor.unregister at h
        split at h <;> cases h
        exact absurd rfl hnet
      · rename_i hlast
        cases h
        refine ⟨rfl, fun hne hnil => ?_⟩
        -- the key was not there, so nothing has been removed
        have habsent : Keyed.get key a.listeners = none := by
          by_contra hkey
          exact hlast ⟨hkey, hnil⟩
        have hkept := Keyed.remove_of_get_eq_none habsent
        exact hne (hkept.symm.trans hnil)
  | update n =>
      cases h
      exact Or.inr ⟨by simp, rfl, id⟩
  | lost n =>
      refine Or.inr ⟨by simp, ?_⟩
      simp only [NetworkActor.process] at h
      split at h <;> cases h
      · exact absurd rfl hnet
      · exact ⟨rfl, id⟩

/-- Where a network is given away, it is the one that is remembered afterwards. -/
theorem network_of_gives {sdk : Nat} {accepted : Bool} {a b : NetworkActor κ ν ℓ}
    {m : NetworkMessage κ ν ℓ} {out : List (Output ν ℓ)}
    (h : a.process sdk accepted m = some (b, out)) {o : Output ν ℓ} (ho : o ∈ out)
    (hgives : o.gives = true) : b.network ≠ none := by
  cases m with
  | put n =>
      cases h
      simp
  | start key listener =>
      rcases NetworkActor.process_start h with ⟨registered, fallback, rfl, rfl⟩
      intro hnone
      simp [show a.network = none from hnone] at ho
  | get =>
      simp only [NetworkActor.process] at h
      split at h
      · cases h
      · split at h <;> cases h
        · simp at ho
        · simp [*]
  | stop key =>
      simp only [NetworkActor.process] at h
      split at h
      · rcases Option.map_eq_some_iff.1 h with ⟨r, -, heq⟩
        cases heq
        simp at ho
      · cases h
        simp at ho
  | update n =>
      cases h
      split at ho
      · simp [*]
      · simp at ho
  | lost n =>
      simp only [NetworkActor.process] at h
      split at h <;> cases h
      · rcases List.mem_map.1 ho with ⟨l, -, rfl⟩
        simp [Output.gives] at hgives
      · simp at ho

/-! ## One step -/

/-- The invariant: the remembered network has a listener and is of the current registration. -/
def Current (s : Listening κ ν ℓ) : Prop :=
  s.actor.network ≠ none → s.actor.listeners ≠ [] ∧ s.reportedIn = s.registrations

theorem current_step {sdk : Nat} {s t : Listening κ ν ℓ} {e : Happening κ ν ℓ}
    (h : Current s) (hok : Prompt s e) (hstep : (listening sdk).step s e = some t) :
    Current t := by
  rcases Option.map_eq_some_iff.1 hstep with ⟨⟨t', out⟩, hst, rfl⟩
  intro hnet
  cases e with
  | request r accepted =>
      rcases Option.map_eq_some_iff.1 hst with ⟨⟨b, out'⟩, hproc, heq⟩
      cases heq
      -- no request is a `Put`, so the network is the one that was remembered before
      rcases process_network hproc hnet with ⟨n, hput, -⟩ | ⟨-, hsame, hkept⟩
      · cases r <;> cases hput
      · have hold := h (hsame ▸ hnet)
        -- there is a listener already, so nothing is registered
        have hregisters : r.registers s.actor = false := by
          cases r <;> simp [Request.registers, hold.1]
        exact ⟨hkept hold.1, by simpa [hregisters] using hold.2⟩
  | invoke callback =>
      simp only [Listening.step] at hst
      split at hst <;> cases hst
      exact h hnet
  | deliver =>
      rcases Option.bind_eq_some_iff.1 hst with ⟨⟨callback, k⟩, hflight, hdeliver⟩
      rcases Option.map_eq_some_iff.1 hdeliver with ⟨⟨b, out'⟩, hproc, heq⟩
      cases heq
      rcases process_network hproc hnet with ⟨n, hput, hlisteners⟩ | ⟨hput, hsame, hkept⟩
      · cases callback with
        | onAvailable network =>
            have hprompt := hok network k hflight
            exact ⟨hlisteners ▸ hprompt.1, hprompt.2⟩
        | onCapabilitiesChanged network => cases hput
        | onLost network => cases hput
      · have hold := h (hsame ▸ hnet)
        refine ⟨hkept hold.1, ?_⟩
        cases callback with
        | onAvailable network => exact absurd rfl (hput network)
        | onCapabilitiesChanged network => exact hold.2
        | onLost network => exact hold.2

theorem current_of_gives {sdk : Nat} {s t : Listening κ ν ℓ} {e : Happening κ ν ℓ}
    {out : List (Output ν ℓ)} (hst : s.step sdk e = some (t, out)) {o : Output ν ℓ} (ho : o ∈ out)
    (hgives : o.gives = true) : t.actor.network ≠ none := by
  cases e with
  | request r accepted =>
      rcases Option.map_eq_some_iff.1 hst with ⟨⟨b, out'⟩, hproc, heq⟩
      cases heq
      exact network_of_gives hproc ho hgives
  | invoke callback =>
      simp only [Listening.step] at hst
      split at hst <;> cases hst
      simp at ho
  | deliver =>
      rcases Option.bind_eq_some_iff.1 hst with ⟨⟨callback, k⟩, -, hdeliver⟩
      rcases Option.map_eq_some_iff.1 hdeliver with ⟨⟨b, out'⟩, hproc, heq⟩
      cases heq
      exact network_of_gives hproc ho hgives

/-- A `Put` is remembered and given to every listener, so a late one shows at once. -/
theorem prompt_of_timely {sdk : Nat} {s t : Listening κ ν ℓ} {e : Happening κ ν ℓ}
    (hstep : (listening sdk).step s e = some t) (hremembers : Remembers t)
    (hgives : GivesCurrent sdk s e) : Prompt s e := by
  cases e with
  | request r accepted => trivial
  | invoke callback => trivial
  | deliver =>
      intro network k hflight
      set b : NetworkActor κ ν ℓ :=
        { s.actor with network := some network, pendingRequests := [] } with hb
      set out : List (Output ν ℓ) := s.actor.pendingRequests.map (fun g => .complete g network) ++
        s.actor.callAll (some network) with hout
      have hst : s.step sdk .deliver =
          some ({ s with actor := b, inFlight := none, reportedIn := k }, out) := by
        simp only [Listening.step, hflight]
        rfl
      have ht : t = { s with actor := b, inFlight := none, reportedIn := k } := by
        have hstep' : some _ = some t := (congrArg (Option.map Prod.fst) hst).symm.trans hstep
        exact (Option.some.inj hstep').symm
      -- after the `Put` a network is remembered, so there has to be a listener
      have hlisteners : s.actor.listeners ≠ [] := by
        have := hremembers (by simp [ht, hb])
        simpa [ht, hb] using this
      refine ⟨hlisteners, ?_⟩
      -- and that listener is called with the network
      rcases List.exists_mem_of_ne_nil _ hlisteners with ⟨l, hl⟩
      have hcall : Output.call l.2 (some network) ∈ out :=
        List.mem_append_right _ (List.mem_map.2 ⟨l, hl, rfl⟩)
      exact hgives _ _ hst _ hcall rfl

/-! ## All runs -/

/-- Along the run, a network is remembered only while there is a listener, and none is given away
after the registration in which it was reported. -/
def Timely (sdk : Nat) (h : List (Listening κ ν ℓ × Happening κ ν ℓ)) (s : Listening κ ν ℓ) :
    Prop :=
  Remembers s ∧ ∀ p ∈ h, Remembers p.1 ∧ GivesCurrent sdk p.1 p.2

/-- Whatever the order of the messages, a run is timely exactly if every `Put` is received
promptly. -/
theorem timely_iff_prompt {sdk : Nat} {h : List (Listening κ ν ℓ × Happening κ ν ℓ)}
    {s : Listening κ ν ℓ} (hrun : Run (listening sdk) h s) :
    Timely sdk h s ↔ ∀ p ∈ h, Prompt p.1 p.2 := by
  have hinit : Current (listening (κ := κ) (ν := ν) (ℓ := ℓ) sdk).init :=
    fun hne => absurd rfl hne
  refine hrun.holds_iff (J := fun _ => True) trivial (fun _ _ _ _ _ => trivial) hinit ?_ ?_ ?_ ?_
  · exact fun s e t _ hs he hst => current_step hs he hst
  · exact fun s _ hs hnet => (hs hnet).1
  · intro s e t _ hs he hstep t' out hst o ho hgives
    have hnext : Current t' := current_step hs he (congrArg (Option.map Prod.fst) hst)
    exact (hnext (current_of_gives hst ho hgives)).2
  · exact fun s e t _ _ ht hgives hst => prompt_of_timely hst ht hgives

/-- A listener is started and told of a network. -/
def prompt : List (Happening Nat String Nat) :=
  [.request (.start 0 0) true, .invoke (.onAvailable "wlan0"), .deliver]

theorem timely_iff_prompt_started :
    ∃ h s, Run (listening 28) h s ∧ (listening 28).play prompt = some (h, s) ∧
      s.actor.network = some "wlan0" ∧ Timely 28 h s := by
  refine ⟨_, _, run_of_play _ prompt rfl, rfl, rfl, ?_⟩
  refine (timely_iff_prompt (run_of_play _ prompt rfl)).2 ?_
  intro p hp
  simp only [List.nil_append, List.cons_append, List.mem_cons, List.not_mem_nil, or_false] at hp
  rcases hp with rfl | rfl | rfl
  · trivial
  · trivial
  · intro network k hflight
    cases hflight
    exact ⟨by decide, rfl⟩

/-- The last listener stops while the callback waits to be received. -/
def late : List (Happening Nat String Nat) :=
  [.request (.start 0 0) true, .invoke (.onAvailable "wlan0"), .request (.stop 0) true, .deliver]

/-- The network is remembered without a listener, and given to the next listener to come. -/
theorem late_not_timely :
    ∃ h s t, Run (listening 28) (h ++ [(s, .request (.start 1 1) true)]) t ∧
      (listening 28).play late = some (h, s) ∧
      s.actor.listeners = [] ∧ s.actor.network = some "wlan0" ∧
      s.step 28 (.request (.start 1 1) true) = some (t, [.call 1 (some "wlan0")]) ∧
      t.reportedIn = 1 ∧ t.registrations = 2 ∧
      ¬ Timely 28 (h ++ [(s, .request (.start 1 1) true)]) t := by
  refine ⟨_, _, _, (run_of_play _ late rfl).snoc rfl, rfl, rfl, rfl, rfl, rfl, rfl, ?_⟩
  rintro ⟨-, hall⟩
  have hgiven := (hall _ (List.mem_append_right _ List.mem_cons_self)).2
  exact absurd (hgiven _ _ rfl _ List.mem_cons_self rfl) (by decide)

end Net
end SpinVpn
