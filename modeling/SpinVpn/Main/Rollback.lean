import SpinVpn.Main.Toggle

/-!
# Rollback — preparing a toggle and taking it back

Preparing a toggle overwrites `BaseConnector.state` with a transitional state and remembers
nothing of the old one.  Taking the toggle back infers it: `Connecting` came from `Stopped`, and
`Stopping` from `Connected`.  The entry points do not all check that.  `toggleConnection` looks at
the state, but `linkVpn` connects in any state other than `Connected`, and the server list
decides between its two actions when a server is selected, while the toggle is prepared only when
its result arrives.

`rolledBack_iff_inferred` says in which states the inference is right.
-/

namespace SpinVpn
namespace Main

open EventMachine

/-! ## Preparing and waiting -/

/-- What `ConnectionListActivity.onNewConnection` returns for the selected server, the question
whether to disconnect being answered with yes. -/
def onNewConnection (a : App) (c : MConnection) : Option Action :=
  if a.state = .connected then
    if a.connectData = c then none else some .disconnect
  else some .connect

/-- The event prepares a toggle.  Toggles are numbered when they are prepared. -/
def Prepares (a : App) (e : Event) (b : App) : Prop :=
  step a e = some b ∧ b.next = a.next + 1

/-- From `b` to `c` the toggle waits in its animator, and nothing else happens to the state. -/
inductive Waits (b : App) : App → Prop where
  | refl : Waits b b
  | step {c d : App} {e : Event} :
      Waits b c → step c e = some d → d.mConnectJob = c.mConnectJob → d.state = c.state →
        Waits b d

/-- The state in which the event is met is the one that a rollback infers. -/
def Inferred (a : App) : Event → Prop
  | .toggleConnection _ => a.state = .stopped ∨ a.state = .connected
  | .onActivityResult _ _ .disconnect => a.state = .connected
  | _ => a.state = .stopped

theorem Waits.same {b c : App} (h : Waits b c) :
    c.mConnectJob = b.mConnectJob ∧ c.state = b.state := by
  induction h with
  | refl => exact ⟨rfl, rfl⟩
  | step _ _ hjob hstate ih => exact ⟨hjob.trans ih.1, hstate.trans ih.2⟩

/-! ## Which steps prepare -/

/-- Either nothing is prepared, or a toggle to connect is, in the state the call met. -/
theorem openConnection_next (env : Environment) (a : App) :
    (openConnection env a).next = a.next ∨ openConnection env a = prepareToggleConnection true a := by
  have hcommit : (changeConnectDataReally a).next = a.next := by
    have hbooks := congrArg Books.next (books_changeConnectDataReally a)
    exact hbooks
  rcases openConnection_cases env a with heq | heq | heq | heq
  · exact Or.inl (heq ▸ hcommit)
  · exact Or.inl (by rw [heq])
  · exact Or.inr heq
  · exact Or.inl (by rw [heq])

theorem next_postToggle (t : Toggle) (a : App) : (postToggle t a).next = a.next := by
  rcases books_postToggle t a with h | h | h <;> exact congrArg Books.next h

theorem next_onStart (a : App) : (onStart a).next = a.next := by
  have hdeliver : (deliverAd a).next = a.next := congrArg Books.next (books_deliverAd a)
  rw [onStart_eq]
  split
  · exact hdeliver
  · rename_i t _
    rcases books_doToggleConnection t { deliverAd a with pendingToggle := none } with h | h <;>
      exact (congrArg Books.next h).trans hdeliver

theorem next_intercept (a : App) : (interceptToggleConnection a).next = a.next := by
  have hbooks := congrArg Books.next (books_interceptToggleConnection a)
  cases hjob : a.mConnectJob with
  | none => simpa [hjob, books] using hbooks
  | some an => simpa [hjob, books] using hbooks

theorem next_onFrame (an : Animator) (progress : Nat) (ad : Bool) (a : App) :
    (onFrame an progress ad a).next = a.next := by
  unfold onFrame
  split
  · split
    · rcases books_postAd an.toggle (destroyConnectJob a) with h | h <;>
        exact congrArg Books.next h
    · rfl
  · split
    · exact next_postToggle _ _
    · rfl

/-- The toggle that an event prepares: to disconnect where the state is `Connected` or the server
list says so, else to connect. -/
def intent (a : App) : Event → Bool
  | .toggleConnection _ => !canStop a
  | .onActivityResult _ _ .disconnect => false
  | _ => true

/-- Whichever way a toggle is prepared, the state it overwrites is the one the event met. -/
theorem eq_prepare_of_prepares {a b : App} {e : Event} (h : Prepares a e b) :
    ∃ a', b = prepareToggleConnection (intent a e) a' := by
  rcases h with ⟨hstep, hnext⟩
  -- three of the events end in `openConnection`, which prepares nothing unless the number of the next
  -- toggle grows
  have hopen : ∀ env (a' : App), a'.next = a.next → b = openConnection env a' →
      b = prepareToggleConnection true a' := by
    intro env a' hsame hb
    rcases openConnection_next env a' with hkept | hprep
    · rw [hb, hkept, hsame] at hnext
      omega
    · rw [hb, hprep]
  cases steps_of_step hstep with
  | toggleConnection env =>
      rcases toggleConnection_cases env a with heq | ⟨hstop, heq⟩ | ⟨hstop, heq⟩
      · rw [heq] at hnext
        omega
      · exact ⟨a, by rw [heq, intent, hstop]; rfl⟩
      · exact ⟨a, by rw [hopen env a rfl heq, intent, hstop]; rfl⟩
  | linkVpn env =>
      rcases linkVpn_cases env a with heq | heq
      · rw [heq] at hnext
        omega
      · exact ⟨a, hopen env a rfl heq⟩
  | onActivityResult env c action =>
      cases action with
      | connect =>
          exact ⟨_, hopen env { a with mNewConnection := some c, mConnection := c } rfl rfl⟩
      | disconnect => exact ⟨_, rfl⟩
  | permissionResult granted _ =>
      cases granted with
      | true => exact ⟨_, rfl⟩
      | false =>
          have hkept : (onPermission false { a with permissionCallback := false }).next = a.next :=
            congrArg Books.next (books_changeConnectDataReally { a with permissionCallback := false })
          omega
  -- none of the other events gives out a number
  | frame an progress ad _ _ =>
      rw [next_onFrame] at hnext
      omega
  | adCompleted t _ =>
      rw [next_postToggle] at hnext
      simp at hnext
  | intercept =>
      rw [next_intercept] at hnext
      omega
  | onStart _ =>
      rw [next_onStart] at hnext
      omega
  | onStop => simp at hnext
  | onDestroy => simp [onDestroy, next_intercept] at hnext
  | poll job _ =>
      have hkept : (poll job a).next = a.next := congrArg Books.next (books_poll a job)
      omega
  | resultShown _ => simp at hnext
  | timerTick _ => simp at hnext
  | stateChanged st _ => simp [stateChanged] at hnext
  | onServiceConnected st _ =>
      have hkept : (onServiceConnected st a).next = a.next :=
        congrArg Books.next (books_onServiceConnected a st)
      omega
  | onServiceDisconnected _ =>
      have hkept : (onServiceDisconnected a).next = a.next :=
        congrArg Books.next (books_serviceStateCallback _ false)
      omega
  | onBinderDied _ => omega

/-! ## Taking it back -/

/-- A rollback infers the old state from the kind of toggle alone. -/
theorem intercept_state {a : App} {an : Animator} (hjob : a.mConnectJob = some an)
    (forConnect : Bool) (hstate : a.state = if forConnect then .connecting else .stopping) :
    (interceptToggleConnection a).state = if forConnect then .stopped else .connected := by
  have hresume : (resumeConnection (destroyConnectJob a)).state =
      if forConnect then .stopped else .connected := by
    have hdestroy : (destroyConnectJob a).state = a.state := rfl
    cases forConnect <;> simp [resumeConnection, hdestroy, hstate]
  simp only [interceptToggleConnection, hjob]
  split <;> exact hresume

/-- Preparing a toggle in a state and taking it back before its command is issued leads back to
that state exactly if the state is the one that the rollback infers. -/
theorem rolledBack_iff_inferred {a b c : App} {e : Event} (hprep : Prepares a e b)
    (hwait : Waits b c) :
    (interceptToggleConnection c).state = a.state ↔ Inferred a e := by
  rcases eq_prepare_of_prepares hprep with ⟨a', rfl⟩
  -- the toggle is still in its animator, and the state is still the one that was set with it
  have hback : (interceptToggleConnection c).state =
      if intent a e then .stopped else .connected :=
    intercept_state (hwait.same.1.trans rfl) (intent a e) (hwait.same.2.trans rfl)
  rw [hback]
  cases e with
  | toggleConnection env => cases hs : a.state <;> simp [intent, canStop, Inferred, hs]
  | onActivityResult env c action => cases action <;> simp [intent, Inferred, eq_comm]
  | _ => simp [intent, Inferred, eq_comm]

/-- Tapping the button in `Stopped`, and a frame of the animator. -/
theorem rolledBack_iff_inferred_stopped :
    ∃ b c, Prepares machine.init (.toggleConnection {}) b ∧ Waits b c ∧
      b.state = .connecting ∧ (interceptToggleConnection c).state = .stopped := by
  have hprep : Prepares machine.init (.toggleConnection {})
      (toggleConnection {} machine.init) := ⟨rfl, rfl⟩
  have hwait : Waits (toggleConnection {} machine.init) (toggleConnection {} machine.init) :=
    -- ten percent of the animation change nothing
    Waits.refl.step (e := .frame 10 false) rfl rfl rfl
  exact ⟨_, _, hprep, hwait, rfl, (rolledBack_iff_inferred hprep hwait).2 (Or.inl rfl)⟩

/-- The user selects another server while connected, and the service goes down before the result
of the server list arrives: the rollback shows `Connected`, though the toggle was prepared in
`Stopped`. -/
theorem disconnectTooLate_not_rolledBack :
    ∃ selected met waiting,
      Run machine [(machine.init, .onServiceConnected .connected),
        (selected, .onServiceDisconnected)] met ∧
      onNewConnection selected { host := "185.14.0.1" } = some .disconnect ∧
      Prepares met (.onActivityResult {} { host := "185.14.0.1" } .disconnect) waiting ∧
      met.state = .stopped ∧ (interceptToggleConnection waiting).state = .connected := by
  refine ⟨_, _, _, run_of_play _ [.onServiceConnected .connected, .onServiceDisconnected] rfl,
    by decide, ⟨rfl, rfl⟩, rfl, rfl⟩

end Main
end SpinVpn
