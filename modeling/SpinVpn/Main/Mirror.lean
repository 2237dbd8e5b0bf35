import SpinVpn.Main.Toggle

/-!
# Mirror — the app's state and the service's

`BaseConnector.state` is what the app shows; `shadowsockState` is the last state the service has
reported.  `onServiceConnected` brings the two together, but `stateChanged` only records the
report.  A stop that does not come from the app leaves the app showing `Connected` with its timer
running, and so does rolling a disconnect back after the service has stopped by itself.

`faithful_iff_heeded` shows that a run keeps the two in agreement exactly if none of these happens.
-/

namespace SpinVpn
namespace Main

open EventMachine

/-! ## The property and the condition -/

/-- A toggle is pending in the animator, waits for an ad or its observer, or is being carried out
by the connector. -/
def inFlight (a : App) : Bool :=
  a.mConnectJob.any (fun an => !an.ended) || a.pendingAd.isSome || !a.ads.isEmpty ||
    a.pendingToggle.isSome || a.connectServiceJob.isSome

/-- The app shows `Connected`, or its connection timer runs. -/
def showsConnected (a : App) : Bool :=
  decide (a.state = .connected) || a.timer

/-- While the connector is bound and no toggle is in flight, the app does not show a tunnel that
the service has not last reported as `Connected`. -/
def Faithful (a : App) : Prop :=
  a.bound = true → inFlight a = false → showsConnected a = true → a.shadowsockState = .connected

/-- The steps that do not bring the two states apart: with no toggle in flight, no report of
another state than `Connected` arrives while the app shows `Connected` (a report of `Stopped` at
binding is harmless), and no interception ends the last toggle in flight in favour of showing
`Connected` when this is not the last report. -/
def Heeded (a : App) : Event → Prop
  | .stateChanged st => st ≠ .connected → inFlight a = false → showsConnected a = false
  | .onServiceConnected st =>
      st ≠ .connected → st ≠ .stopped → inFlight a = false → showsConnected a = false
  | .intercept =>
      a.bound = true → a.mConnectJob ≠ none → inFlight { a with mConnectJob := none } = false →
        showsConnected a = true ∨ a.state = .stopping → a.shadowsockState = .connected
  | _ => True

/-! ## Four ways to stay faithful -/

theorem faithful_of_inFlight {a : App} (h : inFlight a = true) : Faithful a := by
  intro _ hfl
  rw [h] at hfl
  cases hfl

theorem faithful_of_not_showsConnected {a : App} (h : showsConnected a = false) :
    Faithful a := by
  intro _ _ hs
  rw [h] at hs
  cases hs

theorem faithful_of_reported {a : App} (h : a.shadowsockState = .connected) : Faithful a :=
  fun _ _ _ => h

/-- Nothing that matters has changed. -/
theorem Faithful.congr {a b : App} (ha : Faithful a) (hbound : b.bound = a.bound)
    (hflight : inFlight b = inFlight a) (hshow : showsConnected b = showsConnected a)
    (hrep : b.shadowsockState = a.shadowsockState) : Faithful b := by
  intro hb hfl hs
  rw [hrep]
  exact ha (hbound ▸ hb) (hflight ▸ hfl) (hshow ▸ hs)

/-! ## Frames -/

section Frames

variable (a : App)

theorem faithful_changeConnectDataReally (h : Faithful a) :
    Faithful (changeConnectDataReally a) := by
  unfold changeConnectDataReally
  split
  · exact h
  · exact h.congr rfl rfl rfl rfl

theorem showsConnected_onStartResult (forConnect connected : Bool) :
    showsConnected (onStartResult forConnect connected a) = showsConnected a := by
  unfold onStartResult postResult
  split
  · split <;> rfl
  · rfl

theorem shadowsockState_onStartResult (forConnect connected : Bool) :
    (onStartResult forConnect connected a).shadowsockState = a.shadowsockState := by
  unfold onStartResult postResult
  split
  · split <;> rfl
  · rfl

end Frames

/-! ## One step -/

theorem faithful_prepare (forConnect : Bool) (a : App) :
    Faithful (prepareToggleConnection forConnect a) :=
  faithful_of_inFlight rfl

theorem faithful_onPermission {a : App} (granted : Bool) (h : Faithful a) :
    Faithful (onPermission granted a) := by
  unfold onPermission
  split
  · exact faithful_prepare true a
  · exact faithful_changeConnectDataReally a h

theorem faithful_openConnection {a : App} (env : Environment) (h : Faithful a) :
    Faithful (openConnection env a) := by
  rcases openConnection_cases env a with heq | heq | heq | heq
  · rw [heq]
    exact faithful_changeConnectDataReally a h
  · rw [heq]
    exact h
  · rw [heq]
    exact faithful_prepare true a
  · rw [heq]
    exact h.congr rfl rfl rfl rfl

/-- A command to connect keeps the toggle in flight; one to disconnect stops the timer and shows
`Stopped`. -/
theorem faithful_connectorToggle (t : Toggle) (a : App) : Faithful (connectorToggle t a) := by
  unfold connectorToggle
  dsimp only
  split
  · refine faithful_of_inFlight ?_
    simp [inFlight, connectServiceInternal]
  · refine faithful_of_not_showsConnected ?_
    rw [disconnectServiceInternal, showsConnected_onStartResult]
    rfl

theorem faithful_doToggleConnection {a : App} (t : Toggle)
    (hatt : a.bound = true → a.mConnector = true) : Faithful (doToggleConnection t a) := by
  simp only [doToggleConnection, mConnector_changeConnectDataReally]
  split
  · exact faithful_connectorToggle t _
  · rename_i hcon
    -- without a connector the activity is gone, and with it the bound connection
    intro hbound
    have hb : a.bound = true := by
      unfold changeConnectDataReally at hbound
      split at hbound <;> exact hbound
    exact absurd (hatt hb) hcon

theorem faithful_postToggle {a : App} (t : Toggle)
    (hatt : a.bound = true → a.mConnector = true) : Faithful (postToggle t a) := by
  unfold postToggle
  split
  · exact faithful_doToggleConnection t hatt
  · refine faithful_of_inFlight ?_
    simp [inFlight]

theorem faithful_onFrame {a : App} {an : Animator} (progress : Nat) (ad : Bool)
    (hatt : a.bound = true → a.mConnector = true) (h : Faithful a) :
    Faithful (onFrame an progress ad a) := by
  unfold onFrame
  split
  · split
    · refine faithful_of_inFlight ?_
      unfold postAd
      split <;> simp [inFlight]
    · exact h
  · split
    · exact faithful_postToggle an.toggle hatt
    · exact h

theorem faithful_onStart {a : App} (hatt : a.bound = true → a.mConnector = true)
    (h : Faithful a) : Faithful (onStart a) := by
  have hframe : (deliverAd a).bound = a.bound ∧ (deliverAd a).mConnector = a.mConnector ∧
      (deliverAd a).state = a.state ∧ (deliverAd a).timer = a.timer ∧
      (deliverAd a).shadowsockState = a.shadowsockState ∧
      (deliverAd a).connectServiceJob = a.connectServiceJob := by
    unfold deliverAd
    dsimp only
    cases a.pendingAd <;> cases a.pendingResult <;> simp
  rcases hframe with ⟨hb, hc, hs, ht, hr, hj⟩
  have hbooks := books_deliverAd a
  simp only [books, Books.mk.injEq] at hbooks
  rcases hbooks with ⟨hjob, hads, hpad, hpt, _⟩
  rw [onStart_eq]
  cases hpend : (deliverAd a).pendingToggle with
  | none =>
      refine h.congr hb ?_ ?_ hr
      · simp only [inFlight, hjob, hads, hpad, hpt, hj]
        cases a.pendingAd <;> simp
      · simp [showsConnected, hs, ht]
  | some t =>
      refine faithful_doToggleConnection t ?_
      dsimp only
      rw [hb, hc]
      exact hatt

theorem faithful_connectResult (a : App) : Faithful (connectResult a) := by
  unfold connectResult
  dsimp only
  split
  · rename_i hcon
    refine faithful_of_reported ?_
    rw [shadowsockState_onStartResult]
    simpa [isConnected, onConnected, startTimer] using hcon
  · refine faithful_of_not_showsConnected ?_
    rw [showsConnected_onStartResult]
    rfl

theorem faithful_poll (job : ConnectServiceJob) (a : App) : Faithful (poll job a) := by
  rcases poll_cases a job with ⟨job', h | h⟩
  · rw [h]
    refine faithful_of_inFlight ?_
    simp [inFlight]
  · rw [h]
    exact faithful_connectResult _

theorem serviceStateCallback_congr (connected : Bool) (a : App) :
    Faithful (serviceStateCallback connected a) ↔ Faithful a := by
  unfold serviceStateCallback
  split <;> rfl

/-- What `interceptToggleConnection` shows afterwards. -/
theorem intercept_panel {a : App} {an : Animator} (hjob : a.mConnectJob = some an) :
    (interceptToggleConnection a).bound = a.bound ∧
    inFlight (interceptToggleConnection a) = inFlight { a with mConnectJob := none } ∧
    showsConnected (interceptToggleConnection a) =
      (showsConnected a || decide (a.state = .stopping)) ∧
    (interceptToggleConnection a).shadowsockState = a.shadowsockState := by
  unfold interceptToggleConnection resumeConnection destroyConnectJob
  rw [hjob]
  dsimp only
  cases a.mNewConnection <;> cases hstate : a.state <;>
    simp [inFlight, showsConnected, hstate]

/-- An interception is heeded exactly if it leaves the app faithful. -/
theorem faithful_intercept {a : App} (h : Faithful a) :
    Faithful (interceptToggleConnection a) ↔ Heeded a .intercept := by
  cases hjob : a.mConnectJob with
  | none =>
      have hsame : interceptToggleConnection a = a := by simp [interceptToggleConnection, hjob]
      rw [hsame]
      refine ⟨fun _ _ hne => absurd hjob hne, fun _ => h⟩
  | some an =>
      rcases intercept_panel hjob with ⟨hb, hfl, hs, hr⟩
      constructor
      · intro hf hbound _ hother hshow
        rw [← hr]
        refine hf (hb.trans hbound) (hfl.trans hother) ?_
        rw [hs]
        simpa using hshow
      · intro hok hbound hflight hshow
        rw [hr]
        refine hok (hb ▸ hbound) (by simp [hjob]) (hfl ▸ hflight) ?_
        rw [hs] at hshow
        simpa using hshow

/-- A report is heeded exactly if it leaves the app faithful. -/
theorem faithful_stateChanged {a : App} (st : Bg.State) (hbound : a.bound = true) :
    Faithful (stateChanged st a) ↔ Heeded a (.stateChanged st) := by
  constructor
  · intro hf hne hflight
    by_contra hshow
    have hs : showsConnected a = true := by simpa using hshow
    exact hne (hf hbound hflight hs)
  · intro hok _ hflight hshow
    by_contra hne
    have : showsConnected a = false := hok hne hflight
    rw [show showsConnected (stateChanged st a) = showsConnected a from rfl, this] at hshow
    cases hshow

theorem faithful_onServiceConnected {a : App} (st : Bg.State) (hbound : a.bound = true) :
    Faithful (onServiceConnected st a) ↔ Heeded a (.onServiceConnected st) := by
  unfold onServiceConnected
  dsimp only
  rw [serviceStateCallback_congr]
  cases st with
  | connected =>
      exact ⟨fun _ hne => absurd rfl hne, fun _ => faithful_of_reported rfl⟩
  | stopped =>
      exact ⟨fun _ _ hne => absurd rfl hne, fun _ => faithful_of_not_showsConnected rfl⟩
  | idle =>
      have := faithful_stateChanged .idle hbound
      exact this.trans ⟨fun h hne _ => h hne, fun h hne => h hne (by decide)⟩
  | connecting =>
      have := faithful_stateChanged .connecting hbound
      exact this.trans ⟨fun h hne _ => h hne, fun h hne => h hne (by decide)⟩
  | stopping =>
      have := faithful_stateChanged .stopping hbound
      exact this.trans ⟨fun h hne _ => h hne, fun h hne => h hne (by decide)⟩

/-- The connection is dropped together with the connector. -/
def Attached (a : App) : Prop :=
  a.bound = true → a.mConnector = true

/-- The two flags that only the end of the activity changes. -/
def ties (a : App) : Bool × Bool :=
  (a.bound, a.mConnector)

section Ties

variable (a : App)

@[simp] theorem ties_changeConnectDataReally : ties (changeConnectDataReally a) = ties a := by
  unfold changeConnectDataReally
  split <;> rfl

@[simp] theorem ties_onStartResult (forConnect connected : Bool) :
    ties (onStartResult forConnect connected a) = ties a := by
  unfold onStartResult postResult
  split
  · split <;> rfl
  · rfl

@[simp] theorem ties_connectorToggle (t : Toggle) : ties (connectorToggle t a) = ties a := by
  unfold connectorToggle
  dsimp only
  split
  · rfl
  · rw [disconnectServiceInternal, ties_onStartResult]
    rfl

@[simp] theorem ties_doToggleConnection (t : Toggle) : ties (doToggleConnection t a) = ties a := by
  unfold doToggleConnection
  dsimp only
  split <;> simp

@[simp] theorem ties_postToggle (t : Toggle) : ties (postToggle t a) = ties a := by
  unfold postToggle
  split
  · exact ties_doToggleConnection a t
  · rfl

@[simp] theorem ties_onPermission (granted : Bool) : ties (onPermission granted a) = ties a := by
  unfold onPermission
  split
  · rfl
  · exact ties_changeConnectDataReally a

@[simp] theorem ties_openConnection (env : Environment) :
    ties (openConnection env a) = ties a := by
  rcases openConnection_cases env a with heq | heq | heq | heq
  · rw [heq]
    exact ties_changeConnectDataReally a
  · rw [heq]
  · rw [heq]
    rfl
  · rw [heq]
    rfl

@[simp] theorem ties_onFrame (an : Animator) (progress : Nat) (ad : Bool) :
    ties (onFrame an progress ad a) = ties a := by
  unfold onFrame postAd
  split
  · split
    · split <;> rfl
    · rfl
  · split
    · rw [ties_postToggle]
      rfl
    · rfl

@[simp] theorem ties_interceptToggleConnection : ties (interceptToggleConnection a) = ties a := by
  unfold interceptToggleConnection resumeConnection destroyConnectJob
  cases a.mConnectJob with
  | none => rfl
  | some an =>
      dsimp only
      cases a.mNewConnection <;> cases a.state <;> rfl

@[simp] theorem ties_connectResult : ties (connectResult a) = ties a := by
  unfold connectResult
  dsimp only
  split <;> rw [ties_onStartResult] <;> rfl

@[simp] theorem ties_poll (job : ConnectServiceJob) : ties (poll job a) = ties a := by
  rcases poll_cases a job with ⟨job', h | h⟩
  · rw [h]
    rfl
  · rw [h, ties_connectResult]
    rfl

@[simp] theorem ties_serviceStateCallback (connected : Bool) :
    ties (serviceStateCallback connected a) = ties a := by
  unfold serviceStateCallback
  split <;> rfl

@[simp] theorem ties_onServiceConnected (st : Bg.State) :
    ties (onServiceConnected st a) = ties a := by
  unfold onServiceConnected
  dsimp only
  rw [ties_serviceStateCallback]
  cases st <;> rfl

@[simp] theorem ties_onStart : ties (onStart a) = ties a := by
  have hdeliver : ties (deliverAd a) = ties a := by
    unfold deliverAd
    dsimp only
    cases a.pendingAd <;> cases a.pendingResult <;> rfl
  rw [onStart_eq]
  cases (deliverAd a).pendingToggle with
  | none => exact hdeliver
  | some t => rw [ties_doToggleConnection, ← hdeliver]; rfl

end Ties

theorem attached_step {a b : App} {e : Event} (h : Attached a) (hstep : step a e = some b) :
    Attached b := by
  have hties : e ≠ .onDestroy → ties b = ties a := by
    intro hne
    cases steps_of_step hstep with
    | toggleConnection env =>
        rcases toggleConnection_cases env a with heq | ⟨-, heq⟩ | ⟨-, heq⟩
        · rw [heq]
        · rw [heq]
          rfl
        · rw [heq]
          exact ties_openConnection a env
    | linkVpn env =>
        rcases linkVpn_cases env a with heq | heq
        · rw [heq]
        · rw [heq]
          exact ties_openConnection a env
    | onActivityResult env c action =>
        cases action with
        | connect => exact ties_openConnection _ env
        | disconnect => rfl
    | permissionResult granted _ => exact ties_onPermission _ granted
    | frame an progress ad _ _ => exact ties_onFrame a an progress ad
    | adCompleted t _ => exact ties_postToggle _ t
    | intercept => exact ties_interceptToggleConnection a
    | onStart _ => exact ties_onStart a
    | onDestroy => exact absurd rfl hne
    | poll job _ => exact ties_poll a job
    | onServiceConnected st _ => exact ties_onServiceConnected a st
    | onServiceDisconnected _ => exact ties_serviceStateCallback _ false
    | _ => rfl
  by_cases he : e = .onDestroy
  · subst he
    cases hstep
    intro hbound
    cases hbound
  · have hb := congrArg Prod.fst (hties he)
    have hc := congrArg Prod.snd (hties he)
    intro hbound
    exact hc.trans (h (hb.symm.trans hbound))

/-- One step keeps the app faithful exactly if it is heeded. -/
theorem faithful_step {a b : App} {e : Event} (hatt : Attached a) (h : Faithful a)
    (hstep : step a e = some b) : Faithful b ↔ Heeded a e := by
  cases steps_of_step hstep with
  | stateChanged st hbound => exact faithful_stateChanged st hbound
  | onServiceConnected st hbound => exact faithful_onServiceConnected st hbound
  | intercept => exact faithful_intercept h
  -- the other events are heeded in any case
  | toggleConnection env =>
      refine iff_of_true ?_ trivial
      rcases toggleConnection_cases env a with heq | ⟨-, heq⟩ | ⟨-, heq⟩
      · rw [heq]
        exact h
      · rw [heq]
        exact faithful_prepare false a
      · rw [heq]
        exact faithful_openConnection env h
  | linkVpn env =>
      refine iff_of_true ?_ trivial
      rcases linkVpn_cases env a with heq | heq
      · rw [heq]
        exact h
      · rw [heq]
        exact faithful_openConnection env h
  | onActivityResult env c action =>
      refine iff_of_true ?_ trivial
      cases action with
      | connect => exact faithful_openConnection env (h.congr rfl rfl rfl rfl)
      | disconnect => exact faithful_prepare false _
  | permissionResult granted _ =>
      exact iff_of_true (faithful_onPermission granted (h.congr rfl rfl rfl rfl)) trivial
  | frame an progress ad _ _ => exact iff_of_true (faithful_onFrame progress ad hatt h) trivial
  | adCompleted t _ => exact iff_of_true (faithful_postToggle t hatt) trivial
  | onStart _ => exact iff_of_true (faithful_onStart hatt h) trivial
  | onStop => exact iff_of_true (h.congr rfl rfl rfl rfl) trivial
  | onDestroy =>
      refine iff_of_true ?_ trivial
      intro hbound
      cases hbound
  | poll job _ => exact iff_of_true (faithful_poll job a) trivial
  | resultShown _ => exact iff_of_true (h.congr rfl rfl rfl rfl) trivial
  | timerTick _ => exact iff_of_true (h.congr rfl rfl rfl rfl) trivial
  | onServiceDisconnected _ =>
      refine iff_of_true ?_ trivial
      rw [onServiceDisconnected, serviceStateCallback_congr]
      exact faithful_of_not_showsConnected rfl
  | onBinderDied _ => exact iff_of_true h trivial

/-! ## All runs -/

/-- Over every interleaving, the app never shows a tunnel that the service has reported as
stopping or stopped, exactly if all its steps are heeded. -/
theorem faithful_iff_heeded {h : List (App × Event)} {a : App} (hrun : Run machine h a) :
    (Faithful a ∧ ∀ p ∈ h, Faithful p.1) ↔ ∀ p ∈ h, Heeded p.1 p.2 := by
  have hattached : Attached machine.init := fun _ => rfl
  have hinit : Faithful machine.init := faithful_of_not_showsConnected rfl
  exact hrun.always_iff hattached (fun _ _ _ => attached_step) hinit (fun _ _ _ => faithful_step)

/-- Connect from the app, and see the service report `Connected`. -/
def connectFromApp : List Event :=
  [.onServiceConnected .stopped, .toggleConnection {}, .frame 100 false, .stateChanged .connected,
    .poll]

theorem faithful_iff_heeded_connect :
    ∃ h a, Run machine h a ∧ machine.play connectFromApp = some (h, a) ∧
      a.state = .connected ∧ Faithful a := by
  refine ⟨_, _, run_of_play _ connectFromApp rfl, rfl, by decide, ?_⟩
  refine ((faithful_iff_heeded (run_of_play _ connectFromApp rfl)).2 ?_).1
  intro p hp
  simp only [List.nil_append, List.cons_append, List.mem_cons, List.not_mem_nil, or_false] at hp
  rcases hp with rfl | rfl | rfl | rfl | rfl
  · exact fun _ hne => absurd rfl hne
  · trivial
  · trivial
  · exact fun hne => absurd rfl hne
  · trivial

/-- The same, and then the service stops by itself. -/
def stopFromService : List Event :=
  connectFromApp ++ [.stateChanged .stopping, .stateChanged .stopped]

/-- The app goes on showing `Connected` with its timer running. -/
theorem stopFromService_not_faithful :
    ∃ h a, Run machine h a ∧ machine.play stopFromService = some (h, a) ∧
      a.state = .connected ∧ a.timer = true ∧ a.shadowsockState = .stopped ∧ ¬ Faithful a := by
  refine ⟨_, _, run_of_play _ stopFromService rfl, rfl, by decide, by decide, by decide, ?_⟩
  intro hf
  exact absurd (hf rfl (by decide) (by decide)) (by decide)

end Main
end SpinVpn
