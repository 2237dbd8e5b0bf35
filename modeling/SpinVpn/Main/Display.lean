import SpinVpn.Main.Toggle

/-!
# Display — the server on show and the server that is started

Three variables hold a server: `mConnection` is on show, `mNewConnection` is a choice that waits
for its toggle, and `connectData` is what the next `start()` uses.  A choice is committed by
`changeConnectDataReally`, also where nothing is connected after all, and dropped by an
interception.  Dropping it puts `preConnectData` on show, the server of the last connection,
which need not be the committed one.

`displayed_iff_restored` shows that this is the only way for the two to come apart.
-/

namespace SpinVpn
namespace Main

open EventMachine

/-! ## The property and the condition -/

/-- With no choice pending, the view model shows the server that the next start will use. -/
def Displayed (a : App) : Prop :=
  a.mConnector = true → a.mNewConnection = none → a.mConnection = a.connectData

/-- No interception drops a pending choice while the last connected server is not the committed
one. -/
def Restored (a : App) : Event → Prop
  | .intercept =>
      a.mConnector = true → a.mConnectJob ≠ none → a.mNewConnection ≠ none →
        a.preConnectData = a.connectData
  | _ => True

/-- What `Displayed` reads. -/
structure Display where
  mConnector : Bool
  mConnection : MConnection
  mNewConnection : Option MConnection
  connectData : MConnection
  deriving DecidableEq, Repr

def display (a : App) : Display where
  mConnector := a.mConnector
  mConnection := a.mConnection
  mNewConnection := a.mNewConnection
  connectData := a.connectData

theorem Displayed.congr {a b : App} (h : Displayed a) (hsame : display b = display a) :
    Displayed b := by
  simp only [display, Display.mk.injEq] at hsame
  rcases hsame with ⟨hconnector, hshown, hnew, hdata⟩
  intro hatt hnone
  rw [hshown, hdata]
  exact h (hconnector ▸ hatt) (hnew ▸ hnone)

theorem displayed_of_pending {a : App} {c : MConnection} (h : a.mNewConnection = some c) :
    Displayed a := by
  intro _ hnone
  rw [h] at hnone
  cases hnone

theorem displayed_of_shown {a : App} (h : a.mConnection = a.connectData) : Displayed a :=
  fun _ _ => h

/-! ## Frames -/

section Frames

variable (a : App)

@[simp] theorem display_onStartResult (forConnect connected : Bool) :
    display (onStartResult forConnect connected a) = display a := by
  unfold onStartResult postResult
  split
  · split <;> rfl
  · rfl

@[simp] theorem display_connectorToggle (t : Toggle) :
    display (connectorToggle t a) = display a := by
  unfold connectorToggle
  dsimp only
  split
  · rfl
  · rw [disconnectServiceInternal, display_onStartResult]
    rfl

@[simp] theorem display_connectResult : display (connectResult a) = display a := by
  unfold connectResult
  dsimp only
  split <;> rw [display_onStartResult] <;> rfl

@[simp] theorem display_poll (job : ConnectServiceJob) : display (poll job a) = display a := by
  rcases poll_cases a job with ⟨job', heq | heq⟩
  · rw [heq]
    rfl
  · rw [heq, display_connectResult]
    rfl

@[simp] theorem display_postAd (t : Toggle) : display (postAd t a) = display a := by
  unfold postAd
  split <;> rfl

@[simp] theorem display_deliverAd : display (deliverAd a) = display a := by
  unfold deliverAd
  cases a.pendingAd with
  | none => cases a.pendingResult <;> simp [display]
  | some t => cases a.pendingResult <;> simp [display]

end Frames

/-! ## One step -/

/-- Committing a choice puts it on show. -/
theorem displayed_changeConnectDataReally {a : App} (h : Displayed a) :
    Displayed (changeConnectDataReally a) := by
  unfold changeConnectDataReally
  split
  · exact h
  · intro hatt _
    have hconnector : a.mConnector = true := hatt
    simp [setConnectData, hconnector]

theorem displayed_onPermission {a : App} (granted : Bool) (h : Displayed a) :
    Displayed (onPermission granted a) := by
  unfold onPermission
  split
  · exact h.congr rfl
  · exact displayed_changeConnectDataReally h

theorem displayed_openConnection {a : App} (env : Environment) (h : Displayed a) :
    Displayed (openConnection env a) := by
  rcases openConnection_cases env a with heq | heq | heq | heq
  · rw [heq]
    exact displayed_changeConnectDataReally h
  · rw [heq]
    exact h
  · rw [heq]
    exact h.congr rfl
  · rw [heq]
    exact h.congr rfl

theorem displayed_setNewConnectData (env : Environment) (c : MConnection) (action : Action)
    (a : App) : Displayed (setNewConnectData env c action a) := by
  have hpending : Displayed { a with mNewConnection := some c, mConnection := c } :=
    displayed_of_pending rfl
  cases action with
  | connect => exact displayed_openConnection env hpending
  | disconnect => exact hpending.congr rfl

theorem displayed_doToggleConnection {a : App} (t : Toggle) (h : Displayed a) :
    Displayed (doToggleConnection t a) := by
  have hcommitted := displayed_changeConnectDataReally h
  unfold doToggleConnection
  dsimp only
  split
  · exact hcommitted.congr (display_connectorToggle _ t)
  · exact hcommitted

theorem displayed_postToggle {a : App} (t : Toggle) (h : Displayed a) :
    Displayed (postToggle t a) := by
  unfold postToggle
  split
  · exact displayed_doToggleConnection t h
  · exact h.congr rfl

theorem displayed_onFrame {a : App} (an : Animator) (progress : Nat) (ad : Bool)
    (h : Displayed a) : Displayed (onFrame an progress ad a) := by
  unfold onFrame
  split
  · split
    · exact h.congr (display_postAd _ _)
    · exact h
  · split
    · exact displayed_postToggle _ (h.congr rfl)
    · exact h

theorem displayed_serviceStateCallback {a : App} (connected : Bool) (h : Displayed a) :
    Displayed (serviceStateCallback connected a) := by
  unfold serviceStateCallback
  split
  · exact displayed_of_shown rfl
  · exact h

theorem displayed_onServiceConnected {a : App} (st : Bg.State) (h : Displayed a) :
    Displayed (onServiceConnected st a) := by
  unfold onServiceConnected
  apply displayed_serviceStateCallback
  cases st <;> exact h.congr rfl

theorem displayed_onStart {a : App} (h : Displayed a) : Displayed (onStart a) := by
  have hdeliver : Displayed (deliverAd a) := h.congr (display_deliverAd a)
  rw [onStart_eq]
  cases (deliverAd a).pendingToggle with
  | none => exact hdeliver
  | some t => exact displayed_doToggleConnection t (hdeliver.congr rfl)

/-- An interception shows the last connected server in the place of the dropped choice. -/
theorem displayed_intercept {a : App} (h : Displayed a) :
    Displayed (interceptToggleConnection a) ↔ Restored a .intercept := by
  unfold interceptToggleConnection Restored
  cases hjob : a.mConnectJob with
  | none => exact iff_of_true h (fun _ hne => absurd rfl hne)
  | some an =>
      have hresume : display (resumeConnection (destroyConnectJob a)) = display a := by
        unfold resumeConnection
        split <;> rfl
      have hpre : (resumeConnection (destroyConnectJob a)).preConnectData = a.preConnectData := by
        unfold resumeConnection
        split <;> rfl
      simp only [display, Display.mk.injEq] at hresume
      rcases hresume with ⟨hconnector, hshown, hnew, hdata⟩
      cases hpending : a.mNewConnection with
      | none =>
          rw [hpending] at hnew
          refine iff_of_true ?_ (fun _ _ hne => absurd rfl hne)
          simp only [hnew]
          exact h.congr (by simp [display, hconnector, hshown, hdata, hpending])
      | some c =>
          rw [hpending] at hnew
          simp [Displayed, hnew, hconnector, hpre, hdata]

theorem displayed_step {a b : App} {e : Event} (h : Displayed a) (hstep : step a e = some b) :
    Displayed b ↔ Restored a e := by
  cases steps_of_step hstep with
  | intercept => exact displayed_intercept h
  -- the other events keep the property in any case
  | toggleConnection env =>
      refine iff_of_true ?_ trivial
      rcases toggleConnection_cases env a with heq | ⟨-, heq⟩ | ⟨-, heq⟩
      · rw [heq]
        exact h
      · rw [heq]
        exact h.congr rfl
      · rw [heq]
        exact displayed_openConnection env h
  | linkVpn env =>
      refine iff_of_true ?_ trivial
      rcases linkVpn_cases env a with heq | heq
      · rw [heq]
        exact h
      · rw [heq]
        exact displayed_openConnection env h
  | onActivityResult env c action =>
      exact iff_of_true (displayed_setNewConnectData env c action a) trivial
  | permissionResult granted _ =>
      exact iff_of_true (displayed_onPermission granted (h.congr rfl)) trivial
  | frame an progress ad _ _ => exact iff_of_true (displayed_onFrame an progress ad h) trivial
  | adCompleted t _ => exact iff_of_true (displayed_postToggle t (h.congr rfl)) trivial
  | onStart _ => exact iff_of_true (displayed_onStart h) trivial
  | onStop => exact iff_of_true (h.congr rfl) trivial
  | onDestroy =>
      -- the view model lets go of the connector
      refine iff_of_true ?_ trivial
      intro hatt
      cases hatt
  | poll job _ => exact iff_of_true (h.congr (display_poll a job)) trivial
  | resultShown _ => exact iff_of_true (h.congr rfl) trivial
  | timerTick _ => exact iff_of_true (h.congr rfl) trivial
  | stateChanged st _ => exact iff_of_true (h.congr rfl) trivial
  | onServiceConnected st _ => exact iff_of_true (displayed_onServiceConnected st h) trivial
  | onServiceDisconnected _ =>
      exact iff_of_true (displayed_serviceStateCallback false (h.congr rfl)) trivial
  | onBinderDied _ => exact iff_of_true h trivial

/-! ## All runs -/

/-- Over every interleaving, the server on show is the one that the next start uses, exactly if no
interception drops a choice while the last connected server is not the committed one. -/
theorem displayed_iff_restored {h : List (App × Event)} {a : App} (hrun : Run machine h a) :
    (Displayed a ∧ ∀ p ∈ h, Displayed p.1) ↔ ∀ p ∈ h, Restored p.1 p.2 := by
  have hinit : Displayed machine.init := displayed_of_shown rfl
  exact hrun.always_iff (J := fun _ => True) trivial (fun _ _ _ _ _ => trivial) hinit
    (fun _ _ _ _ => displayed_step)

def lisbon : MConnection :=
  { host := "51.15.0.2", port := 8116, city := "Lisbon", country := "Portugal" }

def oslo : MConnection :=
  { host := "185.14.0.1", port := 8116, city := "Oslo", country := "Norway" }

/-- A choice is dropped before anything else was committed. -/
def dropChoice : List Event :=
  [.onServiceConnected .stopped, .onActivityResult {} lisbon .connect, .intercept]

theorem displayed_iff_restored_dropChoice :
    ∃ h a, Run machine h a ∧ machine.play dropChoice = some (h, a) ∧
      a.mNewConnection = none ∧ Displayed a := by
  refine ⟨_, _, run_of_play _ dropChoice rfl, rfl, by decide, ?_⟩
  refine ((displayed_iff_restored (run_of_play _ dropChoice rfl)).2 ?_).1
  intro p hp
  simp only [List.nil_append, List.cons_append, List.mem_cons, List.not_mem_nil, or_false] at hp
  rcases hp with rfl | rfl | rfl
  · trivial
  · trivial
  · exact fun _ _ _ => rfl

/-- A choice made without a network is committed; the next one is dropped. -/
def dropSecondChoice : List Event :=
  [.onServiceConnected .stopped, .onActivityResult { network := false } lisbon .connect,
    .onActivityResult {} oslo .connect, .intercept]

/-- The smart entry is on show, but the next start uses the first choice. -/
theorem dropSecondChoice_not_displayed :
    ∃ h a, Run machine h a ∧ machine.play dropSecondChoice = some (h, a) ∧
      a.mNewConnection = none ∧ a.mConnection = SmartConnection ∧ a.connectData = lisbon ∧
      ¬ Displayed a := by
  refine ⟨_, _, run_of_play _ dropSecondChoice rfl, rfl, by decide, by decide, by decide, ?_⟩
  intro hshown
  exact absurd (hshown rfl rfl) (by decide)

end Main
end SpinVpn
