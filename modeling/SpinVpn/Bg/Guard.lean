import SpinVpn.Lib.Machine

/-!
# Guard — one guarded process and its exit code

`GuardedProcessPool.Guard.looper` keeps a process running.  A thread per process waits for it to
exit and sends the exit code through a rendezvous channel; the looper, a coroutine of the main
thread, receives it and starts the next process.  When the pool is closed, or restarting fails,
the looper kills the process and once more receives an exit code, this time without being
cancellable.

Between the moment a code is handed to a suspended `receive` and the moment the coroutine runs
again, a cancellation or a timeout takes the code with it.  And a process that has just been
restarted has no thread yet.  In both cases the clean-up waits for a code that will not come;
`expected_iff_undisturbed` says that in no other.
-/

namespace SpinVpn
namespace Bg

open EventMachine

/-! ## The looper and the thread -/

/-- The thread that reads the output of the current process and waits for its exit. -/
inductive Reader
  /-- not started yet -/
  | absent
  | waiting
  /-- the process has exited, and `exitChannel.send` waits for a receiver -/
  | sending
  /-- the exit code has been handed over -/
  | sent
  deriving DecidableEq, Repr

/-- Where the looper is suspended. -/
inductive Place
  /-- `exitChannel.receive()` in the loop -/
  | loop
  /-- `onRestartCallback?.invoke()` -/
  | callback
  /-- `withTimeoutOrNull(500) { exitChannel.receive() }` after SIGTERM -/
  | terminate
  /-- `withTimeoutOrNull(1000) { exitChannel.receive() }` after `process.destroy()` -/
  | destroy
  /-- the last `exitChannel.receive()` -/
  | last
  | returned
  deriving DecidableEq, Repr

def Place.cleans : Place → Bool
  | .terminate => true
  | .destroy => true
  | .last => true
  | _ => false

structure Guard where
  /-- how many processes have been started -/
  process : Nat := 1
  /-- the current process has exited -/
  exited : Bool := false
  reader : Reader := .waiting
  running : Bool := true
  place : Place := .loop
  /-- the suspended `receive` has been given a code and has not been resumed since -/
  handed : Bool := false
  /-- the pool is cancelled -/
  cancelled : Bool := false
  /-- how often `onFatal` has been launched -/
  fatal : Nat := 0
  deriving DecidableEq, Repr

/-- How far `onRestartCallback` gets. -/
inductive CallbackOutcome
  | returned
  | suspended
  | threw (ioException : Bool)
  deriving DecidableEq, Repr

inductive GuardEvent
  /-- the current process exits, killed or by itself -/
  | exit
  /-- `process.waitFor()` returns to the thread, which goes on to send -/
  | waitForReturns
  /-- `close` cancels the pool -/
  | cancel
  /-- the main thread runs the looper; `started` tells whether `start()` succeeds -/
  | resume (started : Bool) (outcome : CallbackOutcome)
  /-- the time of `withTimeoutOrNull` is up -/
  | timeout
  deriving DecidableEq, Repr

/-- A sender finds the looper waiting in a `receive` that has not been cancelled. -/
def Guard.receives (g : Guard) : Bool :=
  !g.handed && (g.place.cleans || g.place == .loop && !g.cancelled)

def send (g : Guard) : Guard :=
  if g.receives then { g with reader := .sent, handed := true } else { g with reader := .sending }

/-- A `receive` of the clean-up: a thread that waits in `send` is served at once. -/
def receiveAt (place : Place) (g : Guard) : Guard :=
  if g.reader = .sending then { g with reader := .sent, place := .returned }
  else { g with place := place }

/-- The `finally` block up to its first suspension. -/
def finallyBlock (sdk : Nat) (g : Guard) : Guard :=
  if !g.running then { g with place := .returned }
  else if sdk < 24 then receiveAt .terminate g
  else if sdk < 26 then receiveAt .last g
  else receiveAt .destroy g

/-- From the call of `onRestartCallback` on; the threads are created when the loop starts over. -/
def afterCallback (sdk : Nat) (outcome : CallbackOutcome) (g : Guard) : Guard :=
  match outcome with
  | .returned => { g with reader := .waiting, place := .loop }
  | .suspended => { g with place := .callback }
  | .threw ioException =>
      finallyBlock sdk (if ioException then { g with fatal := g.fatal + 1 } else g)

/-- From the receipt of an exit code on. -/
def restart (sdk : Nat) (started : Bool) (outcome : CallbackOutcome) (g : Guard) : Guard :=
  if started then
    afterCallback sdk outcome
      { g with process := g.process + 1, exited := false, reader := .absent, running := true }
  else finallyBlock sdk { g with running := false, fatal := g.fatal + 1 }

def resumeLooper (sdk : Nat) (started : Bool) (outcome : CallbackOutcome) (g : Guard) :
    Option Guard :=
  match g.place with
  | .loop =>
      -- a code that was handed over before the cancellation is lost
      if g.cancelled then some (finallyBlock sdk { g with handed := false })
      else if g.handed then some (restart sdk started outcome { g with handed := false })
      else none
  | .callback =>
      if g.cancelled then some (finallyBlock sdk g) else some (afterCallback sdk outcome g)
  | .returned => none
  | _ => if g.handed then some { g with handed := false, place := .returned } else none

/-- The block of `withTimeoutOrNull` is cancelled, with the code it may have been given. -/
def timedOut (g : Guard) : Guard :=
  receiveAt .last { g with handed := false }

/-- `callback` tells whether there is an `onRestartCallback`. -/
def guardStep (sdk : Nat) (callback : Bool) (g : Guard) : GuardEvent → Option Guard
  | .exit => if g.exited then none else some { g with exited := true }
  | .waitForReturns => if g.exited ∧ g.reader = .waiting then some (send g) else none
  | .cancel => some { g with cancelled := true }
  | .resume started outcome =>
      if callback ∨ outcome = .returned then resumeLooper sdk started outcome g else none
  | .timeout => if g.place = .terminate ∨ g.place = .destroy then some (timedOut g) else none

def guardMachine (sdk : Nat) (callback : Bool) : Machine Guard GuardEvent where
  init := {}
  step := guardStep sdk callback

/-! ## The property and the condition -/

/-- When the looper has returned, the last process it started has exited. -/
def Exited (g : Guard) : Prop :=
  g.place = .returned → g.exited = true

/-- While the clean-up waits on the channel, the exit code of the process is still to come. -/
def Expected (g : Guard) : Prop :=
  g.place.cleans = true → g.handed = false → g.reader = .waiting ∨ g.reader = .sending

/-- The steps that take no exit code away: the looper is not resumed with a code in its hands
after the pool has been cancelled, no timeout comes after the code, and the restart callback
neither fails nor is cancelled. -/
def Undisturbed (g : Guard) : GuardEvent → Prop
  | .resume started outcome =>
      (g.place = .loop → g.handed = true →
        g.cancelled = false ∧ (started = true → ∀ io, outcome ≠ .threw io)) ∧
      (g.place = .callback → g.cancelled = false ∧ ∀ io, outcome ≠ .threw io)
  | .timeout => g.handed = false
  | _ => True

instance (g : Guard) : (e : GuardEvent) → Decidable (Undisturbed g e)
  | .resume _ _ => inferInstanceAs (Decidable (_ ∧ _))
  | .timeout => inferInstanceAs (Decidable (_ = _))
  | .exit => inferInstanceAs (Decidable True)
  | .waitForReturns => inferInstanceAs (Decidable True)
  | .cancel => inferInstanceAs (Decidable True)

/-! ## What holds in any case -/

structure Coherent (g : Guard) : Prop where
  exited : g.reader = .sending ∨ g.reader = .sent → g.exited = true
  handed : g.handed = true → g.reader = .sent ∧ g.place ≠ .callback
  running : g.place ≠ .returned → g.running = true
  loop : g.place = .loop → g.handed = false → g.reader = .waiting ∨ g.reader = .sending
  callback : g.place = .callback → g.reader = .absent
  returned : g.place = .returned → g.exited = true

theorem receiveAt_cases (place : Place) (g : Guard) :
    (g.reader = .sending ∧ receiveAt place g = { g with reader := .sent, place := .returned }) ∨
      (g.reader ≠ .sending ∧ receiveAt place g = { g with place := place }) := by
  by_cases hreader : g.reader = .sending
  · exact Or.inl ⟨hreader, if_pos hreader⟩
  · exact Or.inr ⟨hreader, if_neg hreader⟩

/-- With the process running, the clean-up goes to one of its receives. -/
theorem finallyBlock_eq (sdk : Nat) {g : Guard} (h : g.running = true) :
    ∃ place, place.cleans = true ∧ finallyBlock sdk g = receiveAt place g := by
  unfold finallyBlock
  rw [if_neg (by simp [h])]
  split
  · exact ⟨_, rfl, rfl⟩
  · split
    · exact ⟨_, rfl, rfl⟩
    · exact ⟨_, rfl, rfl⟩

theorem coherent_receiveAt {place : Place} {g : Guard} (hplace : place.cleans = true)
    (hexited : g.reader = .sending ∨ g.reader = .sent → g.exited = true)
    (hrunning : g.running = true) (hhanded : g.handed = false) :
    Coherent (receiveAt place g) := by
  rcases receiveAt_cases place g with ⟨hreader, heq⟩ | ⟨hreader, heq⟩
  · rw [heq]
    have := hexited (Or.inl hreader)
    constructor <;> simp_all
  · rw [heq]
    constructor <;> simp_all
    all_goals (rintro rfl; simp [Place.cleans] at hplace)

theorem expected_receiveAt {place : Place} {g : Guard} (hplace : place.cleans = true)
    (hhanded : g.handed = false) :
    Expected (receiveAt place g) ↔ g.reader = .waiting ∨ g.reader = .sending := by
  rcases receiveAt_cases place g with ⟨hreader, heq⟩ | ⟨hreader, heq⟩
  · rw [heq]
    refine iff_of_true ?_ (Or.inr hreader)
    intro hcleans
    simp [Place.cleans] at hcleans
  · rw [heq]
    simp [Expected, hplace, hhanded]

/-! ## Restarting -/

section Restart

variable {g : Guard} (sdk : Nat) (outcome : CallbackOutcome)

/-- A process that has just been started has no thread, so the clean-up would wait in vain. -/
theorem finallyBlock_absent (hreader : g.reader = .absent) (hrunning : g.running = true)
    (hhanded : g.handed = false) :
    Coherent (finallyBlock sdk g) ∧ ¬ Expected (finallyBlock sdk g) := by
  rcases finallyBlock_eq sdk hrunning with ⟨place, hplace, heq⟩
  rw [heq, expected_receiveAt hplace hhanded]
  refine ⟨coherent_receiveAt hplace ?_ hrunning hhanded, ?_⟩
  · simp [hreader]
  · simp [hreader]

theorem coherent_afterCallback (hreader : g.reader = .absent) (hrunning : g.running = true)
    (hhanded : g.handed = false) : Coherent (afterCallback sdk outcome g) := by
  cases outcome with
  | returned => constructor <;> simp_all [afterCallback]
  | suspended => constructor <;> simp_all [afterCallback]
  | threw io =>
      cases io with
      | true =>
          exact (finallyBlock_absent (g := { g with fatal := g.fatal + 1 }) sdk hreader hrunning
            hhanded).1
      | false => exact (finallyBlock_absent sdk hreader hrunning hhanded).1

theorem expected_afterCallback (hreader : g.reader = .absent) (hrunning : g.running = true)
    (hhanded : g.handed = false) :
    Expected (afterCallback sdk outcome g) ↔ ∀ io, outcome ≠ .threw io := by
  cases outcome with
  | returned => simp [afterCallback, Expected, Place.cleans]
  | suspended => simp [afterCallback, Expected, Place.cleans]
  | threw io =>
      refine iff_of_false ?_ (fun hne => hne io rfl)
      cases io with
      | true =>
          exact (finallyBlock_absent (g := { g with fatal := g.fatal + 1 }) sdk hreader hrunning
            hhanded).2
      | false => exact (finallyBlock_absent sdk hreader hrunning hhanded).2

variable (started : Bool)

theorem coherent_restart (hexited : g.exited = true) (hhanded : g.handed = false) :
    Coherent (restart sdk started outcome g) := by
  cases started with
  -- the new process has no thread until the loop starts over
  | true => exact coherent_afterCallback sdk outcome rfl rfl hhanded
  -- `start` failed: `running` is false, and the `finally` block has nothing to do
  | false => constructor <;> simp_all [restart, finallyBlock]

theorem expected_restart (hhanded : g.handed = false) :
    Expected (restart sdk started outcome g) ↔ (started = true → ∀ io, outcome ≠ .threw io) := by
  cases started with
  | true =>
      have hiff : Expected (restart sdk true outcome g) ↔ ∀ io, outcome ≠ .threw io :=
        expected_afterCallback sdk outcome rfl rfl hhanded
      simpa using hiff
  | false => simp [restart, finallyBlock, Expected, Place.cleans]

end Restart

/-! ## One step -/

/-- Entering the clean-up from the loop: a code that had been handed over is lost. -/
theorem finallyBlock_loop (sdk : Nat) {g : Guard} (h : Coherent g) (hplace : g.place = .loop) :
    Coherent (finallyBlock sdk { g with handed := false }) ∧
      (Expected (finallyBlock sdk { g with handed := false }) ↔ g.handed = false) := by
  have hrunning : g.running = true := h.running (by simp [hplace])
  rcases finallyBlock_eq sdk (g := { g with handed := false }) hrunning with
    ⟨place, hcleans, heq⟩
  rw [heq, expected_receiveAt hcleans rfl]
  refine ⟨coherent_receiveAt hcleans h.exited hrunning rfl, ?_⟩
  cases hhanded : g.handed with
  -- the code is with the thread, and the clean-up will get it
  | false => exact iff_of_true (h.loop hplace hhanded) rfl
  | true => simp [(h.handed hhanded).1]

theorem coherent_send {g : Guard} (h : Coherent g) (hexited : g.exited = true)
    (hreader : g.reader = .waiting) : Coherent (send g) := by
  -- a thread is running, so this is not the time between two processes
  have hnot : g.place ≠ .callback := fun hplace => by simp [h.callback hplace] at hreader
  unfold send
  split
  · constructor <;> simp_all
    exact h.running
  · -- the thread has not sent before, so nothing has been handed over
    have hhanded : g.handed = false := by
      cases hhanded : g.handed with
      | false => rfl
      | true => simp [(h.handed hhanded).1] at hreader
    constructor <;> simp_all
    exact h.running

/-- Resuming the looper, by where it was suspended. -/
theorem resumeLooper_step {sdk : Nat} {started : Bool} {outcome : CallbackOutcome} {g t : Guard}
    (h : Coherent g) (hstep : resumeLooper sdk started outcome g = some t) :
    Coherent t ∧ (Expected t ↔ Undisturbed g (.resume started outcome)) := by
  unfold resumeLooper at hstep
  split at hstep
  · rename_i hplace
    split at hstep
    · rename_i hcancelled
      cases hstep
      rcases finallyBlock_loop sdk h hplace with ⟨hcoherent, hiff⟩
      refine ⟨hcoherent, hiff.trans ?_⟩
      simp [Undisturbed, hplace, hcancelled]
    · rename_i hcancelled
      split at hstep
      · rename_i hhanded
        cases hstep
        have hexited : g.exited = true := h.exited (Or.inr (h.handed hhanded).1)
        refine ⟨coherent_restart sdk outcome started hexited rfl, ?_⟩
        rw [expected_restart sdk outcome started rfl]
        simp [Undisturbed, hplace, hhanded, hcancelled]
      · cases hstep
  · -- in the restart callback, between two processes
    rename_i hplace
    have habsent := h.callback hplace
    have hrunning : g.running = true := h.running (by simp [hplace])
    have hhanded : g.handed = false := by
      cases hhanded : g.handed with
      | false => rfl
      | true => exact absurd hplace (h.handed hhanded).2
    split at hstep
    · rename_i hcancelled
      cases hstep
      rcases finallyBlock_absent sdk habsent hrunning hhanded with ⟨hcoherent, hnot⟩
      refine ⟨hcoherent, iff_of_false hnot ?_⟩
      simp [Undisturbed, hplace, hcancelled]
    · rename_i hcancelled
      cases hstep
      refine ⟨coherent_afterCallback sdk outcome habsent hrunning hhanded, ?_⟩
      rw [expected_afterCallback sdk outcome habsent hrunning hhanded]
      simp [Undisturbed, hplace, hcancelled]
  · cases hstep
  · -- a receive of the clean-up, which nothing but its timeout can cancel
    rename_i hloop hcallback hreturned
    split at hstep
    · rename_i hhanded
      cases hstep
      have hexited : g.exited = true := h.exited (Or.inr (h.handed hhanded).1)
      refine ⟨?_, iff_of_true ?_ ?_⟩
      · constructor <;> simp_all
      · simp [Expected, Place.cleans]
      · exact ⟨fun hplace => absurd hplace hloop, fun hplace => absurd hplace hcallback⟩
    · cases hstep

theorem guard_step {sdk : Nat} {callback : Bool} {g t : Guard} {e : GuardEvent}
    (h : Coherent g) (hstep : guardStep sdk callback g e = some t) :
    Coherent t ∧ (Expected g → (Expected t ↔ Undisturbed g e)) := by
  cases e with
  | exit =>
      simp only [guardStep] at hstep
      split at hstep <;> cases hstep
      refine ⟨⟨fun _ => rfl, h.handed, h.running, h.loop, h.callback, fun _ => rfl⟩, ?_⟩
      exact fun hexpected => iff_of_true hexpected trivial
  | waitForReturns =>
      simp only [guardStep] at hstep
      split at hstep
      · rename_i hexit
        cases hstep
        refine ⟨coherent_send h hexit.1 hexit.2, fun _ => iff_of_true ?_ trivial⟩
        -- the code goes to the waiting looper, or stays with the thread
        unfold send
        split
        · intro _ hhanded
          cases hhanded
        · exact fun _ _ => Or.inr rfl
      · cases hstep
  | cancel =>
      cases hstep
      refine ⟨⟨h.exited, h.handed, h.running, h.loop, h.callback, h.returned⟩, ?_⟩
      exact fun hexpected => iff_of_true hexpected trivial
  | timeout =>
      simp only [guardStep] at hstep
      split at hstep
      · rename_i hplace
        cases hstep
        have hcleans : g.place.cleans = true := by
          rcases hplace with hp | hp <;> simp [hp, Place.cleans]
        have hrunning : g.running = true :=
          h.running (by rcases hplace with hp | hp <;> simp [hp])
        refine ⟨coherent_receiveAt rfl h.exited hrunning rfl, fun hexpected => ?_⟩
        rw [timedOut, expected_receiveAt rfl rfl]
        -- a code that is in hand is lost with the block
        cases hhanded : g.handed with
        | false => exact iff_of_true (hexpected hcleans hhanded) hhanded
        | true => simp [Undisturbed, (h.handed hhanded).1, hhanded]
      · cases hstep
  | resume started outcome =>
      simp only [guardStep] at hstep
      split at hstep
      · rcases resumeLooper_step h hstep with ⟨hcoherent, hiff⟩
        exact ⟨hcoherent, fun _ => hiff⟩
      · cases hstep

/-! ## All runs -/

/-- Over every interleaving: when the looper returns its last process has exited, and the clean-up
only ever waits for a code that is still to come, exactly if none is taken away. -/
theorem expected_iff_undisturbed {sdk : Nat} {callback : Bool} {h : List (Guard × GuardEvent)}
    {g : Guard} (hrun : Run (guardMachine sdk callback) h g) :
    ((Exited g ∧ Expected g) ∧ ∀ p ∈ h, Exited p.1 ∧ Expected p.1) ↔
      ∀ p ∈ h, Undisturbed p.1 p.2 := by
  have hcoherent : Coherent (guardMachine sdk callback).init := by
    constructor <;> simp [guardMachine]
  have hinit : Exited (guardMachine sdk callback).init ∧ Expected (guardMachine sdk callback).init := by
    constructor
    · exact hcoherent.returned
    · simp [Expected, guardMachine, Place.cleans]
  refine hrun.always_iff (P := fun g => Exited g ∧ Expected g) hcoherent
    (fun _ _ _ hg hst => (guard_step hg hst).1) hinit ?_
  intro g e t hg hexpected hst
  rcases guard_step hg hst with ⟨ht, hiff⟩
  rw [← hiff hexpected.2]
  exact and_iff_right ht.returned

/-- The process exits and is restarted; then the pool is closed and the clean-up gets the code. -/
def closedInTime : List GuardEvent :=
  [.exit, .waitForReturns, .resume true .returned, .cancel, .resume true .returned, .exit,
    .waitForReturns, .resume true .returned]

theorem expected_iff_undisturbed_closedInTime :
    ∃ h g, Run (guardMachine 30 true) h g ∧
      (guardMachine 30 true).play closedInTime = some (h, g) ∧ g.process = 2 ∧
      g.place = .returned ∧ (Exited g ∧ Expected g) ∧ ∀ p ∈ h, Exited p.1 ∧ Expected p.1 := by
  refine ⟨_, _, run_of_play _ closedInTime rfl, rfl, rfl, rfl, ?_⟩
  refine (expected_iff_undisturbed (run_of_play (guardMachine 30 true) closedInTime rfl)).2 ?_
  intro p hp
  simp only [List.nil_append, List.cons_append, List.mem_cons, List.not_mem_nil, or_false] at hp
  rcases hp with rfl | rfl | rfl | rfl | rfl | rfl | rfl | rfl <;> decide

/-- The process exits, and the pool is closed before the looper runs again. -/
def closedAtExit : List GuardEvent :=
  [.exit, .waitForReturns, .cancel, .resume true .returned, .timeout]

/-- The clean-up waits for the exit code that the cancellation has taken with it. -/
theorem closedAtExit_not_expected :
    ∃ h g, Run (guardMachine 30 true) h g ∧
      (guardMachine 30 true).play closedAtExit = some (h, g) ∧ g.place = .last ∧
      g.exited = true ∧ g.reader = .sent ∧
      ¬ ((Exited g ∧ Expected g) ∧ ∀ p ∈ h, Exited p.1 ∧ Expected p.1) := by
  refine ⟨_, _, run_of_play _ closedAtExit rfl, rfl, rfl, rfl, rfl, ?_⟩
  rintro ⟨⟨-, hexpected⟩, -⟩
  exact absurd (hexpected rfl rfl) (by decide)

end Bg
end SpinVpn
