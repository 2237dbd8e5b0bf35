import SpinVpn.Bg.Service

/-!
# Connecting — at most one connection attempt

`onStartCommand` is guarded by `data.state`, which should tell that an attempt is under way.  The
state `Connecting` exists for that, but nothing ever publishes it: while the connecting coroutine
runs, the state is still `Stopped`.  So the guard does not see a live attempt, and a second
`onStartCommand` starts a second one.

* `Exclusive` is what the guard is there for, `Guards` is what it does to a single step;
* `Unattended` says that no start and no reload meets a live attempt in state `Stopped`;
* `exclusive_iff_unattended` shows that a run keeps the first two exactly if all its steps meet
  the third.
-/

namespace SpinVpn
namespace Bg

open Database EventMachine

/-! ## What the functions of the service do to the coroutines -/

theorem changeState_eq (st : State) (msg : Option String) (s : Service) :
    changeState st msg s = { s with data := { s.data with state := st } } := by
  unfold changeState
  split
  · rename_i h
    rw [← h.1]
  · rfl

def Service.jobIds (s : Service) : List Nat :=
  s.jobs.map Connecting.id

theorem mem_jobIds {s : Service} {i : Nat} : i ∈ s.jobIds ↔ s.isLive i = true := by
  simp [Service.jobIds, Service.isLive]

@[simp] theorem cancelJob_jobIds (job : Nat) (s : Service) :
    (cancelJob job s).jobIds = s.jobIds := by
  simp only [Service.jobIds, cancelJob, List.map_map]
  refine List.map_congr_left ?_
  intro j _
  simp only [Function.comp_apply]
  split <;> rfl

@[simp] theorem suspendJob_jobIds (job : Nat) (rest : List Stmt) (s : Service) :
    (suspendJob job rest s).jobIds = s.jobIds := by
  simp only [Service.jobIds, suspendJob, List.map_map]
  refine List.map_congr_left ?_
  intro j _
  simp only [Function.comp_apply]
  split <;> rfl

@[simp] theorem removeJob_jobIds (job : Nat) (s : Service) :
    (removeJob job s).jobIds = s.jobIds.filter (fun i => i != job) := by
  simp only [Service.jobIds, removeJob, List.filter_map]
  rfl

/-- The stop coroutine either waits for the live job it has cancelled, or cleans up at once. -/
theorem launchStop_cases (restart : Bool) (msg : Option String) (s : Service) :
    (∃ job, s.data.connectingJob = some job ∧ s.isLive job = true ∧
      launchStop restart msg s = cancelJob job (addStop restart msg (.joining job) s)) ∨
    ((∀ job, s.data.connectingJob = some job → s.isLive job = false) ∧
      launchStop restart msg s = cleanUp (addStop restart msg .cleaning s)) := by
  unfold launchStop
  cases hjob : s.data.connectingJob with
  | none =>
      right
      exact ⟨by simp, rfl⟩
  | some job =>
      by_cases hlive : s.isLive job = true
      · left
        exact ⟨job, rfl, hlive, by simp [hlive]⟩
      · right
        refine ⟨?_, by simp [hlive]⟩
        intro job' hjob'
        cases hjob'
        simpa using hlive

@[simp] theorem launchStop_jobIds (restart : Bool) (msg : Option String) (s : Service) :
    (launchStop restart msg s).jobIds = s.jobIds := by
  rcases launchStop_cases restart msg s with ⟨job, _, _, heq⟩ | ⟨_, heq⟩
  · rw [heq, cancelJob_jobIds]
    rfl
  · rw [heq]
    rfl

@[simp] theorem launchStop_connectingJob (restart : Bool) (msg : Option String) (s : Service) :
    (launchStop restart msg s).data.connectingJob = s.data.connectingJob := by
  rcases launchStop_cases restart msg s with ⟨job, _, _, heq⟩ | ⟨_, heq⟩ <;> rw [heq] <;> rfl

@[simp] theorem launchStop_state (restart : Bool) (msg : Option String) (s : Service) :
    (launchStop restart msg s).data.state = s.data.state := by
  rcases launchStop_cases restart msg s with ⟨job, _, _, heq⟩ | ⟨_, heq⟩ <;> rw [heq] <;> rfl

@[simp] theorem launchStop_startRequests (restart : Bool) (msg : Option String) (s : Service) :
    (launchStop restart msg s).startRequests = s.startRequests := by
  rcases launchStop_cases restart msg s with ⟨job, _, _, heq⟩ | ⟨_, heq⟩ <;> rw [heq] <;> rfl

@[simp] theorem stopRunner_jobIds (restart : Bool) (msg : Option String) (s : Service) :
    (stopRunner restart msg s).jobIds = s.jobIds := by
  unfold stopRunner
  split
  · rfl
  · rw [launchStop_jobIds, changeState_eq]
    rfl

@[simp] theorem stopRunner_connectingJob (restart : Bool) (msg : Option String) (s : Service) :
    (stopRunner restart msg s).data.connectingJob = s.data.connectingJob := by
  unfold stopRunner
  split
  · rfl
  · rw [launchStop_connectingJob, changeState_eq]

@[simp] theorem stopRunner_state (restart : Bool) (msg : Option String) (s : Service) :
    (stopRunner restart msg s).data.state = .stopping := by
  unfold stopRunner
  split
  · assumption
  · rw [launchStop_state, changeState_eq]

@[simp] theorem stopRunner_startRequests (restart : Bool) (msg : Option String) (s : Service) :
    (stopRunner restart msg s).startRequests = s.startRequests := by
  unfold stopRunner
  split
  · rfl
  · rw [launchStop_startRequests, changeState_eq]

theorem effect_jobs (st : Stmt) (s : Service) : (st.effect s).jobs = s.jobs := by
  cases st <;> simp [Stmt.effect, changeState_eq]

theorem effect_connectingJob (st : Stmt) (s : Service) :
    (st.effect s).data.connectingJob = s.data.connectingJob := by
  cases st <;> simp [Stmt.effect, changeState_eq]

theorem effect_state (st : Stmt) (s : Service) :
    (st.effect s).data.state = s.data.state ∨ (st.effect s).data.state = .connected := by
  cases st <;> simp [Stmt.effect, changeState_eq]

/-- A block of the coroutine runs its statements one by one, so what every statement's effect
keeps, the block keeps. -/
theorem exec_induction {P : Service → Prop} (hP : ∀ st s, P s → P (Stmt.effect s st)) :
    ∀ (rest : List Stmt) (os : List Outcome) (s : Service) {r : Ended} {t : Service},
      exec rest os s = some (r, t) → P s → P t := by
  intro rest os s
  -- the cases of `exec` that end without a result are dealt with together at the end
  fun_induction exec rest os s with
  | case1 s =>
      intro r t h hs
      cases h
      exact hs
  | case3 st rest os s hnull ih =>
      intro r t h hs
      exact ih h (hP st s hs)
  | case4 st rest s hsus =>
      intro r t h hs
      cases h
      exact hs
  | case6 st rest msg s hthrow =>
      intro r t h hs
      cases h
      exact hs
  | _ =>
      intro r t h
      cases h

theorem exec_frame {rest : List Stmt} {os : List Outcome} {s t : Service} {r : Ended}
    (h : exec rest os s = some (r, t)) :
    t.jobs = s.jobs ∧ t.data.connectingJob = s.data.connectingJob ∧
      (t.data.state = s.data.state ∨ t.data.state = .connected) := by
  refine exec_induction
    (P := fun u => u.jobs = s.jobs ∧ u.data.connectingJob = s.data.connectingJob ∧
      (u.data.state = s.data.state ∨ u.data.state = .connected)) ?_ rest os s h
    ⟨rfl, rfl, Or.inl rfl⟩
  intro st u hu
  rcases hu with ⟨hjobs, hjob, hstate⟩
  refine ⟨(effect_jobs st u).trans hjobs, (effect_connectingJob st u).trans hjob, ?_⟩
  -- the statement leaves the state, or it is the last one and publishes `Connected`
  rcases effect_state st u with heq | heq
  · rw [heq]
    exact hstate
  · exact Or.inr heq

/-- Everything a resumption can do. -/
theorem resume_cases {j : Connecting} {os : List Outcome} {s t : Service}
    (h : resume j os s = some t) :
    (j.cancelled = true ∧ t = removeJob j.id s) ∨
    (j.cancelled = true ∧ t = complete j.id s) ∨
    (j.cancelled = true ∧ ∃ msg, t = fail j.id msg s) ∨
    (j.cancelled = false ∧ ∃ rest u,
      exec j.rest os s = some (.suspended rest, u) ∧ t = suspendJob j.id rest u) ∨
    (j.cancelled = false ∧ ∃ u, exec j.rest os s = some (.finished, u) ∧ t = complete j.id u) ∨
    (j.cancelled = false ∧ ∃ msg u,
      exec j.rest os s = some (.threw msg, u) ∧ t = fail j.id msg u) := by
  -- a cancelled coroutine never gets back into its body, so the two halves do not overlap
  unfold resume at h
  cases hc : j.cancelled with
  | true =>
      simp only [hc, if_true] at h
      split at h
      · cases h
        exact Or.inl ⟨rfl, rfl⟩
      · cases h
        exact Or.inr (Or.inl ⟨rfl, rfl⟩)
      · cases h
        exact Or.inr (Or.inr (Or.inl ⟨rfl, _, rfl⟩))
      · cases h
  | false =>
      simp only [hc, Bool.false_eq_true, if_false] at h
      split at h
      · cases h
      · rename_i rest u hexec
        cases h
        exact Or.inr (Or.inr (Or.inr (Or.inl ⟨rfl, rest, u, hexec, rfl⟩)))
      · rename_i u hexec
        cases h
        exact Or.inr (Or.inr (Or.inr (Or.inr (Or.inl ⟨rfl, u, hexec, rfl⟩))))
      · rename_i msg u hexec
        cases h
        exact Or.inr (Or.inr (Or.inr (Or.inr (Or.inr ⟨rfl, msg, u, hexec, rfl⟩))))

theorem resume_find {s t : Service} {job : Nat} {os : List Outcome} {mode : Mode}
    (h : step mode s (.resume job os) = some t) :
    ∃ j ∈ s.jobs, j.id = job ∧ resume j os s = some t := by
  simp only [step, Option.bind_eq_some_iff] at h
  rcases h with ⟨j, hfind, hres⟩
  refine ⟨j, List.mem_of_find?_eq_some hfind, ?_, hres⟩
  simpa using List.find?_some hfind

/-- A stop coroutine goes on to clean up once the job it waited for is over. -/
theorem joined_find {s t : Service} {stop : Nat} {mode : Mode}
    (h : step mode s (.joined stop) = some t) :
    ∃ k ∈ s.stops, ∃ job, k.phase = .joining job ∧ s.isLive job = false ∧
      t = cleanUp (setCleaning k.id s) := by
  simp only [step, Option.bind_eq_some_iff] at h
  rcases h with ⟨k, hfind, hk⟩
  unfold joined at hk
  split at hk
  · cases hk
  · rename_i job hphase
    split at hk
    · cases hk
    · rename_i hlive
      cases hk
      exact ⟨k, List.mem_of_find?_eq_some hfind, job, hphase, by simpa using hlive, rfl⟩

/-- The end of a clean-up publishes `Stopped`, and may ask for a new start. -/
theorem cleaned_find {s t : Service} {stop : Nat} {mode : Mode}
    (h : step mode s (.cleaned stop) = some t) :
    ∃ k ∈ s.stops, k.phase = .cleaning ∧ ∃ u,
      u = changeState .stopped k.msg
        { s with stops := s.stops.filter (fun k' => k'.id != k.id) } ∧
      (t = u ∨ t = startRunner u) := by
  simp only [step, Option.bind_eq_some_iff] at h
  rcases h with ⟨k, hfind, hk⟩
  unfold cleaned at hk
  split at hk
  · cases hk
  · rename_i hphase
    cases hk
    refine ⟨k, List.mem_of_find?_eq_some hfind, hphase, _, rfl, ?_⟩
    split
    · exact Or.inr rfl
    · exact Or.inl rfl

/-! ## The property and the condition -/

/-- At most one connecting coroutine is live, and `connectingJob` refers to it. -/
def Exclusive (s : Service) : Prop :=
  s.jobs.length ≤ 1 ∧ ∀ j ∈ s.jobs, s.data.connectingJob = some j.id

/-- What a step from `s` to `t` has to respect while an attempt is live in `s`: a start leaves the
live coroutines as they are, and a reload, unless a stop is under way, takes the stop-and-restart
branch. -/
def Guards (s t : Service) : Event → Prop
  | .onStartCommand _ => s.jobs ≠ [] → t.jobIds = s.jobIds
  | .forceLoad => s.jobs ≠ [] → s.data.state ≠ .stopping → t = stopRunner true none s
  | _ => True

/-- No start with a profile and no reload arrives while an attempt is live and the published state
is `Stopped`. -/
def Unattended (s : Service) : Event → Prop
  | .onStartCommand (some _) => s.jobs ≠ [] → s.data.state ≠ .stopped
  | .forceLoad => s.jobs ≠ [] → s.data.state ≠ .stopped
  | _ => True

/-- `Exclusive`, read off the ids. -/
theorem exclusive_iff {s : Service} :
    Exclusive s ↔ s.jobIds = [] ∨ ∃ i, s.jobIds = [i] ∧ s.data.connectingJob = some i := by
  unfold Exclusive Service.jobIds
  cases hjobs : s.jobs with
  | nil => simp
  | cons j js =>
      cases js with
      | nil => simp
      | cons j' js => simp

theorem exclusive_congr {s t : Service} (hids : t.jobIds = s.jobIds)
    (hjob : t.data.connectingJob = s.data.connectingJob) (h : Exclusive s) : Exclusive t := by
  rw [exclusive_iff] at h ⊢
  rw [hids, hjob]
  exact h

/-- The only live coroutine leaves none behind. -/
theorem exclusive_removeJob {s u : Service} {j : Connecting} (hj : j ∈ s.jobs)
    (hids : u.jobIds = s.jobIds) (h : Exclusive s) : Exclusive (removeJob j.id u) := by
  rw [exclusive_iff] at h ⊢
  left
  have hmem : j.id ∈ s.jobIds := List.mem_map_of_mem hj
  rw [removeJob_jobIds, hids]
  -- the removed coroutine is the one that `Exclusive` allows
  rcases h with hnil | ⟨i, hi, _⟩
  · rw [hnil] at hmem
    cases hmem
  · rw [hi] at hmem ⊢
    have : j.id = i := by simpa using hmem
    simp [this]

theorem exclusive_complete {s u : Service} {j : Connecting} (hj : j ∈ s.jobs)
    (hids : u.jobIds = s.jobIds) (h : Exclusive s) : Exclusive (complete j.id u) := by
  refine exclusive_removeJob hj ?_ h
  simpa [Service.jobIds] using hids

/-! ## One step -/

/-- What one step keeps: the attempt is exclusive, and `Idle` is never published. -/
def Attempt (s : Service) : Prop :=
  Exclusive s ∧ s.data.state ≠ .idle

theorem attempt_resume {s t : Service} {j : Connecting} {os : List Outcome} (hj : j ∈ s.jobs)
    (hs : Attempt s) (h : resume j os s = some t) : Attempt t := by
  rcases hs with ⟨hex, hidle⟩
  rcases resume_cases h with ⟨_, rfl⟩ | ⟨_, rfl⟩ | ⟨_, msg, rfl⟩ | ⟨_, rest, u, hexec, rfl⟩ |
    ⟨_, u, hexec, rfl⟩ | ⟨_, msg, u, hexec, rfl⟩
  · exact ⟨exclusive_removeJob hj rfl hex, hidle⟩
  · exact ⟨exclusive_complete hj rfl hex, hidle⟩
  -- `stopRunner` cancels coroutines but never removes one
  · refine ⟨exclusive_complete hj (stopRunner_jobIds _ _ _) hex, ?_⟩
    simp [fail, complete, removeJob]
  · rcases exec_frame hexec with ⟨hjobs, hjob, hstate⟩
    refine ⟨exclusive_congr ?_ hjob hex, ?_⟩
    · rw [suspendJob_jobIds, Service.jobIds, hjobs, Service.jobIds]
    · rcases hstate with heq | heq <;> simp [suspendJob, heq, hidle]
  · rcases exec_frame hexec with ⟨hjobs, _, hstate⟩
    refine ⟨exclusive_complete hj (congrArg (List.map Connecting.id) hjobs) hex, ?_⟩
    rcases hstate with heq | heq <;> simp [complete, removeJob, heq, hidle]
  · rcases exec_frame hexec with ⟨hjobs, _, _⟩
    refine ⟨exclusive_complete hj ?_ hex, ?_⟩
    · rw [stopRunner_jobIds, Service.jobIds, hjobs, Service.jobIds]
    · simp [fail, complete, removeJob]

theorem attempt_stopRunner {s : Service} (restart : Bool) (msg : Option String)
    (hs : Exclusive s) : Attempt (stopRunner restart msg s) := by
  refine ⟨exclusive_congr (stopRunner_jobIds _ _ _) (stopRunner_connectingJob _ _ _) hs, ?_⟩
  simp

theorem attempt_step {mode : Mode} {s t : Service} {e : Event} (hs : Attempt s)
    (hok : Unattended s e) (h : step mode s e = some t) : Attempt t := by
  cases e with
  | onStartCommand p =>
      simp only [step, Option.some.injEq] at h
      subst h
      -- past the guard the published state is `Stopped`
      unfold onStartCommand
      split
      · exact hs
      · rename_i hstate
        cases p with
        | none => exact attempt_stopRunner _ _ (exclusive_congr rfl rfl hs.1)
        | some profile =>
            -- the condition leaves no live attempt beside the new one
            have hnil : s.jobs = [] := by
              by_contra hne
              exact hok hne (not_not.1 hstate)
            refine ⟨?_, hs.2⟩
            rw [exclusive_iff]
            right
            exact ⟨s.next, by simp [Service.jobIds, launchConnecting, hnil], rfl⟩
  | forceLoad =>
      simp only [step, Option.some.injEq] at h
      subst h
      -- neither branch adds or removes a coroutine: a restart only asks for a new start
      unfold forceLoad
      split
      · exact ⟨exclusive_congr rfl rfl hs.1, hs.2⟩
      · split
        · exact attempt_stopRunner _ _ hs.1
        · exact hs
  | stopRunner restart msg =>
      simp only [step, Option.some.injEq] at h
      subst h
      exact attempt_stopRunner _ _ hs.1
  | resume job os =>
      rcases resume_find h with ⟨j, hj, _, hres⟩
      exact attempt_resume hj hs hres
  | joined stop =>
      rcases joined_find h with ⟨k, _, job, _, _, rfl⟩
      exact ⟨exclusive_congr rfl rfl hs.1, hs.2⟩
  | cleaned stop =>
      -- publishing `Stopped` is all the stop coroutine does to the data after its clean-up
      rcases cleaned_find h with ⟨k, _, _, u, rfl, rfl | rfl⟩
      · rw [changeState_eq]
        exact ⟨exclusive_congr rfl rfl hs.1, by simp⟩
      · rw [changeState_eq]
        exact ⟨exclusive_congr rfl rfl hs.1, by simp [startRunner]⟩

/-- A step that meets the condition is guarded. -/
theorem guards_of_unattended {mode : Mode} {s t : Service} {e : Event} (hs : Attempt s)
    (hok : Unattended s e) (h : step mode s e = some t) : Guards s t e := by
  cases e with
  | onStartCommand p =>
      intro hne
      simp only [step, Option.some.injEq] at h
      subst h
      unfold onStartCommand
      split
      · rfl
      · rename_i hstate
        cases p with
        | none => exact stopRunner_jobIds _ _ _
        | some profile => exact absurd (not_not.1 hstate) (hok hne)
  | forceLoad =>
      intro hne hstop
      simp only [step, Option.some.injEq] at h
      subst h
      unfold forceLoad
      -- what is left is a state in which the attempt can be stopped
      have hstopped := hok hne
      rw [if_neg hstopped]
      cases hstate : s.data.state with
      | idle => exact absurd hstate hs.2
      | connecting => simp [State.canStop]
      | connected => simp [State.canStop]
      | stopping => exact absurd hstate hstop
      | stopped => exact absurd hstate hstopped
  | _ => trivial

/-- A step that does not meet the condition breaks the guard. -/
theorem unattended_of_guards {mode : Mode} {s t : Service} {e : Event}
    (hg : Guards s t e) (h : step mode s e = some t) : Unattended s e := by
  cases e with
  | onStartCommand p =>
      cases p with
      | none => trivial
      | some profile =>
          intro hne hstate
          simp only [step, Option.some.injEq] at h
          subst h
          -- a second start in state `Stopped` adds a coroutine
          have hlen := congrArg List.length (hg hne)
          simp [onStartCommand, hstate, launchConnecting, Service.jobIds] at hlen
  | forceLoad =>
      intro hne hstate
      simp only [step, Option.some.injEq] at h
      subst h
      -- in state `Stopped` the reload asks for a start, which no stop ever does
      have heq := hg hne (by rw [hstate]; decide)
      have hreq := congrArg Service.startRequests heq
      rw [stopRunner_startRequests] at hreq
      simp [forceLoad, hstate, startRunner] at hreq
  | _ => trivial

/-! ## All runs -/

/-- The law of a run: the attempt is exclusive in every state it passes, and every step is
guarded. -/
def RunExclusive (mode : Mode) (h : List (Service × Event)) (s : Service) : Prop :=
  Exclusive s ∧
    ∀ p ∈ h, Exclusive p.1 ∧ ∀ t, step mode p.1 p.2 = some t → Guards p.1 t p.2

/-- Over every interleaving, the attempts are exclusive and guarded exactly if no start and no
reload meets a live attempt in state `Stopped`. -/
theorem exclusive_iff_unattended (mode : Mode) {h : List (Service × Event)} {s : Service}
    (hrun : Run (machine mode) h s) :
    RunExclusive mode h s ↔ ∀ p ∈ h, Unattended p.1 p.2 := by
  have hinit : Attempt (machine mode).init := by
    refine ⟨⟨Nat.zero_le _, ?_⟩, ?_⟩
    · intro j hj
      cases hj
    · exact State.noConfusion
  -- the condition makes `Attempt` an invariant, and that is enough to guard each step
  refine hrun.holds_iff (J := fun _ => True) (P := Exclusive)
    (Q := fun s e => ∀ t, step mode s e = some t → Guards s t e) trivial
    (fun _ _ _ _ _ => trivial) hinit ?_ ?_ ?_ ?_
  · exact fun s e t _ hs he hst => attempt_step hs he hst
  · exact fun s _ hs => hs.1
  · exact fun s e t _ hs he _ u hu => guards_of_unattended hs he hu
  · exact fun s e t _ _ _ hguards hst => unattended_of_guards (hguards t hst) hst

/-- The attempt runs up to the first delay of `sendFd`. -/
def untilSendFd : List Outcome :=
  List.replicate 10 .ok ++ [.suspend]

/-- Start, reload while the attempt is still waiting in `sendFd`, and start again. -/
def doubleStart : List Event :=
  [.onStartCommand (some {}), .resume 0 untilSendFd, .forceLoad, .onStartCommand (some {})]

theorem exclusive_iff_unattended_stop :
    ∃ h s, Run (machine .vpn) h s ∧ s.data.state = .stopping ∧ RunExclusive .vpn h s := by
  refine ⟨_, _, run_of_play _ [.onStartCommand (some {}), .stopRunner false none] rfl,
    by decide, ?_⟩
  refine (exclusive_iff_unattended .vpn (run_of_play _
    [.onStartCommand (some {}), .stopRunner false none] rfl)).2 ?_
  intro p hp
  simp only [List.nil_append, List.cons_append, List.mem_cons, List.not_mem_nil, or_false] at hp
  -- the start meets no live attempt, and a stop meets no condition
  rcases hp with rfl | rfl
  · exact fun hne => absurd rfl hne
  · trivial

/-- Two coroutines are live at once, and the reload did not take the stop-and-restart branch. -/
theorem doubleStart_not_exclusive :
    ∃ h s, Run (machine .vpn) h s ∧ (machine .vpn).play doubleStart = some (h, s) ∧
      s.jobs.length = 2 ∧ ¬ RunExclusive .vpn h s := by
  refine ⟨_, _, run_of_play _ doubleStart rfl, rfl, by decide, ?_⟩
  intro hex
  exact absurd hex.1.1 (by decide)

end Bg
end SpinVpn
