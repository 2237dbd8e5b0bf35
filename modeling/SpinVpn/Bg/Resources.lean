import SpinVpn.Bg.Connecting

/-!
# Resources — no pool and no DNS worker is orphaned

The connecting coroutine acquires a process pool and a DNS worker one after the other, across its
suspension points; the stop coroutine releases them.  A field holds the only reference to each.

`Stage` lists the situations the service goes through as long as no second attempt is started
beside a live one (`Unrivalled`):

    stopped → connecting → connected → joining → cleaning → stopped

with the short cut from `connecting` to `joining` when the attempt fails or is stopped.  In each
of them every open resource is the one its field holds, and `stopped` holds none.
-/

namespace SpinVpn
namespace Bg

open Database EventMachine

/-! ## The property and the condition -/

/-- Every pool and every DNS worker created and not yet closed is the one its field holds. -/
def Held (s : Service) : Prop :=
  (∀ p ∈ s.pools, s.data.processes = some p) ∧ (∀ w ∈ s.workers, s.data.localDns = some w)

/-- Nothing is left of a session. -/
def Clean (s : Service) : Prop :=
  s.data.processes = none ∧ s.data.localDns = none ∧ s.data.proxy = none ∧
    s.data.udpFallback = none ∧ s.data.notification = none ∧
    s.data.closeReceiverRegistered = false

/-- Nothing is orphaned, and nothing is left once `Stopped` is published and no attempt is live. -/
def Tidy (s : Service) : Prop :=
  Held s ∧ (s.data.state = .stopped → s.jobs = [] → Clean s)

/-- No start with a profile arrives while an attempt is live and the published state is
`Stopped`. -/
def Unrivalled (s : Service) : Event → Prop
  | .onStartCommand (some _) => s.jobs ≠ [] → s.data.state ≠ .stopped
  | _ => True

/-! ## One block of the connecting coroutine -/

/-- What is still to be run: every statement once, ending with `publishConnected`, and what it
acquires is not held yet. -/
structure Pending (s : Service) (rest : List Stmt) : Prop where
  nodup : rest.Nodup
  last : rest.getLast? = some .publishConnected
  pool : .newPool ∈ rest → s.data.processes = none
  dns : .newLocalDns ∈ rest → s.data.localDns = none

theorem connect_nodup (mode : Mode) (profile : Profile) : (connect mode profile).Nodup := by
  by_cases hroute : profile.route = customRules
  · cases mode <;> simp [connect, hroute, startProcesses, startProcessesBase]
  · cases mode <;> simp [connect, hroute, startProcesses, startProcessesBase]

theorem connect_getLast? (mode : Mode) (profile : Profile) :
    (connect mode profile).getLast? = some .publishConnected := by
  unfold connect
  rw [List.getLast?_append]
  rfl

theorem effect_stops (st : Stmt) (s : Service) : (st.effect s).stops = s.stops := by
  cases st <;> simp [Stmt.effect, changeState_eq]

/-- Only the last statement changes the published state. -/
theorem effect_state_of_ne {st : Stmt} (hne : st ≠ .publishConnected) (s : Service) :
    (st.effect s).data.state = s.data.state := by
  cases st <;> simp [Stmt.effect] at hne ⊢

theorem effect_held {st : Stmt} {rest : List Stmt} {s : Service} (hs : Held s)
    (hpend : Pending s (st :: rest)) : Held (st.effect s) := by
  rcases hs with ⟨hpools, hworkers⟩
  cases st with
  | newPool =>
      -- no pool is open before this one: an open one would be held
      have hnone : s.data.processes = none := hpend.pool List.mem_cons_self
      have hnil : s.pools = [] := by
        refine List.eq_nil_iff_forall_not_mem.2 ?_
        intro p hp
        have := hpools p hp
        simp [hnone] at this
      refine ⟨?_, hworkers⟩
      simp [Stmt.effect, hnil]
  | newLocalDns =>
      -- the same for the DNS worker
      have hnone : s.data.localDns = none := hpend.dns List.mem_cons_self
      have hnil : s.workers = [] := by
        refine List.eq_nil_iff_forall_not_mem.2 ?_
        intro w hw
        have := hworkers w hw
        simp [hnone] at this
      refine ⟨hpools, ?_⟩
      simp [Stmt.effect, hnil]
  | publishConnected =>
      have heq := changeState_eq .connected none s
      simp only [Stmt.effect, heq]
      exact ⟨hpools, hworkers⟩
  | _ => exact ⟨hpools, hworkers⟩

theorem effect_processes {st : Stmt} (hne : st ≠ .newPool) (s : Service) :
    (st.effect s).data.processes = s.data.processes := by
  cases st <;> simp [Stmt.effect, changeState_eq] at hne ⊢

theorem effect_localDns {st : Stmt} (hne : st ≠ .newLocalDns) (s : Service) :
    (st.effect s).data.localDns = s.data.localDns := by
  cases st <;> simp [Stmt.effect, changeState_eq] at hne ⊢

/-- Running the head leaves the tail pending, unless the head was the last statement. -/
theorem effect_pending {st : Stmt} {rest : List Stmt} {s : Service} (hne : rest ≠ [])
    (hpend : Pending s (st :: rest)) : Pending (st.effect s) rest where
  nodup := (List.nodup_cons.1 hpend.nodup).2
  last := by
    have hlast := hpend.last
    rwa [List.getLast?_cons_of_ne_nil hne] at hlast
  pool := by
    intro hmem
    have hst : st ≠ .newPool := by
      rintro rfl
      exact (List.nodup_cons.1 hpend.nodup).1 hmem
    rw [effect_processes hst]
    exact hpend.pool (List.mem_cons_of_mem _ hmem)
  dns := by
    intro hmem
    have hst : st ≠ .newLocalDns := by
      rintro rfl
      exact (List.nodup_cons.1 hpend.nodup).1 hmem
    rw [effect_localDns hst]
    exact hpend.dns (List.mem_cons_of_mem _ hmem)

theorem head_ne_publishConnected {st : Stmt} {rest : List Stmt} {s : Service} (hne : rest ≠ [])
    (hpend : Pending s (st :: rest)) : st ≠ .publishConnected := by
  rintro rfl
  -- a second `publishConnected` further down would occur twice
  have hlast := hpend.last
  rw [List.getLast?_cons_of_ne_nil hne] at hlast
  exact (List.nodup_cons.1 hpend.nodup).1 (List.mem_of_getLast? hlast)

/-- What a block establishes, by the way it ends. -/
def BlockEnds (s t : Service) : Ended → Prop
  | .suspended rest => t.data.state = s.data.state ∧ Pending t rest
  | .finished => t.data.state = .connected
  | .threw _ => t.data.state = s.data.state

theorem exec_block (rest : List Stmt) (os : List Outcome) (s : Service) :
    ∀ {r : Ended} {t : Service}, exec rest os s = some (r, t) → Held s → Pending s rest →
      Held t ∧ t.stops = s.stops ∧ BlockEnds s t r := by
  -- induction on the block; `case3` is the statement that succeeds
  fun_induction exec rest os s with
  | case1 s =>
      intro r t _ _ hpend
      -- a pending block is not empty
      have := hpend.last
      simp at this
  | case3 st rest os s hnull ih =>
      intro r t h hs hpend
      have hheld := effect_held hs hpend
      by_cases hnil : rest = []
      · -- the last statement: nothing is left but to finish
        subst hnil
        have hst : st = .publishConnected := by simpa using hpend.last
        subst hst
        cases os with
        | nil =>
            simp only [exec, Option.some.injEq, Prod.mk.injEq] at h
            rcases h with ⟨rfl, rfl⟩
            exact ⟨hheld, effect_stops _ _, by simp [BlockEnds, Stmt.effect, changeState_eq]⟩
        | cons o os => simp [exec] at h
      · have hst := head_ne_publishConnected hnil hpend
        -- the rest of the block is pending after this statement
        rcases ih h hheld (effect_pending hnil hpend) with ⟨hheld', hstops, hends⟩
        refine ⟨hheld', hstops.trans (effect_stops _ _), ?_⟩
        have hstate := effect_state_of_ne hst s
        cases r with
        | suspended rest' => exact ⟨hends.1.trans hstate, hends.2⟩
        | finished => exact hends
        | threw msg => exact Eq.trans hends hstate
  | case4 st rest s hsus =>
      intro r t h hs hpend
      cases h
      exact ⟨hs, rfl, rfl, hpend⟩
  | case6 st rest msg s hthrow =>
      intro r t h hs hpend
      cases h
      exact ⟨hs, rfl, rfl⟩
  | _ =>
      intro r t h
      cases h

/-! ## The stages of the service -/

inductive Stage (s : Service) : Prop
  | stopped (hstate : s.data.state = .stopped) (hjobs : s.jobs = []) (hstops : s.stops = [])
      (hclean : Clean s)
  | connecting (j : Connecting) (hstate : s.data.state = .stopped) (hjobs : s.jobs = [j])
      (hstops : s.stops = []) (hcancel : j.cancelled = false)
      (hjob : s.data.connectingJob = some j.id) (hpend : Pending s j.rest)
  | connected (hstate : s.data.state = .connected) (hjobs : s.jobs = []) (hstops : s.stops = [])
  | joining (k : Stop) (job : Nat) (hstate : s.data.state = .stopping) (hstops : s.stops = [k])
      (hphase : k.phase = .joining job) (hjobs : ∀ j ∈ s.jobs, j.id = job ∧ j.cancelled = true)
  | cleaning (k : Stop) (hstate : s.data.state = .stopping) (hstops : s.stops = [k])
      (hphase : k.phase = .cleaning) (hjobs : s.jobs = []) (hclean : Clean s)

/-- With no attempt live, `Stopped` means that nothing is held. -/
theorem Stage.clean {s : Service} (hstage : Stage s) (hstate : s.data.state = .stopped)
    (hjobs : s.jobs = []) : Clean s := by
  cases hstage with
  | stopped _ _ _ hclean => exact hclean
  | connecting j _ h => simp [hjobs] at h
  | connected h => simp [hstate] at h
  | joining _ _ h => simp [hstate] at h
  | cleaning _ h => simp [hstate] at h

/-- A stop on its way waits for the attempt it has cancelled, or cleans up. -/
theorem Stage.of_stop {s : Service} {k : Stop} (hstage : Stage s) (hmem : k ∈ s.stops) :
    s.data.state = .stopping ∧ s.stops = [k] ∧
      ((∃ job, k.phase = .joining job ∧ ∀ j ∈ s.jobs, j.id = job ∧ j.cancelled = true) ∨
        k.phase = .cleaning ∧ s.jobs = [] ∧ Clean s) := by
  cases hstage with
  | stopped _ _ hstops => simp [hstops] at hmem
  | connecting _ _ _ hstops => simp [hstops] at hmem
  | connected _ _ hstops => simp [hstops] at hmem
  | joining k' job hstate hstops hphase hjobs =>
      have hkk : k = k' := by simpa [hstops] using hmem
      subst hkk
      exact ⟨hstate, hstops, Or.inl ⟨job, hphase, hjobs⟩⟩
  | cleaning k' hstate hstops hphase hjobs hclean =>
      have hkk : k = k' := by simpa [hstops] using hmem
      subst hkk
      exact ⟨hstate, hstops, Or.inr ⟨hphase, hjobs, hclean⟩⟩

theorem held_congr {s t : Service} (hpools : t.pools = s.pools) (hworkers : t.workers = s.workers)
    (hproc : t.data.processes = s.data.processes) (hdns : t.data.localDns = s.data.localDns)
    (h : Held s) : Held t := by
  unfold Held
  rw [hpools, hworkers, hproc, hdns]
  exact h

theorem mem_closed {resource : Option Nat} {created : List Nat} {n : Nat}
    (h : n ∈ closed resource created) : n ∈ created ∧ resource ≠ some n := by
  cases resource with
  | none => exact ⟨h, by simp⟩
  | some m =>
      simp only [closed, List.mem_filter, bne_iff_ne] at h
      refine ⟨h.1, ?_⟩
      intro heq
      exact h.2 (Option.some.inj heq).symm

/-- The clean-up closes everything that is held, hence everything that is open. -/
theorem cleanUp_held {s : Service} (h : Held s) : Held (cleanUp s) := by
  constructor
  · intro p hp
    -- an open pool would be held, and what is held has been closed
    have := mem_closed hp
    exact absurd (h.1 p this.1) this.2
  · intro w hw
    have := mem_closed hw
    exact absurd (h.2 w this.1) this.2

theorem cleanUp_clean (s : Service) : Clean (cleanUp s) :=
  ⟨rfl, rfl, rfl, rfl, rfl, rfl⟩

/-- Stopping a service whose only live coroutine, if any, is the one `connectingJob` refers to. -/
theorem launchStop_stage (restart : Bool) (msg : Option String) {s : Service} (hs : Held s)
    (hstate : s.data.state = .stopping) (hstops : s.stops = []) (hex : Exclusive s) :
    Held (launchStop restart msg s) ∧ Stage (launchStop restart msg s) := by
  -- either the stop waits for the live attempt, or there is none and it cleans up at once
  rcases launchStop_cases restart msg s with ⟨job, hjob, _, heq⟩ | ⟨hdead, heq⟩
  · rw [heq]
    refine ⟨held_congr rfl rfl rfl rfl hs, ?_⟩
    refine Stage.joining ⟨s.next, restart, msg, .joining job⟩ job hstate ?_ rfl ?_
    · simp [cancelJob, addStop, hstops]
    · intro j hj
      simp only [cancelJob, addStop, List.mem_map] at hj
      rcases hj with ⟨i, hi, rfl⟩
      -- the exclusive attempt is the one that was cancelled
      have hid : i.id = job := by
        have := hex.2 i hi
        rw [hjob] at this
        exact (Option.some.inj this).symm
      simp [hid]
  · rw [heq]
    -- a live attempt would be the one `connectingJob` refers to
    have hjobs : s.jobs = [] := by
      refine List.eq_nil_iff_forall_not_mem.2 ?_
      intro j hj
      have hlive : s.isLive j.id = true := mem_jobIds.1 (List.mem_map_of_mem hj)
      have := hdead j.id (hex.2 j hj)
      rw [hlive] at this
      cases this
    refine ⟨cleanUp_held (held_congr rfl rfl rfl rfl hs), ?_⟩
    refine Stage.cleaning ⟨s.next, restart, msg, .cleaning⟩ hstate ?_ rfl hjobs (cleanUp_clean _)
    simp [cleanUp, killProcesses, addStop, hstops]

theorem Stage.exclusive_or_stopping {s : Service} (h : Stage s) :
    s.data.state = .stopping ∨ (s.stops = [] ∧ Exclusive s) := by
  cases h with
  | stopped hstate hjobs hstops hclean =>
      right
      exact ⟨hstops, by simp [Exclusive, hjobs]⟩
  | connecting j hstate hjobs hstops hcancel hjob hpend =>
      right
      exact ⟨hstops, by simp [Exclusive, hjobs, hjob]⟩
  | connected hstate hjobs hstops =>
      right
      exact ⟨hstops, by simp [Exclusive, hjobs]⟩
  | joining k job hstate => exact Or.inl hstate
  | cleaning k hstate => exact Or.inl hstate

theorem stopRunner_stage {restart : Bool} {msg : Option String} {s : Service} (hs : Held s)
    (hstage : Stage s) :
    Held (stopRunner restart msg s) ∧ Stage (stopRunner restart msg s) := by
  unfold stopRunner
  split
  · exact ⟨hs, hstage⟩
  · rename_i hne
    rcases hstage.exclusive_or_stopping with hstop | ⟨hstops, hex⟩
    · exact absurd hstop hne
    · rw [changeState_eq]
      exact launchStop_stage _ _ (held_congr rfl rfl rfl rfl hs) rfl hstops
        (exclusive_congr rfl rfl hex)

/-- While a stop is under way, `stopRunner` does nothing. -/
theorem stopRunner_of_stopping {restart : Bool} {msg : Option String} {s : Service}
    (h : s.data.state = .stopping) : stopRunner restart msg s = s := by
  simp [stopRunner, h]

/-! ## One step -/

/-- The cancelled attempt ends, and the stop coroutine goes on waiting. -/
theorem resume_cancelled {j : Connecting} {os : List Outcome} {s t : Service} {k : Stop}
    {job : Nat} (hj : j.cancelled = true) (hs : Held s)
    (hstate : s.data.state = .stopping) (hstops : s.stops = [k])
    (hphase : k.phase = .joining job) (hjobs : ∀ j ∈ s.jobs, j.id = job ∧ j.cancelled = true)
    (h : resume j os s = some t) : Held t ∧ Stage t := by
  -- whichever way it ends, only the list of live coroutines shrinks
  have hsub : ∀ i ∈ s.jobs.filter (fun i => i.id != j.id), i.id = job ∧ i.cancelled = true :=
    fun i hi => hjobs i (List.mem_filter.1 hi).1
  rcases resume_cases h with ⟨_, rfl⟩ | ⟨_, rfl⟩ | ⟨_, msg, rfl⟩ | ⟨hc, _⟩ | ⟨hc, _⟩ | ⟨hc, _⟩
  · exact ⟨held_congr rfl rfl rfl rfl hs, Stage.joining k job hstate hstops hphase hsub⟩
  · exact ⟨held_congr rfl rfl rfl rfl hs, Stage.joining k job hstate hstops hphase hsub⟩
  · unfold fail
    rw [stopRunner_of_stopping hstate]
    exact ⟨held_congr rfl rfl rfl rfl hs, Stage.joining k job hstate hstops hphase hsub⟩
  · rw [hj] at hc
    cases hc
  · rw [hj] at hc
    cases hc
  · rw [hj] at hc
    cases hc

/-- While a stop is under way, a completing attempt changes nothing but the list of live ones. -/
theorem Stage.complete {s : Service} (job : Nat) (hstage : Stage s)
    (hstate : s.data.state = .stopping) : Stage (complete job s) := by
  cases hstage with
  | stopped h => simp [hstate] at h
  | connecting j h => simp [hstate] at h
  | connected h => simp [hstate] at h
  | joining k job' h hstops hphase hjobs =>
      exact Stage.joining k job' h hstops hphase
        (fun i hi => hjobs i (List.mem_filter.1 hi).1)
  | cleaning k h hstops hphase hjobs hclean =>
      exact Stage.cleaning k h hstops hphase (by simp [Bg.complete, removeJob, hjobs]) hclean

/-- The live attempt suspends again, publishes `Connected`, or fails and stops the service. -/
theorem resume_connecting {j : Connecting} {os : List Outcome} {s t : Service}
    (hs : Held s) (hstate : s.data.state = .stopped) (hjobs : s.jobs = [j])
    (hstops : s.stops = []) (hcancel : j.cancelled = false)
    (hjob : s.data.connectingJob = some j.id) (hpend : Pending s j.rest)
    (h : resume j os s = some t) : Held t ∧ Stage t := by
  rcases resume_cases h with ⟨hc, _⟩ | ⟨hc, _⟩ | ⟨hc, _⟩ | ⟨_, rest, u, hexec, rfl⟩ |
    ⟨_, u, hexec, rfl⟩ | ⟨_, msg, u, hexec, rfl⟩
  · rw [hcancel] at hc
    cases hc
  · rw [hcancel] at hc
    cases hc
  · rw [hcancel] at hc
    cases hc
  · rcases exec_frame hexec with ⟨hujobs, hujob, _⟩
    rcases exec_block _ _ _ hexec hs hpend with ⟨hheld, hustops, hustate, hupend⟩
    refine ⟨held_congr rfl rfl rfl rfl hheld, ?_⟩
    refine Stage.connecting { j with started := true, rest := rest } (hustate.trans hstate) ?_
      (hustops.trans hstops) hcancel (hujob.trans hjob) ⟨hupend.1, hupend.2, hupend.3, hupend.4⟩
    simp [suspendJob, hujobs, hjobs]
  · rcases exec_frame hexec with ⟨hujobs, _, _⟩
    rcases exec_block _ _ _ hexec hs hpend with ⟨hheld, hustops, hustate⟩
    refine ⟨held_congr rfl rfl rfl rfl hheld, Stage.connected hustate ?_ (hustops.trans hstops)⟩
    simp [complete, removeJob, hujobs, hjobs]
  · rcases exec_frame hexec with ⟨hujobs, hujob, _⟩
    rcases exec_block _ _ _ hexec hs hpend with ⟨hheld, hustops, hustate⟩
    have hux : Exclusive u := by simp [Exclusive, hujobs, hjobs, hujob, hjob]
    have hne : u.data.state ≠ .stopping := by
      rw [hustate, hstate]
      decide
    -- the stop coroutine cancels and joins the failing attempt itself, which then completes
    have hstop : Held (stopRunner false (some (serviceFailed ++ ": " ++ msg)) u) ∧
        Stage (stopRunner false (some (serviceFailed ++ ": " ++ msg)) u) := by
      unfold stopRunner
      rw [if_neg hne, changeState_eq]
      exact launchStop_stage _ _ (held_congr rfl rfl rfl rfl hheld) rfl (hustops.trans hstops)
        (exclusive_congr rfl rfl hux)
    exact ⟨held_congr rfl rfl rfl rfl hstop.1, hstop.2.complete _ (stopRunner_state _ _ _)⟩

theorem stage_resume {mode : Mode} {s t : Service} {job : Nat} {os : List Outcome} (hs : Held s)
    (hstage : Stage s) (h : step mode s (.resume job os) = some t) : Held t ∧ Stage t := by
  rcases resume_find h with ⟨j, hj, _, hres⟩
  cases hstage with
  | stopped _ hjobs => simp [hjobs] at hj
  | connecting j' hstate hjobs hstops hcancel hjob hpend =>
      have hjj : j = j' := by simpa [hjobs] using hj
      subst hjj
      exact resume_connecting hs hstate hjobs hstops hcancel hjob hpend hres
  | connected _ hjobs => simp [hjobs] at hj
  | joining k job' hstate hstops hphase hjobs =>
      exact resume_cancelled (hjobs j hj).2 hs hstate hstops hphase hjobs hres
  | cleaning _ _ _ _ hjobs => simp [hjobs] at hj

theorem stage_onStartCommand {mode : Mode} {s : Service} {p : Option Profile} (hs : Held s)
    (hstage : Stage s) (hok : Unrivalled s (.onStartCommand p)) :
    Held (onStartCommand mode p s) ∧ Stage (onStartCommand mode p s) := by
  unfold onStartCommand
  split
  · exact ⟨hs, hstage⟩
  · rename_i hstate
    have hstopped := not_not.1 hstate
    -- in state `Stopped` no stop is under way
    rcases hstage.exclusive_or_stopping with hstop | ⟨hstops, hex⟩
    · rw [hstopped] at hstop
      cases hstop
    · cases p with
      | none =>
          have hne : ({ s with data := { s.data with notification := some "" } } :
              Service).data.state ≠ .stopping := by
            rw [hstopped]
            decide
          dsimp only
          unfold stopRunner
          rw [if_neg hne, changeState_eq]
          exact launchStop_stage _ _ (held_congr rfl rfl rfl rfl hs) rfl hstops
            (exclusive_congr rfl rfl hex)
      | some profile =>
          -- no attempt is live, so nothing is held and the new attempt starts from nothing
          have hjobs : s.jobs = [] := by
            by_contra hne
            exact hok hne hstopped
          have hclean : Clean s := hstage.clean hstopped hjobs
          refine ⟨held_congr rfl rfl rfl rfl hs, ?_⟩
          refine Stage.connecting ⟨s.next, false, false, connect mode profile⟩ hstopped ?_ hstops
            rfl rfl ?_
          · simp [launchConnecting, hjobs]
          · exact ⟨connect_nodup mode profile, connect_getLast? mode profile,
              fun _ => hclean.1, fun _ => hclean.2.1⟩

theorem stage_joined {mode : Mode} {s t : Service} {stop : Nat} (hs : Held s)
    (hstage : Stage s) (h : step mode s (.joined stop) = some t) : Held t ∧ Stage t := by
  rcases joined_find h with ⟨k, hmem, job, hphase, hlive, rfl⟩
  obtain ⟨hstate, hstops, ⟨job', hphase', hjobs⟩ | ⟨hphase', -, -⟩⟩ := hstage.of_stop hmem
  · have hjob : job = job' := by
      rw [hphase] at hphase'
      exact StopPhase.joining.inj hphase'
    subst hjob
    -- the joined coroutine was the only one that could be live
    have hnil : s.jobs = [] := by
      refine List.eq_nil_iff_forall_not_mem.2 ?_
      intro j hj
      have hid := (hjobs j hj).1
      have hj' : s.isLive j.id = true := mem_jobIds.1 (List.mem_map_of_mem hj)
      rw [hid, hlive] at hj'
      cases hj'
    refine ⟨cleanUp_held (held_congr rfl rfl rfl rfl hs), ?_⟩
    refine Stage.cleaning { k with phase := .cleaning } hstate ?_ rfl hnil (cleanUp_clean _)
    simp [cleanUp, killProcesses, setCleaning, hstops]
  · -- a stop that cleans up has nothing to join
    rw [hphase'] at hphase
    cases hphase

theorem stage_cleaned {mode : Mode} {s t : Service} {stop : Nat} (hs : Held s)
    (hstage : Stage s) (h : step mode s (.cleaned stop) = some t) : Held t ∧ Stage t := by
  rcases cleaned_find h with ⟨k, hmem, hphase, u, hu, ht⟩
  obtain ⟨hstate, hstops, ⟨job, hphase', -⟩ | ⟨-, hjobs, hclean⟩⟩ := hstage.of_stop hmem
  · -- a stop that still waits has not cleaned up
    rw [hphase'] at hphase
    cases hphase
  · rw [changeState_eq] at hu
    subst hu
    rcases ht with rfl | rfl
    · exact ⟨held_congr rfl rfl rfl rfl hs,
        Stage.stopped rfl hjobs (by simp [hstops]) hclean⟩
    · exact ⟨held_congr rfl rfl rfl rfl hs,
        Stage.stopped rfl hjobs (by simp [startRunner, hstops]) hclean⟩

theorem Stage.startRunner {s : Service} (hstage : Stage s) : Stage (startRunner s) := by
  cases hstage with
  | stopped h1 h2 h3 h4 => exact Stage.stopped h1 h2 h3 h4
  | connecting j h1 h2 h3 h4 h5 h6 =>
      exact Stage.connecting j h1 h2 h3 h4 h5 ⟨h6.1, h6.2, h6.3, h6.4⟩
  | connected h1 h2 h3 => exact Stage.connected h1 h2 h3
  | joining k job h1 h2 h3 h4 => exact Stage.joining k job h1 h2 h3 h4
  | cleaning k h1 h2 h3 h4 h5 => exact Stage.cleaning k h1 h2 h3 h4 h5

theorem stage_step {mode : Mode} {s t : Service} {e : Event} (hs : Held s ∧ Stage s)
    (hok : Unrivalled s e) (h : step mode s e = some t) : Held t ∧ Stage t := by
  cases e with
  | onStartCommand p =>
      simp only [step, Option.some.injEq] at h
      subst h
      exact stage_onStartCommand hs.1 hs.2 hok
  | forceLoad =>
      simp only [step, Option.some.injEq] at h
      subst h
      unfold forceLoad
      split
      · exact ⟨held_congr rfl rfl rfl rfl hs.1, hs.2.startRunner⟩
      · split
        · exact stopRunner_stage hs.1 hs.2
        · exact hs
  | stopRunner restart msg =>
      simp only [step, Option.some.injEq] at h
      subst h
      exact stopRunner_stage hs.1 hs.2
  | resume job os => exact stage_resume hs.1 hs.2 h
  | joined stop => exact stage_joined hs.1 hs.2 h
  | cleaned stop => exact stage_cleaned hs.1 hs.2 h

/-! ## All runs -/

/-- Over every interleaving in which no start meets a live attempt in state `Stopped`, nothing is
ever orphaned and a stopped service holds nothing. -/
theorem tidy_of_unrivalled (mode : Mode) {h : List (Service × Event)} {s : Service}
    (hrun : Run (machine mode) h s) (hok : ∀ p ∈ h, Unrivalled p.1 p.2) :
    Tidy s ∧ ∀ p ∈ h, Tidy p.1 := by
  have hinit : Held (machine mode).init ∧ Stage (machine mode).init := by
    refine ⟨⟨?_, ?_⟩, Stage.stopped rfl rfl rfl ⟨rfl, rfl, rfl, rfl, rfl, rfl⟩⟩
    · intro p hp
      cases hp
    · intro w hw
      cases hw
  have hstep : ∀ s e t, Held s ∧ Stage s → Unrivalled s e → (machine mode).step s e = some t →
      Held t ∧ Stage t := fun s e t => stage_step
  -- `Tidy` alone is not inductive: a step needs to know the stage
  have htidy : ∀ s, Held s ∧ Stage s → Tidy s := fun s hs => ⟨hs.1, hs.2.clean⟩
  refine ⟨htidy s (hrun.invariant (I := fun s => Held s ∧ Stage s) hinit hstep hok), ?_⟩
  intro p hp
  exact htidy p.1 (hrun.invariant_of_mem (I := fun s => Held s ∧ Stage s) hinit hstep hok hp)

/-- Start, connect, and stop again. -/
def session : List Event :=
  [.onStartCommand (some {}), .resume 0 untilSendFd, .resume 0 [.ok, .ok, .ok],
    .stopRunner false none, .cleaned 5]

theorem tidy_of_unrivalled_session :
    ∃ h s, Run (machine .vpn) h s ∧ (machine .vpn).play session = some (h, s) ∧
      s.data.state = .stopped ∧ Tidy s := by
  refine ⟨_, _, run_of_play _ session rfl, rfl, by decide, ?_⟩
  refine (tidy_of_unrivalled .vpn (run_of_play _ session rfl) ?_).1
  intro p hp
  simp only [List.nil_append, List.cons_append, List.mem_cons, List.not_mem_nil, or_false] at hp
  -- only the first event is a start
  rcases hp with rfl | rfl | rfl | rfl | rfl
  · exact fun hne => absurd rfl hne
  all_goals trivial

/-- A second start while the first attempt waits in `sendFd`: its pool replaces the first one,
which stays open with no reference to it. -/
def rivalStart : List Event :=
  [.onStartCommand (some {}), .resume 0 untilSendFd, .onStartCommand (some {}),
    .resume 5 untilSendFd]

theorem rivalStart_not_tidy :
    ∃ h s, Run (machine .vpn) h s ∧ (machine .vpn).play rivalStart = some (h, s) ∧
      1 ∈ s.pools ∧ s.data.processes ≠ some 1 ∧ ¬ Tidy s := by
  refine ⟨_, _, run_of_play _ rivalStart rfl, rfl, by decide, by decide, ?_⟩
  intro htidy
  exact absurd (htidy.1.1 1 (by decide)) (by decide)

end Bg
end SpinVpn
