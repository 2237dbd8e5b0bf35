import Mathlib.Data.List.Nodup
import SpinVpn.Lib.Keyed
import SpinVpn.Bg.Resources

/-!
# Lifetime — from a start to the end of its clean-up

A service is *up* from the moment a connecting coroutine is launched until the last clean-up is
over.  While an attempt is under way the published state is still `Stopped`, and several attempts
and stops may be live at once; none of that matters here.  `up_step` says that only the end of a
clean-up takes a service down.
-/

namespace SpinVpn
namespace Bg

open Database

/-- Something of a session is still going on. -/
def Up (s : Service) : Prop :=
  s.jobs ≠ [] ∨ s.stops ≠ [] ∨ s.data.state ≠ .stopped

/-- What holds in every reachable state: an attempt ends by publishing `Connected`, and a
cancelled one is waited for by a stop coroutine of its own. -/
structure Attended (s : Service) : Prop where
  last : ∀ j ∈ s.jobs, j.rest.getLast? = some .publishConnected
  awaited : ∀ j ∈ s.jobs, j.cancelled = true → ∃ k ∈ s.stops, k.phase = .joining j.id
  nodup : (s.stops.map Stop.id).Nodup
  fresh : ∀ k ∈ s.stops, k.id < s.next

/-! ## Frames -/

/-- Jobs may end and numbers be handed out. -/
theorem Attended.congr {s t : Service} (h : Attended s) (hjobs : t.jobs ⊆ s.jobs)
    (hstops : t.stops = s.stops) (hnext : s.next ≤ t.next) : Attended t where
  last := fun j hj => h.last j (hjobs hj)
  awaited := fun j hj hcancelled => hstops ▸ h.awaited j (hjobs hj) hcancelled
  nodup := hstops ▸ h.nodup
  fresh := fun k hk => Nat.lt_of_lt_of_le (h.fresh k (hstops ▸ hk)) hnext

theorem removeJob_subset (job : Nat) (s : Service) : (removeJob job s).jobs ⊆ s.jobs :=
  List.filter_subset_self _

/-- A block of the coroutine neither starts nor ends one. -/
theorem exec_coroutines {rest : List Stmt} {os : List Outcome} {s t : Service} {r : Ended}
    (h : exec rest os s = some (r, t)) :
    t.jobs = s.jobs ∧ t.stops = s.stops ∧ s.next ≤ t.next := by
  refine ⟨(exec_frame h).1, ?_⟩
  refine exec_induction (P := fun u => u.stops = s.stops ∧ s.next ≤ u.next) ?_ rest os s h
    ⟨rfl, Nat.le_refl _⟩
  intro st u hu
  refine ⟨(effect_stops st u).trans hu.1, Nat.le_trans hu.2 ?_⟩
  cases st <;> simp [Stmt.effect, changeState_eq]

/-- How a block ends: what is left still ends with `publishConnected`, and running to the end
publishes it. -/
theorem exec_last (rest : List Stmt) (os : List Outcome) (s : Service) :
    ∀ {r : Ended} {t : Service}, exec rest os s = some (r, t) →
      rest.getLast? = some .publishConnected →
      (∀ rest', r = .suspended rest' → rest'.getLast? = some .publishConnected) ∧
      (r = .finished → t.data.state = .connected) := by
  fun_induction exec rest os s with
  | case1 s =>
      intro r t _ hlast
      simp at hlast
  | case3 st rest os s hnull ih =>
      intro r t h hlast
      by_cases hnil : rest = []
      · -- `publishConnected` was the statement just run
        subst hnil
        have hst : st = .publishConnected := by simpa using hlast
        subst hst
        cases os with
        | nil =>
            cases h
            refine ⟨?_, fun _ => by simp [Stmt.effect, changeState_eq]⟩
            intro rest' hr
            cases hr
        | cons o os => simp [exec] at h
      · rw [List.getLast?_cons_of_ne_nil hnil] at hlast
        exact ih h hlast
  | case4 st rest s hsus =>
      intro r t h hlast
      cases h
      constructor
      · intro rest' hr
        cases hr
        exact hlast
      · intro hr
        cases hr
  | case6 st rest msg s hthrow =>
      intro r t h _
      cases h
      constructor
      · intro rest' hr
        cases hr
      · intro hr
        cases hr
  | _ =>
      intro r t h
      cases h

/-! ## Stopping -/

theorem attended_addStop {s : Service} (restart : Bool) (msg : Option String) (phase : StopPhase)
    (h : Attended s) : Attended (addStop restart msg phase s) where
  last := h.last
  awaited := by
    intro j hj hcancelled
    rcases h.awaited j hj hcancelled with ⟨k, hk, hphase⟩
    exact ⟨k, List.mem_append_left _ hk, hphase⟩
  nodup := by
    simp only [addStop, List.map_append, List.map_cons, List.map_nil]
    refine List.nodup_append.2 ⟨h.nodup, List.nodup_singleton _, ?_⟩
    intro i hi i' hi' heq
    rcases List.mem_map.1 hi with ⟨k, hk, rfl⟩
    have hlt := h.fresh k hk
    rw [List.mem_singleton] at hi'
    omega
  fresh := by
    intro k hk
    rcases List.mem_append.1 hk with hk | hk
    · exact Nat.lt_succ_of_lt (h.fresh k hk)
    · rw [List.mem_singleton.1 hk]
      exact Nat.lt_succ_self _

theorem attended_cancelJob {s : Service} {job : Nat} (h : Attended s)
    (hstop : ∃ k ∈ s.stops, k.phase = .joining job) : Attended (cancelJob job s) where
  last := by
    intro j hj
    rcases List.mem_map.1 hj with ⟨i, hi, rfl⟩
    by_cases hid : i.id = job
    · simpa [hid] using h.last i hi
    · simpa [hid] using h.last i hi
  awaited := by
    intro j hj hcancelled
    rcases List.mem_map.1 hj with ⟨i, hi, rfl⟩
    by_cases hid : i.id = job
    · simpa [hid, cancelJob] using hstop
    · simp only [hid, if_false] at hcancelled ⊢
      exact h.awaited i hi hcancelled
  nodup := h.nodup
  fresh := h.fresh

theorem attended_stopRunner {s : Service} (restart : Bool) (msg : Option String)
    (h : Attended s) : Attended (stopRunner restart msg s) := by
  unfold stopRunner
  split
  · exact h
  · have hstopping : Attended (changeState .stopping none s) := by
      rw [changeState_eq]
      exact h.congr (List.Subset.refl _) rfl (Nat.le_refl _)
    rcases launchStop_cases restart msg (changeState .stopping none s) with
      ⟨job, -, -, heq⟩ | ⟨-, heq⟩
    · rw [heq]
      refine attended_cancelJob (attended_addStop restart msg _ hstopping) ?_
      exact ⟨_, List.mem_append_right _ List.mem_cons_self, rfl⟩
    · rw [heq]
      exact (attended_addStop restart msg _ hstopping).congr (List.Subset.refl _) rfl
        (Nat.le_refl _)

theorem up_stopRunner (restart : Bool) (msg : Option String) (s : Service) :
    Up (stopRunner restart msg s) := by
  refine Or.inr (Or.inr ?_)
  rw [stopRunner_state]
  decide

/-! ## One step -/

theorem attended_fail {s : Service} (job : Nat) (msg : String) (h : Attended s) :
    Attended (fail job msg s) :=
  (attended_stopRunner false _ h).congr (removeJob_subset _ _) rfl (Nat.le_refl _)

theorem up_fail (job : Nat) (msg : String) (s : Service) : Up (fail job msg s) := by
  refine Or.inr (Or.inr ?_)
  have hstate : (fail job msg s).data.state = .stopping := stopRunner_state _ _ _
  rw [hstate]
  decide

theorem attended_suspendJob {s : Service} {job : Nat} {rest : List Stmt} (h : Attended s)
    (hlast : rest.getLast? = some .publishConnected) : Attended (suspendJob job rest s) where
  last := by
    intro j hj
    rcases List.mem_map.1 hj with ⟨i, hi, rfl⟩
    by_cases hid : i.id = job
    · simpa [hid] using hlast
    · simpa [hid] using h.last i hi
  awaited := by
    intro j hj hcancelled
    rcases List.mem_map.1 hj with ⟨i, hi, rfl⟩
    by_cases hid : i.id = job
    · subst hid
      simp only [if_true] at hcancelled ⊢
      exact h.awaited i hi hcancelled
    · simp only [hid, if_false] at hcancelled ⊢
      exact h.awaited i hi hcancelled
  nodup := h.nodup
  fresh := h.fresh

/-- A resumed coroutine leaves the service up: one that runs to its end has published
`Connected`, one that fails stops the service, and a cancelled one is waited for. -/
theorem resume_lifetime {s t : Service} {j : Connecting} {os : List Outcome} (h : Attended s)
    (hj : j ∈ s.jobs) (hres : resume j os s = some t) : Attended t ∧ Up t := by
  -- `complete` also forgets the job in `data`, which no invariant here reads
  have hremoved : ∀ u : Service, u.jobs = s.jobs → u.stops = s.stops → s.next ≤ u.next →
      Attended (complete j.id u) := by
    intro u hjobs hstops hnext
    refine h.congr ?_ hstops hnext
    exact hjobs ▸ removeJob_subset j.id { u with data := { u.data with connectingJob := none } }
  -- a cancelled coroutine has the stop that cancelled it waiting
  have hawaited : j.cancelled = true → s.stops ≠ [] := by
    intro hcancelled hnil
    rcases h.awaited j hj hcancelled with ⟨k, hk, -⟩
    simp [hnil] at hk
  rcases resume_cases hres with ⟨hc, rfl⟩ | ⟨hc, rfl⟩ | ⟨hc, msg, rfl⟩ |
    ⟨-, rest, u, hexec, rfl⟩ | ⟨-, u, hexec, rfl⟩ | ⟨-, msg, u, hexec, rfl⟩
  · refine ⟨h.congr (removeJob_subset _ _) rfl (Nat.le_refl _), Or.inr (Or.inl ?_)⟩
    exact hawaited hc
  · exact ⟨hremoved s rfl rfl (Nat.le_refl _), Or.inr (Or.inl (hawaited hc))⟩
  · exact ⟨attended_fail _ _ h, up_fail _ _ _⟩
  · rcases exec_coroutines hexec with ⟨hjobs, hstops, hnext⟩
    have hu : Attended u := h.congr (hjobs ▸ List.Subset.refl _) hstops hnext
    -- suspended: what is left of the block still ends in `Connected`
    have hlast := (exec_last _ _ _ hexec (h.last j hj)).1 rest rfl
    refine ⟨attended_suspendJob hu hlast, Or.inl ?_⟩
    intro hnil
    have hnone : u.jobs = [] := List.map_eq_nil_iff.1 hnil
    rw [hjobs] at hnone
    simp [hnone] at hj
  · rcases exec_coroutines hexec with ⟨hjobs, hstops, hnext⟩
    refine ⟨hremoved u hjobs hstops hnext, Or.inr (Or.inr ?_)⟩
    -- run to its end: the last statement was `changeState(State.Connected)`
    have hconnected := (exec_last _ _ _ hexec (h.last j hj)).2 rfl
    have hstate : (complete j.id u).data.state = .connected := hconnected
    rw [hstate]
    decide
  · rcases exec_coroutines hexec with ⟨hjobs, hstops, hnext⟩
    have hu : Attended u := h.congr (hjobs ▸ List.Subset.refl _) hstops hnext
    exact ⟨attended_fail _ _ hu, up_fail _ _ _⟩

theorem attended_launchConnecting {s : Service} (mode : Mode) (profile : Profile)
    (h : Attended s) : Attended (launchConnecting mode profile s) where
  last := by
    intro j hj
    rcases List.mem_append.1 hj with hj | hj
    · exact h.last j hj
    · rw [List.mem_singleton.1 hj]
      exact connect_getLast? mode profile
  awaited := by
    intro j hj hcancelled
    rcases List.mem_append.1 hj with hj | hj
    · exact h.awaited j hj hcancelled
    · rw [List.mem_singleton.1 hj] at hcancelled
      cases hcancelled
  nodup := h.nodup
  fresh := fun k hk => Nat.lt_succ_of_lt (h.fresh k hk)

/-- The stop coroutine that goes on to clean up was waiting for a job that is over. -/
theorem joined_lifetime {mode : Mode} {s t : Service} {stop : Nat} (h : Attended s)
    (hstep : step mode s (.joined stop) = some t) : Attended t ∧ Up t := by
  rcases joined_find hstep with ⟨k, hk, job, hphase, hlive, rfl⟩
  -- the stop changes its phase only
  have hids : (setCleaning k.id s).stops.map Stop.id = s.stops.map Stop.id := by
    simp only [setCleaning, List.map_map]
    refine List.map_congr_left (fun k' _ => ?_)
    simp only [Function.comp_apply]
    split <;> rfl
  refine ⟨⟨h.last, ?_, hids ▸ h.nodup, ?_⟩, Or.inr (Or.inl ?_)⟩
  · intro j hj hcancelled
    rcases h.awaited j hj hcancelled with ⟨k', hk', hphase'⟩
    -- whoever waits for a live job is another stop: this one waited for a job that is over
    have hne : ¬ k'.id = k.id := by
      intro hid
      have hkk : k' = k := Keyed.ext_of_key h.nodup hk' hk hid
      rw [hkk, hphase] at hphase'
      cases hphase'
      have hj' : s.isLive j.id = true := mem_jobIds.1 (List.mem_map_of_mem hj)
      rw [hlive] at hj'
      cases hj'
    exact ⟨k', List.mem_map.2 ⟨k', hk', if_neg hne⟩, hphase'⟩
  · intro k' hk'
    rcases List.mem_map.1 hk' with ⟨k'', hk'', rfl⟩
    have hlt := h.fresh k'' hk''
    split <;> exact hlt
  · intro hnil
    have hnone : s.stops = [] := List.map_eq_nil_iff.1 hnil
    simp [hnone] at hk

theorem cleaned_attended {mode : Mode} {s t : Service} {stop : Nat} (h : Attended s)
    (hstep : step mode s (.cleaned stop) = some t) : Attended t := by
  rcases cleaned_find hstep with ⟨k, hk, hphase, u, hu, ht⟩
  have hfiltered : Attended
      { s with stops := s.stops.filter (fun k' => k'.id != k.id) } := by
    refine ⟨h.last, ?_, ?_, fun k' hk' => h.fresh k' (List.mem_of_mem_filter hk')⟩
    · intro j hj hcancelled
      rcases h.awaited j hj hcancelled with ⟨k', hk', hphase'⟩
      -- a stop that cleans up is not one that waits
      have hne : ¬ k'.id = k.id := by
        intro hid
        have hkk : k' = k := Keyed.ext_of_key h.nodup hk' hk hid
        rw [hkk, hphase] at hphase'
        cases hphase'
      exact ⟨k', List.mem_filter.2 ⟨hk', by simpa using hne⟩, hphase'⟩
    · exact h.nodup.sublist (List.filter_sublist.map _)
  rw [changeState_eq] at hu
  subst hu
  rcases ht with rfl | rfl <;> exact hfiltered.congr (List.Subset.refl _) rfl (Nat.le_refl _)

/-- The end of a clean-up. -/
def Event.isCleaned : Event → Bool
  | .cleaned _ => true
  | _ => false

theorem lifetime_step {mode : Mode} {s t : Service} {e : Event} (h : Attended s)
    (hstep : step mode s e = some t) : Attended t ∧ (e.isCleaned = false → Up s → Up t) := by
  cases e with
  | onStartCommand p =>
      cases hstep
      unfold onStartCommand
      split
      · exact ⟨h, fun _ hup => hup⟩
      · cases p with
        | none =>
            -- without a profile the notification is shown and the service stopped
            have hnotified : Attended
                { s with data := { s.data with notification := some "" } } :=
              h.congr (List.Subset.refl _) rfl (Nat.le_refl _)
            exact ⟨attended_stopRunner _ _ hnotified, fun _ _ => up_stopRunner _ _ _⟩
        | some profile =>
            refine ⟨attended_launchConnecting mode profile h, fun _ _ => Or.inl ?_⟩
            simp [launchConnecting]
  | forceLoad =>
      cases hstep
      unfold forceLoad
      split
      · exact ⟨h.congr (List.Subset.refl _) rfl (Nat.le_refl _), fun _ hup => hup⟩
      · split
        · exact ⟨attended_stopRunner _ _ h, fun _ _ => up_stopRunner _ _ _⟩
        · exact ⟨h, fun _ hup => hup⟩
  | stopRunner restart msg =>
      cases hstep
      exact ⟨attended_stopRunner _ _ h, fun _ _ => up_stopRunner _ _ _⟩
  | resume job os =>
      rcases resume_find hstep with ⟨j, hj, -, hres⟩
      rcases resume_lifetime h hj hres with ⟨hattended, hup⟩
      exact ⟨hattended, fun _ _ => hup⟩
  | joined stop =>
      rcases joined_lifetime h hstep with ⟨hattended, hup⟩
      exact ⟨hattended, fun _ _ => hup⟩
  | cleaned stop =>
      refine ⟨cleaned_attended h hstep, ?_⟩
      intro hnot
      cases hnot

end Bg
end SpinVpn
