import Mathlib.Data.List.Nodup
import SpinVpn.Net.NetworkActor

/-!
# Requests — every `Get` is answered once

A `Get` is answered at once where a network is remembered.  Otherwise it is kept, across losses
of the network and stopping and restarting of the listeners, until the next `Put`.
-/

namespace SpinVpn
namespace Net

open EventMachine

variable {κ ν ℓ : Type}

/-! ## Answers -/

/-- The networks with which the outputs complete the `Get` with number `g`. -/
def completed (g : Nat) (out : List (Output ν ℓ)) : List ν :=
  out.filterMap (fun o =>
    match o with
    | .call _ _ => none
    | .complete g' network => if g' = g then some network else none)

/-- The networks with which the steps complete it, in order. -/
def completions [DecidableEq κ] [DecidableEq ν] (sdk g : Nat)
    (h : List (NetworkActor κ ν ℓ × Received κ ν ℓ)) : List ν :=
  h.flatMap (fun p => completed g (outputs sdk p.1 p.2))

/-- The networks of the `Put`s among the steps. -/
def puts (h : List (NetworkActor κ ν ℓ × Received κ ν ℓ)) : List ν :=
  h.filterMap (fun p =>
    match p.2.message with
    | .put network => some network
    | _ => none)

section Answers

variable (g : Nat) (a : NetworkActor κ ν ℓ)

@[simp] theorem completed_append (out out' : List (Output ν ℓ)) :
    completed g (out ++ out') = completed g out ++ completed g out' :=
  List.filterMap_append

@[simp] theorem completed_callAll (network : Option ν) : completed g (a.callAll network) = [] := by
  simp [completed, NetworkActor.callAll]

theorem completed_pending (gs : List Nat) (network : ν) (h : gs.Nodup) :
    completed (ℓ := ℓ) g (gs.map (fun g => .complete g network)) =
      if g ∈ gs then [network] else [] := by
  induction gs with
  | nil => simp [completed]
  | cons g' gs ih =>
      have hnodup := List.nodup_cons.1 h
      have htail := ih hnodup.2
      simp only [completed] at htail
      by_cases hg : g' = g
      -- the numbers are distinct, so the rest of the list holds no second answer
      · subst hg
        simp [completed, htail, hnodup.1]
      · have hg' : ¬ g = g' := fun he => hg he.symm
        simp [completed, htail, hg, hg']

/-- A `Put` answers exactly the pending requests. -/
theorem completed_put {a : NetworkActor κ ν ℓ} (hnodup : a.pendingRequests.Nodup)
    {out : List (Output ν ℓ)} {n : ν}
    (hout : out = a.pendingRequests.map (fun g => .complete g n) ++ a.callAll (some n)) :
    completed g out = if g ∈ a.pendingRequests then [n] else [] := by
  calc
    completed g out = completed g (a.pendingRequests.map (fun g => .complete g n)) := by
      rw [hout, completed_append, completed_callAll, List.append_nil]
    _ = if g ∈ a.pendingRequests then [n] else [] := completed_pending g _ n hnodup

end Answers

variable [DecidableEq κ] [DecidableEq ν]

/-! ## One step -/

/-- What a step does to the requests.  A `Get` is answered or kept, a `Put` answers those that are
kept, and everything else at most forgets the network. -/
theorem process_requests {sdk : Nat} {accepted : Bool} {a b : NetworkActor κ ν ℓ}
    {m : NetworkMessage κ ν ℓ} {out : List (Output ν ℓ)}
    (h : a.process sdk accepted m = some (b, out)) :
    (m = .get ∧ a.network = none ∧ b.network = none ∧
      b.pendingRequests = a.pendingRequests ++ [a.requests] ∧ b.requests = a.requests + 1 ∧
      out = []) ∨
    (∃ n, m = .get ∧ a.network = some n ∧ b.network = some n ∧
      b.pendingRequests = a.pendingRequests ∧ b.requests = a.requests + 1 ∧
      out = [.complete a.requests n]) ∨
    (∃ n, m = .put n ∧ b.network = some n ∧ b.pendingRequests = [] ∧ b.requests = a.requests ∧
      out = a.pendingRequests.map (fun g => .complete g n) ++ a.callAll (some n)) ∨
    (m ≠ .get ∧ (∀ n, m ≠ .put n) ∧ (b.network = a.network ∨ b.network = none) ∧
      b.pendingRequests = a.pendingRequests ∧ b.requests = a.requests ∧
      ∀ g, completed g out = []) := by
  cases m with
  | get =>
      simp only [NetworkActor.process] at h
      split at h
      · cases h
      · cases hnet : a.network with
        | none =>
            rw [hnet] at h
            cases h
            exact Or.inl ⟨rfl, rfl, rfl, rfl, rfl, rfl⟩
        | some n =>
            rw [hnet] at h
            cases h
            exact Or.inr (Or.inl ⟨n, rfl, rfl, rfl, rfl, rfl, rfl⟩)
  | put n =>
      cases h
      exact Or.inr (Or.inr (Or.inl ⟨n, rfl, rfl, rfl, rfl, rfl⟩))
  -- the new listener may be called, but no request is answered
  | start key listener =>
      refine Or.inr (Or.inr (Or.inr ⟨by simp, by simp, ?_⟩))
      rcases NetworkActor.process_start h with ⟨registered, fallback, rfl, rfl⟩
      refine ⟨Or.inl rfl, rfl, rfl, ?_⟩
      intro g
      cases a.network <;> simp [completed]
  | stop key =>
      refine Or.inr (Or.inr (Or.inr ⟨by simp, by simp, ?_⟩))
      simp only [NetworkActor.process] at h
      split at h
      · unfold NetworkActor.unregister at h
        split at h <;> cases h
        exact ⟨Or.inr rfl, rfl, rfl, fun _ => rfl⟩
      · cases h
        exact ⟨Or.inl rfl, rfl, rfl, fun _ => rfl⟩
  | update n =>
      cases h
      refine Or.inr (Or.inr (Or.inr ⟨by simp, by simp, Or.inl rfl, rfl, rfl, ?_⟩))
      intro g
      split
      · exact completed_callAll g a (some n)
      · rfl
  | lost n =>
      refine Or.inr (Or.inr (Or.inr ⟨by simp, by simp, ?_⟩))
      simp only [NetworkActor.process] at h
      split at h <;> cases h
      · exact ⟨Or.inr rfl, rfl, rfl, fun g => completed_callAll g a none⟩
      · exact ⟨Or.inl rfl, rfl, rfl, fun _ => rfl⟩

/-! ## The invariant -/

structure Orderly (a : NetworkActor κ ν ℓ) : Prop where
  fresh : ∀ g ∈ a.pendingRequests, g < a.requests
  nodup : a.pendingRequests.Nodup
  waiting : a.pendingRequests ≠ [] → a.network = none

theorem orderly_process {sdk : Nat} {accepted : Bool} {a b : NetworkActor κ ν ℓ}
    {m : NetworkMessage κ ν ℓ} {out : List (Output ν ℓ)} (ha : Orderly a)
    (h : a.process sdk accepted m = some (b, out)) : Orderly b := by
  rcases process_requests h with ⟨-, -, hnet, hpend, hreq, -⟩ |
    ⟨n, -, hold, hnet, hpend, hreq, -⟩ | ⟨n, -, hnet, hpend, hreq, -⟩ |
    ⟨-, -, hnet, hpend, hreq, -⟩
  · constructor
    · intro g hg
      rw [hpend, List.mem_append, List.mem_singleton] at hg
      rw [hreq]
      rcases hg with hg | rfl
      · exact Nat.lt_succ_of_lt (ha.fresh g hg)
      · exact Nat.lt_succ_self _
    · rw [hpend]
      refine List.nodup_append.2 ⟨ha.nodup, List.nodup_singleton _, ?_⟩
      intro g hg g' hg' heq
      have hlt := ha.fresh g hg
      rw [List.mem_singleton] at hg'
      omega
    · exact fun _ => hnet
  · constructor
    · intro g hg
      rw [hpend] at hg
      rw [hreq]
      exact Nat.lt_succ_of_lt (ha.fresh g hg)
    · exact hpend ▸ ha.nodup
    · -- with a network remembered nothing is pending
      intro hne
      rw [hpend] at hne
      exact absurd (hold.symm.trans (ha.waiting hne)) (by simp)
  · constructor
    · simp [hpend]
    · simp [hpend]
    · exact fun hne => absurd hpend hne
  · constructor
    · intro g hg
      rw [hpend] at hg
      exact hreq ▸ ha.fresh g hg
    · exact hpend ▸ ha.nodup
    · intro hne
      rw [hpend] at hne
      rcases hnet with hnet | hnet
      · exact hnet.trans (ha.waiting hne)
      · exact hnet

/-- A step of the machine is a round of the loop, and its outputs are those of the round. -/
theorem process_of_step {sdk : Nat} {a b : NetworkActor κ ν ℓ} {r : Received κ ν ℓ}
    (h : (networkActor sdk).step a r = some b) :
    a.process sdk r.accepted r.message = some (b, outputs sdk a r) := by
  rcases Option.map_eq_some_iff.1 h with ⟨⟨b', out⟩, hproc, rfl⟩
  simp [outputs, hproc]

theorem orderly_step {sdk : Nat} {a b : NetworkActor κ ν ℓ} {r : Received κ ν ℓ} (ha : Orderly a)
    (h : (networkActor sdk).step a r = some b) : Orderly b :=
  orderly_process ha (process_of_step h)

theorem orderly_init (sdk : Nat) :
    Orderly (networkActor (κ := κ) (ν := ν) (ℓ := ℓ) sdk).init where
  fresh := by simp [networkActor]
  nodup := by simp [networkActor]
  waiting := fun hne => absurd rfl hne

theorem orderly_run {sdk : Nat} {h : List (NetworkActor κ ν ℓ × Received κ ν ℓ)}
    {s : NetworkActor κ ν ℓ} (hrun : Run (networkActor sdk) h s) : Orderly s := by
  have hstep : ∀ (s : NetworkActor κ ν ℓ) (e : Received κ ν ℓ) (t : NetworkActor κ ν ℓ),
      Orderly s → True → (networkActor sdk).step s e = some t → Orderly t :=
    fun _ _ _ hs _ => orderly_step hs
  exact hrun.invariant (orderly_init sdk) hstep (fun _ _ => trivial)

/-! ## Whole runs -/

section Runs

variable {sdk : Nat} {h : List (NetworkActor κ ν ℓ × Received κ ν ℓ)} {s : NetworkActor κ ν ℓ}

theorem completions_concat (g : Nat) (a : NetworkActor κ ν ℓ) (r : Received κ ν ℓ) :
    completions sdk g (h ++ [(a, r)]) = completions sdk g h ++ completed g (outputs sdk a r) := by
  simp [completions]

/-- A number that has not been given out is not answered. -/
theorem completions_fresh (hrun : Run (networkActor sdk) h s) :
    ∀ g, s.requests ≤ g → completions sdk g h = [] := by
  induction hrun with
  | nil =>
      intro g _
      rfl
  | snoc hrun hst ih =>
      rename_i h a b r
      intro g hg
      have ha := orderly_run hrun
      have hproc := process_of_step hst
      rw [completions_concat]
      rcases process_requests hproc with ⟨-, -, -, -, hreq, hout⟩ | ⟨n, -, -, -, -, hreq, hout⟩ |
        ⟨n, -, -, -, hreq, hout⟩ | ⟨-, -, -, -, hreq, hout⟩
      · rw [ih g (by omega), hout]
        rfl
      · have hne : ¬ a.requests = g := by omega
        rw [ih g (by omega), hout]
        simp [completed, hne]
      · have hnot : g ∉ a.pendingRequests := by
          intro hmem
          have := ha.fresh g hmem
          omega
        calc
          completions sdk g h ++ completed g (outputs sdk a r) =
              completed g (outputs sdk a r) := by rw [ih g (by omega), List.nil_append]
          _ = if g ∈ a.pendingRequests then [n] else [] := completed_put g ha.nodup hout
          _ = [] := if_neg hnot
      · rw [ih g (by omega), hout]
        rfl

/-- What is known, after the steps `post`, of the `Get` that was received in the state `a`. -/
structure Answered (sdk : Nat) (a : NetworkActor κ ν ℓ)
    (post : List (NetworkActor κ ν ℓ × Received κ ν ℓ)) (s : NetworkActor κ ν ℓ) : Prop where
  numbered : a.requests < s.requests
  pending : a.requests ∈ s.pendingRequests ↔ a.network = none ∧ puts post = []
  later : completions sdk a.requests post =
    if a.network = none then (puts post).head?.toList else []

theorem answered_get {a b : NetworkActor κ ν ℓ} {r : Received κ ν ℓ} (ha : Orderly a)
    (hget : r.message = .get) (hst : (networkActor sdk).step a r = some b) :
    Answered sdk a [] b ∧ completed a.requests (outputs sdk a r) = a.network.toList := by
  have hnot : a.requests ∉ a.pendingRequests := by
    intro hmem
    exact Nat.lt_irrefl _ (ha.fresh _ hmem)
  rcases process_requests (process_of_step hst) with ⟨-, hold, -, hpend, hreq, hout⟩ |
    ⟨n, -, hold, -, hpend, hreq, hout⟩ | ⟨n, hput, -⟩ | ⟨hne, -⟩
  · refine ⟨⟨by omega, ?_, by simp [completions, puts]⟩, ?_⟩
    · simp [hpend, hold, puts]
    · simp [hout, hold, completed]
  · refine ⟨⟨by omega, ?_, by simp [completions, puts]⟩, ?_⟩
    · simp [hpend, hold, hnot]
    · simp [hout, hold, completed]
  · rw [hget] at hput
    cases hput
  · exact absurd hget hne

theorem answered_step {a b c : NetworkActor κ ν ℓ} {r : Received κ ν ℓ}
    {post : List (NetworkActor κ ν ℓ × Received κ ν ℓ)} (hb : Orderly b)
    (h : Answered sdk a post b) (hst : (networkActor sdk).step b r = some c) :
    Answered sdk a (post ++ [(b, r)]) c := by
  have hlt := h.numbered
  rcases process_requests (process_of_step hst) with ⟨hm, -, -, hpend, hreq, hout⟩ |
    ⟨n, hm, -, -, hpend, hreq, hout⟩ | ⟨n, hm, -, hpend, hreq, hout⟩ | ⟨-, hm, -, hpend, hreq, hout⟩
  · -- a later `Get` has a number of its own
    have hputs : puts (post ++ [(b, r)]) = puts post := by simp [puts, hm]
    have hne : ¬ a.requests = b.requests := by omega
    refine ⟨by omega, ?_, ?_⟩
    · rw [hputs, hpend, ← h.pending]
      simp [hne]
    · rw [hputs, completions_concat, h.later, hout]
      simp [completed]
  · have hputs : puts (post ++ [(b, r)]) = puts post := by simp [puts, hm]
    have hne : ¬ b.requests = a.requests := by omega
    refine ⟨by omega, ?_, ?_⟩
    · rw [hputs, hpend, ← h.pending]
    · rw [hputs, completions_concat, h.later, hout]
      simp [completed, hne]
  · -- a `Put` answers it if it is still pending, that is, if it is the first one
    have hputs : puts (post ++ [(b, r)]) = puts post ++ [n] := by simp [puts, hm]
    refine ⟨by omega, by simp [hpend, hputs], ?_⟩
    rw [hputs, completions_concat, h.later, completed_put _ hb.nodup hout]
    by_cases hnet : a.network = none
    · cases hfirst : puts post with
      | nil =>
          have hmem : a.requests ∈ b.pendingRequests := h.pending.2 ⟨hnet, hfirst⟩
          simp [hnet, hmem]
      | cons n' ns =>
          have hnot : a.requests ∉ b.pendingRequests := by
            intro hmem
            have := (h.pending.1 hmem).2
            simp [hfirst] at this
          simp [hnet, hnot]
    · have hnot : a.requests ∉ b.pendingRequests := fun hmem => hnet (h.pending.1 hmem).1
      simp [hnet, hnot]
  · have hputs : puts (post ++ [(b, r)]) = puts post := by
      cases hmsg : r.message with
      | put n => exact absurd hmsg (hm n)
      | _ => simp [puts, hmsg]
    refine ⟨by omega, ?_, ?_⟩
    · rw [hputs, hpend, ← h.pending]
    · rw [hputs, completions_concat, h.later, hout, List.append_nil]

theorem answered_run (hrun : Run (networkActor sdk) h s) :
    ∀ {pre post : List (NetworkActor κ ν ℓ × Received κ ν ℓ)} {a : NetworkActor κ ν ℓ}
      {r : Received κ ν ℓ}, h = pre ++ (a, r) :: post → r.message = .get →
      Answered sdk a post s ∧ completed a.requests (outputs sdk a r) = a.network.toList ∧
        completions sdk a.requests pre = [] := by
  induction hrun with
  | nil =>
      intro pre post a r hsplit
      simp at hsplit
  | snoc hrun hst ih =>
      rename_i h b c r'
      intro pre post a r hsplit hget
      rcases Keyed.snoc_cases hsplit with ⟨rfl, hlast, rfl⟩ | ⟨post', rfl, hpre⟩
      · -- the step is the `Get` itself
        cases hlast
        rcases answered_get (orderly_run hrun) hget hst with ⟨hanswered, hnow⟩
        exact ⟨hanswered, hnow, completions_fresh hrun _ (Nat.le_refl _)⟩
      · rcases ih hpre hget with ⟨hanswered, hnow, hpast⟩
        refine ⟨?_, hnow, hpast⟩
        have hnext := answered_step (orderly_run hrun) hanswered hst
        simpa using hnext

/-- Over any order of messages, a `Get` is answered at once with the remembered network, or else
by the first `Put` after it, and never again; and none is kept while a network is remembered. -/
theorem answered_once (hrun : Run (networkActor sdk) h s) :
    (s.pendingRequests ≠ [] → s.network = none) ∧
    (∀ p ∈ h, p.1.pendingRequests ≠ [] → p.1.network = none) ∧
    ∀ (pre post : List (NetworkActor κ ν ℓ × Received κ ν ℓ)) (a : NetworkActor κ ν ℓ)
      (r : Received κ ν ℓ), h = pre ++ (a, r) :: post → r.message = .get →
      completions sdk a.requests pre = [] ∧
      completed a.requests (outputs sdk a r) = a.network.toList ∧
      completions sdk a.requests post =
        if a.network = none then (puts post).head?.toList else [] := by
  refine ⟨(orderly_run hrun).waiting, ?_, ?_⟩
  · intro p hp
    rcases hrun.step_of_mem hp with ⟨pre, t, -, hpre, -⟩
    exact (orderly_run hpre).waiting
  · intro pre post a r hsplit hget
    rcases answered_run hrun hsplit hget with ⟨hanswered, hnow, hpast⟩
    exact ⟨hpast, hnow, hanswered.later⟩

end Runs

/-- A request outlives its listener and the next one, until a network is there. -/
def patient : List (Received Nat String Nat) :=
  [{ message := .start 0 0 }, { message := .get }, { message := .stop 0 },
    { message := .start 1 1 }, { message := .put "wlan0" }, { message := .put "rmnet0" }]

theorem answered_once_patient :
    ∃ a post s, Run (networkActor 28)
        (({}, { message := .start 0 0 }) :: (a, { message := .get }) :: post) s ∧
      completions 28 a.requests post = ["wlan0"] := by
  refine ⟨_, _, _, run_of_play _ patient rfl, ?_⟩
  have honce := (answered_once (run_of_play (networkActor 28) patient rfl)).2.2 [_] _ _
    { message := .get } rfl rfl
  exact honce.2.2

end Net
end SpinVpn
