import Mathlib.Data.List.Basic

/-!
# Machine — runs of event-driven systems

A component that reacts to callbacks is a `Machine`: an initial state and a partial step
function.  An event that cannot occur in a state has no successor there.

A `Run` keeps the state that every event met, so that a statement about a run can speak about

* the state it ends in,
* every state on the way, and
* every single step (`Run.step_of_mem`).

`Run.invariant` is the induction rule: an invariant only has to survive the steps that meet a
given condition, and then holds along every run all of whose steps meet it.  `Run.always_iff` is
the same rule for a property that every other step breaks.
-/

namespace EventMachine

universe u v

variable {σ : Type u} {ε : Type v}

structure Machine (σ : Type u) (ε : Type v) where
  init : σ
  step : σ → ε → Option σ

/-- `Run M h s`: the events of `h`, listed with the states they met, lead from `M.init` to `s`. -/
inductive Run (M : Machine σ ε) : List (σ × ε) → σ → Prop where
  | nil : Run M [] M.init
  | snoc {h : List (σ × ε)} {s t : σ} {e : ε} :
      Run M h s → M.step s e = some t → Run M (h ++ [(s, e)]) t

/-! ## Computing a run -/

namespace Machine

/-- Continue a history from state `s` with the given events. -/
def playFrom (M : Machine σ ε) : List (σ × ε) → σ → List ε → Option (List (σ × ε) × σ)
  | h, s, [] => some (h, s)
  | h, s, e :: es =>
      match M.step s e with
      | none => none
      | some t => playFrom M (h ++ [(s, e)]) t es

/-- Play the events from the initial state. -/
def play (M : Machine σ ε) (es : List ε) : Option (List (σ × ε) × σ) :=
  M.playFrom [] M.init es

end Machine

theorem run_of_playFrom {M : Machine σ ε} (es : List ε) :
    ∀ {h h' : List (σ × ε)} {s s' : σ},
      Run M h s → M.playFrom h s es = some (h', s') → Run M h' s' := by
  induction es with
  | nil =>
      intro h h' s s' hrun hplay
      simp only [Machine.playFrom, Option.some.injEq, Prod.mk.injEq] at hplay
      rcases hplay with ⟨rfl, rfl⟩
      exact hrun
  | cons e es ih =>
      intro h h' s s' hrun hplay
      cases hstep : M.step s e with
      | none =>
          simp [Machine.playFrom, hstep] at hplay
      | some t =>
          simp only [Machine.playFrom, hstep] at hplay
          exact ih (Run.snoc hrun hstep) hplay

theorem run_of_play (M : Machine σ ε) (es : List ε) {h : List (σ × ε)} {s : σ}
    (hplay : M.play es = some (h, s)) : Run M h s :=
  run_of_playFrom es Run.nil hplay

theorem playFrom_events {M : Machine σ ε} (es : List ε) :
    ∀ {h h' : List (σ × ε)} {s s' : σ}, M.playFrom h s es = some (h', s') →
      h'.map Prod.snd = h.map Prod.snd ++ es := by
  induction es with
  | nil =>
      intro h h' s s' hplay
      simp only [Machine.playFrom, Option.some.injEq, Prod.mk.injEq] at hplay
      rw [hplay.1, List.append_nil]
  | cons e es ih =>
      intro h h' s s' hplay
      cases hstep : M.step s e with
      | none =>
          simp [Machine.playFrom, hstep] at hplay
      | some t =>
          simp only [Machine.playFrom, hstep] at hplay
          rw [ih hplay, List.map_append, List.map_singleton, List.append_assoc, List.singleton_append]

/-- What holds of the events holds of the steps of their run. -/
theorem forall_of_play (M : Machine σ ε) (es : List ε) {h : List (σ × ε)} {s : σ}
    (hplay : M.play es = some (h, s)) {Q : ε → Prop} (hes : ∀ e ∈ es, Q e) : ∀ p ∈ h, Q p.2 := by
  intro p hp
  have hevents : h.map Prod.snd = es := playFrom_events es hplay
  refine hes p.2 ?_
  rw [← hevents]
  exact List.mem_map_of_mem hp

/-! ## Reasoning about all runs -/

namespace Run

variable {M : Machine σ ε} {h : List (σ × ε)} {s : σ}

/-- An invariant that every step meeting `ok` keeps holds along every run of such steps. -/
theorem invariant {I : σ → Prop} {ok : σ → ε → Prop}
    (hinit : I M.init)
    (hstep : ∀ s e t, I s → ok s e → M.step s e = some t → I t)
    (hrun : Run M h s) (hok : ∀ p ∈ h, ok p.1 p.2) : I s := by
  induction hrun with
  | nil => exact hinit
  | snoc hrun hst ih =>
      have hpre := ih (fun p hp => hok p (List.mem_append_left _ hp))
      have hlast := hok _ (List.mem_append_right _ (List.mem_singleton_self _))
      exact hstep _ _ _ hpre hlast hst

/-- Every step of a run starts in a state that a prefix of the run reaches. -/
theorem step_of_mem (hrun : Run M h s) {p : σ × ε} (hp : p ∈ h) :
    ∃ pre t, pre <+: h ∧ Run M pre p.1 ∧ M.step p.1 p.2 = some t := by
  induction hrun with
  | nil => simp at hp
  | snoc hrun hst ih =>
      rename_i pre s t e
      rcases List.mem_append.1 hp with hold | hnew
      · rcases ih hold with ⟨pre', t', hpre, hrun', hst'⟩
        exact ⟨pre', t', hpre.trans (List.prefix_append _ _), hrun', hst'⟩
      · rw [List.mem_singleton] at hnew
        subst hnew
        exact ⟨pre, t, List.prefix_append _ _, hrun, hst⟩

/-- The state after a step is the last one, or the one the next step starts in. -/
theorem succ_of_mem (hrun : Run M h s) {p : σ × ε} (hp : p ∈ h) :
    ∃ t, M.step p.1 p.2 = some t ∧ (t = s ∨ ∃ q ∈ h, q.1 = t) := by
  induction hrun with
  | nil => simp at hp
  | snoc hrun hst ih =>
      rename_i pre s t e
      rcases List.mem_append.1 hp with hold | hnew
      · rcases ih hold with ⟨t', hst', hlast | ⟨q, hq, heq⟩⟩
        · exact ⟨t', hst', Or.inr ⟨(s, e), by simp, hlast.symm⟩⟩
        · exact ⟨t', hst', Or.inr ⟨q, List.mem_append_left _ hq, heq⟩⟩
      · rw [List.mem_singleton] at hnew
        subst hnew
        exact ⟨t, hst, Or.inl rfl⟩

/-- The invariant also holds in every state met on the way. -/
theorem invariant_of_mem {I : σ → Prop} {ok : σ → ε → Prop}
    (hinit : I M.init)
    (hstep : ∀ s e t, I s → ok s e → M.step s e = some t → I t)
    (hrun : Run M h s) (hok : ∀ p ∈ h, ok p.1 p.2) {p : σ × ε} (hp : p ∈ h) : I p.1 := by
  rcases hrun.step_of_mem hp with ⟨pre, t, hpre, hrun', _⟩
  exact invariant hinit hstep hrun' (fun q hq => hok q (hpre.subset hq))

/-- A property `P` of the states and `Q` of the steps hold along a run exactly if all its steps meet
`ok`.  `I` is the invariant that such steps keep up, and `J` is what holds in any case. -/
theorem holds_iff {J I P : σ → Prop} {Q ok : σ → ε → Prop}
    (hJinit : J M.init) (hJ : ∀ s e t, J s → M.step s e = some t → J t)
    (hinit : I M.init) (hI : ∀ s e t, J s → I s → ok s e → M.step s e = some t → I t)
    (hP : ∀ s, J s → I s → P s)
    (hQ : ∀ s e t, J s → I s → ok s e → M.step s e = some t → Q s e)
    (hok : ∀ s e t, J s → P s → P t → Q s e → M.step s e = some t → ok s e)
    (hrun : Run M h s) :
    (P s ∧ ∀ p ∈ h, P p.1 ∧ Q p.1 p.2) ↔ ∀ p ∈ h, ok p.1 p.2 := by
  constructor
  · rintro ⟨hlast, hall⟩ p hp
    have hkeep : ∀ s e t, J s → True → M.step s e = some t → J t :=
      fun s e t hs _ => hJ s e t hs
    have hp₁ : J p.1 := hrun.invariant_of_mem hJinit hkeep (fun _ _ => trivial) hp
    rcases hrun.succ_of_mem hp with ⟨t, hst, hnext⟩
    have ht : P t := by
      rcases hnext with rfl | ⟨q, hq, rfl⟩
      · exact hlast
      · exact (hall q hq).1
    exact hok p.1 p.2 t hp₁ (hall p hp).1 ht (hall p hp).2 hst
  · intro hmeets
    have hboth : ∀ s e t, J s ∧ I s → ok s e → M.step s e = some t → J t ∧ I t := by
      intro s e t hs he hst
      exact ⟨hJ s e t hs.1 hst, hI s e t hs.1 hs.2 he hst⟩
    have hend := hrun.invariant (I := fun s => J s ∧ I s) ⟨hJinit, hinit⟩ hboth hmeets
    refine ⟨hP s hend.1 hend.2, ?_⟩
    intro p hp
    have hmid := hrun.invariant_of_mem (I := fun s => J s ∧ I s) ⟨hJinit, hinit⟩ hboth hmeets hp
    rcases hrun.succ_of_mem hp with ⟨t, hst, -⟩
    exact ⟨hP p.1 hmid.1 hmid.2, hQ p.1 p.2 t hmid.1 hmid.2 (hmeets p hp) hst⟩

/-- Where a step from a good state leads to a good state exactly if it meets `ok`, a run stays
among the good states exactly if all its steps meet `ok`. -/
theorem always_iff {J P : σ → Prop} {ok : σ → ε → Prop}
    (hJinit : J M.init) (hJ : ∀ s e t, J s → M.step s e = some t → J t)
    (hinit : P M.init)
    (hstep : ∀ s e t, J s → P s → M.step s e = some t → (P t ↔ ok s e))
    (hrun : Run M h s) :
    (P s ∧ ∀ p ∈ h, P p.1) ↔ ∀ p ∈ h, ok p.1 p.2 := by
  have hiff := hrun.holds_iff (Q := fun _ _ => True) hJinit hJ hinit
    (fun s e t hs hgood he hst => (hstep s e t hs hgood hst).2 he) (fun _ _ hgood => hgood)
    (fun _ _ _ _ _ _ _ => trivial)
    (fun s e t hs hgood ht _ hst => (hstep s e t hs hgood hst).1 ht)
  simpa using hiff

end Run

end EventMachine
