import SpinVpn.Lib.Machine

/-!
# Simulation — one machine carried out by another

A concrete machine simulates an abstract one if every step of it is a sequence of steps of the
abstract machine, its `image`, between related states.  Every run of the concrete machine then has a
run of the abstract machine beside it, with the images of its steps for events and with a related
state at its end (`Run.simulates`).  What holds along all runs of the abstract machine holds, through
the relation, along those of the concrete one.

The queue is the abstract machine of the components that hand things on: `Queue.Run.taken_append`
says that what was taken out, followed by what is still inside, is what was put in.
-/

namespace EventMachine

universe u v w x

variable {σ : Type u} {ε : Type v} {τ : Type w} {δ : Type x}

/-- `Steps N t es t'`: the events `es` lead from `t` to `t'`. -/
inductive Steps (N : Machine τ δ) : τ → List δ → τ → Prop where
  | nil {t : τ} : Steps N t [] t
  | cons {t t' t'' : τ} {e : δ} {es : List δ} :
      N.step t e = some t' → Steps N t' es t'' → Steps N t (e :: es) t''

theorem Steps.single {N : Machine τ δ} {t t' : τ} {e : δ} (h : N.step t e = some t') :
    Steps N t [e] t' :=
  Steps.cons h Steps.nil

theorem Steps.append {N : Machine τ δ} {t t' t'' : τ} {es es' : List δ} (h : Steps N t es t')
    (h' : Steps N t' es' t'') : Steps N t (es ++ es') t'' := by
  induction h with
  | nil => exact h'
  | cons hstep _ ih => exact Steps.cons hstep (ih h')

/-- A run goes on with further steps. -/
theorem Run.append_steps {N : Machine τ δ} {t t' : τ} {es : List δ} (hsteps : Steps N t es t') :
    ∀ {h : List (τ × δ)}, Run N h t →
      ∃ h', Run N h' t' ∧ h'.map Prod.snd = h.map Prod.snd ++ es := by
  induction hsteps with
  | nil =>
      intro h hrun
      exact ⟨h, hrun, (List.append_nil _).symm⟩
  | cons hstep _ ih =>
      intro h hrun
      rcases ih (Run.snoc hrun hstep) with ⟨h', hrun', hevents⟩
      refine ⟨h', hrun', ?_⟩
      rw [hevents, List.map_append, List.map_singleton, List.append_assoc, List.singleton_append]

/-- The steps of `M` that meet `ok` are steps of `N` between states related by `R`. -/
structure Simulation (M : Machine σ ε) (N : Machine τ δ) (ok : σ → ε → Prop)
    (image : σ → ε → List δ) (R : σ → τ → Prop) : Prop where
  init : R M.init N.init
  step : ∀ s e s' t, R s t → ok s e → M.step s e = some s' → ∃ t', Steps N t (image s e) t' ∧ R s' t'

namespace Run

variable {M : Machine σ ε} {N : Machine τ δ} {ok : σ → ε → Prop} {image : σ → ε → List δ}
  {R : σ → τ → Prop} {h : List (σ × ε)} {s : σ}

theorem simulates (S : Simulation M N ok image R) (hrun : Run M h s) (hok : ∀ p ∈ h, ok p.1 p.2) :
    ∃ h' t, Run N h' t ∧ h'.map Prod.snd = h.flatMap (fun p => image p.1 p.2) ∧ R s t := by
  induction hrun with
  | nil => exact ⟨[], N.init, Run.nil, rfl, S.init⟩
  | snoc hrun hst ih =>
      rename_i h s s' e
      rcases ih (fun p hp => hok p (List.mem_append_left _ hp)) with ⟨h', t, hrun', hevents, hR⟩
      have hlast := hok (s, e) (List.mem_append_right _ (List.mem_singleton_self _))
      rcases S.step _ _ _ t hR hlast hst with ⟨t', hsteps, hR'⟩
      rcases Run.append_steps hsteps hrun' with ⟨h'', hrun'', hevents'⟩
      refine ⟨h'', t', hrun'', ?_, hR'⟩
      rw [hevents', hevents, List.flatMap_append, List.flatMap_singleton]

end Run

/-! ## Queues -/

namespace Queue

variable {α : Type u}

inductive Op (α : Type u) where
  | put (x : α)
  | take (x : α)
  deriving DecidableEq

def put? : Op α → Option α
  | .put x => some x
  | .take _ => none

def taken? : Op α → Option α
  | .put _ => none
  | .take x => some x

/-- First in, first out. -/
def machine [DecidableEq α] : Machine (List α) (Op α) where
  init := []
  step q
    | .put x => some (q ++ [x])
    | .take x => if q.head? = some x then some q.tail else none

/-- A step of a component that puts and takes at most one each. -/
def ops (x y : Option α) : List (Op α) :=
  (x.map Op.put).toList ++ (y.map Op.take).toList

theorem filterMap_ops {ι : Type v} (f g : ι → Option α) (l : List ι) :
    (l.flatMap (fun i => ops (f i) (g i))).filterMap put? = l.filterMap f ∧
      (l.flatMap (fun i => ops (f i) (g i))).filterMap taken? = l.filterMap g := by
  induction l with
  | nil => exact ⟨rfl, rfl⟩
  | cons i l ih =>
      rw [List.flatMap_cons, List.filterMap_append, List.filterMap_append, ih.1, ih.2,
        List.filterMap_cons, List.filterMap_cons, ops]
      cases f i <;> cases g i <;> exact ⟨rfl, rfl⟩

variable [DecidableEq α]

theorem step_take {x : α} {q : List α} : (machine (α := α)).step (x :: q) (.take x) = some q := by
  simp [machine]

theorem taken_append {h : List (List α × Op α)} {q : List α} (hrun : Run machine h q) :
    (h.map Prod.snd).filterMap taken? ++ q = (h.map Prod.snd).filterMap put? := by
  induction hrun with
  | nil => rfl
  | snoc hrun hst ih =>
      rename_i h q q' op
      rw [List.map_append, List.map_singleton, List.filterMap_append, List.filterMap_append]
      cases op with
      | put x =>
          have hq : q ++ [x] = q' := by simpa [machine] using hst
          change (h.map Prod.snd).filterMap taken? ++ [] ++ q' = (h.map Prod.snd).filterMap put? ++ [x]
          rw [List.append_nil, ← hq, ← List.append_assoc, ih]
      | take x =>
          cases q with
          | nil => simp [machine] at hst
          | cons y q =>
              have hq : y = x ∧ q = q' := by simpa [machine] using hst
              rcases hq with ⟨rfl, rfl⟩
              change (h.map Prod.snd).filterMap taken? ++ [y] ++ q =
                (h.map Prod.snd).filterMap put? ++ []
              rw [List.append_nil, List.append_assoc, List.singleton_append, ih]

/-- A component that simulates the queue: what it has taken out, and what is still inside. -/
theorem Run.fifo {σ : Type v} {ε : Type w} {M : Machine σ ε} {ok : σ → ε → Prop}
    {f g : σ × ε → Option α} {R : σ → List α → Prop} {h : List (σ × ε)} {s : σ}
    (S : Simulation M machine ok (fun s e => ops (f (s, e)) (g (s, e))) R) (hrun : Run M h s)
    (hok : ∀ p ∈ h, ok p.1 p.2) : ∃ q, h.filterMap f = h.filterMap g ++ q ∧ R s q := by
  rcases hrun.simulates S hok with ⟨h', q, hqueue, hevents, hq⟩
  have hfifo := taken_append hqueue
  rw [hevents, (filterMap_ops f g h).1, (filterMap_ops f g h).2] at hfifo
  exact ⟨q, hfifo.symm, hq⟩

end Queue

end EventMachine
