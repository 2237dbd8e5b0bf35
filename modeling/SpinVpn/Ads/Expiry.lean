import SpinVpn.Ads.Load

/-!
# Expiry — how old the ad is that a position hands out

An ad in the cache is good for one hour: `Load.load` clears an older one and asks for another.
`AdLoadUtils.resultOf` hands out what is in the cache without this test, so it gives an ad of more
than one hour exactly where the test would have failed (`resultOf_fresh_iff`).
-/

namespace SpinVpn
namespace Ads

open EventMachine

variable {α : Type}

/-- `AdLoadUtils.resultOf` -/
def Load.resultOf (s : Load α) : Option α :=
  s.res

/-- The clock counts from 1970. -/
def LoadEvent.Dated : LoadEvent α → Prop
  | .loadOf _ _ now now' => 0 < now ∧ 0 < now'
  | .answered _ _ _ now => 0 < now
  | .clearCache => True
  | .resultOf now => 0 < now

/-- An ad that was loaded at `time` is younger than an hour. -/
def Fresh (now time : Int) : Prop :=
  now - time ≤ 3600000

instance (now time : Int) : Decidable (Fresh now time) :=
  inferInstanceAs (Decidable (_ ≤ _))

namespace Load

/-- Every ad was put into the cache at a positive time. -/
def Dated (s : Load α) : Prop :=
  ∀ ad time, .completed (some (ad, time)) ∈ s.log → 0 < time

theorem Dated.grows {s t : Load α} (h : s.Dated) {now : Int} (hnow : 0 < now) (hgrows : Grows now s t) :
    t.Dated := by
  obtain ⟨new, hnew, htime⟩ := hgrows
  intro ad time hmem
  rw [hnew] at hmem
  rcases List.mem_append.1 hmem with hmem | hmem
  · exact h ad time hmem
  · rw [htime ad time hmem]
    exact hnow

theorem dated_step {pos : Position} {s t : Load α} {e : LoadEvent α} (h : s.Dated) (he : e.Dated)
    (hstep : (loadMachine α pos).step s e = some t) : t.Dated := by
  cases e with
  | loadOf inst sync now now' =>
      cases hstep
      exact h.grows he.2 (grows_load pos now now' inst sync s)
  | answered index result sync now =>
      obtain ⟨r, -, rfl⟩ := Option.map_eq_some_iff.1 hstep
      have hgrows := grows_answer pos now r result sync { s with pending := s.pending.eraseIdx index }
      exact Dated.grows (s := { s with pending := s.pending.eraseIdx index }) h he hgrows
  | clearCache =>
      cases hstep
      exact h.grows Int.zero_lt_one (grows_note (n := .cleared) rfl nofun)
  | resultOf now =>
      cases hstep
      exact h

/-- What is in the cache has completed. -/
theorem mem_log_of_cached (log : List (Note α)) :
    ∀ {cache entry}, log.foldl Note.cached cache = some entry →
      cache = some entry ∨ .completed (some entry) ∈ log := by
  induction log with
  | nil =>
      intro cache entry h
      exact Or.inl h
  | cons n log ih =>
      intro cache entry h
      rcases ih h with hcache | hmem
      · cases n with
        | completed result =>
            cases result with
            | none => exact Or.inl hcache
            | some e =>
                cases hcache
                exact Or.inr List.mem_cons_self
        | cleared => cases hcache
        | started requestCount inst => exact Or.inl hcache
        | requested unit => exact Or.inl hcache
        | answered result => exact Or.inl hcache
      · exact Or.inr (List.mem_cons_of_mem _ hmem)

/-- The test of `load` says how old the ad in the cache is. -/
theorem isExpired_iff {s : Load α} (hkept : s.Kept) (hdated : s.Dated) {ad : α} {time : Int}
    (hcached : s.cached = some (ad, time)) (now : Int) : s.isExpired now = false ↔ Fresh now time := by
  have htime : s.createdTime = time := hkept.createdTime _ hcached
  have hpos : 0 < time := by
    rcases mem_log_of_cached s.log hcached with hnone | hmem
    · cases hnone
    · exact hdated ad time hmem
  rw [isExpired, htime, Fresh]
  simp only [hpos, decide_true, Bool.true_and, decide_eq_false_iff_not]
  omega

end Load

/-- In every run, each ad that is handed out was loaded at most one hour before exactly if the test
of `load` does not find an expired ad in the cache when `resultOf` is called. -/
theorem resultOf_fresh_iff (pos : Position) {h : List (Load α × LoadEvent α)} {s : Load α}
    (hrun : Run (loadMachine α pos) h s) (hdated : ∀ p ∈ h, p.2.Dated) :
    (∀ p ∈ h, ∀ now, p.2 = .resultOf now → ∀ ad, p.1.resultOf = some ad →
        ∃ time, p.1.cached = some (ad, time) ∧ Fresh now time) ↔
      ∀ p ∈ h, ∀ now, p.2 = .resultOf now → p.1.res.isSome → p.1.isExpired now = false := by
  apply forall₂_congr
  intro p hp
  apply forall₂_congr
  intro now _
  obtain ⟨pre, t, hpre, hrun', -⟩ := hrun.step_of_mem hp
  have hkept : p.1.Kept := by
    cases Load.orderly_run hrun' with
    | idle trail => exact trail.kept
    | busy _ _ trail => exact trail.kept
  have hinit : (loadMachine α pos).init.Dated := by
    intro ad time hmem
    cases hmem
  have hdated' : p.1.Dated :=
    hrun'.invariant hinit (fun s e t hs he hst => Load.dated_step hs he hst)
      (fun q hq => hdated q (hpre.subset hq))
  cases hcached : p.1.cached with
  | none =>
      have hres : p.1.res = none := hkept.res.trans (congrArg (Option.map Prod.fst) hcached)
      simp [Load.resultOf, hres]
  | some entry =>
      rcases entry with ⟨ad, time⟩
      have hres : p.1.res = some ad := hkept.res.trans (congrArg (Option.map Prod.fst) hcached)
      have hiff := Load.isExpired_iff hkept hdated' hcached now
      rw [Load.resultOf, hres, hiff]
      constructor
      · intro hfresh _
        obtain ⟨time', heq, hle⟩ := hfresh ad rfl
        cases heq
        exact hle
      · intro hfresh ad' had
        cases had
        exact ⟨time, rfl, hfresh rfl⟩

/-! ## An old ad -/

def oneUnit : MAds where
  back := [{ way := "i" }]

/-- An ad is loaded and asked for after `elapsed` milliseconds. -/
def askedAfter (elapsed : Int) : List (LoadEvent Nat) :=
  [.loadOf oneUnit [] 1000 1000, .answered 0 (some 7) [] 2000, .resultOf (2000 + elapsed)]

theorem dated_askedAfter {elapsed : Int} (h : 0 ≤ elapsed) : ∀ e ∈ askedAfter elapsed, e.Dated := by
  simp only [askedAfter, List.forall_mem_cons, LoadEvent.Dated]
  refine ⟨⟨by decide, by decide⟩, by decide, by omega, List.forall_mem_nil _⟩

theorem resultOf_fresh_iff_inTime :
    ∃ h s, (loadMachine Nat .back).play (askedAfter 1000) = some (h, s) ∧
      (∀ p ∈ h, ∀ now, p.2 = .resultOf now → ∀ ad, p.1.resultOf = some ad →
        ∃ time, p.1.cached = some (ad, time) ∧ Fresh now time) := by
  refine ⟨_, _, rfl, ?_⟩
  have hrun := run_of_play (loadMachine Nat .back) (askedAfter 1000) rfl
  have hdated := forall_of_play (loadMachine Nat .back) (askedAfter 1000) rfl
    (dated_askedAfter (by decide))
  refine (resultOf_fresh_iff .back hrun hdated).2 ?_
  intro p hp now hnow _
  simp only [List.nil_append, List.cons_append, List.mem_cons, List.not_mem_nil, or_false] at hp
  rcases hp with rfl | rfl | rfl
  · cases hnow
  · cases hnow
  · cases hnow
    decide

/-- The ad is handed out one hour and a millisecond after it was loaded. -/
theorem resultOf_not_fresh :
    ∃ h s, Run (loadMachine Nat .back) h s ∧ (∀ p ∈ h, p.2.Dated) ∧
      ¬ ∀ p ∈ h, ∀ now, p.2 = .resultOf now → ∀ ad, p.1.resultOf = some ad →
        ∃ time, p.1.cached = some (ad, time) ∧ Fresh now time := by
  refine ⟨_, _, run_of_play (loadMachine Nat .back) (askedAfter 3600001) rfl,
    forall_of_play (loadMachine Nat .back) (askedAfter 3600001) rfl (dated_askedAfter (by decide)), ?_⟩
  intro hfresh
  obtain ⟨time, hcached, hle⟩ :=
    hfresh _ (List.mem_append_right _ (List.mem_singleton_self _)) _ rfl 7 rfl
  cases hcached
  exact absurd hle (by decide)

end Ads
end SpinVpn
