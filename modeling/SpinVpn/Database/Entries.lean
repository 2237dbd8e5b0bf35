import Mathlib.Data.List.Basic
import SpinVpn.Database.Json

/-!
# Entries — which entry takes which fallback

The loop of `parseJson` takes the fallback of an entry out of `fallbackMap` by the value of its
profile.  `assigned` is the list of the fallbacks it takes, one place for each entry.  They are the
fallbacks that the entries were read with exactly if no entry with a fallback comes after an equal
profile (`assigned_eq`, `unique_of_assigned`).
-/

namespace SpinVpn
namespace Database

/-! ## The map -/

/-- No fallback is left waiting for an entry that has had its turn. -/
theorem mem_foldl_remove (entries : List Entry) :
    ∀ {pending : List (Profile × Profile)} {e : Profile × Profile},
      e ∈ entries.foldl (fun m e => Keyed.remove e.1 m) pending →
        e ∈ pending ∧ e.1 ∉ entries.map Prod.fst := by
  induction entries with
  | nil =>
      intro pending e he
      exact ⟨he, by simp⟩
  | cons d entries ih =>
      intro pending e he
      rcases ih he with ⟨hmem, hnot⟩
      rcases List.mem_filter.1 hmem with ⟨hpend, hne⟩
      refine ⟨hpend, ?_⟩
      rw [List.map_cons, List.mem_cons, not_or]
      exact ⟨by simpa using hne, hnot⟩

theorem mem_fallbackMap_foldl (entries : List Entry) :
    ∀ {map : List (Profile × Profile)} {e : Profile × Profile},
      e ∈ entries.foldl (fun map entry =>
          match entry.2 with
          | none => map
          | some fallback => Keyed.put entry.1 fallback map) map →
        e ∈ map ∨ (e.1, some e.2) ∈ entries := by
  induction entries with
  | nil =>
      intro map e he
      exact Or.inl he
  | cons d entries ih =>
      intro map e he
      rcases ih he with hmap | hmem
      · rcases d with ⟨profile, _ | fallback⟩
        · exact Or.inl hmap
        · rcases Keyed.mem_put hmap with rfl | hold
          · exact Or.inr List.mem_cons_self
          · exact Or.inl hold
      · exact Or.inr (List.mem_cons_of_mem _ hmem)

theorem mem_fallbackMap {entries : List Entry} {e : Profile × Profile}
    (he : e ∈ fallbackMap entries) : (e.1, some e.2) ∈ entries := by
  rcases mem_fallbackMap_foldl entries he with hnil | hmem
  · cases hnil
  · exact hmem

theorem pending_eq_nil (entries : List Entry) :
    entries.foldl (fun m e => Keyed.remove e.1 m) (fallbackMap entries) = [] := by
  refine List.eq_nil_iff_forall_not_mem.2 (fun e he => ?_)
  rcases mem_foldl_remove entries he with ⟨hmem, hnot⟩
  exact hnot (List.mem_map.2 ⟨_, mem_fallbackMap hmem, rfl⟩)

/-- The last fallback that was read with the profile. -/
def lastFallback (profile : Profile) : List Entry → Option Profile
  | [] => none
  | e :: entries =>
      (lastFallback profile entries).or (if e.1 = profile then e.2 else none)

theorem get_fallbackMap_foldl (profile : Profile) (entries : List Entry) :
    ∀ map : List (Profile × Profile),
      Keyed.get profile (entries.foldl (fun map entry =>
          match entry.2 with
          | none => map
          | some fallback => Keyed.put entry.1 fallback map) map) =
        (lastFallback profile entries).or (Keyed.get profile map) := by
  induction entries with
  | nil =>
      intro map
      rfl
  | cons e entries ih =>
      intro map
      rw [List.foldl_cons, ih, lastFallback, Option.or_assoc]
      rcases e with ⟨key, _ | fallback⟩
      · by_cases hkey : key = profile <;> simp [hkey]
      · by_cases hkey : key = profile <;> simp [Keyed.get_put, hkey]

theorem get_fallbackMap (profile : Profile) (entries : List Entry) :
    Keyed.get profile (fallbackMap entries) = lastFallback profile entries := by
  have hget := get_fallbackMap_foldl profile entries []
  rwa [show Keyed.get profile ([] : List (Profile × Profile)) = none from rfl, Option.or_none]
    at hget

theorem lastFallback_eq_none {profile : Profile} {entries : List Entry}
    (h : ∀ e ∈ entries, e.1 = profile → e.2 = none) : lastFallback profile entries = none := by
  induction entries with
  | nil => rfl
  | cons e entries ih =>
      rw [lastFallback, ih (fun d hd => h d (List.mem_cons_of_mem _ hd)), Option.none_or]
      by_cases he : e.1 = profile
      · rw [if_pos he, h e List.mem_cons_self he]
      · rw [if_neg he]

/-! ## The loop -/

/-- The fallbacks that the loop takes out of the map, in the order of the entries. -/
def assigned : List (Profile × Profile) → List Entry → List (Option Profile)
  | _, [] => []
  | pending, e :: entries =>
      Keyed.get e.1 pending :: assigned (Keyed.remove e.1 pending) entries

/-- No entry with a fallback comes after an equal profile. -/
def UniqueMains (entries : List Entry) : Prop :=
  entries.Pairwise (fun e e' => e'.2 ≠ none → e.1 ≠ e'.1)

/-- The map holds what the entries still to come were read with. -/
theorem assigned_of_unique (entries : List Entry) :
    ∀ pending : List (Profile × Profile), UniqueMains entries →
      (∀ profile, Keyed.get profile pending = lastFallback profile entries) →
        assigned pending entries = entries.map Prod.snd := by
  induction entries with
  | nil =>
      intro pending _ _
      rfl
  | cons e entries ih =>
      intro pending hunique hget
      rcases List.pairwise_cons.1 hunique with ⟨hhead, htail⟩
      -- a later entry with the profile of this one has no fallback
      have hlater : lastFallback e.1 entries = none := by
        refine lastFallback_eq_none (fun d hd hkey => ?_)
        by_contra hsome
        exact hhead d hd hsome hkey.symm
      have hfirst : Keyed.get e.1 pending = e.2 := by
        rw [hget, lastFallback, hlater, Option.none_or, if_pos rfl]
      have hrest : ∀ profile, Keyed.get profile (Keyed.remove e.1 pending) =
          lastFallback profile entries := by
        intro profile
        rw [Keyed.get_remove]
        by_cases hkey : e.1 = profile
        · rw [if_pos hkey, ← hkey, hlater]
        · rw [if_neg hkey, hget, lastFallback, if_neg hkey, Option.or_none]
      rw [assigned, hfirst, ih _ htail hrest, List.map_cons]

theorem assigned_eq {entries : List Entry} (h : UniqueMains entries) :
    assigned (fallbackMap entries) entries = entries.map Prod.snd :=
  assigned_of_unique entries _ h (fun profile => get_fallbackMap profile entries)

/-- Nothing is taken under a key that the map has not. -/
theorem assigned_of_get_none {profile : Profile} (entries : List Entry) :
    ∀ pending : List (Profile × Profile), Keyed.get profile pending = none →
      List.Forall₂ (fun e fallback => e.1 = profile → fallback = none) entries
        (assigned pending entries) := by
  induction entries with
  | nil =>
      intro pending _
      exact List.Forall₂.nil
  | cons e entries ih =>
      intro pending hnone
      refine List.Forall₂.cons ?_ (ih _ ?_)
      · rintro rfl
        exact hnone
      · rw [Keyed.get_remove, hnone, ite_self]

theorem unique_of_assigned (entries : List Entry) :
    ∀ pending : List (Profile × Profile),
      List.Forall₂ (fun e fallback => e.2 ≠ none → fallback ≠ none) entries
        (assigned pending entries) → UniqueMains entries := by
  induction entries with
  | nil =>
      intro pending _
      exact List.Pairwise.nil
  | cons e entries ih =>
      intro pending hall
      rcases List.forall₂_cons.1 hall with ⟨_, htail⟩
      refine List.pairwise_cons.2 ⟨?_, ih _ htail⟩
      -- once this entry has had its turn, an equal one finds nothing
      have hgone : Keyed.get e.1 (Keyed.remove e.1 pending) = none := by
        rw [Keyed.get_remove, if_pos rfl]
      have hnone := assigned_of_get_none entries _ hgone
      intro d hd hsome hkey
      rcases List.mem_iff_getElem.1 hd with ⟨i, hi, rfl⟩
      have hi' := hi
      rw [htail.length_eq] at hi'
      exact htail.get hi hi' hsome (hnone.get hi hi' hkey.symm)

end Database
end SpinVpn
