import Mathlib.Data.List.Induction
import Mathlib.Data.List.Nodup

/-!
# Keyed — lists whose elements have distinct keys

A list of records with pairwise distinct keys is a finite map.  Looking a key up is then
membership (`find?_key_iff`), whichever end the search starts from.  Where keys repeat, the end
decides which of the matches is found (`find?_pairwise`).

`put` is the update of an insertion-ordered map: the entry of a known key keeps its place, a new
key goes to the end.  A map of places that is put at for every new element has the `Latest` place of
each key.
-/

namespace Keyed

universe u v w

section Records

variable {α : Type u} {κ : Type v} {key : α → κ} {l : List α} {k : κ} {a b : α}

theorem ext_of_key (h : (l.map key).Nodup) (ha : a ∈ l) (hb : b ∈ l) (hk : key a = key b) :
    a = b :=
  List.inj_on_of_nodup_map h ha hb hk

theorem find?_key_iff [BEq κ] [LawfulBEq κ] (h : (l.map key).Nodup) :
    l.find? (fun x => key x == k) = some a ↔ a ∈ l ∧ key a = k := by
  constructor
  · intro hfind
    exact ⟨List.mem_of_find?_eq_some hfind, by simpa using List.find?_some hfind⟩
  · rintro ⟨ha, hk⟩
    cases hfind : l.find? (fun x => key x == k) with
    | none => simpa [hk] using List.find?_eq_none.1 hfind a ha
    | some b =>
        have hb : key b = k := by simpa using List.find?_some hfind
        have hba := ext_of_key h (List.mem_of_find?_eq_some hfind) ha (hb.trans hk.symm)
        exact congrArg some hba

/-- In a list that is ordered by `R`, what a search finds stands before every other match. -/
theorem find?_pairwise {R : α → α → Prop} {P : α → Bool} (h : l.Pairwise R)
    (hfind : l.find? P = some a) (hb : b ∈ l) (hP : P b = true) : b = a ∨ R a b := by
  rcases List.find?_eq_some_iff_append.1 hfind with ⟨-, before, after, rfl, hbefore⟩
  rcases List.mem_append.1 hb with hb | hb
  · have hmiss := hbefore b hb
    simp [hP] at hmiss
  · rcases List.mem_cons.1 hb with rfl | hb
    · exact Or.inl rfl
    · have hafter := (List.pairwise_append.1 h).2.1
      exact Or.inr ((List.pairwise_cons.1 hafter).1 b hb)

/-- Of the elements that meet `p` only the last one of the list is left exactly if no other one
meets `p`. -/
theorem map_filter_eq_last_iff {β : Type w} {f : α → β} {p : α → Bool} (l : List α) :
    (l.filter p).map f = (l.getLast?.toList.filter p).map f ↔ ∀ a ∈ l.dropLast, p a = false := by
  induction l using List.reverseRecOn with
  | nil => simp
  | append_singleton l a _ =>
      have hsplit : ((l ++ [a]).filter p).map f = ((l ++ [a]).getLast?.toList.filter p).map f ↔
          (l.filter p).map f = [] := by
        rw [List.filter_append, List.map_append, List.getLast?_concat, Option.toList_some]
        exact List.append_left_eq_self
      rw [hsplit, List.map_eq_nil_iff, List.dropLast_concat, List.filter_eq_nil_iff]
      simp only [Bool.not_eq_true]

/-- Where an element stands in a list that has grown at its end: it is the new one, or it stands where
it stood before. -/
theorem snoc_cases {before after : List α} (h : l ++ [b] = before ++ a :: after) :
    before = l ∧ a = b ∧ after = [] ∨ ∃ rest, after = rest ++ [b] ∧ l = before ++ a :: rest := by
  rcases List.eq_nil_or_concat after with rfl | ⟨rest, c, rfl⟩
  · obtain ⟨hbefore, hlast⟩ := List.append_inj' h rfl
    exact Or.inl ⟨hbefore.symm, (List.cons.inj hlast).1.symm, rfl⟩
  · rw [List.concat_eq_append, ← List.cons_append, ← List.append_assoc] at h
    obtain ⟨hl, hlast⟩ := List.append_inj' h rfl
    refine Or.inr ⟨rest, ?_, hl⟩
    rw [List.concat_eq_append, hlast]

end Records

/-! ## Insertion-ordered maps -/

section Maps

variable {κ : Type u} {β : Type v} [DecidableEq κ]

def put (k : κ) (v : β) : List (κ × β) → List (κ × β)
  | [] => [(k, v)]
  | e :: l => if e.1 = k then (e.1, v) :: l else e :: put k v l

def remove (k : κ) (l : List (κ × β)) : List (κ × β) :=
  l.filter (fun e => e.1 ≠ k)

def get (k : κ) (l : List (κ × β)) : Option β :=
  (l.find? (fun e => e.1 = k)).map Prod.snd

theorem put_of_not_mem {k : κ} {l : List (κ × β)} (v : β) (h : k ∉ l.map Prod.fst) :
    put k v l = l ++ [(k, v)] := by
  induction l with
  | nil => rfl
  | cons e l ih =>
      rw [List.map_cons, List.mem_cons, not_or] at h
      have hne : ¬ e.1 = k := fun he => h.1 he.symm
      rw [put, if_neg hne, ih h.2, List.cons_append]

theorem keys_put_of_mem {k : κ} {l : List (κ × β)} (v : β) (h : k ∈ l.map Prod.fst) :
    (put k v l).map Prod.fst = l.map Prod.fst := by
  induction l with
  | nil => simp at h
  | cons e l ih =>
      by_cases he : e.1 = k
      · simp [put, he]
      · have hmem : k ∈ l.map Prod.fst := by
          rcases List.mem_cons.1 h with hk | hk
          · exact absurd hk.symm he
          · exact hk
        simp [put, he, ih hmem]

theorem nodup_put {k : κ} {l : List (κ × β)} (v : β) (h : (l.map Prod.fst).Nodup) :
    ((put k v l).map Prod.fst).Nodup := by
  by_cases hmem : k ∈ l.map Prod.fst
  · rw [keys_put_of_mem v hmem]
    exact h
  · rw [put_of_not_mem v hmem, List.map_append]
    refine List.nodup_append.2 ⟨h, List.nodup_singleton _, ?_⟩
    rintro a ha b hb rfl
    have hk : a = k := by simpa using hb
    exact hmem (hk ▸ ha)

theorem mem_put {k : κ} {v : β} {l : List (κ × β)} {e : κ × β} (h : e ∈ put k v l) :
    e = (k, v) ∨ e ∈ l := by
  induction l with
  | nil => exact Or.inl (by simpa [put] using h)
  | cons d l ih =>
      by_cases hd : d.1 = k
      · rw [put, if_pos hd, hd] at h
        rcases List.mem_cons.1 h with he | he
        · exact Or.inl he
        · exact Or.inr (List.mem_cons_of_mem _ he)
      · rw [put, if_neg hd] at h
        rcases List.mem_cons.1 h with he | he
        · exact Or.inr (he ▸ List.mem_cons_self)
        · exact (ih he).imp_right (List.mem_cons_of_mem _)

theorem get_cons (k : κ) (e : κ × β) (l : List (κ × β)) :
    get k (e :: l) = if e.1 = k then some e.2 else get k l := by
  by_cases he : e.1 = k
  · simp [get, he]
  · simp [get, he]

theorem get_eq_none_iff {k : κ} {l : List (κ × β)} : get k l = none ↔ k ∉ l.map Prod.fst := by
  simp only [get, Option.map_eq_none_iff, List.find?_eq_none, decide_eq_true_eq, List.mem_map]
  constructor
  · rintro h ⟨e, he, hk⟩
    exact h e he hk
  · intro h e he hk
    exact h ⟨e, he, hk⟩

theorem get_eq_some_iff {k : κ} {v : β} {l : List (κ × β)} (h : (l.map Prod.fst).Nodup) :
    get k l = some v ↔ (k, v) ∈ l := by
  have hfind : ∀ e, l.find? (fun e => e.1 == k) = some e ↔ e ∈ l ∧ e.1 = k :=
    fun e => find?_key_iff h
  simp only [beq_eq_decide] at hfind
  simp only [get, Option.map_eq_some_iff, hfind]
  constructor
  · rintro ⟨e, ⟨he, rfl⟩, rfl⟩
    exact he
  · intro hmem
    exact ⟨(k, v), ⟨hmem, rfl⟩, rfl⟩

theorem get_append (k : κ) (l l' : List (κ × β)) :
    get k (l ++ l') = (get k l).or (get k l') := by
  induction l with
  | nil => rfl
  | cons e l ih =>
      by_cases he : e.1 = k
      · simp [get_cons, he]
      · simp [get_cons, he, ih]

theorem get_put (k k' : κ) (v : β) (l : List (κ × β)) :
    get k' (put k v l) = if k = k' then some v else get k' l := by
  induction l with
  | nil => rw [put, get_cons]
  | cons e l ih =>
      by_cases he : e.1 = k
      · rw [put, if_pos he, get_cons, get_cons, he]
        by_cases hk : k = k' <;> simp [hk]
      · rw [put, if_neg he, get_cons, get_cons, ih]
        by_cases he' : e.1 = k'
        · have hk : ¬ k = k' := fun hk => he (he'.trans hk.symm)
          rw [if_pos he', if_neg hk, if_pos he']
        · rw [if_neg he', if_neg he']

theorem mem_keys_put {k k' : κ} {v : β} {l : List (κ × β)} :
    k' ∈ (put k v l).map Prod.fst ↔ k' = k ∨ k' ∈ l.map Prod.fst := by
  rw [← not_iff_not, ← get_eq_none_iff, get_put, not_or, ← get_eq_none_iff]
  by_cases hk : k = k'
  · simp [hk]
  · have hk' : ¬ k' = k := fun he => hk he.symm
    simp [hk, hk']

theorem get_remove (k k' : κ) (l : List (κ × β)) :
    get k' (remove k l) = if k = k' then none else get k' l := by
  induction l with
  | nil => simp [remove, get]
  | cons e l ih =>
      by_cases he : e.1 = k
      · have hdrop : remove k (e :: l) = remove k l := by simp [remove, he]
        rw [hdrop, ih, get_cons, he]
        by_cases hk : k = k' <;> simp [hk]
      · have hkeep : remove k (e :: l) = e :: remove k l := by simp [remove, he]
        rw [hkeep, get_cons, get_cons, ih]
        by_cases he' : e.1 = k'
        · have hk : ¬ k = k' := fun hk => he (he'.trans hk.symm)
          rw [if_pos he', if_neg hk, if_pos he']
        · rw [if_neg he', if_neg he']

theorem put_ne_nil (k : κ) (v : β) (l : List (κ × β)) : put k v l ≠ [] := by
  cases l with
  | nil => simp [put]
  | cons e l => by_cases he : e.1 = k <;> simp [put, he]

/-- Removing a key that is not there changes nothing. -/
theorem remove_of_get_eq_none {k : κ} {l : List (κ × β)} (h : get k l = none) :
    remove k l = l := by
  refine List.filter_eq_self.2 (fun e he => ?_)
  have hek : e.1 ≠ k := fun hek => get_eq_none_iff.1 h (hek ▸ List.mem_map_of_mem he)
  simp [hek]

theorem get_foldl_put_of_not {key : β → κ} {k : κ} (l : List β) :
    ∀ m : List (κ × β), (∀ a ∈ l, key a ≠ k) →
      get k (l.foldl (fun m a => put (key a) a m) m) = get k m := by
  induction l with
  | nil =>
      intro m _
      rfl
  | cons b l ih =>
      intro m hnone
      rw [List.foldl_cons, ih _ (fun a ha => hnone a (List.mem_cons_of_mem _ ha)), get_put,
        if_neg (hnone b List.mem_cons_self)]

/-- Records put under their own keys: the last record with a key is found under it. -/
theorem get_foldl_put {key : β → κ} (l : List β) :
    ∀ (m : List (κ × β)) {k : κ}, (∃ a ∈ l, key a = k) →
      ∃ a ∈ l, key a = k ∧ get k (l.foldl (fun m a => put (key a) a m) m) = some a := by
  induction l with
  | nil =>
      rintro m k ⟨a, ha, _⟩
      cases ha
  | cons b l ih =>
      rintro m k ⟨a, ha, hk⟩
      by_cases hlater : ∃ a ∈ l, key a = k
      · rcases ih (put (key b) b m) hlater with ⟨c, hc, hck, hget⟩
        exact ⟨c, List.mem_cons_of_mem _ hc, hck, hget⟩
      · have hb : key b = k := by
          rcases List.mem_cons.1 ha with rfl | hmem
          · exact hk
          · exact absurd ⟨a, hmem, hk⟩ hlater
        have hnone : ∀ a ∈ l, key a ≠ k := fun a ha hk => hlater ⟨a, ha, hk⟩
        refine ⟨b, List.mem_cons_self, hb, ?_⟩
        rw [List.foldl_cons, get_foldl_put_of_not l _ hnone, get_put, if_pos hb]

/-- What is found under a key is the last of the records with that key that were put at all. -/
theorem get_foldl_put_iff {key : β → κ} {P : β → Bool} {k : κ} {a : β}
    (hP : ∀ b, key b = k → P b = true) (l : List β) :
    get k ((l.filter P).foldl (fun m a => put (key a) a m) []) = some a ↔
      ∃ before after, l = before ++ a :: after ∧ key a = k ∧ ∀ b ∈ after, key b ≠ k := by
  induction l using List.reverseRecOn with
  | nil => simp [get]
  | append_singleton l b ih =>
      rw [List.filter_append, List.foldl_append]
      by_cases hb : key b = k
      · rw [List.filter_cons_of_pos (hP b hb), List.filter_nil, List.foldl_cons, List.foldl_nil,
          get_put, if_pos hb]
        constructor
        · rintro ⟨⟩
          exact ⟨l, [], rfl, hb, by simp⟩
        · rintro ⟨before, after, hl, -, hafter⟩
          rcases snoc_cases hl with ⟨-, rfl, -⟩ | ⟨rest, rfl, -⟩
          · rfl
          · exact absurd hb (hafter b (by simp))
      · have hkeep : get k (([b].filter P).foldl (fun m a => put (key a) a m)
            ((l.filter P).foldl (fun m a => put (key a) a m) [])) =
              get k ((l.filter P).foldl (fun m a => put (key a) a m) []) := by
          refine get_foldl_put_of_not _ _ (fun c hc => ?_)
          rw [List.mem_singleton.1 (List.mem_of_mem_filter hc)]
          exact hb
        rw [hkeep, ih]
        constructor
        · rintro ⟨before, after, rfl, ha, hafter⟩
          refine ⟨before, after ++ [b], by simp, ha, ?_⟩
          intro c hc
          rcases List.mem_append.1 hc with hc | hc
          · exact hafter c hc
          · rw [List.mem_singleton.1 hc]
            exact hb
        · rintro ⟨before, after, hl, ha, hafter⟩
          rcases snoc_cases hl with ⟨-, rfl, -⟩ | ⟨rest, rfl, hold⟩
          · exact absurd ha hb
          · exact ⟨before, rest, hold, ha, fun d hd => hafter d (by simp [hd])⟩

/-- Records with distinct keys, put under their own keys one after the other. -/
theorem foldl_put_eq {key : β → κ} (l : List β) :
    ∀ m : List (κ × β), (m.map Prod.fst ++ l.map key).Nodup →
      l.foldl (fun m a => put (key a) a m) m = m ++ l.map (fun a => (key a, a)) := by
  induction l with
  | nil =>
      intro m _
      simp
  | cons b l ih =>
      intro m hnodup
      have hnew : key b ∉ m.map Prod.fst := by
        intro hmem
        exact (List.nodup_append.1 hnodup).2.2 _ hmem _ List.mem_cons_self rfl
      rw [List.foldl_cons, put_of_not_mem b hnew, ih]
      · simp
      · simpa using hnodup

/-- Every entry of such a map is a record under its own key. -/
theorem mem_foldl_put {key : β → κ} (l : List β) :
    ∀ {m : List (κ × β)} {e : κ × β},
      e ∈ l.foldl (fun m a => put (key a) a m) m → e ∈ m ∨ e.2 ∈ l ∧ key e.2 = e.1 := by
  induction l with
  | nil =>
      intro m e he
      exact Or.inl he
  | cons b l ih =>
      intro m e he
      rcases ih he with hput | ⟨hmem, hkey⟩
      · rcases mem_put hput with rfl | hold
        · exact Or.inr ⟨List.mem_cons_self, rfl⟩
        · exact Or.inl hold
      · exact Or.inr ⟨List.mem_cons_of_mem _ hmem, hkey⟩

theorem nodup_foldl_put {key : β → κ} (l : List β) :
    ∀ {m : List (κ × β)}, (m.map Prod.fst).Nodup →
      ((l.foldl (fun m a => put (key a) a m) m).map Prod.fst).Nodup := by
  induction l with
  | nil =>
      intro m h
      exact h
  | cons b l ih =>
      intro m h
      exact ih (nodup_put b h)

/-- Under every key `m` has the place of the last element of `keys` that is this key. -/
structure Latest (m : List (κ × Nat)) (keys : List κ) : Prop where
  get_iff : ∀ k i, get k m = some i ↔ keys[i]? = some k ∧ ∀ j, i < j → keys[j]? ≠ some k
  mem_keys : ∀ k, k ∈ m.map Prod.fst ↔ k ∈ keys

theorem Latest.nil : Latest ([] : List (κ × Nat)) [] where
  get_iff := by
    intro k i
    simp [get]
  mem_keys := fun k => Iff.rfl

/-- The map is kept up to date by putting each key under its place. -/
theorem Latest.put {m : List (κ × Nat)} {keys : List κ} (h : Latest m keys) (k : κ) :
    Latest (put k keys.length m) (keys ++ [k]) where
  get_iff := by
    intro k' i
    have hlast : ∀ j : Nat, (keys ++ [k])[j]? = some k' ↔
        keys[j]? = some k' ∨ j = keys.length ∧ k = k' := by
      intro j
      rcases Nat.lt_trichotomy j keys.length with hlt | heq | hgt
      · rw [List.getElem?_append_left hlt]
        simp [Nat.ne_of_lt hlt]
      · subst heq
        simp
      · have hout : (keys ++ [k])[j]? = none := by
          refine List.getElem?_eq_none ?_
          rw [List.length_append, List.length_singleton]
          omega
        simp [hout, List.getElem?_eq_none (Nat.le_of_lt hgt), Nat.ne_of_gt hgt]
    rw [get_put]
    by_cases hk : k = k'
    · subst hk
      rw [if_pos rfl, Option.some.injEq]
      constructor
      · rintro rfl
        refine ⟨(hlast _).2 (Or.inr ⟨rfl, rfl⟩), ?_⟩
        intro j hj hmem
        rcases (hlast j).1 hmem with hold | ⟨heq, -⟩
        · rw [List.getElem?_eq_none (Nat.le_of_lt hj)] at hold
          cases hold
        · omega
      · rintro ⟨hmem, hnone⟩
        rcases (hlast i).1 hmem with hold | ⟨heq, -⟩
        · -- the new element is a later one
          have hi := (List.getElem?_eq_some_iff.1 hold).1
          exact absurd ((hlast _).2 (Or.inr ⟨rfl, rfl⟩)) (hnone keys.length hi)
        · exact heq.symm
    · have hold : ∀ j : Nat, (keys ++ [k])[j]? = some k' ↔ keys[j]? = some k' := by
        intro j
        rw [hlast j]
        exact or_iff_left fun hnew => hk hnew.2
      simp only [if_neg hk, ne_eq, hold]
      exact h.get_iff k' i
  mem_keys := by
    intro k'
    rw [mem_keys_put, h.mem_keys, List.mem_append, List.mem_singleton, or_comm]

end Maps

end Keyed
