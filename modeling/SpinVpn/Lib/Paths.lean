import Mathlib.Data.List.Basic

/-!
# Paths — segments, places and dots

A path is a text whose segments stand between slashes; empty segments do not count.  A place is the
list of the names on the way to it from the root.  Walking along a path from a place, `.` stays
where it is and `..` goes back to the directory above, of which the root is its own.

What a path does from any place is its reduced form: so many steps up, and then the names on the way
down (`walk_eq`).
-/

namespace Paths

abbrev Name : Type :=
  List Char

abbrev Place : Type :=
  List Name

/-! ## Segments -/

/-- The segment read so far, unless it is empty. -/
def flush (seg : Name) : List Name :=
  if seg = [] then [] else [seg]

def segmentsFrom : Name → List Char → List Name
  | seg, [] => flush seg
  | seg, c :: l => if c = '/' then flush seg ++ segmentsFrom [] l else segmentsFrom (seg ++ [c]) l

def segments (path : List Char) : List Name :=
  segmentsFrom [] path

@[simp] theorem flush_nil : flush [] = [] :=
  rfl

@[simp] theorem segmentsFrom_slash (seg : Name) (l : List Char) :
    segmentsFrom seg ('/' :: l) = flush seg ++ segmentsFrom [] l := by
  simp [segmentsFrom]

theorem segmentsFrom_char {c : Char} (h : c ≠ '/') (seg : Name) (l : List Char) :
    segmentsFrom seg (c :: l) = segmentsFrom (seg ++ [c]) l := by
  simp [segmentsFrom, h]

@[simp] theorem segments_nil : segments [] = [] :=
  rfl

@[simp] theorem segments_slash (l : List Char) : segments ('/' :: l) = segments l := by
  simp [segments]

/-- Between two segments stands at least one slash. -/
theorem segmentsFrom_append (l m : List Char) :
    ∀ seg, segmentsFrom seg (l ++ '/' :: m) = segmentsFrom seg l ++ segments m := by
  induction l with
  | nil =>
      intro seg
      rw [List.nil_append, segmentsFrom_slash]
      rfl
  | cons c l ih =>
      intro seg
      rw [List.cons_append]
      by_cases hc : c = '/'
      · subst hc
        rw [segmentsFrom_slash, segmentsFrom_slash, ih, List.append_assoc]
      · rw [segmentsFrom_char hc, segmentsFrom_char hc, ih]

theorem segments_append (l m : List Char) : segments (l ++ '/' :: m) = segments l ++ segments m :=
  segmentsFrom_append l m []

theorem segments_concat_slash (l : List Char) : segments (l ++ ['/']) = segments l := by
  rw [segments_append, segments_nil, List.append_nil]

theorem segmentsFrom_name {name : Name} (h : '/' ∉ name) :
    ∀ seg, segmentsFrom seg name = flush (seg ++ name) := by
  induction name with
  | nil =>
      intro seg
      rw [List.append_nil]
      rfl
  | cons c name ih =>
      intro seg
      have hc : c ≠ '/' := fun heq => h (heq ▸ List.mem_cons_self)
      have hname : '/' ∉ name := fun hmem => h (List.mem_cons_of_mem c hmem)
      rw [segmentsFrom_char hc, ih hname, List.append_assoc, List.singleton_append]

/-- A path without segments has no other character than the slash. -/
theorem eq_slash_of_segments_nil (l : List Char) (h : segments l = []) : ∀ c ∈ l, c = '/' := by
  induction l with
  | nil =>
      intro c hc
      cases hc
  | cons d l ih =>
      by_cases hd : d = '/'
      · subst hd
        rw [segments_slash] at h
        intro c hc
        rcases List.mem_cons.1 hc with rfl | hc
        · rfl
        · exact ih h c hc
      · -- a segment that was begun comes out
        have hbegun : ∀ (m : List Char) (seg : Name), seg ≠ [] → segmentsFrom seg m ≠ [] := by
          intro m
          induction m with
          | nil =>
              intro seg hseg
              simp [segmentsFrom, flush, hseg]
          | cons c m ih =>
              intro seg hseg
              by_cases hc : c = '/'
              · subst hc
                rw [segmentsFrom_slash]
                simp [flush, hseg]
              · rw [segmentsFrom_char hc]
                exact ih _ (by simp)
        rw [segments, segmentsFrom_char hd] at h
        exact absurd h (hbegun l _ (by simp))

/-! ## Walking -/

def dot : Name :=
  ['.']

def dotDot : Name :=
  ['.', '.']

/-- A segment that names something. -/
structure IsName (name : Name) : Prop where
  nonempty : name ≠ []
  unbroken : '/' ∉ name
  not_dot : name ≠ dot
  not_dotDot : name ≠ dotDot

def step (place : Place) (seg : Name) : Place :=
  if seg = dot then place
  else if seg = dotDot then place.dropLast
  else place ++ [seg]

def walk (place : Place) (path : List Name) : Place :=
  path.foldl step place

theorem walk_append (place : Place) (l m : List Name) :
    walk place (l ++ m) = walk (walk place l) m :=
  List.foldl_append

/-- Names lead straight down. -/
theorem walk_names {l : List Name} (h : ∀ name ∈ l, IsName name) :
    ∀ place, walk place l = place ++ l := by
  induction l with
  | nil =>
      intro place
      exact (List.append_nil place).symm
  | cons name l ih =>
      intro place
      have hname := h name List.mem_cons_self
      have hstep : step place name = place ++ [name] := by
        rw [step, if_neg hname.not_dot, if_neg hname.not_dotDot]
      calc
        walk place (name :: l) = walk (place ++ [name]) l := by rw [← hstep]; rfl
        _ = place ++ [name] ++ l := ih (fun n hn => h n (List.mem_cons_of_mem name hn)) _
        _ = place ++ name :: l := by rw [List.append_assoc, List.singleton_append]

/-! ## Reduced paths -/

/-- So many steps up, and then down along the names. -/
structure Reduced where
  ups : Nat
  names : List Name
  deriving DecidableEq

def Reduced.step (r : Reduced) (seg : Name) : Reduced :=
  if seg = dot then r
  else if seg = dotDot then
    if r.names = [] then { r with ups := r.ups + 1 } else { r with names := r.names.dropLast }
  else { r with names := r.names ++ [seg] }

def reduce (path : List Name) : Reduced :=
  path.foldl Reduced.step { ups := 0, names := [] }

def Reduced.from (place : Place) (r : Reduced) : Place :=
  place.take (place.length - r.ups) ++ r.names

theorem step_from (place : Place) (r : Reduced) (seg : Name) :
    step (r.from place) seg = (r.step seg).from place := by
  rw [step, Reduced.step]
  split
  · rfl
  split
  · split
    · rename_i hnil
      -- one more step up from the place
      rw [Reduced.from, Reduced.from, hnil, List.append_nil, List.append_nil, List.dropLast_eq_take,
        List.length_take, List.take_take]
      congr 1
      dsimp only
      omega
    · rename_i hne
      exact List.dropLast_append_of_ne_nil hne
  · exact List.append_assoc _ _ _

theorem walk_eq (place : Place) (path : List Name) :
    walk place path = (reduce path).from place := by
  have hfold : ∀ (path : List Name) (r : Reduced),
      path.foldl step (r.from place) = (path.foldl Reduced.step r).from place := by
    intro path
    induction path with
    | nil =>
        intro r
        rfl
    | cons seg path ih =>
        intro r
        rw [List.foldl_cons, List.foldl_cons, step_from, ih]
  have hstart : place = Reduced.from place { ups := 0, names := [] } := by
    simp [Reduced.from]
  calc
    walk place path = path.foldl step (Reduced.from place { ups := 0, names := [] }) := by
      rw [← hstart]; rfl
    _ = (reduce path).from place := hfold path _

/-! ## Inside a directory -/

def Inside (dir place : Place) : Prop :=
  ∃ rest, rest ≠ [] ∧ place = dir ++ rest

/-- The way up is taken back down again, and further. -/
def Reduced.Returns (dir : Place) (r : Reduced) : Prop :=
  ∃ rest, rest ≠ [] ∧ r.names = dir.drop (dir.length - r.ups) ++ rest

theorem inside_walk_iff (dir : Place) (path : List Name) :
    Inside dir (walk dir path) ↔ (reduce path).Returns dir := by
  rw [walk_eq, Inside, Reduced.Returns]
  refine exists_congr (fun rest => and_congr_right (fun _ => ?_))
  conv_lhs => rw [Reduced.from]
  constructor
  · intro h
    have hsplit : dir.take (dir.length - (reduce path).ups) ++ (reduce path).names =
        dir.take (dir.length - (reduce path).ups) ++
          (dir.drop (dir.length - (reduce path).ups) ++ rest) := by
      rw [h, ← List.append_assoc, List.take_append_drop]
    exact List.append_cancel_left hsplit
  · intro h
    rw [h, ← List.append_assoc, List.take_append_drop]

end Paths
