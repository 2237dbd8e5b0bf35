import SpinVpn.Lib.Paths
import SpinVpn.Utils.Text

/-!
# Manager — copying the files of a plugin

`PluginManager.initNativeSlow` of `plugin/PluginManager.kt`.  A provider hands out the paths of its
files, and each is copied into the plugin directory.  The check before the copy compares the path of
the file with that of the directory as texts, without resolving dots; it rejects only paths that
consist of slashes (`check_iff`).  A file outside the directory is written to as soon as it can be
opened (`contained_iff`).
-/

namespace SpinVpn
namespace Plugin

open Paths Utils

/-! ## `java.io.File` -/

/-- A slash behind a slash is left out. -/
def collapse : Bool → List Char → List Char
  | _, [] => []
  | prev, c :: l =>
      if c = '/' ∧ prev = true then collapse true l else c :: collapse (decide (c = '/')) l

/-- `UnixFileSystem.normalize` -/
def normalize (pathname : List Char) : List Char :=
  -- omit the trailing slash, except when the path is a slash
  if pathname.getLast? = some '/' ∧ 1 < pathname.length then (collapse false pathname).dropLast
  else collapse false pathname

/-- `UnixFileSystem.resolve` -/
def resolve (parent child : List Char) : List Char :=
  if child = [] ∨ child = ['/'] then parent
  else if child.head? = some '/' then
    if parent = ['/'] then child else parent ++ child
  else if parent = ['/'] then parent ++ child
  else parent ++ '/' :: child

/-- The path of `File(parent, child)`, for a parent with a path. -/
def file (parent : List Char) (child : String) : List Char :=
  resolve parent (normalize child.toList)

/-- An absolute path without dots. -/
structure Directory where
  names : Place
  nonempty : names ≠ []
  proper : ∀ name ∈ names, IsName name

def Directory.path (d : Directory) : List Char :=
  d.names.flatMap (fun name => '/' :: name)

/-! ## The cursor -/

inductive Mode
  | int (n : Int)
  | string (s : String)
  | other
  deriving DecidableEq

/-- `String.toInt(8)` -/
def toIntOctal (s : String) : Option Int :=
  let octal (l : List Char) : Option Nat :=
    if l = [] then none
    else l.foldlM (fun n c => (digit c).bind (fun d => if d < 8 then some (8 * n + d) else none)) 0
  match s.toList with
  | '-' :: l => (octal l).bind (fun n => if n ≤ 2147483648 then some (-(n : Int)) else none)
  | '+' :: l => (octal l).bind (fun n => if n ≤ 2147483647 then some (n : Int) else none)
  | l => (octal l).bind (fun n => if n ≤ 2147483647 then some (n : Int) else none)

/-- `none` stands for the exceptions. -/
def Mode.value : Mode → Option Int
  | .int n => some n
  | .string s => toIntOctal s
  | .other => none

structure Row where
  path : String
  mode : Mode
  deriving DecidableEq

/-- How the copy of one file goes. -/
inductive Outcome
  /-- `openInputStream` fails -/
  | noInput
  /-- `outputStream` fails -/
  | noOutput
  /-- `copyTo` fails after the file was opened -/
  | noCopy
  /-- `chmod` fails -/
  | noChmod
  | done
  deriving DecidableEq

def Outcome.Opened (o : Outcome) : Prop :=
  o ≠ .noInput ∧ o ≠ .noOutput

/-! ## The program -/

inductive Touch
  | write (path : List Char)
  | chmod (path : List Char) (mode : Int)
  deriving DecidableEq

def Touch.path : Touch → List Char
  | .write path => path
  | .chmod path _ => path

inductive InitFailure
  | entryNotFound
  | noDirectory
  | checkFailed
  | io
  | badMode
  deriving DecidableEq, Repr

structure Slow where
  touched : List Touch
  result : Except InitFailure Bool

/-- The loop over the rows; `initialized` is its variable. -/
def copyRows (d : Directory) (id : String) : Bool → List (Row × Outcome) → Slow
  | initialized, [] => { touched := [], result := .ok initialized }
  | initialized, (row, o) :: rows =>
      let f := file d.path row.path
      if (d.path ++ ['/']).isPrefixOf f = false then { touched := [], result := .error .checkFailed }
      else
        match o, row.mode.value with
        | .noInput, _ => { touched := [], result := .error .io }
        | .noOutput, _ => { touched := [], result := .error .io }
        | .noCopy, _ => { touched := [.write f], result := .error .io }
        | .noChmod, none => { touched := [.write f], result := .error .badMode }
        | .noChmod, some _ => { touched := [.write f], result := .error .io }
        | .done, none => { touched := [.write f], result := .error .badMode }
        | .done, some mode =>
            let rest := copyRows d id (initialized || decide (row.path = id)) rows
            { rest with touched := .write f :: .chmod f mode :: rest.touched }

/-- `created` tells whether the plugin directory could be made anew. -/
def initNativeSlow (d : Directory) (id : String) (created : Bool)
    (cursor : Option (List (Row × Outcome))) :
    List Touch × Except InitFailure (Option (List Char)) :=
  match cursor with
  | none => ([], .ok none)
  | some [] => ([], .error .entryNotFound)
  | some (row :: rows) =>
      if created = false then ([], .error .noDirectory)
      else
        let slow := copyRows d id false (row :: rows)
        (slow.touched, slow.result.bind (fun initialized =>
          if initialized then .ok (some (file d.path id)) else .error .entryNotFound))

/-! ## Files by their segments -/

theorem segmentsFrom_collapse (l : List Char) :
    ∀ (prev : Bool) (seg : Name), (prev = true → seg = []) →
      segmentsFrom seg (collapse prev l) = segmentsFrom seg l := by
  induction l with
  | nil =>
      intro prev seg _
      rfl
  | cons c l ih =>
      intro prev seg hprev
      rw [collapse]
      by_cases hc : c = '/'
      · subst hc
        by_cases hp : prev = true
        · rw [if_pos ⟨rfl, hp⟩, hprev hp, ih true [] (fun _ => rfl), segmentsFrom_slash, flush_nil,
            List.nil_append]
        · rw [if_neg (fun h => hp h.2), segmentsFrom_slash, segmentsFrom_slash,
            ih _ [] (fun _ => rfl)]
      · rw [if_neg (fun h => hc h.1), segmentsFrom_char hc, segmentsFrom_char hc]
        exact ih _ _ (by simp [hc])

/-- The last character is kept; behind a slash that is the slash itself. -/
theorem getLast?_collapse (l : List Char) :
    (collapse false l).getLast? = l.getLast? ∧
      ('/' :: collapse true l).getLast? = ('/' :: l).getLast? := by
  induction l with
  | nil => exact ⟨rfl, rfl⟩
  | cons c l ih =>
      rcases ih with ⟨hfalse, htrue⟩
      by_cases hc : c = '/'
      · subst hc
        constructor
        · rw [collapse, if_neg (by simp)]
          exact htrue
        · rw [collapse, if_pos ⟨rfl, rfl⟩, htrue, List.getLast?_cons_cons]
      · have hkeep : (c :: collapse false l).getLast? = (c :: l).getLast? := by
          rw [List.getLast?_cons, List.getLast?_cons, hfalse]
        constructor
        · rw [collapse, if_neg (fun h => hc h.1), decide_eq_false hc]
          exact hkeep
        · rw [collapse, if_neg (fun h => hc h.1), decide_eq_false hc, List.getLast?_cons_cons, hkeep,
            List.getLast?_cons_cons]

theorem segments_normalize (l : List Char) : segments (normalize l) = segments l := by
  have hcollapse : segments (collapse false l) = segments l :=
    segmentsFrom_collapse l false [] (fun _ => rfl)
  rw [normalize]
  split
  · rename_i h
    have hlast : (collapse false l).getLast? = some '/' := by
      rw [(getLast?_collapse l).1]
      exact h.1
    have hsplit : (collapse false l).dropLast ++ ['/'] = collapse false l :=
      List.dropLast_append_getLast? '/' hlast
    rw [← hcollapse, ← hsplit, List.dropLast_concat, segments_concat_slash]
  · exact hcollapse

theorem segments_resolve (parent child : List Char) :
    segments (resolve parent child) = segments parent ++ segments child := by
  rw [resolve]
  split
  · rename_i h
    rcases h with rfl | rfl
    · simp
    · simp
  split
  · rename_i hhead
    rcases child with _ | ⟨c, child⟩
    · cases hhead
    · cases hhead
      split
      · rename_i hroot
        simp [hroot]
      · rw [segments_append, segments_slash]
  · split
    · rename_i hroot
      simp [hroot]
    · exact segments_append parent child

/-- The dots of the path stay where they are. -/
theorem segments_file (parent : List Char) (child : String) :
    segments (file parent child) = segments parent ++ segments child.toList := by
  calc
    segments (file parent child) = segments parent ++ segments (normalize child.toList) :=
      segments_resolve _ _
    _ = segments parent ++ segments child.toList := by rw [segments_normalize]

theorem segments_path (d : Directory) : segments d.path = d.names := by
  have hnames : ∀ l : List Name, (∀ name ∈ l, IsName name) →
      segments (l.flatMap (fun name => '/' :: name)) = l := by
    intro l
    induction l with
    | nil =>
        intro _
        rfl
    | cons name l ih =>
        intro h
        have hname := h name List.mem_cons_self
        have hrest := ih (fun n hn => h n (List.mem_cons_of_mem name hn))
        have halone : segments name = [name] := by
          rw [segments, segmentsFrom_name hname.unbroken, List.nil_append, flush,
            if_neg hname.nonempty]
        rw [List.flatMap_cons, List.cons_append, segments_slash]
        cases l with
        | nil => simp [halone]
        | cons next l =>
            rw [List.flatMap_cons, List.cons_append, segments_append, halone]
            rw [List.flatMap_cons, List.cons_append, segments_slash] at hrest
            rw [hrest]
            rfl
  exact hnames d.names d.proper

/-! ## The check -/

theorem collapse_true_slashes (l : List Char) (h : ∀ c ∈ l, c = '/') : collapse true l = [] := by
  induction l with
  | nil => rfl
  | cons c l ih =>
      have hc := h c List.mem_cons_self
      subst hc
      rw [collapse, if_pos ⟨rfl, rfl⟩, ih (fun c hc => h c (List.mem_cons_of_mem _ hc))]

/-- A path of slashes is the directory itself. -/
theorem normalize_slashes {l : List Char} (h : ∀ c ∈ l, c = '/') :
    normalize l = [] ∨ normalize l = ['/'] := by
  cases l with
  | nil => exact Or.inl rfl
  | cons c l =>
      have hc := h c List.mem_cons_self
      subst hc
      have hcollapse : collapse false ('/' :: l) = ['/'] := by
        rw [collapse, if_neg (by simp)]
        exact congrArg (List.cons '/')
          (collapse_true_slashes l (fun c hc => h c (List.mem_cons_of_mem _ hc)))
      rw [normalize, hcollapse]
      split
      · exact Or.inl rfl
      · exact Or.inr rfl

theorem path_ne_slash (d : Directory) : d.path ≠ ['/'] := by
  intro h
  have hnames := segments_path d
  rw [h] at hnames
  exact d.nonempty hnames.symm

/-- Whatever the path is, the file lies below the directory as a text. -/
theorem check_iff (d : Directory) (child : String) :
    (d.path ++ ['/']).isPrefixOf (file d.path child) = true ↔ segments child.toList ≠ [] := by
  rw [List.isPrefixOf_iff_prefix]
  constructor
  · intro hprefix hnil
    -- the file is the directory, and too short
    have hself : file d.path child = d.path := by
      rw [file, resolve, if_pos (normalize_slashes (eq_slash_of_segments_nil _ hnil))]
    rw [hself] at hprefix
    have hlength := hprefix.length_le
    rw [List.length_append, List.length_singleton] at hlength
    omega
  · intro hne
    have hnormal : ¬ (normalize child.toList = [] ∨ normalize child.toList = ['/']) := by
      intro h
      have hsegments := segments_normalize child.toList
      rcases h with h | h
      · rw [h] at hsegments
        exact hne hsegments.symm
      · rw [h] at hsegments
        exact hne hsegments.symm
    rw [file, resolve, if_neg hnormal]
    split
    · rename_i hhead
      rw [if_neg (path_ne_slash d)]
      rcases hchild : normalize child.toList with _ | ⟨c, rest⟩
      · rw [hchild] at hhead
        cases hhead
      · rw [hchild] at hhead
        cases hhead
        exact ⟨rest, by simp⟩
    · rw [if_neg (path_ne_slash d)]
      exact ⟨normalize child.toList, by simp⟩

theorem check_passed {d : Directory} {child : String} (h : segments child.toList ≠ []) :
    ¬ (d.path ++ ['/']).isPrefixOf (file d.path child) = false := by
  rw [Bool.not_eq_false, check_iff]
  exact h

/-! ## What is written -/

section Written

variable (isDir : Place → Bool) (d : Directory) (id : String)

/-- A file can only be opened if the directories on the way to it exist and it is none itself. -/
def CanOpen (path : List Char) : Prop :=
  (∀ n < (segments path).length, isDir (walk [] ((segments path).take n)) = true) ∧
    isDir (walk [] (segments path)) = false

/-- The outcomes are possible on the device. -/
def Possible (rows : List (Row × Outcome)) : Prop :=
  ∀ r ∈ rows, r.2.Opened → CanOpen isDir (file d.path r.1.path)

/-- Every path that can be opened comes back to the directory, up to the first row at which the loop
must stop. -/
def Contained : List Row → Prop
  | [] => True
  | row :: rows =>
      segments row.path.toList ≠ [] → CanOpen isDir (file d.path row.path) →
        (reduce (segments row.path.toList)).Returns d.names ∧
          (row.mode.value.isSome = true → Contained rows)

/-- All that is touched lies in the directory. -/
def AllInside (touched : List Touch) : Prop :=
  ∀ t ∈ touched, Inside d.names (walk [] (segments t.path))

variable {isDir d id}

theorem inside_file_iff (child : String) :
    Inside d.names (walk [] (segments (file d.path child))) ↔
      (reduce (segments child.toList)).Returns d.names := by
  have hplace : walk [] (segments (file d.path child)) = walk d.names (segments child.toList) := by
    calc
      walk [] (segments (file d.path child)) = walk [] (d.names ++ segments child.toList) := by
        rw [segments_file, segments_path]
      _ = walk (walk [] d.names) (segments child.toList) := walk_append _ _ _
      _ = walk d.names (segments child.toList) := by rw [walk_names d.proper, List.nil_append]
  rw [hplace, inside_walk_iff]

/-- The variable of the loop has no influence on the files. -/
theorem touched_copyRows (rows : List (Row × Outcome)) :
    ∀ b b' : Bool, (copyRows d id b rows).touched = (copyRows d id b' rows).touched := by
  induction rows with
  | nil =>
      intro b b'
      rfl
  | cons r rows ih =>
      intro b b'
      rcases r with ⟨row, o⟩
      simp only [copyRows]
      split
      · rfl
      · split
        · rfl
        · rfl
        · rfl
        · rfl
        · rfl
        · rfl
        · dsimp only
          rw [ih (b || decide (row.path = id)) (b' || decide (row.path = id))]

theorem copyRows_checked {row : Row} {o : Outcome} {b : Bool} {rows : List (Row × Outcome)}
    (h : segments row.path.toList = []) : (copyRows d id b ((row, o) :: rows)).touched = [] := by
  have hcheck : (d.path ++ ['/']).isPrefixOf (file d.path row.path) = false := by
    rw [← Bool.not_eq_true, check_iff, not_not]
    exact h
  simp only [copyRows, if_pos hcheck]

/-- A row that passes the check touches its file and, if all goes well, leads on to the others. -/
theorem copyRows_done {row : Row} {b : Bool} {rows : List (Row × Outcome)}
    (h : segments row.path.toList ≠ []) :
    Touch.write (file d.path row.path) ∈ (copyRows d id b ((row, .done) :: rows)).touched ∧
      (row.mode.value.isSome = true →
        ∀ t ∈ (copyRows d id b rows).touched,
          t ∈ (copyRows d id b ((row, .done) :: rows)).touched) := by
  simp only [copyRows, if_neg (check_passed h)]
  cases hmode : row.mode.value with
  | none => exact ⟨List.mem_cons_self, fun hsome => by cases hsome⟩
  | some mode =>
      refine ⟨List.mem_cons_self, fun _ t ht => ?_⟩
      rw [touched_copyRows rows b (b || decide (row.path = id))] at ht
      exact List.mem_cons_of_mem _ (List.mem_cons_of_mem _ ht)

/-- What one row touches is its file, and what the others touch. -/
theorem mem_touched {row : Row} {o : Outcome} {b : Bool} {rows : List (Row × Outcome)} {t : Touch}
    (h : t ∈ (copyRows d id b ((row, o) :: rows)).touched) :
    segments row.path.toList ≠ [] ∧ o.Opened ∧
      (t.path = file d.path row.path ∨
        row.mode.value.isSome = true ∧ ∃ b', t ∈ (copyRows d id b' rows).touched) := by
  have hcheck : segments row.path.toList ≠ [] := by
    intro hnil
    rw [copyRows_checked hnil] at h
    cases h
  refine ⟨hcheck, ?_⟩
  simp only [copyRows, if_neg (check_passed hcheck)] at h
  split at h
  · cases h
  · cases h
  · rw [List.mem_singleton.1 h]
    exact ⟨⟨by decide, by decide⟩, Or.inl rfl⟩
  · rw [List.mem_singleton.1 h]
    exact ⟨⟨by decide, by decide⟩, Or.inl rfl⟩
  · rw [List.mem_singleton.1 h]
    exact ⟨⟨by decide, by decide⟩, Or.inl rfl⟩
  · rw [List.mem_singleton.1 h]
    exact ⟨⟨by decide, by decide⟩, Or.inl rfl⟩
  · rename_i mode hmode
    refine ⟨⟨by decide, by decide⟩, ?_⟩
    rcases List.mem_cons.1 h with rfl | h
    · exact Or.inl rfl
    rcases List.mem_cons.1 h with rfl | h
    · exact Or.inl rfl
    · exact Or.inr ⟨by rw [hmode]; rfl, _, h⟩

/-! ## The directory -/

theorem allInside_of_contained (rows : List (Row × Outcome)) :
    ∀ b, Possible isDir d rows → Contained isDir d (rows.map Prod.fst) →
      AllInside d (copyRows d id b rows).touched := by
  induction rows with
  | nil =>
      intro b _ _ t ht
      cases ht
  | cons r rows ih =>
      rcases r with ⟨row, o⟩
      intro b hpossible hcontained t ht
      obtain ⟨hsegments, hopened, hcase⟩ := mem_touched ht
      obtain ⟨hreturns, hrest⟩ := hcontained hsegments
        (hpossible (row, o) List.mem_cons_self hopened)
      rcases hcase with hpath | ⟨hmode, b', ht⟩
      · rw [hpath]
        exact (inside_file_iff row.path).2 hreturns
      · exact ih b' (fun r hr => hpossible r (List.mem_cons_of_mem _ hr)) (hrest hmode) t ht

/-- The first path that leads elsewhere is written to, if all before it goes well. -/
theorem contained_of_allInside (rows : List Row) :
    (∀ steps : List (Row × Outcome), steps.map Prod.fst = rows → Possible isDir d steps →
      AllInside d (copyRows d id false steps).touched) → Contained isDir d rows := by
  induction rows with
  | nil =>
      intro _
      trivial
  | cons row rows ih =>
      intro h hsegments hopen
      -- the row itself goes well, and `tail` is what becomes of the others
      have hhead : ∀ tail : List (Row × Outcome), tail.map Prod.fst = rows →
          Possible isDir d tail →
          AllInside d (copyRows d id false ((row, .done) :: tail)).touched := by
        intro tail hrows hpossible
        refine h _ (by rw [List.map_cons, hrows]) ?_
        intro r hr
        rcases List.mem_cons.1 hr with rfl | hr
        · exact fun _ => hopen
        · exact hpossible r hr
      constructor
      · have hstopped : Possible isDir d (rows.map (fun row => (row, Outcome.noInput))) := by
          intro r hr hopened
          rcases List.mem_map.1 hr with ⟨row, -, rfl⟩
          exact absurd rfl hopened.1
        have hrows : (rows.map (fun row => (row, Outcome.noInput))).map Prod.fst = rows := by
          rw [List.map_map]
          exact List.map_id rows
        have htouched := hhead _ hrows hstopped _ (copyRows_done hsegments).1
        exact (inside_file_iff row.path).1 htouched
      · intro hmode
        refine ih (fun tail hrows hpossible t ht => ?_)
        exact hhead tail hrows hpossible t ((copyRows_done hsegments).2 hmode t ht)

theorem touched_initNativeSlow (steps : List (Row × Outcome)) :
    (initNativeSlow d id true (some steps)).1 = (copyRows d id false steps).touched := by
  cases steps with
  | nil => rfl
  | cons r steps => rfl

theorem contained_iff (isDir : Place → Bool) (d : Directory) (id : String) (rows : List Row) :
    (∀ created (steps : List (Row × Outcome)), steps.map Prod.fst = rows → Possible isDir d steps →
        ∀ t ∈ (initNativeSlow d id created (some steps)).1,
          Inside d.names (walk [] (segments t.path))) ↔
      Contained isDir d rows := by
  constructor
  · intro h
    have hinside : ∀ steps : List (Row × Outcome), steps.map Prod.fst = rows →
        Possible isDir d steps → AllInside d (copyRows d id false steps).touched := by
      intro steps hrows hpossible
      rw [← touched_initNativeSlow]
      exact h true steps hrows hpossible
    exact contained_of_allInside rows hinside
  · intro h created steps hrows hpossible
    cases created with
    | false =>
        intro t ht
        cases steps with
        | nil => cases ht
        | cons r steps => cases ht
    | true =>
        rw [touched_initNativeSlow]
        exact allInside_of_contained steps false hpossible (hrows ▸ h)

end Written

/-! ## One level up -/

/-- `/data/plugin` -/
def pluginDir : Directory where
  names := ["data".toList, "plugin".toList]
  nonempty := by simp
  proper := by
    intro name hname
    simp only [List.mem_cons, List.not_mem_nil, or_false] at hname
    rcases hname with rfl | rfl
    · exact ⟨by decide, by decide, by decide, by decide⟩
    · exact ⟨by decide, by decide, by decide, by decide⟩

/-- The only directories are those on the way to the plugin directory. -/
def onTheWay (place : Place) : Bool :=
  place.isPrefixOf pluginDir.names

def upstairs : Row where
  path := "../x"
  mode := .string "755"

theorem initNativeSlow_upstairs :
    Possible onTheWay pluginDir [(upstairs, .done)] ∧
      (initNativeSlow pluginDir "x" true (some [(upstairs, .done)])).1 =
        [.write "/data/plugin/../x".toList, .chmod "/data/plugin/../x".toList 493] ∧
      walk [] (segments "/data/plugin/../x".toList) = ["data".toList, "x".toList] ∧
      ¬ Inside pluginDir.names (walk [] (segments "/data/plugin/../x".toList)) := by
  have hwalk : walk [] (segments "/data/plugin/../x".toList) = ["data".toList, "x".toList] := by
    decide
  refine ⟨?_, by decide, hwalk, ?_⟩
  · intro r hr _
    rw [List.mem_singleton.1 hr]
    unfold CanOpen
    decide
  · rw [hwalk]
    rintro ⟨rest, -, h⟩
    have hsecond := congrArg (fun l => l[1]?) h
    simp [pluginDir] at hsecond

end Plugin
end SpinVpn
