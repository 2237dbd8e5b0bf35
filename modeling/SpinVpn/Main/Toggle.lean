import Mathlib.Data.List.Basic
import Mathlib.Data.List.Nodup
import SpinVpn.Main.App

/-!
# Toggle — a toggle is executed or rolled back, not both

A prepared toggle is resolved along one of three paths: the animator's last frame, the completion
of a connect ad, or an interception.  The only record of a toggle being pending is `mConnectJob`.
The ad path clears it before the toggle goes on; the last frame does not.  An interception after
the last frame therefore rolls back a toggle whose command has been issued.

`Unissued` excludes just that, and `resolved_of_unissued` shows that then every toggle is resolved
at most once.
-/

namespace SpinVpn
namespace Main

open EventMachine

/-! ## The property and the condition -/

/-- No toggle is executed twice, and none is both executed and rolled back. -/
def Resolved (a : App) : Prop :=
  a.executed.Nodup ∧ ∀ i ∈ a.executed, i ∉ a.rolledBack

/-- An interception, also that of `onDestroy`, leaves the state and the button alone once the command
is issued. -/
def LeavesAlone (a b : App) : Event → Prop
  | .intercept | .onDestroy =>
      (∀ an, a.mConnectJob = some an → an.toggle.id ∈ a.executed) →
        b.state = a.state ∧ b.clickable = a.clickable
  | _ => True

/-- An interception does not meet a toggle that has been issued or is queued to be. -/
def NotIssued (a : App) : Prop :=
  ∀ an, a.mConnectJob = some an →
    an.toggle.id ∉ a.executed ∧ ∀ t, a.pendingToggle = some t → t.id ≠ an.toggle.id

def Unissued (a : App) : Event → Prop
  | .intercept => NotIssued a
  | .onDestroy => NotIssued a
  | _ => True

/-! ## The books kept about toggles -/

/-- The part of the state that says where each toggle is. -/
structure Books where
  job : Option Animator
  ads : List Toggle
  pendingAd : Option Toggle
  pendingToggle : Option Toggle
  executed : List Nat
  rolledBack : List Nat
  next : Nat

def books (a : App) : Books where
  job := a.mConnectJob
  ads := a.ads
  pendingAd := a.pendingAd
  pendingToggle := a.pendingToggle
  executed := a.executed
  rolledBack := a.rolledBack
  next := a.next

section BooksFrames

variable (a : App)

@[simp] theorem books_changeConnectDataReally : books (changeConnectDataReally a) = books a := by
  unfold changeConnectDataReally
  split <;> rfl

@[simp] theorem mConnector_changeConnectDataReally :
    (changeConnectDataReally a).mConnector = a.mConnector := by
  unfold changeConnectDataReally
  split <;> rfl

@[simp] theorem books_onStartResult (forConnect connected : Bool) :
    books (onStartResult forConnect connected a) = books a := by
  unfold onStartResult postResult
  split
  · split <;> rfl
  · rfl

@[simp] theorem books_connectResult : books (connectResult a) = books a := by
  simp only [connectResult]
  split <;> rw [books_onStartResult] <;> rfl

@[simp] theorem books_serviceStateCallback (connected : Bool) :
    books (serviceStateCallback connected a) = books a := by
  unfold serviceStateCallback
  split <;> rfl

@[simp] theorem books_onServiceConnected (st : Bg.State) :
    books (onServiceConnected st a) = books a := by
  simp only [onServiceConnected, books_serviceStateCallback]
  split <;> rfl

theorem poll_cases (job : ConnectServiceJob) :
    ∃ job', poll job a = { a with connectServiceJob := some job' } ∨
      poll job a = connectResult { a with connectServiceJob := some job' } := by
  refine ⟨⟨job.toggle, if isConnected a then maxWaitTime else job.connectConsumeTime + 500⟩, ?_⟩
  by_cases htime : (if isConnected a then maxWaitTime else job.connectConsumeTime + 500) <
      maxWaitTime
  · left
    exact if_pos htime
  · right
    exact if_neg htime

@[simp] theorem books_poll (job : ConnectServiceJob) : books (poll job a) = books a := by
  rcases poll_cases a job with ⟨job', h | h⟩
  · rw [h]
    rfl
  · rw [h, books_connectResult]
    rfl

end BooksFrames

/-! ## How a toggle moves -/

def Books.issue (t : Toggle) (b : Books) : Books :=
  { b with executed := b.executed ++ [t.id] }

theorem books_doToggleConnection (t : Toggle) (a : App) :
    books (doToggleConnection t a) = books a ∨
      books (doToggleConnection t a) = (books a).issue t := by
  simp only [doToggleConnection, mConnector_changeConnectDataReally]
  split
  · right
    have hissue : books { changeConnectDataReally a with
        executed := (changeConnectDataReally a).executed ++ [t.id] } = (books a).issue t := by
      rw [← books_changeConnectDataReally a]
      rfl
    rw [← hissue]
    unfold connectorToggle
    dsimp only
    split
    · rfl
    · simp only [disconnectServiceInternal, books_onStartResult]
      rfl
  · left
    exact books_changeConnectDataReally a

theorem books_postToggle (t : Toggle) (a : App) :
    books (postToggle t a) = books a ∨ books (postToggle t a) = (books a).issue t ∨
      books (postToggle t a) = { books a with pendingToggle := some t } := by
  unfold postToggle
  split
  · rcases books_doToggleConnection t a with h | h
    · exact Or.inl h
    · exact Or.inr (Or.inl h)
  · exact Or.inr (Or.inr rfl)

theorem books_postAd (t : Toggle) (a : App) :
    books (postAd t a) = { books a with ads := a.ads ++ [t] } ∨
      books (postAd t a) = { books a with pendingAd := some t } := by
  unfold postAd
  split
  · exact Or.inl rfl
  · exact Or.inr rfl

theorem books_interceptToggleConnection (a : App) :
    books (interceptToggleConnection a) =
      match a.mConnectJob with
      | none => books a
      | some an =>
          { books a with job := none, rolledBack := a.rolledBack ++ [an.toggle.id] } := by
  unfold interceptToggleConnection
  cases hjob : a.mConnectJob with
  | none => rfl
  | some an =>
      have hres : books (resumeConnection (destroyConnectJob a)) =
          { books a with job := none } := by
        unfold resumeConnection
        split <;> rfl
      dsimp only
      split <;> simp only [books, Books.mk.injEq] at hres ⊢ <;> simp [hres]

/-! ## The invariant -/

/-- The toggles that are queued for execution or have been executed. -/
def Books.tracked (b : Books) : List Nat :=
  (b.ads ++ b.pendingAd.toList ++ b.pendingToggle.toList).map Toggle.id ++ b.executed

/-- Where a toggle is, it is only once; a toggle rolled back is nowhere else. -/
structure Balanced (b : Books) : Prop where
  nodup : b.tracked.Nodup
  kept : ∀ i ∈ b.tracked, i ∉ b.rolledBack
  fresh : ∀ i ∈ b.tracked ++ b.rolledBack, i < b.next
  job_fresh : ∀ an, b.job = some an → an.toggle.id < b.next ∧ an.toggle.id ∉ b.rolledBack
  waiting : ∀ an, b.job = some an → an.ended = false → an.toggle.id ∉ b.tracked
  ended : ∀ an, b.job = some an → an.ended = true →
    ∀ t ∈ b.ads ++ b.pendingAd.toList, t.id ≠ an.toggle.id

/-- A toggle moves on: what is tracked afterwards was tracked before, or is the toggle itself,
which was not. -/
theorem Balanced.move {b c : Books} {i : Nat} (hb : Balanced b)
    (hcount : ∀ j, c.tracked.count j ≤ b.tracked.count j + [i].count j) (hi : i ∉ b.tracked)
    (hroll : c.rolledBack = b.rolledBack) (hnext : c.next = b.next)
    (hfresh : i < b.next ∧ i ∉ b.rolledBack)
    (hjob : ∀ an, c.job = some an → an.toggle.id < c.next ∧ an.toggle.id ∉ c.rolledBack)
    (hwait : ∀ an, c.job = some an → an.ended = false → an.toggle.id ∉ c.tracked)
    (hend : ∀ an, c.job = some an → an.ended = true →
      ∀ t ∈ c.ads ++ c.pendingAd.toList, t.id ≠ an.toggle.id) : Balanced c := by
  -- by counting: a toggle that turns up is an old one, or the one that moves
  have hmem : ∀ j ∈ c.tracked, j ∈ b.tracked ∨ j = i := by
    intro j hj
    by_contra hno
    have hb0 : b.tracked.count j = 0 := List.count_eq_zero.2 (fun h => hno (Or.inl h))
    have hi0 : [i].count j = 0 := by
      refine List.count_eq_zero.2 ?_
      intro h
      exact hno (Or.inr (List.mem_singleton.1 h))
    have := hcount j
    have hpos := List.count_pos_iff.2 hj
    omega
  refine ⟨?_, ?_, ?_, hjob, hwait, hend⟩
  · refine List.nodup_iff_count_le_one.2 ?_
    intro j
    have hle := hcount j
    by_cases hj : j = i
    · subst hj
      have hb0 : b.tracked.count j = 0 := List.count_eq_zero.2 hi
      have hi1 : [j].count j = 1 := by simp
      omega
    · have hb1 := List.nodup_iff_count_le_one.1 hb.nodup j
      have hi0 : [i].count j = 0 := by simp [List.count_eq_zero, hj]
      omega
  · intro j hj
    rw [hroll]
    rcases hmem j hj with hold | rfl
    · exact hb.kept j hold
    · exact hfresh.2
  · intro j hj
    rw [hnext]
    rcases List.mem_append.1 hj with hj | hj
    · rcases hmem j hj with hold | rfl
      · exact hb.fresh j (List.mem_append_left _ hold)
      · exact hfresh.1
    · rw [hroll] at hj
      exact hb.fresh j (List.mem_append_right _ hj)

/-! ## One step -/

section Moves

variable {b : Books} {t : Toggle}

/-- The animator's toggle is issued by the last frame, or queued while the activity is stopped. -/
theorem Balanced.endFrame {an : Animator} (hb : Balanced b) (hjob : b.job = some an)
    (hwait : an.ended = false) {c : Books}
    (hc : c = { b with job := some { an with ended := true } } ∨
      c = ({ b with job := some { an with ended := true } } : Books).issue an.toggle ∨
      c = { b with job := some { an with ended := true }, pendingToggle := some an.toggle }) :
    Balanced c := by
  have hi := hb.waiting an hjob hwait
  have hfresh := hb.job_fresh an hjob
  -- the animator has not ended, so its toggle does not wait for an ad yet
  have hads : ∀ t ∈ b.ads ++ b.pendingAd.toList, t.id ≠ an.toggle.id := by
    intro t ht heq
    refine hi ?_
    rw [← heq]
    exact List.mem_append_left _ (List.mem_map_of_mem (List.mem_append_left _ ht))
  refine hb.move (i := an.toggle.id) ?_ hi ?_ ?_ hfresh ?_ ?_ ?_
  · intro j
    rcases hc with rfl | rfl | rfl
    · simp [Books.tracked]
    · simp [Books.tracked, Books.issue]
      omega
    · simp [Books.tracked, List.count_cons]
      omega
  · rcases hc with rfl | rfl | rfl <;> rfl
  · rcases hc with rfl | rfl | rfl <;> rfl
  · intro an' han
    have : an'.toggle.id = an.toggle.id := by
      rcases hc with rfl | rfl | rfl <;> cases han <;> rfl
    rw [this]
    rcases hc with rfl | rfl | rfl <;> exact hfresh
  · intro an' han hend
    rcases hc with rfl | rfl | rfl <;> cases han <;> cases hend
  · intro an' han _
    rcases hc with rfl | rfl | rfl <;> cases han <;> exact hads

/-- The animator's toggle waits for an ad. -/
theorem Balanced.adFrame {an : Animator} (hb : Balanced b) (hjob : b.job = some an)
    (hwait : an.ended = false) {c : Books}
    (hc : c = { b with job := none, ads := b.ads ++ [an.toggle] } ∨
      c = { b with job := none, pendingAd := some an.toggle }) : Balanced c := by
  have hi := hb.waiting an hjob hwait
  have hfresh := hb.job_fresh an hjob
  -- the animator is gone, and with it all that is said about its toggle
  have hnone : ∀ an', c.job = some an' → False := by
    intro an' han
    rcases hc with rfl | rfl <;> cases han
  refine hb.move (i := an.toggle.id) ?_ hi ?_ ?_ hfresh (fun an' h => (hnone an' h).elim)
    (fun an' h => (hnone an' h).elim) (fun an' h => (hnone an' h).elim)
  · intro j
    rcases hc with rfl | rfl
    · simp [Books.tracked, List.count_cons]
      omega
    · simp [Books.tracked, List.count_cons]
      omega
  · rcases hc with rfl | rfl <;> rfl
  · rcases hc with rfl | rfl <;> rfl

/-- A toggle that is tracked already moves to another place. -/
theorem Balanced.shift {c : Books} (hb : Balanced b)
    (hcount : ∀ j, c.tracked.count j ≤ b.tracked.count j) (hjob : c.job = b.job)
    (hroll : c.rolledBack = b.rolledBack) (hnext : c.next = b.next)
    (hads : ∀ t ∈ c.ads ++ c.pendingAd.toList, t ∈ b.ads ++ b.pendingAd.toList) :
    Balanced c := by
  have hsub : ∀ j ∈ c.tracked, j ∈ b.tracked := by
    intro j hj
    have hpos := List.count_pos_iff.2 hj
    have := hcount j
    exact List.count_pos_iff.1 (by omega)
  refine ⟨?_, ?_, ?_, ?_, ?_, ?_⟩
  · refine List.nodup_iff_count_le_one.2 ?_
    intro j
    exact Nat.le_trans (hcount j) (List.nodup_iff_count_le_one.1 hb.nodup j)
  · intro j hj
    rw [hroll]
    exact hb.kept j (hsub j hj)
  · intro j hj
    rw [hnext]
    rw [hroll] at hj
    refine hb.fresh j ?_
    rcases List.mem_append.1 hj with hj | hj
    · exact List.mem_append_left _ (hsub j hj)
    · exact List.mem_append_right _ hj
  · rw [hjob, hroll, hnext]
    exact hb.job_fresh
  · intro an han hend hmem
    exact hb.waiting an (hjob ▸ han) hend (hsub _ hmem)
  · intro an han hend t ht
    exact hb.ended an (hjob ▸ han) hend t (hads t ht)

/-- A new toggle is prepared; the one in the animator, if any, is dropped. -/
theorem Balanced.prepare (forConnect : Bool) (hb : Balanced b) :
    Balanced { b with job := some { toggle := ⟨b.next, forConnect⟩ }, next := b.next + 1 } := by
  refine ⟨hb.nodup, hb.kept, ?_, ?_, ?_, ?_⟩
  · intro j hj
    have := hb.fresh j hj
    dsimp only
    omega
  · intro an han
    cases han
    refine ⟨Nat.lt_succ_self _, ?_⟩
    intro hmem
    have := hb.fresh b.next (List.mem_append_right _ hmem)
    omega
  · intro an han _ hmem
    cases han
    have := hb.fresh b.next (List.mem_append_left _ hmem)
    omega
  · intro an han hend
    cases han
    cases hend

/-- An interception takes the toggle out of the animator for good. -/
theorem Balanced.rollBack {an : Animator} (hb : Balanced b) (hjob : b.job = some an)
    (hexec : an.toggle.id ∉ b.executed)
    (hpend : ∀ t, b.pendingToggle = some t → t.id ≠ an.toggle.id) :
    Balanced { b with job := none, rolledBack := b.rolledBack ++ [an.toggle.id] } := by
  -- an animator that has ended may still hold a toggle that is on its way; the ones waiting for an
  -- ad are others
  have hnot : an.toggle.id ∉ b.tracked := by
    cases hend : an.ended with
    | false => exact hb.waiting an hjob hend
    | true =>
        intro hmem
        simp only [Books.tracked, List.mem_append, List.mem_map] at hmem
        rcases hmem with ⟨t, ht, heq⟩ | hmem
        · rcases ht with ht | ht
          · exact hb.ended an hjob hend t (List.mem_append.2 ht) heq
          · exact hpend t (by simpa using ht) heq
        · exact hexec hmem
  refine ⟨hb.nodup, ?_, ?_, ?_, ?_, ?_⟩
  · intro j hj hmem
    rcases List.mem_append.1 hmem with hmem | hmem
    · exact hb.kept j hj hmem
    · rw [List.mem_singleton] at hmem
      exact hnot (hmem ▸ hj)
  · intro j hj
    rw [← List.append_assoc] at hj
    rcases List.mem_append.1 hj with hj | hj
    · exact hb.fresh j hj
    · rw [List.mem_singleton] at hj
      rw [hj]
      exact (hb.job_fresh an hjob).1
  · intro an' h
    cases h
  · intro an' h
    cases h
  · intro an' h
    cases h

end Moves

theorem balanced_onPermission {a : App} (granted : Bool) (h : Balanced (books a)) :
    Balanced (books (onPermission granted a)) := by
  unfold onPermission
  split
  · exact h.prepare true
  · rw [books_changeConnectDataReally]
    exact h

theorem balanced_openConnection {a : App} (env : Environment) (h : Balanced (books a)) :
    Balanced (books (openConnection env a)) := by
  rcases openConnection_cases env a with heq | heq | heq | heq
  · rw [heq, books_changeConnectDataReally]
    exact h
  · rw [heq]
    exact h
  · rw [heq]
    exact h.prepare true
  · rw [heq]
    exact h

theorem balanced_intercept {a : App} (h : Balanced (books a)) (hok : NotIssued a) :
    Balanced (books (interceptToggleConnection a)) := by
  rw [books_interceptToggleConnection]
  cases hjob : a.mConnectJob with
  | none => exact h
  | some an => exact h.rollBack hjob (hok an hjob).1 (hok an hjob).2

/-- A queued toggle is taken off its queue and posted. -/
theorem Balanced.post {a b c : Books} {t : Toggle} (ha : Balanced a)
    (hc : c = b ∨ c = b.issue t ∨ c = { b with pendingToggle := some t })
    (hcount : ∀ j, b.tracked.count j + [t.id].count j ≤ a.tracked.count j)
    (hjob : b.job = a.job) (hroll : b.rolledBack = a.rolledBack) (hnext : b.next = a.next)
    (hads : ∀ t ∈ b.ads ++ b.pendingAd.toList, t ∈ a.ads ++ a.pendingAd.toList) :
    Balanced c := by
  refine ha.shift ?_ ?_ ?_ ?_ ?_
  · intro j
    have hle := hcount j
    rcases hc with rfl | rfl | rfl
    · omega
    · simp [Books.tracked, Books.issue] at hle ⊢
      omega
    · simp [Books.tracked, List.count_cons] at hle ⊢
      omega
  · rcases hc with rfl | rfl | rfl <;> exact hjob
  · rcases hc with rfl | rfl | rfl <;> exact hroll
  · rcases hc with rfl | rfl | rfl <;> exact hnext
  · rcases hc with rfl | rfl | rfl <;> exact hads

theorem balanced_adCompleted {a : App} {t : Toggle} (ht : t ∈ a.ads) (h : Balanced (books a)) :
    Balanced (books (postToggle t { a with ads := a.ads.erase t })) := by
  refine h.post (books_postToggle t _) ?_ rfl rfl rfl ?_
  · intro j
    have hperm := ((List.perm_cons_erase ht).map Toggle.id).count_eq j
    simp [books, Books.tracked, List.count_cons] at hperm ⊢
    omega
  · intro t' ht'
    rcases List.mem_append.1 ht' with ht' | ht'
    · exact List.mem_append_left _ (List.mem_of_mem_erase ht')
    · exact List.mem_append_right _ ht'

/-- `onStart` up to the delivery of a pending toggle. -/
def deliverAd (a : App) : App :=
  let a := { a with active := true }
  let a := if a.pendingResult then { a with pendingResult := false, results := a.results + 1 } else a
  match a.pendingAd with
  | none => a
  | some t => { a with pendingAd := none, ads := a.ads ++ [t] }

theorem onStart_eq (a : App) :
    onStart a =
      match (deliverAd a).pendingToggle with
      | none => deliverAd a
      | some t => doToggleConnection t { deliverAd a with pendingToggle := none } :=
  rfl

theorem books_deliverAd (a : App) :
    books (deliverAd a) =
      { books a with pendingAd := none, ads := a.ads ++ a.pendingAd.toList } := by
  unfold deliverAd
  dsimp only
  cases had : a.pendingAd with
  | none => cases hres : a.pendingResult <;> simp [books, had]
  | some t => cases hres : a.pendingResult <;> simp [books, had]

theorem balanced_onStart {a : App} (h : Balanced (books a)) : Balanced (books (onStart a)) := by
  have hdeliver : Balanced (books (deliverAd a)) := by
    refine h.shift ?_ ?_ ?_ ?_ ?_ <;> rw [books_deliverAd]
    · intro j
      simp [books, Books.tracked]
    · intro t ht
      simpa [books] using ht
  rw [onStart_eq]
  cases hpend : (deliverAd a).pendingToggle with
  | none => exact hdeliver
  | some t =>
      refine hdeliver.post (b := books { deliverAd a with pendingToggle := none }) (t := t)
        ?_ ?_ rfl rfl rfl (fun t' ht' => ht')
      · rcases books_doToggleConnection t { deliverAd a with pendingToggle := none } with heq | heq
        · exact Or.inl heq
        · exact Or.inr (Or.inl heq)
      · intro j
        simp [books, Books.tracked, hpend, List.count_cons]
        omega

theorem balanced_frame {a : App} {an : Animator} (progress : Nat) (ad : Bool)
    (hjob : a.mConnectJob = some an) (hwait : an.ended = false) (h : Balanced (books a)) :
    Balanced (books (onFrame an progress ad a)) := by
  unfold onFrame
  split
  · split
    · rcases books_postAd an.toggle (destroyConnectJob a) with heq | heq
      · rw [heq]
        exact h.adFrame hjob hwait (Or.inl rfl)
      · rw [heq]
        exact h.adFrame hjob hwait (Or.inr rfl)
    · exact h
  · split
    · refine h.endFrame hjob hwait ?_
      rcases books_postToggle an.toggle { a with mConnectJob := some { an with ended := true } }
        with heq | heq | heq
      · exact Or.inl heq
      · exact Or.inr (Or.inl heq)
      · exact Or.inr (Or.inr heq)
    · exact h

theorem balanced_step {a b : App} {e : Event} (h : Balanced (books a)) (hok : Unissued a e)
    (hstep : step a e = some b) : Balanced (books b) := by
  cases steps_of_step hstep with
  | toggleConnection env =>
      rcases toggleConnection_cases env a with heq | ⟨-, heq⟩ | ⟨-, heq⟩
      · rw [heq]
        exact h
      · rw [heq]
        exact h.prepare false
      · rw [heq]
        exact balanced_openConnection env h
  | linkVpn env =>
      rcases linkVpn_cases env a with heq | heq
      · rw [heq]
        exact h
      · rw [heq]
        exact balanced_openConnection env h
  | onActivityResult env c action =>
      cases action with
      | connect => exact balanced_openConnection env h
      | disconnect => exact h.prepare false
  | permissionResult granted _ => exact balanced_onPermission granted h
  | frame an progress ad hjob hwait => exact balanced_frame progress ad hjob hwait h
  | adCompleted t ht => exact balanced_adCompleted ht h
  | intercept => exact balanced_intercept h hok
  | onStart _ => exact balanced_onStart h
  | onDestroy => exact balanced_intercept h hok
  | poll job _ =>
      rw [books_poll]
      exact h
  | onServiceConnected st _ =>
      rw [books_onServiceConnected]
      exact h
  | onServiceDisconnected _ =>
      rw [onServiceDisconnected, books_serviceStateCallback]
      exact h
  -- the other events do not touch the books
  | onStop => exact h
  | resultShown _ => exact h
  | timerTick _ => exact h
  | stateChanged st _ => exact h
  | onBinderDied _ => exact h

/-- An interception that meets no issued toggle has nothing to leave alone. -/
theorem interceptToggleConnection_of_executed {a : App} (hok : NotIssued a)
    (hexec : ∀ an, a.mConnectJob = some an → an.toggle.id ∈ a.executed) :
    interceptToggleConnection a = a := by
  cases hjob : a.mConnectJob with
  | none => rw [interceptToggleConnection, hjob]
  | some an => exact absurd (hexec an hjob) (hok an hjob).1

theorem leavesAlone_of_unissued {a b : App} {e : Event} (hok : Unissued a e)
    (hstep : step a e = some b) : LeavesAlone a b e := by
  cases e with
  | intercept =>
      intro hexec
      cases hstep
      rw [interceptToggleConnection_of_executed hok hexec]
      exact ⟨rfl, rfl⟩
  | onDestroy =>
      intro hexec
      cases hstep
      rw [onDestroy, interceptToggleConnection_of_executed hok hexec]
      exact ⟨rfl, rfl⟩
  | _ => trivial

/-! ## All runs -/

/-- In every run whose interceptions meet no toggle that has been issued or queued, every toggle
is executed at most once, and none is both executed and rolled back. -/
theorem resolved_of_unissued {h : List (App × Event)} {a : App} (hrun : Run machine h a)
    (hok : ∀ p ∈ h, Unissued p.1 p.2) :
    Resolved a ∧
      ∀ p ∈ h, Resolved p.1 ∧ ∀ b, step p.1 p.2 = some b → LeavesAlone p.1 b p.2 := by
  have hinit : Balanced (books machine.init) := by
    refine ⟨List.nodup_nil, ?_, ?_, ?_, ?_, ?_⟩ <;> intro x hx <;> cases hx
  have hstep : ∀ a e b, Balanced (books a) → Unissued a e → machine.step a e = some b →
      Balanced (books b) := fun a e b => balanced_step
  have hres : ∀ a, Balanced (books a) → Resolved a := by
    intro a ha
    refine ⟨(List.nodup_append.1 ha.nodup).2.1, ?_⟩
    intro i hi
    exact ha.kept i (List.mem_append_right _ hi)
  refine ⟨hres a (hrun.invariant (I := fun a => Balanced (books a)) hinit hstep hok), ?_⟩
  intro p hp
  refine ⟨hres p.1 (hrun.invariant_of_mem (I := fun a => Balanced (books a)) hinit hstep hok hp),
    ?_⟩
  intro b hb
  exact leavesAlone_of_unissued (hok p hp) hb

/-- Connect: an ad takes the toggle out of the animator, a hot start intercepts while it shows,
and its completion issues the command. -/
def adThenIntercept : List Event :=
  [.toggleConnection {}, .frame 50 true, .intercept, .adCompleted 0]

theorem resolved_of_unissued_ad :
    ∃ h a, Run machine h a ∧ machine.play adThenIntercept = some (h, a) ∧
      a.executed = [0] ∧ Resolved a := by
  refine ⟨_, _, run_of_play _ adThenIntercept rfl, rfl, by decide, ?_⟩
  refine (resolved_of_unissued (run_of_play _ adThenIntercept rfl) ?_).1
  intro p hp
  simp only [List.nil_append, List.cons_append, List.mem_cons, List.not_mem_nil, or_false] at hp
  rcases hp with rfl | rfl | rfl | rfl
  · trivial
  · trivial
  · intro an han
    cases han
  · trivial

/-- Connect: the last frame issues the command, and a hot start intercepts right after it. -/
def lateIntercept : List Event :=
  [.toggleConnection {}, .frame 100 false, .intercept]

/-- The toggle is both executed and rolled back, and the state and the button are changed. -/
theorem lateIntercept_not_resolved :
    ∃ h a, Run machine h a ∧ machine.play lateIntercept = some (h, a) ∧
      a.state = .stopped ∧ a.clickable = true ∧ ¬ Resolved a := by
  refine ⟨_, _, run_of_play _ lateIntercept rfl, rfl, by decide, by decide, ?_⟩
  intro hres
  exact hres.2 0 (by decide) (by decide)

end Main
end SpinVpn
