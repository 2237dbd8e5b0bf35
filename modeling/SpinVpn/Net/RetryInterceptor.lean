import Mathlib.Data.List.Forall2
import Mathlib.Data.Nat.Find

/-!
# RetryInterceptor — sending a request again

`RetryInterceptor` (`net/RetryInterceptor.kt`) sends a request again while its response is not
successful, at most `maxRetry` times.  The retries are counted in a field, and nothing sets it back:
all requests of the client draw on one number of retries.

So the requests of a history are all sent as often as `maxRetry` says exactly if the retries that they
need come to no more than `maxRetry` altogether (`sentAsSaid_iff`).
-/

namespace SpinVpn
namespace Net

/-- What comes of one `chain.proceed`. -/
inductive Outcome
  | response (code : Int)
  /-- an `IOException`, which `intercept` does not catch -/
  | exception
  deriving DecidableEq, Repr

/-- `Response.isSuccessful` -/
def Outcome.isSuccessful : Outcome → Bool
  | .response code => 200 ≤ code && code ≤ 299
  | .exception => false

/-- The request is over with this outcome, whatever retries are left. -/
def Outcome.isLast : Outcome → Bool
  | .response code => (Outcome.response code).isSuccessful
  | .exception => true

structure RetryInterceptor where
  maxRetry : Int := 0
  retriedNum : Int := 0
  deriving DecidableEq, Repr

/-- What has become of a request. -/
structure Intercepted where
  interceptor : RetryInterceptor
  /-- how often the request was sent -/
  sent : Nat
  outcome : Outcome
  deriving DecidableEq, Repr

namespace RetryInterceptor

/-- `chain.proceed` and the loop behind it; `outcomes` are the outcomes of the request, sent for the
first time, the second and so on, and `sent` is how often it has been sent. -/
def proceed (outcomes : Nat → Outcome) (sent : Nat) (i : RetryInterceptor) : Intercepted :=
  match outcomes sent with
  | .exception => ⟨i, sent + 1, .exception⟩
  | .response code =>
      if (Outcome.response code).isSuccessful = false ∧ i.retriedNum < i.maxRetry then
        proceed outcomes (sent + 1) { i with retriedNum := i.retriedNum + 1 }
      else ⟨i, sent + 1, .response code⟩
termination_by (i.maxRetry - i.retriedNum).toNat
decreasing_by
  omega

def intercept (outcomes : Nat → Outcome) (i : RetryInterceptor) : Intercepted :=
  i.proceed outcomes 0

/-- How often each of the requests is sent. -/
def interceptAll (i : RetryInterceptor) : List (Nat → Outcome) → List Nat
  | [] => []
  | outcomes :: rest =>
      let r := i.intercept outcomes
      r.sent :: r.interceptor.interceptAll rest

end RetryInterceptor

/-! ## What is said -/

/-- A request is sent up to its last outcome, but not more than `1 + maxRetry` times. -/
def SentAsSaid (maxRetry : Int) (outcomes : Nat → Outcome) (sent : Nat) : Prop :=
  (∃ k, (outcomes k).isLast = true ∧ (∀ j < k, (outcomes j).isLast = false) ∧
      (sent : Int) = min ((k : Int) + 1) (1 + maxRetry)) ∨
    ((∀ j, (outcomes j).isLast = false) ∧ (sent : Int) = 1 + maxRetry)

/-- How many of the first `n` outcomes come before the last one. -/
def retries (outcomes : Nat → Outcome) (n : Nat) : Nat :=
  (List.range n).findIdx (fun j => (outcomes j).isLast)

/-- The retries that the requests need, up to `n` for each. -/
def retriesOfAll (n : Nat) : List (Nat → Outcome) → Nat
  | [] => 0
  | outcomes :: rest => retries outcomes n + retriesOfAll n rest

section Retries

variable {outcomes : Nat → Outcome} {n k : Nat}

theorem retries_le (outcomes : Nat → Outcome) (n : Nat) : retries outcomes n ≤ n := by
  have hle : (List.range n).findIdx (fun j => (outcomes j).isLast) ≤ (List.range n).length :=
    List.findIdx_le_length
  rwa [List.length_range] at hle

/-- The number is `k` if the first `k` outcomes go on, and the next one is the last or out of range. -/
theorem retries_eq (hk : k ≤ n) (hbefore : ∀ j < k, (outcomes j).isLast = false)
    (hlast : k = n ∨ (outcomes k).isLast = true) : retries outcomes n = k := by
  rcases Nat.lt_or_eq_of_le hk with hlt | rfl
  · have htrue : (outcomes k).isLast = true := hlast.resolve_left (Nat.ne_of_lt hlt)
    rw [retries, List.findIdx_eq (by rwa [List.length_range])]
    simp only [List.getElem_range]
    exact ⟨htrue, fun j hj => hbefore j hj⟩
  · have hnone : (List.range k).findIdx (fun j => (outcomes j).isLast) = (List.range k).length := by
      rw [List.findIdx_eq_length]
      intro j hj
      exact hbefore j (List.mem_range.1 hj)
    rw [retries, hnone, List.length_range]

theorem retries_spec (outcomes : Nat → Outcome) (n : Nat) :
    (∀ j < retries outcomes n, (outcomes j).isLast = false) ∧
      (retries outcomes n = n ∨ (outcomes (retries outcomes n)).isLast = true) := by
  constructor
  · intro j hj
    have hbefore := List.not_of_lt_findIdx hj
    simpa only [List.getElem_range] using hbefore
  · rcases Nat.lt_or_eq_of_le (retries_le outcomes n) with hlt | heq
    · have hlength : retries outcomes n < (List.range n).length := by rwa [List.length_range]
      have hfound : (outcomes (List.range n)[retries outcomes n]).isLast = true :=
        List.findIdx_getElem (p := fun j => (outcomes j).isLast)
      rw [List.getElem_range] at hfound
      exact Or.inr hfound
    · exact Or.inl heq

theorem retries_succ (outcomes : Nat → Outcome) (n : Nat) :
    retries outcomes (n + 1) =
      if (outcomes 0).isLast then 0 else retries (fun j => outcomes (j + 1)) n + 1 := by
  rw [retries, List.range_succ_eq_map, List.findIdx_cons, List.findIdx_map]
  cases (outcomes 0).isLast with
  | true => rfl
  | false => rfl

/-- With fewer retries left a request takes what it needs, or all that are left. -/
theorem retries_of_le {m : Nat} (h : m ≤ n) : retries outcomes m = min (retries outcomes n) m := by
  obtain ⟨hbefore, hlast⟩ := retries_spec outcomes n
  have hle := retries_le outcomes n
  rcases Nat.le_total (retries outcomes n) m with hfits | hshort
  · rw [Nat.min_eq_left hfits]
    refine retries_eq hfits hbefore ?_
    rcases hlast with hall | hlast
    · exact Or.inl (by omega)
    · exact Or.inr hlast
  · rw [Nat.min_eq_right hshort]
    exact retries_eq (Nat.le_refl m) (fun j hj => hbefore j (by omega)) (Or.inl rfl)

end Retries

/-! ## What is done -/

namespace RetryInterceptor

def left (i : RetryInterceptor) : Nat :=
  (i.maxRetry - i.retriedNum).toNat

section Proceed

variable {outcomes : Nat → Outcome} {sent : Nat} {i : RetryInterceptor}

theorem proceed_of_last (h : (outcomes sent).isLast = true ∨ i.left = 0) :
    i.proceed outcomes sent = ⟨i, sent + 1, outcomes sent⟩ := by
  rw [proceed]
  cases houtcome : outcomes sent with
  | exception => rfl
  | response code =>
      refine if_neg ?_
      rintro ⟨hfailed, hleft⟩
      rcases h with hlast | hnone
      · rw [houtcome, Outcome.isLast, hfailed] at hlast
        cases hlast
      · rw [left] at hnone
        omega

theorem proceed_of_left (hlast : (outcomes sent).isLast = false) (hleft : 0 < i.left) :
    i.proceed outcomes sent =
      ({ i with retriedNum := i.retriedNum + 1 } : RetryInterceptor).proceed outcomes (sent + 1) := by
  rw [proceed]
  cases houtcome : outcomes sent with
  | exception =>
      rw [houtcome] at hlast
      cases hlast
  | response code =>
      rw [houtcome] at hlast
      rw [left] at hleft
      exact if_pos ⟨hlast, by omega⟩

end Proceed

/-- The induction is on the retries that are left. -/
theorem proceed_spec (outcomes : Nat → Outcome) (n : Nat) :
    ∀ (sent : Nat) (i : RetryInterceptor), i.left = n →
      (i.proceed outcomes sent).sent = sent + 1 + retries (fun j => outcomes (sent + j)) n ∧
        (i.proceed outcomes sent).interceptor =
          { i with retriedNum := i.retriedNum + retries (fun j => outcomes (sent + j)) n } := by
  induction n with
  | zero =>
      intro sent i hleft
      have hnone : retries (fun j => outcomes (sent + j)) 0 = 0 := rfl
      rw [proceed_of_last (Or.inr hleft), hnone]
      exact ⟨rfl, by simp⟩
  | succ n ih =>
      intro sent i hleft
      have hretries := retries_succ (fun j => outcomes (sent + j)) n
      cases hlast : (outcomes sent).isLast with
      | true =>
          have hnone : retries (fun j => outcomes (sent + j)) (n + 1) = 0 := by
            rw [hretries]
            exact if_pos hlast
          rw [proceed_of_last (Or.inl hlast), hnone]
          exact ⟨rfl, by simp⟩
      | false =>
          have hmore : retries (fun j => outcomes (sent + j)) (n + 1) =
              retries (fun j => outcomes (sent + 1 + j)) n + 1 := by
            have hshift : (fun j => outcomes (sent + (j + 1))) = fun j => outcomes (sent + 1 + j) := by
              funext j
              rw [Nat.add_right_comm, Nat.add_assoc]
            rw [hretries, ← hshift]
            exact if_neg (by simp [hlast])
          have hnext : ({ i with retriedNum := i.retriedNum + 1 } : RetryInterceptor).left = n := by
            simp only [left] at hleft ⊢
            omega
          obtain ⟨hsent, hcount⟩ := ih (sent + 1) _ hnext
          rw [proceed_of_left hlast (by omega), hsent, hcount, hmore]
          refine ⟨by omega, ?_⟩
          simp only [RetryInterceptor.mk.injEq, true_and]
          omega

theorem intercept_spec (outcomes : Nat → Outcome) (i : RetryInterceptor) :
    (i.intercept outcomes).sent = 1 + retries outcomes i.left ∧
      (i.intercept outcomes).interceptor =
        { i with retriedNum := i.retriedNum + retries outcomes i.left } := by
  have hshift : (fun j => outcomes (0 + j)) = outcomes := by
    funext j
    rw [Nat.zero_add]
  have hspec := proceed_spec outcomes i.left 0 i rfl
  rwa [hshift, Nat.zero_add] at hspec

end RetryInterceptor

/-! ## The law -/

theorem retries_of_first {outcomes : Nat → Outcome} {n k : Nat} (hlast : (outcomes k).isLast = true)
    (hbefore : ∀ j < k, (outcomes j).isLast = false) : retries outcomes n = min k n := by
  rcases Nat.le_total k n with hfits | hshort
  · rw [Nat.min_eq_left hfits]
    exact retries_eq hfits hbefore (Or.inr hlast)
  · rw [Nat.min_eq_right hshort]
    exact retries_eq (Nat.le_refl n) (fun j hj => hbefore j (by omega)) (Or.inl rfl)

/-- What is said, in the retries that a request needs. -/
theorem sentAsSaid_iff_retries {maxRetry : Int} (outcomes : Nat → Outcome) {sent : Nat}
    (hpos : 0 < sent) :
    SentAsSaid maxRetry outcomes sent ↔
      0 ≤ maxRetry ∧ sent = 1 + retries outcomes maxRetry.toNat := by
  by_cases hends : ∃ k, (outcomes k).isLast = true
  · -- the first of the outcomes after which the request is over
    have hlast := Nat.find_spec hends
    have hbefore : ∀ j < Nat.find hends, (outcomes j).isLast = false := by
      intro j hj
      simpa using Nat.find_min hends hj
    rw [retries_of_first hlast hbefore]
    constructor
    · rintro (⟨k, hk, hkbefore, hsent⟩ | ⟨hnone, -⟩)
      · have hfirst : k = Nat.find hends := by
          refine Nat.le_antisymm ?_ (Nat.find_min' hends hk)
          by_contra hlt
          have hgoes := hkbefore _ (Nat.lt_of_not_le hlt)
          rw [hlast] at hgoes
          cases hgoes
        subst hfirst
        omega
      · rw [hnone] at hlast
        cases hlast
    · rintro ⟨hnonneg, hsent⟩
      exact Or.inl ⟨_, hlast, hbefore, by omega⟩
  · have hnone : ∀ j, (outcomes j).isLast = false := by
      intro j
      by_contra hj
      exact hends ⟨j, by simpa using hj⟩
    have hall : retries outcomes maxRetry.toNat = maxRetry.toNat :=
      retries_eq (Nat.le_refl _) (fun j _ => hnone j) (Or.inl rfl)
    rw [hall]
    constructor
    · rintro (⟨k, hk, -, -⟩ | ⟨-, hsent⟩)
      · rw [hnone] at hk
        cases hk
      · omega
    · rintro ⟨hnonneg, hsent⟩
      exact Or.inr ⟨hnone, by omega⟩

/-- The induction is on the requests still to come. -/
theorem forall₂_sentAsSaid_iff (requests : List (Nat → Outcome)) :
    ∀ i : RetryInterceptor, 0 ≤ i.retriedNum → i.retriedNum ≤ i.maxRetry →
      (List.Forall₂ (SentAsSaid i.maxRetry) requests (i.interceptAll requests) ↔
        i.retriedNum + retriesOfAll i.maxRetry.toNat requests ≤ i.maxRetry) := by
  induction requests with
  | nil =>
      intro i _ hle
      exact iff_of_true List.Forall₂.nil (by simpa [retriesOfAll] using hle)
  | cons outcomes rest ih =>
      intro i hnonneg hle
      obtain ⟨hsent, hcount⟩ := i.intercept_spec outcomes
      have hleft : retries outcomes i.left = min (retries outcomes i.maxRetry.toNat) i.left := by
        refine retries_of_le ?_
        rw [RetryInterceptor.left]
        omega
      have hbound := retries_le outcomes i.left
      have hlength : i.left = (i.maxRetry - i.retriedNum).toNat := rfl
      have hrest : List.Forall₂ (SentAsSaid i.maxRetry) rest
            ((i.intercept outcomes).interceptor.interceptAll rest) ↔
          i.retriedNum + retries outcomes i.left + retriesOfAll i.maxRetry.toNat rest ≤ i.maxRetry := by
        rw [hcount]
        exact ih { i with retriedNum := i.retriedNum + retries outcomes i.left } (by simp only; omega)
          (by simp only; omega)
      have hfirst : SentAsSaid i.maxRetry outcomes (i.intercept outcomes).sent ↔
          0 ≤ i.maxRetry ∧
            (i.intercept outcomes).sent = 1 + retries outcomes i.maxRetry.toNat :=
        sentAsSaid_iff_retries outcomes (by omega)
      rw [RetryInterceptor.interceptAll, List.forall₂_cons, hrest, hfirst, hsent, retriesOfAll,
        Int.natCast_add]
      omega

/-- All requests of a history are sent as often as is said exactly if the retries that they need,
`maxRetry` at most for each of them, come to no more than `maxRetry` altogether. -/
theorem sentAsSaid_iff (maxRetry : Int) (requests : List (Nat → Outcome)) :
    List.Forall₂ (SentAsSaid maxRetry) requests
        (({ maxRetry := maxRetry } : RetryInterceptor).interceptAll requests) ↔
      requests = [] ∨ 0 ≤ maxRetry ∧ (retriesOfAll maxRetry.toNat requests : Int) ≤ maxRetry := by
  by_cases hnonneg : 0 ≤ maxRetry
  · have hall := forall₂_sentAsSaid_iff requests { maxRetry := maxRetry } (Int.le_refl 0) hnonneg
    rw [hall, Int.zero_add]
    constructor
    · intro hle
      exact Or.inr ⟨hnonneg, hle⟩
    · rintro (rfl | ⟨-, hle⟩)
      · exact hnonneg
      · exact hle
  · cases requests with
    | nil => exact iff_of_true List.Forall₂.nil (Or.inl rfl)
    | cons outcomes rest =>
        -- a request is sent once in any case
        refine iff_of_false ?_ (by simp [hnonneg])
        intro h
        rw [RetryInterceptor.interceptAll, List.forall₂_cons] at h
        have hsent := (RetryInterceptor.intercept_spec outcomes { maxRetry := maxRetry }).1
        exact hnonneg ((sentAsSaid_iff_retries outcomes (by omega)).1 h.1).1

/-! ## Two requests -/

/-- The server does not answer well at all. -/
def unavailable : Nat → Outcome :=
  fun _ => .response 503

/-- The second of the two requests is sent once only. -/
theorem unavailable_not_sentAsSaid :
    ({ maxRetry := 1 } : RetryInterceptor).interceptAll [unavailable, unavailable] = [2, 1] ∧
      ¬ List.Forall₂ (SentAsSaid 1) [unavailable, unavailable]
        (({ maxRetry := 1 } : RetryInterceptor).interceptAll [unavailable, unavailable]) := by
  have hhistory := forall₂_sentAsSaid_iff [unavailable, unavailable] { maxRetry := 1 } (by decide)
    (by decide)
  refine ⟨by decide +kernel, ?_⟩
  rw [hhistory]
  decide

end Net
end SpinVpn
