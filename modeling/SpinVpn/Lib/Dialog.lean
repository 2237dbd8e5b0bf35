import Mathlib.Data.List.Basic

/-!
# Dialog — readers that ask for a number of bytes at a time

A reader asks in each of its states for a number of bytes and goes on with what they are.  On a
stream they come in pieces, none of which is longer than what is still asked for (`feed`).  Where it
gets does not depend on the pieces: it is where the whole text leads (`read_feed`), and nothing
behind the bytes that it asked for is taken.
-/

namespace Dialog

universe u

structure Reader (σ : Type u) where
  need : σ → Nat
  next : σ → List UInt8 → σ

variable {σ : Type u} (R : Reader σ)

/-- Where a text leads, and what is there of the bytes that are asked for then.  A state that asks for
nothing is an end and leaves the rest. -/
def read (s : σ) (text : List UInt8) : σ × List UInt8 :=
  if 0 < R.need s ∧ R.need s ≤ text.length then
    read (R.next s (text.take (R.need s))) (text.drop (R.need s))
  else (s, text)
termination_by text.length
decreasing_by
  simp only [List.length_drop]
  omega

/-- A piece is added to what is there. -/
def feed (p : σ × List UInt8) (piece : List UInt8) : σ × List UInt8 :=
  if p.2.length + piece.length < R.need p.1 then (p.1, p.2 ++ piece)
  else (R.next p.1 (p.2 ++ piece), [])

theorem read_nil (s : σ) : read R s [] = (s, []) := by
  rw [read, if_neg]
  simp only [List.length_nil]
  omega

/-- Reading goes on from where it stopped. -/
theorem read_append (s : σ) (text piece : List UInt8) :
    read R s (text ++ piece) = read R (read R s text).1 ((read R s text).2 ++ piece) := by
  fun_induction read R s text with
  | case1 s text hneed ih =>
      have hlen : R.need s ≤ (text ++ piece).length := by
        rw [List.length_append]
        omega
      calc read R s (text ++ piece)
          = read R (R.next s ((text ++ piece).take (R.need s))) ((text ++ piece).drop (R.need s)) := by
            rw [read, if_pos ⟨hneed.1, hlen⟩]
        _ = read R (R.next s (text.take (R.need s))) (text.drop (R.need s) ++ piece) := by
            rw [List.take_append_of_le_length hneed.2, List.drop_append_of_le_length hneed.2]
        _ = _ := ih
  | case2 s text hneed => rfl

/-- An end leaves the text. -/
theorem read_end {s : σ} (h : R.need s = 0) (text : List UInt8) : read R s text = (s, text) := by
  rw [read, if_neg (by omega)]

/-- A reader that gets elsewhere has got what it asked for first. -/
theorem read_step {s : σ} {text : List UInt8} {p : σ × List UInt8} (h : read R s text = p)
    (hne : p.1 ≠ s) :
    R.need s ≤ text.length ∧ read R (R.next s (text.take (R.need s))) (text.drop (R.need s)) = p := by
  rw [read] at h
  split at h
  · rename_i hneed
    exact ⟨hneed.2, h⟩
  · subst h
    exact absurd rfl hne

/-- A piece leads on as it would have at the end of the text. -/
theorem read_feed (s : σ) (text piece : List UInt8) (hneed : 0 < R.need (read R s text).1)
    (hpiece : (read R s text).2.length + piece.length ≤ R.need (read R s text).1) :
    read R s (text ++ piece) = feed R (read R s text) piece := by
  rw [read_append]
  generalize read R s text = p at *
  have hlen : (p.2 ++ piece).length = p.2.length + piece.length := List.length_append
  rw [feed]
  split
  · rw [read, if_neg (by omega)]
  · have hall : R.need p.1 = (p.2 ++ piece).length := by omega
    rw [read, if_pos ⟨hneed, by omega⟩, hall, List.take_length, List.drop_length, read_nil]

end Dialog
