import Mathlib.Data.List.Infix
import Mathlib.Data.Nat.Find

/-!
# Foundations/Replacement — find and replace, resumed after each replacement

The loop over `std::string::find` and `std::string::replace` ends, and what it leaves is the text
between the copies it found (`Cut`) with the replacement between them (`replaceLoop_eq`).  Where the
replacement is the end of the word replaced, the loop only strikes out its beginning: what is left
are stretches of the text itself (`intercalate_stretches`), and a word is left when it is in one of
them or is spelled across what is struck out (`infix_flatten_iff`).
-/

namespace FacLpr

variable {α : Type*}

/-! ## The loop -/

section Loop

variable [DecidableEq α]

/-- `find(v, offset)`. -/
def findFrom (m v : List α) (offset : ℕ) : Option ℕ :=
  (List.range' offset (m.length + 1 - offset)).find? fun i => v.isPrefixOf (m.drop i)

/-- `replace(position, count, r)`. -/
def replaceAt (m : List α) (position count : ℕ) (r : List α) : List α :=
  m.take position ++ r ++ m.drop (position + count)

/-- Find and replace from `offset` on, resumed after each replacement, with a bound on the
rounds. -/
def replaceLoop (v r : List α) : ℕ → List α → ℕ → Option (List α)
  | 0, _, _ => none
  | fuel + 1, m, offset =>
      match findFrom m v offset with
      | none => some m
      | some position =>
          replaceLoop v r fuel (replaceAt m position v.length r) (position + r.length)

end Loop

/-! ## The copies it finds -/

/-- The pieces of a text between the copies of `v`, from left to right and not overlapping. -/
inductive Cut (v : List α) : List α → List (List α) → Prop
  | last {m : List α} : ¬ v <:+: m → Cut v m [m]
  | copy {p rest : List α} {ps : List (List α)} :
      (∀ i < p.length, ¬ v <+: (p ++ v ++ rest).drop i) → Cut v rest ps →
      Cut v (p ++ v ++ rest) (p :: ps)

variable {v r m : List α} {ps : List (List α)}

theorem Cut.ne_nil (h : Cut v m ps) : ps ≠ [] := by
  cases h <;> exact List.cons_ne_nil _ _

theorem exists_drop_of_infix (h : v <:+: m) : ∃ i ≤ m.length, v <+: m.drop i := by
  obtain ⟨s, t, rfl⟩ := h
  refine ⟨s.length, ?_, ?_⟩
  · simp
  · rw [List.append_assoc, List.drop_left]
    exact List.prefix_append v t

theorem infix_of_prefix_drop {i : ℕ} (h : v <+: m.drop i) : v <:+: m :=
  h.isInfix.trans (List.drop_suffix i m).isInfix

/-- **Every text is cut** into pieces. -/
theorem exists_cut (hv : v ≠ []) (m : List α) : ∃ ps, Cut v m ps := by
  induction hlength : m.length using Nat.strongRecOn generalizing m with
  | _ n ih =>
    by_cases hin : v <:+: m
    · classical
      have hex : ∃ i, v <+: m.drop i := by
        obtain ⟨i, -, hi⟩ := exists_drop_of_infix hin
        exact ⟨i, hi⟩
      -- the first copy, and what is behind it
      obtain ⟨rest, hrest⟩ := Nat.find_spec hex
      have hm : m = m.take (Nat.find hex) ++ v ++ rest := by
        rw [List.append_assoc, hrest, List.take_append_drop]
      have hshort : rest.length < n := by
        have hpos := List.length_pos_of_ne_nil hv
        have htotal := congrArg List.length hm
        simp only [List.length_append] at htotal
        omega
      obtain ⟨ps, hps⟩ := ih rest.length hshort rest rfl
      refine ⟨m.take (Nat.find hex) :: ps, ?_⟩
      have hfirst : ∀ i < (m.take (Nat.find hex)).length, ¬ v <+: m.drop i := fun i hi =>
        Nat.find_min hex (hi.trans_le (List.length_take_le _ _))
      have hcopy : Cut v (m.take (Nat.find hex) ++ v ++ rest) (m.take (Nat.find hex) :: ps) :=
        Cut.copy (by rwa [← hm]) hps
      rwa [← hm] at hcopy
    · exact ⟨[m], Cut.last hin⟩

/-- A shorter text in place of the copies makes no text longer. -/
theorem Cut.length_intercalate_le (h : Cut v m ps) (hr : r.length ≤ v.length) :
    (r.intercalate ps).length ≤ m.length := by
  induction h with
  | last => rw [List.intercalate_singleton]
  | copy _ hrest ih =>
    rw [List.intercalate_cons_of_ne_nil hrest.ne_nil]
    simp only [List.length_append]
    omega

/-- The first copy is where it is. -/
theorem length_eq_of_first {p p' rest rest' : List α} (hm : p ++ v ++ rest = p' ++ v ++ rest')
    (h : ∀ i < p.length, ¬ v <+: (p ++ v ++ rest).drop i)
    (h' : ∀ i < p'.length, ¬ v <+: (p' ++ v ++ rest').drop i) : p.length = p'.length := by
  have hcopy : ∀ q q' : List α, v <+: (q ++ v ++ q').drop q.length := fun q q' => by
    rw [List.append_assoc, List.drop_left]
    exact List.prefix_append _ _
  rcases lt_trichotomy p.length p'.length with hlt | heq | hlt
  · exact absurd (hm ▸ hcopy p rest) (h' _ hlt)
  · exact heq
  · exact absurd (hm ▸ hcopy p' rest') (h _ hlt)

/-- **A text is cut in one way.** -/
theorem Cut.unique {ps' : List (List α)} (h : Cut v m ps) (h' : Cut v m ps') : ps = ps' := by
  induction h generalizing ps' with
  | last hm =>
    cases h' with
    | last => rfl
    | @copy p rest => exact absurd (List.infix_append p v rest) hm
  | @copy p rest ps hfirst _ ih =>
    generalize htext : p ++ v ++ rest = text at h'
    cases h' with
    | last hm => exact absurd (htext ▸ List.infix_append p v rest) hm
    | @copy p' rest' ps' hfirst' hrest' =>
      obtain ⟨hfront, rfl⟩ := List.append_inj htext
        (by simpa using length_eq_of_first htext hfirst hfirst')
      rw [List.append_cancel_right hfront, ih hrest']

/-! ## What the loop leaves -/

section Loop

variable [DecidableEq α]

theorem findFrom_eq_none (before : List α) (h : ¬ v <:+: m) :
    findFrom (before ++ m) v before.length = none := by
  unfold findFrom
  rw [List.find?_range'_eq_none]
  intro i hi _
  rw [Bool.not_eq_true', ← Bool.not_eq_true, List.isPrefixOf_iff_prefix]
  intro hprefix
  obtain ⟨k, rfl⟩ := Nat.exists_eq_add_of_le hi
  rw [List.drop_length_add_append] at hprefix
  exact h (infix_of_prefix_drop hprefix)

theorem findFrom_eq_some (before : List α) {p rest : List α}
    (h : ∀ i < p.length, ¬ v <+: (p ++ v ++ rest).drop i) :
    findFrom (before ++ (p ++ v ++ rest)) v before.length = some (before.length + p.length) := by
  unfold findFrom
  rw [List.find?_range'_eq_some]
  refine ⟨?_, ?_, ?_⟩
  · rw [List.isPrefixOf_iff_prefix, List.drop_length_add_append, List.append_assoc,
      List.drop_left]
    exact List.prefix_append v rest
  · rw [List.mem_range'_1]
    simp only [List.length_append]
    omega
  · intro j hj hlt
    rw [Bool.not_eq_true', ← Bool.not_eq_true, List.isPrefixOf_iff_prefix]
    obtain ⟨k, rfl⟩ := Nat.exists_eq_add_of_le hj
    rw [List.drop_length_add_append]
    exact h k (by omega)

omit [DecidableEq α] in
theorem replaceAt_eq (before p rest : List α) :
    replaceAt (before ++ (p ++ v ++ rest)) (before.length + p.length) v.length r =
      before ++ p ++ r ++ rest := by
  have hsplit : before ++ (p ++ v ++ rest) = (before ++ p) ++ (v ++ rest) := by
    simp only [List.append_assoc]
  have hcount : before.length + p.length = (before ++ p).length := List.length_append.symm
  unfold replaceAt
  rw [hsplit, hcount, List.take_left, List.drop_length_add_append, List.drop_left]

/-- **The loop ends**, and leaves the pieces with the replacement between them. -/
theorem replaceLoop_eq (hv : v ≠ []) (h : Cut v m ps) (before : List α) {fuel : ℕ}
    (hfuel : m.length < fuel) :
    replaceLoop v r fuel (before ++ m) before.length = some (before ++ r.intercalate ps) := by
  induction h generalizing before fuel with
  | last hm =>
    obtain ⟨fuel, rfl⟩ := Nat.exists_eq_succ_of_ne_zero (Nat.ne_zero_of_lt hfuel)
    rw [replaceLoop, findFrom_eq_none before hm, List.intercalate_singleton]
  | @copy p rest ps hfirst hrest ih =>
    obtain ⟨fuel, rfl⟩ := Nat.exists_eq_succ_of_ne_zero (Nat.ne_zero_of_lt hfuel)
    have hpos := List.length_pos_of_ne_nil hv
    have hnext : rest.length < fuel := by
      simp only [List.length_append] at hfuel
      omega
    have hoffset : before.length + p.length + r.length = (before ++ p ++ r).length := by
      simp only [List.length_append]
    rw [replaceLoop, findFrom_eq_some before hfirst]
    simp only [replaceAt_eq, hoffset]
    rw [ih (before ++ p ++ r) hnext, List.intercalate_cons_of_ne_nil hrest.ne_nil]
    simp only [List.append_assoc]

end Loop

/-! ## What is spelled in it -/

/-- The stretches of a text that are left when the beginning of each copy is struck out: the first
piece, and then each piece with the end `r` of the copy before it. -/
def stretches (r : List α) : List (List α) → List (List α)
  | [] => []
  | p :: ps => p :: ps.map (r ++ ·)

/-- They are what the loop leaves. -/
theorem flatten_stretches (r : List α) (ps : List (List α)) :
    (stretches r ps).flatten = r.intercalate ps := by
  cases ps with
  | nil => rfl
  | cons p ps =>
    rw [stretches, List.flatten_cons]
    induction ps generalizing p with
    | nil => rw [List.map_nil, List.flatten_nil, List.append_nil, List.intercalate_singleton]
    | cons q ps ih =>
      rw [List.map_cons, List.flatten_cons, List.append_assoc, ih, List.intercalate_cons_cons,
        List.append_assoc]

/-- **They are stretches of the text itself**, with the struck out beginnings between them. -/
theorem Cut.intercalate_stretches {d : List α} (h : Cut (d ++ r) m ps) :
    d.intercalate (stretches r ps) = m := by
  induction h with
  | last => exact List.intercalate_singleton
  | @copy p rest ps _ hrest ih =>
    obtain ⟨q, ps, rfl⟩ := List.exists_cons_of_ne_nil hrest.ne_nil
    have hshift : d.intercalate (stretches r (q :: ps)) = rest := ih
    have hhead : d.intercalate ((r ++ q) :: ps.map (r ++ ·)) =
        r ++ d.intercalate (stretches r (q :: ps)) := by
      cases ps with
      | nil => simp [stretches]
      | cons => simp only [stretches, List.map_cons, List.intercalate_cons_cons, List.append_assoc]
    rw [stretches, List.map_cons, List.intercalate_cons_cons, hhead, hshift]
    simp only [List.append_assoc]

/-- A word is read from the start of the first stretch on, past its end into the next ones. -/
inductive ReadOn : List α → List (List α) → Prop
  | nil {qs : List (List α)} : ReadOn [] qs
  | within {w q : List α} {qs : List (List α)} : w <+: q → ReadOn w (q :: qs)
  | across {w q : List α} {qs : List (List α)} : ReadOn w qs → ReadOn (q ++ w) (q :: qs)

theorem readOn_iff {w : List α} {qs : List (List α)} : ReadOn w qs ↔ w <+: qs.flatten := by
  constructor
  · intro h
    induction h with
    | nil => exact List.nil_prefix
    | within h => exact h.trans (List.prefix_append _ _)
    | across _ ih => exact (List.prefix_append_right_inj _).mpr ih
  · intro h
    induction qs generalizing w with
    | nil => exact List.prefix_nil.mp h ▸ ReadOn.nil
    | cons q qs ih =>
      rcases List.prefix_or_prefix_of_prefix h (List.prefix_append q qs.flatten) with hin | ⟨w, rfl⟩
      · exact .within hin
      · exact .across (ih ((List.prefix_append_right_inj q).mp h))

/-- A word starts in one of the stretches and ends in a later one. -/
def SpelledAcross (w : List α) : List (List α) → Prop
  | [] => False
  | q :: qs => (∃ s e, s ≠ [] ∧ e ≠ [] ∧ w = s ++ e ∧ s <:+ q ∧ ReadOn e qs) ∨ SpelledAcross w qs

/-- **Where a word is left**: in a stretch, or spelled across some of them. -/
theorem infix_flatten_iff {w : List α} (hw : w ≠ []) {qs : List (List α)} :
    w <:+: qs.flatten ↔ (∃ q ∈ qs, w <:+: q) ∨ SpelledAcross w qs := by
  induction qs with
  | nil => simp [SpelledAcross, hw]
  | cons q qs ih =>
    simp only [List.flatten_cons, List.infix_append_iff_ne_nil, ih, SpelledAcross, readOn_iff,
      List.exists_mem_cons_iff, or_assoc]
    exact or_congr_right (or_congr_right or_comm)

end FacLpr
