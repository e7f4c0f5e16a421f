import Mathlib.Data.List.Sublists

/-!
# Foundations/GreedySuppression — keeping what nothing kept conflicts with

`suppress conflicts cap` walks over a list and keeps an element unless it conflicts with one it has
kept, until it has kept `cap`.  What is kept is a sublist (`suppress_sublist`) without conflicts
(`pairwise_suppress`), and what is not kept conflicts with something kept ahead of it, or came after
the last element there was room for (`suppress_complete`).
-/

namespace FacLpr

variable {α : Type*} {conflicts : α → α → Bool} {cap : ℕ}

/-- The loop, from what it has kept. -/
def suppressFrom (conflicts : α → α → Bool) (cap : ℕ) (kept : List α) : List α → List α
  | [] => kept
  | a :: rest =>
      if kept.any (conflicts a) then suppressFrom conflicts cap kept rest
      else if cap ≤ (kept ++ [a]).length then kept ++ [a]
      else suppressFrom conflicts cap (kept ++ [a]) rest

def suppress (conflicts : α → α → Bool) (cap : ℕ) (l : List α) : List α :=
  suppressFrom conflicts cap [] l

/-- What the loop adds is a sublist of what it walks over. -/
theorem exists_suppressFrom_eq (kept l : List α) :
    ∃ added, suppressFrom conflicts cap kept l = kept ++ added ∧ added.Sublist l := by
  induction l generalizing kept with
  | nil => exact ⟨[], (List.append_nil kept).symm, .slnil⟩
  | cons a l ih =>
    unfold suppressFrom
    split
    · obtain ⟨added, heq, hsub⟩ := ih kept
      exact ⟨added, heq, hsub.cons a⟩
    · split
      · exact ⟨[a], rfl, (List.nil_sublist l).cons_cons a⟩
      · obtain ⟨added, heq, hsub⟩ := ih (kept ++ [a])
        exact ⟨a :: added, by rw [heq, List.append_assoc, List.singleton_append],
          hsub.cons_cons a⟩

theorem suppress_sublist (l : List α) : (suppress conflicts cap l).Sublist l := by
  obtain ⟨added, heq, hsub⟩ := exists_suppressFrom_eq [] l
  rwa [suppress, heq, List.nil_append]

theorem length_suppressFrom_le {kept : List α} (h : kept.length < cap) (l : List α) :
    (suppressFrom conflicts cap kept l).length ≤ cap := by
  induction l generalizing kept with
  | nil => exact h.le
  | cons a l ih =>
    unfold suppressFrom
    split
    · exact ih h
    · split
      · rw [List.length_append, List.length_singleton]
        exact h
      · exact ih (not_le.mp ‹_›)

/-- **There is room for `cap` elements.** -/
theorem length_suppress_le (hcap : 0 < cap) (l : List α) :
    (suppress conflicts cap l).length ≤ cap :=
  length_suppressFrom_le (by simpa using hcap) l

theorem pairwise_suppressFrom {kept : List α}
    (h : kept.Pairwise fun a b => conflicts b a = false) (l : List α) :
    (suppressFrom conflicts cap kept l).Pairwise fun a b => conflicts b a = false := by
  induction l generalizing kept with
  | nil => exact h
  | cons a l ih =>
    unfold suppressFrom
    split
    · exact ih h
    · rename_i hclear
      have hkept : (kept ++ [a]).Pairwise fun a b => conflicts b a = false := by
        refine List.pairwise_append.mpr ⟨h, List.pairwise_singleton _ a, fun b hb c hc => ?_⟩
        rw [List.mem_singleton.mp hc]
        exact Bool.eq_false_iff.mpr (List.any_eq_false.mp (Bool.eq_false_iff.mpr hclear) b hb)
      split
      · exact hkept
      · exact ih hkept

/-- **Nothing kept conflicts with what was kept before it.** -/
theorem pairwise_suppress (l : List α) :
    (suppress conflicts cap l).Pairwise fun a b => conflicts b a = false :=
  pairwise_suppressFrom .nil l

theorem map_suppressFrom {β : Type*} {conflicts : β → β → Bool} (f : α → β) (kept l : List α) :
    (suppressFrom (fun a b => conflicts (f a) (f b)) cap kept l).map f =
      suppressFrom conflicts cap (kept.map f) (l.map f) := by
  induction l generalizing kept with
  | nil => rfl
  | cons a l ih =>
    have hany : (kept.map f).any (conflicts (f a)) = kept.any fun b => conflicts (f a) (f b) :=
      List.any_map
    have hlength : (kept.map f ++ [f a]).length = (kept ++ [a]).length := by simp
    rw [List.map_cons, suppressFrom, suppressFrom, hany, hlength]
    split
    · exact ih kept
    · split
      · exact List.map_append
      · rw [ih, List.map_append, List.map_singleton]

/-- **The loop sees its elements through their conflicts only.** -/
theorem map_suppress {β : Type*} {conflicts : β → β → Bool} (f : α → β) (l : List α) :
    (suppress (fun a b => conflicts (f a) (f b)) cap l).map f =
      suppress conflicts cap (l.map f) :=
  map_suppressFrom f [] l

/-- Why an element of the list may be missing from what is kept. -/
def AccountedFor (conflicts : α → α → Bool) (cap : ℕ) (ahead : α → α → Prop) (kept : List α)
    (a : α) : Prop :=
  a ∈ kept ∨ (∃ b ∈ kept, ahead b a ∧ conflicts a b = true) ∨
    (cap ≤ kept.length ∧ ∀ b ∈ kept, ahead b a)

theorem suppressFrom_complete {ahead : α → α → Prop} {kept l : List α}
    (hkept : ∀ b ∈ kept, ∀ a ∈ l, ahead b a) (hl : l.Pairwise ahead) :
    ∀ a ∈ l, AccountedFor conflicts cap ahead (suppressFrom conflicts cap kept l) a := by
  induction l generalizing kept with
  | nil => exact fun a ha => absurd ha List.not_mem_nil
  | cons c l ih =>
    obtain ⟨hhead, htail⟩ := List.pairwise_cons.mp hl
    have hmore : ∀ b ∈ kept ++ [c], ∀ a ∈ l, ahead b a := by
      intro b hb a ha
      rcases List.mem_append.mp hb with hb | hb
      · exact hkept b hb a (List.mem_cons_of_mem c ha)
      · rw [List.mem_singleton.mp hb]
        exact hhead a ha
    unfold suppressFrom
    split
    · -- `c` conflicts with something kept, which the loop keeps to the end
      rename_i hconflict
      obtain ⟨b, hb, hcb⟩ := List.any_eq_true.mp hconflict
      obtain ⟨added, heq, -⟩ := exists_suppressFrom_eq kept l
      refine List.forall_mem_cons.mpr ⟨Or.inr (Or.inl ⟨b, ?_, hkept b hb c List.mem_cons_self, hcb⟩),
        ih (fun b hb a ha => hkept b hb a (List.mem_cons_of_mem c ha)) htail⟩
      rw [heq]
      exact List.mem_append_left added hb
    · split
      · rename_i hfull
        exact List.forall_mem_cons.mpr
          ⟨Or.inl (List.mem_append_right kept (List.mem_singleton_self c)), fun a ha =>
            Or.inr (Or.inr ⟨hfull, fun b hb => hmore b hb a ha⟩)⟩
      · obtain ⟨added, heq, -⟩ :=
          exists_suppressFrom_eq (kept ++ [c]) l
        refine List.forall_mem_cons.mpr ⟨Or.inl ?_, ih hmore htail⟩
        rw [heq]
        exact List.mem_append_left added (List.mem_append_right kept (List.mem_singleton_self c))

/-- **Nothing is dropped without cause.** -/
theorem suppress_complete {ahead : α → α → Prop} {l : List α} (hl : l.Pairwise ahead) :
    ∀ a ∈ l, AccountedFor conflicts cap ahead (suppress conflicts cap l) a :=
  suppressFrom_complete (fun _ hb => absurd hb List.not_mem_nil) hl

end FacLpr
