import FacLpr.Foundations.Replacement
import FacLpr.Foundations.Text
import Mathlib.Data.List.TakeWhile

/-!
# Infrastructure/Onnx/PathRedaction — the path of a model, left out of a message

`redact_path` puts the file name for every copy of the path it finds, and resumes behind it: of each
copy it strikes out the directory.  A path that the message spells across what is struck out is not
found again, and stays (`redacted_iff`).
-/

namespace FacLpr

/-- `path::filename`, of a POSIX path: what is behind the last separator. -/
def filename (path : Text) : Text := (path.reverse.takeWhile (· ≠ byte '/')).reverse

/-- `has_parent_path`. -/
def hasParentPath (path : Text) : Prop := byte '/' ∈ path

/-- `replace_all`, with a bound on the rounds of its loop. -/
def replaceAll (fuel : ℕ) (replacement detail value : Text) : Option Text :=
  if value.isEmpty then some detail else replaceLoop value replacement fuel detail 0

/-- `redact_path`.  The absolute path is what `std::filesystem::absolute` returns, or nothing when
it throws. -/
def redactPath (fuel : ℕ) (detail path : Text) (absolute : Option Text) : Option Text := do
  let replacement := filename path
  let detail ← replaceAll fuel replacement detail path
  match absolute with
  | none => return detail
  | some value => replaceAll fuel replacement detail value

/-- The loops end, and the path is not in what they leave. -/
def Redacted (detail path : Text) (absolute : Option Text) : Prop :=
  ∃ result, (∀ fuel, detail.length < fuel → redactPath fuel detail path absolute = some result) ∧
    ¬ path <:+: result

/-- The word is spelled in the message across the directories of the copies of the path, or from the
file name of one of them on.  The copies are those a scan finds from left to right, none of which
overlap, and the stretches are the text of the message between their directories. -/
def Respelled (detail path word : Text) : Prop :=
  ∃ pieces, Cut path detail pieces ∧
    ((∃ stretch ∈ stretches (filename path) pieces, word <:+: stretch) ∨
      SpelledAcross word (stretches (filename path) pieces))

/-- The file name is the end of the path, and what is before it the directory. -/
theorem exists_directory (path : Text) : ∃ directory, directory ++ filename path = path := by
  have hprefix := List.takeWhile_prefix (l := path.reverse) fun b => decide (b ≠ byte '/')
  obtain ⟨rest, hrest⟩ := List.reverse_suffix.mpr hprefix
  exact ⟨rest, hrest.trans (List.reverse_reverse path)⟩

/-- **The stretches are the message's own text**, with the directory between them. -/
theorem exists_intercalate_stretches {detail path : Text} {pieces : List Text}
    (h : Cut path detail pieces) : ∃ directory, directory ++ filename path = path ∧
      directory.intercalate (stretches (filename path) pieces) = detail := by
  obtain ⟨directory, hpath⟩ := exists_directory path
  refine ⟨directory, hpath, Cut.intercalate_stretches (r := filename path) ?_⟩
  rwa [hpath]

theorem length_filename_lt {path : Text} (h : hasParentPath path) :
    (filename path).length < path.length := by
  have hprefix := List.takeWhile_prefix (l := path.reverse) fun b => decide (b ≠ byte '/')
  have hle := hprefix.length_le
  unfold filename
  rw [List.length_reverse]
  refine lt_of_le_of_ne (hle.trans_eq List.length_reverse) fun heq => ?_
  -- a name as long as the path would be all of it, with no separator
  have hall := hprefix.eq_of_length (heq.trans List.length_reverse.symm)
  rw [List.takeWhile_eq_self_iff] at hall
  exact of_decide_eq_true (hall _ (List.mem_reverse.mpr h)) rfl

section

variable {fuel : ℕ} {detail path value : Text} {pieces pieces' : List Text}

theorem replaceAll_eq {replacement : Text} (hvalue : value ≠ []) (h : Cut value detail pieces)
    (hfuel : detail.length < fuel) :
    replaceAll fuel replacement detail value = some (replacement.intercalate pieces) := by
  unfold replaceAll
  rw [if_neg (by rwa [List.isEmpty_iff])]
  exact replaceLoop_eq hvalue h [] hfuel

variable (hparent : hasParentPath path)
include hparent

theorem path_ne_nil : path ≠ [] := List.ne_nil_of_mem hparent

theorem redactPath_none (h : Cut path detail pieces) (hfuel : detail.length < fuel) :
    redactPath fuel detail path none = some ((filename path).intercalate pieces) :=
  Option.bind_eq_some_iff.mpr ⟨_, replaceAll_eq (path_ne_nil hparent) h hfuel, rfl⟩

/-- The second loop has nothing to do where the first one left no absolute path. -/
theorem redactPath_some (hvalue : value ≠ []) (h : Cut path detail pieces)
    (hnone : ¬ value <:+: (filename path).intercalate pieces) (hfuel : detail.length < fuel) :
    redactPath fuel detail path (some value) = some ((filename path).intercalate pieces) := by
  have hshorter := h.length_intercalate_le (length_filename_lt hparent).le
  have hidle : replaceAll fuel (filename path) _ value = _ :=
    replaceAll_eq hvalue (Cut.last hnone) (hshorter.trans_lt hfuel)
  rw [List.intercalate_singleton] at hidle
  exact Option.bind_eq_some_iff.mpr ⟨_, replaceAll_eq (path_ne_nil hparent) h hfuel, hidle⟩

end

/-- **Where the first loop leaves a word.** -/
theorem infix_intercalate_iff {detail path word : Text} {pieces : List Text} (hword : word ≠ [])
    (h : Cut path detail pieces) :
    word <:+: (filename path).intercalate pieces ↔ Respelled detail path word := by
  rw [← flatten_stretches, infix_flatten_iff hword]
  constructor
  · exact fun hspelled => ⟨pieces, h, hspelled⟩
  · rintro ⟨pieces', h', hspelled⟩
    rwa [h.unique h']

/-- **Where the message does not respell the absolute path**, the first loop decides. -/
theorem redacted_iff_of_idle (detail : Text) {path : Text} (hparent : hasParentPath path)
    {absolute : Option Text}
    (habsolute : ∀ value ∈ absolute, path <:+ value ∧ ¬ Respelled detail path value) :
    Redacted detail path absolute ↔ ¬ Respelled detail path path := by
  obtain ⟨pieces, hpieces⟩ := exists_cut (path_ne_nil hparent) detail
  have hrun : ∀ fuel, detail.length < fuel →
      redactPath fuel detail path absolute = some ((filename path).intercalate pieces) := by
    intro fuel hfuel
    cases absolute with
    | none => exact redactPath_none hparent hpieces hfuel
    | some value =>
      obtain ⟨hsuffix, hnot⟩ := habsolute value rfl
      have hvalue : value ≠ [] := fun hnil =>
        path_ne_nil hparent (List.suffix_nil.mp (hnil ▸ hsuffix))
      exact redactPath_some hparent hvalue hpieces
        (mt (infix_intercalate_iff hvalue hpieces).mp hnot) hfuel
  rw [← infix_intercalate_iff (path_ne_nil hparent) hpieces]
  constructor
  · rintro ⟨result, hresult, hclean⟩
    have hsame := (hresult _ (Nat.lt_succ_self _)).symm.trans (hrun _ (Nat.lt_succ_self _))
    rwa [← Option.some.inj hsame]
  · exact fun hclean => ⟨_, hrun, hclean⟩

/-- **When the path is redacted.**  For every message, no path is left whatever the absolute path
turns out to be (it ends in the path, or none is there) exactly when the message does not respell
the path; and so it is for each absolute path that the message does not respell. -/
theorem redacted_iff (detail : Text) {path : Text} (hparent : hasParentPath path) :
    ((∀ absolute : Option Text, (∀ value ∈ absolute, path <:+ value) →
        Redacted detail path absolute) ↔ ¬ Respelled detail path path) ∧
      ∀ absolute : Option Text,
        (∀ value ∈ absolute, path <:+ value ∧ ¬ Respelled detail path value) →
          (Redacted detail path absolute ↔ ¬ Respelled detail path path) := by
  refine ⟨⟨fun h => ?_, fun hnot absolute habsolute => ?_⟩,
    fun absolute => redacted_iff_of_idle detail hparent⟩
  · have hnone : ∀ value ∈ (none : Option Text), path <:+ value ∧ ¬ Respelled detail path value :=
      fun value hvalue => absurd hvalue (Option.not_mem_none value)
    exact (redacted_iff_of_idle detail hparent hnone).mp
      (h none fun value hvalue => absurd hvalue (Option.not_mem_none value))
  · obtain ⟨pieces, hpieces⟩ := exists_cut (path_ne_nil hparent) detail
    refine (redacted_iff_of_idle detail hparent fun value hvalue => ?_).mpr hnot
    -- an absolute path that is respelled has the path at its end
    have hsuffix := habsolute value hvalue
    have hvalueNe : value ≠ [] := fun hnil =>
      path_ne_nil hparent (List.suffix_nil.mp (hnil ▸ hsuffix))
    refine ⟨hsuffix, fun hrespelled => hnot ?_⟩
    exact (infix_intercalate_iff (path_ne_nil hparent) hpieces).mp
      (hsuffix.isInfix.trans ((infix_intercalate_iff hvalueNe hpieces).mpr hrespelled))

/-- A path with a parent directory. -/
def platePath : Text := ascii "models/plate.onnx"

/-- The same path from the root on. -/
def absolutePlatePath : Text := ascii "/srv/models/plate.onnx"

/-- The directory of the path, and then the path. -/
def doubledDirectory : Text := ascii "models/models/plate.onnx"

theorem hasParentPath_platePath : hasParentPath platePath := by
  unfold hasParentPath
  decide +kernel

theorem platePath_suffix_absolutePlatePath : platePath <:+ absolutePlatePath := by decide +kernel

theorem redactPath_doubledDirectory :
    redactPath 25 doubledDirectory platePath (some absolutePlatePath) = some platePath := by
  decide +kernel

theorem not_redacted_of_result {fuel : ℕ} {detail path result : Text} {absolute : Option Text}
    (hfuel : detail.length < fuel) (h : redactPath fuel detail path absolute = some result)
    (hin : path <:+: result) : ¬ Redacted detail path absolute := by
  rintro ⟨result', hresult, hclean⟩
  rw [hresult fuel hfuel] at h
  cases h
  exact hclean hin

/-- The directory before the path respells it. -/
theorem redacted_iff_doubledDirectory : Respelled doubledDirectory platePath platePath := by
  have habsolute : ∀ value ∈ some absolutePlatePath, platePath <:+ value := by
    rintro value ⟨rfl⟩
    exact platePath_suffix_absolutePlatePath
  by_contra hnot
  exact not_redacted_of_result (by decide) redactPath_doubledDirectory (List.infix_refl _)
    ((redacted_iff doubledDirectory hasParentPath_platePath).1.mpr hnot _ habsolute)

/-- The whole path is left of a message that repeats its directory. -/
theorem doubledDirectory_exposes_path :
    hasParentPath platePath ∧ platePath <:+ absolutePlatePath ∧
      redactPath 25 doubledDirectory platePath (some absolutePlatePath) = some platePath ∧
      ¬ Redacted doubledDirectory platePath (some absolutePlatePath) :=
  ⟨hasParentPath_platePath, platePath_suffix_absolutePlatePath, redactPath_doubledDirectory,
    not_redacted_of_result (by decide) redactPath_doubledDirectory (List.infix_refl _)⟩

end FacLpr
